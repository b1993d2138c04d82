/-!
Cutting a list at separators. `pieces` keeps every piece, the empty ones too, so that joining them
again gives the list back; `words` keeps the maximal runs without a separator.
-/

namespace BootSequence

variable {α : Type}

/-- The parts of a list between the elements that separate, one more than there are separators. -/
def pieces (separates : α → Bool) (l : List α) : List (List α) :=
  l.foldr (fun a rest => if separates a then [] :: rest else (a :: rest.headD []) :: rest.tail) [[]]

/-- The maximal non-empty runs without a separator. -/
def words (separates : α → Bool) (l : List α) : List (List α) :=
  (pieces separates l).filter (!·.isEmpty)

@[simp] theorem pieces_nil (separates : α → Bool) : pieces separates [] = [[]] := rfl

theorem pieces_cons_of_separates {separates : α → Bool} {a : α} (h : separates a = true)
    (l : List α) : pieces separates (a :: l) = [] :: pieces separates l := by
  simp [pieces, h]

theorem pieces_ne_nil (separates : α → Bool) (l : List α) : pieces separates l ≠ [] := by
  cases l with
  | nil => simp
  | cons a l => by_cases h : separates a = true <;> simp [pieces, h]

end BootSequence
