import BootSequence.Text.Blank
import Mathlib.Data.List.DropRight

/-!
White space around text, and between its fields. What is trimmed has the fields that it had before,
and to add white space at either end changes nothing that is left of it.
-/

namespace BootSequence

/-! ## Words -/

section Words

variable {α : Type} {separates : α → Bool}

theorem words_cons_of_separates {a : α} (h : separates a = true) (l : List α) :
    words separates (a :: l) = words separates l := by
  rw [words, pieces_cons_of_separates h]
  rfl

theorem words_append_of_separates {gap : List α} (h : ∀ a ∈ gap, separates a = true) (l : List α) :
    words separates (gap ++ l) = words separates l := by
  induction gap with
  | nil => rfl
  | cons a gap ih =>
    rw [List.cons_append, words_cons_of_separates (h a List.mem_cons_self)]
    exact ih fun b hb => h b (List.mem_cons_of_mem _ hb)

/-- A run without separators goes to the first piece of what follows. -/
theorem pieces_append_of_not_separates {word : List α} (h : ∀ a ∈ word, separates a = false)
    (l : List α) :
    pieces separates (word ++ l) =
      (word ++ (pieces separates l).headD []) :: (pieces separates l).tail := by
  induction word with
  | nil =>
    obtain ⟨first, rest, hl⟩ := List.exists_cons_of_ne_nil (pieces_ne_nil separates l)
    rw [List.nil_append, List.nil_append, hl]
    rfl
  | cons a word ih =>
    have ha : separates a = false := h a List.mem_cons_self
    have hstep : pieces separates (a :: (word ++ l)) =
        (a :: (pieces separates (word ++ l)).headD []) ::
          (pieces separates (word ++ l)).tail := by
      simp [pieces, ha]
    rw [List.cons_append, hstep, ih fun b hb => h b (List.mem_cons_of_mem _ hb)]
    rfl

/-- A word ends where what follows separates. -/
theorem words_append_word {word : List α} (hne : word ≠ [])
    (h : ∀ a ∈ word, separates a = false) {l : List α}
    (hl : ∀ a ∈ l.head?, separates a = true) :
    words separates (word ++ l) = word :: words separates l := by
  have hpieces : pieces separates (word ++ l) = word :: (pieces separates l).tail := by
    rw [pieces_append_of_not_separates h]
    cases l with
    | nil => rw [pieces_nil, List.headD_cons, List.append_nil]
    | cons a l => rw [pieces_cons_of_separates (hl a rfl), List.headD_cons, List.append_nil]
  have htail : words separates l = (pieces separates l).tail.filter (!·.isEmpty) := by
    cases l with
    | nil => rfl
    | cons a l =>
      rw [words, pieces_cons_of_separates (hl a rfl)]
      rfl
  rw [words, hpieces, htail, List.filter_cons_of_pos]
  simpa using hne

theorem pieces_concat_of_separates {a : α} (h : separates a = true) (l : List α) :
    pieces separates (l ++ [a]) = pieces separates l ++ [[]] := by
  induction l with
  | nil => exact pieces_cons_of_separates h []
  | cons b l ih =>
    by_cases hb : separates b = true
    · rw [List.cons_append, pieces_cons_of_separates hb, pieces_cons_of_separates hb, ih]
      rfl
    · have hb : ∀ c ∈ [b], separates c = false := by simpa using hb
      have hcons : ∀ l : List α, b :: l = [b] ++ l := fun _ => rfl
      obtain ⟨first, rest, hl⟩ := List.exists_cons_of_ne_nil (pieces_ne_nil separates l)
      rw [List.cons_append, hcons, hcons l, pieces_append_of_not_separates hb,
        pieces_append_of_not_separates hb, ih, hl]
      rfl

theorem words_append_gap {gap : List α} (h : ∀ a ∈ gap, separates a = true) (l : List α) :
    words separates (l ++ gap) = words separates l := by
  induction gap generalizing l with
  | nil => rw [List.append_nil]
  | cons a gap ih =>
    have ha : separates a = true := h a List.mem_cons_self
    rw [List.append_cons, ih (fun b hb => h b (List.mem_cons_of_mem _ hb)), words,
      pieces_concat_of_separates ha, List.filter_append]
    exact List.append_nil _

/-- All that is lost of a list are its separators. -/
theorem flatten_words (separates : α → Bool) (l : List α) :
    (words separates l).flatten = l.filter (!separates ·) := by
  rw [words, List.flatten_filter_not_isEmpty]
  induction l with
  | nil => rfl
  | cons a l ih =>
    by_cases h : separates a = true
    · rw [pieces_cons_of_separates h, List.flatten_cons, List.nil_append, ih,
        List.filter_cons_of_neg (by simpa using h)]
    · have h : ∀ b ∈ [a], separates b = false := by simpa using h
      obtain ⟨first, rest, hl⟩ := List.exists_cons_of_ne_nil (pieces_ne_nil separates l)
      have hcons := pieces_append_of_not_separates h l
      rw [hl, List.singleton_append] at hcons
      rw [hcons, List.filter_cons_of_pos (by simpa using h), ← ih, hl]
      rfl

theorem not_separates_of_mem_words {l word : List α} (h : word ∈ words separates l) :
    ∀ a ∈ word, separates a = false := by
  intro a ha
  have hmem : a ∈ (words separates l).flatten := List.mem_flatten.2 ⟨word, h, ha⟩
  rw [flatten_words] at hmem
  simpa using (List.mem_filter.1 hmem).2

/-- Words that are joined by separators are cut apart again. -/
theorem words_intercalate {gap : List α} (hgap : ∀ a ∈ gap, separates a = true) (hne : gap ≠ [])
    {parts : List (List α)} (h : ∀ word ∈ parts, word ≠ [] ∧ ∀ a ∈ word, separates a = false) :
    words separates (gap.intercalate parts) = parts := by
  induction parts with
  | nil => rfl
  | cons word parts ih =>
    obtain ⟨hword, hplain⟩ := h word List.mem_cons_self
    have hparts := ih fun part hpart => h part (List.mem_cons_of_mem _ hpart)
    cases parts with
    | nil =>
      have hnil := words_append_word hword hplain (l := []) nofun
      rw [List.append_nil] at hnil
      rw [List.intercalate_singleton, hnil]
      rfl
    | cons next parts =>
      obtain ⟨b, gap, rfl⟩ := List.exists_cons_of_ne_nil hne
      rw [List.intercalate_cons_cons, List.append_assoc,
        words_append_word hword hplain fun a ha => hgap a (by simp_all),
        words_append_of_separates hgap, hparts]

end Words

namespace Blank

/-! ## Trimming -/

variable {gap : List Char}

theorem trimStart_append (h : ∀ c ∈ gap, isWhite c = true) (cs : List Char) :
    trimStart (gap ++ cs) = trimStart cs := List.dropWhile_append_of_pos h

theorem trimEnd_append (h : ∀ c ∈ gap, isWhite c = true) (cs : List Char) :
    trimEnd (cs ++ gap) = trimEnd cs := by
  rw [trimEnd, List.reverse_append,
    List.dropWhile_append_of_pos fun c hc => h c (List.mem_reverse.1 hc)]
  rfl

theorem trim_append (h : ∀ c ∈ gap, isWhite c = true) (cs : List Char) :
    trim (cs ++ gap) = trim cs := by
  have hgap : gap.dropWhile isWhite = [] := List.dropWhile_eq_nil_iff.2 h
  rw [trim, trimStart, List.dropWhile_append, hgap]
  split
  · rename_i hnil
    rw [trim, trimStart, List.isEmpty_iff.1 hnil]
  · exact trimEnd_append h _

/-- What is cut off at the end is white space. -/
theorem exists_trimEnd_append (cs : List Char) :
    ∃ gap, (∀ c ∈ gap, isWhite c = true) ∧ cs = trimEnd cs ++ gap :=
  ⟨cs.rtakeWhile isWhite, fun _ hc => List.mem_rtakeWhile_imp hc,
    List.rdropWhile_append_rtakeWhile.symm⟩

theorem isWhite_newline : ∀ c ∈ ['\n'], isWhite c = true :=
  fun _ hc => List.mem_singleton.1 hc ▸ rfl

theorem trim_trimEnd (cs : List Char) : trim (trimEnd cs) = trim cs := by
  obtain ⟨gap, hgap, hcs⟩ := exists_trimEnd_append cs
  conv_rhs => rw [hcs]
  exact (trim_append hgap _).symm

theorem trimEnd_cons {c : Char} (hc : isWhite c = false) (cs : List Char) :
    trimEnd (c :: cs) = c :: trimEnd cs := by
  have hstop : [c].dropWhile isWhite = [c] := List.dropWhile_cons_of_neg (by simp [hc])
  rw [trimEnd, List.reverse_cons, List.dropWhile_append, hstop]
  split
  · next hnil =>
    rw [trimEnd, List.isEmpty_iff.1 hnil]
    rfl
  · rw [List.reverse_append]
    rfl

/-- White space goes as far as the first character that is none. -/
theorem trim_append_cons (h : ∀ c ∈ gap, isWhite c = true) {c : Char} (hc : isWhite c = false)
    (cs : List Char) : trim (gap ++ c :: cs) = c :: trimEnd cs := by
  have hstop : trimStart (c :: cs) = c :: cs := List.dropWhile_cons_of_neg (by simp [hc])
  rw [trim, trimStart_append h, hstop, trimEnd_cons hc]

/-- Once a line is trimmed, the first character that is no white space comes first. -/
theorem head?_trim (cs : List Char) : (trim cs).head? = cs.find? (!isWhite ·) := by
  have hfind : (trimStart cs).head? = cs.find? (!isWhite ·) := by
    rw [List.find?_eq_head?_dropWhile_not, trimStart]
    simp only [Bool.not_not]
  rw [trim, ← hfind]
  cases h : trimStart cs with
  | nil => rfl
  | cons c rest =>
    have hc : isWhite c = false := by
      rw [h, List.head?_cons] at hfind
      simpa using List.find?_some hfind.symm
    rw [trimEnd_cons hc]
    rfl

theorem trim_gap (h : ∀ c ∈ gap, isWhite c = true) : trim gap = [] := trim_append h []

/-- To trim is to keep the fields. -/
theorem fields_trim (cs : List Char) : fields (trim cs) = fields cs := by
  have hend : ∀ cs, fields (trimEnd cs) = fields cs := by
    intro cs
    obtain ⟨gap, hgap, hcs⟩ := exists_trimEnd_append cs
    conv_rhs => rw [hcs]
    exact (words_append_gap hgap _).symm
  have hstart : cs = cs.takeWhile isWhite ++ trimStart cs :=
    List.takeWhile_append_dropWhile.symm
  rw [trim, hend]
  conv_rhs => rw [hstart]
  exact (words_append_of_separates (fun c hc => List.mem_takeWhile_imp hc) _).symm

end Blank
end BootSequence
