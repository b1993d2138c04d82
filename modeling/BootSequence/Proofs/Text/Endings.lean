import BootSequence.Proofs.Text.Blank
import BootSequence.Proofs.Text.Encoding
import BootSequence.Proofs.Text.Lines

/-!
What ends a line. A text with a carriage return put before each newline, or with a newline put
behind a last line that had none, is read line by line as before, and a line differs from what it
was in its end alone (`sameLines_withReturns`, `sameLines_concat`). A carriage return is a
character wherever it stands, also behind octets that begin one.
-/

namespace BootSequence
namespace Octets

/-! ## Ended texts -/

/-- What comes behind begins a line. -/
def Ended (o : Octets) : Prop := o = [] ∨ o.getLast? = some newline

instance (o : Octets) : Decidable o.Ended := inferInstanceAs (Decidable (_ ∨ _))

theorem Ended.eq_nil {o : Octets} (h : o.Ended) (hn : newline ∉ o) : o = [] := by
  rcases h with h | h
  · exact h
  · exact absurd (List.mem_of_getLast? h) hn

theorem ended_append_newline_iff {body rest : Octets} :
    Ended (body ++ newline :: rest) ↔ Ended rest := by
  rcases List.eq_nil_or_concat rest with rfl | ⟨init, b, rfl⟩
  · simp [Ended]
  · have hassoc : body ++ newline :: (init ++ [b]) = (body ++ newline :: init) ++ [b] := by simp
    simp only [Ended, List.concat_eq_append, hassoc, List.getLast?_concat, List.append_eq_nil_iff,
      List.cons_ne_nil, and_false]

/-! ## Carriage returns -/

def carriageReturn : UInt8 := 13

/-- The same with a carriage return before each newline. -/
def withReturns (o : Octets) : Octets :=
  o.flatMap fun b => if b = newline then [carriageReturn, newline] else [b]

theorem withReturns_of_not_mem {o : Octets} (h : newline ∉ o) : o.withReturns = o := by
  induction o with
  | nil => rfl
  | cons b o ih =>
    obtain ⟨hb, ho⟩ := List.ne_and_not_mem_of_not_mem_cons h
    have htail := ih ho
    rw [withReturns] at htail ⊢
    rw [List.flatMap_cons, if_neg hb.symm, htail]
    rfl

theorem withReturns_append_newline {body : Octets} (h : newline ∉ body) (rest : Octets) :
    withReturns (body ++ newline :: rest) =
      (body ++ [carriageReturn]) ++ newline :: rest.withReturns := by
  have hbody := withReturns_of_not_mem h
  rw [withReturns] at hbody ⊢
  rw [List.flatMap_append, hbody, List.flatMap_cons, if_pos rfl, List.append_assoc]
  rfl

theorem newline_not_mem_return {body : Octets} (h : newline ∉ body) :
    newline ∉ body ++ [carriageReturn] := by
  intro hm
  rcases List.mem_append.1 hm with hm | hm
  · exact h hm
  · exact absurd (List.mem_singleton.1 hm) (by decide)

end Octets

namespace Utf8

theorem decodeLossy_concat_return (body : Octets) :
    decodeLossy (body ++ [Octets.carriageReturn]) = decodeLossy body ++ ['\r'] := by
  have h := scan_append_ascii (b := Octets.carriageReturn) (by decide) body []
  simp only [decodeLossy, h, List.map_append, List.map_cons]
  rfl

/-- It takes the octet to end in the character. -/
theorem getLast?_of_decodeLossy {o : Octets} (h : (decodeLossy o).getLast? = some '\r') :
    o.getLast? = some Octets.carriageReturn := by
  rw [decodeLossy, List.getLast?_map, Option.map_eq_some_iff] at h
  obtain ⟨p, hlast, hlossy⟩ := h
  obtain rfl : p = .char '\r' := by
    cases p with
    | char c => exact congrArg Piece.char hlossy
    | malformed seen =>
      have hreplaced : replacement = '\r' := hlossy
      exact absurd hreplaced (by decide)
  obtain ⟨pieces, hpieces⟩ := List.getLast?_eq_some_iff.1 hlast
  have hoctets := flatMap_octets_scan o
  rw [hpieces, List.flatMap_append] at hoctets
  rw [← hoctets, List.getLast?_append]
  rfl

end Utf8

namespace Feed

open Octets

theorem flatten_linesRead (o : Octets) : (linesRead o).flatten = o := by
  induction o using lineInduction newline with
  | last o h =>
    rw [linesRead_of_not_mem h]
    split
    · next ho => exact ho.symm
    · exact List.append_nil o
  | line body rest h ih =>
    rw [linesRead_append h, List.flatten_cons, ih, List.append_assoc]
    rfl

theorem length_linesRead {o : Octets} (h : o.Ended) :
    (linesRead o).length = o.count newline := by
  induction o using lineInduction newline with
  | last o hn =>
    rw [h.eq_nil hn]
    rfl
  | line body rest hn ih =>
    rw [linesRead_append hn, List.length_cons, ih (ended_append_newline_iff.1 h),
      List.count_append, List.count_eq_zero_of_not_mem hn, List.count_cons_self]
    omega

/-! ## Lines that end otherwise -/

/-- A line as it is read, and as it is read with another end. There is a condition on those that get
a carriage return. -/
inductive Reended (returns : Octets → Prop) : Octets → Octets → Prop where
  | same (line : Octets) : Reended returns line line
  | returned {body : Octets} (h : newline ∉ body) (hbody : returns body) :
      Reended returns (body ++ [newline]) (body ++ [carriageReturn] ++ [newline])
  | ended {body : Octets} (h : newline ∉ body) : Reended returns body (body ++ [newline])

/-- Texts with the same lines. -/
def SameLines (returns : Octets → Prop) (o o' : Octets) : Prop :=
  List.Forall₂ (Reended returns) (linesRead o) (linesRead o')

variable {returns : Octets → Prop}

theorem sameLines_withReturns {o : Octets}
    (hreturns : ∀ body, body ++ [newline] ∈ linesRead o → returns body) :
    SameLines returns o o.withReturns := by
  rw [SameLines]
  induction o using lineInduction newline with
  | last o h =>
    rw [withReturns_of_not_mem h]
    exact List.forall₂_same.2 fun line _ => .same line
  | line body rest h ih =>
    rw [linesRead_append h] at hreturns
    rw [withReturns_append_newline h, linesRead_append h,
      linesRead_append (newline_not_mem_return h)]
    refine .cons (.returned h (hreturns body List.mem_cons_self)) (ih ?_)
    intro body' hbody'
    exact hreturns body' (List.mem_cons_of_mem _ hbody')

theorem sameLines_concat {o : Octets} (h : ¬o.Ended) : SameLines returns o (o ++ [newline]) := by
  rw [SameLines]
  induction o using lineInduction newline with
  | last o hn =>
    have ho : o ≠ [] := fun he => h (.inl he)
    rw [linesRead_of_not_mem hn, if_neg ho, linesRead_append hn]
    exact .cons (.ended hn) .nil
  | line body rest hn ih =>
    rw [List.append_assoc, List.cons_append, linesRead_append hn, linesRead_append hn]
    exact .cons (.same _) (ih (mt ended_append_newline_iff.2 h))

/-- What ends a line is white space. -/
theorem Reended.decodeLossy {line line' : Octets} (h : Reended returns line line') :
    ∃ cs gap gap', (∀ c ∈ gap, Blank.isWhite c = true) ∧ (∀ c ∈ gap', Blank.isWhite c = true) ∧
      Utf8.decodeLossy line = cs ++ gap ∧ Utf8.decodeLossy line' = cs ++ gap' := by
  have hreturn : ∀ c ∈ ['\r', '\n'], Blank.isWhite c = true :=
    List.forall_mem_cons.2 ⟨rfl, Blank.isWhite_newline⟩
  cases h with
  | same => exact ⟨Utf8.decodeLossy line, [], [], nofun, nofun, (List.append_nil _).symm,
      (List.append_nil _).symm⟩
  | @returned body hbody _ =>
    refine ⟨Utf8.decodeLossy body, ['\n'], ['\r', '\n'], Blank.isWhite_newline, hreturn,
      Utf8.decodeLossy_append_newline _ _, ?_⟩
    rw [Utf8.decodeLossy_append_newline, Utf8.decodeLossy_concat_return, List.append_assoc]
    rfl
  | ended hbody =>
    exact ⟨Utf8.decodeLossy line, [], ['\n'], nofun, Blank.isWhite_newline,
      (List.append_nil _).symm, Utf8.decodeLossy_append_newline _ _⟩

end Feed
end BootSequence
