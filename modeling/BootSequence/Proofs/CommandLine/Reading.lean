import BootSequence.CommandLine.Reading
import BootSequence.Proofs.Text.Encoding
import BootSequence.Text.Place

/-!
Arguments that are read one after another. The argument that an error blames begins with a dash
(`Tame`), and an unknown letter behind a dash is blamed as soon as its argument is read, whatever
stands behind it (`step_unknown`).
-/

namespace BootSequence
namespace Utf8

/-- A character is read as soon as it is complete. -/
theorem scan_utf8EncodeChar_append (c : Char) (more : Octets) :
    scan (String.utf8EncodeChar c ++ more) = .char c :: scan more := by
  have hstart : Scan.start = ⟨none, []⟩ := rfl
  have hbehind : (⟨none, [.char c]⟩ : Scan) = Scan.start.behind [.char c] := rfl
  rw [scan, List.foldl_append, hstart, Scan.foldl_utf8EncodeChar, hbehind, Scan.foldl_behind,
    Scan.finish_behind]
  rfl

end Utf8

namespace CommandLine

/-- How an unknown letter is shown. -/
def shownLetter (c : Char) : String := "-" ++ String.singleton c

/-- A letter as an argument of its own. -/
def dashed (c : Char) : Octets := .ofString (shownLetter c)

def unknownLetter (c : Char) : Error := ⟨.unknownArgument, some (shownLetter c)⟩

theorem dashed_eq (c : Char) : dashed c = Reading.dash :: String.utf8EncodeChar c := by
  have hchars : (shownLetter c).toList = ['-', c] := by simp [shownLetter]
  rw [dashed, Octets.ofString, hchars, Utf8.encode, List.flatMap_cons, List.flatMap_cons,
    List.flatMap_nil, List.append_nil]
  rfl

/-- Behind the dash comes the letter, and no second dash. -/
theorem exists_dashed_eq {c : Char} (hdash : c ≠ '-') :
    ∃ b more, dashed c = Reading.dash :: b :: more ∧ String.utf8EncodeChar c = b :: more ∧
      b ≠ Reading.dash := by
  obtain ⟨b, more, hb⟩ := List.exists_cons_of_length_pos
    (String.length_utf8EncodeChar c ▸ c.utf8Size_pos)
  refine ⟨b, more, by rw [dashed_eq, hb], hb, ?_⟩
  rintro rfl
  have hhead : (String.utf8EncodeChar c).head? = some Reading.dash := by rw [hb]; rfl
  have hc := Utf8.toNat_eq_of_head?_encodeChar hhead (by decide)
  exact hdash (Char.ofNat_toNat c ▸ congrArg Char.ofNat hc)

theorem dashes_ne {c : Char} (hdash : c ≠ '-') (more : Octets) :
    [Reading.dash, Reading.dash] ≠ dashed c ++ more := by
  obtain ⟨b, rest, hdashed, -, hne⟩ := exists_dashed_eq hdash
  rw [hdashed]
  intro heq
  exact hne (List.cons.inj (List.cons.inj heq).2).1.symm

namespace Reading

variable {g : Grammar} {r r' : Reading}

/-- Words go on to be words only if they were, and the argument to blame begins with a dash. -/
def Tame (r : Reading) : Except Error Reading → Prop
  | .error e => ∀ shown, e.argument = some shown → ∃ cs, shown.toList = '-' :: cs
  | .ok r' => r'.wordsOnly = r.wordsOnly

theorem tame_refuse (r : Reading) (kind : ErrorKind) : Tame r (refuse kind) := nofun

theorem tame_blame (r : Reading) (kind : ErrorKind) {shown : String} {cs : List Char}
    (h : shown.toList = '-' :: cs) : Tame r (blame kind shown) := by
  intro shown' heq
  cases heq
  exact ⟨cs, h⟩

theorem Tame.bind {x : Except Error Reading} {f : Reading → Except Error Reading}
    (hx : Tame r x) (hf : ∀ r', r'.wordsOnly = r.wordsOnly → Tame r (f r')) : Tame r (x >>= f) := by
  cases x with
  | error e => exact hx
  | ok r' => exact hf r' hx

theorem tame_note (r : Reading) (s : Switch) (value : Octets) : Tame r (r.note s value) := by
  unfold note
  dsimp only
  split
  · exact tame_refuse r _
  · split
    · exact tame_refuse r _
    · exact rfl
  · split
    · exact tame_refuse r _
    · split
      · exact tame_refuse r _
      · exact rfl
  · split
    · exact tame_refuse r _
    · exact rfl

theorem tame_settle (r : Reading) : Tame r r.settle := by
  unfold settle
  split
  · exact rfl
  · exact tame_refuse r _
  · exact tame_note { r with pending := .nothing } _ _
  · split
    · exact rfl
    · exact tame_refuse r _

theorem Tame.of_eq {x : Except Error Reading} (h : Tame r' x) (heq : r'.wordsOnly = r.wordsOnly) :
    Tame r x := by
  cases x with
  | error e => exact h
  | ok r'' => exact h.trans heq

theorem tame_occur (r : Reading) (s : Switch) (value : Octets) : Tame r (r.occur s value) :=
  (tame_settle r).bind fun r' heq => (tame_note r' s value).of_eq heq

theorem tame_map {x : Except Error Reading} {f : Reading → Reading} (hx : Tame r x)
    (hf : ∀ r', (f r').wordsOnly = r'.wordsOnly) : Tame r (x.map f) := by
  cases x with
  | error e => exact hx
  | ok r' => exact (hf r').trans hx

theorem tame_option (r : Reading) (s : Switch) (value : Option Octets) :
    Tame r (r.option s value) := by
  unfold option
  split
  · exact tame_map (tame_settle r) fun _ => rfl
  · exact tame_occur r _ _
  · exact tame_occur r _ _
  · exact tame_refuse r _

theorem tame_long (g : Grammar) (r : Reading) (argument : Octets) :
    Tame r (r.long g argument) := by
  unfold long
  dsimp only
  split
  · exact tame_option r _ _
  · exact tame_blame r _ (by rw [String.toList_append]; rfl)

theorem tame_short (g : Grammar) (r : Reading) (pieces : List Utf8.Piece) :
    Tame r (r.short g pieces) := by
  induction pieces generalizing r with
  | nil => exact rfl
  | cons piece rest ih =>
    cases piece with
    | malformed o => exact tame_blame r _ (by rw [String.toList_append]; rfl)
    | char c =>
      unfold short
      split
      · exact tame_blame r _ (by rw [String.toList_append]; rfl)
      · split
        · split
          · exact tame_option r _ _
          · exact tame_option r _ _
        · exact (tame_option r _ none).bind fun r' heq => (ih r').of_eq heq

theorem tame_word (hwords : g.words = true) (r : Reading) (argument : Octets) :
    Tame r (r.word g argument) := by
  rw [word, hwords]
  simp only [Bool.not_true, Bool.false_eq_true, if_false]
  split
  · exact rfl
  · exact tame_map (tame_settle r) fun _ => rfl

theorem tame_step (hwords : g.words = true) (r : Reading) {argument : Octets}
    (hends : argument ≠ [dash, dash]) : Tame r (r.step g argument) := by
  unfold step
  split
  · exact tame_word hwords r argument
  · split
    · exact (hends rfl).elim
    · exact tame_long g r _
    · exact tame_short g r _
    · split
      · exact rfl
      · exact tame_word hwords r _

theorem tame_foldlM (hwords : g.words = true) (r : Reading) {args : List Octets}
    (hends : [dash, dash] ∉ args) : Tame r (args.foldlM (step g) r) := by
  induction args generalizing r with
  | nil => exact rfl
  | cons argument args ih =>
    rw [List.mem_cons, not_or] at hends
    rw [List.foldlM_cons]
    exact (tame_step hwords r (Ne.symm hends.1)).bind fun r' heq => (ih r' hends.2).of_eq heq

/-- An unknown letter ends the reading, and nothing behind it is read. -/
theorem step_unknown {c : Char} (hunknown : g.ofShort? c = none) (hdash : c ≠ '-')
    (hwords : r.wordsOnly = false) (more : Octets) :
    r.step g (dashed c ++ more) = .error (unknownLetter c) := by
  obtain ⟨b, rest, hdashed, hb, hne⟩ := exists_dashed_eq hdash
  have hscan : Utf8.scan (b :: (rest ++ more)) = .char c :: Utf8.scan more := by
    rw [← List.cons_append, ← hb, Utf8.scan_utf8EncodeChar_append]
  have hargument : dashed c ++ more = dash :: b :: (rest ++ more) := by
    rw [hdashed]
    rfl
  rw [hargument]
  unfold step
  rw [hwords, if_neg Bool.false_ne_true]
  split
  · next heq => exact (hne (List.cons.inj (List.cons.inj heq).2).1).elim
  · next heq => exact (hne (List.cons.inj (List.cons.inj heq).2).1).elim
  · next heq =>
    cases heq
    rw [hscan, short, hunknown]
    rfl
  · next hother => exact (hother _ _ rfl).elim

end Reading

/-! ## Whole command lines -/

variable {g : Grammar} {first rest : List Octets}

theorem parse_append_of_error {e : Error}
    (h : first.foldlM (Reading.step g) .start = .error e) (rest : List Octets) :
    parse g (first ++ rest) = .error e := by
  rw [parse, List.foldlM_append, h]
  rfl

/-- What stands before an unknown letter is read, and nothing else. -/
theorem parse_append_unknown {c : Char} {r : Reading}
    (h : first.foldlM (Reading.step g) .start = .ok r) (hwords : g.words = true)
    (hends : [Reading.dash, Reading.dash] ∉ first) (hunknown : g.ofShort? c = none) (hdash : c ≠ '-')
    (more : Octets) (rest : List Octets) :
    parse g (first ++ (dashed c ++ more) :: rest) = .error (unknownLetter c) := by
  have hstart := Reading.tame_foldlM hwords .start hends
  rw [h] at hstart
  rw [parse, List.foldlM_append, h]
  show ((dashed c ++ more) :: rest).foldlM (Reading.step g) r >>= _ = _
  rw [List.foldlM_cons, Reading.step_unknown hunknown hdash hstart more]
  rfl

theorem exists_of_blamed {args : List Octets} {e : Error} {shown : String} (hwords : g.words = true)
    (hends : [Reading.dash, Reading.dash] ∉ args) (h : parse g args = .error e)
    (hshown : e.argument = some shown) : ∃ cs, shown.toList = '-' :: cs := by
  have hread := Reading.tame_foldlM hwords .start hends
  rw [parse] at h
  cases hfold : args.foldlM (Reading.step g) .start with
  | error e' =>
    rw [hfold] at h hread
    cases h
    exact hread shown hshown
  | ok r =>
    have hsettle := Reading.tame_settle r
    rw [hfold] at h
    replace h : r.finish g = .error e := h
    rw [Reading.finish] at h
    cases hsettled : r.settle with
    | error e' =>
      rw [hsettled] at h hsettle
      cases h
      exact hsettle shown hshown
    | ok last =>
      rw [hsettled] at h
      replace h : (if _ then Reading.refuse .conflict else _) = Except.error e := h
      split at h
      · cases h
        cases hshown
      · cases h

end CommandLine
end BootSequence
