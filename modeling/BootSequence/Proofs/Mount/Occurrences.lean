import BootSequence.Proofs.Mount.Field

/-!
Escapes where they stand. Each place of a field is judged by the field alone, and not by what has been
read before it: what begins one of the four sequences is shown as the character that it stands for,
what lies within one is not shown, and all else is shown as it is. Reading a field comes to the same
(`decode_shows`), since no two sequences overlap.
-/

namespace BootSequence
namespace Mount
namespace Escape

/-- What the sequence that begins at a place stands for, if one of the four does. -/
def standsAt? (s : List Char) (i : Nat) : Option Char :=
  escaped.find? fun c => encodeChar c <+: s.drop i

/-- A place within a sequence, behind its backslash. -/
def Inside (s : List Char) (i : Nat) : Prop := ∃ j < i, i < j + 4 ∧ (standsAt? s j).isSome

instance (s : List Char) (i : Nat) : Decidable (Inside s i) :=
  inferInstanceAs (Decidable (∃ j < i, i < j + 4 ∧ (standsAt? s j).isSome))

def shownAt (s : List Char) (i : Nat) : List Char :=
  match standsAt? s i with
  | some c => [c]
  | none => if Inside s i then [] else s[i]?.toList

def shown (s : List Char) : List Char := (List.range s.length).flatMap (shownAt s)

def occurrences (s : List Char) : Nat :=
  (List.range s.length).countP fun i => (standsAt? s i).isSome

/-- No sequence begins in the first text and ends in the second. -/
def Apart (s t : List Char) : Prop :=
  ∀ i < s.length, (standsAt? (s ++ t) i).isSome → i + 4 ≤ s.length

/-! ## The four sequences -/

theorem length_encodeChar {c : Char} (h : c ∈ escaped) : (encodeChar c).length = 4 := by
  simp only [escaped, List.mem_cons, List.not_mem_nil, or_false] at h
  rcases h with rfl | rfl | rfl | rfl <;> rfl

/-- Each of the four sequences names its own character only. -/
theorem encodeChar_inj {c d : Char} (hc : c ∈ escaped) (hd : d ∈ escaped)
    (h : encodeChar c = encodeChar d) : c = d := by
  have hnamed := named?_encodeChar hc
  rw [h, named?_encodeChar hd] at hnamed
  exact (Option.some.inj hnamed).symm

theorem backslash_not_mem_tail {c : Char} (h : c ∈ escaped) :
    backslash ∉ (encodeChar c).tail := by
  simp only [escaped, List.mem_cons, List.not_mem_nil, or_false] at h
  rcases h with rfl | rfl | rfl | rfl <;> decide

theorem standsAt?_eq_some_iff {s : List Char} {i : Nat} {c : Char} :
    standsAt? s i = some c ↔ c ∈ escaped ∧ encodeChar c <+: s.drop i := by
  constructor
  · intro h
    exact ⟨List.mem_of_find?_eq_some h, by simpa using List.find?_some h⟩
  · rintro ⟨hc, hprefix⟩
    cases h : standsAt? s i with
    | none => exact absurd hprefix (by simpa using List.find?_eq_none.1 h c hc)
    | some d =>
      have hd : d ∈ escaped := List.mem_of_find?_eq_some h
      have hprefix' : encodeChar d <+: s.drop i := by simpa using List.find?_some h
      have hlength : (encodeChar d).length = (encodeChar c).length := by
        rw [length_encodeChar hc, length_encodeChar hd]
      have heq := (List.prefix_of_prefix_length_le hprefix' hprefix hlength.le).eq_of_length hlength
      rw [encodeChar_inj hd hc heq]

theorem standsAt?_eq_none_iff {s : List Char} {i : Nat} :
    standsAt? s i = none ↔ ∀ c ∈ escaped, ¬encodeChar c <+: s.drop i := by
  simp [standsAt?]

/-- A backslash begins each of them, and there is none within. -/
theorem add_four_le_of_standsAt? {s : List Char} {i j : Nat} {c d : Char}
    (hi : standsAt? s i = some c) (hj : standsAt? s j = some d) (hlt : i < j) : i + 4 ≤ j := by
  by_contra hnear
  obtain ⟨k, rfl⟩ := Nat.exists_eq_add_of_lt hlt
  obtain ⟨hc, rest, hrest⟩ := standsAt?_eq_some_iff.1 hi
  obtain ⟨hd, behind, hbehind⟩ := standsAt?_eq_some_iff.1 hj
  have hwithin : k + 1 < (encodeChar c).length := by
    rw [length_encodeChar hc]
    omega
  have hhead : s[i + k + 1]? = some backslash := by
    obtain ⟨digits, hdigits⟩ := List.head?_eq_some_iff.1 (head?_encodeChar hd)
    rw [← List.head?_drop, ← hbehind, hdigits]
    rfl
  have helement : s[i + k + 1]? = (encodeChar c)[k + 1]? := by
    rw [Nat.add_assoc, ← List.getElem?_drop, ← hrest, List.getElem?_append_left hwithin]
  refine backslash_not_mem_tail hc (@List.mem_of_getElem? _ _ k _ ?_)
  rw [List.getElem?_tail, ← helement, hhead]

/-! ## Texts one behind the other -/

section Append

variable {s t : List Char}

theorem standsAt?_append_right (s t : List Char) (i : Nat) :
    standsAt? (s ++ t) (s.length + i) = standsAt? t i := by
  rw [standsAt?, List.drop_length_add_append]
  rfl

theorem standsAt?_append_left (h : Apart s t) {i : Nat} (hi : i < s.length) :
    standsAt? (s ++ t) i = standsAt? s i := by
  have hdrop : (s ++ t).drop i = s.drop i ++ t := List.drop_append_of_le_length hi.le
  apply Option.ext
  intro c
  rw [standsAt?_eq_some_iff, standsAt?_eq_some_iff, hdrop]
  constructor
  · rintro ⟨hc, hprefix⟩
    have hstands := standsAt?_eq_some_iff.2 ⟨hc, hdrop ▸ hprefix⟩
    have hends := h i hi (by rw [hstands]; rfl)
    refine ⟨hc, List.prefix_of_prefix_length_le hprefix (List.prefix_append _ t) ?_⟩
    rw [length_encodeChar hc, List.length_drop]
    omega
  · rintro ⟨hc, hprefix⟩
    exact ⟨hc, hprefix.trans (List.prefix_append _ t)⟩

theorem inside_append_left (h : Apart s t) {i : Nat} (hi : i < s.length) :
    Inside (s ++ t) i ↔ Inside s i := by
  refine exists_congr fun j => and_congr_right fun hj => ?_
  rw [standsAt?_append_left h (hj.trans hi)]

theorem inside_append_right (h : Apart s t) (i : Nat) :
    Inside (s ++ t) (s.length + i) ↔ Inside t i := by
  constructor
  · rintro ⟨j, hj, hnear, hstands⟩
    have hbehind : s.length ≤ j := by
      by_contra hbefore
      have := h j (by omega) hstands
      omega
    obtain ⟨k, rfl⟩ := Nat.exists_eq_add_of_le hbehind
    rw [standsAt?_append_right] at hstands
    exact ⟨k, by omega, by omega, hstands⟩
  · rintro ⟨j, hj, hnear, hstands⟩
    refine ⟨s.length + j, by omega, by omega, ?_⟩
    rwa [standsAt?_append_right]

theorem shown_append (h : Apart s t) : shown (s ++ t) = shown s ++ shown t := by
  have hleft : ∀ i ∈ List.range s.length, shownAt (s ++ t) i = shownAt s i := by
    intro i hi
    rw [List.mem_range] at hi
    rw [shownAt, standsAt?_append_left h hi, List.getElem?_append_left hi, shownAt]
    simp only [inside_append_left h hi]
  have hright : ∀ i, shownAt (s ++ t) (s.length + i) = shownAt t i := by
    intro i
    have hget : (s ++ t)[s.length + i]? = t[i]? := by
      rw [List.getElem?_append_right (Nat.le_add_right _ _), Nat.add_sub_cancel_left]
    rw [shownAt, standsAt?_append_right, hget, shownAt]
    simp only [inside_append_right h]
  rw [shown, List.length_append, List.range_add, List.flatMap_append, List.flatMap_map,
    List.flatMap_congr hleft]
  simp only [hright]
  rfl

theorem occurrences_append (h : Apart s t) :
    occurrences (s ++ t) = occurrences s + occurrences t := by
  have hleft : ∀ i ∈ List.range s.length,
      (standsAt? (s ++ t) i).isSome = true ↔ (standsAt? s i).isSome = true := by
    intro i hi
    rw [standsAt?_append_left h (List.mem_range.1 hi)]
  rw [occurrences, List.length_append, List.range_add, List.countP_append, List.countP_map,
    List.countP_congr hleft]
  simp only [Function.comp_def, standsAt?_append_right]
  rfl

end Append

/-! ## Reading -/

/-- A text begins with a sequence, or with a character that begins none. -/
@[elab_as_elim]
theorem sequenceInduction {motive : List Char → Prop} (nil : motive [])
    (sequence : ∀ c ∈ escaped, ∀ rest, motive rest → motive (encodeChar c ++ rest))
    (plain : ∀ c rest, (∀ d ∈ escaped, ¬encodeChar d <+: c :: rest) → motive rest →
      motive (c :: rest)) (s : List Char) : motive s := by
  induction h : s.length using Nat.strong_induction_on generalizing s with
  | _ n ih =>
    subst h
    cases s with
    | nil => exact nil
    | cons c rest =>
      by_cases hsequence : ∃ d ∈ escaped, encodeChar d <+: c :: rest
      · obtain ⟨d, hd, behind, hbehind⟩ := hsequence
        have hlength := congrArg List.length hbehind
        rw [List.length_append, length_encodeChar hd] at hlength
        rw [← hbehind]
        exact sequence d hd behind (ih _ (by omega) behind rfl)
      · exact plain c rest (fun d hd hprefix => hsequence ⟨d, hd, hprefix⟩)
          (ih _ (Nat.lt_succ_self _) rest rfl)

theorem apart_encodeChar {c : Char} (hc : c ∈ escaped) (rest : List Char) :
    Apart (encodeChar c) rest := by
  intro i hi hstands
  have hstart : standsAt? (encodeChar c ++ rest) 0 = some c :=
    standsAt?_eq_some_iff.2 ⟨hc, List.prefix_append _ rest⟩
  obtain ⟨d, hd⟩ := Option.isSome_iff_exists.1 hstands
  rw [length_encodeChar hc] at hi ⊢
  rcases Nat.eq_zero_or_pos i with rfl | hpos
  · exact Nat.le_refl 4
  · have := add_four_le_of_standsAt? hstart hd hpos
    omega

theorem apart_singleton {c : Char} {rest : List Char}
    (h : ∀ d ∈ escaped, ¬encodeChar d <+: c :: rest) : Apart [c] rest := by
  intro i hi hstands
  obtain rfl : i = 0 := Nat.lt_one_iff.1 hi
  have hnone : standsAt? ([c] ++ rest) 0 = none := standsAt?_eq_none_iff.2 h
  rw [hnone] at hstands
  cases hstands

theorem standsAt?_singleton (c : Char) : standsAt? [c] 0 = none := by
  refine standsAt?_eq_none_iff.2 fun d hd hprefix => ?_
  have := hprefix.length_le
  rw [length_encodeChar hd, List.drop_zero, List.length_singleton] at this
  exact absurd this (by decide)

theorem shown_encodeChar {c : Char} (h : c ∈ escaped) : shown (encodeChar c) = [c] := by
  simp only [escaped, List.mem_cons, List.not_mem_nil, or_false] at h
  rcases h with rfl | rfl | rfl | rfl <;> decide

theorem shown_singleton (c : Char) : shown [c] = [c] := by
  simp [shown, shownAt, standsAt?_singleton, Inside]

theorem decode_eq_shown (s : List Char) : decode s = shown s := by
  induction s using sequenceInduction with
  | nil => exact decode_of_not_mem List.not_mem_nil
  | sequence c hc rest ih =>
    rw [decode_encodeChar_append hc, shown_append (apart_encodeChar hc rest),
      shown_encodeChar hc, ih]
    rfl
  | plain c rest h ih =>
    have hshown : shown (c :: rest) = shown [c] ++ shown rest := shown_append (apart_singleton h)
    rw [decode_cons h, hshown, shown_singleton, ih]
    rfl

theorem occurrences_encodeChar {c : Char} (h : c ∈ escaped) : occurrences (encodeChar c) = 1 := by
  simp only [escaped, List.mem_cons, List.not_mem_nil, or_false] at h
  rcases h with rfl | rfl | rfl | rfl <;> decide

theorem occurrences_singleton (c : Char) : occurrences [c] = 0 := by
  simp [occurrences, standsAt?_singleton]

theorem length_encode_encodeChar {c : Char} (h : c ∈ escaped) :
    (Utf8.encode (encodeChar c)).length = c.utf8Size + 3 := by
  simp only [escaped, List.mem_cons, List.not_mem_nil, or_false] at h
  rcases h with rfl | rfl | rfl | rfl <;> rfl

theorem length_decode (s : List Char) :
    (Utf8.encode (decode s)).length + 3 * occurrences s = (Utf8.encode s).length := by
  induction s using sequenceInduction with
  | nil => rw [decode_of_not_mem List.not_mem_nil]; rfl
  | sequence c hc rest ih =>
    rw [decode_encodeChar_append hc, occurrences_append (apart_encodeChar hc rest),
      occurrences_encodeChar hc, Utf8.length_encode_cons, Utf8.length_encode_append,
      length_encode_encodeChar hc]
    omega
  | plain c rest h ih =>
    have hcount : occurrences (c :: rest) = occurrences [c] + occurrences rest :=
      occurrences_append (apart_singleton h)
    rw [decode_cons h, hcount, occurrences_singleton, Utf8.length_encode_cons,
      Utf8.length_encode_cons]
    omega

/-- Only a text that holds none of the four sequences is read as it stands. -/
theorem decode_eq_self_iff {s : List Char} :
    decode s = s ↔ ∀ c ∈ escaped, ¬encodeChar c <:+: s := by
  constructor
  · intro h c hc hholds
    obtain ⟨before, behind, hs⟩ := hholds
    rw [List.append_assoc] at hs
    have hplace : before.length ∈ List.range s.length := by
      rw [List.mem_range, ← hs, List.length_append, List.length_append, length_encodeChar hc]
      omega
    have hstands : standsAt? s before.length = some c := by
      rw [standsAt?_eq_some_iff, ← hs, List.drop_left]
      exact ⟨hc, List.prefix_append _ behind⟩
    have hpos : 0 < occurrences s :=
      List.countP_pos_iff.2 ⟨before.length, hplace, by rw [hstands]; rfl⟩
    have hlength := length_decode s
    rw [h] at hlength
    omega
  · intro h
    induction s with
    | nil => exact decode_of_not_mem List.not_mem_nil
    | cons c cs ih =>
      rw [decode_cons fun d hd hprefix => h d hd hprefix.isInfix,
        ih fun d hd hholds => h d hd (List.infix_cons hholds)]

/-- The text of a field is what its places show. All four sequences are read where they stand, and
what has been read is not read again; the reading ends, and cuts the field between characters only.
-/
theorem decode_shows (s : List Char) :
    decode? s = some (decode s) ∧
      scan? s = some (decode s) ∧
      decode s = shown s ∧
      (∀ i j c d, standsAt? s i = some c → standsAt? s j = some d → i < j → i + 4 ≤ j) ∧
      (∀ c ∈ escaped, decode (encodeChar c ++ s) = c :: decode s) ∧
      (decode s = s ↔ ∀ c ∈ escaped, ¬encodeChar c <:+: s) ∧
      (Utf8.encode (decode s)).length + 3 * occurrences s = (Utf8.encode s).length ∧
      ∀ t, Apart s t → decode (s ++ t) = decode s ++ decode t := by
  refine ⟨(Option.some_get _).symm, scan?_eq s, decode_eq_shown s,
    fun i j c d hi hj hlt => add_four_le_of_standsAt? hi hj hlt,
    fun c hc => decode_encodeChar_append hc s, decode_eq_self_iff, length_decode s, ?_⟩
  intro t h
  rw [decode_eq_shown, decode_eq_shown, decode_eq_shown, shown_append h]

/-- An escaped backslash and what looks like a space behind it, and a backslash before two digits
and a longer character. -/
theorem decode_shows_backslash :
    standsAt? "\x5C134040".toList 0 = some backslash ∧
      decode "\x5C134040".toList = "\x5C040".toList ∧
      decode "\x5C04é\x5C011\x5C".toList = "\x5C04é\t\x5C".toList ∧
      decode "\x5C134040\x5C04é\x5C011\x5C".toList = "\x5C040\x5C04é\t\x5C".toList := by
  have hdigits : decode "040".toList = "040".toList := by
    refine (decode_shows "040".toList).2.2.2.2.2.1.2 fun c hc hholds => ?_
    exact absurd (hholds.subset (List.mem_of_mem_head? (head?_encodeChar hc))) (by decide)
  have hfirst : decode "\x5C134040".toList = "\x5C040".toList :=
    ((decode_shows "040".toList).2.2.2.2.1 backslash (by decide)).trans
      (congrArg (backslash :: ·) hdigits)
  have hsecond : decode "\x5C04é\x5C011\x5C".toList = "\x5C04é\t\x5C".toList :=
    (decode_shows _).2.2.1.trans (by decide)
  have hjoined := (decode_shows "\x5C134040".toList).2.2.2.2.2.2.2 "\x5C04é\x5C011\x5C".toList
    (by unfold Apart; decide)
  rw [hfirst, hsecond] at hjoined
  exact ⟨by decide, hfirst, hsecond, hjoined⟩

end Escape
end Mount
end BootSequence
