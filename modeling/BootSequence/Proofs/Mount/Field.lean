import BootSequence.Mount.Escape
import BootSequence.Proofs.Mount.Number

/-!
Single fields of a mount table. A text that has been escaped is read back, whatever it holds, and
holds no white space but what is rare enough not to be escaped; a flag word that has been written in
decimal is read back as well.
-/

namespace BootSequence
namespace Mount

namespace Escape

/-! ## Escapes -/

/-- The characters that do not stand for themselves. -/
def escaped : List Char := [' ', '\t', '\n', '\x5C']

example : escaped.map (fun c => String.ofList (encodeChar c)) =
    ["\x5C040", "\x5C011", "\x5C012", "\x5C134"] := by decide

theorem encodeChar_of_not_mem {c : Char} (h : c ∉ escaped) : encodeChar c = [c] := by
  simp only [escaped, List.mem_cons, List.not_mem_nil, or_false, not_or] at h
  rw [encodeChar, if_neg h.1, if_neg h.2.1, if_neg h.2.2.1, if_neg h.2.2.2]

theorem head?_encodeChar {c : Char} (h : c ∈ escaped) : (encodeChar c).head? = some '\x5C' := by
  simp only [escaped, List.mem_cons, List.not_mem_nil, or_false] at h
  rcases h with rfl | rfl | rfl | rfl <;> rfl

theorem length_tail_encodeChar {c : Char} (h : c ∈ escaped) :
    (Utf8.encode (encodeChar c).tail).length = 3 := by
  simp only [escaped, List.mem_cons, List.not_mem_nil, or_false] at h
  rcases h with rfl | rfl | rfl | rfl <;> rfl

theorem named?_encodeChar {c : Char} (h : c ∈ escaped) : named? (encodeChar c).tail = some c := by
  simp only [escaped, List.mem_cons, List.not_mem_nil, or_false] at h
  rcases h with rfl | rfl | rfl | rfl <;> rfl

theorem encodeChar_of_named? {digits : List Char} {c : Char} (h : named? digits = some c)
    (hlength : (Utf8.encode digits).length = 3) : c ∈ escaped ∧ digits = (encodeChar c).tail := by
  have hnil : ∀ {a b d : Char} {more : List Char},
      (Utf8.encode (a :: b :: d :: more)).length = 3 → more = [] := by
    intro a b d more hlength
    have ha := a.utf8Size_pos
    have hb := b.utf8Size_pos
    have hd := d.utf8Size_pos
    cases more with
    | nil => rfl
    | cons e more =>
      have he := e.utf8Size_pos
      simp only [Utf8.length_encode_cons] at hlength
      omega
  unfold named? at h
  split at h
  · cases hnil hlength; cases h; exact ⟨by decide, rfl⟩
  · cases hnil hlength; cases h; exact ⟨by decide, rfl⟩
  · cases hnil hlength; cases h; exact ⟨by decide, rfl⟩
  · cases hnil hlength; cases h; exact ⟨by decide, rfl⟩
  · cases h

theorem encodeChar_isPrefix_of_decided? {tail : List Char} {c : Char}
    (h : decided? tail = some c) : c ∈ escaped ∧ encodeChar c <+: backslash :: tail := by
  obtain ⟨⟨digits, behind⟩, hcut, hnamed⟩ := Option.bind_eq_some_iff.1 h
  obtain ⟨rfl, hlength⟩ := Utf8.cut?_eq_some_iff.1 hcut
  obtain ⟨hc, rfl⟩ := encodeChar_of_named? hnamed hlength
  obtain ⟨digits, hdigits⟩ := List.head?_eq_some_iff.1 (head?_encodeChar hc)
  rw [hdigits]
  exact ⟨hc, behind, rfl⟩

theorem decided?_encodeChar {c : Char} (hc : c ∈ escaped) (behind : List Char) :
    decided? ((encodeChar c).tail ++ behind) = some c := by
  rw [decided?, Utf8.cut?_eq_some_iff.2 ⟨rfl, length_tail_encodeChar hc⟩]
  exact named?_encodeChar hc

/-! ## What is read -/

theorem scan?_of_not_mem {field : List Char} (h : backslash ∉ field) : scan? field = some field := by
  rw [scan?, Utf8.place?_eq_none_iff.2 h]

/-- The shorter way for fields without a backslash is only shorter. -/
theorem scan?_eq (field : List Char) : scan? field = some (decode field) := by
  have hdecode : decode? field = some (decode field) := (Option.some_get _).symm
  rw [← hdecode, decode?]
  split
  · rfl
  · next h => exact scan?_of_not_mem (by simpa using h)

theorem decode_of_not_mem {field : List Char} (h : backslash ∉ field) : decode field = field :=
  Option.some.inj ((scan?_eq field).symm.trans (scan?_of_not_mem h))

/-- A field is read up to its first backslash at once. -/
theorem decode_append_backslash {before : List Char} (h : backslash ∉ before) (tail : List Char) :
    decode (before ++ backslash :: tail) = before ++
      match decided? tail, Utf8.cut? 3 tail with
      | some c, some (_, behind) => c :: decode behind
      | _, _ => backslash :: decode tail := by
  obtain ⟨hbefore, htail⟩ := cuts before tail
  apply Option.some.inj
  rw [← scan?_eq, scan?, Utf8.place?_append_cons h]
  dsimp only
  split
  · next before' rest' digits' tail' hbefore' htail' =>
    cases hbefore.symm.trans hbefore'
    cases htail.symm.trans htail'
    split
    · next c hc =>
      split
      · next digits behind hcut => rw [scan?_eq, hc, hcut]; rfl
      · next hnone =>
        rw [decided?, hnone] at hc
        cases hc
    · next hnone => rw [scan?_eq, hnone]; rfl
  · next hfail => exact (hfail _ _ _ _ hbefore htail).elim

theorem decode_encodeChar_append {c : Char} (hc : c ∈ escaped) (rest : List Char) :
    decode (encodeChar c ++ rest) = c :: decode rest := by
  obtain ⟨digits, hdigits⟩ := List.head?_eq_some_iff.1 (head?_encodeChar hc)
  have hdecided := decided?_encodeChar hc rest
  have hlength := length_tail_encodeChar hc
  have hread := decode_append_backslash List.not_mem_nil (digits ++ rest)
  rw [hdigits, List.tail_cons] at hdecided hlength
  rw [hdecided, Utf8.cut?_eq_some_iff.2 ⟨rfl, hlength⟩] at hread
  rw [hdigits]
  exact hread

/-- All that begins none of the four stays as it is. -/
theorem decode_cons {c : Char} {cs : List Char} (h : ∀ d ∈ escaped, ¬encodeChar d <+: c :: cs) :
    decode (c :: cs) = c :: decode cs := by
  by_cases hc : c = backslash
  · subst hc
    have hnone : decided? cs = none := by
      by_contra hsome
      obtain ⟨d, hd⟩ := Option.ne_none_iff_exists'.1 hsome
      obtain ⟨hesc, hprefix⟩ := encodeChar_isPrefix_of_decided? hd
      exact h d hesc hprefix
    have hread := decode_append_backslash List.not_mem_nil cs
    rw [hnone] at hread
    exact hread
  · by_cases hmem : backslash ∈ cs
    · obtain ⟨before, tail, rfl, hbefore⟩ := List.eq_append_cons_of_mem hmem
      have hmore : backslash ∉ c :: before := by
        rw [List.mem_cons, not_or]
        exact ⟨Ne.symm hc, hbefore⟩
      rw [← List.cons_append, decode_append_backslash hmore, decode_append_backslash hbefore]
      rfl
    · have hmore : backslash ∉ c :: cs := by
        rw [List.mem_cons, not_or]
        exact ⟨Ne.symm hc, hmem⟩
      rw [decode_of_not_mem hmem, decode_of_not_mem hmore]

theorem not_isPrefix_of_ne {c : Char} (hc : c ≠ backslash) (cs : List Char) :
    ∀ d ∈ escaped, ¬encodeChar d <+: c :: cs := by
  rintro d hd ⟨rest, hrest⟩
  obtain ⟨digits, hdigits⟩ := List.head?_eq_some_iff.1 (head?_encodeChar hd)
  rw [hdigits, List.cons_append, List.cons.injEq] at hrest
  exact hc hrest.1.symm

theorem decode_encode (cs : List Char) : decode (encode cs) = cs := by
  induction cs with
  | nil => exact decode_of_not_mem List.not_mem_nil
  | cons c cs ih =>
    rw [encode, List.flatMap_cons]
    by_cases hc : c ∈ escaped
    · rw [decode_encodeChar_append hc]
      exact congrArg (c :: ·) ih
    · have hne : c ≠ backslash := fun h => hc (h ▸ by decide)
      rw [encodeChar_of_not_mem hc, List.singleton_append, decode_cons (not_isPrefix_of_ne hne _)]
      exact congrArg (c :: ·) ih

/-! ## White space -/

theorem all_encodeChar : escaped.all (fun c => (encodeChar c).all (!Blank.isWhite ·)) = true := by
  decide

/-- White space is either escaped, or not there. -/
theorem isWhite_of_mem_encode {cs : List Char}
    (hcs : ∀ c ∈ cs, Blank.isWhite c = true → c ∈ escaped) :
    ∀ d ∈ encode cs, Blank.isWhite d = false := by
  intro d hd
  obtain ⟨c, hc, hdc⟩ := List.mem_flatMap.1 hd
  by_cases hesc : c ∈ escaped
  · have hall := List.all_eq_true.1 (List.all_eq_true.1 all_encodeChar c hesc) d hdc
    simpa using hall
  · rw [encodeChar_of_not_mem hesc, List.mem_singleton] at hdc
    subst hdc
    exact Bool.eq_false_iff.2 fun hwhite => hesc (hcs d hc hwhite)

/-- An escaped text begins as the text does, or with a backslash. -/
theorem exists_encode_eq_cons {cs : List Char} (h : cs ≠ []) :
    ∃ c rest, encode cs = c :: rest ∧ (cs.head? = some c ∨ c = '\x5C') := by
  obtain ⟨c, cs, rfl⟩ := List.exists_cons_of_ne_nil h
  rw [encode, List.flatMap_cons]
  by_cases hesc : c ∈ escaped
  · obtain ⟨more, hmore⟩ := List.head?_eq_some_iff.1 (head?_encodeChar hesc)
    rw [hmore]
    exact ⟨_, _, rfl, .inr rfl⟩
  · rw [encodeChar_of_not_mem hesc]
    exact ⟨_, _, rfl, .inl rfl⟩

end Escape

/-! ## Decimal numbers -/

namespace Flags

theorem isWhite_of_mem_toDigits {n : Nat} :
    ∀ c ∈ Nat.toDigits 10 n, Blank.isWhite c = false := fun _ hc =>
  (not_white_of_isDigit (Nat.isDigit_of_mem_toDigits (by decide) (by decide) hc)).1

theorem ofOptions_toDigits (n : UInt32) : ofOptions (Nat.toDigits 10 n.toNat) = ⟨n⟩ := by
  have hread := @ofOptions_decimal n [] [] false 0 nofun nofun
  simpa using hread

end Flags
end Mount
end BootSequence
