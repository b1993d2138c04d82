import BootSequence.Mount.Flags
import BootSequence.Proofs.Text.Blank
import BootSequence.Text.Digits
import Mathlib

/-!
The options of a mount as a number of any size. Counting modulo 2^32 at each digit comes to the same
as counting modulo 2^32 once at the end, with the sign in front (`ofOptions_wraps`).
-/

namespace BootSequence
namespace Mount
namespace Flags

/-! ## Digits -/

theorem isDigit_iff {c : Char} : c.isDigit = true ↔ 48 ≤ c.toNat ∧ c.toNat ≤ 57 := by
  simp [Char.isDigit, UInt32.le_iff_toNat_le]

theorem encodeChar_of_isDigit {c : Char} (h : c.isDigit = true) :
    String.utf8EncodeChar c = [zero + UInt8.ofNat (digit c)] := by
  have hrange := isDigit_iff.1 h
  have hval : c.val.toNat = c.toNat := rfl
  have hsum : c.toNat = 48 + digit c := by
    show _ = 48 + (c.toNat - 48)
    omega
  rw [String.utf8EncodeChar]
  simp only [hval]
  rw [if_pos (by omega), hsum, UInt8.ofNat_add]
  rfl

/-- A digit is neither white space nor a sign. -/
theorem not_white_of_isDigit {c : Char} (h : c.isDigit = true) :
    Blank.isWhite c = false ∧ c ≠ '-' ∧ c ≠ '+' := by
  have hrange := isDigit_iff.1 h
  refine ⟨?_, ?_, ?_⟩
  · rw [Blank.isWhite]
    simp only [Bool.or_eq_false_iff, Bool.and_eq_false_iff, decide_eq_false_iff_not]
    omega
  · rintro rfl
    exact absurd hrange (by decide)
  · rintro rfl
    exact absurd hrange (by decide)

theorem isDigit_octet {n : Nat} (h : n < 10) : isDigit (zero + UInt8.ofNat n) = true := by
  revert n
  decide

/-- No other character begins with the octet of a digit. -/
theorem isDigit_head?_encodeChar {c : Char} {b : UInt8}
    (h : (String.utf8EncodeChar c).head? = some b) (hb : isDigit b = true) : c.isDigit = true := by
  simp only [isDigit, Bool.and_eq_true, decide_eq_true_eq, UInt8.le_iff_toNat_le] at hb
  have hlow : 48 ≤ b.toNat := hb.1
  have hhigh : b.toNat ≤ 57 := hb.2
  rw [isDigit_iff, Utf8.toNat_eq_of_head?_encodeChar h (by omega)]
  exact ⟨hlow, hhigh⟩

theorem digit_lt {c : Char} (h : c.isDigit = true) : digit c < 10 := by
  have hrange := isDigit_iff.1 h
  show c.toNat - 48 < 10
  omega

theorem takeWhile_isDigit_encode (cs : List Char) :
    (Utf8.encode cs).takeWhile isDigit = Utf8.encode (cs.takeWhile Char.isDigit) := by
  induction cs with
  | nil => rfl
  | cons c cs ih =>
    rw [Utf8.encode, List.flatMap_cons]
    by_cases hc : c.isDigit = true
    · rw [List.takeWhile_cons_of_pos hc, encodeChar_of_isDigit hc, List.singleton_append,
        List.takeWhile_cons_of_pos (isDigit_octet (digit_lt hc)), Utf8.encode, List.flatMap_cons,
        encodeChar_of_isDigit hc]
      exact congrArg (_ :: ·) ih
    · obtain ⟨b, octets, hoctets⟩ := List.exists_cons_of_length_pos
        (String.length_utf8EncodeChar c ▸ c.utf8Size_pos)
      have hb : ¬isDigit b = true := fun hb =>
        hc (isDigit_head?_encodeChar (by rw [hoctets]; rfl) hb)
      rw [hoctets, List.cons_append, List.takeWhile_cons_of_neg hb, List.takeWhile_cons_of_neg hc]
      rfl

/-! ## Numbers -/

/-- What each step wraps is what has wrapped at the end. -/
theorem addDigit?_ofNat (n : Nat) {c : Char} (h : c.isDigit = true) :
    addDigit? (UInt32.ofNat n) (zero + UInt8.ofNat (digit c)) =
      some (UInt32.ofNat (10 * n + digit c)) := by
  have hoctet : ∀ d < 10, zero ≤ zero + UInt8.ofNat d ∧
      (zero + UInt8.ofNat d - zero).toUInt32 = UInt32.ofNat d := by decide
  obtain ⟨hle, hvalue⟩ := hoctet (digit c) (digit_lt h)
  rw [addDigit?, if_pos hle, hvalue, UInt32.ofNat_add, UInt32.ofNat_mul, UInt32.mul_comm]
  rfl

theorem foldlM_addDigit? {cs : List Char} (h : ∀ c ∈ cs, c.isDigit = true) (n : Nat) :
    (Utf8.encode cs).foldlM addDigit? (UInt32.ofNat n) =
      some (UInt32.ofNat (cs.foldl (fun n c => 10 * n + digit c) n)) := by
  induction cs generalizing n with
  | nil => rfl
  | cons c cs ih =>
    have hc : c.isDigit = true := h c List.mem_cons_self
    rw [Utf8.encode, List.flatMap_cons, encodeChar_of_isDigit hc, List.singleton_append,
      List.foldlM_cons, addDigit?_ofNat n hc]
    exact ih (fun d hd => h d (List.mem_cons_of_mem _ hd)) _

theorem leadingNumber?_encode (cs : List Char) :
    leadingNumber? (Utf8.encode cs) = some (UInt32.ofNat (decimal (cs.takeWhile Char.isDigit))) := by
  rw [leadingNumber?, takeWhile_isDigit_encode]
  exact foldlM_addDigit? (fun c hc => List.mem_takeWhile_imp hc) 0

/-! ## Signs -/

/-- The sign at the start of a text, as a factor, and what is behind it. -/
def signed : List Char → Int × List Char
  | '-' :: rest => (-1, rest)
  | '+' :: rest => (1, rest)
  | rest => (1, rest)

/-- The number that options write, of any size. -/
def number (options : List Char) : Int :=
  let (sign, rest) := signed (options.dropWhile Blank.isWhite)
  sign * decimal (rest.takeWhile Char.isDigit)

theorem sign_cases (cs : List Char) :
    (∃ rest, cs = '-' :: rest) ∨ (∃ rest, cs = '+' :: rest) ∨
      ((Utf8.encode cs).head? ≠ some minus ∧ (Utf8.encode cs).head? ≠ some plus ∧
        signed cs = (1, cs)) := by
  by_cases hminus : (Utf8.encode cs).head? = some minus
  · exact .inl (Utf8.exists_cons_of_head?_encode hminus (by decide))
  by_cases hplus : (Utf8.encode cs).head? = some plus
  · exact .inr (.inl (Utf8.exists_cons_of_head?_encode hplus (by decide)))
  refine .inr (.inr ⟨hminus, hplus, ?_⟩)
  unfold signed
  split
  · exact absurd rfl hminus
  · exact absurd rfl hplus
  · rfl

theorem ofOptions?_eq (options : List Char) :
    ofOptions? options = some (ofOptions options) := (Option.some_get _).symm

theorem ofOptions_of_plain {options cs : List Char} (h : Blank.trimStart options = cs)
    (hminus : (Utf8.encode cs).head? ≠ some minus) (hplus : (Utf8.encode cs).head? ≠ some plus) :
    ofOptions options = ⟨UInt32.ofNat (decimal (cs.takeWhile Char.isDigit))⟩ := by
  apply Option.some.inj
  rw [← ofOptions?_eq, ofOptions?]
  simp [h, hminus, hplus, leadingNumber?_encode]

theorem ofOptions_of_plus {options rest : List Char}
    (h : Blank.trimStart options = '+' :: rest) :
    ofOptions options = ⟨UInt32.ofNat (decimal (rest.takeWhile Char.isDigit))⟩ := by
  have hhead : (Utf8.encode ('+' :: rest)).head? = some plus := rfl
  have hcut : Utf8.cut? 1 ('+' :: rest) = some (['+'], rest) :=
    Utf8.cut?_eq_some_iff.2 ⟨rfl, rfl⟩
  apply Option.some.inj
  rw [← ofOptions?_eq, ofOptions?]
  simp [h, hhead, hcut, leadingNumber?_encode, show plus ≠ minus by decide]

theorem ofOptions_of_minus {options rest : List Char}
    (h : Blank.trimStart options = '-' :: rest) :
    ofOptions options = ⟨0 - UInt32.ofNat (decimal (rest.takeWhile Char.isDigit))⟩ := by
  have hhead : (Utf8.encode ('-' :: rest)).head? = some minus := rfl
  have hcut : Utf8.cut? 1 ('-' :: rest) = some (['-'], rest) :=
    Utf8.cut?_eq_some_iff.2 ⟨rfl, rfl⟩
  apply Option.some.inj
  rw [← ofOptions?_eq, ofOptions?]
  simp [h, hhead, hcut, leadingNumber?_encode]

theorem toNat_bits_ofOptions (options : List Char) :
    ((ofOptions options).bits.toNat : Int) = number options % 2 ^ 32 := by
  unfold number
  rcases sign_cases (Blank.trimStart options) with ⟨rest, h⟩ | ⟨rest, h⟩ | ⟨hminus, hplus, h⟩
  · rw [ofOptions_of_minus h, UInt32.toNat_sub, UInt32.toNat_ofNat', UInt32.toNat_zero]
    rw [Blank.trimStart] at h
    simp only [h, signed]
    omega
  · rw [ofOptions_of_plus h, UInt32.toNat_ofNat']
    rw [Blank.trimStart] at h
    simp only [h, signed]
    omega
  · rw [ofOptions_of_plain rfl hminus hplus, UInt32.toNat_ofNat']
    rw [Blank.trimStart] at h ⊢
    simp only [h]
    omega

/-! ## Decimal texts -/

theorem decimal_replicate_append (zeros : Nat) (cs : List Char) :
    decimal (List.replicate zeros '0' ++ cs) = decimal cs := by
  induction zeros with
  | zero => rfl
  | succ zeros ih => exact ih

theorem decimal_toDigits (n : Nat) : decimal (Nat.toDigits 10 n) = n :=
  Nat.ofDigitChars_ten_toDigits

/-- A flag word in decimal, as it may stand in front of anything that does not go on with a digit. -/
theorem ofOptions_decimal (f : UInt32) {gap rest : List Char} (plus : Bool) (zeros : Nat)
    (hgap : ∀ c ∈ gap, Blank.isWhite c = true) (hrest : ∀ c ∈ rest.head?, c.isDigit = false) :
    ofOptions (gap ++ (if plus then ['+'] else []) ++ List.replicate zeros '0' ++
      Nat.toDigits 10 f.toNat ++ rest) = ⟨f⟩ := by
  let digits := List.replicate zeros '0' ++ Nat.toDigits 10 f.toNat
  have hdigits : ∀ c ∈ digits, c.isDigit = true := by
    intro c hc
    rcases List.mem_append.1 hc with hc | hc
    · rw [List.eq_of_mem_replicate hc]
      rfl
    · exact Nat.isDigit_of_mem_toDigits (by decide) (by decide) hc
  have htake : (digits ++ rest).takeWhile Char.isDigit = digits := by
    rw [List.takeWhile_append_of_pos hdigits]
    cases rest with
    | nil => exact List.append_nil _
    | cons c rest =>
      rw [List.takeWhile_cons_of_neg (by simp [hrest c rfl]), List.append_nil]
  have hvalue : UInt32.ofNat (decimal ((digits ++ rest).takeWhile Char.isDigit)) = f := by
    rw [htake, decimal_replicate_append, decimal_toDigits, UInt32.ofNat_toNat]
  have hfirst : ∃ c more, digits ++ rest = c :: more ∧ c.isDigit = true := by
    have hne : digits ≠ [] := List.append_ne_nil_of_right_ne_nil _ Nat.toDigits_ne_nil
    obtain ⟨c, more, hcons⟩ := List.exists_cons_of_ne_nil hne
    exact ⟨c, more ++ rest, by rw [hcons]; rfl, hdigits c (hcons ▸ List.mem_cons_self)⟩
  obtain ⟨c, more, hcons, hc⟩ := hfirst
  obtain ⟨hwhite, hminus, hplus⟩ := not_white_of_isDigit hc
  rw [List.append_assoc, List.append_assoc, List.append_assoc, ← List.append_assoc _ _ rest]
  show ofOptions (gap ++ (_ ++ (digits ++ rest))) = _
  cases plus with
  | true =>
    have hstart : Blank.trimStart (gap ++ '+' :: (digits ++ rest)) = '+' :: (digits ++ rest) :=
      (Blank.trimStart_append hgap _).trans (List.dropWhile_cons_of_neg (by decide))
    exact (ofOptions_of_plus hstart).trans (by rw [hvalue])
  | false =>
    have hstart : Blank.trimStart (gap ++ (digits ++ rest)) = digits ++ rest := by
      rw [Blank.trimStart_append hgap, hcons]
      exact List.dropWhile_cons_of_neg (by simp [hwhite])
    rcases sign_cases (digits ++ rest) with ⟨behind, h⟩ | ⟨behind, h⟩ | ⟨hm, hp, -⟩
    · exact absurd (List.cons.inj (hcons.symm.trans h)).1 hminus
    · exact absurd (List.cons.inj (hcons.symm.trans h)).1 hplus
    · exact (ofOptions_of_plain hstart hm hp).trans (by rw [hvalue])

/-- Options are read as the number that they write, modulo 2^32, whatever stands in them; a flag word
is read back. -/
theorem ofOptions_wraps :
    (∀ options, ofOptions? options = some (ofOptions options) ∧
      ((ofOptions options).bits.toNat : Int) = number options % 2 ^ 32) ∧
    ∀ (f : UInt32) (gap rest : List Char) (plus : Bool) (zeros : Nat),
      (∀ c ∈ gap, Blank.isWhite c = true) → (∀ c ∈ rest.head?, c.isDigit = false) →
        ofOptions (gap ++ (if plus then ['+'] else []) ++ List.replicate zeros '0' ++
          Nat.toDigits 10 f.toNat ++ rest) = ⟨f⟩ :=
  ⟨fun options => ⟨ofOptions?_eq options, toNat_bits_ofOptions options⟩,
    fun f _ _ plus zeros hgap hrest => ofOptions_decimal f plus zeros hgap hrest⟩

/-- The largest flag word between a no-break space and an accented letter, and the negative of a
number that no word holds. -/
theorem ofOptions_wraps_largest :
    (∀ c ∈ ['\u00A0'], Blank.isWhite c = true) ∧ (∀ c ∈ ['é'].head?, c.isDigit = false) ∧
      ofOptions "\u00A0+004294967295é".toList = ⟨4294967295⟩ ∧
      ((ofOptions "-4294967298é".toList).bits.toNat : Int) = 4294967294 := by
  have hgap : ∀ c ∈ ['\u00A0'], Blank.isWhite c = true := by
    intro c hc
    rw [List.mem_singleton.1 hc]
    rfl
  have hrest : ∀ c ∈ ['é'].head?, c.isDigit = false := by
    intro c hc
    cases hc
    rfl
  have hread := ofOptions_wraps.2 4294967295 ['\u00A0'] ['é'] true 2 hgap hrest
  have htext : "\u00A0+004294967295é".toList = ['\u00A0'] ++ (if true then ['+'] else []) ++
      List.replicate 2 '0' ++ Nat.toDigits 10 (4294967295 : UInt32).toNat ++ ['é'] := by decide
  refine ⟨hgap, hrest, htext ▸ hread, ?_⟩
  rw [(ofOptions_wraps.1 "-4294967298é".toList).2]
  decide

end Flags
end Mount
end BootSequence
