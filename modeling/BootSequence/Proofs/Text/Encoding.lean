import BootSequence.Proofs.Text.Decoding

/-!
Text that has been encoded is decoded to itself, and nothing else is decoded without a replacement
character. The octets of each character take the machine from where no character has begun to where
that one has been found (`foldl_utf8EncodeChar`); and whatever the machine finds, it has lost no octet
on the way (`flatMap_octets_scan`).
-/

namespace BootSequence
namespace Utf8

/-! ## First octets -/

theorem Begun.of?_two : ∀ n < 32, 2 ≤ n → Begun.of? (UInt8.ofNat (n + 192)) =
    some ⟨n, 0x80, 0xBF, 0, [UInt8.ofNat (n + 192)]⟩ := by decide

theorem Begun.of?_three : ∀ n < 16, Begun.of? (UInt8.ofNat (n + 224)) =
    some ⟨n, if n = 0 then 0xA0 else 0x80, if n = 13 then 0x9F else 0xBF, 1,
      [UInt8.ofNat (n + 224)]⟩ := by decide

theorem Begun.of?_four : ∀ n < 5, Begun.of? (UInt8.ofNat (n + 240)) =
    some ⟨n, if n = 0 then 0x90 else 0x80, if n = 4 then 0x8F else 0xBF, 2,
      [UInt8.ofNat (n + 240)]⟩ := by decide

namespace Scan

theorem toNat_ofNat_of_lt {n : Nat} (h : n < 256) : (UInt8.ofNat n).toNat = n := by
  rw [UInt8.toNat_ofNat', Nat.mod_eq_of_lt h]

variable (found : List Piece)

theorem step_first {b : UInt8} {p : Begun} (hb : 128 ≤ b.toNat) (hp : Begun.of? b = some p) :
    step ⟨none, found⟩ b = ⟨some p, found⟩ := by
  have hlarge : ¬b < 0x80 := fun h => by
    have := UInt8.lt_iff_toNat_lt.1 h
    exact absurd hb (Nat.not_le.2 this)
  rw [step, first, if_neg hlarge, hp]

/-! ## Further octets -/

section Further

variable {low high : UInt8} {m : Nat} (bits : Nat) (seen : Octets) (hm : m < 64)
  (hlow : low.toNat ≤ m + 128) (hhigh : m + 128 ≤ high.toNat)
include hm hlow hhigh

theorem in_range : low ≤ UInt8.ofNat (m + 128) ∧ UInt8.ofNat (m + 128) ≤ high ∧
    (UInt8.ofNat (m + 128)).toNat % 64 = m := by
  have hnat : (UInt8.ofNat (m + 128)).toNat = m + 128 := toNat_ofNat_of_lt (by omega)
  refine ⟨UInt8.le_iff_toNat_le.2 ?_, UInt8.le_iff_toNat_le.2 ?_, ?_⟩
  · rwa [hnat]
  · rwa [hnat]
  · omega

theorem step_more (after : Nat) :
    step ⟨some ⟨bits, low, high, after + 1, seen⟩, found⟩ (UInt8.ofNat (m + 128)) =
      ⟨some ⟨bits * 64 + m, 0x80, 0xBF, after, seen ++ [UInt8.ofNat (m + 128)]⟩, found⟩ := by
  obtain ⟨hl, hh, hbits⟩ := in_range hm hlow hhigh
  rw [step]
  simp only [hl, hh, and_self, if_true, hbits]

theorem step_last :
    step ⟨some ⟨bits, low, high, 0, seen⟩, found⟩ (UInt8.ofNat (m + 128)) =
      ⟨none, .char (Char.ofNat (bits * 64 + m)) :: found⟩ := by
  obtain ⟨hl, hh, hbits⟩ := in_range hm hlow hhigh
  rw [step]
  simp only [hl, hh, and_self, if_true, hbits]

end Further

/-- Any octet that continues a character is in range of the last one. -/
theorem step_last_any {m : Nat} (hm : m < 64) (bits : Nat) (seen : Octets) :
    step ⟨some ⟨bits, 0x80, 0xBF, 0, seen⟩, found⟩ (UInt8.ofNat (m + 128)) =
      ⟨none, .char (Char.ofNat (bits * 64 + m)) :: found⟩ :=
  step_last found bits seen hm (Nat.le_add_left 128 m) (by show m + 128 ≤ 191; omega)

theorem step_more_any {m : Nat} (hm : m < 64) (bits : Nat) (seen : Octets) (after : Nat) :
    step ⟨some ⟨bits, 0x80, 0xBF, after + 1, seen⟩, found⟩ (UInt8.ofNat (m + 128)) =
      ⟨some ⟨bits * 64 + m, 0x80, 0xBF, after, seen ++ [UInt8.ofNat (m + 128)]⟩, found⟩ :=
  step_more found bits seen hm (by show 128 ≤ m + 128; omega) (by show m + 128 ≤ 191; omega) after

/-! ## Characters -/

/-- The octets of a number that is a character make that character. -/
theorem foldl_one {v : Nat} (h : v < 128) :
    [UInt8.ofNat v].foldl step ⟨none, found⟩ = ⟨none, .char (Char.ofNat v) :: found⟩ := by
  have hnat : (UInt8.ofNat v).toNat = v := toNat_ofNat_of_lt (by omega)
  have hlt : UInt8.ofNat v < 0x80 := UInt8.lt_iff_toNat_lt.2 (by rwa [hnat])
  rw [List.foldl_cons, List.foldl_nil, step, first, if_pos hlt, hnat]

theorem foldl_two {v : Nat} (h : 128 ≤ v) (hlt : v < 2048) :
    [UInt8.ofNat (v / 64 % 32 + 192), UInt8.ofNat (v % 64 + 128)].foldl step ⟨none, found⟩ =
      ⟨none, .char (Char.ofNat v) :: found⟩ := by
  have hb : 128 ≤ (UInt8.ofNat (v / 64 % 32 + 192)).toNat := by
    rw [toNat_ofNat_of_lt (by omega)]
    omega
  have hbits : v / 64 % 32 * 64 + v % 64 = v := by omega
  rw [List.foldl_cons, List.foldl_cons, List.foldl_nil,
    step_first found hb (Begun.of?_two _ (by omega) (by omega)), step_last_any found (by omega),
    hbits]

theorem foldl_three {v : Nat} (h : 2048 ≤ v) (hlt : v < 65536)
    (hvalid : v < 0xD800 ∨ 0xDFFF < v) :
    [UInt8.ofNat (v / 4096 % 16 + 224), UInt8.ofNat (v / 64 % 64 + 128),
      UInt8.ofNat (v % 64 + 128)].foldl step ⟨none, found⟩ =
      ⟨none, .char (Char.ofNat v) :: found⟩ := by
  have hb : 128 ≤ (UInt8.ofNat (v / 4096 % 16 + 224)).toNat := by
    rw [toNat_ofNat_of_lt (by omega)]
    omega
  -- The range of the second octet leaves out shorter characters and surrogates.
  have hlow : (if v / 4096 % 16 = 0 then (0xA0 : UInt8) else 0x80).toNat ≤ v / 64 % 64 + 128 := by
    split
    · show 160 ≤ _
      omega
    · exact Nat.le_add_left 128 _
  have hhigh : v / 64 % 64 + 128 ≤ (if v / 4096 % 16 = 13 then (0x9F : UInt8) else 0xBF).toNat := by
    split
    · show _ ≤ 159
      omega
    · show _ ≤ 191
      omega
  have hbits : (v / 4096 % 16 * 64 + v / 64 % 64) * 64 + v % 64 = v := by omega
  rw [List.foldl_cons, List.foldl_cons, List.foldl_cons, List.foldl_nil,
    step_first found hb (Begun.of?_three _ (by omega)),
    step_more found _ _ (by omega) hlow hhigh, step_last_any found (by omega), hbits]

theorem foldl_four {v : Nat} (h : 65536 ≤ v) (hlt : v < 0x110000) :
    [UInt8.ofNat (v / 262144 % 8 + 240), UInt8.ofNat (v / 4096 % 64 + 128),
      UInt8.ofNat (v / 64 % 64 + 128), UInt8.ofNat (v % 64 + 128)].foldl step ⟨none, found⟩ =
      ⟨none, .char (Char.ofNat v) :: found⟩ := by
  have hb : 128 ≤ (UInt8.ofNat (v / 262144 % 8 + 240)).toNat := by
    rw [toNat_ofNat_of_lt (by omega)]
    omega
  -- Here it leaves out shorter characters and numbers past the last one.
  have hlow : (if v / 262144 % 8 = 0 then (0x90 : UInt8) else 0x80).toNat ≤
      v / 4096 % 64 + 128 := by
    split
    · show 144 ≤ _
      omega
    · exact Nat.le_add_left 128 _
  have hhigh : v / 4096 % 64 + 128 ≤
      (if v / 262144 % 8 = 4 then (0x8F : UInt8) else 0xBF).toNat := by
    split
    · show _ ≤ 143
      omega
    · show _ ≤ 191
      omega
  have hbits : ((v / 262144 % 8 * 64 + v / 4096 % 64) * 64 + v / 64 % 64) * 64 + v % 64 = v := by
    omega
  rw [List.foldl_cons, List.foldl_cons, List.foldl_cons, List.foldl_cons, List.foldl_nil,
    step_first found hb (Begun.of?_four _ (by omega)),
    step_more found _ _ (by omega) hlow hhigh, step_more_any found (by omega),
    step_last_any found (by omega), hbits]

theorem foldl_utf8EncodeChar (c : Char) :
    (String.utf8EncodeChar c).foldl step ⟨none, found⟩ = ⟨none, .char c :: found⟩ := by
  have hvalid : c.toNat < 0xD800 ∨ 0xDFFF < c.toNat ∧ c.toNat < 0x110000 := c.valid
  have hval : c.val.toNat = c.toNat := rfl
  conv_rhs => rw [← Char.ofNat_toNat c]
  simp only [String.utf8EncodeChar, hval]
  split
  · exact foldl_one found (by omega)
  split
  · exact foldl_two found (by omega) (by omega)
  split
  · exact foldl_three found (by omega) (by omega) (by omega)
  · exact foldl_four found (by omega) (by omega)

theorem foldl_encode (cs : List Char) :
    (encode cs).foldl step ⟨none, found⟩ = ⟨none, (cs.map Piece.char).reverse ++ found⟩ := by
  induction cs generalizing found with
  | nil => rfl
  | cons c cs ih =>
    rw [encode, List.flatMap_cons, List.foldl_append, foldl_utf8EncodeChar]
    refine (ih _).trans ?_
    rw [List.map_cons, List.reverse_cons, List.append_assoc]
    rfl

end Scan

/-- Nothing is malformed that has been encoded. -/
theorem scan_encode (cs : List Char) : scan (encode cs) = cs.map Piece.char := by
  rw [scan, show Scan.start = ⟨none, []⟩ from rfl, Scan.foldl_encode, List.append_nil]
  exact List.reverse_reverse _

theorem decodeLossy_encode (cs : List Char) : decodeLossy (encode cs) = cs := by
  rw [decodeLossy, scan_encode, List.map_map]
  exact List.map_id cs

/-- Octets of one character each are in the encoding of a text only where the characters are. -/
theorem mem_of_mem_encode {b : UInt8} (hb : b.toNat < 128) {cs : List Char} (h : b ∈ encode cs) :
    Char.ofNat b.toNat ∈ cs := by
  obtain ⟨before, after, hcut⟩ := List.append_of_mem h
  have hdecoded := decodeLossy_encode cs
  rw [hcut, decodeLossy, scan_append_ascii hb, List.map_append, List.map_cons] at hdecoded
  exact hdecoded ▸ List.mem_append_right _ List.mem_cons_self

theorem newline_not_mem_encode {cs : List Char} (h : '\n' ∉ cs) :
    Octets.newline ∉ encode cs :=
  fun hm => h (mem_of_mem_encode (by decide) hm)

theorem encode_append (cs ds : List Char) : encode (cs ++ ds) = encode cs ++ encode ds :=
  List.flatMap_append

/-! ## Nothing is lost -/

theorem utf8EncodeChar_ofNat {v : Nat} (h : v.isValidChar) :
    String.utf8EncodeChar (Char.ofNat v) =
      if v ≤ 0x7F then [UInt8.ofNat v]
      else if v ≤ 0x7FF then [UInt8.ofNat (v / 64 % 32 + 192), UInt8.ofNat (v % 64 + 128)]
      else if v ≤ 0xFFFF then [UInt8.ofNat (v / 4096 % 16 + 224), UInt8.ofNat (v / 64 % 64 + 128),
        UInt8.ofNat (v % 64 + 128)]
      else [UInt8.ofNat (v / 262144 % 8 + 240), UInt8.ofNat (v / 4096 % 64 + 128),
        UInt8.ofNat (v / 64 % 64 + 128), UInt8.ofNat (v % 64 + 128)] := by
  have hval : (Char.ofNat v).val.toNat = v := by
    show (Char.ofNat v).toNat = v
    rw [Char.toNat_ofNat, if_pos h]
  simp only [String.utf8EncodeChar, hval]

theorem ofNat_eq {n : Nat} {b : UInt8} (h : n = b.toNat) : UInt8.ofNat n = b := by
  rw [h, UInt8.ofNat_toNat]

/-- Further octets of a character. -/
def Continues (b : UInt8) : Prop := 0x80 ≤ b ∧ b ≤ 0xBF

theorem Continues.bounds {b : UInt8} (h : Continues b) : 128 ≤ b.toNat ∧ b.toNat ≤ 191 :=
  ⟨UInt8.le_iff_toNat_le.1 h.1, UInt8.le_iff_toNat_le.1 h.2⟩

/-- Whatever octets complete the character that has begun, it is encoded by all of them. -/
def Begun.Spells (p : Begun) : Prop :=
  ∀ b more, p.low ≤ b → b ≤ p.high → more.length = p.after → (∀ x ∈ more, Continues x) →
    String.utf8EncodeChar
        (Char.ofNat ((b :: more).foldl (fun n x => n * 64 + x.toNat % 64) p.bits)) =
      p.seen ++ b :: more

theorem Begun.spells_two {a : UInt8} (ha : 0xC2 ≤ a.toNat) (ha' : a.toNat ≤ 0xDF) :
    Spells ⟨a.toNat - 0xC0, 0x80, 0xBF, 0, [a]⟩ := by
  intro b more hlow hhigh hlen _
  obtain rfl := List.length_eq_zero_iff.1 hlen
  obtain ⟨hb, hb'⟩ := Continues.bounds ⟨hlow, hhigh⟩
  simp only [List.foldl_cons, List.foldl_nil]
  rw [utf8EncodeChar_ofNat (.inl (by omega)), if_neg (by omega), if_pos (by omega),
    ofNat_eq (b := a) (by omega), ofNat_eq (b := b) (by omega)]
  rfl

theorem Begun.spells_three {a low high : UInt8} {bits : Nat} (ha : a.toNat = bits + 0xE0)
    (hbits : bits < 16) (hlow : 128 ≤ low.toNat) (hhigh : high.toNat ≤ 191)
    (hfirst : bits = 0 → 0xA0 ≤ low.toNat) (hsurrogate : bits = 13 → high.toNat ≤ 0x9F) :
    Spells ⟨bits, low, high, 1, [a]⟩ := by
  intro b more hb hb' hlen hmore
  obtain ⟨c, rfl⟩ := List.length_eq_one_iff.1 hlen
  obtain ⟨hc, hc'⟩ := (hmore c List.mem_cons_self).bounds
  have hb : low.toNat ≤ b.toNat := UInt8.le_iff_toNat_le.1 hb
  have hb' : b.toNat ≤ high.toNat := UInt8.le_iff_toNat_le.1 hb'
  have hvalid : ((bits * 64 + b.toNat % 64) * 64 + c.toNat % 64).isValidChar := by
    by_cases h : bits ≤ 13
    · by_cases h13 : bits = 13
      · have := hsurrogate h13
        left
        omega
      · left
        omega
    · right
      omega
  simp only [List.foldl_cons, List.foldl_nil]
  rw [utf8EncodeChar_ofNat hvalid, if_neg (by omega), if_neg (by omega), if_pos (by omega),
    ofNat_eq (b := a) (by omega), ofNat_eq (b := b) (by omega), ofNat_eq (b := c) (by omega)]
  rfl

theorem Begun.spells_four {a low high : UInt8} {bits : Nat} (ha : a.toNat = bits + 0xF0)
    (hbits : bits < 5) (hlow : 128 ≤ low.toNat) (hhigh : high.toNat ≤ 191)
    (hfirst : bits = 0 → 0x90 ≤ low.toNat) (hlast : bits = 4 → high.toNat ≤ 0x8F) :
    Spells ⟨bits, low, high, 2, [a]⟩ := by
  intro b more hb hb' hlen hmore
  obtain ⟨c, d, rfl⟩ := List.length_eq_two.1 hlen
  obtain ⟨hc, hc'⟩ := (hmore c List.mem_cons_self).bounds
  obtain ⟨hd, hd'⟩ := (hmore d (List.mem_cons_of_mem _ List.mem_cons_self)).bounds
  have hb : low.toNat ≤ b.toNat := UInt8.le_iff_toNat_le.1 hb
  have hb' : b.toNat ≤ high.toNat := UInt8.le_iff_toNat_le.1 hb'
  have hvalid : (((bits * 64 + b.toNat % 64) * 64 + c.toNat % 64) * 64 + d.toNat % 64).isValidChar := by
    right
    omega
  simp only [List.foldl_cons, List.foldl_nil]
  rw [utf8EncodeChar_ofNat hvalid, if_neg (by omega), if_neg (by omega), if_neg (by omega),
    ofNat_eq (b := a) (by omega), ofNat_eq (b := b) (by omega), ofNat_eq (b := c) (by omega),
    ofNat_eq (b := d) (by omega)]
  rfl

theorem Begun.spells_of_of? {b : UInt8} {p : Begun} (h : Begun.of? b = some p) :
    p.Spells ∧ p.seen = [b] := by
  simp only [Begun.of?] at h
  split at h
  · next hb =>
    obtain rfl := Option.some.inj h
    exact ⟨spells_two (UInt8.le_iff_toNat_le.1 hb.1) (UInt8.le_iff_toNat_le.1 hb.2), rfl⟩
  split at h
  · next hb =>
    obtain rfl := Option.some.inj h
    subst hb
    exact ⟨spells_three rfl (by decide) (by decide) (by decide) (by decide) (by decide), rfl⟩
  split at h
  · next hb =>
    obtain rfl := Option.some.inj h
    subst hb
    exact ⟨spells_three rfl (by decide) (by decide) (by decide) (by decide) (by decide), rfl⟩
  split at h
  · next hED hb =>
    obtain rfl := Option.some.inj h
    have hle : 0xE1 ≤ b.toNat := UInt8.le_iff_toNat_le.1 hb.1
    have hle' : b.toNat ≤ 0xEF := UInt8.le_iff_toNat_le.1 hb.2
    have hne : b.toNat ≠ 0xED := fun he => hED (UInt8.toNat_inj.1 he)
    exact ⟨spells_three (by omega) (by omega) (by decide) (by decide) (by omega) (by omega), rfl⟩
  split at h
  · next hb =>
    obtain rfl := Option.some.inj h
    subst hb
    exact ⟨spells_four rfl (by decide) (by decide) (by decide) (by decide) (by decide), rfl⟩
  split at h
  · next hb =>
    obtain rfl := Option.some.inj h
    have hle : 0xF1 ≤ b.toNat := UInt8.le_iff_toNat_le.1 hb.1
    have hle' : b.toNat ≤ 0xF3 := UInt8.le_iff_toNat_le.1 hb.2
    exact ⟨spells_four (by omega) (by omega) (by decide) (by decide) (by omega) (by omega), rfl⟩
  split at h
  · next hb =>
    obtain rfl := Option.some.inj h
    subst hb
    exact ⟨spells_four rfl (by decide) (by decide) (by decide) (by decide) (by decide), rfl⟩
  · cases h

namespace Scan

/-- All octets read so far are still there: in what has been found and in what has begun. -/
structure Holds (s : Scan) (o : Octets) : Prop where
  spells : ∀ p, s.begun = some p → p.Spells
  octets_eq : s.finish.flatMap Piece.octets = o

theorem holds_first {found : List Piece} {o : Octets}
    (h : found.reverse.flatMap Piece.octets = o) (b : UInt8) : (first found b).Holds (o ++ [b]) := by
  unfold first
  split
  · next hlt =>
    have hlt : b.toNat < 128 := UInt8.lt_iff_toNat_lt.1 hlt
    have hchar : String.utf8EncodeChar (Char.ofNat b.toNat) = [b] := by
      rw [utf8EncodeChar_ofNat (.inl (by omega)), if_pos (by omega), ofNat_eq rfl]
    constructor
    · intro q hq
      cases hq
    · simp [finish, Piece.octets, h, hchar]
  · split
    · next p hp =>
      obtain ⟨hspells, hseen⟩ := Begun.spells_of_of? hp
      refine ⟨?_, ?_⟩
      · intro q hq
        obtain rfl := Option.some.inj hq
        exact hspells
      · simp [finish, Piece.octets, h, hseen]
    · constructor
      · intro q hq
        cases hq
      · simp [finish, Piece.octets, h]

theorem holds_step {s : Scan} {o : Octets} (h : s.Holds o) (b : UInt8) :
    (s.step b).Holds (o ++ [b]) := by
  obtain ⟨begun, found⟩ := s
  obtain ⟨hspells, hoctets⟩ := h
  cases begun with
  | none => exact holds_first hoctets b
  | some p =>
    have hp : p.Spells := hspells p rfl
    simp only [step]
    split
    · next hb =>
      split
      · next hafter =>
        have hchar := hp b [] hb.1 hb.2 hafter.symm (List.forall_mem_nil _)
        constructor
        · intro q hq
          cases hq
        · simp only [List.foldl_cons, List.foldl_nil] at hchar
          simp only [finish, List.reverse_cons, List.flatMap_append, List.flatMap_singleton,
            Piece.octets] at hoctets ⊢
          rw [hchar, ← hoctets, List.append_assoc]
      · next n hafter =>
        refine ⟨?_, ?_⟩
        · intro q hq
          obtain rfl := Option.some.inj hq
          intro c more hc hc' hlen hmore
          have hchar := hp b (c :: more) hb.1 hb.2 (by rw [hafter, List.length_cons, hlen])
            (List.forall_mem_cons.2 ⟨⟨hc, hc'⟩, hmore⟩)
          rw [List.foldl_cons] at hchar
          rw [hchar, List.append_assoc]
          rfl
        · simp only [finish, List.reverse_cons, List.flatMap_append, List.flatMap_singleton,
            Piece.octets] at hoctets ⊢
          rw [← hoctets, List.append_assoc]
    · exact holds_first hoctets b

theorem holds_foldl (o : Octets) : (o.foldl step start).Holds o := by
  induction o using List.reverseRecOn with
  | nil =>
    constructor
    · intro q hq
      cases hq
    · rfl
  | append_singleton o b ih =>
    rw [List.foldl_append]
    exact holds_step ih b

end Scan

/-- Put together again, the pieces are what was cut. -/
theorem flatMap_octets_scan (o : Octets) : (scan o).flatMap Piece.octets = o :=
  (Scan.holds_foldl o).octets_eq

/-- Octets are text if they are its encoding, and no other octets are. -/
theorem decode?_eq_some_iff {o : Octets} {cs : List Char} : decode? o = some cs ↔ o = encode cs := by
  have hchars : ∀ pieces : List Piece, pieces.mapM Piece.char? = some cs ↔
      pieces = cs.map Piece.char := by
    intro pieces
    induction pieces generalizing cs with
    | nil => cases cs <;> simp
    | cons piece pieces ih =>
      cases piece with
      | malformed o => cases cs <;> simp [List.mapM_cons, Piece.char?]
      | char c =>
        cases cs with
        | nil => simp [List.mapM_cons, Piece.char?, Option.bind_eq_some_iff]
        | cons d cs =>
          rw [List.map_cons, List.cons.injEq, Piece.char.injEq, ← ih]
          simp [List.mapM_cons, Piece.char?, Option.bind_eq_some_iff, and_comm]
  rw [decode?, hchars]
  constructor
  · intro h
    rw [← flatMap_octets_scan o, h, encode, List.flatMap_map]
    rfl
  · intro h
    rw [h, scan_encode]

end Utf8

/-! ## Strings -/

namespace Octets

theorem lossy_ofString (s : String) : (ofString s).lossy = s := by
  rw [lossy, ofString, Utf8.decodeLossy_encode, String.ofList_toList]

theorem ofString_inj {s t : String} : ofString s = ofString t ↔ s = t :=
  ⟨fun h => by rw [← lossy_ofString s, h, lossy_ofString], fun h => h ▸ rfl⟩

theorem text?_eq_some_iff {o : Octets} {s : String} : o.text? = some s ↔ o = ofString s := by
  rw [text?, Option.map_eq_some_iff]
  constructor
  · rintro ⟨cs, hcs, rfl⟩
    rw [ofString, String.toList_ofList]
    exact Utf8.decode?_eq_some_iff.1 hcs
  · intro h
    exact ⟨s.toList, Utf8.decode?_eq_some_iff.2 h, String.ofList_toList⟩

end Octets
end BootSequence
