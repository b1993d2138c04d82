import BootSequence.Text.Utf8
import Mathlib

/-!
Decoding with replacement characters. An ASCII octet always stands for itself: no character that has
begun can take it up, so that what is before it and what is behind it are read apart. That is what
lets text be cut into lines before it is decoded. The other facts are that decoding invents no ASCII
character and makes no text longer.
-/

namespace BootSequence
namespace Utf8

/-! ## Characters that have begun -/

/-- Only octets from 0x80 on continue what has begun, and what it will be is past ASCII. -/
structure Begun.Proper (p : Begun) : Prop where
  low_ge : 128 ≤ p.low.toNat
  high_lt : p.high.toNat < 192
  large : 128 ≤ (p.bits * 64 + p.low.toNat % 64) * 64 ^ p.after

theorem Begun.proper_mk {bits after : Nat} {low high : UInt8} (seen : Octets)
    (hl : 128 ≤ low.toNat) (hh : high.toNat < 192)
    (hb : 128 ≤ (bits * 64 + low.toNat % 64) * 64 ^ after) :
    Proper ⟨bits, low, high, after, seen⟩ :=
  ⟨hl, hh, hb⟩

theorem Begun.proper_of_of? {b : UInt8} {p : Begun} (h : Begun.of? b = some p) : p.Proper := by
  have h80 : (0x80 : UInt8).toNat = 128 := rfl
  simp only [Begun.of?] at h
  split at h
  · next hb =>
    have hle : 0xC2 ≤ b.toNat := UInt8.le_iff_toNat_le.1 hb.1
    obtain rfl := Option.some.inj h
    exact proper_mk _ (by decide) (by decide) (by rw [h80]; omega)
  split at h
  · obtain rfl := Option.some.inj h
    exact proper_mk _ (by decide) (by decide) (by decide)
  split at h
  · obtain rfl := Option.some.inj h
    exact proper_mk _ (by decide) (by decide) (by decide)
  split at h
  · next hb =>
    have hle : 0xE1 ≤ b.toNat := UInt8.le_iff_toNat_le.1 hb.1
    obtain rfl := Option.some.inj h
    exact proper_mk _ (by decide) (by decide) (by rw [h80]; omega)
  split at h
  · obtain rfl := Option.some.inj h
    exact proper_mk _ (by decide) (by decide) (by decide)
  split at h
  · next hb =>
    have hle : 0xF1 ≤ b.toNat := UInt8.le_iff_toNat_le.1 hb.1
    obtain rfl := Option.some.inj h
    exact proper_mk _ (by decide) (by decide) (by rw [h80]; omega)
  split at h
  · obtain rfl := Option.some.inj h
    exact proper_mk _ (by decide) (by decide) (by decide)
  · cases h

/-- An octet in range adds at least the least bits that it could add. -/
theorem Begun.Proper.large_next {p : Begun} (hp : p.Proper) {b : UInt8} (hb : p.low ≤ b ∧ b ≤ p.high) :
    128 ≤ (p.bits * 64 + b.toNat % 64) * 64 ^ p.after := by
  have hl : p.low.toNat ≤ b.toNat := UInt8.le_iff_toNat_le.1 hb.1
  have hh : b.toNat ≤ p.high.toNat := UInt8.le_iff_toNat_le.1 hb.2
  have h1 := hp.low_ge
  have h2 := hp.high_lt
  have hmod : p.low.toNat % 64 ≤ b.toNat % 64 := by omega
  exact Nat.le_trans hp.large (Nat.mul_le_mul_right _ (Nat.add_le_add_left hmod _))

namespace Scan

/-- What has begun, if anything has, has begun properly. -/
def Proper (s : Scan) : Prop := ∀ p, s.begun = some p → p.Proper

theorem proper_start : start.Proper := fun _ h => nomatch h

theorem proper_first (found : List Piece) (b : UInt8) : (first found b).Proper := by
  intro p hp
  unfold first at hp
  split at hp
  · cases hp
  · split at hp
    · next h =>
      cases hp
      exact Begun.proper_of_of? h
    · cases hp

theorem proper_step {s : Scan} (hs : s.Proper) (b : UInt8) : (s.step b).Proper := by
  unfold step
  split
  · exact proper_first s.found b
  · next p hbegun =>
    have hp := hs p hbegun
    split
    · next hb =>
      have hnext := hp.large_next hb
      dsimp only
      split
      · exact fun _ h => nomatch h
      · next n hn =>
        intro q hq
        obtain rfl := Option.some.inj hq
        refine Begun.proper_mk _ (by decide) (by decide) ?_
        rw [hn, Nat.pow_succ'] at hnext
        rw [show (0x80 : UInt8).toNat % 64 = 0 from rfl, Nat.add_zero, Nat.mul_assoc]
        exact hnext
    · exact proper_first _ b

theorem proper_foldl {s : Scan} (hs : s.Proper) (o : Octets) : (o.foldl step s).Proper := by
  induction o generalizing s with
  | nil => exact hs
  | cons b o ih => exact ih (proper_step hs b)

/-! ## What has been found stays found -/

/-- The same with pieces found before all others. -/
def behind (s : Scan) (earlier : List Piece) : Scan := ⟨s.begun, s.found ++ earlier⟩

theorem first_append (found earlier : List Piece) (b : UInt8) :
    first (found ++ earlier) b = (first found b).behind earlier := by
  unfold first
  split
  · rfl
  · split <;> rfl

theorem step_behind (s : Scan) (earlier : List Piece) (b : UInt8) :
    (s.behind earlier).step b = (s.step b).behind earlier := by
  obtain ⟨begun, found⟩ := s
  cases begun with
  | none => exact first_append found earlier b
  | some p =>
    simp only [step, behind]
    split
    · split <;> rfl
    · exact first_append (.malformed p.seen :: found) earlier b

theorem foldl_behind (s : Scan) (earlier : List Piece) (o : Octets) :
    o.foldl step (s.behind earlier) = (o.foldl step s).behind earlier := by
  induction o generalizing s with
  | nil => rfl
  | cons b o ih => rw [List.foldl_cons, List.foldl_cons, step_behind, ih]

theorem finish_behind (s : Scan) (earlier : List Piece) :
    (s.behind earlier).finish = earlier.reverse ++ s.finish := by
  obtain ⟨begun, found⟩ := s
  cases begun <;> simp [finish, behind]

/-! ## ASCII octets -/

/-- An ASCII octet ends whatever has begun and is a character. -/
theorem step_ascii {s : Scan} (hs : s.Proper) {b : UInt8} (hb : b.toNat < 128) :
    s.step b = ⟨none, .char (Char.ofNat b.toNat) :: s.finish.reverse⟩ := by
  have hlt : b < 0x80 := UInt8.lt_iff_toNat_lt.2 hb
  obtain ⟨begun, found⟩ := s
  cases begun with
  | none => simp [step, first, hlt, finish]
  | some p =>
    have hl := (hs p rfl).low_ge
    have hout : ¬(p.low ≤ b ∧ b ≤ p.high) := by
      rintro ⟨h, -⟩
      have := UInt8.le_iff_toNat_le.1 h
      omega
    simp [step, hout, first, hlt, finish]

end Scan

/-- What is before an ASCII octet and what is behind it are read apart. -/
theorem scan_append_ascii {b : UInt8} (hb : b.toNat < 128) (a rest : Octets) :
    scan (a ++ b :: rest) = scan a ++ .char (Char.ofNat b.toNat) :: scan rest := by
  have hs : (a.foldl Scan.step .start).Proper := Scan.proper_foldl Scan.proper_start a
  let found := Piece.char (Char.ofNat b.toNat) :: (scan a).reverse
  have hmid : (a.foldl Scan.step .start).step b = Scan.start.behind found := Scan.step_ascii hs hb
  calc scan (a ++ b :: rest)
      = (rest.foldl Scan.step (Scan.start.behind found)).finish := by
        rw [scan, List.foldl_append, List.foldl_cons, hmid]
    _ = found.reverse ++ scan rest := by rw [Scan.foldl_behind, Scan.finish_behind]; rfl
    _ = scan a ++ .char (Char.ofNat b.toNat) :: scan rest := by simp [found]

theorem decodeLossy_append_newline (a rest : Octets) :
    decodeLossy (a ++ Octets.newline :: rest) = decodeLossy a ++ '\n' :: decodeLossy rest := by
  have h := scan_append_ascii (b := Octets.newline) (by decide) a rest
  simp only [decodeLossy, h, List.map_append, List.map_cons]
  rfl

/-! ## No ASCII character is invented -/

/-- A piece that shows an octet of `o`, or no ASCII character at all but perhaps the first. -/
def Piece.Shows (o : Octets) (p : Piece) : Prop :=
  (∃ b ∈ o, b.toNat < 128 ∧ p = .char (Char.ofNat b.toNat)) ∨
    p.lossy.toNat = 0 ∨ 128 ≤ p.lossy.toNat

theorem Piece.shows_malformed (o seen : Octets) : (Piece.malformed seen).Shows o :=
  .inr (.inr (show 128 ≤ replacement.toNat by decide))

/-- A large number that is no character becomes the first one. -/
theorem Piece.shows_char {n : Nat} (hn : 128 ≤ n) (o : Octets) :
    (Piece.char (Char.ofNat n)).Shows o := by
  refine .inr ?_
  by_cases hv : n.isValidChar
  · refine .inr ?_
    show 128 ≤ (Char.ofNat n).toNat
    rw [Char.toNat_ofNat, if_pos hv]
    exact hn
  · refine .inl ?_
    show (Char.ofNat n).toNat = 0
    rw [Char.toNat_ofNat, if_neg hv]

namespace Scan

theorem shows_first {o : Octets} {found : List Piece} (h : ∀ p ∈ found, p.Shows o) {b : UInt8}
    (hb : b ∈ o) : ∀ p ∈ (first found b).found, p.Shows o := by
  unfold first
  split
  · next hlt =>
    have hascii : b.toNat < 128 := UInt8.lt_iff_toNat_lt.1 hlt
    exact List.forall_mem_cons.2 ⟨.inl ⟨b, hb, hascii, rfl⟩, h⟩
  · split
    · exact h
    · exact List.forall_mem_cons.2 ⟨Piece.shows_malformed o _, h⟩

theorem shows_step {o : Octets} {s : Scan} (hs : s.Proper) (h : ∀ p ∈ s.found, p.Shows o)
    {b : UInt8} (hb : b ∈ o) : ∀ p ∈ (s.step b).found, p.Shows o := by
  unfold step
  split
  · exact shows_first h hb
  · next p hbegun =>
    split
    · next hin =>
      have hnext := (hs p hbegun).large_next hin
      dsimp only
      split
      · next hn =>
        rw [hn, Nat.pow_zero, Nat.mul_one] at hnext
        exact List.forall_mem_cons.2 ⟨Piece.shows_char hnext o, h⟩
      · exact h
    · exact shows_first (List.forall_mem_cons.2 ⟨Piece.shows_malformed o _, h⟩) hb

theorem shows_foldl {o : Octets} (read : Octets) (hsub : ∀ b ∈ read, b ∈ o) {s : Scan}
    (hs : s.Proper) (h : ∀ p ∈ s.found, p.Shows o) : ∀ p ∈ (read.foldl step s).found, p.Shows o := by
  induction read generalizing s with
  | nil => exact h
  | cons b read ih =>
    have hb := List.forall_mem_cons.1 hsub
    exact ih hb.2 (proper_step hs b) (shows_step hs h hb.1)

end Scan

theorem shows_of_mem_scan {o : Octets} {p : Piece} (h : p ∈ scan o) : p.Shows o := by
  have hfound := Scan.shows_foldl (o := o) o (fun _ hb => hb) Scan.proper_start nofun
  unfold scan Scan.finish at h
  split at h
  · exact hfound p (List.mem_reverse.1 h)
  · rcases List.mem_cons.1 (List.mem_reverse.1 h) with rfl | h
    · exact Piece.shows_malformed o _
    · exact hfound p h

/-- A newline in the text is a newline in the octets. -/
theorem newline_mem_of_mem_decodeLossy {o : Octets} (h : '\n' ∈ decodeLossy o) :
    Octets.newline ∈ o := by
  obtain ⟨p, hp, hlossy⟩ := List.mem_map.1 h
  rcases shows_of_mem_scan hp with ⟨b, hb, hascii, rfl⟩ | hzero | hlarge
  · have hn : b.toNat = 10 := by
      have hv : b.toNat.isValidChar := .inl (by omega)
      have hchar : (Char.ofNat b.toNat).toNat = 10 := congrArg Char.toNat hlossy
      rwa [Char.toNat_ofNat, if_pos hv] at hchar
    have hb10 : b = Octets.newline := UInt8.toNat_inj.1 hn
    exact hb10 ▸ hb
  · rw [hlossy] at hzero
    cases hzero
  · rw [hlossy] at hlarge
    exact absurd hlarge (by decide)

/-! ## Lengths -/

namespace Scan

/-- How many pieces there are if nothing more is read. -/
def count (s : Scan) : Nat := s.finish.length

theorem count_first_le (found : List Piece) (b : UInt8) :
    (first found b).count ≤ found.length + 1 := by
  unfold first
  split
  · simp [count, finish]
  · split <;> simp [count, finish]

theorem count_step_le (s : Scan) (b : UInt8) : (s.step b).count ≤ s.count + 1 := by
  obtain ⟨begun, found⟩ := s
  cases begun with
  | none => exact Nat.le_trans (count_first_le found b) (by simp [count, finish])
  | some p =>
    simp only [step]
    split
    · split <;> simp [count, finish]
    · exact Nat.le_trans (count_first_le _ b) (by simp [count, finish])

theorem count_first_pos (found : List Piece) (b : UInt8) : 0 < (first found b).count := by
  unfold first
  split
  · simp [count, finish]
  · split <;> simp [count, finish]

theorem count_step_pos (s : Scan) (b : UInt8) : 0 < (s.step b).count := by
  unfold step
  split
  · exact count_first_pos _ b
  · split
    · dsimp only
      split <;> simp [count, finish]
    · exact count_first_pos _ b

theorem count_foldl_le (s : Scan) (o : Octets) : (o.foldl step s).count ≤ s.count + o.length := by
  induction o generalizing s with
  | nil => exact Nat.le_refl _
  | cons b o ih =>
    have h1 := ih (s.step b)
    have h2 := count_step_le s b
    rw [List.foldl_cons, List.length_cons]
    omega

end Scan

/-- No piece is without an octet. -/
theorem length_decodeLossy_le (o : Octets) : (decodeLossy o).length ≤ o.length := by
  have h := Scan.count_foldl_le .start o
  rw [decodeLossy, List.length_map]
  simpa [scan, Scan.count, Scan.start, Scan.finish] using h

/-- Only nothing reads as nothing. -/
theorem decodeLossy_eq_nil_iff {o : Octets} : decodeLossy o = [] ↔ o = [] := by
  refine ⟨fun h => ?_, fun h => h ▸ rfl⟩
  rcases List.eq_nil_or_concat o with hnil | ⟨init, b, rfl⟩
  · exact hnil
  · have hpos := Scan.count_step_pos (init.foldl Scan.step .start) b
    rw [List.concat_eq_append] at h
    have hlen : (decodeLossy (init ++ [b])).length = 0 := by rw [h]; rfl
    rw [decodeLossy, List.length_map, scan, List.foldl_append] at hlen
    exact absurd hlen (Nat.ne_of_gt hpos)

end Utf8
end BootSequence
