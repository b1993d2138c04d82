import BootSequence.Text.Utf8

/-!
Places in a text, which are counted in octets. A text can be cut where a character begins and at its
end, and nowhere else: to cut it within a character fails.
-/

namespace BootSequence
namespace Utf8

def cut? : Nat → List Char → Option (List Char × List Char)
  | 0, cs => some ([], cs)
  | _ + 1, [] => none
  | n + 1, c :: cs =>
    if c.utf8Size ≤ n + 1 then
      (cut? (n + 1 - c.utf8Size) cs).map fun (before, behind) => (c :: before, behind)
    else none

def place? (c : Char) : List Char → Option Nat
  | [] => none
  | d :: cs => if d = c then some 0 else (place? c cs).map (d.utf8Size + ·)

theorem length_encode_cons (c : Char) (cs : List Char) :
    (encode (c :: cs)).length = c.utf8Size + (encode cs).length := by
  rw [encode, List.flatMap_cons, List.length_append, String.length_utf8EncodeChar]
  rfl

theorem length_encode_append (cs ds : List Char) :
    (encode (cs ++ ds)).length = (encode cs).length + (encode ds).length := by
  rw [encode, List.flatMap_append, List.length_append]
  rfl

/-- The place of a cut is the length of what stands before it. -/
theorem cut?_eq_some_iff {n : Nat} {cs before behind : List Char} :
    cut? n cs = some (before, behind) ↔ cs = before ++ behind ∧ (encode before).length = n := by
  induction cs generalizing n before with
  | nil =>
    cases n with
    | zero => cases before <;> simp [cut?, encode, eq_comm]
    | succ n => cases before <;> simp [cut?, encode]
  | cons c cs ih =>
    have hpos := c.utf8Size_pos
    cases n with
    | zero =>
      cases before with
      | nil => simp [cut?, encode, eq_comm]
      | cons d before =>
        have hd := d.utf8Size_pos
        rw [length_encode_cons]
        simp only [cut?, Option.some.injEq, Prod.mk.injEq, reduceCtorEq, false_and, false_iff,
          not_and]
        intro _
        omega
    | succ n =>
      cases before with
      | nil => simp [cut?, encode, Option.map_eq_some_iff]
      | cons d before =>
        rw [length_encode_cons, List.cons_append, List.cons.injEq]
        constructor
        · intro h
          rw [cut?] at h
          split at h
          · next hle =>
            obtain ⟨⟨front, rear⟩, hcut, heq⟩ := Option.map_eq_some_iff.1 h
            cases heq
            obtain ⟨hcs, hlength⟩ := ih.1 hcut
            exact ⟨⟨rfl, hcs⟩, by omega⟩
          · cases h
        · rintro ⟨⟨rfl, hcs⟩, hlength⟩
          rw [cut?, if_pos (by omega), ih.2 ⟨hcs, by omega⟩]
          rfl

theorem length_of_cut? {n : Nat} {cs before behind : List Char}
    (h : cut? n cs = some (before, behind)) (hn : 0 < n) : behind.length < cs.length := by
  obtain ⟨rfl, hlength⟩ := cut?_eq_some_iff.1 h
  have hne : before ≠ [] := by
    rintro rfl
    exact absurd hlength (Nat.ne_of_lt hn)
  have := List.length_pos_iff.2 hne
  rw [List.length_append]
  omega

theorem place?_eq_none_iff {c : Char} {cs : List Char} : place? c cs = none ↔ c ∉ cs := by
  induction cs with
  | nil => simp [place?]
  | cons d cs ih =>
    rw [place?]
    by_cases h : d = c
    · simp [h]
    · simp [h, ih, Ne.symm h]

theorem place?_append_cons {c : Char} {before : List Char} (h : c ∉ before) (behind : List Char) :
    place? c (before ++ c :: behind) = some (encode before).length := by
  induction before with
  | nil => exact if_pos rfl
  | cons d before ih =>
    rw [List.mem_cons, not_or] at h
    rw [List.cons_append, place?, if_neg (Ne.symm h.1), ih h.2, length_encode_cons]
    rfl

theorem exists_of_place?_eq_some {c : Char} {cs : List Char} {n : Nat} (h : place? c cs = some n) :
    ∃ before behind, cs = before ++ c :: behind ∧ (encode before).length = n := by
  by_cases hmem : c ∈ cs
  · obtain ⟨before, behind, rfl, hnot⟩ := List.eq_append_cons_of_mem hmem
    exact ⟨before, behind, rfl, Option.some.inj ((place?_append_cons hnot behind).symm.trans h)⟩
  · rw [place?_eq_none_iff.2 hmem] at h
    cases h

/-! ## First octets -/

theorem toNat_eq_of_head?_encodeChar {c : Char} {b : UInt8}
    (h : (String.utf8EncodeChar c).head? = some b) (hb : b.toNat < 128) : c.toNat = b.toNat := by
  have hval : c.val.toNat = c.toNat := rfl
  have hsmall : ∀ n, some (UInt8.ofNat n) = some b → n < 256 → n < 128 ∧ n = b.toNat := by
    intro n hn hlt
    obtain rfl := Option.some.inj hn
    rw [UInt8.toNat_ofNat', Nat.mod_eq_of_lt hlt] at hb
    rw [UInt8.toNat_ofNat', Nat.mod_eq_of_lt hlt]
    exact ⟨hb, rfl⟩
  simp only [String.utf8EncodeChar, hval] at h
  split at h
  · exact (hsmall _ h (by omega)).2
  -- Characters of more octets than one begin with a large one.
  split at h
  · exact absurd (hsmall _ h (by omega)).1 (by omega)
  split at h
  · exact absurd (hsmall _ h (by omega)).1 (by omega)
  · exact absurd (hsmall _ h (by omega)).1 (by omega)

theorem exists_cons_of_head?_encode {cs : List Char} {b : UInt8}
    (h : (encode cs).head? = some b) (hb : b.toNat < 128) :
    ∃ rest, cs = Char.ofNat b.toNat :: rest := by
  cases cs with
  | nil => cases h
  | cons c rest =>
    obtain ⟨o, os, hoctets⟩ := List.exists_cons_of_length_pos
      (String.length_utf8EncodeChar c ▸ c.utf8Size_pos)
    rw [encode, List.flatMap_cons, hoctets] at h
    have hc := toNat_eq_of_head?_encodeChar (by rw [hoctets]; exact h) hb
    exact ⟨rest, by rw [← hc, Char.ofNat_toNat]⟩

end Utf8
end BootSequence
