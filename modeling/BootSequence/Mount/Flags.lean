import BootSequence.Text.Blank
import BootSequence.Text.Place

/-!
The flags of a mount: one machine word of 32 bits, some of them with names. The options field of a
mount table is read as a number, the way C reads one: what is no digit ends it. It is read octet by
octet, and no text makes that fail.
-/

namespace BootSequence
namespace Mount

structure Flags where
  bits : UInt32
  deriving DecidableEq, Repr

namespace Flags

/-- Old kernels look for this number in the upper half; new ones take no notice of it. -/
def magic : Flags := ⟨0xC0ED0000⟩

def declared : List (String × UInt32) := [
  ("MS_RDONLY", 0x1),
  ("MS_NOSUID", 0x2),
  ("MS_NODEV", 0x4),
  ("MS_NOEXEC", 0x8),
  ("MS_SYNCHRONOUS", 0x10),
  ("MS_REMOUNT", 0x20),
  ("MS_MANDLOCK", 0x40),
  ("MS_DIRSYNC", 0x80),
  ("MS_NOSYMFOLLOW", 0x100),
  ("MS_NOATIME", 0x200),
  ("MS_NODIRATIME", 0x400),
  ("MS_BIND", 0x800),
  ("MS_MOVE", 0x1000),
  ("MS_REC", 0x2000),
  ("MS_SILENT", 0x4000),
  ("MS_RELATIME", 0x200000),
  ("MS_STRICTATIME", 0x1000000),
  ("MS_LAZYTIME", 0x2000000),
  ("MS_MGC_VAL", magic.bits)]

/-- Walk the named flags with the bits that no name has accounted for yet. A flag is named if it is
wholly set and accounts for something. -/
def nameFrom (bits : UInt32) : UInt32 → List (String × UInt32) → List String × UInt32
  | rest, [] => ([], rest)
  | rest, (name, flag) :: more =>
    if rest = 0 then ([], rest)
    else if bits &&& flag = flag ∧ rest &&& flag ≠ 0 then
      let (names, left) := nameFrom bits (rest &&& ~~~flag) more
      (name :: names, left)
    else nameFrom bits rest more

def names (f : Flags) : List String := (nameFrom f.bits f.bits declared).1

def unnamed (f : Flags) : UInt32 := (nameFrom f.bits f.bits declared).2

def hex (n : UInt32) : String := "0x" ++ String.ofList (Nat.toDigits 16 n.toNat)

def describe (f : Flags) : String :=
  let shown := f.names ++ if f.unnamed = 0 ∧ f.bits ≠ 0 then [] else [hex f.unnamed]
  "MountFlags(" ++ " | ".intercalate shown ++ ")"

/-- Every bit belongs to some named flag. -/
def isKnown (f : Flags) : Bool :=
  f.bits &&& ~~~(declared.foldl (fun union flag => union ||| flag.2) 0) = 0

def plus : UInt8 := 43
def minus : UInt8 := 45
def zero : UInt8 := 48
def nine : UInt8 := 57

def isDigit (b : UInt8) : Bool := zero ≤ b && b ≤ nine

/-- One digit more, modulo 2^32. An octet below the first digit has no value. -/
def addDigit? (n : UInt32) (b : UInt8) : Option UInt32 :=
  if zero ≤ b then some (n * 10 + (b - zero).toUInt32) else none

def leadingNumber? (octets : Octets) : Option UInt32 :=
  (octets.takeWhile isDigit).foldlM addDigit? 0

/-- White space, one sign, and a number; all else counts for nothing. The sign is known by its octet,
and the text is cut behind it. -/
def ofOptions? (options : List Char) : Option Flags := do
  let options := Blank.trimStart options
  let sign := (Utf8.encode options).head?
  let digits ←
    if sign = some minus ∨ sign = some plus then (Utf8.cut? 1 options).map Prod.snd
    else some options
  let number ← leadingNumber? (Utf8.encode digits)
  return ⟨if sign = some minus then 0 - number else number⟩

theorem isSome_leadingNumber? (octets : Octets) : (leadingNumber? octets).isSome := by
  have hdigits : ∀ (octets : Octets) (n : UInt32), (∀ b ∈ octets, isDigit b = true) →
      (octets.foldlM addDigit? n).isSome := by
    intro octets
    induction octets with
    | nil => exact fun _ _ => rfl
    | cons b octets ih =>
      intro n h
      have hb : zero ≤ b := by
        have := h b List.mem_cons_self
        simp only [isDigit, Bool.and_eq_true, decide_eq_true_eq] at this
        exact this.1
      rw [List.foldlM_cons, addDigit?, if_pos hb]
      exact ih _ fun d hd => h d (List.mem_cons_of_mem _ hd)
  exact hdigits _ 0 fun b hb => (List.all_eq_true.1 (List.all_takeWhile)) b hb

/-- A sign is a character of its own, so that the text can be cut behind it. -/
theorem cut?_sign {options : List Char} {b : UInt8} (h : (Utf8.encode options).head? = some b)
    (hb : b = minus ∨ b = plus) :
    ∃ rest, options = Char.ofNat b.toNat :: rest ∧
      Utf8.cut? 1 options = some ([Char.ofNat b.toNat], rest) := by
  have hsmall : b.toNat < 128 := by rcases hb with rfl | rfl <;> decide
  obtain ⟨rest, rfl⟩ := Utf8.exists_cons_of_head?_encode h hsmall
  refine ⟨rest, rfl, Utf8.cut?_eq_some_iff.2 ⟨rfl, ?_⟩⟩
  rcases hb with rfl | rfl <;> rfl

theorem isSome_ofOptions? (options : List Char) : (ofOptions? options).isSome := by
  have hread : ∀ digits : List Char, ∃ number, leadingNumber? (Utf8.encode digits) = some number :=
    fun digits => Option.isSome_iff_exists.1 (isSome_leadingNumber? _)
  simp only [ofOptions?]
  split
  · next h =>
    obtain ⟨b, hb, hsign⟩ : ∃ b, (Utf8.encode (Blank.trimStart options)).head? = some b ∧
        (b = minus ∨ b = plus) := by
      rcases h with h | h
      · exact ⟨minus, h, .inl rfl⟩
      · exact ⟨plus, h, .inr rfl⟩
    obtain ⟨rest, -, hcut⟩ := cut?_sign hb hsign
    obtain ⟨number, hnumber⟩ := hread rest
    rw [hcut]
    simp [hnumber]
  · obtain ⟨number, hnumber⟩ := hread (Blank.trimStart options)
    simp [hnumber]

def ofOptions (options : List Char) : Flags := (ofOptions? options).get (isSome_ofOptions? options)

end Flags
end Mount
end BootSequence
