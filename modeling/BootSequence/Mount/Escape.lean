import BootSequence.Text.Place

/-!
Fields of a mount table cannot hold blanks, so four characters are written as a backslash and three
octal digits: space, tab, newline and the backslash itself. A field is read from one backslash to the
next, and is cut at places that are counted in octets; no cut falls within a character.
-/

namespace BootSequence
namespace Mount
namespace Escape

def backslash : Char := '\x5C'

def named? : List Char → Option Char
  | '0' :: '4' :: '0' :: _ => some ' '
  | '0' :: '1' :: '1' :: _ => some '\t'
  | '0' :: '1' :: '2' :: _ => some '\n'
  | '1' :: '3' :: '4' :: _ => some backslash
  | _ => none

def decided? (tail : List Char) : Option Char := (Utf8.cut? 3 tail).bind (named? ·.1)

/-- Read what is left of a field. A backslash that begins none of the four stands for itself, and
what is behind it is read on. A cut within a character would end the reading with no answer. -/
def scan? (rest : List Char) : Option (List Char) :=
  match Utf8.place? backslash rest with
  | none => some rest
  | some place =>
    match Utf8.cut? place rest, _hcut : Utf8.cut? (place + 1) rest with
    | some (before, _), some (_, tail) =>
      match decided? tail with
      | some c =>
        match _htail : Utf8.cut? 3 tail with
        | some (_, behind) => (scan? behind).map fun read => before ++ c :: read
        | none => none
      | none => (scan? tail).map fun read => before ++ backslash :: read
    | _, _ => none
termination_by rest.length
decreasing_by
  · have := Utf8.length_of_cut? _hcut (Nat.succ_pos place)
    have := Utf8.length_of_cut? _htail (Nat.succ_pos 2)
    omega
  · exact Utf8.length_of_cut? _hcut (Nat.succ_pos place)

/-- A field without a backslash need not be read. -/
def decode? (field : List Char) : Option (List Char) :=
  if field.contains backslash then scan? field else some field

/-- A backslash is one octet long, so that a text can be cut on both sides of it. -/
theorem cuts (before tail : List Char) :
    let place := (Utf8.encode before).length
    let rest := before ++ backslash :: tail
    Utf8.cut? place rest = some (before, backslash :: tail) ∧
      Utf8.cut? (place + 1) rest = some (before ++ [backslash], tail) := by
  refine ⟨Utf8.cut?_eq_some_iff.2 ⟨rfl, rfl⟩, Utf8.cut?_eq_some_iff.2 ⟨by simp, ?_⟩⟩
  rw [Utf8.length_encode_append]
  rfl

theorem isSome_scan? (rest : List Char) : (scan? rest).isSome := by
  fun_induction scan? rest with
  | case1 rest hplace => rfl
  | case2 rest place hplace before _ _ tail hbefore htail c hc _ behind hbehind ih =>
    simpa using ih
  | case3 rest place hplace before _ _ tail hbefore htail c hc hnone =>
    rw [decided?, hnone] at hc
    cases hc
  | case4 rest place hplace before _ _ tail hbefore htail hnone ih => simpa using ih
  | case5 rest place hplace hcut =>
    obtain ⟨before, tail, rfl, rfl⟩ := Utf8.exists_of_place?_eq_some hplace
    exact (hcut _ _ _ _ (cuts before tail).1 (cuts before tail).2).elim

theorem isSome_decode? (field : List Char) : (decode? field).isSome := by
  rw [decode?]
  split
  · exact isSome_scan? field
  · rfl

def decode (field : List Char) : List Char := (decode? field).get (isSome_decode? field)

def encodeChar (c : Char) : List Char :=
  if c = ' ' then ['\x5C', '0', '4', '0']
  else if c = '\t' then ['\x5C', '0', '1', '1']
  else if c = '\n' then ['\x5C', '0', '1', '2']
  else if c = '\x5C' then ['\x5C', '1', '3', '4']
  else [c]

def encode (text : List Char) : List Char := text.flatMap encodeChar

end Escape
end Mount
end BootSequence
