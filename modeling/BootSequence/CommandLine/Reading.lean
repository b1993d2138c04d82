import BootSequence.CommandLine.Grammar

/-!
Reading a command line, one argument at a time. A value that stands in an argument of its own is
taken at once and looked at only when the next thing is read; so an unknown option behind a bad
value is what gets reported, while any known one brings the bad value to light.
-/

namespace BootSequence
namespace CommandLine

/-- What has been taken and not looked at: an option that still waits for its value or has got it,
or words. -/
inductive Pending where
  | nothing
  | option (s : Switch) (value : Option Octets)
  | words (ws : List Octets)
  deriving DecidableEq, Repr

/-- What has been read so far; behind two dashes there are only words. -/
structure Reading where
  occurrences : List (String × Octets)
  words : List Octets
  pending : Pending
  wordsOnly : Bool
  deriving DecidableEq, Repr

namespace Reading

def start : Reading := ⟨[], [], .nothing, false⟩

def refuse {α : Type} (kind : ErrorKind) : Except Error α := .error { kind := kind }

def blame {α : Type} (kind : ErrorKind) (argument : String) : Except Error α :=
  .error ⟨kind, some argument⟩

/-- Note an occurrence of an option. Only a repeated option may occur twice, which is checked before
its value is. -/
def note (r : Reading) (s : Switch) (value : Octets) : Except Error Reading :=
  let twice := r.occurrences.any (·.1 = s.name)
  let noted := { r with occurrences := r.occurrences ++ [(s.name, value)] }
  match s.role with
  | .request kind => refuse kind
  | .flag => if twice then refuse .conflict else .ok noted
  | .single kind =>
    if twice then refuse .conflict
    else
      match kind.fault? value with
      | some fault => refuse fault
      | none => .ok noted
  | .repeated kind =>
    match kind.fault? value with
    | some fault => refuse fault
    | none => .ok noted

def settle (r : Reading) : Except Error Reading :=
  let settled := { r with pending := .nothing }
  match r.pending with
  | .nothing => .ok r
  | .option _ none => refuse .invalidValue
  | .option s (some value) => settled.note s value
  | .words ws =>
    if ws.all fun w => w.text?.isSome then .ok { settled with words := r.words ++ ws }
    else refuse .malformedText

def occur (r : Reading) (s : Switch) (value : Octets) : Except Error Reading := do
  (← r.settle).note s value

def takesValue (s : Switch) : Bool :=
  match s.role with
  | .single _ | .repeated _ => true
  | .flag | .request _ => false

def option (r : Reading) (s : Switch) (value : Option Octets) : Except Error Reading :=
  match takesValue s, value with
  | true, none => r.settle.map fun settled => { settled with pending := .option s none }
  | true, some value => r.occur s value
  | false, none => r.occur s []
  | false, some _ => refuse .unneededValue

def dash : UInt8 := 45
def equals : UInt8 := 61

def long (g : Grammar) (r : Reading) (argument : Octets) : Except Error Reading :=
  let name : Octets := argument.takeWhile (· ≠ equals)
  let value := if argument.contains equals then some (argument.drop (name.length + 1)) else none
  match name.text?.bind g.ofLong? with
  | some s => r.option s value
  | none => blame .unknownArgument ("--" ++ name.lossy)

/-- An argument behind one dash: letters, up to one that takes a value, which is all the rest; an
equals sign before the value goes. -/
def short (g : Grammar) (r : Reading) : List Utf8.Piece → Except Error Reading
  | [] => .ok r
  | .malformed o :: rest =>
    blame .unknownArgument ("-" ++ Octets.lossy (o ++ rest.flatMap Utf8.Piece.octets))
  | .char c :: rest =>
    match g.ofShort? c with
    | none => blame .unknownArgument ("-" ++ String.singleton c)
    | some s =>
      if takesValue s then
        match rest.flatMap Utf8.Piece.octets with
        | [] => r.option s none
        | b :: value => r.option s (some (if b = equals then value else b :: value))
      else do short g (← r.option s none) rest

def word (g : Grammar) (r : Reading) (argument : Octets) : Except Error Reading :=
  if !g.words then blame .unknownArgument argument.lossy
  else
    match r.pending with
    | .words ws => .ok { r with pending := .words (ws ++ [argument]) }
    | _ => r.settle.map fun settled => { settled with pending := .words [argument] }

/-- Read one argument. An option that waits takes what looks like no option for its value. -/
def step (g : Grammar) (r : Reading) (argument : Octets) : Except Error Reading :=
  if r.wordsOnly then r.word g argument
  else
    match argument with
    | 45 :: 45 :: [] => .ok { r with wordsOnly := true }
    | 45 :: 45 :: rest => r.long g rest
    | 45 :: b :: rest => r.short g (Utf8.scan (b :: rest))
    | _ =>
      match r.pending with
      | .option s none => .ok { r with pending := .option s (some argument) }
      | _ => r.word g argument

/-- Look at what is pending at the end, and then at options that exclude each other. -/
def finish (g : Grammar) (r : Reading) : Except Error Matches := do
  let last ← r.settle
  let found : Matches := ⟨last.occurrences, last.words⟩
  if g.conflicts.any fun c => found.has c.1 && found.has c.2 then refuse .conflict
  else return found

end Reading

def parse (g : Grammar) (args : List Octets) : Except Error Matches := do
  (← args.foldlM (Reading.step g) .start).finish g

end CommandLine
end BootSequence
