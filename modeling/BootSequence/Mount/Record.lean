import BootSequence.Mount.Entry
import BootSequence.Mount.Escape

/-!
One line of a mount table: source, target, type and options, and further fields that count for
nothing, with white space between them. The first three are escaped; the fourth is a number.
-/

namespace BootSequence
namespace Mount

inductive Record where
  | blank
  | entry (e : Entry)
  | malformed
  deriving DecidableEq, Repr

namespace Record

def commentMark : Char := '#'

/-- The options of a line that names none. -/
def noOptions : List Char := "defaults".toList

def field (cs : List Char) : String := String.ofList (Escape.decode cs)

/-- Empty lines and comments say nothing; any other line needs three fields. -/
def parse (line : List Char) : Record :=
  let line := Blank.trim line
  if line.isEmpty || line.head? = some commentMark then .blank
  else
    match Blank.fields line with
    | source :: target :: fsType :: rest =>
      .entry {
        source := field source
        target := .ofString (field target)
        fsType := field fsType
        flags := .ofOptions (rest.headD noOptions)
        data := none }
    | _ => .malformed

end Record
end Mount
end BootSequence
