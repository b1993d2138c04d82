import BootSequence.Text.Pieces
import BootSequence.Text.Utf8

/-!
Paths: octets, of which only the slash means something. A path that ends in a slash must name a
directory, which need not be one that may be searched; a last component of one dot asks for both.
-/

namespace BootSequence

abbrev Name := Octets

structure Path where
  octets : Octets
  deriving DecidableEq, Repr

namespace Path

def ofString (s : String) : Path := ⟨.ofString s⟩

/-- For messages: what is no text shows as replacement characters. -/
def display (p : Path) : String := p.octets.lossy

def text? (p : Path) : Option String := p.octets.text?

def isAbsolute (p : Path) : Bool := p.octets.head? = some Octets.slash

def endsInSlash (p : Path) : Bool := p.octets.getLast? = some Octets.slash

def containsSlash (p : Path) : Bool := p.octets.contains Octets.slash

def dot : Name := [46]

def dotdot : Name := [46, 46]

def components (p : Path) : List Name := words (· = Octets.slash) p.octets

/-- The names that are walked: a slash at the end is an empty one, which asks for a directory. -/
def names (p : Path) : List Name :=
  if p.endsInSlash && !p.components.isEmpty then p.components ++ [[]] else p.components

/-- Go on from `dir` by `p`, unless `p` starts at the root. -/
def append (dir p : Path) : Path :=
  if p.isAbsolute then p
  else if dir.octets.isEmpty || dir.endsInSlash then ⟨dir.octets ++ p.octets⟩
  else ⟨dir.octets ++ Octets.slash :: p.octets⟩

instance : Append Path := ⟨append⟩

/-- The path without its last component; a path of no component has none. -/
def parent? (p : Path) : Option Path :=
  match (p.components.filter (· ≠ dot)).dropLast, p.components.isEmpty with
  | _, true => none
  | rest, false =>
    let joined := Octets.join Octets.slash rest
    some ⟨if p.isAbsolute then Octets.slash :: joined else joined⟩

end Path
end BootSequence
