import BootSequence.Fault
import BootSequence.Tree.Walk

/-!
The tree as a process sees it: with a working directory, and with a mask of the mode bits that new
nodes do not get. The process is nobody special. It owns its working directory and what lies below,
where the bits for owners count; elsewhere it has what everybody has.
-/

namespace BootSequence

structure Files where
  tree : Tree
  workdir : Location
  mask : Nat
  deriving DecidableEq, Repr

namespace Files

def checkPath (p : Path) : Except Fault Unit :=
  if p.octets.contains Octets.nul then .error .nulInPath
  else if p.octets.isEmpty then .error (.numbered .noEntry)
  else if pathMax ≤ p.octets.length then .error (.numbered .nameTooLong)
  else .ok ()

def numbered {α : Type} (r : Except Errno α) : Except Fault α := r.mapError .numbered

def origin (f : Files) (p : Path) : Location := Tree.origin f.workdir p

/-- What lies in the working directory belongs to the process. -/
def owns (f : Files) (loc : Location) : Bool := f.workdir.isPrefixOf loc

def allows (f : Files) (right : Right) (loc : Location) : Bool :=
  (f.tree.node? loc).any (·.allows (f.owns loc) right)

/-- The location that a path names, links followed. -/
def locate (f : Files) (p : Path) : Except Fault Location := do
  checkPath p
  let walked ← numbered (f.tree.walk (f.allows .pass) true Tree.maxLinks (f.origin p) p.names)
  return walked.loc

def isDirectory (f : Files) (p : Path) : Bool :=
  match f.locate p with
  | .ok loc => f.tree.isDirectory loc
  | .error _ => false

def maskMode (f : Files) (mode : Nat) : Nat := mode &&& (0o7777 ^^^ (f.mask &&& 0o7777))

/-- The bits of a new directory's mode. It gets no set-ID bits of its own; if the directory that it
is made in hands its group on, then so does the new one. -/
def directoryMode (f : Files) (dir : Location) (mode : Nat) : Nat :=
  f.maskMode (mode &&& 0o1777) ||| ((f.tree.node? dir).elim 0 Node.mode &&& 0o2000)

/-- The directory that the kernel fills: the names in it are all that there can be. -/
def kernelDirectory : Location := (Path.ofString "/proc").components

def admitName (f : Files) (dir : Location) : Except Errno Unit :=
  if f.allows .write dir then .ok ()
  else if dir = kernelDirectory ∧ f.owns dir = false then .error .noEntry
  else .error .permissionDenied

def placeOf (f : Files) (p : Path) : Except Fault Tree.Place := do
  checkPath p
  let place ← numbered
    (f.tree.walkToParent (f.allows .pass) Tree.maxLinks (f.origin p) p.components)
  if nameMax < place.name.length then .error (.numbered .nameTooLong) else return place

/-- Put something new at the end of a path, where nothing may be yet. The directory that it is made
in may have a say in what it is. -/
def create (f : Files) (p : Path) (node : Location → Node) : Except Fault Files := do
  let place ← f.placeOf p
  if (f.tree.node? place.loc).isSome then .error (.numbered .fileExists)
  else
    numbered (f.admitName place.dir)
    return { f with tree := f.tree.put place.loc (node place.dir) }

/-- Make one directory; the ones above it must be there. -/
def makeDirectory (f : Files) (p : Path) (mode : Nat) : Except Fault Files :=
  f.create p fun dir => .directory (f.directoryMode dir mode)

/-- The same, counting a directory that is there already as made. -/
def requireDirectory (f : Files) (p : Path) (mode : Nat) : Except Fault Unit × Files :=
  match f.makeDirectory p mode with
  | .ok made => (.ok (), made)
  | .error fault => (if f.isDirectory p then .ok () else .error fault, f)

/-- Make a directory and those above it, at most `depth` of them. What has been made stays, whether
or not the rest can be made. -/
def makeDirectoriesFrom : Nat → Files → Path → Nat → Except Fault Unit × Files
  | 0, f, p, mode => f.requireDirectory p mode
  | depth + 1, f, p, mode =>
    if p.octets.isEmpty then (.ok (), f)
    else
      match f.makeDirectory p mode with
      | .ok made => (.ok (), made)
      | .error fault =>
        if fault = .numbered .noEntry then
          match p.parent? with
          | none => (.error (.unnumbered "failed to create whole tree"), f)
          | some above =>
            match makeDirectoriesFrom depth f above mode with
            | (.ok (), made) => made.requireDirectory p mode
            | failed => failed
        else (if f.isDirectory p then .ok () else .error fault, f)

def makeDirectories (f : Files) (p : Path) (mode : Nat) : Except Fault Unit × Files :=
  makeDirectoriesFrom (p.components.length + 1) f p mode

def makeLink (f : Files) (p : Path) (target : Path) : Except Fault Files :=
  f.create p fun _ => .link target

def node (f : Files) (p : Path) : Except Fault Node := do
  let loc ← f.locate p
  match f.tree.node? loc with
  | some node => .ok node
  | none => .error (.numbered .noEntry)

def openToRead (f : Files) (p : Path) : Except Fault Location := do
  let loc ← f.locate p
  if f.allows .read loc then .ok loc else .error (.numbered .permissionDenied)

/-- All that can be read at a location. A directory can be opened and not read. -/
def contentAt (f : Files) (loc : Location) : Except Errno Octets :=
  match f.tree.node? loc with
  | some (.file _ content) => .ok content
  | some (.directory _) => .error .isDirectory
  | _ => .ok []

theorem contentAt_ne_interrupted (f : Files) (loc : Location) :
    f.contentAt loc ≠ .error .interrupted := by
  unfold contentAt
  split
  · nofun
  · exact fun h => absurd (Except.error.inj h) (by decide)
  · nofun

def read (f : Files) (p : Path) : Except Fault Octets := do
  numbered (f.contentAt (← f.openToRead p))

def openToWrite (f : Files) (p : Path) (mode : Nat) : Except Fault (Location × Files) := do
  checkPath p
  let loc ← numbered (f.tree.walkToFile (f.allows .pass) Tree.maxLinks f.workdir p)
  if (f.tree.node? loc).isSome then
    if f.allows .write loc then return (loc, f) else .error (.numbered .permissionDenied)
  else
    numbered (f.admitName loc.dropLast)
    return (loc, { f with tree := f.tree.put loc (.file (f.maskMode mode) []) })

/-- Change the file at a location; no other node changes. -/
def modify (f : Files) (loc : Location) (change : Nat → Octets → Nat × Octets) : Files :=
  match f.tree.node? loc with
  | some (.file mode content) =>
    let (mode, content) := change mode content
    { f with tree := f.tree.put loc (.file mode content) }
  | _ => f

/-- A file that is written to loses the bits that let it run as its owner or, if the group may run
it, as the group. -/
def writtenMode (mode : Nat) : Nat :=
  let lost := if mode &&& 0o2010 = 0o2010 then 0o6000 else 0o4000
  mode &&& (0o7777 ^^^ lost)

def setContent (f : Files) (loc : Location) (content : Octets) : Files :=
  f.modify loc fun mode _ => (writtenMode mode, content)

def addContent (f : Files) (loc : Location) (more : Octets) : Files :=
  f.modify loc fun mode content =>
    if more.isEmpty then (mode, content) else (writtenMode mode, content ++ more)

/-- Write over what a file holds from some octet on. A gap before it is filled with octets 0. -/
def overwrite (f : Files) (loc : Location) (offset : Nat) (new : Octets) : Files :=
  f.modify loc fun mode content =>
    if new.isEmpty then (mode, content)
    else
      let gap := List.replicate (offset - content.length) Octets.nul
      (writtenMode mode, content.take offset ++ gap ++ new ++ content.drop (offset + new.length))

def setMode (f : Files) (loc : Location) (mode : Nat) : Files :=
  f.modify loc fun _ content => (mode, content)

def write (f : Files) (p : Path) (content : Octets) (mode : Nat) :
    Except Fault (Location × Files) := do
  let (loc, opened) ← f.openToWrite p mode
  .ok (loc, opened.setContent loc content)

/-- What an attempt leaves: the files that it has made, or those that were there if it failed. -/
def attempt (f : Files) (r : Except Fault Files) : Except Fault Unit × Files :=
  match r with
  | .ok made => (.ok (), made)
  | .error fault => (.error fault, f)

/-- A node below the working directory as a listing shows it: what it is, its mode unless it is a
link, and its path from there. -/
structure Listed where
  kind : String
  mode : Option Nat
  path : Octets
  deriving DecidableEq, Repr

def listNode (path : Location) : Node → Listed
  | .directory mode => ⟨"dir", some mode, Octets.join Octets.slash path⟩
  | .file mode _ | .device mode => ⟨"file", some mode, Octets.join Octets.slash path⟩
  | .link _ => ⟨"link", none, Octets.join Octets.slash path⟩

def below? (dir loc : Location) : Option Location :=
  if dir.length < loc.length ∧ loc.take dir.length = dir then some (loc.drop dir.length) else none

/-- Everything below the working directory, in the byte order of the paths. -/
def listing (f : Files) : List Listed :=
  let found := f.tree.nodes.filterMap fun x => (below? f.workdir x.1).map (listNode · x.2)
  found.mergeSort fun a b => Octets.le a.path b.path

end Files
end BootSequence
