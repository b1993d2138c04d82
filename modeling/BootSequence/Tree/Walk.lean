import BootSequence.Defaults
import BootSequence.Errno
import BootSequence.Tree.Basic

/-!
Finding a location by walking the names of a path. Each name is looked up in a directory that may be
searched; a link is replaced by what it says; no walk follows more than forty links, those at its
end included.
-/

namespace BootSequence
namespace Tree

def maxLinks : Nat := 40

def origin (dir : Location) (p : Path) : Location := if p.isAbsolute then [] else dir

structure Walked where
  loc : Location
  left : Nat
  deriving DecidableEq, Repr

/-- Walk `names` from `dir`, through directories that `enter` admits. An empty name stays in the
directory and looks nothing up. A link at the very end is followed only if `follow` says so. -/
def walk (t : Tree) (enter : Location → Bool) (follow : Bool) (links : Nat) (dir : Location)
    (names : List Name) : Except Errno Walked :=
  match names with
  | [] => .ok ⟨dir, links⟩
  | name :: rest =>
    if !t.isDirectory dir then .error .notDirectory
    else if name = [] then walk t enter follow links dir rest
    else if !enter dir then .error .permissionDenied
    else if name = Path.dot then walk t enter follow links dir rest
    else if name = Path.dotdot then walk t enter follow links dir.dropLast rest
    else if nameMax < name.length then .error .nameTooLong
    else
      match t.node? (dir ++ [name]) with
      | none => .error .noEntry
      | some (.link target) =>
        if rest.isEmpty && !follow then .ok ⟨dir ++ [name], links⟩
        else
          match links with
          | 0 => .error .tooManyLinks
          | fewer + 1 => walk t enter follow fewer (origin dir target) (target.names ++ rest)
      | some _ => walk t enter follow links (dir ++ [name]) rest
termination_by (links, names.length)

theorem walk_left_le (t : Tree) (enter : Location → Bool) (follow : Bool) (links : Nat)
    (dir : Location) (names : List Name) (w : Walked)
    (h : t.walk enter follow links dir names = .ok w) : w.left ≤ links := by
  fun_induction walk t enter follow links dir names generalizing w <;> grind

/-- A name in a directory, whether or not anything has it, and the links that may still be
followed. -/
structure Place where
  dir : Location
  name : Name
  left : Nat
  deriving DecidableEq, Repr

def Place.loc (p : Place) : Location := p.dir ++ [p.name]

/-- The directory that a path ends in and the name it ends with, for making something there. The
directory must be there; nothing is said of the name. -/
def walkToParent (t : Tree) (enter : Location → Bool) (links : Nat) (dir : Location)
    (names : List Name) : Except Errno Place :=
  match names.getLast? with
  | none => .error .fileExists
  | some last =>
    match t.walk enter true links dir names.dropLast with
    | .error e => .error e
    | .ok parent =>
      if !t.isDirectory parent.loc then .error .notDirectory
      else if !enter parent.loc then .error .permissionDenied
      else if last = Path.dot ∨ last = Path.dotdot then .error .fileExists
      else .ok ⟨parent.loc, last, parent.left⟩

theorem walkToParent_left_le (t : Tree) (enter : Location → Bool) (links : Nat) (dir : Location)
    (names : List Name) (p : Place) (h : t.walkToParent enter links dir names = .ok p) :
    p.left ≤ links := by
  have hw := t.walk_left_le enter true links dir names.dropLast
  unfold walkToParent at h
  grind

/-- The location at which a file is opened to be written, whether it is there or is to be made. A
link at the end is followed to where it leads, even if nothing is there. A path that ends in a slash
names a directory, whatever its last name, and no directory is written to. -/
def walkToFile (t : Tree) (enter : Location → Bool) (links : Nat) (dir : Location) (p : Path) :
    Except Errno Location :=
  match _h : t.walkToParent enter links (origin dir p) p.components with
  | .error e => .error (if e = .fileExists then .isDirectory else e)
  | .ok place =>
    if p.endsInSlash then .error .isDirectory
    else if nameMax < place.name.length then .error .nameTooLong
    else
      match t.node? place.loc with
      | some (.directory _) => .error .isDirectory
      | some (.link target) =>
        match _hl : place.left with
        | 0 => .error .tooManyLinks
        | fewer + 1 => walkToFile t enter fewer place.dir target
      | _ => .ok place.loc
termination_by links
decreasing_by
  have := walkToParent_left_le _ _ _ _ _ _ _h
  omega

end Tree
end BootSequence
