import BootSequence.Action
import BootSequence.Mount.Table

/-!
Mounting: make the directory to mount on, then ask the kernel. A table is worked through from the
top and given up at the first thing that goes wrong.
-/

namespace BootSequence
namespace Mount

inductive DirStatus where
  | created
  | alreadyExists
  deriving DecidableEq, Repr

variable {σ : Type}

/-- Make one directory. That something stands there already is no failure. -/
def ensureDir (path : Path) : Action σ (Except Fault DirStatus) := do
  Action.emit (.makeDirectory path)
  match (← Action.files).makeDirectory path mountPointMode with
  | .ok made =>
    Action.setFiles made
    Action.log .info s!"mkdir {path.display} ok!"
    return .ok .created
  | .error fault =>
    if fault.kind = .alreadyExists then
      Action.log .debug s!"mkdir {path.display}: {fault.report}"
      return .ok .alreadyExists
    else return .error fault

def mountEntry (mounter : Mounter σ) (entry : Entry) : Action σ (Except Error Unit) := do
  match ← ensureDir entry.target with
  | .error fault => return .error (.mountPoint entry.target fault)
  | .ok _ =>
    match ← Action.mount mounter entry with
    | .error fault => return .error (.refused entry fault)
    | .ok () =>
      Action.log .info s!"{entry.source} mount on {entry.target.display} successfully"
      return .ok ()

/-- Mount one file system that no table names, with no flag but the magic number. -/
def mountTargeted (mounter : Mounter σ) (source : String) (target : Path) (fsType : String)
    (data : Option String) : Action σ (Except Error Unit) :=
  mountEntry mounter ⟨source, target, fsType, .magic, data⟩

/-- Mount entry after entry, each as it is read; the first bad item ends it. The result counts the
mounts. -/
def mountItems {ρ : Type} [Reader ρ] (mounter : Mounter σ) (table : Path) (c : Table.Cursor ρ) :
    Action σ (Except Error Nat) := do
  match _h : c.next table (← Action.files) with
  | (none, _) => return .ok 0
  | (some (.error e), _) => return .error e
  | (some (.ok entry), left) =>
    match ← mountEntry mounter entry with
    | .error e => return .error e
    | .ok () => return (← mountItems mounter table left).map (· + 1)
termination_by Reader.size c.reader
decreasing_by
  have hnext := ‹c.next table _ = (some (.ok entry), left)›
  exact Table.Cursor.size_next hnext fun _ h => nomatch h

def mountAll (mounter : Mounter σ) (table : Path) : Action σ (Except Error Nat) := do
  match OpenFile.ofPath (← Action.files) table with
  | .error fault => return .error (.cannotOpen table fault)
  | .ok file => mountItems mounter table ⟨file, 0⟩

end Mount
end BootSequence
