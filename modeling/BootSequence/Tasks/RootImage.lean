import BootSequence.Tasks.Build

/-!
A root file system in a directory: the programs, the script that is run at the start, and the table
of what is mounted then.
-/

namespace BootSequence
namespace Tasks

structure RootImageOptions where
  build : BuildOptions := {}
  out : Path := .ofString "target/rootfs"
  skipBuild : Bool := false
  deriving DecidableEq, Repr

namespace RootImage

def programs : List String := ["init", "mount", "testrunner"]

def directories : List String := ["sbin", "etc/init.d", "proc", "dev"]

def startScript : String := "mount -a\n"

def mountTable : String :=
  "# <file system> <mount point> <type> <options> <dump> <pass>\nproc /proc proc 0 0 0\n"

def notRegular : Fault :=
  .unnumbered "the source path is neither a regular file nor a symlink to a regular file"

def setMode (loc : Location) (mode : Nat) (files : Files) : Except Fault Files :=
  if files.owns loc then .ok (files.setMode loc mode) else .error (.numbered .notPermitted)

/-- Copy a file with its mode. The target is emptied first, so a file copied onto itself is lost; it
has its mode before it gets its content. A target that is no file, such as a device, has a mode of
its own. -/
def copy (source target : Path) (files : Files) : Except Fault Files := do
  let loc ← files.openToRead source
  match files.tree.node? loc with
  | some (.file mode _) =>
    let (copied, opened) ← files.write target [] mode
    let emptied ←
      if (opened.tree.node? copied).any Node.isFile then setMode copied mode opened else .ok opened
    return emptied.addContent copied ((emptied.contentAt loc).toOption.getD [])
  | _ => .error notRegular

def changeMode (path : Path) (mode : Nat) (files : Files) : Except Fault Files := do
  setMode (← files.locate path) mode files

def makeDirectory (path : Path) : Job Unit :=
  Job.change (.makingDirectory path) fun files => files.makeDirectories path 0o755

def copyFile (source target : Path) : Job Unit :=
  Job.change (.copying source target) fun files => files.attempt (copy source target files)

def writeFile (path : Path) (content : String) (mode : Nat) : Job Unit := do
  Job.change (.writing path) fun files =>
    files.attempt ((files.write path (.ofString content) 0o666).map fun (_, written) => written)
  Job.change (.settingMode path) fun files => files.attempt (changeMode path mode files)

def inside (dir : Path) (name : String) : Path := dir ++ Path.ofString name

/-- Build the programs unless that is to be skipped, and put everything in its place. -/
def stage (o : RootImageOptions) : Job Unit := do
  if !o.skipBuild then build o.build
  directories.forM fun dir => makeDirectory (inside o.out dir)
  programs.forM fun program =>
    copyFile (inside o.build.binaryDir program) (inside (inside o.out "sbin") program)
  writeFile (inside o.out "etc/init.d/rcS") startScript 0o755
  writeFile (inside o.out "etc/fstab") mountTable 0o644
  Job.say s!"Root filesystem staged at {o.out.display}"

end RootImage
end Tasks
end BootSequence
