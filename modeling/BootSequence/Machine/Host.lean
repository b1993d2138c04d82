import BootSequence.Tree.Files

/-!
A small machine to run programs on: the directories that every machine has, and the programs that
scripts take for granted.
-/

namespace BootSequence
namespace Host

/-- What a compiled program begins with: the mark of the format, and the sort of machine. -/
def compiledMark : Octets :=
  0x7F :: Octets.ofString "ELF" ++ [2, 1, 1, 0, 0, 0, 0, 0, 0, 0, 0, 0, 3, 0, 62, 0, 1, 0, 0, 0]

/-- A compiled program has its own name behind that, and nothing else. -/
def compiled (name : String) : Octets := compiledMark ++ Octets.ofString name

def programs : List String :=
  ["[", "cat", "echo", "env", "false", "printenv", "printf", "sh", "sleep", "test", "tr", "true"]

def location (path : String) : Location := (Path.ofString path).components

def directories : List String :=
  ["/dev", "/etc", "/home", "/opt", "/run", "/sys", "/usr", "/usr/bin", "/usr/lib", "/usr/sbin",
    "/var"]

def specialDirectories : List (String × Nat) :=
  [("/proc", 0o555), ("/root", 0o700), ("/tmp", 0o1777)]

/-- Programs live below one directory; the short paths are links. -/
def links : List (String × String) :=
  [("/bin", "usr/bin"), ("/lib", "usr/lib"), ("/sbin", "usr/sbin")]

def workdir : Location := location "/tmp/work"

def nodes : List (Location × Node) :=
  directories.map (fun d => (location d, .directory 0o755)) ++
    specialDirectories.map (fun d => (location d.1, .directory d.2)) ++
    links.map (fun l => (location l.1, .link (.ofString l.2))) ++
    programs.map (fun p => (location s!"/usr/bin/{p}", .file 0o755 (compiled p))) ++
    [(location "/dev/null", .device 0o666), (workdir, .directory 0o755)]

def files : Files := ⟨⟨nodes⟩, workdir, 0o022⟩

end Host
end BootSequence
