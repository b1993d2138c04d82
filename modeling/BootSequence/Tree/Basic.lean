import BootSequence.Path

/-!
A directory tree: directories, files, symbolic links and devices, each at its location, which is the
list of names that leads there from the root. The root is always there and always a directory. All
but links have a mode, whose bits say what the owner and what everybody else may do.
-/

namespace BootSequence

abbrev Location := List Name

inductive Node where
  | directory (mode : Nat)
  | file (mode : Nat) (content : Octets)
  | link (target : Path)
  /-- There is nothing to read, and what is written is lost. -/
  | device (mode : Nat)
  deriving DecidableEq, Repr

/-- What the bits of a mode allow. To search a directory and to execute a file are one right. -/
inductive Right where
  | read
  | write
  | pass
  deriving DecidableEq, Repr

def Right.bit : Right → Nat
  | read => 4
  | write => 2
  | pass => 1

namespace Node

def isDirectory : Node → Bool
  | directory _ => true
  | file _ _ | link _ | device _ => false

def isFile : Node → Bool
  | file _ _ => true
  | directory _ | link _ | device _ => false

/-- The bits that count: a link has none, and forbids nothing. -/
def mode : Node → Nat
  | directory mode | file mode _ | device mode => mode
  | link _ => 0o777

def allows (node : Node) (owned : Bool) (right : Right) : Bool :=
  (if owned then node.mode >>> 6 else node.mode) &&& right.bit ≠ 0

end Node

/-- The nodes below the root, one at each location. -/
structure Tree where
  nodes : List (Location × Node)
  deriving DecidableEq, Repr

namespace Tree

def empty : Tree := ⟨[]⟩

def rootNode : Node := .directory 0o755

def node? (t : Tree) (loc : Location) : Option Node :=
  if loc = [] then some rootNode else t.nodes.lookup loc

def put (t : Tree) (loc : Location) (node : Node) : Tree :=
  ⟨(loc, node) :: t.nodes.filter (·.1 ≠ loc)⟩

def isDirectory (t : Tree) (loc : Location) : Bool := (t.node? loc).any Node.isDirectory

theorem lookup_filter_ne {β : Type} (l : List (Location × β)) {loc other : Location}
    (h : other ≠ loc) : (l.filter (·.1 ≠ loc)).lookup other = l.lookup other := by
  induction l with
  | nil => rfl
  | cons x xs ih =>
    obtain ⟨k, v⟩ := x
    by_cases hk : k = loc
    · subst hk
      have hne : (other == k) = false := by simpa using h
      simpa [List.lookup_cons, hne] using ih
    · simp only [List.filter_cons, hk, ne_eq, not_false_eq_true, decide_true, if_true,
        List.lookup_cons, ih]

/-- A node that has been put is found; everything else is as it was. -/
theorem node?_put (t : Tree) {loc : Location} (h : loc ≠ []) (node : Node) (other : Location) :
    (t.put loc node).node? other = if other = loc then some node else t.node? other := by
  by_cases he : other = loc
  · subst he; simp [node?, put, h]
  · by_cases hr : other = []
    · simp [node?, hr, Ne.symm h]
    · have hne : (other == loc) = false := by simpa using he
      simp only [node?, put, hr, if_false, he, List.lookup_cons, hne]
      exact lookup_filter_ne t.nodes he

end Tree
end BootSequence
