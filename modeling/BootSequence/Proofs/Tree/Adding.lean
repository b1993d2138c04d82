import BootSequence.Proofs.Tree.Directories

/-!
Files that are opened to be added to. A file is made where there is none (`Appended`), and to add to
it twice is to add to it once; no other node is changed.
-/

namespace BootSequence

/-! ## Adding to a file -/

namespace Files

/-- Bits that are lost when a file is written to are lost at once. -/
theorem writtenMode_writtenMode (mode : Nat) : writtenMode (writtenMode mode) = writtenMode mode := by
  by_cases h : mode &&& 0o2010 = 0o2010
  · have hwritten : writtenMode mode = mode &&& 0o1777 := by rw [writtenMode, if_pos h]; rfl
    have hgroup : mode &&& 0o1777 &&& 0o2010 ≠ 0o2010 := by
      have hle : mode &&& (0o1777 &&& 0o2010) ≤ 0o10 := Nat.and_le_right
      rw [Nat.and_assoc]
      omega
    rw [hwritten, writtenMode, if_neg hgroup, Nat.and_assoc]
    rfl
  · have hwritten : writtenMode mode = mode &&& 0o3777 := by rw [writtenMode, if_neg h]; rfl
    have hgroup : mode &&& 0o3777 &&& 0o2010 ≠ 0o2010 := by
      rwa [Nat.and_assoc]
    rw [hwritten, writtenMode, if_neg hgroup, Nat.and_assoc]
    rfl

end Files

namespace Node

/-- What a node is after octets have been written behind what it holds. -/
def added (more : Octets) : Node → Node
  | .file mode content =>
    if more.isEmpty then .file mode content else .file (Files.writtenMode mode) (content ++ more)
  | node => node

def isWritable : Node → Bool
  | .file _ _ | .device _ => true
  | .directory _ | .link _ => false

@[simp] theorem added_nil (node : Node) : node.added [] = node := by cases node <;> rfl

@[simp] theorem map_added_nil (node? : Option Node) : node?.map (added []) = node? := by
  cases node? with
  | none => rfl
  | some node => exact congrArg some (added_nil node)

/-- To write twice is to write once. -/
theorem added_append (node : Node) (first second : Octets) :
    node.added (first ++ second) = (node.added first).added second := by
  cases node with
  | file mode content =>
    cases first with
    | nil => rfl
    | cons a first =>
      cases second with
      | nil => simp [added]
      | cons b second => simp [added, Files.writtenMode_writtenMode]
  | directory mode => rfl
  | link target => rfl
  | device mode => rfl

end Node

namespace Files

theorem node?_addContent (f : Files) (loc : Location) (more : Octets) (other : Location) :
    (f.addContent loc more).tree.node? other =
      if other = loc then (f.tree.node? loc).map (Node.added more) else f.tree.node? other := by
  unfold addContent modify
  split
  · next mode content hfile =>
    have hroot : loc ≠ [] := by
      rintro rfl
      cases hfile
    rw [Tree.node?_put _ hroot, hfile]
    split
    · cases more <;> rfl
    · rfl
  · next hother =>
    split
    · next heq =>
      subst heq
      cases hnode : f.tree.node? other with
      | none => rfl
      | some node =>
        cases node with
        | file mode content => exact (hother mode content hnode).elim
        | directory mode => rfl
        | link target => rfl
        | device mode => rfl
    · rfl

end Files

/-! ## Opening a file to be written -/

theorem Tree.of_walkToFile {t : Tree} {enter : Location → Bool} {links : Nat} {dir loc : Location}
    {p : Path} (h : t.walkToFile enter links dir p = .ok loc) :
    loc ≠ [] ∧ ∀ node, t.node? loc = some node → node.isWritable = true := by
  fun_induction Tree.walkToFile t enter links dir p with
  | case1 links dir p e he => cases h
  | case2 links dir p place hplace hslash => cases h
  | case3 links dir p place hplace hslash hlong => cases h
  | case4 links dir p place hplace hslash hlong mode hdir => cases h
  | case5 links dir p place hplace hslash hlong target hlink hleft => cases h
  | case6 links dir p place hplace hslash hlong target hlink fewer hleft ih => exact ih h
  | case7 links dir p place hplace hslash hlong hdir hlink =>
    cases h
    refine ⟨by simp [Tree.Place.loc], fun node hnode => ?_⟩
    cases node with
    | file mode content => rfl
    | device mode => rfl
    | directory mode => exact (hdir mode hnode).elim
    | link target => exact (hlink target hnode).elim

/-- Where something can be written to, no link has to be followed. -/
theorem Tree.walkToFile_of_place {t : Tree} {enter : Location → Bool} {links : Nat} {dir : Location}
    {p : Path} {place : Tree.Place}
    (hplace : t.walkToParent enter links (origin dir p) p.components = .ok place)
    (hslash : p.endsInSlash = false) (hshort : place.name.length ≤ nameMax) {node : Node}
    (hnode : t.node? place.loc = some node) (hwritable : node.isWritable = true) :
    t.walkToFile enter links dir p = .ok place.loc := by
  rw [walkToFile]
  split
  · next e he => cases he.symm.trans hplace
  · next place' hplace' =>
    cases hplace'.symm.trans hplace
    rw [hslash, if_neg Bool.false_ne_true, if_neg (Nat.not_lt.2 hshort), hnode]
    cases node with
    | file mode content => rfl
    | device mode => rfl
    | directory mode => cases hwritable
    | link target => cases hwritable

namespace Files

/-- A file that has been opened to add to it, and what has been added to it since. A file that was
not there has been made. -/
structure Appended (f : Files) (loc : Location) (more : Octets) (f' : Files) : Prop where
  workdir_eq : f'.workdir = f.workdir
  mask_eq : f'.mask = f.mask
  writable : ∀ node, f.tree.node? loc = some node → node.isWritable = true
  written : f'.tree.node? loc =
    some (((f.tree.node? loc).getD (.file (f.maskMode 0o666) [])).added more)
  others : ∀ other, other ≠ loc → f'.tree.node? other = f.tree.node? other

theorem appended_openToWrite {f opened : Files} {p : Path} {loc : Location}
    (h : f.openToWrite p 0o666 = .ok (loc, opened)) : Appended f loc [] opened := by
  unfold openToWrite at h
  cases hcheck : checkPath p with
  | error e =>
    rw [hcheck] at h
    cases h
  | ok _ =>
    cases hwalk : f.tree.walkToFile (f.allows .pass) Tree.maxLinks f.workdir p with
    | error e =>
      rw [hcheck, hwalk] at h
      cases h
    | ok there =>
      obtain ⟨hroot, hwritable⟩ := Tree.of_walkToFile hwalk
      simp only [hcheck, hwalk, numbered, Except.mapError, bind, Except.bind, pure,
        Except.pure] at h
      split at h
      · next hsome =>
        obtain ⟨node, hnode⟩ := Option.isSome_iff_exists.1 hsome
        split at h
        · cases h
          refine ⟨rfl, rfl, hwritable, ?_, fun _ _ => rfl⟩
          rw [hnode, Node.added_nil]
          rfl
        · cases h
      · next hnone =>
        rw [Option.not_isSome_iff_eq_none] at hnone
        split at h
        · cases h
        · cases h
          refine ⟨rfl, rfl, hwritable, ?_, fun other hother => ?_⟩
          · rw [Tree.node?_put _ hroot, if_pos rfl, hnone, Node.added_nil]
            rfl
          · rw [Tree.node?_put _ hroot, if_neg hother]

end Files

end BootSequence
