import BootSequence.LogFile
import BootSequence.Proofs.Tree.Walk
import Mathlib

/-!
Directories by their paths: which paths name one, what it takes to make one, and when the kernel
says that something is there already. That answer is given for whatever stands there, directory or
not (`obstructed_iff_obstacle`).
-/

namespace BootSequence

/-! ## Components -/

theorem ne_nil_of_mem_words {α : Type} {separates : α → Bool} {l part : List α}
    (h : part ∈ words separates l) : part ≠ [] := by
  have hpart := (List.mem_filter.1 h).2
  intro hnil
  rw [hnil] at hpart
  cases hpart

theorem separates_of_words_eq_nil {α : Type} {separates : α → Bool} {a : α} {l : List α}
    (h : words separates (a :: l) = []) : separates a = true := by
  by_cases ha : separates a = true
  · exact ha
  · have hfirst : a :: (pieces separates l).headD [] ∈ words separates (a :: l) := by
      apply List.mem_filter.2
      refine ⟨?_, rfl⟩
      simp [pieces, ha]
    rw [h] at hfirst
    cases hfirst

/-- A path that is neither empty nor has a component is the root. -/
theorem Path.isAbsolute_of_components_eq_nil {p : Path} (h : p.components = [])
    (hne : p.octets ≠ []) : p.isAbsolute = true := by
  obtain ⟨a, l, hl⟩ := List.exists_cons_of_ne_nil hne
  rw [Path.components, hl] at h
  have ha := separates_of_words_eq_nil h
  have hslash : a = Octets.slash := by simpa using ha
  rw [Path.isAbsolute, hl, hslash]
  rfl

namespace Files

/-! ## Naming a directory -/

section Naming

variable {f : Files} {p : Path}

theorem checkPath_ne_nil (h : checkPath p = .ok ()) : p.octets ≠ [] := by
  intro hnil
  rw [checkPath, hnil] at h
  cases h

theorem checkPath_ne_fileExists : checkPath p ≠ .error (.numbered .fileExists) := by
  unfold checkPath
  intro h
  split at h
  · cases h
  · split at h
    · exact absurd h (by simp [Errno.noEntry, Errno.fileExists])
    · split at h
      · exact absurd h (by simp [Errno.nameTooLong, Errno.fileExists])
      · cases h

/-- The walk to what a path names, whether or not a slash at its end asks for a directory. -/
def walkTo (f : Files) (names : List Name) (p : Path) : Except Errno Tree.Walked :=
  f.tree.walk (f.allows .pass) true Tree.maxLinks (f.origin p) names

theorem locate_eq_ok_iff {loc : Location} :
    f.locate p = .ok loc ↔
      checkPath p = .ok () ∧ ∃ left, f.walkTo p.names p = .ok ⟨loc, left⟩ := by
  cases hcheck : checkPath p with
  | error e => simp [locate, hcheck, bind, Except.bind]
  | ok u =>
    cases hwalk : f.walkTo p.names p with
    | error e =>
      rw [walkTo] at hwalk
      simp [locate, hcheck, hwalk, bind, Except.bind, numbered, Except.mapError]
    | ok w =>
      obtain ⟨loc', left⟩ := w
      rw [walkTo] at hwalk
      simp [locate, hcheck, hwalk, bind, Except.bind, pure, Except.pure, numbered, Except.mapError]

theorem isDirectory_iff_locate :
    f.isDirectory p = true ↔ ∃ loc, f.locate p = .ok loc ∧ f.tree.isDirectory loc = true := by
  unfold isDirectory
  cases f.locate p with
  | error e => simp
  | ok loc => simp

/-- A slash at the end makes no difference to what is a directory. -/
theorem isDirectory_iff :
    f.isDirectory p = true ↔ checkPath p = .ok () ∧
      ∃ w, f.walkTo p.components p = .ok w ∧ f.tree.isDirectory w.loc = true := by
  have hnames : ∀ w : Tree.Walked, f.tree.isDirectory w.loc = true →
      (f.walkTo p.names p = .ok w ↔ f.walkTo p.components p = .ok w) := by
    intro w hdir
    unfold Path.names
    split
    · rw [walkTo, Tree.walk_slash_eq_ok_iff]
      exact and_iff_left hdir
    · rfl
  rw [isDirectory_iff_locate]
  constructor
  · rintro ⟨loc, hlocate, hdir⟩
    obtain ⟨hcheck, left, hwalk⟩ := locate_eq_ok_iff.1 hlocate
    exact ⟨hcheck, ⟨loc, left⟩, (hnames ⟨loc, left⟩ hdir).1 hwalk, hdir⟩
  · rintro ⟨hcheck, w, hwalk, hdir⟩
    exact ⟨w.loc, locate_eq_ok_iff.2 ⟨hcheck, w.left, (hnames w hdir).2 hwalk⟩, hdir⟩

end Naming

/-! ## Files that keep what others have

Files change by what is created (`keeps_create`), opened to be written to (`keeps_openToWrite`) and
written (`keeps_modify`). Nothing is removed or put elsewhere. -/

/-- What stands in `f` stands in `f'`, up to what a file holds and allows. -/
structure Keeps (f f' : Files) : Prop where
  workdir_eq : f'.workdir = f.workdir
  tree : f.tree.Keeps f'.tree

namespace Keeps

variable {f f' : Files} {p : Path}

theorem enter (h : Keeps f f') {loc : Location} (hdir : f.tree.isDirectory loc = true)
    (hmay : f.allows .pass loc = true) : f'.allows .pass loc = true := by
  obtain ⟨mode, hmode⟩ := Tree.isDirectory_iff.1 hdir
  have howns : f'.owns loc = f.owns loc := by rw [owns, owns, h.workdir_eq]
  rw [allows, hmode] at hmay
  rw [allows, h.tree.directory hmode, howns]
  exact hmay

theorem walkTo (h : Keeps f f') {names : List Name} {w : Tree.Walked}
    (hwalk : f.walkTo names p = .ok w) : f'.walkTo names p = .ok w := by
  have horigin : f'.origin p = f.origin p := by rw [Files.origin, Files.origin, h.workdir_eq]
  rw [Files.walkTo, horigin]
  exact h.tree.walk (fun _ => h.enter) hwalk

theorem isDirectory (h : Keeps f f') (hdir : f.isDirectory p = true) : f'.isDirectory p = true := by
  obtain ⟨hcheck, w, hwalk, hloc⟩ := isDirectory_iff.1 hdir
  exact isDirectory_iff.2 ⟨hcheck, w, h.walkTo hwalk, h.tree.isDirectory hloc⟩

end Keeps

section Changes

variable (f : Files) {loc : Location}

theorem keeps_put {node : Node} (h : f.tree.node? loc = none) :
    Keeps f { f with tree := f.tree.put loc node } := ⟨rfl, Tree.keeps_put h⟩

/-- Whatever is done to a file, no node is lost and none is new. -/
theorem keeps_modify (change : Nat → Octets → Nat × Octets) :
    Keeps f (f.modify loc change) ∧ Keeps (f.modify loc change) f := by
  unfold modify
  split
  · rename_i mode content hfile
    have hput := Tree.keeps_put_file hfile (change mode content).1 (change mode content).2
    exact ⟨⟨rfl, hput.1⟩, ⟨rfl, hput.2⟩⟩
  · exact ⟨⟨rfl, .refl _⟩, ⟨rfl, .refl _⟩⟩

theorem keeps_openToWrite {f opened : Files} {p : Path} {mode : Nat}
    (h : f.openToWrite p mode = .ok (loc, opened)) : Keeps f opened := by
  unfold openToWrite at h
  cases hcheck : checkPath p with
  | error e =>
    rw [hcheck] at h
    cases h
  | ok _ =>
    cases hwalk : f.tree.walkToFile (f.allows .pass) Tree.maxLinks f.workdir p with
    | error e =>
      rw [hcheck, hwalk] at h
      cases h
    | ok there =>
      simp only [hcheck, hwalk, numbered, Except.mapError, bind, Except.bind, pure,
        Except.pure] at h
      split at h
      · split at h
        · cases h
          exact ⟨rfl, .refl _⟩
        · cases h
      · next hnone =>
        split at h
        · cases h
        · cases h
          exact keeps_put f (Option.not_isSome_iff_eq_none.1 hnone)

theorem keeps_record (log : Option LogFile) (level : Level) (message : String) :
    Keeps f (LogFile.record log level message f) ∧
      Keeps (LogFile.record log level message f) f := by
  cases log with
  | none => exact ⟨⟨rfl, .refl _⟩, ⟨rfl, .refl _⟩⟩
  | some l => exact keeps_modify f _

/-- A record makes no directory and takes none away. -/
theorem isDirectory_record (log : Option LogFile) (level : Level) (message : String) (p : Path) :
    (LogFile.record log level message f).isDirectory p = f.isDirectory p := by
  have hkeeps := keeps_record f log level message
  rw [Bool.eq_iff_iff]
  exact ⟨hkeeps.2.isDirectory, hkeeps.1.isDirectory⟩

end Changes

/-! ## Making a directory -/

section Making

variable {f : Files} {p : Path} {place : Tree.Place} {mode : Nat}

theorem placeOf_eq_ok_iff :
    f.placeOf p = .ok place ↔ checkPath p = .ok () ∧
      f.tree.walkToParent (f.allows .pass) Tree.maxLinks (f.origin p) p.components = .ok place ∧
        place.name.length ≤ nameMax := by
  unfold placeOf
  cases checkPath p with
  | error e => simp [bind, Except.bind]
  | ok u =>
    cases f.tree.walkToParent (f.allows .pass) Tree.maxLinks (f.origin p) p.components with
    | error e => simp [bind, Except.bind, numbered, Except.mapError]
    | ok found =>
      by_cases hlong : nameMax < found.name.length
      · simp only [bind, Except.bind, numbered, Except.mapError, hlong, if_true, true_and,
          Except.ok.injEq, reduceCtorEq, false_iff, not_and]
        rintro rfl
        omega
      · simp only [bind, Except.bind, numbered, Except.mapError, hlong, if_false, true_and,
          Except.ok.injEq, pure, Except.pure]
        constructor
        · rintro rfl
          exact ⟨rfl, Nat.not_lt.1 hlong⟩
        · exact fun h => h.1

theorem placeOf_eq_fileExists_iff :
    f.placeOf p = .error (.numbered .fileExists) ↔ checkPath p = .ok () ∧
      f.tree.walkToParent (f.allows .pass) Tree.maxLinks (f.origin p) p.components =
        .error .fileExists := by
  unfold placeOf
  cases hcheck : checkPath p with
  | error e =>
    have hne : e ≠ .numbered .fileExists := by
      rintro rfl
      exact checkPath_ne_fileExists hcheck
    simp [bind, Except.bind, hne]
  | ok u =>
    cases f.tree.walkToParent (f.allows .pass) Tree.maxLinks (f.origin p) p.components with
    | error e => simp [bind, Except.bind, numbered, Except.mapError]
    | ok found =>
      by_cases hlong : nameMax < found.name.length
      · simp [bind, Except.bind, numbered, Except.mapError, hlong, Errno.nameTooLong,
          Errno.fileExists]
      · simp [bind, Except.bind, numbered, Except.mapError, hlong, pure, Except.pure]

theorem admitName_ne_fileExists (f : Files) (dir : Location) :
    f.admitName dir ≠ .error .fileExists := by
  unfold admitName
  intro h
  split at h
  · cases h
  · split at h
    · exact absurd h (by simp [Errno.noEntry, Errno.fileExists])
    · exact absurd h (by simp [Errno.permissionDenied, Errno.fileExists])

/-- Something is made where there was nothing, and nothing else changes. -/
theorem create_eq_ok {made : Files} {node : Location → Node} (h : f.create p node = .ok made) :
    ∃ place, f.placeOf p = .ok place ∧ f.tree.node? place.loc = none ∧
      made = { f with tree := f.tree.put place.loc (node place.dir) } := by
  unfold create at h
  cases hplace : f.placeOf p with
  | error e => simp [hplace, bind, Except.bind] at h
  | ok place =>
    cases hnode : f.tree.node? place.loc with
    | some node => simp [hplace, hnode, bind, Except.bind] at h
    | none =>
      cases hadmit : f.admitName place.dir with
      | error e =>
        simp [hplace, hnode, hadmit, bind, Except.bind, numbered, Except.mapError] at h
      | ok u =>
        simp only [hplace, hnode, hadmit, bind, Except.bind, numbered, Except.mapError,
          Option.isSome_none, Bool.false_eq_true, if_false, pure, Except.pure, Except.ok.injEq] at h
        exact ⟨place, rfl, hnode, h.symm⟩

theorem makeDirectory_eq_ok {made : Files} (h : f.makeDirectory p mode = .ok made) :
    ∃ place, f.placeOf p = .ok place ∧ f.tree.node? place.loc = none ∧
      made = { f with
        tree := f.tree.put place.loc (.directory (f.directoryMode place.dir mode)) } :=
  create_eq_ok h

theorem keeps_create {made : Files} {node : Location → Node} (h : f.create p node = .ok made) :
    Keeps f made := by
  obtain ⟨place, -, hnone, rfl⟩ := create_eq_ok h
  exact keeps_put f hnone

/-- The kernel says so whatever it is that exists. -/
theorem makeDirectory_eq_fileExists_iff :
    f.makeDirectory p mode = .error (.numbered .fileExists) ↔
      f.placeOf p = .error (.numbered .fileExists) ∨
        ∃ place node, f.placeOf p = .ok place ∧ f.tree.node? place.loc = some node := by
  unfold makeDirectory create
  cases hplace : f.placeOf p with
  | error e => simp [bind, Except.bind]
  | ok place =>
    cases hnode : f.tree.node? place.loc with
    | some node => simp [hnode, bind, Except.bind]
    | none =>
      cases hadmit : f.admitName place.dir with
      | error e =>
        have hne : e ≠ .fileExists := by
          rintro rfl
          exact admitName_ne_fileExists f place.dir hadmit
        simp [hnode, hadmit, hne, bind, Except.bind, numbered, Except.mapError]
      | ok u =>
        simp [hnode, hadmit, bind, Except.bind, numbered, Except.mapError, pure, Except.pure]

theorem Keeps.placeOf {f' : Files} (h : Keeps f f') (hplace : f.placeOf p = .ok place) :
    f'.placeOf p = .ok place := by
  have horigin : f'.origin p = f.origin p := by rw [Files.origin, Files.origin, h.workdir_eq]
  obtain ⟨hcheck, hparent, hshort⟩ := placeOf_eq_ok_iff.1 hplace
  obtain ⟨hreach, hplain⟩ := Tree.walkToParent_eq_ok_iff.1 hparent
  rw [placeOf_eq_ok_iff, Tree.walkToParent_eq_ok_iff, horigin]
  exact ⟨hcheck, ⟨h.tree.reaches (fun _ => h.enter) hreach, hplain⟩, hshort⟩

theorem Keeps.placeOf_fileExists {f' : Files} (h : Keeps f f')
    (hplace : f.placeOf p = .error (.numbered .fileExists)) :
    f'.placeOf p = .error (.numbered .fileExists) := by
  have horigin : f'.origin p = f.origin p := by rw [Files.origin, Files.origin, h.workdir_eq]
  obtain ⟨hcheck, hparent⟩ := placeOf_eq_fileExists_iff.1 hplace
  rw [placeOf_eq_fileExists_iff, Tree.walkToParent_eq_fileExists_iff, horigin]
  refine ⟨hcheck, ?_⟩
  rcases Tree.walkToParent_eq_fileExists_iff.1 hparent with hnil | ⟨parent, last, hreach, hdots⟩
  · exact .inl hnil
  · exact .inr ⟨parent, last, h.tree.reaches (fun _ => h.enter) hreach, hdots⟩

/-- The last name of a path is looked up where the path ends. -/
theorem looksUp_of_placeOf (h : f.placeOf p = .ok place) :
    f.tree.LooksUp (f.allows .pass) place.dir place.name := by
  obtain ⟨-, hparent, hshort⟩ := placeOf_eq_ok_iff.1 h
  obtain ⟨hreach, hdot, hdotdot⟩ := Tree.walkToParent_eq_ok_iff.1 hparent
  have hmem : place.name ∈ p.components := by
    rw [← hreach.names_eq]
    exact List.mem_append_right _ (List.mem_singleton.2 rfl)
  exact ⟨hreach.isDirectory, hreach.enter, ne_nil_of_mem_words hmem, hdot, hdotdot, hshort⟩

theorem walkTo_of_placeOf (h : f.placeOf p = .ok place) :
    f.walkTo p.components p =
      f.tree.walk (f.allows .pass) true place.left place.dir [place.name] := by
  obtain ⟨-, hparent, -⟩ := placeOf_eq_ok_iff.1 h
  obtain ⟨hreach, -⟩ := Tree.walkToParent_eq_ok_iff.1 hparent
  rw [walkTo, ← hreach.names_eq, Tree.walk_append, hreach.walk_eq]
  rfl

/-- What stands where a path ends decides, unless it is a link. -/
theorem isDirectory_of_node? (h : f.placeOf p = .ok place) {node : Node}
    (hnode : f.tree.node? place.loc = some node) (hlink : ∀ target, node ≠ .link target) :
    f.isDirectory p = node.isDirectory := by
  have hwalk : f.walkTo p.components p = .ok ⟨place.loc, place.left⟩ := by
    rw [walkTo_of_placeOf h, (looksUp_of_placeOf h).walk_cons]
    rw [Tree.Place.loc] at hnode
    rw [hnode]
    cases node with
    | link target => exact absurd rfl (hlink target)
    | directory | file | device => exact Tree.walk_nil ..
  have hkind : f.tree.isDirectory place.loc = node.isDirectory := by
    rw [Tree.isDirectory, hnode]
    rfl
  rw [Bool.eq_iff_iff, isDirectory_iff, ← hkind]
  constructor
  · rintro ⟨-, w, hw, hdir⟩
    rw [hwalk] at hw
    cases hw
    exact hdir
  · exact fun hdir => ⟨(placeOf_eq_ok_iff.1 h).1, _, hwalk, hdir⟩

theorem Keeps.makeDirectory_fileExists {f' : Files} (h : Keeps f f')
    (hexists : f.makeDirectory p mode = .error (.numbered .fileExists)) :
    f'.makeDirectory p mode = .error (.numbered .fileExists) := by
  rw [makeDirectory_eq_fileExists_iff] at hexists ⊢
  rcases hexists with hplace | ⟨place, node, hplace, hnode⟩
  · exact .inl (h.placeOf_fileExists hplace)
  · obtain ⟨node', hnode', -⟩ := h.tree _ _ hnode
    exact .inr ⟨place, node', h.placeOf hplace, hnode'⟩

/-- A link is followed from the directory that it stands in. -/
theorem isDirectory_iff_of_link (h : f.placeOf p = .ok place) {target : Path}
    (hnode : f.tree.node? place.loc = some (.link target)) :
    f.isDirectory p = true ↔ ∃ fewer w, place.left = fewer + 1 ∧
      f.tree.walk (f.allows .pass) true fewer (Tree.origin place.dir target) target.names = .ok w ∧
        f.tree.isDirectory w.loc = true := by
  rw [Tree.Place.loc] at hnode
  rw [isDirectory_iff, walkTo_of_placeOf h, (looksUp_of_placeOf h).walk_cons, hnode]
  have hcheck := (placeOf_eq_ok_iff.1 h).1
  cases hleft : place.left with
  | zero => simp
  | succ fewer => simp [hcheck]

theorem isDirectory_of_made {made : Files} (h : f.makeDirectory p mode = .ok made) :
    made.isDirectory p = true := by
  obtain ⟨place, hplace, hnone, rfl⟩ := makeDirectory_eq_ok h
  have hne : place.loc ≠ [] := by simp [Tree.Place.loc]
  have hnode : (f.tree.put place.loc (.directory (f.directoryMode place.dir mode))).node?
      place.loc = some (.directory (f.directoryMode place.dir mode)) := by
    rw [Tree.node?_put _ hne, if_pos rfl]
  exact isDirectory_of_node? ((keeps_put f hnone).placeOf hplace) hnode fun _ => nofun

end Making

/-! ## Obstacles -/

/-- The kernel says that the path exists, and it names no directory. -/
def Obstructed (f : Files) (p : Path) : Prop :=
  f.makeDirectory p mountPointMode = .error (.numbered .fileExists) ∧ f.isDirectory p = false

theorem Obstructed.record {f : Files} {p : Path} (h : f.Obstructed p) (log : Option LogFile)
    (level : Level) (message : String) : (LogFile.record log level message f).Obstructed p :=
  ⟨(keeps_record f log level message).1.makeDirectory_fileExists h.1,
    (isDirectory_record f log level message p).trans h.2⟩

/-- Where the path ends there stands a file, a device, or a link that leads to no directory. -/
inductive Obstacle (f : Files) (p : Path) : Prop
  | plain {place : Tree.Place} {node : Node} (hplace : f.placeOf p = .ok place)
      (hnode : f.tree.node? place.loc = some node) (hlink : ∀ target, node ≠ .link target)
      (hkind : node.isDirectory = false) : Obstacle f p
  | link {place : Tree.Place} {target : Path} (hplace : f.placeOf p = .ok place)
      (hnode : f.tree.node? place.loc = some (.link target))
      (hlost : ∀ fewer w, place.left = fewer + 1 →
        f.tree.walk (f.allows .pass) true fewer (Tree.origin place.dir target) target.names =
          .ok w → f.tree.isDirectory w.loc = false) : Obstacle f p

end Files

/-- Whatever stands somewhere stands in a directory. -/
def Tree.Closed (t : Tree) : Prop :=
  ∀ loc node, t.node? loc = some node → t.isDirectory loc.dropLast = true

/-- To look at the nodes that are listed is enough. -/
theorem Tree.closed_of_forall_mem {t : Tree}
    (h : ∀ x ∈ t.nodes, t.isDirectory x.1.dropLast = true) : t.Closed := by
  intro loc node hnode
  by_cases hroot : loc = []
  · rw [hroot]
    rfl
  · rw [Tree.node?, if_neg hroot, List.lookup_eq_some_iff] at hnode
    obtain ⟨before, behind, hnodes, -⟩ := hnode
    exact h (loc, node) (by rw [hnodes]; simp)

theorem Tree.Closed.of_keeps {t t' : Tree} (h : t.Closed) (hkeeps : t.Keeps t')
    (hback : t'.Keeps t) : t'.Closed := by
  intro loc node hnode
  obtain ⟨node', hnode', -⟩ := hback loc node hnode
  exact hkeeps.isDirectory (h loc node' hnode')

theorem Tree.Closed.put {t : Tree} (h : t.Closed) {loc : Location} (hne : loc ≠ [])
    (hnone : t.node? loc = none) (hdir : t.isDirectory loc.dropLast = true) (node : Node) :
    (t.put loc node).Closed := by
  intro other found hfound
  have hkeeps : t.Keeps (t.put loc node) := keeps_put hnone
  rw [node?_put t hne] at hfound
  by_cases hother : other = loc
  · rw [hother]
    exact hkeeps.isDirectory hdir
  · rw [if_neg hother] at hfound
    exact hkeeps.isDirectory (h other found hfound)

namespace Files

variable {f : Files} {p : Path}

theorem closed_of_made (hclosed : f.tree.Closed) {made : Files} {mode : Nat}
    (h : f.makeDirectory p mode = .ok made) : made.tree.Closed := by
  obtain ⟨place, hplace, hnone, rfl⟩ := makeDirectory_eq_ok h
  have hne : place.loc ≠ [] := by simp [Tree.Place.loc]
  have hdir : f.tree.isDirectory place.loc.dropLast = true := by
    rw [Tree.Place.loc, List.dropLast_concat]
    exact (looksUp_of_placeOf hplace).isDirectory
  exact hclosed.put hne hnone hdir _

theorem closed_record (hclosed : f.tree.Closed) (log : Option LogFile) (level : Level)
    (message : String) : (LogFile.record log level message f).tree.Closed :=
  have hkeeps := keeps_record f log level message
  hclosed.of_keeps hkeeps.1.tree hkeeps.2.tree

/-- The root, and the names that a directory has for itself and for the one above it, are
directories. -/
theorem isDirectory_of_placeOf_eq_fileExists (hclosed : f.tree.Closed)
    (h : f.placeOf p = .error (.numbered .fileExists)) : f.isDirectory p = true := by
  obtain ⟨hcheck, hparent⟩ := placeOf_eq_fileExists_iff.1 h
  rcases Tree.walkToParent_eq_fileExists_iff.1 hparent with hnil | ⟨parent, last, hreach, hdots⟩
  · have habsolute := Path.isAbsolute_of_components_eq_nil hnil (checkPath_ne_nil hcheck)
    have hwalk : f.walkTo p.components p = .ok ⟨[], Tree.maxLinks⟩ := by
      rw [walkTo, hnil, Tree.walk_nil, Files.origin, Tree.origin, habsolute]
      rfl
    exact isDirectory_iff.2 ⟨hcheck, _, hwalk, rfl⟩
  · have hwalk : f.walkTo p.components p =
        f.tree.walk (f.allows .pass) true parent.left parent.loc [last] := by
      rw [walkTo, ← hreach.names_eq, Tree.walk_append, hreach.walk_eq]
      rfl
    rcases hdots with rfl | rfl
    · rw [Tree.walk_dot_cons _ _ _ hreach.isDirectory hreach.enter, Tree.walk_nil] at hwalk
      exact isDirectory_iff.2 ⟨hcheck, _, hwalk, hreach.isDirectory⟩
    · rw [Tree.walk_dotdot_cons _ _ _ hreach.isDirectory hreach.enter, Tree.walk_nil] at hwalk
      obtain ⟨mode, hmode⟩ := Tree.isDirectory_iff.1 hreach.isDirectory
      exact isDirectory_iff.2 ⟨hcheck, _, hwalk, hclosed _ _ hmode⟩

theorem obstructed_iff_obstacle (hclosed : f.tree.Closed) : f.Obstructed p ↔ f.Obstacle p := by
  constructor
  · rintro ⟨hexists, hlost⟩
    rcases makeDirectory_eq_fileExists_iff.1 hexists with hplace | ⟨place, node, hplace, hnode⟩
    · rw [isDirectory_of_placeOf_eq_fileExists hclosed hplace] at hlost
      cases hlost
    · by_cases hlink : ∃ target, node = .link target
      · obtain ⟨target, rfl⟩ := hlink
        refine .link hplace hnode fun fewer w hleft hwalk => ?_
        rw [Bool.eq_false_iff]
        intro hdir
        rw [(isDirectory_iff_of_link hplace hnode).2 ⟨fewer, w, hleft, hwalk, hdir⟩] at hlost
        cases hlost
      · have hlink : ∀ target, node ≠ .link target := not_exists.1 hlink
        exact .plain hplace hnode hlink ((isDirectory_of_node? hplace hnode hlink).symm.trans hlost)
  · rintro (⟨hplace, hnode, hlink, hkind⟩ | ⟨hplace, hnode, hlost⟩)
    · exact ⟨makeDirectory_eq_fileExists_iff.2 (.inr ⟨_, _, hplace, hnode⟩),
        (isDirectory_of_node? hplace hnode hlink).trans hkind⟩
    · refine ⟨makeDirectory_eq_fileExists_iff.2 (.inr ⟨_, _, hplace, hnode⟩), ?_⟩
      rw [Bool.eq_false_iff]
      intro hdir
      obtain ⟨fewer, w, hleft, hwalk, hloc⟩ := (isDirectory_iff_of_link hplace hnode).1 hdir
      rw [hlost fewer w hleft hwalk] at hloc
      cases hloc

end Files
end BootSequence
