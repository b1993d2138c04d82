import BootSequence.Tree.Files

/-!
Walks in a tree that grows. A walk goes name by name (`walk_append`), and one that arrives still
arrives, at the same location, after nodes have been put where nothing was and files have been
written to (`Keeps.walk`).
-/

namespace BootSequence

/-- A node without what a file holds and allows. -/
def Node.outline : Node → Node
  | .file _ _ => .file 0 []
  | .directory mode => .directory mode
  | .link target => .link target
  | .device mode => .device mode

namespace Tree

/-! ## One name -/

section Name

variable {t : Tree} {enter : Location → Bool} {dir : Location} {name : Name}

/-- A name is looked up where it stands for itself and the directory may be searched. -/
structure LooksUp (t : Tree) (enter : Location → Bool) (dir : Location) (name : Name) : Prop where
  isDirectory : t.isDirectory dir = true
  enter : enter dir = true
  ne_nil : name ≠ []
  ne_dot : name ≠ Path.dot
  ne_dotdot : name ≠ Path.dotdot
  short : name.length ≤ nameMax

variable (follow : Bool) (links : Nat) (rest : List Name)

theorem LooksUp.walk_cons (h : LooksUp t enter dir name) :
    t.walk enter follow links dir (name :: rest) =
      match t.node? (dir ++ [name]) with
      | none => .error .noEntry
      | some (.link target) =>
        if rest.isEmpty && !follow then .ok ⟨dir ++ [name], links⟩
        else
          match links with
          | 0 => .error .tooManyLinks
          | fewer + 1 => t.walk enter follow fewer (origin dir target) (target.names ++ rest)
      | some _ => t.walk enter follow links (dir ++ [name]) rest := by
  have hshort : ¬ nameMax < name.length := Nat.not_lt.2 h.short
  rw [walk]
  cases t.node? (dir ++ [name]) with
  | none => simp [h.isDirectory, h.enter, h.ne_nil, h.ne_dot, h.ne_dotdot, hshort]
  | some node =>
    cases node with
    | link target =>
      cases links <;> simp [h.isDirectory, h.enter, h.ne_nil, h.ne_dot, h.ne_dotdot, hshort]
    | directory | file | device =>
      simp [h.isDirectory, h.enter, h.ne_nil, h.ne_dot, h.ne_dotdot, hshort]

theorem walk_slash_cons (hdir : t.isDirectory dir = true) :
    t.walk enter follow links dir ([] :: rest) = t.walk enter follow links dir rest := by
  rw [walk]
  simp only [hdir, Bool.not_true, Bool.false_eq_true, if_false, if_true]

theorem walk_dot_cons (hdir : t.isDirectory dir = true) (henter : enter dir = true) :
    t.walk enter follow links dir (Path.dot :: rest) = t.walk enter follow links dir rest := by
  have hne : Path.dot ≠ [] := by decide
  rw [walk]
  simp only [hdir, henter, hne, Bool.not_true, Bool.false_eq_true, if_false, if_true]

theorem walk_dotdot_cons (hdir : t.isDirectory dir = true) (henter : enter dir = true) :
    t.walk enter follow links dir (Path.dotdot :: rest) =
      t.walk enter follow links dir.dropLast rest := by
  have hne : Path.dotdot ≠ [] := by decide
  have hne' : Path.dotdot ≠ Path.dot := by decide
  rw [walk]
  simp only [hdir, henter, hne, hne', Bool.not_true, Bool.false_eq_true, if_false, if_true]

@[simp] theorem walk_nil : t.walk enter follow links dir [] = .ok ⟨dir, links⟩ := by rw [walk]

end Name

/-! ## One walk behind another -/

section Walk

variable (t : Tree) (enter : Location → Bool) (follow : Bool) (links : Nat) (dir : Location)

/-- A walk that follows links to the end can be cut anywhere. -/
theorem walk_append (names more : List Name) :
    t.walk enter true links dir (names ++ more) =
      (t.walk enter true links dir names).bind fun w => t.walk enter true w.left w.loc more := by
  fun_induction walk t enter true links dir names <;>
    simp_all [walk, Except.bind, Nat.not_lt_of_le]

/-- A slash at the end changes nothing but that a directory must be there. -/
theorem walk_slash_eq_ok_iff {names : List Name} {w : Walked} :
    t.walk enter true links dir (names ++ [[]]) = .ok w ↔
      t.walk enter true links dir names = .ok w ∧ t.isDirectory w.loc = true := by
  rw [walk_append]
  cases t.walk enter true links dir names with
  | error e => simp [Except.bind]
  | ok w' =>
    by_cases hdir : t.isDirectory w'.loc = true
    · simp only [Except.bind, walk_slash_cons _ _ _ hdir, walk_nil, Except.ok.injEq]
      constructor
      · intro h
        subst h
        exact ⟨rfl, hdir⟩
      · exact fun h => h.1
    · have hstop : t.walk enter true w'.left w'.loc [[]] = .error .notDirectory := by
        rw [walk]
        simp [hdir]
      simp only [Except.bind, hstop, Except.ok.injEq]
      constructor
      · intro h
        cases h
      · rintro ⟨rfl, h⟩
        exact absurd h hdir

/-- That something stands in the way is never why a walk fails. -/
theorem walk_ne_fileExists (names : List Name) :
    t.walk enter follow links dir names ≠ .error .fileExists := by
  fun_induction walk t enter follow links dir names <;>
    simp_all [Errno.fileExists, Errno.notDirectory, Errno.permissionDenied, Errno.nameTooLong,
      Errno.noEntry, Errno.tooManyLinks]

end Walk

/-! ## The place where a path ends -/

section Parent

variable {t : Tree} {enter : Location → Bool} {links : Nat} {dir : Location} {names : List Name}

/-- A walk to the directory of the last name, which the rest of a path is about. -/
structure Reaches (t : Tree) (enter : Location → Bool) (links : Nat) (dir : Location)
    (names : List Name) (parent : Walked) (last : Name) : Prop where
  names_eq : names.dropLast ++ [last] = names
  walk_eq : t.walk enter true links dir names.dropLast = .ok parent
  isDirectory : t.isDirectory parent.loc = true
  enter : enter parent.loc = true

/-- Nothing can be made at the root, nor under the names of a directory itself and of the one above
it. -/
theorem walkToParent_of_reaches {parent : Walked} {last : Name}
    (h : t.Reaches enter links dir names parent last) :
    t.walkToParent enter links dir names =
      if last = Path.dot ∨ last = Path.dotdot then .error .fileExists
      else .ok ⟨parent.loc, last, parent.left⟩ := by
  have hlast : names.getLast? = some last := by
    rw [← h.names_eq, List.getLast?_concat]
  unfold walkToParent
  simp only [hlast, h.walk_eq, h.isDirectory, h.enter, Bool.not_true, Bool.false_eq_true, if_false]

theorem reaches_of_walkToParent {r : Except Errno Place}
    (h : t.walkToParent enter links dir names = r) (hne : names ≠ [])
    (hr : r = .error .fileExists ∨ ∃ place, r = .ok place) :
    ∃ parent last, t.Reaches enter links dir names parent last := by
  obtain ⟨last, hlast⟩ : ∃ last, names.getLast? = some last :=
    ⟨_, List.getLast?_eq_some_getLast hne⟩
  have hnames : names.dropLast ++ [last] = names := by
    obtain ⟨rest, hrest⟩ := List.getLast?_eq_some_iff.1 hlast
    rw [hrest, List.dropLast_concat]
  unfold walkToParent at h
  rw [hlast] at h
  cases hwalk : t.walk enter true links dir names.dropLast with
  | error e =>
    simp only [hwalk] at h
    rcases hr with hr | ⟨place, hr⟩
    · rw [hr] at h
      cases h
      exact absurd hwalk (walk_ne_fileExists t enter true links dir _)
    · rw [hr] at h
      cases h
  | ok parent =>
    simp only [hwalk] at h
    by_cases hdir : t.isDirectory parent.loc = true
    · by_cases hmay : enter parent.loc = true
      · exact ⟨parent, last, hnames, hwalk, hdir, hmay⟩
      · simp only [hdir, hmay, Bool.not_true, Bool.not_false, Bool.false_eq_true, if_false,
          if_true] at h
        rcases hr with hr | ⟨place, hr⟩ <;> rw [hr] at h <;> cases h
    · simp only [hdir, Bool.not_false, if_true] at h
      rcases hr with hr | ⟨place, hr⟩ <;> rw [hr] at h <;> cases h

theorem walkToParent_eq_ok_iff {place : Place} :
    t.walkToParent enter links dir names = .ok place ↔
      t.Reaches enter links dir names ⟨place.dir, place.left⟩ place.name ∧
        place.name ≠ Path.dot ∧ place.name ≠ Path.dotdot := by
  constructor
  · intro h
    have hne : names ≠ [] := by
      rintro rfl
      cases h
    obtain ⟨parent, last, hreach⟩ := reaches_of_walkToParent h hne (.inr ⟨place, rfl⟩)
    rw [walkToParent_of_reaches hreach] at h
    split at h
    · cases h
    · rename_i hplain
      cases h
      exact ⟨hreach, not_or.1 hplain⟩
  · rintro ⟨hreach, hdot, hdotdot⟩
    rw [walkToParent_of_reaches hreach, if_neg (not_or.2 ⟨hdot, hdotdot⟩)]

theorem walkToParent_eq_fileExists_iff :
    t.walkToParent enter links dir names = .error .fileExists ↔
      names = [] ∨ ∃ parent last, t.Reaches enter links dir names parent last ∧
        (last = Path.dot ∨ last = Path.dotdot) := by
  constructor
  · intro h
    by_cases hne : names = []
    · exact .inl hne
    · obtain ⟨parent, last, hreach⟩ := reaches_of_walkToParent h hne (.inl rfl)
      rw [walkToParent_of_reaches hreach] at h
      split at h
      · rename_i hdots
        exact .inr ⟨parent, last, hreach, hdots⟩
      · cases h
  · rintro (rfl | ⟨parent, last, hreach, hdots⟩)
    · rfl
    · rw [walkToParent_of_reaches hreach, if_pos hdots]

end Parent

/-! ## Trees that keep what another has -/

/-- Whatever stands in `t` stands in `t'`, except that a file may hold and allow something else. -/
def Keeps (t t' : Tree) : Prop :=
  ∀ loc node, t.node? loc = some node →
    ∃ node', t'.node? loc = some node' ∧ node'.outline = node.outline

theorem isDirectory_iff {t : Tree} {loc : Location} :
    t.isDirectory loc = true ↔ ∃ mode, t.node? loc = some (.directory mode) := by
  unfold isDirectory
  cases t.node? loc with
  | none => simp
  | some node => cases node <;> simp [Node.isDirectory]

namespace Keeps

variable {t t' : Tree}

theorem refl (t : Tree) : Keeps t t := fun _ node h => ⟨node, h, rfl⟩

theorem directory (h : Keeps t t') {loc : Location} {mode : Nat}
    (hloc : t.node? loc = some (.directory mode)) : t'.node? loc = some (.directory mode) := by
  obtain ⟨node', hnode', houtline⟩ := h loc _ hloc
  cases node' with
  | directory mode' => rw [hnode']; exact congrArg some houtline
  | file | link | device => cases houtline

theorem link (h : Keeps t t') {loc : Location} {target : Path}
    (hloc : t.node? loc = some (.link target)) : t'.node? loc = some (.link target) := by
  obtain ⟨node', hnode', houtline⟩ := h loc _ hloc
  cases node' with
  | link target' => rw [hnode']; exact congrArg some houtline
  | file | directory | device => cases houtline

theorem isDirectory (h : Keeps t t') {loc : Location} (hloc : t.isDirectory loc = true) :
    t'.isDirectory loc = true := by
  obtain ⟨mode, hmode⟩ := isDirectory_iff.1 hloc
  exact isDirectory_iff.2 ⟨mode, h.directory hmode⟩

theorem looksUp (h : Keeps t t') {enter enter' : Location → Bool}
    (henter : ∀ loc, t.isDirectory loc = true → enter loc = true → enter' loc = true)
    {dir : Location} {name : Name} (hl : LooksUp t enter dir name) : LooksUp t' enter' dir name :=
  { hl with
    isDirectory := h.isDirectory hl.isDirectory
    enter := henter dir hl.isDirectory hl.enter }

/-- A walk that arrives does so in every tree that keeps what this one has, if the directories that
it may search may still be searched. -/
theorem walk (h : Keeps t t') {enter enter' : Location → Bool}
    (henter : ∀ loc, t.isDirectory loc = true → enter loc = true → enter' loc = true)
    {follow : Bool} {links : Nat} {dir : Location} {names : List Name} {w : Walked}
    (hw : t.walk enter follow links dir names = .ok w) :
    t'.walk enter' follow links dir names = .ok w := by
  -- every name that `t` looks up is looked up by `t'` in the same directory
  have hlook : ∀ {dir name}, ¬ (!t.isDirectory dir) = true → ¬ (!enter dir) = true → name ≠ [] →
      name ≠ Path.dot → name ≠ Path.dotdot → ¬ nameMax < name.length →
      LooksUp t' enter' dir name := by
    intro dir name hdir hmay hnil hdot hdotdot hshort
    exact h.looksUp henter
      ⟨by simpa using hdir, by simpa using hmay, hnil, hdot, hdotdot, Nat.not_lt.1 hshort⟩
  fun_induction Tree.walk t enter follow links dir names with
  | case1 =>
    rw [walk_nil]
    exact hw
  | case2 => cases hw
  | case3 links dir rest hdir ih =>
    have hdir : t.isDirectory dir = true := by simpa using hdir
    rw [walk_slash_cons _ _ _ (h.isDirectory hdir)]
    exact ih hw
  | case4 => cases hw
  | case5 links dir rest hdir hmay hnil ih =>
    have hdir : t.isDirectory dir = true := by simpa using hdir
    have hmay : enter dir = true := by simpa using hmay
    rw [walk_dot_cons _ _ _ (h.isDirectory hdir) (henter dir hdir hmay)]
    exact ih hw
  | case6 links dir rest hdir hmay hnil hdot ih =>
    have hdir : t.isDirectory dir = true := by simpa using hdir
    have hmay : enter dir = true := by simpa using hmay
    rw [walk_dotdot_cons _ _ _ (h.isDirectory hdir) (henter dir hdir hmay)]
    exact ih hw
  | case7 => cases hw
  | case8 => cases hw
  | case9 links dir name rest hdir hnil hmay hdot hdotdot hshort target hnode hend =>
    rw [(hlook hdir hmay hnil hdot hdotdot hshort).walk_cons, h.link hnode]
    simp only [hend, if_true]
    exact hw
  | case10 => cases hw
  | case11 dir name rest hdir hnil hmay hdot hdotdot hshort target hnode hend fewer ih =>
    rw [(hlook hdir hmay hnil hdot hdotdot hshort).walk_cons, h.link hnode]
    simp only [hend, if_false, Bool.false_eq_true]
    exact ih hw
  | case12 links dir name rest hdir hnil hmay hdot hdotdot hshort node hlink hnode ih =>
    obtain ⟨node', hnode', houtline⟩ := h _ node hnode
    rw [(hlook hdir hmay hnil hdot hdotdot hshort).walk_cons, hnode']
    cases node' with
    | link target =>
      cases node with
      | link target' => exact absurd rfl (hlink target')
      | file | directory | device => cases houtline
    | file | directory | device => exact ih hw

theorem reaches (h : Keeps t t') {enter enter' : Location → Bool}
    (henter : ∀ loc, t.isDirectory loc = true → enter loc = true → enter' loc = true)
    {links : Nat} {dir : Location} {names : List Name} {parent : Walked} {last : Name}
    (hr : t.Reaches enter links dir names parent last) :
    t'.Reaches enter' links dir names parent last :=
  { hr with
    walk_eq := h.walk henter hr.walk_eq
    isDirectory := h.isDirectory hr.isDirectory
    enter := henter parent.loc hr.isDirectory hr.enter }

end Keeps

section Put

variable {t : Tree} {loc : Location}

theorem keeps_put {node : Node} (h : t.node? loc = none) : Keeps t (t.put loc node) := by
  intro other found hfound
  have hne : loc ≠ [] := by
    rintro rfl
    cases h
  have hother : other ≠ loc := by
    rintro rfl
    rw [h] at hfound
    cases hfound
  refine ⟨found, ?_, rfl⟩
  rw [node?_put t hne, if_neg hother]
  exact hfound

theorem keeps_put_file {mode : Nat} {content : Octets} (h : t.node? loc = some (.file mode content))
    (mode' : Nat) (content' : Octets) :
    Keeps t (t.put loc (.file mode' content')) ∧ Keeps (t.put loc (.file mode' content')) t := by
  have hne : loc ≠ [] := by
    rintro rfl
    cases h
  have hnode := node?_put t hne (.file mode' content')
  constructor
  · intro other found hfound
    by_cases hother : other = loc
    · subst hother
      rw [h] at hfound
      cases hfound
      exact ⟨.file mode' content', by rw [hnode, if_pos rfl], rfl⟩
    · exact ⟨found, by rw [hnode, if_neg hother, hfound], rfl⟩
  · intro other found hfound
    rw [hnode] at hfound
    by_cases hother : other = loc
    · subst hother
      rw [if_pos rfl] at hfound
      cases hfound
      exact ⟨.file mode content, h, rfl⟩
    · rw [if_neg hother] at hfound
      exact ⟨found, hfound, rfl⟩

end Put
end Tree
end BootSequence
