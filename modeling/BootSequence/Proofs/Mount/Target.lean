import BootSequence.Proofs.Mount.Live
import BootSequence.Supervisor
import Mathlib

/-!
What is mounted on. The mounter is asked where a directory is, or where something else was in the
way of making one (`asked_at_directories_or_obstacles`); the latter does happen
(`not_isDirectory_of_ensureDir`).
-/

namespace BootSequence
namespace Mount

variable {σ : Type}

/-! ## What has been made sure of -/

section EnsureDir

variable (log : Option LogFile) {w : World σ} {p : Path} {status : DirStatus}

theorem kind_eq_alreadyExists_iff {fault : Fault} :
    fault.kind = .alreadyExists ↔ fault = .numbered .fileExists := by
  cases fault with
  | unnumbered text => simp [Fault.kind]
  | numbered e =>
    have hne : Errno.permissionDenied ≠ Errno.fileExists := by decide
    by_cases he : e = .fileExists
    · subst he
      simp [Fault.kind, FaultKind.ofErrno, hne.symm]
    · have hkind : FaultKind.ofErrno e ≠ .alreadyExists := by
        unfold FaultKind.ofErrno
        intro h
        repeat' split at h
        all_goals cases h
      simp [Fault.kind, he, hkind]

theorem makeDirectory_of_ensureDir (h : (ensureDir p log w).value = .ok status) :
    (∃ made, w.files.makeDirectory p mountPointMode = .ok made) ∨
      w.files.makeDirectory p mountPointMode = .error (.numbered .fileExists) := by
  cases hmade : w.files.makeDirectory p mountPointMode with
  | ok made => exact .inl ⟨made, rfl⟩
  | error fault =>
    by_cases hkind : fault.kind = .alreadyExists
    · rw [kind_eq_alreadyExists_iff.1 hkind]
      exact .inr rfl
    · rw [ensureDir_of_error log hmade hkind] at h
      cases h

theorem isDirectory_ensureDir_of_made {made : Files}
    (hmade : w.files.makeDirectory p mountPointMode = .ok made) :
    (ensureDir p log w).world.files.isDirectory p = true := by
  rw [ensureDir_of_ok log hmade]
  exact (Files.isDirectory_record made log _ _ p).trans (Files.isDirectory_of_made hmade)

theorem isDirectory_ensureDir_of_exists
    (hexists : w.files.makeDirectory p mountPointMode = .error (.numbered .fileExists)) :
    (ensureDir p log w).world.files.isDirectory p = w.files.isDirectory p := by
  rw [ensureDir_of_exists log hexists rfl]
  exact Files.isDirectory_record w.files log _ _ p

theorem obstructed_ensureDir (h : w.files.Obstructed p) :
    (ensureDir p log w).world.files.Obstructed p := by
  rw [ensureDir_of_exists log h.1 rfl]
  exact h.record log _ _

theorem closed_ensureDir (hclosed : w.files.tree.Closed) :
    (ensureDir p log w).world.files.tree.Closed := by
  cases hmade : w.files.makeDirectory p mountPointMode with
  | ok made =>
    rw [ensureDir_of_ok log hmade]
    exact Files.closed_record (Files.closed_of_made hclosed hmade) log _ _
  | error fault =>
    by_cases hkind : fault.kind = .alreadyExists
    · rw [ensureDir_of_exists log hmade hkind]
      exact Files.closed_record hclosed log _ _
    · rw [ensureDir_of_error log hmade hkind]
      exact hclosed

/-- It is a directory, unless something else was in the way. -/
theorem isDirectory_ensureDir_iff (h : (ensureDir p log w).value = .ok status) :
    (ensureDir p log w).world.files.isDirectory p = true ↔ ¬ w.files.Obstructed p := by
  rcases makeDirectory_of_ensureDir log h with ⟨made, hmade⟩ | hexists
  · have hdir := isDirectory_ensureDir_of_made log hmade
    constructor
    · intro _ hobstructed
      cases hmade.symm.trans hobstructed.1
    · exact fun _ => hdir
  · rw [isDirectory_ensureDir_of_exists log hexists, Files.Obstructed, ← Bool.not_eq_true]
    simp [hexists]

end EnsureDir

theorem mounts_mountEntry (log : Option LogFile) (mounter : Mounter σ) {e : Entry} {w : World σ}
    {status : DirStatus} (h : (ensureDir e.target log w).value = .ok status) :
    (mountEntry mounter e log w).trace.mounts = [e] := by
  have hensure : (ensureDir e.target log w).trace.mounts = [] := by
    rw [← Trace.mounts_effects, effects_ensureDir]
    rfl
  cases hm : (mounter e (ensureDir e.target log w).world).1 with
  | ok u =>
    rw [mountEntry_of_accepted log mounter h hm, Trace.mounts_append, hensure]
    rfl
  | error fault =>
    rw [mountEntry_of_refused log mounter h hm, Trace.mounts_append, hensure]
    rfl

/-! ## Where the mounter is asked -/

/-- A mounter that answers differently in other cases makes no difference. -/
def AskedOnly {α : Type} (allowed : Entry → World σ → Prop) (act : Mounter σ → Action σ α) : Prop :=
  ∀ m m' : Mounter σ, (∀ e w, allowed e w → m e w = m' e w) → act m = act m'

/-- A directory is there to mount on, or something else was in its way. -/
def DirectoryOrObstructed (e : Entry) (w : World σ) : Prop :=
  w.files.isDirectory e.target = true ∨ w.files.Obstructed e.target

section Asked

theorem directoryOrObstructed_ensureDir (log : Option LogFile) {w : World σ} {e : Entry}
    {status : DirStatus} (h : (ensureDir e.target log w).value = .ok status) :
    DirectoryOrObstructed e (ensureDir e.target log w).world := by
  by_cases hobstructed : w.files.Obstructed e.target
  · exact .inr (obstructed_ensureDir log hobstructed)
  · exact .inl ((isDirectory_ensureDir_iff log h).2 hobstructed)

theorem askedOnly_mountEntry (e : Entry) :
    AskedOnly DirectoryOrObstructed fun m : Mounter σ => mountEntry m e := by
  intro m m' hagree
  funext log w
  cases h : (ensureDir e.target log w).value with
  | error fault =>
    dsimp only
    rw [mountEntry_of_error log m h, mountEntry_of_error log m' h]
  | ok status =>
    have hsame := hagree e _ (directoryOrObstructed_ensureDir log h)
    simp only [mountEntry, Action.bind_apply, h, Action.mount, hsame]

theorem askedOnly_mountItems {ρ : Type} [Reader ρ] (table : Path) (c : Table.Cursor ρ) :
    AskedOnly DirectoryOrObstructed fun m : Mounter σ => mountItems m table c := by
  intro m m' hagree
  induction c using @mountItems.induct ρ _ table with
  | case1 c ih =>
    have hentry : ∀ e, mountEntry m e = mountEntry m' e := fun e =>
      askedOnly_mountEntry e m m' hagree
    dsimp only
    rw [mountItems_eq, mountItems_eq]
    refine congrArg (Action.files >>= ·) (funext fun now => ?_)
    split
    · rfl
    · rfl
    · next entry left hnext =>
      have hrest : mountItems m table left = mountItems m' table left := ih now entry left hnext
      rw [hentry, hrest]

theorem askedOnly_mountAll (table : Path) :
    AskedOnly DirectoryOrObstructed fun m : Mounter σ => mountAll m table := by
  intro m m' hagree
  have hitems : ∀ file : OpenFile, mountItems m table ⟨file, 0⟩ = mountItems m' table ⟨file, 0⟩ :=
    fun file => askedOnly_mountItems table ⟨file, 0⟩ m m' hagree
  simp only [mountAll, hitems]

theorem askedOnly_run (launcher : Launcher σ) (reaper : Reaper σ) (config : Config) :
    AskedOnly DirectoryOrObstructed fun m : Mounter σ =>
      Supervisor.run ⟨launcher, m, reaper⟩ config := by
  intro m m' hagree
  have htable : Supervisor.mountTable ⟨launcher, m, reaper⟩ config =
      Supervisor.mountTable ⟨launcher, m', reaper⟩ config := by
    have hall : mountAll m config.fstab = mountAll m' config.fstab :=
      askedOnly_mountAll config.fstab m m' hagree
    simp only [Supervisor.mountTable, hall]
  simp only [Supervisor.run, htable]
  rfl

end Asked

/-- Mounts are asked for at directories and at obstacles. -/
theorem asked_at_directories_or_obstacles (log : Option LogFile) :
    -- what is there once a directory has been made sure of
    (∀ (w : World σ) (p : Path) (status : DirStatus), w.files.tree.Closed →
      (ensureDir p log w).value = .ok status →
        (ensureDir p log w).world.files.tree.Closed ∧
          ((ensureDir p log w).world.files.isDirectory p = true ↔ ¬ w.files.Obstacle p)) ∧
    -- where each of the callers asks
    (∀ e, AskedOnly DirectoryOrObstructed fun m : Mounter σ => mountEntry m e) ∧
    (∀ source target fsType data, AskedOnly DirectoryOrObstructed fun m : Mounter σ =>
      mountTargeted m source target fsType data) ∧
    (∀ table, AskedOnly DirectoryOrObstructed fun m : Mounter σ => mountAll m table) ∧
    (∀ launcher reaper config, AskedOnly DirectoryOrObstructed fun m : Mounter σ =>
      Supervisor.run ⟨launcher, m, reaper⟩ config) ∧
    (∀ (f : Files) (p : Path), f.tree.Closed → (f.Obstructed p ↔ f.Obstacle p)) ∧
    -- an obstacle does not keep the mounter from being asked
    (∀ (mounter : Mounter σ) (e : Entry) (w : World σ), w.files.tree.Closed →
      w.files.Obstacle e.target →
        (ensureDir e.target log w).world.files.isDirectory e.target = false ∧
          (mountEntry mounter e log w).trace.mounts = [e]) := by
  refine ⟨fun w p status hclosed h => ?_, askedOnly_mountEntry,
    fun source target fsType data => askedOnly_mountEntry _, askedOnly_mountAll, askedOnly_run,
    fun f p hclosed => Files.obstructed_iff_obstacle hclosed, fun mounter e w hclosed h => ?_⟩
  · refine ⟨closed_ensureDir log hclosed, ?_⟩
    rw [isDirectory_ensureDir_iff log h, Files.obstructed_iff_obstacle hclosed]
  · have hobstructed := (Files.obstructed_iff_obstacle hclosed).2 h
    have hensure := ensureDir_of_exists log hobstructed.1 rfl
    have hok : (ensureDir e.target log w).value = .ok .alreadyExists := by rw [hensure]
    exact ⟨(obstructed_ensureDir log hobstructed).2, mounts_mountEntry log mounter hok⟩

/-- Where something is to be mounted there is a file. -/
def obstructedWorld : World Unit :=
  ⟨⟨⟨[([.ofString "w"], .directory 0o777), ([.ofString "w", .ofString "proc"], .file 0o644 [])]⟩,
    [.ofString "w"], 0o022⟩, ()⟩

theorem closed_obstructedWorld : obstructedWorld.files.tree.Closed := by
  apply Tree.closed_of_forall_mem
  intro x hx
  simp only [obstructedWorld, List.mem_cons, List.not_mem_nil, or_false] at hx
  rcases hx with rfl | rfl <;> cbv

theorem obstacle_obstructedWorld : obstructedWorld.files.Obstacle (.ofString "proc") := by
  have hplace : obstructedWorld.files.placeOf (.ofString "proc") =
      .ok ⟨[.ofString "w"], .ofString "proc", Tree.maxLinks⟩ := by cbv
  have hnode : obstructedWorld.files.tree.node? [.ofString "w", .ofString "proc"] =
      some (.file 0o644 []) := by cbv
  exact .plain hplace hnode (fun _ h => by cases h) rfl

/-- The file is mounted on; a directory made beside it is one. -/
theorem asked_at_the_file :
    let e : Entry := ⟨"proc", .ofString "proc", "proc", .magic, none⟩
    (ensureDir (.ofString "sys") none obstructedWorld).value = .ok .created ∧
      ¬ obstructedWorld.files.Obstacle (.ofString "sys") ∧
      (mountEntry (Rehearsal.mounter []) e none obstructedWorld).trace.mounts = [e] := by
  intro e
  have hasked := asked_at_directories_or_obstacles (σ := Unit) none
  have hmade : (ensureDir (.ofString "sys") none obstructedWorld).value = .ok .created := by cbv
  have hdir : (ensureDir (.ofString "sys") none obstructedWorld).world.files.isDirectory
      (.ofString "sys") = true := by cbv
  have hiff := hasked.1 obstructedWorld (.ofString "sys") .created closed_obstructedWorld hmade
  have hfile := hasked.2.2.2.2.2.2 (Rehearsal.mounter []) e obstructedWorld closed_obstructedWorld
    obstacle_obstructedWorld
  exact ⟨hmade, hiff.2.1 hdir, hfile.2⟩

/-- That its path is there does not make a directory. -/
theorem not_isDirectory_of_ensureDir :
    ¬ ∀ (w : World Unit) (p : Path) (status : DirStatus), w.files.tree.Closed →
      (ensureDir p none w).value = .ok status →
        (ensureDir p none w).world.files.isDirectory p = true := by
  intro h
  have hok : (ensureDir (.ofString "proc") none obstructedWorld).value = .ok .alreadyExists := by
    cbv
  have hdir := h obstructedWorld (.ofString "proc") _ closed_obstructedWorld hok
  have hfile : (ensureDir (.ofString "proc") none obstructedWorld).world.files.isDirectory
      (.ofString "proc") = false := by cbv
  rw [hfile] at hdir
  cases hdir

end Mount
end BootSequence
