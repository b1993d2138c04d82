import BootSequence.Proofs.Mount.Live
import BootSequence.Proofs.Mount.Target
import BootSequence.Proofs.Steps
import BootSequence.Proofs.Supervisor.Order
import BootSequence.Proofs.Tree.Growth

/-!
What is left in the tree by all that can be done: mount points, and nothing else, as long as those
that launch and mount leave it alone (`only_mount_points`).
-/

namespace BootSequence

/-! ## Attempts -/

def Event.directory? : Event → Option Path
  | makeDirectory path => some path
  | _ => none

namespace Trace

/-- The directories that were asked for, in order, whatever came of it. -/
def directories (t : Trace) : List Path := t.filterMap Event.directory?

@[simp] theorem directories_append (s t : Trace) :
    directories (s ++ t) = directories s ++ directories t := List.filterMap_append

@[simp] theorem directories_children (notes : List Note) :
    directories (notes.map .child) = [] := by
  simp [directories, Event.directory?]

theorem directories_effects (t : Trace) : directories (effects t) = directories t := by
  rw [directories, directories, effects, List.filterMap_filter]
  congr 1
  funext e
  cases e <;> rfl

end Trace

section Growth

variable {σ : Type} {log : Option LogFile} {paths : List Path} {w w' : World σ} {t : Trace}

/-- The tree grows by attempts at the directories that are asked for; what is made is made at one of
these paths, or where a mount is asked for. -/
def GrowsAt (log : Option LogFile) (paths : List Path) (w : World σ) (t : Trace) (w' : World σ) :
    Prop :=
  ∃ new, Files.Grows log w.files t.directories new w'.files ∧
    ∀ p ∈ new.map Prod.fst, p ∈ paths ∨ ∃ e ∈ t.mounts, e.target = p

theorem growsAt_law (log : Option LogFile) (paths : List Path) :
    Action.Law log (GrowsAt (σ := σ) log paths) where
  nothing := fun w => ⟨[], .nothing w.files, nofun⟩
  record := fun level message w => ⟨[], .record w.files level message, nofun⟩
  followed := by
    rintro w w' w'' t t' ⟨new, hgrows, hpaths⟩ ⟨new', hgrows', hpaths'⟩
    refine ⟨new ++ new', ?_, ?_⟩
    · rw [Trace.directories_append]
      exact hgrows.next hgrows'
    · intro p hp
      rw [List.map_append, List.mem_append] at hp
      rw [Trace.mounts_append]
      rcases hp with hp | hp
      · exact (hpaths p hp).imp_right fun ⟨e, he, htarget⟩ =>
          ⟨e, List.mem_append_left _ he, htarget⟩
      · exact (hpaths' p hp).imp_right fun ⟨e, he, htarget⟩ =>
          ⟨e, List.mem_append_right _ he, htarget⟩

theorem growsAt_of_files_eq (hfiles : w'.files = w.files) (ht : t.directories = []) :
    GrowsAt log paths w t w' := by
  refine ⟨[], ?_, nofun⟩
  rw [hfiles, ht]
  exact .nothing w.files

end Growth

/-! ## Those that leave the tree alone -/

section Tame

variable {σ : Type}

def Launcher.Tame (launcher : Launcher σ) : Prop :=
  ∀ call w, (launcher call w).2.2.files = w.files

def Mounter.Tame (mounter : Mounter σ) : Prop := ∀ entry w, (mounter entry w).2.files = w.files

def Reaper.Tame (reaper : Reaper σ) : Prop := ∀ w, (reaper w).2.2.files = w.files

structure System.Tame (s : System σ) : Prop where
  launcher : s.launcher.Tame
  mounter : s.mounter.Tame
  /-- What a launcher leaves running may not touch the tree either. -/
  reaper : s.reaper.Tame

variable {log : Option LogFile} {paths : List Path}

theorem Launcher.Tame.obeys {launcher : Launcher σ} (h : launcher.Tame) (call : Call) :
    Action.Obeys log (GrowsAt log paths) (Action.launch launcher call) :=
  fun w => growsAt_of_files_eq (h call w) (Trace.directories_children _)

theorem Mounter.Tame.obeys {mounter : Mounter σ} (h : mounter.Tame) (entry : Mount.Entry) :
    Action.Obeys log (GrowsAt log paths) (Action.mount mounter entry) :=
  fun w => growsAt_of_files_eq (h entry w) rfl

theorem Reaper.Tame.obeys {reaper : Reaper σ} (h : reaper.Tame) :
    Action.Obeys log (GrowsAt log paths) (Action.collect reaper) :=
  fun w => growsAt_of_files_eq (h w) (Trace.directories_children _)

end Tame

namespace Mount

variable {σ : Type} {log : Option LogFile} {paths : List Path}

theorem ensureDir_of_failed {p : Path} {w : World σ} {fault : Fault}
    (h : (ensureDir p log w).value = .error fault) :
    ensureDir p log w = ⟨.error fault, [.makeDirectory p], w⟩ := by
  cases hmade : w.files.makeDirectory p mountPointMode with
  | ok made =>
    rw [ensureDir_of_ok log hmade] at h
    cases h
  | error cause =>
    by_cases hkind : cause.kind = .alreadyExists
    · rw [ensureDir_of_exists log hmade hkind] at h
      cases h
    · rw [ensureDir_of_error log hmade hkind] at h ⊢
      cases h
      rfl

/-- What is made is made at the end of the path, in a directory that is there already. -/
theorem grows_ensureDir (log : Option LogFile) (p : Path) (w : World σ) :
    ∃ new, Files.Grows log w.files [p] new (ensureDir p log w).world.files ∧
      ∀ q loc, (q, loc) ∈ new → ∃ place, w.files.placeOf p = .ok place ∧ place.loc = loc ∧
        w.files.tree.isDirectory place.dir = true := by
  cases hmade : w.files.makeDirectory p mountPointMode with
  | ok made =>
    obtain ⟨place, hplace, hparent, hgrows⟩ := Files.grows_of_makeDirectory log hmade
    rw [ensureDir_of_ok log hmade]
    refine ⟨_, hgrows.next (.record made _ _), fun q loc hmem => ?_⟩
    cases List.mem_singleton.1 hmem
    exact ⟨place, hplace, rfl, hparent⟩
  | error fault =>
    by_cases hkind : fault.kind = .alreadyExists
    · rw [ensureDir_of_exists log hmade hkind]
      exact ⟨_, (Files.Grows.vain w.files p).next (.record w.files _ _), nofun⟩
    · rw [ensureDir_of_error log hmade hkind]
      exact ⟨[], .vain w.files p, nofun⟩

theorem directories_ensureDir (p : Path) (w : World σ) :
    (ensureDir p log w).trace.directories = [p] := by
  rw [← Trace.directories_effects, effects_ensureDir]
  rfl

theorem growsAt_ensureDir {p : Path} (hp : p ∈ paths) :
    Action.Obeys (σ := σ) log (GrowsAt log paths) (ensureDir p) := by
  intro w
  obtain ⟨new, hgrows, -⟩ := grows_ensureDir log p w
  refine ⟨new, ?_, fun q hq => .inl ?_⟩
  · rw [directories_ensureDir]
    exact hgrows
  · rw [List.mem_singleton.1 (hgrows.sublist.subset hq)]
    exact hp

theorem made_ensureDir {p : Path} {w : World σ} {loc : Location} {node : Node}
    (hbefore : w.files.tree.node? loc = none)
    (hafter : (ensureDir p log w).world.files.tree.node? loc = some node) :
    ∃ place, w.files.placeOf p = .ok place ∧ place.loc = loc ∧
      w.files.tree.isDirectory place.dir = true := by
  obtain ⟨new, hgrows, hplaced⟩ := grows_ensureDir log p w
  obtain ⟨-, q, hq⟩ := hgrows.mountPointsOnly.made loc node hbefore hafter
  exact hplaced q loc hq

theorem makeDirectory_ensureDir {p : Path} {w : World σ} {status : DirStatus}
    (h : (ensureDir p log w).value = .ok status) :
    (ensureDir p log w).world.files.makeDirectory p mountPointMode =
      .error (.numbered .fileExists) := by
  rcases makeDirectory_of_ensureDir log h with ⟨made, hmade⟩ | hexists
  · rw [ensureDir_of_ok log hmade]
    refine (Files.keeps_record made log _ _).1.makeDirectory_fileExists ?_
    exact Files.makeDirectory_made hmade
  · rw [ensureDir_of_exists log hexists rfl]
    refine (Files.keeps_record w.files log _ _).1.makeDirectory_fileExists ?_
    exact hexists

/-- What has been made sure of is there for good. -/
theorem ensureDir_again {p : Path} {w w' : World σ} {status : DirStatus}
    (h : (ensureDir p log w).value = .ok status)
    (hkeeps : Files.Keeps (ensureDir p log w).world.files w'.files) :
    ∃ message, ensureDir p log w' = ⟨.ok .alreadyExists,
      [.makeDirectory p, .log .debug message], (Action.log .debug message log w').world⟩ :=
  ⟨_, ensureDir_of_exists log (hkeeps.makeDirectory_fileExists (makeDirectory_ensureDir h)) rfl⟩

section MountEntry

variable {mounter : Mounter σ}

theorem mountEntry_of_failed {e : Entry} {w : World σ} {fault : Fault}
    (h : (ensureDir e.target log w).value = .error fault) :
    mountEntry mounter e log w =
      ⟨.error (.mountPoint e.target fault), [.makeDirectory e.target], w⟩ := by
  rw [mountEntry_of_error log mounter h, ensureDir_of_failed h]

variable (htame : mounter.Tame)
include htame

/-- Where a mount point has been made, a mount is asked for. -/
theorem growsAt_mountEntry (e : Entry) :
    Action.Obeys log (GrowsAt log paths) (mountEntry mounter e) := by
  intro w
  cases h : (ensureDir e.target log w).value with
  | error fault =>
    rw [mountEntry_of_failed h]
    exact ⟨[], .vain w.files e.target, nofun⟩
  | ok status =>
    have hmem : e.target ∈ e.target :: paths := List.mem_cons_self
    obtain ⟨new, hgrows, hpaths⟩ :=
      obeys_mountEntry (growsAt_law log _) (growsAt_ensureDir hmem) (htame.obeys e) w
    -- Now that the mounter has been asked, the target need not be among the paths.
    refine ⟨new, hgrows, fun p hp => ?_⟩
    rcases hpaths p hp with hmem | hmount
    · rcases List.mem_cons.1 hmem with rfl | hmem
      · refine .inr ⟨e, ?_, rfl⟩
        rw [mounts_mountEntry log mounter h]
        exact List.mem_singleton.2 rfl
      · exact .inl hmem
    · exact .inr hmount

end MountEntry

/-- The error of a mount point tells that nothing has been done. -/
theorem world_of_mountPoint {mounter : Mounter σ} {e : Entry} {w : World σ} {target : Path}
    {fault : Fault} (h : (mountEntry mounter e log w).value = .error (.mountPoint target fault)) :
    (mountEntry mounter e log w).world = w ∧ e.target = target ∧
      (ensureDir target log w).value = .error fault := by
  cases hdir : (ensureDir e.target log w).value with
  | error cause =>
    rw [mountEntry_of_failed hdir] at h ⊢
    cases h
    exact ⟨rfl, rfl, hdir⟩
  | ok status =>
    cases hm : (mounter e (ensureDir e.target log w).world).1 with
    | error cause =>
      rw [mountEntry_of_refused log mounter hdir hm] at h
      cases h
    | ok u =>
      rw [mountEntry_of_accepted log mounter hdir hm] at h
      cases h

/-! ## Tables -/

/-- Nothing that is read of a table is the error of a mount point. -/
theorem Table.Cursor.next_ne_mountPoint {ρ : Type} [Reader ρ] {table target : Path} {fault : Fault}
    {f : Files} {c left : Table.Cursor ρ} :
    c.next table f ≠ (some (.error (.mountPoint target fault)), left) := by
  intro h
  rcases item_of_next table h with ⟨e, herror⟩ | ⟨number, line, hline⟩
  · cases herror
  · unfold lineItem at hline
    split at hline
    · cases hline
    · split at hline <;> cases hline

/-- Items that end with the error of a mount point: what the mounts before have left is left. -/
theorem ReadsItems.of_mountPoint {ρ : Type} [Reader ρ] {mounter : Mounter σ} {table : Path}
    {w : World σ} {c : Table.Cursor ρ} {items : List Table.Item} {target : Path} {fault : Fault}
    (h : ReadsItems mounter log table w c items)
    (hvalue : (mountEach mounter items log w).value = .error (.mountPoint target fault)) :
    ∃ done e, items = done.map .ok ++ [.ok e] ∧ e.target = target ∧
      Mounts mounter log w done (mountEach mounter items log w).world := by
  induction h with
  | ended next => cases hvalue
  | @bad w c left item error steps next bad =>
    rw [(mountEach_cons_of_bad bad []).1] at hvalue
    cases hvalue
    cases bad with
    | record => exact absurd next Table.Cursor.next_ne_mountPoint
    | @mountPoint e fault hdir =>
      have hfailed : mountEntry mounter e log w = _ := mountEntry_of_failed hdir
      refine ⟨[], e, rfl, rfl, ?_⟩
      rw [mountEach_cons_of_error (by rw [hfailed]) [], hfailed]
      exact .nil w
  | @mounted w c left e status items next hdir hacc rest ih =>
    obtain ⟨hlater, -, hworld⟩ := mountEach_cons_of_mounted hdir hacc items
    rw [hlater] at hvalue
    have hrest : (mountEach mounter items log (mountEntry mounter e log w).world).value =
        .error (.mountPoint target fault) := by
      cases hv : (mountEach mounter items log (mountEntry mounter e log w).world).value with
      | error error => simpa [hv, Except.map] using hvalue
      | ok n => simp [hv, Except.map] at hvalue
    obtain ⟨done, last, rfl, htarget, hmounts⟩ := ih hrest
    refine ⟨e :: done, last, rfl, htarget, ?_⟩
    rw [hworld]
    exact .cons hdir hacc hmounts

theorem mountAll_of_mountPoint {mounter : Mounter σ} {table : Path} {w : World σ} {target : Path}
    {fault : Fault} (h : (mountAll mounter table log w).value = .error (.mountPoint target fault)) :
    ∃ file done e, OpenFile.ofPath w.files table = .ok file ∧
      ReadsItems mounter log table w ⟨file, 0⟩ (done.map .ok ++ [.ok e]) ∧ e.target = target ∧
        Mounts mounter log w done (mountAll mounter table log w).world := by
  cases hopens : OpenFile.ofPath w.files table with
  | error cause =>
    rw [mountAll_of_unopened hopens] at h
    cases h
  | ok file =>
    obtain ⟨items, hitems⟩ := exists_readsItems mounter log table w (⟨file, 0⟩ : Table.Cursor _)
    rw [mountAll_of_opened hopens, mountItems_of_readsItems hitems] at h ⊢
    obtain ⟨done, e, rfl, htarget, hmounts⟩ := hitems.of_mountPoint h
    exact ⟨file, done, e, rfl, hitems, htarget, hmounts⟩

end Mount

/-! ## Steps of every kind -/

section Steps

variable {σ : Type}

/-- One thing that can be done. Each may have a launcher or mounter of its own. -/
inductive Step (σ : Type) where
  | ensureDir (path : Path)
  | mountEntry (mounter : Mounter σ) (entry : Mount.Entry)
  | mountTargeted (mounter : Mounter σ) (source : String) (target : Path) (fsType : String)
      (data : Option String)
  | mountAll (mounter : Mounter σ) (table : Path)
  | execute (i : Interpreter σ) (invocation : Invocation)
  | runFile (i : Interpreter σ) (path : Path)
  | runFeed (i : Interpreter σ) (path : Path) (feed : Feed)
  | runSource (i : Interpreter σ) (path : Path) (source : Source)
  | runCase (h : Harness σ) (name : String)
  | runList (h : Harness σ) (list : Path)
  | boot (s : System σ) (config : Config)

namespace Step

/-- What is done; the results are of no matter. -/
def act : Step σ → Action σ Unit
  | ensureDir path => do let _ ← Mount.ensureDir path
  | mountEntry mounter entry => do let _ ← Mount.mountEntry mounter entry
  | mountTargeted mounter source target fsType data => do
    let _ ← Mount.mountTargeted mounter source target fsType data
  | mountAll mounter table => do let _ ← Mount.mountAll mounter table
  | execute i invocation => do let _ ← i.execute invocation
  | runFile i path => do let _ ← i.runFile path
  | runFeed i path feed => do let _ ← i.runFeed path feed
  | runSource i path source => do let _ ← i.runReader path source 0
  | runCase h name => do let _ ← h.runCase name
  | runList h list => do let _ ← h.runList list
  | boot s config => do let _ ← Supervisor.run s config

def Tame : Step σ → Prop
  | ensureDir _ => True
  | mountEntry mounter _ | mountTargeted mounter _ _ _ _ | mountAll mounter _ => mounter.Tame
  | execute i _ | runFile i _ | runFeed i _ _ | runSource i _ _ => i.launcher.Tame
  | runCase h _ | runList h _ => h.launcher.Tame
  | boot s _ => s.Tame

/-- The directories that are asked for without a mount. -/
def asked : Step σ → List Path
  | ensureDir path => [path]
  | boot _ config => [config.procDir]
  | _ => []

variable {log : Option LogFile} {paths : List Path}

theorem Tame.obeys {step : Step σ} (h : step.Tame) (hasked : step.asked ⊆ paths) :
    Action.Obeys log (GrowsAt log paths) step.act := by
  have law : Action.Law (σ := σ) log (GrowsAt log paths) := growsAt_law log paths
  have hact : ∀ {α : Type} {x : Action σ α}, Action.Obeys log (GrowsAt log paths) x →
      Action.Obeys log (GrowsAt log paths) (do let _ ← x) :=
    fun hx => law.bind hx fun _ => law.pure _
  cases step with
  | ensureDir path => exact hact (Mount.growsAt_ensureDir (hasked List.mem_cons_self))
  | mountEntry mounter entry => exact hact (Mount.growsAt_mountEntry h entry)
  | mountTargeted mounter source target fsType data => exact hact (Mount.growsAt_mountEntry h _)
  | mountAll mounter table =>
    exact hact (Mount.obeys_mountAll law (Mount.growsAt_mountEntry h) table)
  | execute i invocation =>
    exact hact (Interpreter.obeys_execute law (fun call _ => Launcher.Tame.obeys h call) invocation)
  | runFile i path =>
    exact hact (Interpreter.obeys_runFile law (fun call _ => Launcher.Tame.obeys h call) path)
  | runFeed i path feed =>
    exact hact (Interpreter.obeys_runFeed law (fun call _ => Launcher.Tame.obeys h call) path feed)
  | runSource i path source =>
    exact hact (Interpreter.obeys_runReader law (fun call _ => Launcher.Tame.obeys h call) path
      source 0)
  | runCase h' name =>
    exact hact (Harness.obeys_runCase law (fun call _ => Launcher.Tame.obeys h call) name)
  | runList h' list =>
    exact hact (Harness.obeys_runList law (fun call _ => Launcher.Tame.obeys h call) list)
  | boot s config =>
    exact hact (Supervisor.obeys_run law (fun call _ => h.launcher.obeys call)
      (Mount.growsAt_ensureDir (hasked List.mem_cons_self)) (Mount.growsAt_mountEntry h.mounter)
      h.reaper.obeys)

def runAll (steps : List (Step σ)) : Action σ Unit := steps.forM act

theorem obeys_runAll {steps : List (Step σ)} (htame : ∀ step ∈ steps, step.Tame)
    (hasked : ∀ step ∈ steps, step.asked ⊆ paths) :
    Action.Obeys log (GrowsAt log paths) (runAll steps) := by
  have law : Action.Law (σ := σ) log (GrowsAt log paths) := growsAt_law log paths
  induction steps with
  | nil => exact law.pure ()
  | cons step steps ih =>
    have hfirst : Action.Obeys log (GrowsAt log paths) step.act :=
      (htame step List.mem_cons_self).obeys (hasked step List.mem_cons_self)
    have hrest := ih (fun step' hstep => htame step' (List.mem_cons_of_mem _ hstep))
      fun step' hstep => hasked step' (List.mem_cons_of_mem _ hstep)
    exact law.bind hfirst fun _ => hrest

end Step

/-- Whatever is done, in whatever order, nothing but mount points comes to be, and nothing is lost
or changed. What an attempt makes is the directory at the end of its path, in one that is there
already; an attempt that fails makes nothing, and one at what has been made sure of leaves a record
at most. -/
theorem only_mount_points (log : Option LogFile) :
    (∀ (steps : List (Step σ)) (w : World σ), (∀ step ∈ steps, step.Tame) →
      let ran := Step.runAll steps log w
      ∃ new, Files.Grows log w.files ran.trace.directories new ran.world.files ∧
        Files.MountPointsOnly log w.files ran.world.files new ∧
        (new.map Prod.fst).Sublist ran.trace.directories ∧
        ∀ p ∈ new.map Prod.fst,
          p ∈ steps.flatMap Step.asked ∨ ∃ e ∈ ran.trace.mounts, e.target = p) ∧
    (∀ (p : Path) (w : World σ) (loc : Location) (node : Node), w.files.tree.node? loc = none →
      (Mount.ensureDir p log w).world.files.tree.node? loc = some node →
      ∃ place, w.files.placeOf p = .ok place ∧ place.loc = loc ∧
        w.files.tree.isDirectory place.dir = true) ∧
    -- attempts that fail
    (∀ (p : Path) (w : World σ) (fault : Fault), (Mount.ensureDir p log w).value = .error fault →
      (Mount.ensureDir p log w).world = w) ∧
    (∀ (mounter : Mounter σ) (e : Mount.Entry) (w : World σ) (target : Path) (fault : Fault),
      (Mount.mountEntry mounter e log w).value = .error (.mountPoint target fault) →
      (Mount.mountEntry mounter e log w).world = w) ∧
    (∀ (mounter : Mounter σ) (source : String) (target : Path) (fsType : String)
      (data : Option String) (w : World σ) (target' : Path) (fault : Fault),
      (Mount.mountTargeted mounter source target fsType data log w).value =
        .error (.mountPoint target' fault) →
      (Mount.mountTargeted mounter source target fsType data log w).world = w) ∧
    (∀ (mounter : Mounter σ) (table : Path) (w : World σ) (target : Path) (fault : Fault),
      (Mount.mountAll mounter table log w).value = .error (.mountPoint target fault) →
      ∃ file done e, OpenFile.ofPath w.files table = .ok file ∧
        Mount.ReadsItems mounter log table w ⟨file, 0⟩ (done.map .ok ++ [.ok e]) ∧
        e.target = target ∧
        Mount.Mounts mounter log w done (Mount.mountAll mounter table log w).world) ∧
    -- another attempt, whatever has been done since
    ∀ (p : Path) (w : World σ) (status : Mount.DirStatus) (more : List (Step σ)),
      (Mount.ensureDir p log w).value = .ok status → (∀ step ∈ more, step.Tame) →
      let w' := (Step.runAll more log (Mount.ensureDir p log w).world).world
      ∃ message, Mount.ensureDir p log w' = ⟨.ok .alreadyExists,
        [.makeDirectory p, .log .debug message], (Action.log .debug message log w').world⟩ := by
  have hall : ∀ (steps : List (Step σ)) (w : World σ), (∀ step ∈ steps, step.Tame) →
      GrowsAt log (steps.flatMap Step.asked) w (Step.runAll steps log w).trace
        (Step.runAll steps log w).world := by
    intro steps w htame
    refine Step.obeys_runAll htame (fun step hstep p hp => ?_) w
    exact List.mem_flatMap.2 ⟨step, hstep, hp⟩
  refine ⟨fun steps w htame => ?_, fun p w loc node => Mount.made_ensureDir, fun p w fault h => ?_,
    fun mounter e w target fault h => (Mount.world_of_mountPoint h).1,
    fun mounter source target fsType data w target' fault h => (Mount.world_of_mountPoint h).1,
    fun mounter table w target fault => Mount.mountAll_of_mountPoint,
    fun p w status more hok htame => ?_⟩
  · obtain ⟨new, hgrows, hpaths⟩ := hall steps w htame
    exact ⟨new, hgrows, hgrows.mountPointsOnly, hgrows.sublist, hpaths⟩
  · rw [Mount.ensureDir_of_failed h]
  · obtain ⟨new, hgrows, -⟩ := hall more _ htame
    exact Mount.ensureDir_again hok hgrows.mountPointsOnly.keeps

end Steps

/-- The second mount point has no parent. -/
def parentlessTable : Octets := Octets.ofString "proc mnt proc\nx no/way x\n"

def parentlessWorld : World Unit :=
  ⟨⟨⟨[([.ofString "w"], .directory 0o777),
    ([.ofString "w", .ofString "fstab"], .file 0o644 parentlessTable)]⟩, [.ofString "w"], 0o022⟩, ()⟩

theorem tame_rehearsal (faults : List (String × Fault)) :
    (Rehearsal.mounter (σ := Unit) faults).Tame := by
  intro entry w
  unfold Rehearsal.mounter
  split <;> rfl

theorem tame_sampleSystem : Supervisor.sampleSystem.Tame :=
  ⟨fun _ _ => rfl, tame_rehearsal [], fun _ => rfl⟩

/-- The first mount point is made sure of before the table is worked through, and behind a boot. -/
theorem only_mount_points_without_parent :
    let mnt := Path.ofString "mnt"
    let far := Path.ofString "no/way"
    let fstab := Path.ofString "fstab"
    let mounter : Mounter Unit := Rehearsal.mounter []
    let w := parentlessWorld
    let made := Mount.ensureDir mnt none w
    let targeted := Mount.mountTargeted mounter "x" far "x" none none w
    let mounted := Mount.mountAll mounter fstab none w
    let more := [Step.mountAll mounter fstab,
      .boot Supervisor.sampleSystem Supervisor.sampleConfig]
    let left := (Step.runAll more none made.world).world
    (∀ step ∈ more, step.Tame) ∧ made.value = .ok .created ∧
      made.world.files.tree.node? [.ofString "w", .ofString "mnt"] = some (.directory 0o755) ∧
      targeted.value = .error (.mountPoint far (.numbered .noEntry)) ∧
      mounted.value = .error (.mountPoint far (.numbered .noEntry)) ∧
      (∃ new, Files.MountPointsOnly none made.world.files left.files new) ∧
      (∃ place, w.files.placeOf mnt = .ok place ∧
        place.loc = [.ofString "w", .ofString "mnt"]) ∧
      targeted.world = w ∧
      (∃ done, Mount.Mounts mounter none w done mounted.world) ∧
      ∃ message, Mount.ensureDir mnt none left =
        ⟨.ok .alreadyExists, [.makeDirectory mnt, .log .debug message], left⟩ := by
  have htargeted : (Mount.mountTargeted (Rehearsal.mounter []) "x" (.ofString "no/way") "x" none
      none parentlessWorld).value =
        .error (.mountPoint (.ofString "no/way") (.numbered .noEntry)) := by
    cbv
  have hmounted : (Mount.mountAll (Rehearsal.mounter []) (.ofString "fstab") none
      parentlessWorld).value = .error (.mountPoint (.ofString "no/way") (.numbered .noEntry)) := by
    have hnode : parentlessWorld.files.tree.node? [.ofString "w", .ofString "fstab"] =
        some (.file 0o644 parentlessTable) := by cbv
    have hlocated : parentlessWorld.files.openToRead (.ofString "fstab") =
        .ok [.ofString "w", .ofString "fstab"] := by cbv
    obtain ⟨hopens, hstays⟩ := (Mount.leftAlone_rehearsal [] _).opened hlocated hnode
    rw [Mount.mountAll_of_stays hopens hstays]
    cbv
  have hmade : (Mount.ensureDir (.ofString "mnt") none parentlessWorld).value = .ok .created := by
    cbv
  have hbefore : parentlessWorld.files.tree.node? [.ofString "w", .ofString "mnt"] = none := by cbv
  have hafter : (Mount.ensureDir (.ofString "mnt") none parentlessWorld).world.files.tree.node?
      [.ofString "w", .ofString "mnt"] = some (.directory 0o755) := by cbv
  intro mnt far fstab mounter w made targeted mounted more left
  have htame : ∀ step ∈ more, step.Tame := by
    intro step hstep
    simp only [more, List.mem_cons, List.not_mem_nil, or_false] at hstep
    rcases hstep with rfl | rfl
    · exact tame_rehearsal []
    · exact tame_sampleSystem
  obtain ⟨hall, hattempt, -, -, hfailed, htable, hagain⟩ := only_mount_points (σ := Unit) none
  obtain ⟨new, -, honly, -⟩ := hall more made.world htame
  obtain ⟨place, hplace, hloc, -⟩ := hattempt mnt w _ _ hbefore hafter
  obtain ⟨-, done, -, -, -, -, hmounts⟩ := htable mounter fstab w _ _ hmounted
  exact ⟨htame, hmade, hafter, htargeted, hmounted, ⟨new, honly⟩, ⟨place, hplace, hloc⟩,
    hfailed mounter "x" far "x" none w _ _ htargeted, ⟨done, hmounts⟩,
    hagain mnt w _ more hmade htame⟩

end BootSequence
