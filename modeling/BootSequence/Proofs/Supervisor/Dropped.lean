import BootSequence.Proofs.Script.Composition
import BootSequence.Proofs.Supervisor.Bound

/-!
Telling of words that are dropped. The words of a line are counted in front of its launch. Those of
a service are counted when the boot is configured, and the count is lost: the boot is the same
whatever it was (`only_scripts_tell`).
-/

namespace BootSequence

open Script

/-! ## Parts of a boot -/

/-- A command line, and what is seen of it in a boot. -/
structure Part where
  words : List String
  events : Trace

namespace Part

def dropped (maxArgs : Nat) (p : Part) : Nat := p.words.length - Invocation.room maxArgs

def notice (maxArgs dropped : Nat) : String :=
  s!"dropped {dropped} token(s) beyond {maxArgs} arguments"

/-- A record in front of the launch says that so many words were dropped, wherever that was. -/
def Tells (maxArgs dropped : Nat) (p : Part) : Prop :=
  ∃ level place, .log level (place ++ notice maxArgs dropped) ∈
    p.events.takeWhile (·.call?.isNone)

def ofPassage (path : Path) (maxArgs : Nat) (p : Passage) : Part := ⟨p.words, p.events path maxArgs⟩

theorem tells_ofPassage (path : Path) {maxArgs : Nat} {p : Passage} (h : 0 < p.dropped maxArgs) :
    (ofPassage path maxArgs p).Tells maxArgs (p.dropped maxArgs) := by
  refine ⟨.warn, s!"{path.display}:{p.number}: ", ?_⟩
  rw [ofPassage, Passage.events, Passage.warning, if_pos h]
  exact List.mem_cons_self

variable {σ : Type} (i : Interpreter σ)

def ofService (words : List String) (fate : Fate) : Part :=
  ⟨words, .log .info s!"starting {(Stage.service (i.kept words)).display}" :: fate.events⟩

/-! ## Services -/

theorem getLast?_append {front rear : String} {c : Char} (h : rear.toList.getLast? = some c) :
    (front ++ rear).toList.getLast? = some c := by
  rw [String.toList_append, List.getLast?_append, h]
  rfl

theorem getLast?_notice (place : String) (maxArgs dropped : Nat) :
    (place ++ notice maxArgs dropped).toList.getLast? = some 's' :=
  getLast?_append (getLast?_append rfl)

theorem getLast?_message (e : NameError) : ∃ c, c ≠ 's' ∧ e.message.toList.getLast? = some c := by
  cases e with
  | empty => exact ⟨'e', by decide, rfl⟩
  | nameTooLong n => exact ⟨'5', by decide, getLast?_append rfl⟩
  | pathTooLong n => exact ⟨'5', by decide, getLast?_append rfl⟩

theorem not_tells_ofService (words : List String) (fate : Fate) (maxArgs dropped : Nat) :
    ¬(ofService i words fate).Tells maxArgs dropped := by
  rintro ⟨level, place, h⟩
  -- A name or an argument may spell the notice, so only the ends of the records tell them apart.
  have hnotice := getLast?_notice place maxArgs dropped
  have hdiffers : ∀ {message : String} {c : Char}, message.toList.getLast? = some c → c ≠ 's' →
      place ++ notice maxArgs dropped ≠ message := by
    rintro message c hlast hc rfl
    exact hc (Option.some.inj (hlast.symm.trans hnotice))
  have hstart : place ++ notice maxArgs dropped ≠
      s!"starting {(Stage.service (i.kept words)).display}" :=
    hdiffers (getLast?_append (getLast?_append rfl)) (by decide : '`' ≠ 's')
  cases fate with
  | blank =>
    simp [ofService, Fate.events, Event.call?, hstart] at h
  | unresolved name e =>
    obtain ⟨c, hc, hlast⟩ := getLast?_message e
    have hrecord : place ++ notice maxArgs dropped ≠ s!"cannot resolve `{name}`: {e.message}" :=
      hdiffers (getLast?_append hlast) hc
    simp [ofService, Fate.events, Event.call?, hstart, hrecord] at h
  | launched call reply =>
    have hrecord : place ++ notice maxArgs dropped ≠ s!"[{call.command.name}] ..." :=
      hdiffers (getLast?_append rfl) (by decide : '.' ≠ 's')
    simp [ofService, Fate.events, Event.call?, Fate.opening, hstart, hrecord] at h

end Part

/-! ## Services one after another -/

section Services

variable {σ : Type} (i : Interpreter σ) (log : Option LogFile)

/-- The words of services are run in turn, each in the world that the one before has left. -/
inductive Serves : World σ → List (List String) → List Fate → World σ → Prop where
  | nil (w : World σ) : Serves w [] [] w
  | cons {w w' w'' : World σ} {words : List String} {fate : Fate} {rest : List (List String)}
      {fates : List Fate}
      (meets : Meets i log (Supervisor.begun log (.service (i.kept words)) w) words fate w')
      (behind : Serves w' rest fates w'') : Serves w (words :: rest) (fate :: fates) w''

variable {i log} in
theorem Serves.map_words {w w' : World σ} {lines : List (List String)} {fates : List Fate}
    (h : Serves i log w lines fates w') :
    (List.zipWith (Part.ofService i) lines fates).map Part.words = lines := by
  induction h with
  | nil => rfl
  | cons meets behind ih => exact congrArg (_ :: ·) ih

theorem runStages_serves (lines : List (List String)) (w : World σ) :
    let ran := Supervisor.runStages i (lines.map fun words => .service (i.kept words)) log w
    ∃ fates, Serves i log w lines fates ran.world ∧
      ran.trace.own = (List.zipWith (Part.ofService i) lines fates).flatMap Part.events := by
  induction lines generalizing w with
  | nil => exact ⟨[], .nil w, rfl⟩
  | cons words lines ih =>
    obtain ⟨fate, hmeets, hown, -⟩ :=
      i.execute_meets log words (Supervisor.begun log (.service (i.kept words)) w)
    obtain ⟨fates, hserves, hrest⟩ := ih (i.execute (i.kept words) log
      (Supervisor.begun log (.service (i.kept words)) w)).world
    refine ⟨fate :: fates, ?_, ?_⟩
    · simp only [List.map_cons, Supervisor.runStages, Action.world_bind, Action.pure_apply,
        i.runStage_service]
      exact .cons hmeets hserves
    · simp only [List.map_cons, Supervisor.runStages, Action.trace_bind, Action.pure_apply,
        Action.log_apply, i.runStage_service, List.append_nil, List.cons_append, List.nil_append,
        Trace.own_append, Trace.own_log]
      exact congrArg₂ (fun first rest => _ :: (first ++ rest)) hown hrest

theorem runStages_services_congr {invocations invocations' : List Invocation}
    (h : List.Forall₂ (fun a b => a.argv = b.argv) invocations invocations') :
    Supervisor.runStages i (invocations.map .service) =
      Supervisor.runStages i (invocations'.map .service) := by
  induction h with
  | nil => rfl
  | @cons a b rest rest' hargv hrest ih =>
    have hdisplay : (Stage.service a).display = (Stage.service b).display := by
      rw [Stage.display, Stage.display, Invocation.display, Invocation.display, hargv]
    simp only [List.map_cons, Supervisor.runStages, Supervisor.runStage, i.execute_congr hargv,
      hdisplay, ih]

end Services

/-! ## Boots -/

namespace Program.Init.Options

/-- The services that are not blank, by their words. -/
def sayings (o : Options) : List (List String) :=
  (o.commandLines.map Invocation.tokens).filter (!·.isEmpty)

theorem mem_sayings_iff {o : Options} {words : List String} :
    words ∈ o.sayings ↔ words ≠ [] ∧ ∃ c ∈ o.commandLines, Invocation.tokens c = words := by
  simp [sayings, and_comm]

end Program.Init.Options

namespace Supervisor

open Program.Init (Options)

variable {σ : Type} (s : System σ)

theorem serviceStages_eq (o : Options) :
    o.serviceStages = o.sayings.map fun words => .service ((interpreter s o.config).kept words) := by
  rw [Options.serviceStages, Options.invocations, Options.sayings, List.filter_map, List.map_map,
    List.map_map]
  rfl

/-- A boot, cut at its command lines: the lines that are read of its script, and its services. -/
structure Cut (o : Options) (log : Option LogFile) (w : World σ) (lines : List Octets)
    (scripts services : List Part) : Prop where
  passed : ∃ passages opened left,
    Passes (interpreter s o.config) o.scriptPath log opened 0
      (lines.map fun line => Invocation.tokens line.lossy) passages left ∧
    scripts = passages.map (Part.ofPassage o.scriptPath o.config.maxArgs)
  served : ∃ fates left,
    Serves (interpreter s o.config) log
      (runStages (interpreter s o.config) o.scriptStages log
        (mountedWorld s.mounter o.config log w)).world o.sayings fates left ∧
    services = List.zipWith (Part.ofService (interpreter s o.config)) o.sayings fates
  own_eq : ∃ before between behind, Trace.calls (before ++ between ++ behind) = [] ∧
    (run s o.config log w).trace.own = before ++ scripts.flatMap Part.events ++ between ++
      services.flatMap Part.events ++ behind

theorem exists_cut {o : Options} {log : Option LogFile} {w : World σ} {lines : List Octets}
    {failure : Option Script.Error} (h : ReadsLines s o log w lines failure) :
    ∃ scripts services, Cut s o log w lines scripts services := by
  have hlog : Unseen (fun _ : World σ => ()) log := fun _ _ _ => rfl
  obtain ⟨opened, -, -, ⟨front, rear, hscript, hfront, hrear⟩, -⟩ := runStages_scriptStages s hlog h
  obtain ⟨passages, hpassed, -⟩ :=
    (interpreter s o.config).runEach_passed o.scriptPath log 0 lines opened
  obtain ⟨fates, hserves, hservices⟩ := runStages_serves (interpreter s o.config) log o.sayings
    (runStages (interpreter s o.config) o.scriptStages log
      (mountedWorld s.mounter o.config log w)).world
  obtain ⟨first, last, hrun, hfirst, hlast⟩ := around_run s o.config log w
  refine ⟨passages.map (Part.ofPassage o.scriptPath o.config.maxArgs),
    List.zipWith (Part.ofService (interpreter s o.config)) o.sayings fates,
    ⟨passages, opened, _, hpassed.passes, rfl⟩, ⟨fates, _, hserves, rfl⟩,
    (first ++ front).own, rear.own, last.own, ?_, ?_⟩
  · simp only [Trace.calls_append, Trace.calls_own, hfirst, hfront, hrear, hlast, List.append_nil]
  · rw [hrun, Options.stages_config, runStages_append, serviceStages_eq]
    simp only [Action.trace_bind, Action.pure_apply, List.append_nil, Trace.own_append]
    rw [hservices, hscript]
    simp only [Trace.own_append, hpassed.own_eq, List.flatMap_map, List.append_assoc]
    rfl

variable {s} {o : Options} {log : Option LogFile} {w : World σ} {lines : List Octets}
  {scripts services : List Part}

theorem Cut.scripts_tell (h : Cut s o log w lines scripts services) {p : Part} (hp : p ∈ scripts)
    (hlong : o.config.maxArgs + 1 < p.words.length) :
    p.Tells o.config.maxArgs (p.dropped o.config.maxArgs) := by
  obtain ⟨passages, -, -, -, rfl⟩ := h.passed
  obtain ⟨passage, -, rfl⟩ := List.mem_map.1 hp
  exact Part.tells_ofPassage _
    (Nat.sub_pos_of_lt (Nat.lt_of_le_of_lt (Invocation.room_le o.config.maxArgs) hlong))

theorem Cut.services_tell_nothing (h : Cut s o log w lines scripts services) {p : Part}
    (hp : p ∈ services) (dropped : Nat) : ¬p.Tells o.config.maxArgs dropped := by
  obtain ⟨fates, -, -, rfl⟩ := h.served
  obtain ⟨n, hn, rfl⟩ := List.mem_iff_getElem.1 hp
  rw [List.getElem_zipWith]
  exact Part.not_tells_ofService _ _ _ _ _

theorem Cut.words_scripts (h : Cut s o log w lines scripts services) :
    scripts.map Part.words = lines.map fun line => Invocation.tokens line.lossy := by
  obtain ⟨passages, opened, left, hpasses, rfl⟩ := h.passed
  rw [← hpasses.map_words, List.map_map]
  rfl

theorem Cut.words_services (h : Cut s o log w lines scripts services) :
    services.map Part.words = o.sayings := by
  obtain ⟨fates, left, hserves, rfl⟩ := h.served
  exact hserves.map_words

theorem Cut.all_tell_iff (h : Cut s o log w lines scripts services) :
    (∀ p ∈ scripts ++ services, o.config.maxArgs + 1 < p.words.length →
      p.Tells o.config.maxArgs (p.dropped o.config.maxArgs)) ↔
    ∀ c ∈ o.commandLines, (Invocation.tokens c).length ≤ o.config.maxArgs + 1 := by
  have hwords := h.words_services
  constructor
  · intro hall c hc
    by_contra hlong
    have hne : Invocation.tokens c ≠ [] := by
      intro hnil
      rw [hnil, List.length_nil] at hlong
      omega
    have hsaid : Invocation.tokens c ∈ services.map Part.words := by
      rw [hwords, Options.mem_sayings_iff]
      exact ⟨hne, c, hc, rfl⟩
    obtain ⟨p, hp, hpc⟩ := List.mem_map.1 hsaid
    rw [← hpc] at hlong
    exact h.services_tell_nothing hp _ (hall p (List.mem_append_right _ hp) (Nat.not_le.1 hlong))
  · intro hshort p hp hlong
    rcases List.mem_append.1 hp with hp | hp
    · exact h.scripts_tell hp hlong
    · have hsaid : p.words ∈ o.sayings := hwords ▸ List.mem_map_of_mem hp
      obtain ⟨-, c, hc, hpc⟩ := Options.mem_sayings_iff.1 hsaid
      have := hshort c hc
      rw [hpc] at this
      omega

theorem run_congr {config : Config} {stages : List Stage}
    (h : runStages (interpreter s config) stages = runStages (interpreter s config) config.stages) :
    run s { config with stages := stages } = run s config := by
  have hrun : run s { config with stages := stages } = (do
      let procDir ← prepareProcDir config
      let mounted ← mountTable s config
      Action.log .info "mount phase done"
      let outcomes ← runStages (interpreter s config) stages
      let reaped ← reaping s.reaper config
      Action.log .info "init sequence finished"
      return ⟨procDir, mounted, outcomes, reaped⟩) := run_eq_bind s _
  rw [hrun, h, ← run_eq_bind]

theorem run_of_sameLines {services' : List String}
    (h : List.Forall₂ (SameLine o.config.maxArgs) o.commandLines
      { o with services := services' }.commandLines) :
    run s { o with services := services' }.config = run s o.config := by
  let o' : Options := { o with services := services' }
  show run s { o.config with stages := o'.config.stages } = _
  refine run_congr ?_
  rw [Options.stages_config, Options.stages_config, runStages_append, runStages_append]
  have hservices := runStages_services_congr (interpreter s o.config) (sameLine_invocations h)
  have hsame : runStages (interpreter s o.config) o'.serviceStages =
      runStages (interpreter s o.config) o.serviceStages := hservices.symm
  rw [hsame]
  rfl

/-- A script tells of every word that is dropped of a line, before the line is launched. Services
tell of none: their boot is the same as if none had been dropped, so that all overlong command lines
are told of just in case none of them is a service. -/
theorem only_scripts_tell (s : System σ) (o : Options) (log : Option LogFile) (w : World σ) :
    let maxArgs := o.config.maxArgs
    (∃ lines failure, ReadsLines s o log w lines failure) ∧
    (∀ lines failure, ReadsLines s o log w lines failure → ∃ scripts services,
      Cut s o log w lines scripts services ∧
      (∀ p ∈ scripts, maxArgs + 1 < p.words.length → p.Tells maxArgs (p.dropped maxArgs)) ∧
      (∀ p ∈ services, ∀ dropped, ¬p.Tells maxArgs dropped) ∧
      ((∀ p ∈ scripts ++ services, maxArgs + 1 < p.words.length →
          p.Tells maxArgs (p.dropped maxArgs)) ↔
        ∀ c ∈ o.commandLines, (Invocation.tokens c).length ≤ maxArgs + 1)) ∧
    ∀ services', let o' : Options := { o with services := services' }
      List.Forall₂ (SameLine maxArgs) o.commandLines o'.commandLines →
        run s o'.config log w = run s o.config log w := by
  refine ⟨exists_readsLines s o log w, fun lines failure hreads => ?_, fun services' hsame => ?_⟩
  · obtain ⟨scripts, services, hcut⟩ := exists_cut s hreads
    exact ⟨scripts, services, hcut, fun p => hcut.scripts_tell, fun p => hcut.services_tell_nothing,
      hcut.all_tell_iff⟩
  · rw [run_of_sameLines hsame]

/-- A script and a service, each with a word too many. -/
theorem only_scripts_tell_sample :
    let o := sampleOptions ["a b c"]
    let script := Octets.ofString "x y z\n"
    let boot := run countingSystem o.config none (scriptWorld script)
    ReadsLines countingSystem o none (scriptWorld script) [script] none ∧
      (∃ scripts services, Cut countingSystem o none (scriptWorld script) [script] scripts services ∧
        (∃ p ∈ scripts, p.words = ["x", "y", "z"] ∧ p.Tells 1 1) ∧
        ∃ p ∈ services, p.words = ["a", "b", "c"] ∧ ¬p.Tells 1 1) ∧
      run countingSystem (sampleOptions ["a\tb d e"]).config none (scriptWorld script) = boot := by
  intro o script boot
  have hreads : ReadsLines countingSystem o none (scriptWorld script) [script] none :=
    readsLines_scriptWorld ["a b c"] script
  obtain ⟨-, hboot, hsame⟩ := only_scripts_tell countingSystem o none (scriptWorld script)
  obtain ⟨scripts, services, hcut, hscripts, hservices, -⟩ := hboot [script] none hreads
  have hscript : ["x", "y", "z"] ∈ scripts.map Part.words := by
    rw [hcut.words_scripts]
    decide
  have hservice : ["a", "b", "c"] ∈ services.map Part.words := by
    rw [hcut.words_services]
    decide
  refine ⟨hreads, ⟨scripts, services, hcut, ?_, ?_⟩, hsame ["a\tb d e"] ?_⟩
  · obtain ⟨p, hp, hwords⟩ := List.mem_map.1 hscript
    have htells := hscripts p hp (by rw [hwords]; decide)
    rw [Part.dropped, hwords] at htells
    exact ⟨p, hp, hwords, htells⟩
  · obtain ⟨p, hp, hwords⟩ := List.mem_map.1 hservice
    exact ⟨p, hp, hwords, hservices p hp 1⟩
  · exact .cons ⟨by decide, by decide, by decide⟩ .nil

/-- A boot of no script and one service, of which a word is dropped. -/
def shortened : Options :=
  { noScript := true, services := ["a b c"], fstab := some (.ofString "fstab"),
    procDir := some (.ofString "proc"), maxArgs := some 1 }

theorem mountPhase_shortened :
    mountPhase sampleSystem.mounter shortened.config none sampleWorld = [
      .makeDirectory (.ofString "proc"), .log .info "mkdir proc ok!",
      .log .error "can't read 'fstab': No such file or directory (os error 2)"] := by
  let made := Mount.ensureDir (.ofString "proc") none sampleWorld
  let table := Mount.mountAll sampleSystem.mounter (.ofString "fstab") none made.world
  have hprocDir : shortened.config.procDir = .ofString "proc" := rfl
  have hfstab : shortened.config.fstab = .ofString "fstab" := rfl
  have hmade : made.trace = [.makeDirectory (.ofString "proc"), .log .info "mkdir proc ok!"] := by
    cbv
  have hcreated : made.value = .ok .created := by cbv
  have hworld : made.world =
      ⟨⟨⟨[([.ofString "w", .ofString "proc"], .directory 0o755),
        ([.ofString "w"], .directory 0o777)]⟩, [.ofString "w"], 0o022⟩, ()⟩ := by cbv
  have htable : table.trace = [] ∧
      table.value = .error (.cannotOpen (.ofString "fstab") (.numbered .noEntry)) := by
    unfold table
    rw [hworld]
    constructor <;> cbv
  rw [mountPhase, procDirTrace, tableTrace, procDirWorld_none, hprocDir, hfstab, hmade, hcreated,
    htable.1, htable.2]
  decide

theorem execute_shortened (w : World Unit) :
    ((interpreter sampleSystem shortened.config).execute ⟨["a", "b"], 1⟩ none w).trace = [
      .log .info "[a] ...", .launch ⟨⟨"a", .ofString "/sbin/a"⟩, ["b"]⟩, .log .info "[a] ok!"] := by
  have hresolve : Command.resolve "a" (interpreter sampleSystem shortened.config).searchDir =
      .ok ⟨"a", .ofString "/sbin/a"⟩ := by decide
  have hopening : ∀ name, name = "a" → s!"[{name}] ..." = "[a] ..." := by
    rintro _ rfl
    decide
  have hclosing : Interpreter.closing "a" (.ok (.exited 0)) = .log .info "[a] ok!" := by decide
  rw [Interpreter.execute_of_ok _ rfl hresolve, Action.trace_bind, Action.trace_bind,
    Interpreter.trace_conclude, Action.log_apply, hopening _ rfl, ← hclosing]
  rfl

def shortenedTrace : Trace := [
  .makeDirectory (.ofString "proc"), .log .info "mkdir proc ok!",
  .log .error "can't read 'fstab': No such file or directory (os error 2)",
  .log .info "mount phase done", .log .info "starting service `a b`", .log .info "[a] ...",
  .launch ⟨⟨"a", .ofString "/sbin/a"⟩, ["b"]⟩, .log .info "[a] ok!",
  .log .info "init sequence finished"]

theorem trace_shortened :
    (run sampleSystem shortened.config none sampleWorld).trace = shortenedTrace := by
  have hstages : shortened.config.stages = [.service ⟨["a", "b"], 1⟩] := by decide
  have hstart : ∀ stage, stage = Stage.service ⟨["a", "b"], 1⟩ →
      s!"starting {stage.display}" = "starting service `a b`" := by
    rintro _ rfl
    decide
  rw [run_apply, bootTrace, mountPhase_shortened]
  simp only [stagePhase, hstages, stagesTrace, worlds, List.scanl_cons, List.scanl_nil,
    List.zipWith_cons_cons, List.zipWith_nil_left, List.flatten_cons, List.flatten_nil,
    hstart _ rfl, traceOf, execute_shortened]
  rfl

/-- Nothing in it tells of that. -/
theorem service_drops_untold :
    let boot := run sampleSystem shortened.config none sampleWorld
    "a b c" ∈ shortened.commandLines ∧
      shortened.config.maxArgs + 1 < (Invocation.tokens "a b c").length ∧
      boot.trace = shortenedTrace ∧
      ∀ level place dropped, .log level (place ++ Part.notice 1 dropped) ∉ boot.trace := by
  intro boot
  refine ⟨by decide, by decide, trace_shortened, fun level place dropped hmem => ?_⟩
  have hnotice := Part.getLast?_notice place 1 dropped
  rw [trace_shortened, shortenedTrace] at hmem
  simp only [List.mem_cons, reduceCtorEq, Event.log.injEq, false_or, or_false, List.not_mem_nil]
    at hmem
  rcases hmem with ⟨-, h⟩ | ⟨-, h⟩ | ⟨-, h⟩ | ⟨-, h⟩ | ⟨-, h⟩ | ⟨-, h⟩ | ⟨-, h⟩ <;>
    rw [h] at hnotice <;> exact absurd hnotice (by decide)

end Supervisor
end BootSequence
