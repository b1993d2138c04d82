import BootSequence.Proofs.Script.Account
import BootSequence.Proofs.Script.InFile
import BootSequence.Proofs.Script.Likeness
import BootSequence.Proofs.Text.Encoding
import BootSequence.Supervisor

/-!
A command line can be a service or stand in a script. A service is cut into words when the boot is
configured, and a line of a script when it has been read and decoded; then both are run alike. Of a
whole script this makes the services of its lines (`alike_runEach_services`), and of commands that
are written below each other the services of these commands (`script_agrees_with_services`).
-/

namespace BootSequence

/-! ## Command lines as text -/

/-- A text of one line, which may be ended. -/
def IsCommandLine (c : String) : Prop := '\n' ∉ c.toList.dropLast

theorem IsCommandLine.toList_cases {c : String} (h : IsCommandLine c) :
    '\n' ∉ c.toList ∨ ∃ body, '\n' ∉ body ∧ c.toList = body ++ ['\n'] := by
  rcases List.eq_nil_or_concat' c.toList with hnil | ⟨body, last, hbody⟩
  · left
    rw [hnil]
    exact List.not_mem_nil
  · rw [IsCommandLine, hbody, List.dropLast_concat] at h
    rw [hbody]
    by_cases hlast : last = '\n'
    · exact .inr ⟨body, h, by rw [hlast]⟩
    · left
      intro hm
      rcases List.mem_append.1 hm with hm | hm
      · exact h hm
      · exact hlast (List.mem_singleton.1 hm).symm

theorem IsCommandLine.linesRead {c : String} (h : IsCommandLine c) :
    Feed.linesRead (Octets.ofString c) = if c = "" then [] else [Octets.ofString c] := by
  rcases h.toList_cases with hplain | ⟨body, hbody, hc⟩
  · have hnil : Octets.ofString c = [] ↔ c = "" := by
      constructor
      · intro hempty
        rw [← Octets.lossy_ofString c, hempty]
        rfl
      · rintro rfl
        rfl
    have hlines := Feed.linesRead_of_not_mem (Utf8.newline_not_mem_encode hplain)
    by_cases hempty : c = ""
    · rw [if_pos hempty, hnil.2 hempty]
      rfl
    · rw [if_neg hempty]
      exact hlines.trans (if_neg (mt hnil.1 hempty))
  · have hne : c ≠ "" := by
      rintro rfl
      simp at hc
    have hencode : Octets.ofString c = Utf8.encode body ++ [Octets.newline] := by
      rw [Octets.ofString, hc, Utf8.encode_append]
      rfl
    rw [if_neg hne, hencode, Feed.linesRead_append (Utf8.newline_not_mem_encode hbody)]
    rfl

namespace Script

/-- The words of lines, without the lines that have none. -/
def sayings (cs : List Char) : List (List String) :=
  ((lines '\n' cs).map lineWords).filter (!·.isEmpty)

/-- In front of others, a command line says what it says alone. An end of its own makes one more
blank line. -/
theorem sayings_append {c : String} (h : IsCommandLine c) (rest : List Char) :
    sayings (c.toList ++ '\n' :: rest) =
      [Invocation.tokens c].filter (!·.isEmpty) ++ sayings rest := by
  rw [← String.ofList_toList (s := c)]
  rcases h.toList_cases with hplain | ⟨body, hbody, hc⟩
  · rw [tokens_ofList_of_not_mem hplain, String.toList_ofList, sayings, sayings,
      lines_append_cons hplain, List.map_cons, ← List.filter_append]
    rfl
  · have hblank : lineWords [] = [] := rfl
    rw [hc, tokens_ofList_newline, String.toList_ofList, List.append_assoc, sayings, sayings]
    show List.filter _ (List.map _ (lines _ (body ++ '\n' :: ([] ++ '\n' :: rest)))) = _
    rw [lines_append_cons hbody, lines_append_cons (List.not_mem_nil), List.map_cons, List.map_cons,
      hblank, ← List.singleton_append, List.filter_append]
    rfl

theorem sayings_toList {c : String} (h : IsCommandLine c) :
    sayings c.toList = [Invocation.tokens c].filter (!·.isEmpty) := by
  rw [← String.ofList_toList (s := c)]
  rcases h.toList_cases with hplain | ⟨body, hbody, hc⟩
  · rw [tokens_ofList_of_not_mem hplain, String.toList_ofList, sayings, lines_of_not_mem hplain]
    split
    · rename_i hnil
      rw [hnil]
      rfl
    · rfl
  · rw [hc, tokens_ofList_newline, String.toList_ofList, sayings, lines_append_cons hbody]
    rfl

/-- Command lines below each other say what they say one by one. -/
theorem sayings_intercalate {cs : List String} (h : ∀ c ∈ cs, IsCommandLine c) :
    sayings ("\n".intercalate cs).toList = (cs.map Invocation.tokens).filter (!·.isEmpty) := by
  rw [String.toList_intercalate]
  induction cs with
  | nil => rfl
  | cons c cs ih =>
    have hc := h c List.mem_cons_self
    have hrest := ih fun c hmem => h c (List.mem_cons_of_mem _ hmem)
    cases cs with
    | nil =>
      show sayings (List.intercalate _ [c.toList]) = _
      rw [List.intercalate_singleton, sayings_toList hc]
      rfl
    | cons c' cs =>
      rw [List.map_cons, List.map_cons, List.intercalate_cons_cons, List.append_assoc]
      show sayings (c.toList ++ '\n' :: List.intercalate _ (List.map _ (c' :: cs))) = _
      rw [sayings_append hc]
      exact (congrArg (_ ++ ·) hrest).trans (List.filter_append ..).symm

end Script

/-! ## Lines and services -/

/-- A service is made of a line that has a word. -/
theorem Stage.service?_eq (c : String) (maxArgs : Nat) :
    service? c maxArgs =
      if (Invocation.tokens c).isEmpty then none else some (.service (.ofLine c maxArgs)) := by
  rw [service?, Invocation.isEmpty_ofLine]

theorem Stage.filterMap_service? (cs : List String) (maxArgs : Nat) :
    (cs.filterMap fun c => service? c maxArgs) =
      (cs.filter fun c => !(Invocation.tokens c).isEmpty).map fun c =>
        .service (.ofLine c maxArgs) := by
  induction cs with
  | nil => rfl
  | cons c cs ih =>
    rw [List.filterMap_cons, service?_eq, ih, List.filter_cons]
    cases (Invocation.tokens c).isEmpty <;> rfl

namespace Interpreter

open Script

variable {σ τ : Type} (i : Interpreter σ)

/-- The services that the words of lines make. A line without words makes none. -/
def services (lines : List (List String)) : List Stage :=
  (lines.filter (!·.isEmpty)).map fun words => .service (i.kept words)

theorem services_cons (words : List String) (lines : List (List String)) :
    i.services (words :: lines) =
      if words.isEmpty then i.services lines
      else .service (i.kept words) :: i.services lines := by
  rw [services, List.filter_cons]
  cases words.isEmpty <;> rfl

theorem services_tokens (cs : List String) :
    i.services (cs.map Invocation.tokens) =
      cs.filterMap fun c => Stage.service? c i.maxArgs := by
  rw [Stage.filterMap_service?, services, List.filter_map, List.map_map]
  rfl

/-- A blank line is passed over. -/
theorem runLine_of_blank (path : Path) (number : Nat) {line : Octets}
    (h : Invocation.tokens line.lossy = []) :
    i.runLine path number line = pure { lines := 1, skipped := 1 } := by
  funext log w
  have hwarning : i.warningOf path number [] = [] := by
    simp [warningOf, Passage.warning, kept]
  rw [runLine_apply i path log h, hwarning, execute_of_none i (by simp [kept, Invocation.command?])]
  simp [kept, Report.ofLine]

section Alike

variable {i} {view : World σ → τ} {log log' : Option LogFile} (hlog : Unseen view log)
  (hlog' : Unseen view log') (hlaunch : SeesOnly view i.launcher)
include hlog hlog' hlaunch

/-- Besides the warning about dropped words, a line is the service of its words. -/
theorem alike_runLine_service (path : Path) (number : Nat) (line : Octets) :
    Action.Alike view log log' (fun _ _ => True) (i.runLine path number line)
      (Supervisor.runStage i (.service (i.kept (Invocation.tokens line.lossy)))) := by
  have hexecute : Action.Alike view log log' (fun _ _ => True)
      (do
        let outcome ← i.execute (.ofLine line.lossy i.maxArgs)
        return Report.ofLine (Invocation.ofLine line.lossy i.maxArgs).dropped outcome)
      (Supervisor.runStage i (.service (i.kept (Invocation.tokens line.lossy)))) :=
    Action.alike_map (alike_execute hlog hlog' hlaunch _) fun _ _ _ => trivial
  unfold runLine
  dsimp only
  split
  · exact Action.alike_log_left hlog _ _ hexecute
  · exact hexecute

/-- A script runs the services of its lines. -/
theorem alike_runEach_services (path : Path) (number : Nat) (lines : List Octets) :
    Action.Alike view log log' (fun _ _ => True) (i.runEach path number lines)
      (Supervisor.runStages i
        (i.services (lines.map fun line => Invocation.tokens line.lossy))) := by
  induction lines generalizing number with
  | nil => exact Action.alike_pure trivial
  | cons line lines ih =>
    have hline := alike_runLine_service hlog hlog' hlaunch path (number + 1) line
    rw [List.map_cons, services_cons]
    cases hwords : (Invocation.tokens line.lossy).isEmpty with
    | true =>
      rw [runEach, runLine_of_blank i path (number + 1) (List.isEmpty_iff.1 hwords), pure_bind,
        if_pos rfl]
      intro w w' hw
      obtain ⟨-, hcalls, hseen⟩ := ih (number + 1) w w' hw
      refine ⟨trivial, ?_, hseen⟩
      rw [Action.trace_bind, Trace.calls_append, hcalls]
      exact List.append_nil _
    | false =>
      refine Action.alike_log_right hlog' _ _ (Action.alike_bind hline fun report outcome _ => ?_)
      exact Action.alike_map (ih (number + 1)) fun _ _ _ => trivial

/-- A command is launched between the same records, whoever runs it. -/
theorem own_execute_alike (invocation : Invocation) {w w' : World σ} (hw : view w = view w') :
    (i.execute invocation log w).trace.own = (i.execute invocation log' w').trace.own := by
  cases hname : invocation.command? with
  | none => rw [execute_of_none i hname, Action.pure_apply, Action.pure_apply]
  | some name =>
    cases hc : Command.resolve name i.searchDir with
    | error e => rw [execute_of_error i hname hc]; rfl
    | ok command =>
      let call : Call := ⟨command, invocation.args⟩
      let opening : Action σ Unit := Action.log .info s!"[{name}] ..."
      have hreply : (i.launcher call (opening log w).world).1 =
          (i.launcher call (opening log' w').world).1 :=
        hlaunch.answer call _ _ ((hlog _ _ w).trans (hw.trans (hlog' _ _ w').symm))
      rw [execute_of_ok i hname hc]
      simp only [Action.trace_bind, trace_conclude, Trace.own_append, Action.trace_launch,
        Trace.own_launch, Trace.own_children, own_closing]
      exact congrArg (fun reply => _ ++ ([.launch call] ++ [closing name reply])) hreply

end Alike

/-! ## Command lines -/

/-- A command line is the one line of its script. -/
theorem runFeed_ofString (path : Path) {c : String} (h : IsCommandLine c) (hc : c ≠ "") :
    i.runFeed path (Feed.ofOctets (Octets.ofString c)) = (do
      let report ← i.runLine path 1 (Octets.ofString c)
      return ⟨.ok report, []⟩) := by
  have hadd : ∀ report : Report, report + {} = report := fun _ => rfl
  rw [runFeed_eq_runEach, h.linesRead, if_neg hc]
  simp only [runEach, pure_bind, hadd, bind_pure]

theorem runFeed_of_blank (path : Path) {c : String} (h : IsCommandLine c)
    (hblank : Invocation.tokens c = []) :
    let read := if c = "" then 0 else 1
    i.runFeed path (Feed.ofOctets (Octets.ofString c)) =
      pure ⟨.ok { lines := read, skipped := read }, []⟩ := by
  by_cases hc : c = ""
  · rw [runFeed_eq_runEach, h.linesRead, if_pos hc, if_pos hc]
    rfl
  · have htokens : Invocation.tokens (Octets.ofString c).lossy = [] := by
      rw [Octets.lossy_ofString, hblank]
    rw [runFeed_ofString i path h hc, runLine_of_blank i path 1 htokens, pure_bind, if_neg hc]

/-- What a script of one line comes to, and the service of that line. -/
structure SameCommand (path : Path) (view : World σ → τ) (invocation : Invocation)
    (script : Ran σ Run) (service : Ran σ StageOutcome) : Prop where
  /-- The report on the line is that of the service's outcome. -/
  report_eq : ∃ outcome, service.value = .service outcome ∧
    script.value = ⟨.ok (.ofLine invocation.dropped outcome), []⟩
  /-- There is the one call that the words ask for, or none. -/
  calls_script : script.trace.calls = (invocation.call? i.searchDir).toList
  calls_service : service.trace.calls = (invocation.call? i.searchDir).toList
  /-- All records are the same, besides the warning about dropped words. -/
  own_eq : script.trace.own =
    Passage.warning path i.maxArgs 1 invocation.dropped ++ service.trace.own
  seen_eq : view script.world = view service.world

theorem runStage_service (invocation : Invocation) (log : Option LogFile) (w : World σ) :
    Supervisor.runStage i (.service invocation) log w =
      ⟨.service (i.execute invocation log w).value, (i.execute invocation log w).trace,
        (i.execute invocation log w).world⟩ := by
  simp only [Supervisor.runStage, Action.bind_apply, Action.pure_apply, List.append_nil]

section Agreement

variable {i} {view : World σ → τ} {log log' : Option LogFile} (hlog : Unseen view log)
  (hlog' : Unseen view log') (hlaunch : SeesOnly view i.launcher)
include hlog hlog' hlaunch

theorem sameCommand (path : Path) {c : String} (hc : IsCommandLine c) (hne : c ≠ "")
    {w w' : World σ} (hw : view w = view w') :
    let invocation := i.kept (Invocation.tokens c)
    SameCommand i path view invocation
      (i.runFeed path (Feed.ofOctets (Octets.ofString c)) log w)
      (Supervisor.runStage i (.service invocation) log' w') := by
  intro invocation
  have htokens : Invocation.tokens (Octets.ofString c).lossy = Invocation.tokens c := by
    rw [Octets.lossy_ofString]
  let warning := i.warningOf path 1 (Invocation.tokens c)
  let warned := w.recorded log warning
  have hwarned : view warned = view w' := by
    refine Eq.trans ?_ hw
    show view (w.recorded log (Passage.warning _ _ _ _)) = _
    unfold Passage.warning
    split
    · exact hlog _ _ w
    · rfl
  have hscript : i.runFeed path (Feed.ofOctets (Octets.ofString c)) log w =
      ⟨⟨.ok (.ofLine invocation.dropped (i.execute invocation log warned).value), []⟩,
        warning ++ (i.execute invocation log warned).trace,
        (i.execute invocation log warned).world⟩ := by
    rw [runFeed_ofString i path hc hne]
    simp only [Action.bind_apply, runLine_apply i path log htokens, Action.pure_apply,
      List.append_nil]
    rfl
  have hcalls_warning : Trace.calls warning = [] := Passage.calls_warning ..
  obtain ⟨hvalue, -, hseen⟩ := alike_execute hlog hlog' hlaunch invocation warned w' hwarned
  rw [hscript, runStage_service]
  exact
    { report_eq := ⟨_, rfl, by rw [hvalue]⟩
      calls_script := by
        rw [Trace.calls_append, hcalls_warning, calls_execute]
        rfl
      calls_service := calls_execute i log' invocation w'
      own_eq := by
        rw [Trace.own_append, own_execute_alike hlog hlog' hlaunch invocation hwarned]
        exact congrArg (· ++ _) (own_warning path _ _ _)
      seen_eq := hseen }

theorem alike_runFeed_services (path : Path) {cs : List String} (hcs : ∀ c ∈ cs, IsCommandLine c) :
    Action.Alike view log log' (fun _ _ => True)
      (i.runFeed path (Feed.ofOctets (Octets.ofString ("\n".intercalate cs))))
      (Supervisor.runStages i (cs.filterMap fun c => Stage.service? c i.maxArgs)) := by
  have hwords : i.services ((Feed.linesRead (Octets.ofString ("\n".intercalate cs))).map
      fun line => Invocation.tokens line.lossy) = i.services (cs.map Invocation.tokens) := by
    have hsayings := sayings_intercalate hcs
    rw [words_linesRead, Octets.ofString, Utf8.decodeLossy_encode]
    exact congrArg (List.map _) hsayings
  have hrun := alike_runEach_services hlog hlog' hlaunch path 0
    (Feed.linesRead (Octets.ofString ("\n".intercalate cs)))
  rw [hwords, services_tokens] at hrun
  intro w w' hw
  obtain ⟨-, hcalls, hseen⟩ := hrun w w' hw
  rw [runFeed_eq_runEach]
  refine ⟨trivial, ?_, hseen⟩
  rw [Action.trace_bind, Trace.calls_append, hcalls]
  exact List.append_nil _

end Agreement

/-- A command line is the same command in a script and as a service, and so is each of many: for all
that a launcher can see, it cannot tell which of them it serves. -/
theorem script_agrees_with_services {view : World σ → τ} {log log' : Option LogFile}
    (hlog : Unseen view log) (hlog' : Unseen view log') (hlaunch : SeesOnly view i.launcher)
    (path : Path) :
    (∀ c : String, IsCommandLine c →
      let script := i.runFeed path (Feed.ofOctets (Octets.ofString c)) log
      match Stage.service? c i.maxArgs with
      | none => ∃ read ≤ 1, ∀ w,
          script w = ⟨⟨.ok { lines := read, skipped := read }, []⟩, [], w⟩
      | some stage => ∃ invocation, stage = .service invocation ∧ ∀ w w', view w = view w' →
          SameCommand i path view invocation (script w) (Supervisor.runStage i stage log' w')) ∧
    ∀ cs : List String, (∀ c ∈ cs, IsCommandLine c) →
      let script := i.runFeed path (Feed.ofOctets (Octets.ofString ("\n".intercalate cs)))
      let services := Supervisor.runStages i (cs.filterMap fun c => Stage.service? c i.maxArgs)
      Action.Alike view log log' (fun _ _ => True) script services := by
  constructor
  · intro c hc script
    rw [Stage.service?_eq]
    cases hwords : (Invocation.tokens c).isEmpty with
    | true =>
      have hblank : Invocation.tokens c = [] := List.isEmpty_iff.1 hwords
      refine ⟨if c = "" then 0 else 1, ?_, fun w => ?_⟩
      · split <;> decide
      · exact congrFun (congrFun (runFeed_of_blank i path hc hblank) log) w
    | false =>
      refine ⟨i.kept (Invocation.tokens c), rfl, fun w w' hw => ?_⟩
      have hne : c ≠ "" := by
        rintro rfl
        cases hwords
      exact sameCommand hlog hlog' hlaunch path hc hne hw
  · exact fun cs hcs => alike_runFeed_services hlog hlog' hlaunch path hcs

/-- Three command lines for a launcher that counts its calls. The first has one word too many and an
end of its own, and the second is blank. -/
theorem script_agrees_with_services_counting :
    let launcher : Launcher Nat := fun _ w =>
      (.ok (.exited w.state), [], { w with state := w.state + 1 })
    let i : Interpreter Nat := ⟨.ofString "/sbin", 1, launcher⟩
    let w : World Nat := ⟨⟨.empty, [], 0⟩, 3⟩
    let cs := ["a b c\r\n", "\t", "é"]
    Unseen (id : World Nat → World Nat) none ∧ SeesOnly id i.launcher ∧
      (∀ c ∈ cs, IsCommandLine c) ∧
      let ran := i.runFeed (.ofString "rcS") (Feed.ofOctets (Octets.ofString ("\n".intercalate cs)))
        none w
      ran.trace.calls = [⟨⟨"a", .ofString "/sbin/a"⟩, ["b"]⟩, ⟨⟨"é", .ofString "/sbin/é"⟩, []⟩] ∧
        ran.world = ⟨⟨.empty, [], 0⟩, 5⟩ := by
  intro launcher i w cs
  have hlog : Unseen (id : World Nat → World Nat) none := unseen_none id
  have hlaunch : SeesOnly id i.launcher := seesOnly_id launcher
  have hcs : ∀ c ∈ cs, IsCommandLine c := by
    show ∀ c ∈ cs, '\n' ∉ c.toList.dropLast
    decide
  obtain ⟨-, hcalls, hseen⟩ :=
    (i.script_agrees_with_services hlog hlog hlaunch (.ofString "rcS")).2 cs hcs w w rfl
  refine ⟨hlog, hlaunch, hcs, hcalls.trans ?_, hseen.trans ?_⟩
  · decide
  · rfl

end Interpreter
end BootSequence
