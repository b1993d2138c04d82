import BootSequence.Proofs.Script.Arrival
import BootSequence.Proofs.Script.Service
import BootSequence.Proofs.Text.Endings

/-!
Scripts behind each other. From one line to the next nothing is kept but the world, so that the rest
of a script is run like a script of its own in the world that its start has left, and its lines are
counted from those before (`runSource_append`). The count is seen in warnings and nowhere else
(`runEach_renumbered`), and so scripts compose (`runs_compose`).
-/

namespace BootSequence

/-! ## Lines before a failure -/

namespace Feed

/-- The lines of an ended text are read before what comes behind. -/
theorem readings_append {o : Octets} (h : o.Ended) (f : Feed) :
    linesBefore (readings (ofOctets o ++ f)) = linesRead o ++ linesBefore f.readings ∧
      failure? (readings (ofOctets o ++ f)) = failure? f.readings := by
  induction o using lineInduction Octets.newline with
  | last o hn =>
    rw [h.eq_nil hn]
    exact ⟨rfl, rfl⟩
  | line body rest hn ih =>
    obtain ⟨hlines, hfailure⟩ := ih (Octets.ended_append_newline_iff.1 h)
    have hfeed : ofOctets (body ++ Octets.newline :: rest) ++ f =
        ofOctets body ++ .octet Octets.newline :: (ofOctets rest ++ f) := by
      simp [ofOctets]
    rw [hfeed, readings_line hn, linesRead_append hn, linesBefore, failure?, hlines]
    exact ⟨rfl, hfailure⟩

end Feed

namespace Delivery

/-- The lines that are read before the first failure. -/
def linesRead (ds : List Delivery) : List Octets := Feed.linesBefore (Feed.ofDeliveries ds).readings

def failure? (ds : List Delivery) : Option Errno := Feed.failure? (Feed.ofDeliveries ds).readings

section Append

variable {as : List Delivery} (h : broken as = [])
include h

theorem ofDeliveries_of_ended : Feed.ofDeliveries as = Feed.ofOctets (arrived as) := by
  rw [← Source.feed_ofDeliveries]
  exact (Source.feed_of_ended (s := .ofDeliveries as) h).1

theorem linesRead_of_ended : linesRead as = Feed.linesRead (arrived as) ∧ failure? as = none := by
  rw [linesRead, failure?, ofDeliveries_of_ended h]
  obtain ⟨hlines, hfailure, -⟩ := Feed.readings_ofOctets (arrived as)
  exact ⟨hlines, hfailure⟩

theorem linesRead_append (hended : (arrived as).Ended) (bs : List Delivery) :
    linesRead (as ++ bs) = linesRead as ++ linesRead bs ∧ failure? (as ++ bs) = failure? bs := by
  have hfeed : Feed.ofDeliveries (as ++ bs) =
      Feed.ofOctets (arrived as) ++ Feed.ofDeliveries bs := by
    rw [← ofDeliveries_of_ended h]
    exact List.flatMap_append
  rw [(linesRead_of_ended h).1, linesRead, failure?, hfeed]
  exact Feed.readings_append hended _

theorem broken_append (bs : List Delivery) : broken (as ++ bs) = broken bs := by
  rw [broken, List.dropWhile_append, show as.dropWhile isQuiet = [] from h]
  rfl

theorem leftover_append (bs : List Delivery) :
    (Source.ofDeliveries (as ++ bs)).leftover = (Source.ofDeliveries bs).leftover := by
  have hbehind : (Source.ofDeliveries (as ++ bs)).behind = (Source.ofDeliveries bs).behind :=
    broken_append h bs
  rw [Source.leftover, hbehind, Source.leftover]

end Append
end Delivery

/-! ## Failures behind more lines -/

namespace Script

/-- The same error behind more lines. -/
def Error.behind (lines : Nat) : Error → Error
  | .cannotOpen path cause => .cannotOpen path cause
  | .cannotRead path earlier cause => .cannotRead path (lines + earlier) cause

theorem Report.mapError_result (path : Path) (lines earlier : Nat) (failure : Option Errno)
    (report : Report) :
    (report.result path lines failure).mapError (·.behind earlier) =
      report.result path (earlier + lines) failure := by
  cases failure <;> rfl

end Script

/-! ## Lines behind lines -/

namespace Interpreter

open Script Delivery

variable {σ : Type} (i : Interpreter σ) (path : Path)

theorem runEach_append (number : Nat) (lines more : List Octets) :
    i.runEach path number (lines ++ more) = (do
      let report ← i.runEach path number lines
      return report + (← i.runEach path (number + lines.length) more)) := by
  induction lines generalizing number with
  | nil =>
    have hzero : ∀ report : Report, {} + report = report := zero_add
    simp only [List.nil_append, runEach, List.length_nil, Nat.add_zero, pure_bind, hzero, bind_pure]
  | cons line lines ih =>
    have hnumber : number + (line :: lines).length = number + 1 + lines.length := by
      rw [List.length_cons]
      omega
    simp only [List.cons_append, runEach, ih, hnumber, bind_assoc, pure_bind, add_assoc]

theorem runSource_eq_runEach (ds : List Delivery) (number : Nat) :
    i.runReader path (Source.ofDeliveries ds) number = (do
      let report ← i.runEach path number (linesRead ds)
      return (report.result path (number + (linesRead ds).length) (failure? ds),
        (Source.ofDeliveries ds).leftover)) := by
  rw [runSource_eq, Source.feed_ofDeliveries]
  rfl

/-- What comes behind an ended start is run as it would be by itself behind so many lines. -/
theorem runSource_append {as : List Delivery} (h : broken as = []) (hended : (arrived as).Ended)
    (bs : List Delivery) (number : Nat) :
    i.runReader path (Source.ofDeliveries (as ++ bs)) number = (do
      let report ← i.runEach path number (linesRead as)
      let (result, left) ← i.runReader path (Source.ofDeliveries bs) (number + (linesRead as).length)
      return (result.map (report + ·), left)) := by
  obtain ⟨hlines, hfailure⟩ := linesRead_append h hended bs
  simp only [runSource_eq_runEach, hlines, hfailure, leftover_append h, runEach_append, bind_assoc,
    pure_bind, Report.map_result, List.length_append, Nat.add_assoc]

end Interpreter

/-! ## Numbers -/

namespace Script

/-- The same behind more lines. -/
def Passage.behind (lines : Nat) (p : Passage) : Passage := { p with number := lines + p.number }

theorem Counts.report_eq {maxArgs : Nat} {passages : List Passage} {report report' : Report}
    (h : Counts maxArgs passages report) (h' : Counts maxArgs passages report') :
    report = report' := by
  have hlaunched : report.launched = report'.launched := by
    rw [h.launched_eq, h'.launched_eq, h.succeeded_eq, h'.succeeded_eq, h.failed_eq, h'.failed_eq]
  obtain ⟨⟩ := report
  obtain ⟨⟩ := report'
  simp only [Report.mk.injEq]
  exact ⟨h.lines_eq.trans h'.lines_eq.symm, h.skipped_eq.trans h'.skipped_eq.symm, hlaunched,
    h.succeeded_eq.trans h'.succeeded_eq.symm, h.failed_eq.trans h'.failed_eq.symm,
    h.launchErrors_eq.trans h'.launchErrors_eq.symm, h.unresolved_eq.trans h'.unresolved_eq.symm,
    h.droppedTokens_eq.trans h'.droppedTokens_eq.symm⟩

/-- Numbers do not count. -/
theorem Counts.behind {maxArgs : Nat} {passages : List Passage} {report : Report}
    (h : Counts maxArgs passages report) (lines : Nat) :
    Counts maxArgs (passages.map (·.behind lines)) report := by
  have hcount : ∀ k, countOf k (passages.map (·.behind lines)) = countOf k passages := by
    intro k
    rw [countOf, List.countP_map]
    rfl
  have hdropped : (passages.map (·.behind lines)).map (·.dropped maxArgs) =
      passages.map (·.dropped maxArgs) := by
    rw [List.map_map]
    rfl
  exact
    { lines_eq := by rw [h.lines_eq, List.length_map]
      skipped_eq := by rw [h.skipped_eq, hcount]
      unresolved_eq := by rw [h.unresolved_eq, hcount]
      launchErrors_eq := by rw [h.launchErrors_eq, hcount]
      succeeded_eq := by rw [h.succeeded_eq, hcount]
      failed_eq := by rw [h.failed_eq, hcount]
      launched_eq := h.launched_eq
      droppedTokens_eq := by rw [h.droppedTokens_eq, hdropped] }

end Script

section Unseen

variable {σ τ : Type} {view : World σ → τ} {log log' : Option LogFile}

theorem Unseen.recorded (h : Unseen view log) (t : Trace) (w : World σ) :
    view (w.recorded log t) = view w := by
  induction t generalizing w with
  | nil => rfl
  | cons e t ih =>
    refine (ih _).trans ?_
    cases e with
    | log level message => exact h level message w
    | launch call | child note | makeDirectory path | mount entry accepted => rfl

theorem SeesOnly.alike {launcher : Launcher σ} (h : SeesOnly view launcher) {call : Call}
    {w w' left left' : World σ} {reply reply' : Except LaunchError Outcome}
    {notes notes' : List Note} (hw : view w = view w')
    (hreply : launcher call w = (reply, notes, left))
    (hreply' : launcher call w' = (reply', notes', left')) :
    reply' = reply ∧ view left = view left' := by
  have hanswer := h.answer call w w' hw
  have hleft := h.left call w w' hw
  rw [hreply, hreply'] at hanswer hleft
  exact ⟨hanswer.symm, hleft⟩

variable {i : Interpreter σ} {path path' : Path} (hlog : Unseen view log)
  (hlog' : Unseen view log') (hlaunch : SeesOnly view i.launcher)
include hlog hlog' hlaunch

namespace Script

theorem Meets.alike {w w' u u' : World σ} {words : List String} {fate fate' : Fate}
    (h : Meets i log w words fate u) (h' : Meets i log' w' words fate' u') (hw : view w = view w') :
    fate' = fate ∧ view u = view u' := by
  cases h with
  | blank =>
    cases h'
    exact ⟨rfl, hw⟩
  | unresolved hc =>
    cases h' with
    | unresolved hc' =>
      cases hc.symm.trans hc'
      exact ⟨rfl, by rw [hlog.recorded, hlog'.recorded, hw]⟩
    | launched hc' => cases hc.symm.trans hc'
  | @launched left name args command reply notes hc hreply =>
    cases h' with
    | unresolved hc' => cases hc.symm.trans hc'
    | @launched left' _ _ command' reply' notes' hc' hreply' =>
      cases hc.symm.trans hc'
      have hopened : view (w.recorded log [Fate.opening name]) =
          view (w'.recorded log' [Fate.opening name]) := by
        rw [hlog.recorded, hlog'.recorded, hw]
      obtain ⟨rfl, hleft⟩ := hlaunch.alike hopened hreply hreply'
      exact ⟨rfl, by rw [hlog.recorded, hlog'.recorded, hleft]⟩

/-- Lines that are passed twice, the second time behind more lines, meet with the same fates. -/
theorem Passes.alike {w w' u u' : World σ} {number lines : Nat} {words : List (List String)}
    {passages passages' : List Passage} (h : Passes i path log w number words passages u)
    (h' : Passes i path' log' w' (lines + number) words passages' u') (hw : view w = view w') :
    passages' = passages.map (·.behind lines) ∧ view u = view u' := by
  induction h generalizing w' passages' with
  | nil =>
    cases h'
    exact ⟨rfl, hw⟩
  | cons meets rest ih =>
    cases h' with
    | cons meets' rest' =>
      obtain ⟨rfl, hnext⟩ := meets.alike hlog hlog' hlaunch meets'
        (by rw [hlog.recorded, hlog'.recorded, hw])
      obtain ⟨rfl, hlast⟩ := ih rest' hnext
      exact ⟨rfl, hlast⟩

end Script
end Unseen

namespace Script

theorem Passes.append {σ : Type} {i : Interpreter σ} {path : Path} {log : Option LogFile}
    {w w' w'' : World σ} {number : Nat} {words words' : List (List String)}
    {passages passages' : List Passage} (h : Passes i path log w number words passages w')
    (h' : Passes i path log w' (number + words.length) words' passages' w'') :
    Passes i path log w number (words ++ words') (passages ++ passages') w'' := by
  induction h with
  | nil => exact h'
  | cons meets rest ih =>
    rw [List.length_cons, Nat.add_comm _ 1, ← Nat.add_assoc] at h'
    exact .cons meets (ih h')

theorem calls_behind (path : Path) (maxArgs lines : Nat) (passages : List Passage) :
    Trace.calls ((passages.map (·.behind lines)).flatMap (·.events path maxArgs)) =
      Trace.calls (passages.flatMap (·.events path maxArgs)) := by
  induction passages with
  | nil => rfl
  | cons p passages ih =>
    rw [List.map_cons, List.flatMap_cons, List.flatMap_cons, Trace.calls_append,
      Trace.calls_append, ih, Passage.events, Passage.events, Trace.calls_append,
      Trace.calls_append, Passage.calls_warning, Passage.calls_warning]
    rfl

end Script

namespace Interpreter

open Script Delivery

variable {σ τ : Type} (i : Interpreter σ) (path : Path) (log : Option LogFile)

/-- A run that passes lines behind `number` others, and does nothing else itself. -/
structure Passed {α : Type} (w : World σ) (number : Nat) (lines : List Octets)
    (passages : List Passage) (ran : Ran σ α) : Prop where
  passes : Passes i path log w number (lines.map fun line => Invocation.tokens line.lossy) passages
    ran.world
  own_eq : ran.trace.own = passages.flatMap (·.events path i.maxArgs)

variable {i path log}

theorem Passed.length_eq {α : Type} {w : World σ} {number : Nat} {lines : List Octets}
    {passages : List Passage} {ran : Ran σ α} (h : Passed i path log w number lines passages ran) :
    passages.length = lines.length := by
  have hlength := congrArg List.length h.passes.map_words
  rwa [List.length_map, List.length_map] at hlength

theorem Passed.append {α β γ : Type} {w : World σ} {number : Nat} {lines lines' : List Octets}
    {passages passages' : List Passage} {ran : Ran σ α} {ran' : Ran σ β}
    (h : Passed i path log w number lines passages ran)
    (h' : Passed i path log ran.world (number + lines.length) lines' passages' ran') (value : γ) :
    Passed i path log w number (lines ++ lines') (passages ++ passages')
      ⟨value, ran.trace ++ ran'.trace, ran'.world⟩ := by
  constructor
  · rw [List.map_append]
    refine h.passes.append ?_
    rw [List.length_map]
    exact h'.passes
  · rw [Trace.own_append, h.own_eq, h'.own_eq, List.flatMap_append]

variable (i path log)

theorem runEach_passed (number : Nat) (lines : List Octets) (w : World σ) :
    let ran := i.runEach path number lines log w
    ∃ passages, Passed i path log w number lines passages ran ∧
      Counts i.maxArgs passages ran.value := by
  obtain ⟨passages, hpasses, hown, hcounts⟩ := i.runEach_passes path log lines number w
  exact ⟨passages, ⟨hpasses, hown⟩, hcounts⟩

/-- Blank lines are read, and that is all. -/
theorem runEach_of_blank (number : Nat) {lines : List Octets}
    (h : ∀ line ∈ lines, Invocation.tokens line.lossy = []) :
    i.runEach path number lines = pure { lines := lines.length, skipped := lines.length } := by
  induction lines generalizing number with
  | nil => rfl
  | cons line lines ih =>
    obtain ⟨hline, hlines⟩ := List.forall_mem_cons.1 h
    rw [runEach, runLine_of_blank i path (number + 1) hline, ih (number + 1) hlines, pure_bind,
      pure_bind, List.length_cons, Nat.add_comm]
    rfl

section Renumbered

variable {i log} {view : World σ → τ} {log' : Option LogFile} (hlog : Unseen view log)
  (hlog' : Unseen view log') (hlaunch : SeesOnly view i.launcher)
include hlog hlog' hlaunch

/-- What lines come to does not depend on how many are before them. -/
theorem runEach_renumbered (number more : Nat) (lines : List Octets) {w w' : World σ}
    (hw : view w = view w') :
    let ran := i.runEach path number lines log w
    let behind := i.runEach path (more + number) lines log' w'
    behind.value = ran.value ∧ view behind.world = view ran.world ∧
      behind.trace.calls = ran.trace.calls ∧
      ∃ passages, Passed i path log w number lines passages ran ∧
        Passed i path log' w' (more + number) lines (passages.map (·.behind more)) behind := by
  obtain ⟨passages, hpassed, hcounts⟩ := runEach_passed i path log number lines w
  obtain ⟨passages', hpassed', hcounts'⟩ := runEach_passed i path log' (more + number) lines w'
  obtain ⟨rfl, hseen⟩ := hpassed.passes.alike hlog hlog' hlaunch hpassed'.passes hw
  refine ⟨hcounts'.report_eq (hcounts.behind more), hseen.symm, ?_, passages, hpassed, hpassed'⟩
  rw [← Trace.calls_own, hpassed'.own_eq, calls_behind, ← hpassed.own_eq, Trace.calls_own]

end Renumbered

/-- To a launcher whose answers are settled by the calls, the order of lines is nothing. -/
theorem value_runEach_of_perm
    (h : ∀ call w w', (i.launcher call w).1 = (i.launcher call w').1) {lines lines' : List Octets}
    (hperm : lines.Perm lines') (log' : Option LogFile) (w w' : World σ) :
    (i.runEach path 0 lines log w).value = (i.runEach path 0 lines' log' w').value := by
  -- No world looks different from another.
  let view : World σ → Unit := fun _ => ()
  have hunseen : ∀ log : Option LogFile, Unseen view log := fun _ _ _ _ => rfl
  have hlaunch : SeesOnly view i.launcher := ⟨fun call w w' _ => h call w w', fun _ _ _ _ => rfl⟩
  let single : Octets → Report := fun line => (i.runEach path 0 [line] log w).value
  -- So every line brings what it brings alone, and a sum does not heed the order.
  have hsum : ∀ (lines : List Octets) (log' : Option LogFile) (number : Nat) (w' : World σ),
      (i.runEach path number lines log' w').value = (lines.map single).sum := by
    intro lines log'
    induction lines with
    | nil => exact fun _ _ => rfl
    | cons line lines ih =>
      intro number w'
      have hline : (i.runEach path number [line] log' w').value = single line :=
        (runEach_renumbered path (hunseen log) (hunseen log') hlaunch 0 number [line] rfl).1
      rw [List.map_cons, List.sum_cons, ← hline, ← List.singleton_append, runEach_append]
      simp only [Action.bind_apply, Action.pure_apply, ih]
  rw [hsum lines log 0 w, hsum lines' log' 0 w']
  exact (hperm.map single).sum_eq

/-! ## Sources -/

theorem runSource_apply (ds : List Delivery) (number : Nat) (w : World σ) :
    i.runReader path (Source.ofDeliveries ds) number log w =
      let ran := i.runEach path number (linesRead ds) log w
      ⟨(ran.value.result path (number + (linesRead ds).length) (failure? ds),
        (Source.ofDeliveries ds).leftover), ran.trace, ran.world⟩ := by
  rw [runSource_eq_runEach]
  simp only [Action.bind_apply, Action.pure_apply, List.append_nil]

theorem runSource_of_ended {ds : List Delivery} (h : broken ds = []) (w : World σ) :
    i.runReader path (Source.ofDeliveries ds) 0 log w =
      let ran := i.runEach path 0 (linesRead ds) log w
      ⟨(.ok ran.value, .ended), ran.trace, ran.world⟩ := by
  have hleft := (Source.feed_of_ended (s := .ofDeliveries ds) h).2
  rw [runSource_apply, (linesRead_of_ended h).2, hleft]
  rfl

theorem runSource_append_apply {as : List Delivery} (h : broken as = [])
    (hended : (arrived as).Ended) (bs : List Delivery) (number : Nat) (w : World σ) :
    i.runReader path (Source.ofDeliveries (as ++ bs)) number log w =
      let start := i.runEach path number (linesRead as) log w
      let rest := i.runReader path (Source.ofDeliveries bs) (number + (linesRead as).length) log
        start.world
      ⟨(rest.value.1.map (start.value + ·), rest.value.2), start.trace ++ rest.trace,
        rest.world⟩ := by
  rw [i.runSource_append path h hended]
  simp only [Action.bind_apply, Action.pure_apply, List.append_nil]

/-- What a script and one behind it come to, alone and as one script. -/
structure Joined (view : World σ → τ) (as bs : List Delivery) (w : World σ) (report : Report)
    (passages passages' : List Passage)
    (first second whole : Ran σ (Except Error Report × Source)) : Prop where
  first_eq : first.value = (.ok report, .ended)
  lines_eq : report.lines = (arrived as).count Octets.newline
  /-- The counts are added, or the failure is behind all lines that have been read. -/
  value_eq : whole.value =
    ((second.value.1.map (report + ·)).mapError (·.behind report.lines), second.value.2)
  calls_eq : whole.trace.calls = first.trace.calls ++ second.trace.calls
  seen_eq : view whole.world = view second.world
  passed_first : Passed i path log w 0 (linesRead as) passages first
  passed_second : Passed i path log first.world 0 (linesRead bs) passages' second
  /-- The numbers of the lines are all that is different. -/
  passed_whole : Passed i path log w 0 (linesRead as ++ linesRead bs)
    (passages ++ passages'.map (·.behind report.lines)) whole
  /-- No launcher can tell the whole from the two if the second is counted on. -/
  counted : let behind := i.runReader path (Source.ofDeliveries bs) report.lines log first.world
    whole.trace = first.trace ++ behind.trace ∧ whole.world = behind.world

/-- What a script comes to with so many blank lines behind some that it has. -/
structure Spaced (view : World σ → τ) (as bs : List Delivery) (w : World σ) (blank : Nat)
    (passages passages' : List Passage) (plain spaced : Ran σ (Except Error Report × Source)) :
    Prop where
  value_eq : spaced.value =
    ((plain.value.1.map ({ lines := blank, skipped := blank } + ·)).mapError (·.behind blank),
      plain.value.2)
  calls_eq : spaced.trace.calls = plain.trace.calls
  seen_eq : view spaced.world = view plain.world
  length_eq : passages.length = (arrived as).count Octets.newline
  passed : Passed i path log w 0 (linesRead as ++ linesRead bs) (passages ++ passages') plain
  own_eq : spaced.trace.own =
    (passages ++ passages'.map (·.behind blank)).flatMap (·.events path i.maxArgs)

section Compose

variable {i log} {view : World σ → τ} (hlog : Unseen view log) (hlaunch : SeesOnly view i.launcher)
include hlog hlaunch

theorem runSource_joined {as : List Delivery} (has : broken as = []) (hended : (arrived as).Ended)
    (bs : List Delivery) (w : World σ) :
    let first := i.runReader path (Source.ofDeliveries as) 0 log w
    let second := i.runReader path (Source.ofDeliveries bs) 0 log first.world
    ∃ report passages passages', Joined i path log view as bs w report passages passages' first
      second (i.runReader path (Source.ofDeliveries (as ++ bs)) 0 log w) := by
  let start := i.runEach path 0 (linesRead as) log w
  obtain ⟨passages, hpassed, hcounts⟩ := runEach_passed i path log 0 (linesRead as) w
  have hlines : (linesRead as).length = start.value.lines :=
    hpassed.length_eq.symm.trans hcounts.lines_eq.symm
  -- The lines of `bs` are run twice from the same world, alone and behind those of `as`.
  obtain ⟨hvalue, hseen, hcalls, passages', hpassed', hbehind⟩ :=
    runEach_renumbered path hlog hlog hlaunch 0 start.value.lines (linesRead bs)
      (Eq.refl (view start.world))
  have hsecond := i.runSource_apply path log bs 0 start.world
  have hcounted := i.runSource_apply path log bs start.value.lines start.world
  refine ⟨start.value, passages, passages', ?_⟩
  rw [i.runSource_of_ended path log has w, i.runSource_append_apply path log has hended,
    Nat.zero_add, hlines]
  dsimp only
  exact
    { first_eq := rfl
      lines_eq := by rw [← hlines, (linesRead_of_ended has).1, Feed.length_linesRead hended]
      value_eq := by
        rw [hsecond, hcounted]
        dsimp only
        rw [Report.map_result, Report.map_result, Report.mapError_result, Nat.zero_add]
        exact congrArg (fun value => (Report.result path _ _ (start.value + value), _)) hvalue
      calls_eq := by
        rw [Trace.calls_append, hsecond, hcounted]
        exact congrArg (_ ++ ·) hcalls
      seen_eq := by
        rw [hsecond, hcounted]
        exact hseen
      passed_first := ⟨hpassed.passes, hpassed.own_eq⟩
      passed_second := by
        rw [hsecond]
        exact ⟨hpassed'.passes, hpassed'.own_eq⟩
      passed_whole := by
        rw [hcounted]
        refine hpassed.append ?_ _
        rw [Nat.zero_add, hlines]
        exact ⟨hbehind.passes, hbehind.own_eq⟩
      counted := ⟨rfl, rfl⟩ }

/-- Blank lines are put between those of `as` and those of `bs`. -/
theorem runSource_spaced {as blank : List Delivery} (has : broken as = [])
    (hended : (arrived as).Ended) (hblank : broken blank = []) (hended' : (arrived blank).Ended)
    (hlines : ∀ line ∈ linesRead blank, Invocation.tokens line.lossy = []) (bs : List Delivery)
    (w : World σ) :
    ∃ passages passages',
      Spaced i path log view as bs w ((arrived blank).count Octets.newline) passages passages'
        (i.runReader path (Source.ofDeliveries (as ++ bs)) 0 log w)
        (i.runReader path (Source.ofDeliveries (as ++ (blank ++ bs))) 0 log w) := by
  let number := (linesRead as).length
  let more := (linesRead blank).length
  let start := i.runEach path 0 (linesRead as) log w
  obtain ⟨passages, hpassed, -⟩ := runEach_passed i path log 0 (linesRead as) w
  -- Blank lines leave the world to the lines of `bs` as it is, with other numbers.
  obtain ⟨hvalue, hseen, hcalls, passages', hpassed', hbehind⟩ :=
    runEach_renumbered path hlog hlog hlaunch number more (linesRead bs)
      (Eq.refl (view start.world))
  have hblanks := i.runEach_of_blank path number hlines
  have hplain := i.runSource_apply path log bs number start.world
  have hspaced := i.runSource_apply path log bs (number + more) start.world
  rw [Nat.add_comm more] at hvalue hseen hcalls hbehind
  refine ⟨passages, passages', ?_⟩
  rw [i.runSource_append_apply path log has hended, i.runSource_append_apply path log has hended,
    Nat.zero_add, ← Feed.length_linesRead hended', ← (linesRead_of_ended hblank).1]
  dsimp only
  rw [i.runSource_append_apply path log hblank hended', hblanks]
  dsimp only [Action.pure_apply]
  exact
    { value_eq := by
        rw [hplain, hspaced]
        dsimp only
        rw [Report.map_result, Report.map_result, Report.map_result, Report.map_result,
          Report.mapError_result, hvalue, add_left_comm, ← Nat.add_assoc, Nat.add_comm more]
      calls_eq := by
        rw [hplain, hspaced, List.nil_append, Trace.calls_append, Trace.calls_append]
        exact congrArg (_ ++ ·) hcalls
      seen_eq := by
        rw [hplain, hspaced]
        exact hseen
      length_eq := by
        rw [hpassed.length_eq, (linesRead_of_ended has).1, Feed.length_linesRead hended]
      passed := by
        rw [hplain]
        refine hpassed.append ?_ _
        rw [Nat.zero_add]
        exact ⟨hpassed'.passes, hpassed'.own_eq⟩
      own_eq := by
        rw [hspaced, List.nil_append, Trace.own_append, hpassed.own_eq, List.flatMap_append]
        exact congrArg (_ ++ ·) hbehind.own_eq }

/-- Scripts compose: behind an ended script another is run as by itself in the world that the first
has left, but that its lines have other numbers; blank lines are counted and change no more than
numbers; and a launcher that looks at nothing but the call makes the order of the lines irrelevant
to the report. -/
theorem runs_compose :
    (∀ as bs : List Delivery, broken as = [] → (arrived as).Ended → ∀ w : World σ,
      let first := i.runReader path (Source.ofDeliveries as) 0 log w
      let second := i.runReader path (Source.ofDeliveries bs) 0 log first.world
      ∃ report passages passages', Joined i path log view as bs w report passages passages' first
        second (i.runReader path (Source.ofDeliveries (as ++ bs)) 0 log w)) ∧
    (∀ as blank bs : List Delivery, broken as = [] → (arrived as).Ended → broken blank = [] →
      (arrived blank).Ended → (∀ line ∈ linesRead blank, Invocation.tokens line.lossy = []) →
      ∀ w : World σ, ∃ passages passages',
        Spaced i path log view as bs w ((arrived blank).count Octets.newline) passages passages'
          (i.runReader path (Source.ofDeliveries (as ++ bs)) 0 log w)
          (i.runReader path (Source.ofDeliveries (as ++ (blank ++ bs))) 0 log w)) ∧
    ((∀ call w w', (i.launcher call w).1 = (i.launcher call w').1) →
      ∀ ds ds' : List Delivery, broken ds = [] → broken ds' = [] →
      (linesRead ds).Perm (linesRead ds') → ∀ w w' : World σ,
        (i.runReader path (Source.ofDeliveries ds) 0 log w).value.1 =
          (i.runReader path (Source.ofDeliveries ds') 0 log w').value.1) := by
  refine ⟨?_, ?_, ?_⟩
  · intro as bs has hended w
    exact runSource_joined path hlog hlaunch has hended bs w
  · intro as blank bs has hended hblank hended' hlines w
    exact runSource_spaced path hlog hlaunch has hended hblank hended' hlines bs w
  · intro hanswers ds ds' hds hds' hperm w w'
    rw [i.runSource_of_ended path log hds, i.runSource_of_ended path log hds']
    exact congrArg Except.ok (i.value_runEach_of_perm path log hanswers hperm log w w')

end Compose

/-- Two scripts, and blank lines to put between them. Of the first a word is dropped, and the second
fails to be read behind its first line. -/
theorem runs_compose_of_failure :
    let launcher : Launcher Nat := fun call w =>
      (.ok (.exited call.args.length), [], { w with state := w.state + 1 })
    let i : Interpreter Nat := ⟨.ofString "/sbin", 1, launcher⟩
    let path := Path.ofString "rcS"
    let w : World Nat := ⟨⟨.empty, [], 0⟩, 3⟩
    let as : List Delivery := [.data (.ofString "a b"), .interruption, .data (.ofString " c\n")]
    let blank : List Delivery := [.data (.ofString "\t\r\n\n")]
    let bs : List Delivery := [.data (.ofString "d\ne"), .failure ⟨5⟩]
    let spaced := i.runReader path (Source.ofDeliveries (as ++ (blank ++ bs))) 0 none w
    Unseen (id : World Nat → World Nat) none ∧ SeesOnly id i.launcher ∧
      (∀ call w w', (i.launcher call w).1 = (i.launcher call w').1) ∧
      broken as = [] ∧ (arrived as).Ended ∧ broken blank = [] ∧ (arrived blank).Ended ∧
      (∀ line ∈ linesRead blank, Invocation.tokens line.lossy = []) ∧
      spaced.value.1 = .error (.cannotRead path 4 (.numbered ⟨5⟩)) ∧
      spaced.trace.calls = [⟨⟨"a", .ofString "/sbin/a"⟩, ["b"]⟩, ⟨⟨"d", .ofString "/sbin/d"⟩, []⟩] ∧
      spaced.world.state = 5 ∧
      (i.runReader path (Source.ofDeliveries (as ++ blank)) 0 none w).value.1 =
        (i.runReader path (Source.ofDeliveries (blank ++ as)) 0 none w).value.1 := by
  intro launcher i path w as blank bs spaced
  let whole := i.runReader path (Source.ofDeliveries (as ++ bs)) 0 none w
  have hlog : Unseen (id : World Nat → World Nat) none := unseen_none id
  have hlaunch : SeesOnly id i.launcher := seesOnly_id launcher
  have hanswers : ∀ call w w', (i.launcher call w).1 = (i.launcher call w').1 := fun _ _ _ => rfl
  have has : broken as = [] := by decide
  have hended : (arrived as).Ended := by decide
  have hblank : broken blank = [] := by decide
  have hended' : (arrived blank).Ended := by decide
  have hlines : ∀ line ∈ linesRead blank, Invocation.tokens line.lossy = [] := by decide
  obtain ⟨hjoin, hspace, hperm⟩ := runs_compose path hlog hlaunch
  obtain ⟨report, passages, passages', hwhole⟩ := hjoin as bs has hended w
  obtain ⟨start, rest, hspaced⟩ := hspace as blank bs has hended hblank hended' hlines w
  have hfirst : report = { lines := 1, launched := 1, failed := 1, droppedTokens := 1 } := by
    have hvalue := hwhole.first_eq
    rw [runSource_of_ended _ _ _ has] at hvalue
    exact (Except.ok.inj (Prod.mk.inj hvalue).1).symm
  have hvalue : whole.value.1 = .error (.cannotRead path 2 (.numbered ⟨5⟩)) := by
    rw [hwhole.value_eq, hfirst, runSource_apply]
    rfl
  have hcalls : whole.trace.calls =
      [⟨⟨"a", .ofString "/sbin/a"⟩, ["b"]⟩, ⟨⟨"d", .ofString "/sbin/d"⟩, []⟩] := by
    rw [hwhole.calls_eq, runSource_of_ended _ _ _ has, runSource_apply]
    decide
  have hstate : whole.world.state = 5 := by
    rw [show whole.world = _ from hwhole.seen_eq, runSource_of_ended _ _ _ has, runSource_apply]
    rfl
  refine ⟨hlog, hlaunch, hanswers, has, hended, hblank, hended', hlines, ?_, ?_, ?_, ?_⟩
  · rw [hspaced.value_eq, hvalue]
    rfl
  · rw [hspaced.calls_eq, hcalls]
  · exact (congrArg World.state hspaced.seen_eq).trans hstate
  · exact hperm hanswers (as ++ blank) (blank ++ as) (by decide) (by decide) (by decide) w w

end Interpreter
end BootSequence
