import BootSequence.Proofs.Command
import BootSequence.Proofs.Script.Requests

/-!
The account of a script. Each line is passed in its turn: it has a number and words, and its command
meets with some fate, which depends on what the launcher answers in the world that the lines before
have left. The trace of a run is that of its passages one behind the other, and its report counts
them by their fates (`runFeed_accounted`).
-/

namespace BootSequence

/-! ## Traces without the noise of launchers -/

/-- Noticed of a launcher at work, and none of the program's own doing. -/
def Event.isNoise : Event → Bool
  | child _ => true
  | log _ _ | launch _ | makeDirectory _ | mount _ _ => false

namespace Trace

/-- What a program does itself. -/
def own (t : Trace) : Trace := t.filter (!·.isNoise)

@[simp] theorem own_append (s t : Trace) : own (s ++ t) = own s ++ own t := List.filter_append ..

@[simp] theorem own_nil : own [] = [] := rfl

@[simp] theorem own_log (level : Level) (message : String) (t : Trace) :
    own (.log level message :: t) = .log level message :: own t := rfl

@[simp] theorem own_launch (call : Call) (t : Trace) :
    own (.launch call :: t) = .launch call :: own t := rfl

@[simp] theorem own_children (notes : List Note) : own (notes.map .child) = [] := by
  simp [own, Event.isNoise]

/-- The program's own doing has all the launches. -/
theorem calls_own (t : Trace) : calls (own t) = calls t := by
  induction t with
  | nil => rfl
  | cons e t ih =>
    cases e with
    | launch call => exact congrArg (call :: ·) ih
    | log level message => exact ih
    | child note => exact ih
    | makeDirectory path => exact ih
    | mount entry accepted => exact ih

end Trace

namespace World

variable {σ : Type}

/-- The world once the records among some events have been written. -/
def recorded (log : Option LogFile) (w : World σ) (t : Trace) : World σ :=
  t.foldl (fun w e => match e with
    | .log level message => (Action.log level message log w).world
    | _ => w) w

@[simp] theorem recorded_nil (log : Option LogFile) (w : World σ) : w.recorded log [] = w := rfl

end World

namespace Script

/-! ## Fates -/

/-- What becomes of the command of a line. -/
inductive Fate where
  | blank
  | unresolved (name : String) (error : NameError)
  | launched (call : Call) (reply : Except LaunchError Outcome)

namespace Fate

/-- The five ways in which a line can count. -/
inductive Kind where
  | skipped
  | unresolved
  | refused
  | succeeded
  | failed
  deriving DecidableEq, Repr

def kind : Fate → Kind
  | blank => .skipped
  | unresolved _ _ => .unresolved
  | launched _ (.error _) => .refused
  | launched _ (.ok outcome) => if outcome = .exited 0 then .succeeded else .failed

def outcome : Fate → LineOutcome
  | blank => .skipped
  | unresolved _ _ => .unresolved
  | launched _ (.error _) => .launchFailed
  | launched _ (.ok outcome) => .finished outcome

theorem outcome_launched_ne (call : Call) (reply : Except LaunchError Outcome) :
    (launched call reply).outcome ≠ .unresolved := by
  cases reply <;> simp [outcome]

/-- The record before a launch. -/
def opening (name : String) : Event := .log .info s!"[{name}] ..."

/-- What is seen of it: nothing, one warning, or a launch between two records. -/
def events : Fate → Trace
  | blank => []
  | unresolved name e => [.log .warn s!"cannot resolve `{name}`: {e.message}"]
  | launched call reply =>
    [opening call.command.name, .launch call, Interpreter.closing call.command.name reply]

/-- Every launch is a success, a failure or a refusal, and nothing else is one. -/
theorem length_calls_events (f : Fate) :
    (Trace.calls f.events).length =
      if f.kind = .succeeded ∨ f.kind = .failed ∨ f.kind = .refused then 1 else 0 := by
  cases f with
  | blank => rfl
  | unresolved name e => rfl
  | launched call reply =>
    have hcalls : Trace.calls (launched call reply).events = [call] := by
      simp only [events, opening, Trace.calls_log, Trace.calls_launch, Interpreter.calls_closing]
    rw [hcalls]
    cases reply with
    | error e => rfl
    | ok outcome => by_cases h : outcome = .exited 0 <;> simp [kind, h]

end Fate

/-! ## Passages -/

/-- A line of a script that has been run. -/
structure Passage where
  number : Nat
  words : List String
  fate : Fate

namespace Passage

/-- How many of its words were dropped. -/
def dropped (maxArgs : Nat) (p : Passage) : Nat := p.words.length - Invocation.room maxArgs

/-- The warning about dropped words, if there are any. -/
def warning (path : Path) (maxArgs number dropped : Nat) : Trace :=
  if 0 < dropped then
    let told := s!"dropped {dropped} token(s) beyond {maxArgs} arguments"
    [.log .warn s!"{path.display}:{number}: {told}"]
  else []

@[simp] theorem calls_warning (path : Path) (maxArgs number dropped : Nat) :
    Trace.calls (warning path maxArgs number dropped) = [] := by
  unfold warning
  split <;> rfl

def events (path : Path) (maxArgs : Nat) (p : Passage) : Trace :=
  warning path maxArgs p.number (p.dropped maxArgs) ++ p.fate.events

end Passage

section Passes

variable {σ : Type} (i : Interpreter σ) (path : Path) (log : Option LogFile)

/-- Words that are run in a world meet with a fate, and leave another world. -/
inductive Meets : World σ → List String → Fate → World σ → Prop where
  | blank (w : World σ) : Meets w [] .blank w
  | unresolved {w : World σ} {name : String} {args : List String} {error : NameError}
      (resolves : Command.resolve name i.searchDir = .error error) :
      Meets w (name :: args) (.unresolved name error)
        (w.recorded log (Fate.unresolved name error).events)
  | launched {w left : World σ} {name : String} {args : List String} {command : Command}
      {reply : Except LaunchError Outcome} {notes : List Note}
      (resolves : Command.resolve name i.searchDir = .ok command)
      (answers : i.launcher ⟨command, ((name :: args).take (Invocation.room i.maxArgs)).tail⟩
        (w.recorded log [Fate.opening name]) = (reply, notes, left)) :
      Meets w (name :: args)
        (.launched ⟨command, ((name :: args).take (Invocation.room i.maxArgs)).tail⟩ reply)
        (left.recorded log [Interpreter.closing name reply])

/-- Lines are passed one after another, the first of them with the number behind `number`. -/
inductive Passes : World σ → Nat → List (List String) → List Passage → World σ → Prop where
  | nil (w : World σ) (number : Nat) : Passes w number [] [] w
  | cons {w w' w'' : World σ} {number : Nat} {words : List String} {lines : List (List String)}
      {fate : Fate} {passages : List Passage}
      (meets : Meets i log (w.recorded log (Passage.warning path i.maxArgs (number + 1)
        (words.length - Invocation.room i.maxArgs))) words fate w')
      (rest : Passes w' (number + 1) lines passages w'') :
      Passes w number (words :: lines) (⟨number + 1, words, fate⟩ :: passages) w''

variable {i path log} {w w' : World σ} {number : Nat} {words : List (List String)}
  {passages : List Passage}

theorem Passes.map_words (h : Passes i path log w number words passages w') :
    passages.map (·.words) = words := by
  induction h with
  | nil => rfl
  | cons meets rest ih => exact congrArg (_ :: ·) ih

/-- The arguments of a launch are words that were kept. -/
theorem Passes.args_eq (h : Passes i path log w number words passages w') {p : Passage}
    (hp : p ∈ passages) {call : Call} {reply : Except LaunchError Outcome}
    (hfate : p.fate = .launched call reply) :
    call.args = (p.words.take (Invocation.room i.maxArgs)).tail := by
  induction h with
  | nil => cases hp
  | cons meets rest ih =>
    rcases List.mem_cons.1 hp with rfl | hp
    · subst hfate
      cases meets
      rfl
    · exact ih hp

end Passes

/-! ## Counting passages -/

/-- How many passages are of one kind. -/
def countOf (k : Fate.Kind) (passages : List Passage) : Nat := passages.countP (·.fate.kind = k)

theorem countOf_cons (k : Fate.Kind) (p : Passage) (passages : List Passage) :
    countOf k (p :: passages) = (if p.fate.kind = k then 1 else 0) + countOf k passages := by
  rw [countOf, List.countP_cons, Nat.add_comm]
  by_cases h : p.fate.kind = k <;> simp [h, countOf]

/-- A report counts passages. -/
structure Counts (maxArgs : Nat) (passages : List Passage) (report : Report) : Prop where
  lines_eq : report.lines = passages.length
  skipped_eq : report.skipped = countOf .skipped passages
  unresolved_eq : report.unresolved = countOf .unresolved passages
  launchErrors_eq : report.launchErrors = countOf .refused passages
  succeeded_eq : report.succeeded = countOf .succeeded passages
  failed_eq : report.failed = countOf .failed passages
  launched_eq : report.launched = report.succeeded + report.failed
  droppedTokens_eq : report.droppedTokens = (passages.map (·.dropped maxArgs)).sum

theorem counts_nil (maxArgs : Nat) : Counts maxArgs [] {} :=
  ⟨rfl, rfl, rfl, rfl, rfl, rfl, rfl, rfl⟩

/-- The report on a line counts it once, by its kind. -/
theorem ofLine_outcome (dropped : Nat) (f : Fate) :
    Report.ofLine dropped f.outcome =
      { lines := 1
        skipped := if f.kind = .skipped then 1 else 0
        unresolved := if f.kind = .unresolved then 1 else 0
        launchErrors := if f.kind = .refused then 1 else 0
        launched := (if f.kind = .succeeded then 1 else 0) + if f.kind = .failed then 1 else 0
        succeeded := if f.kind = .succeeded then 1 else 0
        failed := if f.kind = .failed then 1 else 0
        droppedTokens := dropped } := by
  cases f with
  | blank => rfl
  | unresolved name e => rfl
  | launched call reply =>
    cases reply with
    | error e => rfl
    | ok outcome =>
      by_cases h : outcome = .exited 0 <;>
        simp [Fate.outcome, Fate.kind, Report.ofLine, Outcome.success, h]

/-- One more passage is counted by the report on its line. -/
theorem Counts.cons {maxArgs : Nat} {passages : List Passage} {report : Report}
    (h : Counts maxArgs passages report) (p : Passage) :
    Counts maxArgs (p :: passages) (.ofLine (p.dropped maxArgs) p.fate.outcome + report) := by
  rw [ofLine_outcome]
  refine
    { lines_eq := (congrArg (1 + ·) h.lines_eq).trans (Nat.add_comm ..)
      skipped_eq := (congrArg (_ + ·) h.skipped_eq).trans (countOf_cons ..).symm
      unresolved_eq := (congrArg (_ + ·) h.unresolved_eq).trans (countOf_cons ..).symm
      launchErrors_eq := (congrArg (_ + ·) h.launchErrors_eq).trans (countOf_cons ..).symm
      succeeded_eq := (congrArg (_ + ·) h.succeeded_eq).trans (countOf_cons ..).symm
      failed_eq := (congrArg (_ + ·) h.failed_eq).trans (countOf_cons ..).symm
      launched_eq := (congrArg (_ + ·) h.launched_eq).trans (Nat.add_add_add_comm ..)
      droppedTokens_eq := congrArg (_ + ·) h.droppedTokens_eq }

/-- Every passage is of one kind. -/
theorem length_eq_countOf (passages : List Passage) :
    passages.length = countOf .skipped passages + countOf .unresolved passages +
      countOf .refused passages + (countOf .succeeded passages + countOf .failed passages) := by
  induction passages with
  | nil => rfl
  | cons p passages ih =>
    simp only [countOf_cons, List.length_cons]
    cases p.fate.kind <;> simp <;> omega

/-- The launches of passages are those that were not without one. -/
theorem length_calls_passages (path : Path) (maxArgs : Nat) (passages : List Passage) :
    (Trace.calls (passages.flatMap (·.events path maxArgs))).length =
      countOf .succeeded passages + countOf .failed passages + countOf .refused passages := by
  induction passages with
  | nil => rfl
  | cons p passages ih =>
    rw [List.flatMap_cons, Trace.calls_append, Passage.events, Trace.calls_append,
      Passage.calls_warning, List.nil_append, List.length_append, Fate.length_calls_events, ih]
    simp only [countOf_cons]
    cases p.fate.kind <;> simp <;> omega

theorem countOf_pos_iff {k : Fate.Kind} {passages : List Passage} :
    0 < countOf k passages ↔ ∃ p ∈ passages, p.fate.kind = k := by
  simp [countOf, List.countP_pos_iff]

end Script

/-! ## Runs -/

namespace Interpreter

open Script

variable {σ : Type} (i : Interpreter σ) (path : Path) (log : Option LogFile)

@[simp] theorem own_closing (name : String) (reply : Except LaunchError Outcome) :
    Trace.own [closing name reply] = [closing name reply] := by
  cases reply with
  | error e => rfl
  | ok outcome =>
    simp only [closing]
    split <;> rfl

/-- A launch is concluded by its closing record alone. -/
theorem conclude_apply (call : Call) (name : String) (reply : Except LaunchError Outcome)
    (w : World σ) :
    conclude name reply log w =
      ⟨(Fate.launched call reply).outcome, [closing name reply],
        w.recorded log [closing name reply]⟩ := by
  cases reply with
  | error e => rfl
  | ok outcome =>
    simp only [conclude, closing, Fate.outcome]
    split <;> rfl

/-- The words that are kept of a line. -/
def kept (words : List String) : Invocation :=
  ⟨words.take (Invocation.room i.maxArgs), words.length - Invocation.room i.maxArgs⟩

/-- They are run, and meet with a fate. -/
theorem execute_meets (words : List String) (w : World σ) :
    let ran := i.execute (i.kept words) log w
    ∃ fate, Meets i log w words fate ran.world ∧ ran.trace.own = fate.events ∧
      ran.value = fate.outcome := by
  cases words with
  | nil =>
    refine ⟨.blank, ?_⟩
    rw [execute_of_none i (by simp [kept, Invocation.command?])]
    exact ⟨.blank w, rfl, rfl⟩
  | cons name args =>
    have hname : (i.kept (name :: args)).command? = some name := by
      simp [kept, Invocation.command?, List.head?_take,
        (Invocation.room_pos i.maxArgs).ne']
    cases hc : Command.resolve name i.searchDir with
    | error e =>
      refine ⟨.unresolved name e, ?_⟩
      rw [execute_of_error i hname hc]
      exact ⟨.unresolved hc, rfl, rfl⟩
    | ok command =>
      let call : Call := ⟨command, (i.kept (name :: args)).args⟩
      let opened := w.recorded log [Fate.opening name]
      rcases hreply : i.launcher call opened with ⟨reply, notes, left⟩
      have hlaunch : Action.launch i.launcher ⟨command, (i.kept (name :: args)).args⟩ log opened =
          ⟨reply, .launch call :: notes.map .child, left⟩ := by
        rw [Action.launch, hreply]
      have hopened : Action.log .info s!"[{name}] ..." log w =
          ⟨(), [Fate.opening name], opened⟩ := rfl
      -- The records tell the name of the command, which is the word that it was resolved from.
      refine ⟨.launched call reply, ?_⟩
      rw [execute_of_ok i hname hc]
      simp only [Action.bind_apply, hopened, hlaunch, conclude_apply log call]
      refine ⟨.launched hc hreply, ?_, trivial⟩
      simp only [Fate.opening, Trace.own_log, List.cons_append, Trace.own_launch, Trace.own_append,
        Trace.own_children, own_closing, List.nil_append, Fate.events, call,
        (Command.resolve_eq_ok_iff.1 hc).1]

@[simp] theorem own_warning (maxArgs number dropped : Nat) :
    Trace.own (Passage.warning path maxArgs number dropped) =
      Passage.warning path maxArgs number dropped := by
  unfold Passage.warning
  split <;> rfl

/-- The warning about the words that are not. -/
def warningOf (number : Nat) (words : List String) : Trace :=
  Passage.warning path i.maxArgs number (i.kept words).dropped

/-- A line is run behind the warning about its dropped words, if there is one. -/
theorem runLine_apply {line : Octets} {words : List String}
    (hwords : Invocation.tokens line.lossy = words) (number : Nat) (w : World σ) :
    i.runLine path number line log w =
      ⟨.ofLine (i.kept words).dropped
          (i.execute (i.kept words) log (w.recorded log (i.warningOf path number words))).value,
        i.warningOf path number words ++
          (i.execute (i.kept words) log (w.recorded log (i.warningOf path number words))).trace,
        (i.execute (i.kept words) log (w.recorded log (i.warningOf path number words))).world⟩ := by
  have hline : Invocation.ofLine line.lossy i.maxArgs = i.kept words := by
    rw [← hwords]
    rfl
  unfold runLine warningOf Passage.warning
  rw [hline]
  by_cases hdropped : 0 < (i.kept words).dropped
  · rw [if_pos hdropped, if_pos hdropped]
    simp only [Action.bind_apply, Action.pure_apply, List.append_nil]
    rfl
  · rw [if_neg hdropped, if_neg hdropped]
    simp only [Action.bind_apply, Action.pure_apply, List.append_nil]
    rfl

/-- So a line is passed. -/
theorem runLine_meets {line : Octets} {words : List String}
    (hwords : Invocation.tokens line.lossy = words) (number : Nat) (w : World σ) :
    let ran := i.runLine path number line log w
    ∃ fate, Meets i log (w.recorded log (i.warningOf path number words)) words fate ran.world ∧
      ran.trace.own = i.warningOf path number words ++ fate.events ∧
      ran.value = .ofLine (i.kept words).dropped fate.outcome := by
  dsimp only
  obtain ⟨fate, hmeets, htrace, hvalue⟩ :=
    execute_meets i log words (w.recorded log (i.warningOf path number words))
  rw [runLine_apply i path log hwords]
  refine ⟨fate, hmeets, ?_, congrArg (Report.ofLine _) hvalue⟩
  rw [Trace.own_append]
  exact congrArg₂ (· ++ ·) (own_warning path _ _ _) htrace

/-- Lines are passed one after another. -/
theorem runEach_passes (lines : List Octets) (number : Nat) (w : World σ) :
    let ran := i.runEach path number lines log w
    ∃ passages,
      Passes i path log w number (lines.map fun line => Invocation.tokens line.lossy) passages
        ran.world ∧
      ran.trace.own = passages.flatMap (·.events path i.maxArgs) ∧
      Counts i.maxArgs passages ran.value := by
  induction lines generalizing number w with
  | nil => exact ⟨[], .nil w number, rfl, counts_nil _⟩
  | cons line lines ih =>
    dsimp only
    have hwords : Invocation.tokens line.lossy = Invocation.tokens line.lossy := rfl
    obtain ⟨fate, hmeets, htrace, hvalue⟩ := runLine_meets i path log hwords (number + 1) w
    obtain ⟨passages, hpasses, hmore, hcounts⟩ :=
      ih (number + 1) (i.runLine path (number + 1) line log w).world
    let passage : Passage := ⟨number + 1, Invocation.tokens line.lossy, fate⟩
    rw [runEach_cons]
    refine ⟨passage :: passages, .cons hmeets hpasses, ?_, ?_⟩
    · rw [Trace.own_append, htrace, hmore]
      rfl
    · dsimp only
      rw [hvalue]
      exact hcounts.cons passage

/-! ## Contents -/

/-- What the run of a script comes to. -/
structure Accounted (content : Octets) (w : World σ) (passages : List Passage) (report : Report)
    (ran : Ran σ Run) : Prop where
  /-- The lines of the text are passed, each in the world that the one before has left. -/
  passes : Passes i path log w 0 ((lines '\n' (Utf8.decodeLossy content)).map lineWords) passages
    ran.world
  trace_eq : ran.trace.own = passages.flatMap (·.events path i.maxArgs)
  result_eq : ran.value.result = .ok report
  counts : Counts i.maxArgs passages report
  lines_eq_sum : report.lines =
    report.skipped + report.unresolved + report.launchErrors + report.launched
  length_calls : report.launched + report.launchErrors = ran.trace.calls.length
  hasFailures_iff : report.hasFailures = true ↔ ∃ p ∈ passages,
    p.fate.kind = .unresolved ∨ p.fate.kind = .refused ∨ p.fate.kind = .failed
  /-- No count is larger than the content, nor is the sum of those that are failures. -/
  troubled_le : report.troubled ≤ report.lines
  lines_le : report.lines ≤ content.length
  droppedTokens_le : report.droppedTokens ≤ content.length
  /-- Where a machine word can count the words of a line, its arguments are bounded by `maxArgs`
  alone. -/
  within_word : content.length < 2 ^ 64 → ∀ p ∈ passages,
    p.dropped i.maxArgs = p.words.length - (i.maxArgs + 1) ∧
      ∀ call reply, p.fate = .launched call reply → call.args = p.words.tail.take i.maxArgs

/-- What the words of lines count for, if that is no more than the words are. -/
theorem sum_lineWords_le {f : List String → Nat} (hf : ∀ words, f words ≤ words.length)
    (content : Octets) :
    (((lines '\n' (Utf8.decodeLossy content)).map lineWords).map f).sum ≤ content.length := by
  have hline : ∀ line, (f ∘ lineWords) line ≤ line.length := fun line =>
    Nat.le_trans (hf _) (length_lineWords_le line)
  rw [List.map_map]
  exact Nat.le_trans (sum_lines_le _ (Nat.le_succ_of_le (hline [])) (fun line _ => hline line) _)
    (Utf8.length_decodeLossy_le content)

/-- Whatever its lines hold and whatever the launcher answers, a script is accounted for. -/
theorem runFeed_accounted (content : Octets) (w : World σ) :
    ∃ passages report, Accounted i path log content w passages report
      (i.runFeed path (Feed.ofOctets content) log w) := by
  obtain ⟨passages, hpasses, htrace, hcounts⟩ :=
    runEach_passes i path log (Feed.linesRead content) 0 w
  let report := (i.runEach path 0 (Feed.linesRead content) log w).value
  have hrun : i.runFeed path (Feed.ofOctets content) log w =
      ⟨⟨.ok report, []⟩, (i.runEach path 0 (Feed.linesRead content) log w).trace,
        (i.runEach path 0 (Feed.linesRead content) log w).world⟩ := by
    rw [runFeed_eq_runEach]
    simp only [Action.bind_apply, Action.pure_apply, List.append_nil]
    rfl
  rw [words_linesRead] at hpasses
  rw [hrun]
  -- What is said of all lines is said through the passages, which have the words of the lines.
  have hmap := hpasses.map_words
  have hparts : report.lines =
      report.skipped + report.unresolved + report.launchErrors + report.launched := by
    rw [hcounts.lines_eq, hcounts.launched_eq, length_eq_countOf, hcounts.skipped_eq,
      hcounts.unresolved_eq, hcounts.launchErrors_eq, hcounts.succeeded_eq, hcounts.failed_eq]
  have htroubled : report.troubled =
      countOf .failed passages + countOf .refused passages + countOf .unresolved passages := by
    rw [Report.troubled, hcounts.failed_eq, hcounts.launchErrors_eq, hcounts.unresolved_eq]
  refine ⟨passages, report,
    { passes := hpasses
      trace_eq := htrace
      result_eq := rfl
      counts := hcounts
      lines_eq_sum := hparts
      length_calls := ?_
      hasFailures_iff := ?_
      troubled_le := ?_
      lines_le := ?_
      droppedTokens_le := ?_
      within_word := ?_ }⟩
  · rw [← Trace.calls_own, htrace, length_calls_passages, hcounts.launched_eq,
      hcounts.succeeded_eq, hcounts.failed_eq, hcounts.launchErrors_eq]
  · rw [Report.hasFailures, decide_eq_true_iff, htroubled]
    constructor
    · intro hpos
      have hsome : 0 < countOf .unresolved passages ∨ 0 < countOf .refused passages ∨
          0 < countOf .failed passages := by omega
      rcases hsome with h | h | h
      · obtain ⟨p, hp, hk⟩ := countOf_pos_iff.1 h
        exact ⟨p, hp, .inl hk⟩
      · obtain ⟨p, hp, hk⟩ := countOf_pos_iff.1 h
        exact ⟨p, hp, .inr (.inl hk)⟩
      · obtain ⟨p, hp, hk⟩ := countOf_pos_iff.1 h
        exact ⟨p, hp, .inr (.inr hk)⟩
    · rintro ⟨p, hp, h | h | h⟩
      · have := countOf_pos_iff.2 ⟨p, hp, h⟩
        omega
      · have := countOf_pos_iff.2 ⟨p, hp, h⟩
        omega
      · have := countOf_pos_iff.2 ⟨p, hp, h⟩
        omega
  · rw [htroubled, hcounts.lines_eq, length_eq_countOf]
    omega
  · rw [hcounts.lines_eq, ← List.length_map, hmap, List.length_map]
    exact Nat.le_trans (length_lines_le _ _) (Utf8.length_decodeLossy_le content)
  · rw [hcounts.droppedTokens_eq]
    have hdropped : (passages.map (·.dropped i.maxArgs)) =
        (passages.map (·.words)).map fun words => words.length - Invocation.room i.maxArgs := by
      rw [List.map_map]
      rfl
    rw [hdropped, hmap]
    exact sum_lineWords_le (fun words => Nat.sub_le ..) content
  · intro hword p hp
    have hlen : p.words.length ≤ content.length := by
      have hmem : p.words.length ∈ (((lines '\n' (Utf8.decodeLossy content)).map lineWords).map
          List.length) := by
        rw [← hmap]
        exact List.mem_map_of_mem (List.mem_map_of_mem hp)
      exact Nat.le_trans (List.le_sum_of_mem hmem)
        (sum_lineWords_le (fun words => Nat.le_refl _) content)
    have hle : p.words.length ≤ wordMax := by
      rw [wordMax]
      omega
    refine ⟨?_, fun call reply hfate => ?_⟩
    · have hroom : ∀ n m limit : Nat, n ≤ limit → n - min (m + 1) limit = n - (m + 1) := by omega
      exact hroom _ _ _ hle
    · rw [hpasses.args_eq hp hfate]
      exact tail_take_room hle i.maxArgs

end Interpreter
end BootSequence
