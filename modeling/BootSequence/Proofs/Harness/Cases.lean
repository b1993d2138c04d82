import BootSequence.Proofs.Script.Account
import BootSequence.Proofs.Text.Blank
import BootSequence.Proofs.Tree.Reading
import BootSequence.Rehearsal

/-!
Lists of test cases. Every line of a list names one case or none, and each case is tried in its
turn, in the world that the one before has left: it meets with a fate, and by that counts once, as
passed or as failed (`cases_counted`).
-/

namespace BootSequence
namespace Harness

/-! ## The cases of a text -/

/-- The name on a line, if there is one. -/
def caseName? (line : List Char) : Option String :=
  if Blank.trim line = [] then none else some (String.ofList (Blank.trim line))

/-- The cases that a list names, in the order of its lines. The content is decoded as a whole. -/
def cases (content : Octets) : List String :=
  ((Utf8.decodeLossy content).splitOn '\n').filterMap caseName?

theorem caseName?_nil : caseName? [] = none := rfl

theorem caseName?_append_gap {gap : List Char} (h : ∀ c ∈ gap, Blank.isWhite c = true)
    (cs : List Char) : caseName? (cs ++ gap) = caseName? cs := by
  rw [caseName?, caseName?, Blank.trim_append h]

def namesOf (lines : List Octets) : List String :=
  lines.filterMap fun line => caseName? (Utf8.decodeLossy line)

/-- A last piece that is empty names nothing. -/
theorem filterMap_lines {β : Type} {g : List Char → Option β} (hg : g [] = none) (cs : List Char) :
    (lines '\n' cs).filterMap g = (cs.splitOn '\n').filterMap g := by
  rw [lines]
  split
  · rename_i hlast
    obtain ⟨body, hbody⟩ := List.getLast?_eq_some_iff.1 hlast
    rw [hbody, List.dropLast_concat, List.filterMap_append, List.filterMap_cons, hg]
    exact (List.append_nil _).symm
  · rfl

theorem namesOf_linesRead (content : Octets) :
    namesOf (Feed.linesRead content) = cases content := by
  have hmap : (Feed.linesRead content).map (fun line => caseName? (Utf8.decodeLossy line)) =
      (lines '\n' (Utf8.decodeLossy content)).map caseName? :=
    Feed.map_linesRead (fun _ _ => rfl)
      (fun cs _ => caseName?_append_gap Blank.isWhite_newline cs) content
  have hid := congrArg (List.filterMap id) hmap
  rw [List.filterMap_map, List.filterMap_map] at hid
  exact hid.trans (filterMap_lines caseName?_nil _)

/-! ## Fates -/

/-- What becomes of a case: it has no path, or the launcher answers. -/
inductive Fate where
  | unresolved (error : NameError)
  | launched (path : Path) (reply : Except LaunchError Outcome)

namespace Fate

def verdict : Fate → Verdict
  | unresolved _ | launched _ (.error _) => .launchFailed
  | launched _ (.ok outcome) => .ofOutcome outcome

/-- Only a case that was launched passes, and only by one of two codes. -/
def passes : Fate → Bool
  | unresolved _ | launched _ (.error _) => false
  | launched _ (.ok outcome) => outcome.code = 0 ∨ outcome.code = testWarnCode

theorem isPass_ofOutcome (outcome : Outcome) :
    (Verdict.ofOutcome outcome).isPass =
      decide (outcome.code = 0 ∨ outcome.code = testWarnCode) := by
  unfold Verdict.ofOutcome
  split
  · rename_i hzero
    simp [Verdict.isPass, hzero]
  · split <;> simp_all [Verdict.isPass]

theorem isPass_verdict (f : Fate) : f.verdict.isPass = f.passes := by
  cases f with
  | unresolved e => rfl
  | launched path reply =>
    cases reply with
    | error e => rfl
    | ok outcome => exact isPass_ofOutcome outcome

def closing (name : String) : Fate → Event
  | unresolved e => .log .error s!"[{name}] {e.message}"
  | launched _ (.error e) => .log .error s!"[{name}] {e.message}"
  | launched _ (.ok outcome) =>
    if outcome.code = 0 then .log .info s!"[{name}] ok!"
    else if outcome.code = testWarnCode then .log .info s!"[{name}] ok with warnings!"
    else .log .warn s!"[{name}] err [{outcome.code}]!"

theorem closing_eq_log (name : String) (f : Fate) :
    ∃ level message, f.closing name = .log level message := by
  cases f with
  | unresolved e => exact ⟨_, _, rfl⟩
  | launched path reply =>
    cases reply with
    | error e => exact ⟨_, _, rfl⟩
    | ok outcome =>
      simp only [closing]
      split
      · exact ⟨_, _, rfl⟩
      · split <;> exact ⟨_, _, rfl⟩

/-- A case is launched once, if at all, without arguments and between two records. -/
def events (name : String) (f : Fate) : Trace :=
  match f with
  | unresolved _ => [.log .info s!"[{name}] ...", f.closing name]
  | launched path _ =>
    [.log .info s!"[{name}] ...", .launch ⟨⟨name, path⟩, []⟩, f.closing name]

end Fate

section Tries

variable {σ : Type} (h : Harness σ) (log : Option LogFile)

def opening (name : String) : Event := .log .info s!"[{name}] ..."

/-- A case that is tried in a world meets with a fate, and leaves another world. -/
inductive Tries : World σ → String → Fate → World σ → Prop where
  | unresolved {w : World σ} {name : String} {error : NameError}
      (joins : Command.join h.caseDir name = .error error) :
      Tries w name (.unresolved error)
        ((w.recorded log [opening name]).recorded log [(Fate.unresolved error).closing name])
  | launched {w left : World σ} {name : String} {path : Path}
      {reply : Except LaunchError Outcome} {notes : List Note}
      (joins : Command.join h.caseDir name = .ok path)
      (answers : h.launcher ⟨⟨name, path⟩, []⟩ (w.recorded log [opening name]) =
        (reply, notes, left)) :
      Tries w name (.launched path reply)
        (left.recorded log [(Fate.launched path reply).closing name])

/-- Cases are tried one after another. -/
inductive TriesAll : World σ → List String → List Fate → World σ → Prop where
  | nil (w : World σ) : TriesAll w [] [] w
  | cons {w w' w'' : World σ} {name : String} {fate : Fate} {names : List String}
      {fates : List Fate} (tries : Tries h log w name fate w')
      (rest : TriesAll w' names fates w'') : TriesAll w (name :: names) (fate :: fates) w''

theorem runCase_of_unresolved {name : String} {e : NameError}
    (hjoin : Command.join h.caseDir name = .error e) (w : World σ) :
    let fate : Fate := .unresolved e
    h.runCase name log w = ⟨fate.verdict, [opening name, fate.closing name],
      (w.recorded log [opening name]).recorded log [fate.closing name]⟩ := by
  have hresolve : Command.resolveUnder h.caseDir name = .error e := by
    rw [Command.resolveUnder, hjoin]
    rfl
  simp only [runCase, judge, hresolve, Action.bind_apply, Action.pure_apply]
  rfl

theorem runCase_of_launched {name : String} {path : Path} {w left : World σ}
    {reply : Except LaunchError Outcome} {notes : List Note}
    (hjoin : Command.join h.caseDir name = .ok path)
    (hreply : h.launcher ⟨⟨name, path⟩, []⟩ (w.recorded log [opening name]) =
      (reply, notes, left)) :
    let fate : Fate := .launched path reply
    h.runCase name log w =
      ⟨fate.verdict, opening name :: .launch ⟨⟨name, path⟩, []⟩ :: notes.map .child ++
        [fate.closing name], left.recorded log [fate.closing name]⟩ := by
  have hresolve : Command.resolveUnder h.caseDir name = .ok ⟨name, path⟩ := by
    rw [Command.resolveUnder, hjoin]
    rfl
  have hopened : Action.log .info s!"[{name}] ..." log w =
      ⟨(), [opening name], w.recorded log [opening name]⟩ := rfl
  have hlaunch : Action.launch h.launcher ⟨⟨name, path⟩, []⟩ log (w.recorded log [opening name]) =
      ⟨reply, .launch ⟨⟨name, path⟩, []⟩ :: notes.map .child, left⟩ := by
    rw [Action.launch, hreply]
  cases reply with
  | error e =>
    simp only [runCase, judge, hresolve, Action.bind_apply, hopened, hlaunch, Action.pure_apply,
      List.append_nil]
    rfl
  | ok outcome =>
    simp only [runCase, judge, hresolve, Action.bind_apply, hopened, hlaunch, Action.pure_apply,
      Fate.verdict, Fate.closing, Verdict.ofOutcome]
    by_cases hzero : outcome.code = 0
    · simp only [if_pos hzero, List.append_nil]
      rfl
    · by_cases hwarn : outcome.code = testWarnCode
      · simp only [if_neg hzero, if_pos hwarn, List.append_nil]
        rfl
      · simp only [if_neg hzero, if_neg hwarn, List.append_nil]
        rfl

/-- Whatever becomes of a case, it is tried. -/
theorem runCase_tries (name : String) (w : World σ) :
    let ran := h.runCase name log w
    ∃ fate, Tries h log w name fate ran.world ∧ ran.value = fate.verdict ∧
      ran.trace.own = fate.events name := by
  cases hjoin : Command.join h.caseDir name with
  | error e =>
    refine ⟨.unresolved e, ?_⟩
    rw [runCase_of_unresolved h log hjoin]
    exact ⟨.unresolved hjoin, rfl, rfl⟩
  | ok path =>
    rcases hreply : h.launcher ⟨⟨name, path⟩, []⟩ (w.recorded log [opening name]) with
      ⟨reply, notes, left⟩
    refine ⟨.launched path reply, ?_⟩
    rw [runCase_of_launched h log hjoin hreply]
    refine ⟨.launched hjoin hreply, rfl, ?_⟩
    obtain ⟨level, message, hclosing⟩ := (Fate.launched path reply).closing_eq_log name
    simp [Fate.events, opening, hclosing]

/-! ## Cases one after another -/

def runCases (h : Harness σ) : Tally → List String → Action σ Tally
  | tally, [] => return tally
  | tally, name :: names => do
    let counted ← h.countCase tally name
    h.runCases counted.2 names

theorem countCase_apply (tally : Tally) (name : String) (w : World σ) :
    let ran := h.runCase name log w
    h.countCase tally name log w = ⟨(ran.value, tally.count ran.value), ran.trace, ran.world⟩ := by
  simp only [countCase, Action.bind_apply, Action.pure_apply, List.append_nil]

theorem runCases_cons (tally : Tally) (name : String) (names : List String) (w : World σ) :
    let first := h.runCase name log w
    let more := h.runCases (tally.count first.value) names log first.world
    h.runCases tally (name :: names) log w =
      ⟨more.value, first.trace ++ more.trace, more.world⟩ := by
  simp only [runCases, Action.bind_apply, countCase_apply]

theorem runCases_append (tally : Tally) (names more : List String) :
    h.runCases tally (names ++ more) = (do
      let counted ← h.runCases tally names
      h.runCases counted more) := by
  induction names generalizing tally with
  | nil => rfl
  | cons name names ih => simp only [List.cons_append, runCases, ih, bind_assoc]

theorem count_eq (tally : Tally) (f : Fate) :
    tally.count f.verdict =
      ⟨tally.passed + (if f.passes then 1 else 0), tally.failed + (if f.passes then 0 else 1)⟩ := by
  rw [Tally.count, Fate.isPass_verdict]
  split <;> rfl

/-- Each case is tried once, in order, and counts once. -/
theorem runCases_tries (tally : Tally) (names : List String) (w : World σ) :
    let ran := h.runCases tally names log w
    ∃ fates, TriesAll h log w names fates ran.world ∧
      ran.trace.own = (List.zipWith Fate.events names fates).flatten ∧
      ran.value = ⟨tally.passed + fates.countP Fate.passes,
        tally.failed + fates.countP (!Fate.passes ·)⟩ := by
  induction names generalizing tally w with
  | nil => exact ⟨[], .nil w, rfl, rfl⟩
  | cons name names ih =>
    obtain ⟨fate, htries, hverdict, htrace⟩ := runCase_tries h log name w
    obtain ⟨fates, hall, hmore, hvalue⟩ :=
      ih (tally.count (h.runCase name log w).value) (h.runCase name log w).world
    rw [runCases_cons]
    refine ⟨fate :: fates, .cons htries hall, ?_, ?_⟩
    · rw [Trace.own_append, htrace, hmore]
      rfl
    · rw [hvalue, hverdict, count_eq]
      cases hpass : fate.passes <;> simp [hpass] <;> omega

variable {h log} {w w' : World σ} {names : List String} {fates : List Fate}

theorem TriesAll.length_eq (ht : TriesAll h log w names fates w') :
    fates.length = names.length := by
  induction ht with
  | nil => rfl
  | cons _ _ ih => exact congrArg (· + 1) ih

def request? (caseDir : Path) (name : String) : Option Call :=
  match Command.join caseDir name with
  | .error _ => none
  | .ok path => some ⟨⟨name, path⟩, []⟩

theorem Tries.calls_eq {name : String} {fate : Fate} (ht : Tries h log w name fate w') :
    Trace.calls (fate.events name) = (request? h.caseDir name).toList := by
  obtain ⟨level, message, hclosing⟩ := fate.closing_eq_log name
  cases ht with
  | unresolved hjoin => simp [Fate.events, request?, hjoin, hclosing]
  | launched hjoin => simp [Fate.events, request?, hjoin, hclosing]

/-- Whatever is answered, the same cases are launched. -/
theorem TriesAll.calls_eq (ht : TriesAll h log w names fates w') :
    Trace.calls (List.zipWith Fate.events names fates).flatten =
      names.filterMap (request? h.caseDir) := by
  induction ht with
  | nil => rfl
  | @cons _ _ _ name _ _ _ htries _ ih =>
    rw [List.zipWith_cons_cons, List.flatten_cons, Trace.calls_append, htries.calls_eq, ih,
      List.filterMap_cons]
    cases request? h.caseDir name <;> rfl

/-! ## Lists -/

theorem namesOf_cons (line : Octets) (lines : List Octets) :
    namesOf (line :: lines) = (caseName? (Utf8.decodeLossy line)).toList ++ namesOf lines := by
  rw [namesOf, List.filterMap_cons]
  cases caseName? (Utf8.decodeLossy line) <;> rfl

variable (h log)

theorem runLine_eq_runCases (tally : Tally) (line : Octets) :
    h.runLine tally line = h.runCases tally (caseName? (Utf8.decodeLossy line)).toList := by
  unfold runLine caseName?
  dsimp only
  by_cases hname : Blank.trim (Utf8.decodeLossy line) = []
  · rw [if_pos hname, if_pos (List.isEmpty_iff.2 hname)]
    rfl
  · rw [if_neg hname, if_neg (mt List.isEmpty_iff.1 hname)]
    rfl

theorem foldlM_runLine (tally : Tally) (lines : List Octets) :
    lines.foldlM h.runLine tally = h.runCases tally (namesOf lines) := by
  induction lines generalizing tally with
  | nil => rfl
  | cons line lines ih =>
    rw [List.foldlM_cons, namesOf_cons, runCases_append, ← runLine_eq_runCases]
    exact congrArg _ (funext ih)

theorem runList_of_unopened {list : Path} {fault : Fault}
    (hopens : OpenFile.ofPath w.files list = .error fault) :
    h.runList list log w = ⟨.error (.cannotOpen list fault), [], w⟩ := by
  simp only [runList, Action.bind_apply, Action.files_apply, hopens, Action.pure_apply,
    List.append_nil]

/-- A list is run as its lines are read. -/
theorem runList_of_reads {list : Path} {file left : OpenFile} {lines : List Octets}
    {failure : Option Errno} (hopens : OpenFile.ofPath w.files list = .ok file)
    (hreads : Reads h.runLine log w {} file lines failure left) :
    let all := h.runCases {} (namesOf lines) log w
    h.runList list log w =
      ⟨failure.elim (.ok all.value) fun e => .error (.cannotRead list all.value (.numbered e)),
        all.trace, all.world⟩ := by
  rw [runList, Action.files_bind, hopens]
  dsimp only
  rw [Action.bind_apply, foldAll_of_reads hreads, foldlM_runLine]
  exact congrArg (Ran.mk _ · _) (List.append_nil _)

/-- What the run of a list comes to whose lines name these cases, and that stops at this failure if
it does not go to the end. -/
structure Counted (list : Path) (w : World σ) (names : List String) (failure : Option Errno)
    (fates : List Fate) (ran : Ran σ (Except Error Tally)) : Prop where
  /-- Each case is tried once, in the world that the one before has left. -/
  tries : TriesAll h log w names fates ran.world
  own_eq : ran.trace.own = (List.zipWith Fate.events names fates).flatten
  /-- The launcher is not asked what the calls are to be. -/
  calls_eq : ran.trace.calls = names.filterMap (request? h.caseDir)
  result_eq : ∃ tally : Tally, tally.passed = fates.countP Fate.passes ∧
    tally.failed = fates.countP (!Fate.passes ·) ∧ tally.total = names.length ∧
    ran.value = failure.elim (.ok tally) fun e => .error (.cannotRead list tally (.numbered e))

theorem countP_passes (fates : List Fate) :
    fates.countP Fate.passes + fates.countP (!Fate.passes ·) = fates.length := by
  induction fates with
  | nil => rfl
  | cons fate fates ih => cases hpass : fate.passes <;> simp [hpass] <;> omega

theorem runList_counted {list : Path} {file left : OpenFile} {lines : List Octets}
    {failure : Option Errno} (hopens : OpenFile.ofPath w.files list = .ok file)
    (hreads : Reads h.runLine log w {} file lines failure left) :
    ∃ fates, Counted h log list w (namesOf lines) failure fates (h.runList list log w) := by
  obtain ⟨fates, htries, hown, hvalue⟩ := runCases_tries h log {} (namesOf lines) w
  rw [runList_of_reads h log hopens hreads]
  refine ⟨fates, ⟨htries, hown, ?_, ?_⟩⟩
  · rw [← Trace.calls_own, hown, htries.calls_eq]
  · refine ⟨_, ?_, ?_, ?_, rfl⟩
    · rw [hvalue]
      exact Nat.zero_add _
    · rw [hvalue]
      exact Nat.zero_add _
    · have hsum := countP_passes fates
      rw [hvalue, Tally.total, ← htries.length_eq]
      show 0 + _ + (0 + _) = _
      omega

/-- A list that stays as it is is run to its end, and all its cases are. -/
theorem runList_of_steady {list : Path} {file : OpenFile} {content : Octets}
    (hopens : OpenFile.ofPath w.files list = .ok file)
    (hcontent : w.files.contentAt file.loc = .ok content)
    (hsteady : Steady h.launcher log file.loc content) :
    ∃ fates, Counted h log list w (cases content) none fates (h.runList list log w) := by
  obtain ⟨lines, failure, left, hreads⟩ := exists_reads h.runLine log w {} file
  have hstep : ∀ tally line w, w.files.contentAt file.loc = .ok content →
      (h.runLine tally line log w).world.files.contentAt file.loc = .ok content :=
    fun tally line w => obeys_runLine hsteady.law (fun call _ => hsteady.launch call) tally line w
  obtain ⟨hlines, hfailure⟩ := hreads.lines_of_opened hopens hcontent hcontent hstep
  have hcounted := runList_counted h log hopens hreads
  rwa [hlines, hfailure, namesOf_linesRead] at hcounted

/-- A list is run case by case in the order of its lines, whatever the launcher answers and as far
as it can be read, and each case adds one to one of the two counts. -/
theorem cases_counted (list : Path) (w : World σ) :
    (∀ fault, OpenFile.ofPath w.files list = .error fault →
      h.runList list log w = ⟨.error (.cannotOpen list fault), [], w⟩) ∧
    (∀ file, OpenFile.ofPath w.files list = .ok file →
      ∃ lines failure left fates, Reads h.runLine log w {} file lines failure left ∧
        Counted h log list w (namesOf lines) failure fates (h.runList list log w)) ∧
    (∀ file content, OpenFile.ofPath w.files list = .ok file →
      w.files.contentAt file.loc = .ok content → Steady h.launcher log file.loc content →
      ∃ fates, Counted h log list w (cases content) none fates (h.runList list log w)) ∧
    (∀ tally name, ∃ verdict after, (h.countCase tally name log w).value = (verdict, after) ∧
      after.passed = tally.passed + (if verdict.isPass then 1 else 0) ∧
      after.failed = tally.failed + (if verdict.isPass then 0 else 1)) ∧
    ∀ tally names, ∃ fates, TriesAll h log w names fates (h.runCases tally names log w).world ∧
      (h.runCases tally names log w).value = ⟨tally.passed + fates.countP (·.verdict.isPass),
        tally.failed + fates.countP (!·.verdict.isPass)⟩ := by
  refine ⟨fun _ => runList_of_unopened h log, ?_, fun _ _ => runList_of_steady h log, ?_, ?_⟩
  · intro file hopens
    obtain ⟨lines, failure, left, hreads⟩ := exists_reads h.runLine log w {} file
    obtain ⟨fates, hcounted⟩ := runList_counted h log hopens hreads
    exact ⟨lines, failure, left, fates, hreads, hcounted⟩
  · intro tally name
    obtain ⟨fate, -, hverdict, -⟩ := runCase_tries h log name w
    refine ⟨fate.verdict, tally.count fate.verdict, ?_, ?_⟩
    · rw [countCase_apply, hverdict]
    · rw [count_eq, Fate.isPass_verdict]
      exact ⟨rfl, rfl⟩
  · intro tally names
    obtain ⟨fates, htries, -, hvalue⟩ := runCases_tries h log tally names w
    simp only [Fate.isPass_verdict]
    exact ⟨fates, htries, hvalue⟩

end Tries

theorem steady_rehearsal {σ : Type} (programs : List (Path × Rehearsal.Reply)) (loc : Location)
    (content : Octets) : Steady (σ := σ) (Rehearsal.launcher programs) none loc content := by
  constructor
  · intro call w hw
    unfold Rehearsal.launcher
    split <;> exact hw
  · intro l hl
    cases hl

/-- Three cases between blank lines: one passes, one has a malformed character and passes with
warnings, and the last is refused. -/
theorem cases_counted_malformed :
    let content := Octets.ofString " ./a\r\n\n b c " ++ [0xFF, 10] ++ Octets.ofString "\t\nd"
    let h : Harness Unit := ⟨.ofString "/t", Rehearsal.launcher
      [(.ofString "/t/b c \uFFFD", .ends (.exited 4)), (.ofString "/t/d", .refuses)]⟩
    let w : World Unit := ⟨⟨⟨[([.ofString "list"], .file 0o644 content)]⟩, [], 0⟩, ()⟩
    let file : OpenFile := .atStart [.ofString "list"] content
    OpenFile.ofPath w.files (.ofString "list") = .ok file ∧
      w.files.contentAt file.loc = .ok content ∧ Steady h.launcher none file.loc content ∧
      cases content = ["./a", "b c \uFFFD", "d"] ∧
      let ran := h.runList (.ofString "list") none w
      ran.trace.calls = [⟨⟨"./a", .ofString "/t/./a"⟩, []⟩,
        ⟨⟨"b c \uFFFD", .ofString "/t/b c \uFFFD"⟩, []⟩, ⟨⟨"d", .ofString "/t/d"⟩, []⟩] ∧
      ∃ fates, Counted h none (.ofString "list") w (cases content) none fates ran := by
  intro content h w file
  have hcontent : w.files.contentAt file.loc = .ok content := by cbv
  have hopens : OpenFile.ofPath w.files (.ofString "list") = .ok file :=
    OpenFile.ofPath_of_content (by cbv) hcontent
  have hsteady : Steady h.launcher none file.loc content := steady_rehearsal _ _ _
  obtain ⟨fates, hcounted⟩ := (cases_counted h none (.ofString "list") w).2.2.1 file content hopens
    hcontent hsteady
  exact ⟨hopens, hcontent, hsteady, by decide, hcounted.calls_eq.trans (by decide), fates, hcounted⟩

end Harness
end BootSequence
