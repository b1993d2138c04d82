import BootSequence.Proofs.Command
import BootSequence.Proofs.Harness.Cases
import BootSequence.Proofs.Invocation
import BootSequence.Proofs.Steps

/-!
Names and the limits on them. A line that has a command names it by a word, so that nothing but its
length can keep a name from being found; and what is found is where it was looked for, within the
limits (`names_within_limits`).
-/

namespace BootSequence
namespace Command

/-! ## Names that are too long -/

/-- A name that is looked for. -/
structure IsBare (name : String) : Prop where
  noSlash : '/' ∉ name.toList
  noDot : '.' ∉ name.toList

theorem isBare_iff {name : String} : IsBare name ↔ isPathLike name = false := by
  rw [Bool.eq_false_iff, ne_eq, isPathLike_iff, not_or]
  exact ⟨fun h => ⟨h.noSlash, h.noDot⟩, fun h => ⟨h.1, h.2⟩⟩

/-- The name is too long by itself, or makes a path that is. -/
def TooLong (dir : Path) (name : String) : Prop :=
  nameMax < octetLength name ∨ pathMax ≤ entryLength dir name

def lengthError (dir : Path) (name : String) : NameError :=
  if nameMax < octetLength name then .nameTooLong (octetLength name)
  else .pathTooLong (entryLength dir name)

theorem lengthError_ne_empty (dir : Path) (name : String) : lengthError dir name ≠ .empty := by
  unfold lengthError
  split <;> nofun

theorem join_eq_error_iff {dir : Path} {name : String} {e : NameError} (hne : name ≠ "") :
    join dir name = .error e ↔ TooLong dir name ∧ e = lengthError dir name := by
  rw [join_eq, if_neg hne, length_entryPath, TooLong, lengthError]
  by_cases hname : nameMax < octetLength name
  · simp [hname, eq_comm]
  · by_cases hpath : pathMax ≤ entryLength dir name
    · simp [hname, hpath, eq_comm]
    · simp [hname, hpath]

theorem resolve_eq_error_iff {token : String} {dir : Path} {e : NameError} (hne : token ≠ "") :
    resolve token dir = .error e ↔
      IsBare token ∧ TooLong dir token ∧ e = lengthError dir token := by
  rw [resolve_eq, isBare_iff, ← join_eq_error_iff hne]
  cases isPathLike token with
  | true => simp
  | false => cases join dir token <;> simp [Except.map]

/-! ## Names that are found -/

structure EntryOf (dir : Path) (c : Command) : Prop where
  path_eq : c.path = entryPath dir c.name
  length_le : c.path.octets.length ≤ pathMax - 1

theorem entryOf_of_join {dir : Path} {c : Command} (h : join dir c.name = .ok c.path) :
    EntryOf dir c := by
  obtain ⟨-, -, hlength, hpath⟩ := join_eq_ok_iff.1 h
  exact ⟨hpath, hlength⟩

theorem EntryOf.path_eq_iff {dir : Path} {c c' : Command} (h : EntryOf dir c)
    (h' : EntryOf dir c') : c.path = c'.path ↔ c.name = c'.name := by
  rw [h.path_eq, h'.path_eq, entryPath_inj]

end Command

open Command

/-! ## Command lines -/

namespace Interpreter

variable {σ : Type} (i : Interpreter σ)

/-- What executing a line comes to, as to the name of its command. -/
structure Executed (line : String) (ran : Ran σ LineOutcome) : Prop where
  /-- Nothing but its length keeps a name from being found. -/
  unresolved_iff : ran.value = .unresolved ∧ ran.trace.calls = [] ↔
    ∃ name, (Invocation.tokens line).head? = some name ∧ IsBare name ∧ TooLong i.searchDir name
  told : ran.value = .unresolved → ∃ name, (Invocation.tokens line).head? = some name ∧
    ran.trace = [.log .warn s!"cannot resolve `{name}`: {(lengthError i.searchDir name).message}"]
  named : ∀ name, (Invocation.tokens line).head? = some name →
    resolve name i.searchDir ≠ .error .empty
  pathLike : ∀ name, (Invocation.tokens line).head? = some name → ¬IsBare name →
    ran.value ≠ .unresolved
  called : ∀ call ∈ ran.trace.calls, (Invocation.tokens line).head? = some call.command.name

theorem execute_executed (line : String) (maxArgs : Nat) (log : Option LogFile) (w : World σ) :
    Executed i line (i.execute (.ofLine line maxArgs) log w) := by
  have hcommand := Invocation.command?_ofLine line maxArgs
  cases hhead : (Invocation.tokens line).head? with
  | none =>
    rw [execute_of_none i (hcommand.trans hhead)]
    constructor <;> simp [hhead]
  | some name =>
    have hne : name ≠ "" := by
      rintro rfl
      exact (Invocation.plain_of_mem_tokens (List.mem_of_head? hhead)).1 rfl
    have hname := hcommand.trans hhead
    cases hc : resolve name i.searchDir with
    | error e =>
      obtain ⟨hbare, hlong, rfl⟩ := (resolve_eq_error_iff hne).1 hc
      rw [execute_of_error i hname hc]
      refine
        { unresolved_iff := ⟨fun _ => ⟨name, hhead, hbare, hlong⟩, fun _ => ⟨rfl, rfl⟩⟩
          told := fun _ => ⟨name, hhead, rfl⟩
          named := fun name' h => ?_
          pathLike := fun name' h hlike => ?_
          called := fun call (hcall : call ∈ []) => absurd hcall List.not_mem_nil }
      · cases hhead.symm.trans h
        rw [hc]
        simpa using lengthError_ne_empty i.searchDir name
      · cases hhead.symm.trans h
        exact absurd hbare hlike
    | ok command =>
      have hcalls : (i.execute (.ofLine line maxArgs) log w).trace.calls =
          [⟨command, (Invocation.ofLine line maxArgs).args⟩] := by
        rw [calls_execute, Invocation.call?, hname]
        simp [hc]
      have hnoCalls : (i.execute (.ofLine line maxArgs) log w).trace.calls ≠ [] := by
        rw [hcalls]
        exact List.cons_ne_nil _ _
      have hvalue : (i.execute (.ofLine line maxArgs) log w).value ≠ .unresolved := by
        rw [execute_of_ok i hname hc, Action.value_bind, Action.value_bind,
          conclude_apply log ⟨command, []⟩]
        exact Script.Fate.outcome_launched_ne _ _
      refine
        { unresolved_iff := ⟨fun h => absurd h.2 hnoCalls, ?_⟩
          told := fun h => absurd h hvalue
          named := fun name' h => ?_
          pathLike := fun _ _ _ => hvalue
          called := fun call hcall => ?_ }
      · rintro ⟨name', h, hbare, hlong⟩
        cases hhead.symm.trans h
        cases hc.symm.trans ((resolve_eq_error_iff hne).2 ⟨hbare, hlong, rfl⟩)
      · cases hhead.symm.trans h
        rw [hc]
        simp
      · rw [hcalls, List.mem_singleton] at hcall
        rw [hhead, hcall, (resolve_eq_ok_iff.1 hc).1]

end Interpreter

/-! ## Test lists -/

namespace Harness

theorem ne_empty_of_mem_namesOf {lines : List Octets} {name : String} (h : name ∈ namesOf lines) :
    name ≠ "" := by
  obtain ⟨line, -, hname⟩ := List.mem_filterMap.1 h
  unfold caseName? at hname
  split at hname
  · cases hname
  · rename_i hne
    cases hname
    intro hempty
    exact hne (by simpa using congrArg String.toList hempty)

variable {σ : Type} {h : Harness σ} {log : Option LogFile} {w w' : World σ} {names : List String}
  {fates : List Fate}

theorem TriesAll.join_eq (ht : TriesAll h log w names fates w') {e : NameError}
    (he : .unresolved e ∈ fates) : ∃ name ∈ names, join h.caseDir name = .error e := by
  induction ht with
  | nil => cases he
  | cons tries rest ih =>
    rcases List.mem_cons.1 he with rfl | he
    · cases tries with
      | unresolved joins => exact ⟨_, List.mem_cons_self, joins⟩
    · obtain ⟨name, hname, hjoin⟩ := ih he
      exact ⟨name, List.mem_cons_of_mem _ hname, hjoin⟩

theorem unresolved_of_namesOf {lines : List Octets} (ht : TriesAll h log w (namesOf lines) fates w')
    {e : NameError} (he : .unresolved e ∈ fates) :
    ∃ name ∈ namesOf lines, TooLong h.caseDir name ∧ e = lengthError h.caseDir name := by
  obtain ⟨name, hname, hjoin⟩ := ht.join_eq he
  exact ⟨name, hname, (join_eq_error_iff (ne_empty_of_mem_namesOf hname)).1 hjoin⟩

end Harness

/-! ## Launches -/

section Launches

variable {σ : Type}

/-- Whatever an action launches is one of these commands. -/
def Launches {α : Type} (P : Command → Prop) (x : Action σ α) : Prop :=
  ∀ log w, ∀ call ∈ (x log w).trace.calls, P call.command

/-- A bare name has been found in the directory. -/
def FoundIn (dir : Path) (c : Command) : Prop := IsBare c.name → EntryOf dir c

theorem Interpreter.Asks.foundIn {i : Interpreter σ} {call : Call} (h : i.Asks call) :
    FoundIn i.searchDir call.command := by
  intro hbare
  obtain ⟨name, hc⟩ := h
  obtain ⟨hname, ⟨hlike, -⟩ | ⟨-, hjoin⟩⟩ := resolve_eq_ok_iff.1 hc
  · rw [← hname, isBare_iff.1 hbare] at hlike
    cases hlike
  · rw [← hname] at hjoin
    exact entryOf_of_join hjoin

theorem Harness.Asks.entryOf {h : Harness σ} {call : Call} (hasks : h.Asks call) :
    EntryOf h.caseDir call.command := by
  obtain ⟨name, hc⟩ := hasks
  obtain ⟨hname, hjoin⟩ := resolveUnder_eq_ok_iff.1 hc
  rw [← hname] at hjoin
  exact entryOf_of_join hjoin

theorem launches_run (s : System σ) (config : Config) :
    Launches (FoundIn config.searchDir) (Supervisor.run s config) := by
  intro log
  have law : Action.Law log fun (_ : World σ) t _ => ∀ call ∈ t.calls,
      FoundIn config.searchDir call.command := Action.law_allCalls log _
  have hmake : ∀ path, Action.Obeys log (fun (_ : World σ) t _ => ∀ call ∈ t.calls,
      FoundIn config.searchDir call.command) (Mount.ensureDir path) := fun path =>
    Mount.obeys_ensureDir law (fun _ => nofun) fun _ _ _ => nofun
  refine Supervisor.obeys_run law (fun call hasks => Action.allCalls_launch hasks.foundIn)
    (hmake _) (fun entry => Mount.obeys_mountEntry law (hmake _) fun _ => nofun) fun w => ?_
  show ∀ call ∈ Trace.calls (List.map _ _), _
  rw [Trace.calls_children]
  nofun

/-- A command line is not resolved if its command is a name that is too long, and for no other
reason. Whatever is launched by a bare name or as a test case is an entry of the directory, and no
two entries are the same program. -/
theorem names_within_limits :
    (∀ (i : Interpreter σ) (line : String) (maxArgs : Nat) (log : Option LogFile) (w : World σ),
      Interpreter.Executed i line (i.execute (.ofLine line maxArgs) log w)) ∧
    (∀ (h : Harness σ) (list : Path) (log : Option LogFile) (w : World σ) (file : OpenFile),
      OpenFile.ofPath w.files list = .ok file → ∃ lines failure left fates,
        Reads h.runLine log w {} file lines failure left ∧
        Harness.Counted h log list w (Harness.namesOf lines) failure fates (h.runList list log w) ∧
        (∀ name ∈ Harness.namesOf lines, join h.caseDir name ≠ .error .empty) ∧
        Harness.Fate.unresolved .empty ∉ fates) ∧
    (∀ i : Interpreter σ,
      let found := FoundIn i.searchDir
      (∀ invocation, Launches found (i.execute invocation)) ∧
      (∀ path, Launches found (i.runFile path)) ∧
      (∀ path feed, Launches found (i.runFeed path feed)) ∧
      ∀ path source number, Launches found (i.runReader path (source : Source) number)) ∧
    (∀ (s : System σ) (config : Config),
      Launches (FoundIn config.searchDir) (Supervisor.run s config)) ∧
    (∀ h : Harness σ, (∀ name, Launches (EntryOf h.caseDir) (h.runCase name)) ∧
      ∀ list, Launches (EntryOf h.caseDir) (h.runList list)) ∧
    ∀ (dir : Path) (c c' : Command), EntryOf dir c → EntryOf dir c' →
      (c.path = c'.path ↔ c.name = c'.name) := by
  refine ⟨Interpreter.execute_executed, ?_, fun i => ?_, launches_run, fun h => ?_,
    fun dir c c' => EntryOf.path_eq_iff⟩
  · intro h list log w file hopens
    obtain ⟨lines, failure, left, hreads⟩ := exists_reads h.runLine log w {} file
    obtain ⟨fates, hcounted⟩ := Harness.runList_counted h log hopens hreads
    refine ⟨lines, failure, left, fates, hreads, hcounted, fun name hname hjoin => ?_, fun he => ?_⟩
    · have herror := (join_eq_error_iff (Harness.ne_empty_of_mem_namesOf hname)).1 hjoin
      exact lengthError_ne_empty _ _ herror.2.symm
    · obtain ⟨name, -, -, hempty⟩ := Harness.unresolved_of_namesOf hcounted.tries he
      exact lengthError_ne_empty _ _ hempty.symm
  · have hlaunch : ∀ log call, i.Asks call → Action.Obeys log (fun (_ : World σ) t _ =>
        ∀ call ∈ t.calls, FoundIn i.searchDir call.command) (Action.launch i.launcher call) :=
      fun log call hasks => Action.allCalls_launch hasks.foundIn
    exact ⟨fun invocation log =>
        Interpreter.obeys_execute (Action.law_allCalls log _) (hlaunch log) invocation,
      fun path log => Interpreter.obeys_runFile (Action.law_allCalls log _) (hlaunch log) path,
      fun path feed log => Interpreter.obeys_runFeed (Action.law_allCalls log _) (hlaunch log) path
        feed,
      fun path source number log => Interpreter.obeys_runReader (Action.law_allCalls log _)
        (hlaunch log) path source number⟩
  · have hlaunch : ∀ log call, h.Asks call → Action.Obeys log (fun (_ : World σ) t _ =>
        ∀ call ∈ t.calls, EntryOf h.caseDir call.command) (Action.launch h.launcher call) :=
      fun log call hasks => Action.allCalls_launch hasks.entryOf
    exact ⟨fun name log => Harness.obeys_runCase (Action.law_allCalls log _) (hlaunch log) name,
      fun list log => Harness.obeys_runList (Action.law_allCalls log _) (hlaunch log) list⟩

/-- Where a name of one octet just does not fit, a path still does, and where the directory is
shorter by one octet the name fits too. The second line of the list names no case. -/
theorem names_within_limits_edge :
    let dir : Path := ⟨List.replicate 4095 Octets.slash⟩
    let shorter : Path := ⟨List.replicate 4094 Octets.slash⟩
    let i : Interpreter Unit := ⟨dir, 9, Rehearsal.launcher []⟩
    let h : Harness Unit := ⟨shorter, Rehearsal.launcher []⟩
    let content := Octets.ofString "a\n \n./b"
    let w : World Unit := ⟨⟨⟨[([.ofString "list"], .file 0o644 content)]⟩, [], 0⟩, ()⟩
    let file : OpenFile := .atStart [.ofString "list"] content
    let a : Command := ⟨"a", entryPath shorter "a"⟩
    let b : Command := ⟨"b", entryPath shorter "b"⟩
    (i.execute (.ofLine " a b\r\n" 9) none w).value = .unresolved ∧
      lengthError dir "a" = .pathTooLong 4096 ∧
      (i.execute (.ofLine "./a b" 9) none w).value ≠ .unresolved ∧
      OpenFile.ofPath w.files (.ofString "list") = .ok file ∧
      (∃ lines failure fates, Harness.Counted h none (.ofString "list") w (Harness.namesOf lines)
        failure fates (h.runList (.ofString "list") none w) ∧
        Harness.Fate.unresolved .empty ∉ fates) ∧
      EntryOf shorter a ∧ EntryOf shorter b ∧ a.path ≠ b.path := by
  intro dir shorter i h content w file a b
  have hends : ∀ n, (Path.mk (List.replicate (n + 1) Octets.slash)).endsInSlash = true := by
    intro n
    rw [Path.endsInSlash, List.getLast?_replicate]
    rfl
  have hlength : ∀ n name, entryLength ⟨List.replicate (n + 1) Octets.slash⟩ name =
      n + 1 + octetLength name := by
    intro n name
    rw [entryLength, hends, if_pos rfl, List.length_replicate]
  have hlong : TooLong dir "a" := .inr (le_of_eq (hlength 4094 "a").symm)
  have hcontent : w.files.contentAt [.ofString "list"] = .ok content := by cbv
  have hopens : OpenFile.ofPath w.files (.ofString "list") = .ok file :=
    OpenFile.ofPath_of_content (by cbv) hcontent
  have hentry : ∀ name, octetLength name = 1 → EntryOf shorter ⟨name, entryPath shorter name⟩ := by
    intro name hname
    refine ⟨rfl, le_of_eq ?_⟩
    show (entryPath shorter name).octets.length = _
    rw [length_entryPath, hlength 4093, hname]
    rfl
  obtain ⟨hexecute, hlist, -, -, -, hinj⟩ := names_within_limits (σ := Unit)
  obtain ⟨lines, failure, -, fates, -, hcounted, -, hempty⟩ := hlist h _ none w file hopens
  refine ⟨?_, ?_, ?_, hopens, ⟨lines, failure, fates, hcounted, hempty⟩, hentry "a" (by decide),
    hentry "b" (by decide), fun hpath => ?_⟩
  · exact ((hexecute i " a b\r\n" 9 none w).unresolved_iff.2
      ⟨"a", by decide, ⟨by decide, by decide⟩, hlong⟩).1
  · rw [lengthError, if_neg (by decide), hlength 4094]
    rfl
  · exact (hexecute i "./a b" 9 none w).pathLike "./a" (by decide) fun hbare =>
      hbare.noDot (by decide)
  · have hname := (hinj shorter a b (hentry "a" (by decide)) (hentry "b" (by decide))).1 hpath
    exact absurd hname (by decide)

end Launches

end BootSequence
