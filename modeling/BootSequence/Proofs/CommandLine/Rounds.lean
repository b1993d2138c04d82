import BootSequence.Program.MountCommand
import BootSequence.Proofs.CommandLine.Skipping

/-!
How a command line is read again and again. Each round asks the parser once, for what the rounds
before have left; it is the last one unless something is reported as unknown and can be taken out.
So there is at most one round more than there are arguments, whatever the parser answers, and the
last answer is given (`rounds_settle`).
-/

namespace BootSequence
namespace CommandLine

variable {α : Type}

/-- The argument that an answer reports as unknown. -/
def unknown? : Except Error α → Option String
  | .ok _ => none
  | .error e => if e.kind = .unknownArgument then e.argument else none

theorem unknown?_eq_some_iff {answer : Except Error α} {shown : String} :
    unknown? answer = some shown ↔ answer = .error ⟨.unknownArgument, some shown⟩ := by
  cases answer with
  | ok a => simp [unknown?]
  | error e =>
    obtain ⟨kind, argument⟩ := e
    by_cases hkind : kind = .unknownArgument <;> simp [unknown?, hkind]

/-! ## Rounds that act -/

/-- The rounds with a parser and a reporter that act, so that it is seen how often and in what order
they are called. The arguments are counted before and after. -/
def parseSkippingM {m : Type → Type} [Monad m] (parse : List Octets → m (Except Error α))
    (report : String → m Unit) (args : List Octets) : m (Except Error α) := do
  match ← parse args with
  | .ok a => return .ok a
  | .error e =>
    if e.kind = .unknownArgument then
      match e.argument with
      | none => return .error e
      | some shown =>
        report shown
        if (without shown args).length = args.length then return .error e
        else parseSkippingM parse report (without shown args)
    else return .error e
termination_by args.length
decreasing_by
  exact Nat.lt_of_le_of_ne (List.length_filter_le ..) ‹_›

/-- What is seen of the rounds. -/
inductive Step where
  | asks (args : List Octets)
  | prints (text : String)

/-- Be seen to be asked. -/
def asking (parse : List Octets → Except Error α) (args : List Octets) :
    StateM (List Step) (Except Error α) := do
  modify (· ++ [.asks args])
  return parse args

def printing (complaint : String → String) (shown : String) : StateM (List Step) Unit :=
  modify (· ++ [.prints (complaint shown)])

section Acting

variable (parse : List Octets → Except Error α) (complaint : String → String)

/-- What is seen of a round: one question, and one complaint if something is unknown. -/
def stepsOf (args : List Octets) : List Step :=
  .asks args :: (unknown? (parse args)).toList.map fun shown => .prints (complaint shown)

variable {parse} {args : List Octets} (steps : List Step)

theorem run_asking_bind {β : Type} (next : Except Error α → StateM (List Step) β) :
    (asking parse args >>= next).run steps = (next (parse args)).run (steps ++ [.asks args]) := rfl

theorem run_printing_bind {β : Type} {shown : String} (next : Unit → StateM (List Step) β) :
    (printing complaint shown >>= next).run steps =
      (next ()).run (steps ++ [.prints (complaint shown)]) := rfl

theorem run_parseSkippingM_of_unknown {shown : String}
    (h : unknown? (parse args) = some shown) :
    (parseSkippingM (asking parse) (printing complaint) args).run steps =
      if (without shown args).length = args.length then
        (parse args, steps ++ stepsOf parse complaint args)
      else (parseSkippingM (asking parse) (printing complaint) (without shown args)).run
        (steps ++ stepsOf parse complaint args) := by
  have hsteps : steps ++ [.asks args] ++ [.prints (complaint shown)] =
      steps ++ stepsOf parse complaint args := by
    rw [stepsOf, h, List.append_assoc]
    rfl
  rw [parseSkippingM, run_asking_bind, unknown?_eq_some_iff.1 h, ← hsteps]
  simp only [if_true, run_printing_bind]
  split <;> rfl

theorem run_parseSkippingM_of_other (h : unknown? (parse args) = none) :
    (parseSkippingM (asking parse) (printing complaint) args).run steps =
      (parse args, steps ++ stepsOf parse complaint args) := by
  have hsteps : steps ++ [.asks args] = steps ++ stepsOf parse complaint args := by
    rw [stepsOf, h]
    rfl
  rw [parseSkippingM, run_asking_bind, ← hsteps]
  cases hparse : parse args with
  | ok a => rfl
  | error e =>
    obtain ⟨kind, argument⟩ := e
    by_cases hkind : kind = .unknownArgument
    · subst hkind
      obtain rfl : argument = none := by simpa [unknown?, hparse] using h
      rfl
    · simp only [if_neg hkind]
      rfl

end Acting

/-! ## What is left for each round -/

/-- The arguments that read like none of these. -/
def withoutAll (reported : List String) (args : List Octets) : List Octets :=
  args.filter fun arg => ∀ shown ∈ reported, arg.text? ≠ some shown

theorem withoutAll_nil (args : List Octets) : withoutAll [] args = args := by
  simp [withoutAll]

theorem withoutAll_cons (shown : String) (reported : List String) (args : List Octets) :
    withoutAll (shown :: reported) args = withoutAll reported (without shown args) := by
  rw [withoutAll, withoutAll, without, List.filter_filter]
  refine List.filter_congr fun arg _ => ?_
  simp [Bool.and_comm]

/-- What the parser reports when it is asked for each of these. -/
def reports (parse : List Octets → Except Error α) (asked : List (List Octets)) : List String :=
  asked.filterMap fun args => unknown? (parse args)

theorem reports_cons {parse : List Octets → Except Error α} {args : List Octets} {shown : String}
    (h : unknown? (parse args) = some shown) (asked : List (List Octets)) :
    reports parse (args :: asked) = shown :: reports parse asked :=
  List.filterMap_cons_some h

/-- The parser is asked for all of `before` in turn, and then for `last`. -/
inductive Rounds (parse : List Octets → Except Error α) :
    List Octets → List (List Octets) → List Octets → Prop where
  | last {args : List Octets}
      (stays : ∀ shown, unknown? (parse args) = some shown → without shown args = args) :
      Rounds parse args [] args
  | again {args last : List Octets} {before : List (List Octets)} {shown : String}
      (reported : unknown? (parse args) = some shown) (taken : without shown args ≠ args)
      (more : Rounds parse (without shown args) before last) :
      Rounds parse args (args :: before) last

namespace Rounds

variable {parse : List Octets → Except Error α} {args last : List Octets}
  {before : List (List Octets)}

theorem length_without_lt {shown : String} (taken : without shown args ≠ args) :
    (without shown args).length < args.length := by
  rwa [length_without_lt_iff, ← not_not (a := ∃ arg ∈ args, _), ← without_eq_self_iff]

theorem exists_rounds (parse : List Octets → Except Error α) (args : List Octets) :
    ∃ before last, Rounds parse args before last := by
  -- Only the arguments become fewer: the parser need not make any progress of its own.
  induction hn : args.length using Nat.strong_induction_on generalizing args with
  | _ n ih =>
    subst hn
    by_cases hstays : ∀ shown, unknown? (parse args) = some shown → without shown args = args
    · exact ⟨[], args, .last hstays⟩
    · push Not at hstays
      obtain ⟨shown, hreported, htaken⟩ := hstays
      obtain ⟨before, last, hmore⟩ := ih _ (length_without_lt htaken) _ rfl
      exact ⟨args :: before, last, .again hreported htaken hmore⟩

/-- Each round but the last takes an argument out. -/
theorem length_le (h : Rounds parse args before last) :
    before.length + last.length ≤ args.length := by
  induction h with
  | last stays => simp
  | again reported taken more ih =>
    have hless := length_without_lt taken
    rw [List.length_cons]
    omega

theorem parseSkipping_eq (h : Rounds parse args before last) :
    parseSkipping parse args = ⟨reports parse (before ++ [last]), parse last⟩ := by
  induction h with
  | @last args stays =>
    cases hreported : unknown? (parse args) with
    | none =>
      have hother : ∀ shown, parse args ≠ .error ⟨.unknownArgument, some shown⟩ := by
        intro shown hshown
        cases hreported.symm.trans (unknown?_eq_some_iff.2 hshown)
      rw [parseSkipping_of_other hother]
      simp [reports, hreported]
    | some shown =>
      have hparse := unknown?_eq_some_iff.1 hreported
      rw [parseSkipping_of_unknown hparse, stays shown hreported, if_neg (Nat.lt_irrefl _),
        List.nil_append, reports_cons hreported, hparse]
      rfl
  | @again args last before shown reported taken more ih =>
    rw [parseSkipping_of_unknown (unknown?_eq_some_iff.1 reported),
      if_pos (length_without_lt taken), ih, List.cons_append, reports_cons reported]

theorem run_parseSkippingM (complaint : String → String) (h : Rounds parse args before last)
    (steps : List Step) :
    (parseSkippingM (asking parse) (printing complaint) args).run steps =
      (parse last, steps ++ (before ++ [last]).flatMap (stepsOf parse complaint)) := by
  induction h generalizing steps with
  | @last args stays =>
    rw [List.nil_append, List.flatMap_singleton]
    cases hreported : unknown? (parse args) with
    | none => rw [run_parseSkippingM_of_other complaint steps hreported]
    | some shown =>
      rw [run_parseSkippingM_of_unknown complaint steps hreported, stays shown hreported,
        if_pos rfl]
  | @again args last before shown reported taken more ih =>
    rw [run_parseSkippingM_of_unknown complaint steps reported,
      if_neg (Nat.ne_of_lt (length_without_lt taken)), ih, List.append_assoc]
    rfl

/-- Every round is asked for what is left when all that was reported before it is taken out. -/
theorem eq_withoutAll (h : Rounds parse args before last) {front behind : List (List Octets)}
    {asked : List Octets} (hasked : before ++ [last] = front ++ asked :: behind) :
    asked = withoutAll (reports parse front) args := by
  induction h generalizing front with
  | @last args stays =>
    cases front with
    | nil =>
      cases hasked
      exact (withoutAll_nil _).symm
    | cons first front => simp at hasked
  | @again args last before shown reported taken more ih =>
    cases front with
    | nil =>
      cases hasked
      exact (withoutAll_nil _).symm
    | cons first front =>
      obtain ⟨rfl, hrest⟩ := List.cons.inj hasked
      rw [reports_cons reported, withoutAll_cons]
      exact ih hrest

/-- What is reported before the last round is one of the arguments it was reported for. -/
theorem exists_text_of_mem (h : Rounds parse args before last) :
    ∀ asked ∈ before, ∃ shown, parse asked = .error ⟨.unknownArgument, some shown⟩ ∧
      ∃ arg ∈ asked, arg.text? = some shown := by
  induction h with
  | last stays => exact fun _ hmem => absurd hmem List.not_mem_nil
  | again reported taken more ih =>
    refine List.forall_mem_cons.2 ⟨⟨_, unknown?_eq_some_iff.1 reported, ?_⟩, ih⟩
    exact length_without_lt_iff.1 (length_without_lt taken)

theorem text_ne_of_last (h : Rounds parse args before last) {shown : String}
    (hreported : unknown? (parse last) = some shown) : ∀ arg ∈ last, arg.text? ≠ some shown := by
  induction h with
  | last stays =>
    intro arg hmem htext
    exact without_eq_self_iff.1 (stays shown hreported) ⟨arg, hmem, htext⟩
  | again reported taken more ih => exact ih hreported

/-- Nothing depends on what the parser would say in other rounds. -/
theorem of_agree (h : Rounds parse args before last) {other : List Octets → Except Error α}
    (hagree : ∀ asked ∈ before ++ [last], other asked = parse asked) :
    Rounds other args before last := by
  induction h with
  | @last args stays =>
    have hargs := hagree args (by simp)
    exact .last (hargs ▸ stays)
  | @again args last before shown reported taken more ih =>
    have hargs := hagree args (by simp)
    refine .again (hargs ▸ reported) taken (ih fun asked hmem => hagree asked ?_)
    exact List.mem_cons_of_mem _ hmem

end Rounds

/-! ## All rounds together -/

open Program.MountCommand (complaint)

/-- A command line is settled by asking for all of `before` in turn, and then for `last`. -/
structure Settled (parse : List Octets → Except Error α) (args : List Octets)
    (before : List (List Octets)) (last : List Octets) : Prop where
  /-- Nothing else is seen than one question a round, and one complaint for what it reports. -/
  run_eq : (parseSkippingM (asking parse) (printing complaint) args).run [] =
    ((parseSkipping parse args).answer, (before ++ [last]).flatMap (stepsOf parse complaint))
  rounds_le : (before ++ [last]).length ≤ args.length + 1
  reported_eq : (parseSkipping parse args).reported = reports parse (before ++ [last])
  answer_eq : (parseSkipping parse args).answer = parse (withoutAll (reports parse before) args)
  asked_eq : ∀ front asked behind, before ++ [last] = front ++ asked :: behind →
    asked = withoutAll (reports parse front) args
  again : ∀ asked ∈ before, ∃ shown, parse asked = .error ⟨.unknownArgument, some shown⟩ ∧
    ∃ arg ∈ asked, arg.text? = some shown
  refused : ∀ argument, (parseSkipping parse args).answer = .error ⟨.unknownArgument, argument⟩ →
    argument = none ∨ ∃ shown, argument = some shown ∧
      ∀ arg ∈ withoutAll (reports parse before) args, arg.text? ≠ some shown
  only_asked : ∀ other : List Octets → Except Error α,
    (∀ asked ∈ before ++ [last], other asked = parse asked) →
      parseSkipping other args = parseSkipping parse args

theorem rounds_settle (parse : List Octets → Except Error α) (args : List Octets) :
    ∃ before last, Settled parse args before last := by
  obtain ⟨before, last, h⟩ := Rounds.exists_rounds parse args
  have hlast : last = withoutAll (reports parse before) args := h.eq_withoutAll rfl
  have hanswer : (parseSkipping parse args).answer = parse last := by rw [h.parseSkipping_eq]
  refine ⟨before, last, {
    run_eq := ?_
    rounds_le := ?_
    reported_eq := by rw [h.parseSkipping_eq]
    answer_eq := hlast ▸ hanswer
    asked_eq := fun front asked behind => h.eq_withoutAll
    again := h.exists_text_of_mem
    refused := ?_
    only_asked := ?_ }⟩
  · rw [h.run_parseSkippingM, hanswer, List.nil_append]
  · have hlength := h.length_le
    rw [List.length_append, List.length_singleton]
    omega
  · intro argument hrefused
    cases argument with
    | none => exact .inl rfl
    | some shown =>
      right
      rw [← hlast]
      exact ⟨shown, rfl,
        h.text_ne_of_last (unknown?_eq_some_iff.2 (hanswer.symm.trans hrefused))⟩
  · intro other hagree
    have hreports : reports other (before ++ [last]) = reports parse (before ++ [last]) :=
      List.filterMap_congr fun asked hmem => congrArg unknown? (hagree asked hmem)
    rw [h.parseSkipping_eq, (h.of_agree hagree).parseSkipping_eq, hreports,
      hagree last (by simp)]

end CommandLine
end BootSequence
