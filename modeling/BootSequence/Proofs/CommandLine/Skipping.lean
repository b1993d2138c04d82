import BootSequence.CommandLine.Skipping
import BootSequence.Proofs.Text.Encoding

/-!
Arguments that are taken out of a command line, one round after another, for any reader. Those that
each round either does not read or reports make no difference to the answer
(`answer_without_of_reported`).
-/

namespace BootSequence
namespace CommandLine

/-! ## What is taken out -/

theorem without_append (shown : String) (args more : List Octets) :
    without shown (args ++ more) = without shown args ++ without shown more :=
  List.filter_append ..

theorem without_cons_of_ne {shown : String} {arg : Octets} (h : arg.text? ≠ some shown)
    (args : List Octets) : without shown (arg :: args) = arg :: without shown args :=
  List.filter_cons_of_pos (by simpa using h)

theorem without_comm (shown other : String) (args : List Octets) :
    without shown (without other args) = without other (without shown args) :=
  List.filter_comm ..

theorem length_without_lt_iff {shown : String} {args : List Octets} :
    (without shown args).length < args.length ↔ ∃ arg ∈ args, arg.text? = some shown := by
  rw [without, List.length_filter_lt_length_iff_exists]
  simp

theorem without_eq_self_iff {shown : String} {args : List Octets} :
    without shown args = args ↔ ¬∃ arg ∈ args, arg.text? = some shown := by
  rw [without, List.filter_eq_self]
  simp

theorem without_without (shown : String) (args : List Octets) :
    without shown (without shown args) = without shown args := by
  rw [without, without, List.filter_filter]
  simp

theorem not_mem_without {arg : Octets} {args : List Octets} (h : arg ∉ args) (shown : String) :
    arg ∉ without shown args := fun hmem => h (List.mem_filter.1 hmem).1

/-! ## Rounds -/

section Rounds

variable {α : Type} {parse : List Octets → Except Error α} {args : List Octets} {shown : String}

theorem parseSkipping_of_unknown (h : parse args = .error ⟨.unknownArgument, some shown⟩) :
    parseSkipping parse args =
      if (without shown args).length < args.length then
        let rest := parseSkipping parse (without shown args)
        ⟨shown :: rest.reported, rest.answer⟩
      else ⟨[shown], .error ⟨.unknownArgument, some shown⟩⟩ := by
  rw [parseSkipping, h]
  rfl

theorem parseSkipping_of_other (h : ∀ shown, parse args ≠ .error ⟨.unknownArgument, some shown⟩) :
    parseSkipping parse args = ⟨[], parse args⟩ := by
  rw [parseSkipping]
  cases hresult : parse args with
  | ok a => rfl
  | error e =>
    obtain ⟨kind, argument⟩ := e
    by_cases hkind : kind = .unknownArgument
    · cases argument with
      | none => simp [hkind]
      | some shown => exact (h shown (hkind ▸ hresult)).elim
    · simp [hkind]

theorem answer_of_unknown (h : parse args = .error ⟨.unknownArgument, some shown⟩) :
    (parseSkipping parse args).answer =
      if (without shown args).length < args.length then
        (parseSkipping parse (without shown args)).answer
      else .error ⟨.unknownArgument, some shown⟩ := by
  rw [parseSkipping_of_unknown h]
  split <;> rfl

theorem answer_of_other (h : ∀ shown, parse args ≠ .error ⟨.unknownArgument, some shown⟩) :
    (parseSkipping parse args).answer = parse args :=
  congrArg Skipped.answer (parseSkipping_of_other h)

/-- Only what is reported keeps a command line from being read at once. -/
theorem exists_unknown_of_answer {a : α} {e : Error}
    (haccepted : (parseSkipping parse args).answer = .ok a) (h : parse args = .error e) :
    ∃ shown, e = ⟨.unknownArgument, some shown⟩ := by
  by_contra hother
  have hanswer := answer_of_other fun shown hshown =>
    hother ⟨shown, Except.error.inj (h.symm.trans hshown)⟩
  cases haccepted.symm.trans (hanswer.trans h)

/-- Arguments that may be taken out first, if each round either does not read them or reports them,
make no difference. -/
theorem answer_without_of_reported (admitted : List Octets → Prop)
    (hadmitted : ∀ args other, admitted args → admitted (without other args))
    (hreported : ∀ args, admitted args → parse args = parse (without shown args) ∨
      parse args = .error ⟨.unknownArgument, some shown⟩) (h : admitted args) :
    (parseSkipping parse args).answer = (parseSkipping parse (without shown args)).answer := by
  induction hn : args.length using Nat.strong_induction_on generalizing args with
  | _ n ih =>
    subst hn
    by_cases hthere : ∃ arg ∈ args, arg.text? = some shown
    swap
    · rw [without_eq_self_iff.2 hthere]
    obtain heq | hunknown := hreported args h
    swap
    · rw [answer_of_unknown hunknown, if_pos (length_without_lt_iff.2 hthere)]
    by_cases hother : ∃ other, parse args = .error ⟨.unknownArgument, some other⟩
    · obtain ⟨other, hother⟩ := hother
      by_cases hsame : other = shown
      · subst hsame
        rw [answer_of_unknown hother, if_pos (length_without_lt_iff.2 hthere)]
      -- Both rounds report the same argument, and take it out of both.
      have hlength : (without other (without shown args)).length < (without shown args).length ↔
          (without other args).length < args.length := by
        rw [length_without_lt_iff, length_without_lt_iff]
        constructor
        · rintro ⟨arg, harg, htext⟩
          exact ⟨arg, (List.mem_filter.1 harg).1, htext⟩
        · rintro ⟨arg, harg, htext⟩
          refine ⟨arg, List.mem_filter.2 ⟨harg, ?_⟩, htext⟩
          simpa [htext] using hsame
      have hother' : parse (without shown args) = .error ⟨.unknownArgument, some other⟩ :=
        heq.symm.trans hother
      rw [answer_of_unknown hother, answer_of_unknown hother']
      by_cases hless : (without other args).length < args.length
      · rw [if_pos hless, if_pos (hlength.2 hless), ih _ hless (hadmitted args other h) rfl,
          without_comm]
      · rw [if_neg hless, if_neg (mt hlength.1 hless)]
    · rw [answer_of_other fun other ho => hother ⟨other, ho⟩,
        answer_of_other fun other ho => hother ⟨other, heq.trans ho⟩, heq]

end Rounds

end CommandLine
end BootSequence
