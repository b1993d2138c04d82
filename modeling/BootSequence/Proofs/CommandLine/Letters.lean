import BootSequence.Proofs.CommandLine.Reading
import BootSequence.Proofs.CommandLine.Skipping

/-!
Unknown letters behind a dash, for any reader that refuses and shows them (`RefusesLetter`). As an
argument of its own such a letter makes no difference to the answer, wherever it stands and whatever
else is unknown (`answer_append_dashed`). In front of other letters it is shown as if it stood alone,
so that no argument reads like it: the command line is refused (`answer_clustered`). Together these
tell what becomes of a line to which letters are added (`Added.answer_eq`).
-/

namespace BootSequence
namespace CommandLine

variable {α : Type} {reader : List Octets → Except Error α} {c : Char} {args args' : List Octets}
  {joined : Bool} {a : α}

/-- What a command line comes to when what is unknown in it is passed over. -/
abbrev answer (reader : List Octets → Except Error α) (args : List Octets) : Except Error α :=
  (parseSkipping reader args).answer

/-- A reader that does not know a letter. Arguments before two dashes are read in order: either some
of them are refused, whatever follows, or the letter behind them is, alone or in front of others, and
is shown alone. -/
structure RefusesLetter (reader : List Octets → Except Error α) (c : Char) : Prop where
  not_dash : c ≠ '-'
  refuses : ∀ first, [Reading.dash, Reading.dash] ∉ first →
    (∃ e, ∀ rest, reader (first ++ rest) = .error e) ∨
      ∀ more rest, reader (first ++ (dashed c ++ more) :: rest) = .error (unknownLetter c)
  /-- Whatever is shown begins with a dash. -/
  shows : ∀ args shown, [Reading.dash, Reading.dash] ∉ args →
    reader args = .error ⟨.unknownArgument, some shown⟩ → ∃ cs, shown.toList = '-' :: cs

/-- So it is with the letters that a grammar lacks. -/
theorem refusesLetter_parse {g : Grammar} {read : Matches → α} (hwords : g.words = true)
    (hunknown : g.ofShort? c = none) (hdash : c ≠ '-') :
    RefusesLetter (fun args => (parse g args).map read) c where
  not_dash := hdash
  refuses := fun first hends => by
    cases hfold : first.foldlM (Reading.step g) .start with
    | error e =>
      refine .inl ⟨e, fun rest => ?_⟩
      rw [parse_append_of_error hfold]
      rfl
    | ok r =>
      refine .inr fun more rest => ?_
      rw [parse_append_unknown hfold hwords hends hunknown hdash more rest]
      rfl
  shows := fun args shown hends h => by
    cases hparse : parse g args with
    | ok found =>
      rw [hparse] at h
      cases h
    | error e =>
      rw [hparse] at h
      cases h
      exact exists_of_blamed hwords hends hparse rfl

/-! ## Letters that stand alone -/

section Alone

variable (hrefuses : RefusesLetter reader c)
include hrefuses

omit hrefuses in
theorem exists_text?_iff :
    (∃ arg ∈ args, arg.text? = some (shownLetter c)) ↔ dashed c ∈ args := by
  simp only [Octets.text?_eq_some_iff]
  exact exists_eq_right

theorem reader_without (hends : [Reading.dash, Reading.dash] ∉ args) :
    reader args = reader (without (shownLetter c) args) ∨
      reader args = .error (unknownLetter c) := by
  by_cases hthere : dashed c ∈ args
  · obtain ⟨first, rest, rfl, hfirst⟩ := List.eq_append_cons_of_mem hthere
    have hkept : without (shownLetter c) first = first := by
      rwa [without_eq_self_iff, exists_text?_iff]
    rcases hrefuses.refuses first fun h => hends (List.mem_append_left _ h) with ⟨e, he⟩ | hletter
    · left
      rw [without_append, hkept, he, he]
    · right
      have hparse := hletter [] rest
      rwa [List.append_nil] at hparse
  · left
    rw [without_eq_self_iff.2 (exists_text?_iff.not.2 hthere)]

/-- It makes no difference whether an unknown letter stands there as an argument of its own. -/
theorem answer_without (hends : [Reading.dash, Reading.dash] ∉ args) :
    answer reader args = answer reader (without (shownLetter c) args) :=
  answer_without_of_reported (fun args => [Reading.dash, Reading.dash] ∉ args)
    (fun _ other h => not_mem_without h other) (fun _ h => reader_without hrefuses h) hends

omit hrefuses in
theorem dashes_not_mem_append_dashed (hdash : c ≠ '-') {first rest : List Octets}
    (hends : [Reading.dash, Reading.dash] ∉ first ++ rest) :
    [Reading.dash, Reading.dash] ∉ first ++ dashed c :: rest := by
  have hne := dashes_ne hdash []
  rw [List.append_nil] at hne
  simp only [List.mem_append, List.mem_cons, not_or] at hends ⊢
  exact ⟨hends.1, hne, hends.2⟩

/-- An unknown letter can be put anywhere as an argument of its own. -/
theorem answer_append_dashed {first rest : List Octets}
    (hends : [Reading.dash, Reading.dash] ∉ first ++ rest) :
    answer reader (first ++ dashed c :: rest) = answer reader (first ++ rest) := by
  have hsame : without (shownLetter c) (first ++ dashed c :: rest) =
      without (shownLetter c) (first ++ rest) := by
    have hout : without (shownLetter c) (dashed c :: rest) = without (shownLetter c) rest :=
      List.filter_cons_of_neg (by simp [Octets.text?_eq_some_iff, dashed])
    rw [without_append, hout, without_append]
  rw [answer_without hrefuses (dashes_not_mem_append_dashed hrefuses.not_dash hends), hsame,
    ← answer_without hrefuses hends]

end Alone

/-! ## Letters in front of others -/

/-- A letter in front of others behind a dash. -/
def Clustered (c : Char) (arg : Octets) : Prop := ∃ b more, arg = dashed c ++ b :: more

theorem Clustered.text?_ne {arg : Octets} (h : Clustered c arg) :
    arg.text? ≠ some (shownLetter c) := by
  obtain ⟨b, more, rfl⟩ := h
  intro htext
  have hlength := congrArg List.length (Octets.text?_eq_some_iff.1 htext)
  rw [List.length_append, List.length_cons, show Octets.ofString (shownLetter c) = dashed c from rfl]
    at hlength
  omega

section InFront

variable {first behind rest : List Octets} {arg : Octets}

/-- What is reported of a beginning stands in it: nothing else brings the reading beyond it. -/
theorem exists_of_reported {shown : String}
    (hparse : ∀ more, reader (first ++ more) = .error ⟨.unknownArgument, some shown⟩)
    (haccepted : answer reader (first ++ behind) = .ok a) :
    ∃ arg ∈ first, arg.text? = some shown := by
  by_contra hnone
  have hkept := without_eq_self_iff.2 hnone
  have hround := answer_of_unknown (hparse behind)
  rw [without_append, hkept] at hround
  have hstuck := answer_of_unknown (hparse (without shown behind))
  rw [without_append, hkept, without_without, if_neg (Nat.lt_irrefl _)] at hstuck
  rw [hstuck, ite_self] at hround
  cases haccepted.symm.trans hround

variable (hrefuses : RefusesLetter reader c)
include hrefuses

/-- An unknown letter in front of others cannot be passed over, if all before it can be read. -/
theorem answer_clustered_of_not_mem (hends : [Reading.dash, Reading.dash] ∉ first ++ behind)
    (haccepted : answer reader (first ++ behind) = .ok a) (harg : Clustered c arg)
    (hnew : arg ∉ first) :
    answer reader (first ++ arg :: rest) = .error (unknownLetter c) := by
  induction hn : (first ++ arg :: rest).length using Nat.strong_induction_on
    generalizing first behind rest with
  | _ n ih =>
    subst hn
    have hfirst : [Reading.dash, Reading.dash] ∉ first := fun h =>
      hends (List.mem_append_left _ h)
    have hround : ∀ shown, arg.text? ≠ some shown →
        without shown (first ++ arg :: rest) = without shown first ++ arg :: without shown rest :=
      fun shown hshown => by rw [without_append, without_cons_of_ne hshown]
    rcases hrefuses.refuses first hfirst with ⟨e, hparse⟩ | hletter
    · obtain ⟨shown, rfl⟩ := exists_unknown_of_answer haccepted (hparse behind)
      have hthere := exists_of_reported hparse haccepted
      have hshown : arg.text? ≠ some shown := by
        obtain ⟨arg', harg', htext'⟩ := hthere
        intro htext
        rw [Octets.text?_eq_some_iff] at htext htext'
        exact hnew (htext.trans htext'.symm ▸ harg')
      have hless : ∀ more, (without shown (first ++ more)).length < (first ++ more).length := by
        obtain ⟨arg', harg', htext'⟩ := hthere
        exact fun more => length_without_lt_iff.2 ⟨arg', List.mem_append_left _ harg', htext'⟩
      have hagain := answer_of_unknown (hparse behind)
      rw [if_pos (hless behind), without_append] at hagain
      have hsmaller := hless (arg :: rest)
      rw [answer, answer_of_unknown (hparse (arg :: rest)), if_pos hsmaller]
      rw [hround shown hshown] at hsmaller ⊢
      refine ih _ hsmaller ?_ (hagain.symm.trans haccepted) (not_mem_without hnew _) rfl
      rw [← without_append]
      exact not_mem_without hends _
    · have hparse : reader (first ++ arg :: rest) = .error (unknownLetter c) := by
        obtain ⟨b, more, rfl⟩ := id harg
        exact hletter (b :: more) rest
      rw [answer, answer_of_unknown hparse]
      split
      · next hless =>
        rw [hround _ harg.text?_ne] at hless ⊢
        have hagain : answer reader (first ++ behind) = _ := answer_without hrefuses hends
        rw [haccepted, without_append] at hagain
        refine ih _ hless ?_ hagain.symm (not_mem_without hnew _) rfl
        rw [← without_append]
        exact not_mem_without hends _
      · rfl

/-- Where all is passed over that cannot be read, no unknown letter stands in front of others. -/
theorem not_clustered_of_answer (hends : [Reading.dash, Reading.dash] ∉ args)
    (haccepted : answer reader args = .ok a) : ∀ arg ∈ args, ¬Clustered c arg := by
  intro arg hmem harg
  obtain ⟨first, rest, rfl, hnew⟩ := List.eq_append_cons_of_mem hmem
  have hrefused : answer reader (first ++ arg :: rest) = .error (unknownLetter c) :=
    answer_clustered_of_not_mem hrefuses hends haccepted harg hnew
  cases haccepted.symm.trans hrefused

theorem answer_clustered (hends : [Reading.dash, Reading.dash] ∉ first ++ behind)
    (haccepted : answer reader (first ++ behind) = .ok a) (harg : Clustered c arg)
    (rest : List Octets) :
    answer reader (first ++ arg :: rest) = .error (unknownLetter c) :=
  answer_clustered_of_not_mem hrefuses hends haccepted harg fun hmem =>
    not_clustered_of_answer hrefuses hends haccepted arg (List.mem_append_left _ hmem) harg

end InFront

/-! ## Letters that are added -/

/-- Arguments to which a letter has been added as an option, any number of times: as an argument of
its own, or in front of the letters of another one, which has then been joined. -/
inductive Added (c : Char) (args : List Octets) : Bool → List Octets → Prop where
  | nothing : Added c args false args
  | alone {joined : Bool} {first rest : List Octets} (h : Added c args joined (first ++ rest)) :
      Added c args joined (first ++ dashed c :: rest)
  | inFront {joined : Bool} {first rest : List Octets} {b : UInt8} {more : Octets}
      (short : b ≠ Reading.dash)
      (h : Added c args joined (first ++ (Reading.dash :: b :: more) :: rest)) :
      Added c args true (first ++ (dashed c ++ b :: more) :: rest)

/-- An argument that has been joined, with nothing in front of it that cannot be read or passed
over. -/
def Joined (reader : List Octets → Except Error α) (c : Char) (a : α) (args : List Octets) : Prop :=
  ∃ first arg rest behind, args = first ++ arg :: rest ∧ Clustered c arg ∧
    [Reading.dash, Reading.dash] ∉ first ++ behind ∧ answer reader (first ++ behind) = .ok a

theorem append_eq_append_cons {first rest before after : List Octets} {arg : Octets}
    (h : first ++ rest = before ++ arg :: after) :
    (∃ between, before = first ++ between ∧ rest = between ++ arg :: after) ∨
      ∃ between, first = before ++ arg :: between ∧ after = between ++ rest := by
  obtain ⟨between, hbefore, hrest⟩ | ⟨between, hfirst, harg⟩ := List.append_eq_append_iff.1 h
  · exact .inl ⟨between, hbefore, hrest⟩
  · cases between with
    | nil => exact .inl ⟨[], by simp [hfirst], harg.symm⟩
    | cons _ between =>
      cases harg
      exact .inr ⟨between, hfirst, rfl⟩

section Added

variable (hrefuses : RefusesLetter reader c)
include hrefuses

theorem Joined.answer_eq (h : Joined reader c a args) :
    answer reader args = .error (unknownLetter c) := by
  obtain ⟨first, arg, rest, behind, rfl, harg, hends, haccepted⟩ := h
  exact answer_clustered hrefuses hends haccepted harg rest

theorem Joined.alone {first rest : List Octets} (h : Joined reader c a (first ++ rest)) :
    Joined reader c a (first ++ dashed c :: rest) := by
  obtain ⟨before, arg, after, behind, hsplit, harg, hends, haccepted⟩ := h
  obtain ⟨between, rfl, rfl⟩ | ⟨between, rfl, rfl⟩ := append_eq_append_cons hsplit
  · rw [List.append_assoc] at hends haccepted
    refine ⟨first ++ dashed c :: between, arg, after, behind, by simp, harg, ?_, ?_⟩
    · rw [List.append_assoc]
      exact dashes_not_mem_append_dashed hrefuses.not_dash hends
    · rw [List.append_assoc]
      exact (answer_append_dashed hrefuses hends).trans haccepted
  · exact ⟨before, arg, between ++ dashed c :: rest, behind, by simp, harg, hends, haccepted⟩

omit hrefuses in
/-- Where one argument has been joined, another one can be. -/
theorem Joined.inFront {first rest : List Octets} {old new : Octets} (hnew : Clustered c new)
    (h : Joined reader c a (first ++ old :: rest)) :
    Joined reader c a (first ++ new :: rest) := by
  obtain ⟨before, arg, after, behind, hsplit, harg, hends, haccepted⟩ := h
  obtain ⟨between, rfl, hrest⟩ | ⟨between, rfl, rfl⟩ := append_eq_append_cons hsplit
  · rw [List.append_assoc] at hends haccepted
    exact ⟨first, new, rest, between ++ behind, rfl, hnew, hends, haccepted⟩
  · exact ⟨before, arg, between ++ new :: rest, behind, by simp, harg, hends, haccepted⟩

/-- What a line comes to that was accepted before letters have been added to it. -/
theorem Added.cases_answer (h : Added c args joined args')
    (hends : [Reading.dash, Reading.dash] ∉ args) (haccepted : answer reader args = .ok a) :
    [Reading.dash, Reading.dash] ∉ args' ∧
      if joined then Joined reader c a args' else answer reader args' = .ok a := by
  induction h with
  | nothing => exact ⟨hends, haccepted⟩
  | @alone joined first rest h ih =>
    obtain ⟨hends', hanswer⟩ := ih
    refine ⟨dashes_not_mem_append_dashed hrefuses.not_dash hends', ?_⟩
    cases joined with
    | true => exact Joined.alone hrefuses hanswer
    | false => exact (answer_append_dashed hrefuses hends').trans hanswer
  | @inFront joined first rest b more short h ih =>
    obtain ⟨hends', hanswer⟩ := ih
    have hnew : Clustered c (dashed c ++ b :: more) := ⟨b, more, rfl⟩
    refine ⟨?_, ?_⟩
    · have hne := dashes_ne hrefuses.not_dash (b :: more)
      simp only [List.mem_append, List.mem_cons, not_or] at hends' ⊢
      exact ⟨hends'.1, hne, hends'.2.2⟩
    · cases joined with
      | true => exact Joined.inFront hnew hanswer
      | false => exact ⟨first, _, rest, _, rfl, hnew, hends', hanswer⟩

theorem Added.answer_eq (h : Added c args joined args')
    (hends : [Reading.dash, Reading.dash] ∉ args) (haccepted : answer reader args = .ok a) :
    [Reading.dash, Reading.dash] ∉ args' ∧
      answer reader args' = if joined then .error (unknownLetter c) else .ok a := by
  obtain ⟨hends', hanswer⟩ := h.cases_answer hrefuses hends haccepted
  refine ⟨hends', ?_⟩
  cases joined with
  | true => exact Joined.answer_eq hrefuses hanswer
  | false => exact hanswer

/-- A name in front of the line is not taken for an argument, unless it looks like one. -/
theorem answer_tail {name : Octets} (hname : name.head? ≠ some Reading.dash)
    (hends : [Reading.dash, Reading.dash] ∉ args) :
    answer (fun line => reader line.tail) (name :: args) = answer reader args := by
  induction hn : args.length using Nat.strong_induction_on generalizing args with
  | _ n ih =>
    subst hn
    by_cases hunknown : ∃ shown, reader args = .error ⟨.unknownArgument, some shown⟩
    · obtain ⟨shown, hshown⟩ := hunknown
      have hkept : without shown (name :: args) = name :: without shown args := by
        refine without_cons_of_ne (fun htext => hname ?_) args
        obtain ⟨cs, hcs⟩ := hrefuses.shows args shown hends hshown
        rw [Octets.text?_eq_some_iff.1 htext, Octets.ofString, hcs]
        rfl
      have hline : answer (fun line => reader line.tail) (name :: args) = _ :=
        answer_of_unknown hshown
      have hargs : answer reader args = _ := answer_of_unknown hshown
      rw [hline, hargs, hkept]
      simp only [List.length_cons, Nat.add_lt_add_iff_right]
      split
      · next hless => exact ih _ hless (not_mem_without hends shown) rfl
      · rfl
    · have hline : answer (fun line => reader line.tail) (name :: args) = _ :=
        answer_of_other (not_exists.1 hunknown)
      have hargs : answer reader args = _ := answer_of_other (not_exists.1 hunknown)
      exact hline.trans hargs.symm

/-- A letter that is added alone is passed over, and all else in the line counts as before. One in
front of another has the line refused, and is reported in vain. -/
theorem Added.answer_tail_eq {name : Octets} (hname : name.head? ≠ some Reading.dash)
    (hends : [Reading.dash, Reading.dash] ∉ args)
    (haccepted : answer (fun line => reader line.tail) (name :: args) = .ok a)
    (h : Added c args joined args') :
    answer (fun line => reader line.tail) (name :: args') =
      if joined then .error (unknownLetter c) else .ok a := by
  rw [answer_tail hrefuses hname hends] at haccepted
  obtain ⟨hends', hanswer⟩ := h.answer_eq hrefuses hends haccepted
  rw [answer_tail hrefuses hname hends', hanswer]

end Added

end CommandLine
end BootSequence
