import BootSequence.Program.MountCommand
import BootSequence.Proofs.CommandLine.Letters

/-!
Unknown short options of the mounting program. They are meant to be reported and passed over, and
to leave the others as they are. That is so for options that stand alone, wherever they are put; but
one that stands in front of another behind the same dash has the whole line refused
(`answer_of_added`).
-/

namespace BootSequence
namespace Program
namespace MountCommand

open CommandLine

variable {c : Char} {args args' : List Octets} {joined : Bool} {request : Request}

theorem ofShort?_eq_none (h : c ∉ ['a', 't', 'h']) : grammar.ofShort? c = none := by
  simp only [List.mem_cons, List.not_mem_nil, or_false, not_or] at h
  simp [Grammar.ofShort?, grammar, Switch.ofShort, Switch.help, Ne.symm h.1, Ne.symm h.2.1,
    Ne.symm h.2.2]

theorem refusesLetter (hother : c ∉ ['a', 't', 'h']) (hdash : c ≠ '-') :
    RefusesLetter (fun args => (CommandLine.parse grammar args).map Request.ofMatches) c :=
  refusesLetter_parse rfl (ofShort?_eq_none hother) hdash

/-- An unknown option that stands alone is passed over, and all else in the line counts as before.
One in front of another option has the line refused, and is reported in vain. -/
theorem answer_of_added {name : Octets} (hname : name.head? ≠ some Reading.dash)
    (hother : c ∉ ['a', 't', 'h']) (hdash : c ≠ '-')
    (hends : [Reading.dash, Reading.dash] ∉ args)
    (haccepted : (parseLine (name :: args)).answer = .ok request) (h : Added c args joined args') :
    (parseLine (name :: args')).answer =
      if joined then .error (unknownLetter c) else .ok request :=
  h.answer_tail_eq (refusesLetter hother hdash) hname hends haccepted

theorem answer_of_added_tmpfs :
    let line := ["-t", "tmpfs", "none"].map Octets.ofString
    let request : Request := ⟨false, some "tmpfs", ["none"]⟩
    let name := Octets.ofString "mount"
    name.head? ≠ some Reading.dash ∧ (parseLine (name :: line)).answer = .ok request ∧
      (parseLine (name :: ["-x", "-t", "-x", "tmpfs", "none"].map Octets.ofString)).answer =
        .ok request ∧
      (parseLine (name :: ["-x", "-xxt", "tmpfs", "none"].map Octets.ofString)).answer =
        .error (unknownLetter 'x') := by
  intro line request name
  have hname : name.head? ≠ some Reading.dash := by decide
  have haccepted : (parseLine (name :: line)).answer = .ok request := by
    rw [parseLine, parseSkipping]
    rfl
  have hends : [Reading.dash, Reading.dash] ∉ line := by decide
  have halone : Added 'x' line false (["-x", "-t", "-x", "tmpfs", "none"].map Octets.ofString) := by
    have hvalue : Added 'x' line false (["-t", "-x", "tmpfs", "none"].map Octets.ofString) :=
      @Added.alone 'x' line false [.ofString "-t"] _ .nothing
    exact @Added.alone 'x' line false [] _ hvalue
  have hjoined : Added 'x' line true (["-x", "-xxt", "tmpfs", "none"].map Octets.ofString) := by
    have hone : Added 'x' line true (["-xt", "tmpfs", "none"].map Octets.ofString) :=
      @Added.inFront 'x' line false [] _ 116 [] (by decide) .nothing
    have htwo : Added 'x' line true (["-xxt", "tmpfs", "none"].map Octets.ofString) :=
      @Added.inFront 'x' line true [] _ 120 [116] (by decide) hone
    exact @Added.alone 'x' line true [] _ htwo
  exact ⟨hname, haccepted,
    answer_of_added hname (by decide) (by decide) hends haccepted halone,
    answer_of_added hname (by decide) (by decide) hends haccepted hjoined⟩

/-- An option in front of another one leaves nothing of a line that is accepted without it. -/
theorem parseLine_joined_refused :
    (parseLine (["mount", "-t", "tmpfs", "none"].map Octets.ofString)).answer =
        .ok ⟨false, some "tmpfs", ["none"]⟩ ∧
      (parseLine (["mount", "-xt", "tmpfs", "none"].map Octets.ofString)).answer =
        .error ⟨.unknownArgument, some "-x"⟩ := by
  constructor
  · rw [parseLine, parseSkipping]
    rfl
  · rw [parseLine, parseSkipping]
    rfl

end MountCommand
end Program
end BootSequence
