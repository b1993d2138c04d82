/-!
Fitting a text into a column: first cut it to a greatest length, then fill it with spaces to a
least one. Lengths count characters.
-/

namespace BootSequence

inductive Alignment where
  | left
  | right
  | centre
  deriving DecidableEq, Repr

/-- Spaces before the text when `n` have to be added; a centred text has the odd one behind it. -/
def Alignment.before : Alignment → Nat → Nat
  | .left, _ => 0
  | .right, n => n
  | .centre, n => n / 2

/-- Cut to at most `limit` characters, then fill to at least `width`. -/
def pad (align : Alignment) (width : Nat) (limit : Option Nat) (s : String) : String :=
  let cut := match limit with
    | some n => s.toList.take n
    | none => s.toList
  let missing := width - cut.length
  let before := align.before missing
  String.ofList (List.replicate before ' ' ++ cut ++ List.replicate (missing - before) ' ')

end BootSequence
