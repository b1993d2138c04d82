import BootSequence.Machine.Shell.Scope

/-!
Patterns, as the words of a choice between cases are. What was quoted in a word stands for itself.
-/

namespace BootSequence
namespace Shell

/-- What a pattern asks for at one place of a text: a character, any character, any number of them,
or one in some ranges or in none of them. -/
inductive Glyph where
  | exactly (c : Char)
  | any
  | many
  | within (ranges : List (Char × Char)) (inside : Bool)
  deriving DecidableEq, Repr

def Glyph.admits : Glyph → Char → Bool
  | exactly d, c => d = c
  | any, _ => true
  | many, _ => false
  | within ranges inside, c => ranges.any (fun r => r.1 ≤ c && c ≤ r.2) = inside

abbrev Pattern := List Glyph

namespace Pattern

def anySuffix (holds : List Char → Bool) : List Char → Bool
  | [] => holds []
  | c :: text => holds (c :: text) || anySuffix holds text

def fits : Pattern → List Char → Bool
  | [], text => text.isEmpty
  | .many :: p, text => anySuffix (fits p) text
  | g :: p, c :: text => g.admits c && fits p text
  | _ :: _, [] => false

/-- The ranges of a set, from behind its first character on, and what follows the bracket that ends
it. A bracket that comes first belongs to the set. -/
def ranges? (first : Bool) : List (Char × Bool) → Option (List (Char × Char) × List (Char × Bool))
  | [] => none
  | (c, quoted) :: ('-', false) :: (d, q) :: rest =>
    if c = ']' && !quoted && !first then some ([], ('-', false) :: (d, q) :: rest)
    else if d = ']' && !q then some ([(c, c), ('-', '-')], rest)
    else (ranges? false rest).map fun (more, rest) => ((c, d) :: more, rest)
  | (c, quoted) :: rest =>
    if c = ']' && !quoted && !first then some ([], rest)
    else (ranges? false rest).map fun (more, rest) => ((c, c) :: more, rest)

def set? : List (Char × Bool) → Option (Glyph × List (Char × Bool))
  | ('!', false) :: rest => (ranges? true rest).map fun (r, rest) => (.within r false, rest)
  | rest => (ranges? true rest).map fun (r, rest) => (.within r true, rest)

/-- A pattern from characters that know whether they were quoted. A bracket that nothing ends stands
for itself. -/
def ofMarked : Nat → List (Char × Bool) → Pattern
  | 0, _ | _, [] => []
  | fuel + 1, (c, quoted) :: rest =>
    match quoted, c with
    | false, '*' => .many :: ofMarked fuel rest
    | false, '?' => .any :: ofMarked fuel rest
    | false, '[' =>
      match set? rest with
      | some (g, rest) => g :: ofMarked fuel rest
      | none => .exactly '[' :: ofMarked fuel rest
    | _, _ => .exactly c :: ofMarked fuel rest

def ofWord (s : Scope) (w : Word) : Pattern :=
  let marked : List (Char × Bool) := w.flatMap fun
    | .char c quoted => [(c, quoted)]
    | .parameter name quoted => (s.value name).characters.map (·, quoted)
    | .nothing => []
  ofMarked marked.length marked

end Pattern
end Shell
end BootSequence
