import BootSequence.Text.Digits
import BootSequence.Tree.Files

/-!
Conditions of scripts: tests of texts, numbers and files, written as a list of words. A condition
that makes no sense is neither true nor false.
-/

namespace BootSequence
namespace Condition

def number? (o : Octets) : Option Int :=
  match o.characters with
  | '-' :: rest => (decimal? rest).map fun n => -(n : Int)
  | '+' :: rest => (decimal? rest).map fun n => (n : Int)
  | rest => (decimal? rest).map fun n => (n : Int)

/-- A property of one word; `none` if there is no such test. -/
def unary (files : Files) (operator : String) (word : Octets) : Option Bool :=
  let loc := (files.locate ⟨word⟩).toOption
  let node := loc.bind files.tree.node?
  match operator with
  | "-n" => some !word.isEmpty
  | "-z" => some word.isEmpty
  | "-e" => some node.isSome
  | "-r" => some (loc.any (files.allows .read))
  | "-w" => some (loc.any (files.allows .write))
  | "-x" => some (loc.any (files.allows .pass))
  | "-d" => some (node.any Node.isDirectory)
  | "-f" => some (node.any Node.isFile)
  | "-s" =>
    some (node.any fun
      | .file _ content => !content.isEmpty
      | .device _ => false
      | _ => true)
  | _ => none

def compare (operator : String) (a b : Int) : Option Bool :=
  match operator with
  | "-eq" => some (a = b)
  | "-ne" => some (a ≠ b)
  | "-lt" => some (a < b)
  | "-le" => some (a ≤ b)
  | "-gt" => some (a > b)
  | "-ge" => some (a ≥ b)
  | _ => none

def binary (operator : String) (a b : Octets) : Option Bool :=
  match operator with
  | "=" | "==" => some (a = b)
  | "!=" => some (a ≠ b)
  | _ => do compare operator (← number? a) (← number? b)

/-- One test, with any number of negations before it. A single word is true unless it is empty, and
no word is false. -/
def primary (files : Files) : List Octets → Option Bool
  | [] => some false
  | [word] => some !word.isEmpty
  | [a, b] =>
    if a = Octets.ofString "!" then some b.isEmpty else unary files (Octets.lossy a) b
  | [a, operator, b] =>
    match binary (Octets.lossy operator) a b with
    | some holds => some holds
    | none => if a = Octets.ofString "!" then (primary files [operator, b]).map (!·) else none
  | a :: rest => if a = Octets.ofString "!" then (primary files rest).map (!·) else none

/-- Tests joined by `-a` hold together; those joined by `-o` hold if one of them does. -/
def holds (files : Files) (words : List Octets) : Option Bool := do
  let alternatives := pieces (· = Octets.ofString "-o") words
  let results ← alternatives.mapM fun alternative =>
    (pieces (· = Octets.ofString "-a") alternative).mapM (primary files)
  return results.any (·.all id)

/-- The exit status: 0 for true, 1 for false, 2 for nonsense. -/
def status (files : Files) (words : List Octets) : Nat :=
  match holds files words with
  | some true => 0
  | some false => 1
  | none => 2

/-- In brackets, the last word has to close them. -/
def bracketStatus (files : Files) (words : List Octets) : Nat :=
  if words.getLast? = some (Octets.ofString "]") then status files words.dropLast else 2

end Condition
end BootSequence
