import BootSequence.Mount.Record
import BootSequence.Source
import BootSequence.Text.Quoted

/-!
A mount table, read line by line. A bad line or a failed read is an item like any other, and the
reading goes on behind it; lines are numbered by the newlines before them.
-/

namespace BootSequence
namespace Mount

def Error.message : Error → String
  | mountPoint target cause => s!"cannot create mount point {target.display}: {cause.report}"
  | refused entry cause => s!"mount {entry.display} failed: {cause.report}"
  | cannotOpen table cause => s!"can't read '{table.display}': {cause.message}"
  | cannotRead table cause => s!"failed reading '{table.display}': {cause.message}"
  | malformed table number line =>
    s!"malformed record at {table.display}:{number}: {quoteText line}"

namespace Table

abbrev Item := Except Error Entry

/-- A table that is read item by item: what it is read from, and the lines that have been read. -/
structure Cursor (ρ : Type) where
  reader : ρ
  number : Nat

namespace Cursor

variable {ρ : Type} [Reader ρ] {table : Path} {f : Files}

def ofDeliveries (ds : List Delivery) : Cursor Source := ⟨.ofDeliveries ds, 0⟩

/-- Read the line behind `number` lines. It comes to an item, if it does not say nothing. -/
def line (table : Path) (number : Nat) (octets : Octets) : Except (Item × Nat) Nat :=
  let line := Utf8.decodeLossy octets
  match Record.parse line with
  | .blank => .ok (number + 1)
  | .entry e => .error (.ok e, number + 1)
  | .malformed =>
    let text := String.ofList (Blank.trimEnd line)
    .error (.error (.malformed table (number + 1) text), number + 1)

/-- A failed read is an item, and no line. -/
def failed (table : Path) (number : Nat) (e : Errno) : Item × Nat :=
  (.error (.cannotRead table (.numbered e)), number)

/-- Read on to the next item, past all lines that say nothing; there is none at the end. -/
def next (table : Path) (f : Files) (c : Cursor ρ) : Option Item × Cursor ρ :=
  match Reader.foldLines (m := Id) f (line table) (failed table) c.reader c.number with
  | (.ok number, left) => (none, ⟨left, number⟩)
  | (.error (item, number), left) => (some item, ⟨left, number⟩)

theorem size_next {c left : Cursor ρ} {item : Item} (h : c.next table f = (some item, left))
    (hfailed : ∀ {e : Errno} {r r' : ρ}, Reader.readLine r f = (.error e, r') →
      item = .error (.cannotRead table (.numbered e)) → Reader.size r' < Reader.size r) :
    Reader.size left.reader < Reader.size c.reader := by
  unfold next at h
  split at h
  · cases h
  · rename_i hfold
    cases h
    exact Reader.size_foldLines hfold fun hread hx => hfailed hread (congrArg Prod.fst hx)

/-- All items to the end, and the cursor there. A source does not look at files. -/
def drain (table : Path) (c : Cursor Source) : List Item × Cursor Source :=
  match _h : c.next table ⟨.empty, [], 0⟩ with
  | (none, last) => ([], last)
  | (some item, left) =>
    let (items, last) := drain table left
    (item :: items, last)
termination_by c.reader.size
decreasing_by
  refine size_next ‹_› fun {e s s'} hread _ => ?_
  exact Source.size_lt_of_readLine (show s.readLine [] = (.error e, s') from hread) nofun

end Cursor

end Table
end Mount
end BootSequence
