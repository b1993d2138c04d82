import BootSequence.Reader

/-!
Reading lines. A source delivers its octets in chunks of any size, may be interrupted, and may fail.
Chunks and interruptions leave no mark: a feed is the stream of single octets and failures that is
still unread. A failure loses what has been read of an unfinished line, and reading can go on behind
it.
-/

namespace BootSequence

/-- One answer of a source that is read from. -/
inductive Delivery where
  | data (octets : Octets)
  | interruption
  | failure (errno : Errno)
  deriving DecidableEq, Repr

inductive Signal where
  | octet (b : UInt8)
  | failure (errno : Errno)
  deriving DecidableEq, Repr

/-- An interrupted read is tried again, also one that failed with the number for that. -/
def Delivery.signals : Delivery → List Signal
  | data o => o.map .octet
  | interruption => []
  | failure e => if e = .interrupted then [] else [.failure e]

abbrev Feed := List Signal

namespace Feed

def ofOctets (o : Octets) : Feed := o.map .octet

def ofDeliveries (ds : List Delivery) : Feed := ds.flatMap Delivery.signals

/-- The next line, behind the octets of it that have been read, newest first. -/
def readLine (started : Octets) : Feed → Except Errno Octets × Feed
  | [] => (.ok started.reverse, [])
  | .octet b :: rest =>
    if b = Octets.newline then (.ok (b :: started).reverse, rest) else readLine (b :: started) rest
  | .failure e :: rest => (.error e, rest)

theorem length_readLine (started : Octets) (f : Feed) :
    match f.readLine started with
    | (.ok line, left) => left.length + line.length ≤ f.length + started.length
    | (.error _, left) => left.length < f.length := by
  induction f generalizing started with
  | nil => simp [readLine]
  | cons s f ih =>
    cases s with
    | failure e => simp [readLine]
    | octet b =>
      by_cases hb : b = Octets.newline
      · simp only [readLine, if_pos hb, List.length_reverse, List.length_cons]
        omega
      · simp only [readLine, if_neg hb]
        have hrest := ih (b :: started)
        revert hrest
        split
        · simp only [List.length_cons]
          exact fun h => by omega
        · exact Nat.lt_succ_of_lt

instance : Reader Feed where
  readLine f _ := f.readLine []
  size := List.length
  size_line := by
    intro f left _ line h hne
    have hlength := f.length_readLine []
    have hpos := List.length_pos_iff.2 hne
    rw [h] at hlength
    simp only [List.length_nil] at hlength
    omega
  size_interrupted := by
    intro f left _ h
    have hlength := f.length_readLine []
    rwa [h] at hlength

end Feed
end BootSequence
