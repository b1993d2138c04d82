import BootSequence.Feed
import BootSequence.Tree.OpenFile

/-!
A source while it is read from. Its answers are taken one after another, and only when what has
arrived is used up. A line is put together from as many chunks as it takes: an interrupted read is
tried again, and one that fails ends the attempt with what has been read of the line so far lost.
-/

namespace BootSequence

/-- What has arrived and is not used up, and the answers that are still to come. -/
structure Source where
  buffer : Octets
  coming : List Delivery
  deriving DecidableEq, Repr

namespace Source

def ofDeliveries (ds : List Delivery) : Source := ⟨[], ds⟩

def ended : Source := ⟨[], []⟩

/-- Wait for the next answer: octets, or a failure. No octets are the end; an empty chunk is no
answer. -/
def await : List Delivery → Except Errno Octets × List Delivery
  | [] => (.ok [], [])
  | .data o :: rest => if o = [] then await rest else (.ok o, rest)
  | .interruption :: rest => (.error .interrupted, rest)
  | .failure e :: rest => (.error e, rest)

def ready (s : Source) : Except Errno Octets × List Delivery :=
  if s.buffer = [] then await s.coming else (.ok s.buffer, s.coming)

/-- How many octets are still to come, each answer counting for one more. -/
def amount : List Delivery → Nat
  | [] => 0
  | .data o :: rest => o.length + 1 + amount rest
  | .interruption :: rest | .failure _ :: rest => 1 + amount rest

def size (s : Source) : Nat := s.buffer.length + amount s.coming

/-- No octets are had for nothing, and no failure is met twice. -/
theorem size_await (ds : List Delivery) :
    match await ds with
    | (.ok octets, coming) => size ⟨octets, coming⟩ ≤ size ⟨[], ds⟩
    | (.error _, coming) => size ⟨[], coming⟩ < size ⟨[], ds⟩ := by
  induction ds with
  | nil => exact Nat.le_refl _
  | cons d ds ih =>
    cases d with
    | data o =>
      by_cases ho : o = []
      · rw [await, if_pos ho]
        revert ih
        have hsize : size ⟨[], ds⟩ ≤ size ⟨[], .data o :: ds⟩ := by
          simp only [size, amount]
          omega
        split
        · exact fun ih => Nat.le_trans ih hsize
        · exact fun ih => Nat.lt_of_lt_of_le ih hsize
      · rw [await, if_neg ho]
        simp only [size, amount, List.length_nil]
        omega
    | interruption =>
      simp only [await, size, amount]
      omega
    | failure e =>
      simp only [await, size, amount]
      omega

theorem size_ready (s : Source) :
    match s.ready with
    | (.ok octets, coming) => size ⟨octets, coming⟩ ≤ s.size
    | (.error _, coming) => size ⟨[], coming⟩ < s.size := by
  obtain ⟨buffer, coming⟩ := s
  by_cases hb : buffer = []
  · subst hb
    rw [ready, if_pos rfl]
    exact size_await coming
  · simp only [ready, if_neg hb, Nat.le_refl]

def readLine (s : Source) (started : Octets) : Except Errno Octets × Source :=
  match _h : s.ready with
  | (.error e, coming) =>
    if e = .interrupted then readLine ⟨[], coming⟩ started else (.error e, ⟨[], coming⟩)
  | (.ok octets, coming) =>
    if octets = [] then (.ok started, ⟨[], coming⟩)
    else
      match OpenFile.line? octets with
      | none => readLine ⟨[], coming⟩ (started ++ octets)
      | some (line, rest) => (.ok (started ++ line), ⟨rest, coming⟩)
termination_by s.size
decreasing_by
  · have hsize := s.size_ready
    rw [‹s.ready = _›] at hsize
    exact hsize
  · have hsize := s.size_ready
    rw [‹s.ready = _›] at hsize
    have hpos : 0 < octets.length := List.length_pos_iff.2 ‹_›
    simp only [size, List.length_nil] at hsize ⊢
    omega

/-- A line takes up the octets that it has, and a failure takes up something as well. -/
theorem size_readLine (s : Source) (started : Octets) :
    match s.readLine started with
    | (.ok line, left) => left.size + line.length ≤ s.size + started.length
    | (.error _, left) => left.size < s.size := by
  fun_induction readLine s started with
  | case1 s started coming h ih =>
    have hsize := s.size_ready
    rw [h] at hsize
    revert ih
    split
    · exact fun ih => by omega
    · exact fun ih => Nat.lt_trans ih hsize
  | case2 s started e coming h he =>
    have hsize := s.size_ready
    rw [h] at hsize
    exact hsize
  | case3 s started coming h =>
    have hsize := s.size_ready
    rw [h] at hsize
    exact Nat.add_le_add_right hsize _
  | case4 s started octets coming h ho hline ih =>
    have hsize := s.size_ready
    rw [h] at hsize
    revert ih
    simp only [size, List.length_nil, List.length_append] at hsize ⊢
    have hpos : 0 < octets.length := List.length_pos_iff.2 ho
    split
    · exact fun ih => by omega
    · exact fun ih => by omega
  | case5 s started octets coming h ho line rest hline =>
    have hsize := s.size_ready
    rw [h] at hsize
    have hlength := congrArg List.length (OpenFile.firstLine_append_of_some hline []).2
    simp only [size, List.length_append] at hsize hlength ⊢
    omega

theorem size_lt_of_readLine {s left : Source} {reading : Except Errno Octets}
    (h : s.readLine [] = (reading, left)) (hend : reading ≠ .ok []) : left.size < s.size := by
  have hsize := s.size_readLine []
  rw [h] at hsize
  cases reading with
  | error e => exact hsize
  | ok line =>
    have hpos : 0 < line.length := List.length_pos_iff.2 fun hnil => hend (congrArg _ hnil)
    simp only [List.length_nil] at hsize
    omega

instance : Reader Source where
  readLine s _ := s.readLine []
  size := size
  size_line h hne := size_lt_of_readLine h fun he => hne (Except.ok.inj he)
  size_interrupted h := size_lt_of_readLine h nofun

end Source
end BootSequence
