import BootSequence.Reader

/-!
A file that is read while others may change it. It is read block by block, and a new block is taken,
from where the last one ended and from what the file holds by then, only when the one before has
been used up. The end of a file is therefore never final: what has been added since is there to be
read. Nothing that is done to a tree removes a file or moves it, so that an open file is known by its
location.
-/

namespace BootSequence

/-- Where the file is, how far it has been read and what of that is not used up, and how far it can
be read at all. -/
structure OpenFile where
  loc : Location
  offset : Nat
  buffer : Octets
  reach : Nat
  deriving DecidableEq, Repr

namespace OpenFile

def blockSize : Nat := 0x2000

/-- The largest size that a file grows to. To read on from there is to be at the end. -/
def maxFileSize : Nat := 0x7FFFFFFFFFFFFFFF

def atStart (loc : Location) (content : Octets) : OpenFile :=
  ⟨loc, 0, [], max content.length maxFileSize⟩

def ofPath (f : Files) (p : Path) : Except Fault OpenFile :=
  (f.openToRead p).map fun loc => atStart loc ((f.contentAt loc).toOption.getD [])

/-- What there is behind the octets that have been read. -/
def ahead (o : OpenFile) (content : Octets) : Octets := (content.take o.reach).drop o.offset

def fill (o : OpenFile) (content : Octets) : OpenFile :=
  let block := (o.ahead content).take blockSize
  { o with offset := o.offset + block.length, buffer := block }

def ready (o : OpenFile) (content : Octets) : OpenFile :=
  if o.buffer.isEmpty then o.fill content else o

/-- What is there to be read as long as the file stays as it is. -/
def left (o : OpenFile) (content : Octets) : Octets := o.buffer ++ o.ahead content

@[simp] theorem left_ready (o : OpenFile) (content : Octets) :
    (o.ready content).left content = o.left content := by
  unfold ready
  split
  · rename_i h
    simp only [List.isEmpty_iff] at h
    simp only [left, fill, ahead, h, List.nil_append, ← List.drop_drop, List.length_take]
    generalize (content.take o.reach).drop o.offset = block
    rcases Nat.le_total blockSize block.length with hb | hb
    · rw [Nat.min_eq_left hb, List.take_append_drop]
    · rw [Nat.min_eq_right hb, List.drop_length, List.append_nil, List.take_of_length_le hb]
  · rfl

/-- How many octets can still be read at most, whatever becomes of the file. -/
def size (o : OpenFile) : Nat := (o.reach - o.offset) + o.buffer.length

theorem size_ready_le (o : OpenFile) (content : Octets) : (o.ready content).size ≤ o.size := by
  unfold ready
  split
  · simp only [size, fill, ahead, List.length_take, List.length_drop]
    omega
  · exact Nat.le_refl _

/-- The first line of a text, with the newline that ends it if there is one. -/
def firstLine : Octets → Octets
  | [] => []
  | b :: rest => if b = Octets.newline then [b] else b :: firstLine rest

/-- The first line of a text and what is behind it, if a newline ends it. -/
def line? : Octets → Option (Octets × Octets)
  | [] => none
  | b :: rest =>
    if b = Octets.newline then some ([b], rest) else (line? rest).map fun x => (b :: x.1, x.2)

theorem firstLine_append_of_none {b : Octets} (h : line? b = none) (t : Octets) :
    firstLine (b ++ t) = b ++ firstLine t := by
  induction b with
  | nil => rfl
  | cons x xs ih => by_cases hx : x = Octets.newline <;> simp_all [line?, firstLine]

theorem firstLine_append_of_some {b line rest : Octets} (h : line? b = some (line, rest))
    (t : Octets) : firstLine (b ++ t) = line ∧ b = line ++ rest := by
  induction b generalizing line with
  | nil => simp [line?] at h
  | cons x xs ih =>
    by_cases hx : x = Octets.newline
    · simp only [line?, hx, if_true, Option.some.injEq, Prod.mk.injEq] at h
      obtain ⟨rfl, rfl⟩ := h
      simp [firstLine, hx]
    · simp only [line?, hx, if_false, Option.map_eq_some_iff, Prod.mk.injEq] at h
      obtain ⟨⟨l, r⟩, hl, rfl, rfl⟩ := h
      have := ih hl
      simp [firstLine, hx, this.1, ← this.2]

def readLine (o : OpenFile) (content started : Octets) : Octets × OpenFile :=
  let now := o.ready content
  if now.buffer = [] then (started, now)
  else
    match line? now.buffer with
    | none => readLine { now with buffer := [] } content (started ++ now.buffer)
    | some (line, rest) => (started ++ line, { now with buffer := rest })
termination_by o.size
decreasing_by
  have h := o.size_ready_le content
  have : 0 < (o.ready content).buffer.length := List.length_pos_iff.2 ‹_›
  simp only [size, List.length_nil] at h ⊢
  omega

/-- A line takes up the octets that it has. -/
theorem size_readLine (o : OpenFile) (content started : Octets) :
    (o.readLine content started).2.size + (o.readLine content started).1.length ≤
      o.size + started.length := by
  fun_induction readLine o content started with
  | case1 o started now h => exact Nat.add_le_add_right (o.size_ready_le content) _
  | case2 o started now h hd ih =>
    have hsize : now.size ≤ o.size := o.size_ready_le content
    simp only [size, List.length_nil, List.length_append] at ih hsize ⊢
    omega
  | case3 o started now h line rest hd =>
    have hsize : now.size ≤ o.size := o.size_ready_le content
    have hlength := congrArg List.length (firstLine_append_of_some hd []).2
    simp only [size, List.length_append] at hsize hlength ⊢
    omega

theorem left_eq_nil_of_ready (o : OpenFile) (content : Octets)
    (h : (o.ready content).buffer = []) : o.left content = [] := by
  unfold ready at h
  split at h
  · rename_i hb
    simp only [List.isEmpty_iff] at hb
    simp only [fill, List.take_eq_nil_iff] at h
    simpa [left, hb] using h.resolve_left (by decide)
  · simp_all

/-- Blocks leave no mark: what is read is the first line of all that is left. -/
theorem readLine_eq (o : OpenFile) (content started : Octets) :
    (o.readLine content started).1 = started ++ firstLine (o.left content) ∧
      (o.readLine content started).2.left content =
        (o.left content).drop (firstLine (o.left content)).length := by
  fun_induction readLine o content started with
  | case1 o started now h =>
    have hl := left_eq_nil_of_ready o content h
    have hn : now.left content = [] := (left_ready o content).trans hl
    simp [hl, hn, firstLine]
  | case2 o started now h hd ih =>
    have hl : o.left content = now.buffer ++ { now with buffer := [] }.left content := by
      rw [← left_ready]; rfl
    rw [hl, firstLine_append_of_none hd, ih.1, ih.2]
    simp
  | case3 o started now h line rest hd =>
    have hl : o.left content = now.buffer ++ now.ahead content := by
      rw [← left_ready]; rfl
    obtain ⟨hf, hb⟩ := firstLine_append_of_some hd (now.ahead content)
    rw [hl, hf, hb]
    simp [left, ahead]

instance : Reader OpenFile where
  readLine o f :=
    match f.contentAt o.loc with
    | .error e => (.error e, o)
    | .ok content =>
      let (line, rest) := o.readLine content []
      (.ok line, rest)
  size := size
  size_line := by
    intro o left f line h hne
    dsimp only at h
    split at h
    · cases h
    · rename_i content hcontent
      cases h
      have hsize := o.size_readLine content []
      have hpos := List.length_pos_iff.2 hne
      simp only [List.length_nil] at hsize
      omega
  size_interrupted := by
    intro o left f h
    dsimp only at h
    split at h
    · rename_i hcontent
      cases h
      exact absurd hcontent (f.contentAt_ne_interrupted o.loc)
    · cases h

def rest (o : OpenFile) (f : Files) : Octets × OpenFile :=
  let content := (f.contentAt o.loc).toOption.getD []
  (o.left content, { o with offset := max o.offset (min content.length o.reach), buffer := [] })

end OpenFile
end BootSequence
