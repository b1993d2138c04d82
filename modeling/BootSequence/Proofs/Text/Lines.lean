import BootSequence.Feed
import BootSequence.Proofs.Text.Decoding

/-!
Lines. A text is a number of lines that an ending closes, and perhaps one more that nothing closes.
Facts on lines go by induction over them (`lineInduction`). The main one is that decoding and
cutting into lines can change places (`lines_decodeLossy`).
-/

namespace BootSequence

variable {α : Type}

/-- Pieces are what the library's splitting gives. -/
theorem pieces_eq_splitOnP (separates : α → Bool) (l : List α) :
    pieces separates l = l.splitOnP separates := by
  induction l with
  | nil => rfl
  | cons a l ih =>
    have hne := pieces_ne_nil separates l
    rw [List.splitOnP_cons_eq_if_modifyHead, ← ih]
    by_cases h : separates a = true
    · rw [pieces_cons_of_separates h, if_pos h]
    · obtain ⟨first, rest, hl⟩ := List.exists_cons_of_ne_nil hne
      rw [if_neg h, hl, List.modifyHead_cons]
      have hstep : pieces separates (a :: l) =
          (a :: (pieces separates l).headD []) :: (pieces separates l).tail := by
        simp [pieces, h]
      rw [hstep, hl]
      rfl

/-- There are no more words than elements. -/
theorem length_words_le (separates : α → Bool) (l : List α) :
    (words separates l).length ≤ l.length := by
  have hsum : ∀ parts : List (List α),
      (parts.filter (!·.isEmpty)).length ≤ (parts.map List.length).sum := by
    intro parts
    induction parts with
    | nil => exact Nat.le_refl _
    | cons part parts ih =>
      cases part with
      | nil => simpa using ih
      | cons a part =>
        simp only [List.filter_cons, List.isEmpty_cons, Bool.not_false, if_true, List.length_cons,
          List.map_cons, List.sum_cons]
        omega
  have hlen : ((pieces separates l).map List.length).sum ≤ l.length := by
    rw [pieces_eq_splitOnP]
    induction l with
    | nil => simp
    | cons a l ih =>
      rw [List.splitOnP_cons_eq_if_modifyHead]
      split
      · simp only [List.map_cons, List.length_nil, List.sum_cons, List.length_cons]
        omega
      · obtain ⟨first, rest, hl⟩ := List.exists_cons_of_ne_nil (List.splitOnP_ne_nil separates l)
        rw [hl] at ih ⊢
        simp only [List.modifyHead_cons, List.map_cons, List.sum_cons, List.length_cons] at ih ⊢
        omega
  exact Nat.le_trans (hsum _) hlen

/-! ## Cutting into lines -/

section Lines

variable [DecidableEq α]

/-- The lines of a text, without what ends them. An empty piece behind the last ending is no line.
-/
def lines (ending : α) (l : List α) : List (List α) :=
  let parts := l.splitOn ending
  if parts.getLast? = some [] then parts.dropLast else parts

theorem lines_of_not_mem {ending : α} {l : List α} (h : ending ∉ l) :
    lines ending l = if l = [] then [] else [l] := by
  rw [lines, List.splitOn_eq_singleton h]
  by_cases hl : l = [] <;> simp [hl]

theorem lines_append_cons {ending : α} {body : List α} (h : ending ∉ body) (rest : List α) :
    lines ending (body ++ ending :: rest) = body :: lines ending rest := by
  have hne : rest.splitOn ending ≠ [] := List.splitOn_ne_nil ending rest
  obtain ⟨first, more, hrest⟩ := List.exists_cons_of_ne_nil hne
  simp only [lines, List.splitOn_append_cons_self_of_not_mem h, hrest, List.getLast?_cons_cons,
    List.dropLast_cons_cons]
  split <;> rfl

/-- Induction over the lines of a text, the last of which nothing may end. -/
theorem lineInduction {motive : List α → Prop} (ending : α)
    (last : ∀ l, ending ∉ l → motive l)
    (line : ∀ body rest, ending ∉ body → motive rest → motive (body ++ ending :: rest))
    (l : List α) : motive l := by
  induction hn : l.length using Nat.strongRecOn generalizing l with
  | ind n ih =>
    by_cases h : ending ∈ l
    · obtain ⟨body, rest, rfl, hbody⟩ := List.eq_append_cons_of_mem h
      have hlt : rest.length < n := by
        rw [← hn, List.length_append, List.length_cons]
        omega
      exact line body rest hbody (ih _ hlt rest rfl)
    · exact last l h

/-- What lines count for, an empty one for one at most and any other for its length at most, comes
to no more than the whole. -/
theorem sum_lines_le (ending : α) {f : List α → Nat} (hnil : f [] ≤ 1)
    (hlength : ∀ line, line ≠ [] → f line ≤ line.length) (l : List α) :
    ((lines ending l).map f).sum ≤ l.length := by
  induction l using lineInduction ending with
  | last l h =>
    rw [lines_of_not_mem h]
    by_cases hl : l = []
    · rw [if_pos hl]
      exact Nat.zero_le _
    · rw [if_neg hl]
      simpa using hlength l hl
  | line body rest h ih =>
    have hbody : f body ≤ body.length + 1 := by
      by_cases hb : body = []
      · rw [hb]
        exact hnil
      · exact Nat.le_succ_of_le (hlength body hb)
    rw [lines_append_cons h, List.map_cons, List.sum_cons, List.length_append, List.length_cons]
    omega

theorem length_lines_le (ending : α) (l : List α) : (lines ending l).length ≤ l.length := by
  have h := sum_lines_le ending (f := fun _ => 1) (Nat.le_refl 1)
    (fun line hline => List.length_pos_iff.2 hline) l
  rwa [List.map_const', List.sum_replicate_nat, Nat.mul_one] at h

end Lines

namespace Utf8

/-- Lines may be cut first and decoded then, or the other way round: the end of a line is a
character wherever it stands, and no other octets make one. -/
theorem lines_decodeLossy (o : Octets) :
    lines '\n' (decodeLossy o) = (lines Octets.newline o).map decodeLossy := by
  induction o using lineInduction Octets.newline with
  | last o h =>
    have hd : '\n' ∉ decodeLossy o := fun hn => h (newline_mem_of_mem_decodeLossy hn)
    rw [lines_of_not_mem h, lines_of_not_mem hd]
    by_cases ho : o = []
    · rw [if_pos ho, if_pos (decodeLossy_eq_nil_iff.2 ho)]
      rfl
    · rw [if_neg ho, if_neg (mt decodeLossy_eq_nil_iff.1 ho)]
      rfl
  | line body rest h ih =>
    have hd : '\n' ∉ decodeLossy body := fun hn => h (newline_mem_of_mem_decodeLossy hn)
    rw [decodeLossy_append_newline, lines_append_cons hd, lines_append_cons h, ih]
    rfl

end Utf8

/-! ## Reading lines -/

namespace Feed

/-- What a reader of lines gets: a line, with the newline that ends it if there is one, or a
failure. -/
inductive Item where
  | line (octets : Octets)
  | failure (errno : Errno)
  deriving DecidableEq, Repr

structure Reading where
  item : Item
  unread : Feed
  deriving DecidableEq, Repr

/-- All readings to the end of the feed, behind the octets of an unfinished line, newest first. -/
def readingsFrom (started : Octets) : Feed → List Reading
  | [] => if started.isEmpty then [] else [⟨.line started.reverse, []⟩]
  | .octet b :: rest =>
    if b = Octets.newline then ⟨.line (b :: started).reverse, rest⟩ :: readingsFrom [] rest
    else readingsFrom (b :: started) rest
  | .failure e :: rest => ⟨.failure e, rest⟩ :: readingsFrom [] rest

def readings (f : Feed) : List Reading := readingsFrom [] f

/-- The next line that is read is the first of the readings. -/
theorem readings_readLine (started : Octets) (f : Feed) :
    match f.readLine started with
    | (.error e, left) => readingsFrom started f = ⟨.failure e, left⟩ :: readings left
    | (.ok line, left) =>
      if line = [] then readingsFrom started f = [] ∧ left = []
      else readingsFrom started f = ⟨.line line, left⟩ :: readings left := by
  induction f generalizing started with
  | nil =>
    rw [readLine, readingsFrom]
    cases started <;> simp [readings, readingsFrom]
  | cons s f ih =>
    cases s with
    | failure e => rfl
    | octet b =>
      rw [readLine, readingsFrom]
      by_cases hb : b = Octets.newline
      · rw [if_pos hb, if_pos hb]
        exact (if_neg (by simp)).mpr rfl
      · rw [if_neg hb, if_neg hb]
        exact ih (b :: started)

/-! ### As lists -/

/-- The lines that are read before the first failure. -/
def linesBefore : List Reading → List Octets
  | [] | ⟨.failure _, _⟩ :: _ => []
  | ⟨.line line, _⟩ :: rest => line :: linesBefore rest

def failure? : List Reading → Option Errno
  | [] => none
  | ⟨.failure e, _⟩ :: _ => some e
  | ⟨.line _, _⟩ :: rest => failure? rest

/-- What is unread behind the first failure. -/
def unreadBehind : List Reading → Feed
  | [] => []
  | ⟨.failure _, unread⟩ :: _ => unread
  | ⟨.line _, _⟩ :: rest => unreadBehind rest

theorem readingsFrom_octets {body : Octets} (h : Octets.newline ∉ body) (started : Octets)
    (rest : Feed) :
    readingsFrom started (ofOctets body ++ rest) = readingsFrom (body.reverse ++ started) rest := by
  induction body generalizing started with
  | nil => rfl
  | cons b body ih =>
    have hb : b ≠ Octets.newline := fun e => h (e ▸ List.mem_cons_self)
    have hbody : Octets.newline ∉ body := fun hm => h (List.mem_cons_of_mem _ hm)
    have hstep : readingsFrom started (ofOctets (b :: body) ++ rest) =
        readingsFrom (b :: started) (ofOctets body ++ rest) := by
      simp [ofOctets, readingsFrom, hb]
    rw [hstep, ih hbody]
    simp

/-- A line that is ended is read with its end. -/
theorem readings_line {body : Octets} (h : Octets.newline ∉ body) (rest : Feed) :
    readings (ofOctets body ++ .octet Octets.newline :: rest) =
      ⟨.line (body ++ [Octets.newline]), rest⟩ :: readings rest := by
  rw [readings, readingsFrom_octets h]
  simp [readingsFrom, readings]

/-- A failure loses what has been read of a line. -/
theorem readings_failure {started : Octets} (h : Octets.newline ∉ started) (e : Errno)
    (rest : Feed) :
    readings (ofOctets started ++ .failure e :: rest) =
      ⟨.failure e, rest⟩ :: readings rest := by
  rw [readings, readingsFrom_octets h]
  rfl

/-- What nothing ends is read as a line too, unless it is empty. -/
theorem readings_last {o : Octets} (h : Octets.newline ∉ o) :
    readings (ofOctets o) = if o = [] then [] else [⟨.line o, []⟩] := by
  have hread := readingsFrom_octets h [] []
  rw [List.append_nil, List.append_nil] at hread
  rw [readings, hread]
  simp [readingsFrom]

theorem readings_ofOctets_line {body : Octets} (h : Octets.newline ∉ body) (rest : Octets) :
    readings (ofOctets (body ++ Octets.newline :: rest)) =
      ⟨.line (body ++ [Octets.newline]), ofOctets rest⟩ :: readings (ofOctets rest) := by
  have happend : ofOctets (body ++ Octets.newline :: rest) =
      ofOctets body ++ .octet Octets.newline :: ofOctets rest := List.map_append
  rw [happend, readings_line h]

def Item.line? : Item → Option Octets
  | .line octets => some octets
  | .failure _ => none

/-- Octets cut into the lines that are read of them, each with the newline that ends it if there is
one. -/
def linesRead (o : Octets) : List Octets := (readings (ofOctets o)).filterMap (·.item.line?)

theorem linesRead_of_not_mem {o : Octets} (h : Octets.newline ∉ o) :
    linesRead o = if o = [] then [] else [o] := by
  rw [linesRead, readings_last h]
  split <;> rfl

theorem linesRead_append {body : Octets} (h : Octets.newline ∉ body) (rest : Octets) :
    linesRead (body ++ Octets.newline :: rest) = (body ++ [Octets.newline]) :: linesRead rest := by
  rw [linesRead, readings_ofOctets_line h]
  rfl

/-- Nothing but lines is read of octets. -/
theorem items_readings (o : Octets) :
    (readings (ofOctets o)).map (·.item) = (linesRead o).map .line := by
  induction o using lineInduction Octets.newline with
  | last o h =>
    rw [readings_last h, linesRead_of_not_mem h]
    split <;> rfl
  | line body rest h ih =>
    rw [readings_ofOctets_line h, linesRead_append h, List.map_cons, List.map_cons, ih]

theorem readings_ofOctets (o : Octets) :
    linesBefore (readings (ofOctets o)) = linesRead o ∧
      failure? (readings (ofOctets o)) = none ∧ unreadBehind (readings (ofOctets o)) = [] := by
  induction o using lineInduction Octets.newline with
  | last o h =>
    rw [readings_last h, linesRead_of_not_mem h]
    split <;> exact ⟨rfl, rfl, rfl⟩
  | line body rest h ih =>
    rw [readings_ofOctets_line h, linesRead_append h, linesBefore, failure?, unreadBehind, ih.1]
    exact ⟨rfl, ih.2⟩

/-- What heeds no newline at the end of a line finds the same in the lines that are read and in those
of the text. -/
theorem map_linesRead {β : Type} {f g : List Char → β} (hlast : ∀ cs, '\n' ∉ cs → f cs = g cs)
    (hended : ∀ cs, '\n' ∉ cs → f (cs ++ ['\n']) = g cs) (o : Octets) :
    (linesRead o).map (fun line => f (Utf8.decodeLossy line)) =
      (lines '\n' (Utf8.decodeLossy o)).map g := by
  rw [Utf8.lines_decodeLossy, List.map_map]
  induction o using lineInduction Octets.newline with
  | last o h =>
    have hd : '\n' ∉ Utf8.decodeLossy o := fun hn => h (Utf8.newline_mem_of_mem_decodeLossy hn)
    rw [linesRead_of_not_mem h, lines_of_not_mem h]
    split
    · rfl
    · exact congrArg (· :: []) (hlast _ hd)
  | line body rest h ih =>
    have hd : '\n' ∉ Utf8.decodeLossy body := fun hn => h (Utf8.newline_mem_of_mem_decodeLossy hn)
    rw [linesRead_append h, lines_append_cons h, List.map_cons, List.map_cons, ih,
      Utf8.decodeLossy_append_newline]
    exact congrArg (· :: _) (hended _ hd)

end Feed
end BootSequence
