import BootSequence.Mount.Table
import BootSequence.Proofs.Source
import BootSequence.Proofs.Text.Blank

/-!
What a table says, place by place. Something begins at the start of its feed and behind every
newline and every failure, and goes on to the next of them: a line, whose number counts the newlines
before it, or a part of one that a failure loses. What a line says is told by its fields
(`Record.parse_told`). Reading item by item gives what begins at each place, in order, and nothing
else (`drain_readOut`).
-/

namespace BootSequence

namespace Signal

/-- Ends what is being read. -/
def ends : Signal → Bool
  | octet b => b = Octets.newline
  | failure _ => true

def octet? : Signal → Option UInt8
  | octet b => some b
  | failure _ => none

def failure? : Signal → Option Errno
  | octet _ => none
  | failure e => some e

end Signal

namespace Feed

/-- What is read up to the next end. -/
def body (f : Feed) : Octets := (f.takeWhile (!·.ends)).filterMap Signal.octet?

/-- Something begins behind this: it is nothing at all, or ends something. -/
def begins (before : Feed) : Bool := before.getLast?.all Signal.ends

/-- Induction over what lies between the ends of a feed, the last of which nothing may end. -/
theorem pieceInduction {motive : Feed → Prop}
    (last : ∀ o, Octets.newline ∉ o → motive (ofOctets o))
    (line : ∀ body rest, Octets.newline ∉ body → motive rest →
      motive (ofOctets body ++ .octet Octets.newline :: rest))
    (failure : ∀ body e rest, Octets.newline ∉ body → motive rest →
      motive (ofOctets body ++ .failure e :: rest))
    (f : Feed) : motive f := by
  -- The octets since the last end are carried along until the next one is met.
  have hfrom : ∀ body, Octets.newline ∉ body → motive (ofOctets body ++ f) := by
    induction f with
    | nil =>
      intro body h
      rw [List.append_nil]
      exact last body h
    | cons s f ih =>
      intro body h
      cases s with
      | failure e => exact failure body e f h (ih [] List.not_mem_nil)
      | octet b =>
        by_cases hb : b = Octets.newline
        · subst hb
          exact line body f h (ih [] List.not_mem_nil)
        · have hmore : ofOctets body ++ .octet b :: f = ofOctets (body ++ [b]) ++ f := by
            simp [ofOctets]
          rw [hmore]
          refine ih _ fun hm => ?_
          rcases List.mem_append.1 hm with hm | hm
          · exact h hm
          · exact hb (List.mem_singleton.1 hm).symm
  exact hfrom [] List.not_mem_nil

theorem ends_eq_false_of_mem {body : Octets} (h : Octets.newline ∉ body) :
    ∀ s ∈ ofOctets body, s.ends = false := by
  intro s hs
  obtain ⟨b, hb, rfl⟩ := List.mem_map.1 hs
  exact decide_eq_false fun he => h (he ▸ hb)

theorem find?_ends_append {body : Octets} (h : Octets.newline ∉ body) (f : Feed) :
    (ofOctets body ++ f).find? Signal.ends = f.find? Signal.ends := by
  rw [List.find?_append, List.find?_eq_none.2 fun s hs => by simp [ends_eq_false_of_mem h s hs]]
  rfl

theorem body_append {body : Octets} (h : Octets.newline ∉ body) (f : Feed) :
    (ofOctets body ++ f).body = body ++ f.body := by
  have hoctets : (ofOctets body).filterMap Signal.octet? = body := by
    rw [ofOctets, List.filterMap_map]
    exact List.filterMap_some
  have hinner : ∀ s ∈ ofOctets body, (!s.ends) = true := fun s hs => by
    rw [ends_eq_false_of_mem h s hs]
    rfl
  rw [Feed.body, List.takeWhile_append_of_pos hinner, List.filterMap_append, hoctets]
  rfl

theorem count_newline_append {body : Octets} (h : Octets.newline ∉ body) (before : Feed)
    (s : Signal) :
    (before ++ ofOctets body ++ [s]).count (.octet Octets.newline) =
      before.count (.octet Octets.newline) + [s].count (.octet Octets.newline) := by
  have hbody : (ofOctets body).count (.octet Octets.newline) = 0 :=
    List.count_eq_zero_of_not_mem fun hm => by
      have hends := ends_eq_false_of_mem h _ hm
      cases hends
  rw [List.count_append, List.count_append, hbody, Nat.add_zero]

theorem begins_concat (before : Feed) (s : Signal) : begins (before ++ [s]) = s.ends := by
  simp [begins]

end Feed

namespace Mount

namespace Record

/-- White space at the end of a line says nothing, and the newline there is white space. -/
theorem parse_trimEnd (line : List Char) : parse (Blank.trimEnd line) = parse line := by
  rw [parse, parse, Blank.trim_trimEnd]

/-- Nothing is left of a line once it is trimmed, or a `#` comes first. -/
def SaysNothing (line : List Char) : Prop :=
  let first := line.find? (!Blank.isWhite ·)
  first = none ∨ first = some commentMark

instance (line : List Char) : Decidable (SaysNothing line) := inferInstanceAs (Decidable (_ ∨ _))

/-- The mount that a line of three fields or more asks for. -/
def Asks (line : List Char) (e : Entry) : Prop :=
  ∃ source target fsType rest, Blank.fields line = source :: target :: fsType :: rest ∧
    e = ⟨field source, .ofString (field target), field fsType,
      .ofOptions (rest.headD noOptions), none⟩

theorem blank_iff_saysNothing (line : List Char) :
    ((Blank.trim line).isEmpty || (Blank.trim line).head? = some commentMark) = true ↔
      SaysNothing line := by
  have hempty : (Blank.trim line).isEmpty = true ↔ (Blank.trim line).head? = none := by
    rw [List.isEmpty_iff, List.head?_eq_none_iff]
  rw [SaysNothing, Bool.or_eq_true, hempty, decide_eq_true_iff, Blank.head?_trim]

theorem parse_of_saysNothing {line : List Char} (h : SaysNothing line) : parse line = .blank :=
  if_pos ((blank_iff_saysNothing line).2 h)

/-- To trim is to keep the fields, so that those of the line itself are read. -/
theorem parse_of_not_saysNothing {line : List Char} (h : ¬SaysNothing line) :
    parse line =
      match Blank.fields line with
      | source :: target :: fsType :: rest =>
        .entry ⟨field source, .ofString (field target), field fsType,
          .ofOptions (rest.headD noOptions), none⟩
      | _ => .malformed :=
  (if_neg fun hblank => h ((blank_iff_saysNothing line).1 hblank)).trans
    (Blank.fields_trim line ▸ rfl)

/-- The first character that is no white space and the number of fields decide what a line is. -/
theorem parse_told (line : List Char) :
    (parse line = .blank ↔ SaysNothing line) ∧
    (∀ e, parse line = .entry e ↔ ¬SaysNothing line ∧ Asks line e) ∧
    (parse line = .malformed ↔ ¬SaysNothing line ∧ (Blank.fields line).length < 3) := by
  by_cases h : SaysNothing line
  · simp [parse_of_saysNothing h, h]
  · rw [parse_of_not_saysNothing h]
    unfold Asks
    rcases Blank.fields line with _ | ⟨a, _ | ⟨b, _ | ⟨c, rest⟩⟩⟩
    · simp [h]
    · simp [h]
    · simp [h]
    · simp [h, eq_comm]

end Record

namespace Table

open Feed

/-- What a line says, by its fields. -/
def lineItem (table : Path) (number : Nat) (line : List Char) : Option Item :=
  if Record.SaysNothing line then none
  else
    match Blank.fields line with
    | source :: target :: fsType :: rest =>
      some (.ok ⟨Record.field source, .ofString (Record.field target), Record.field fsType,
        .ofOptions (rest.headD Record.noOptions), none⟩)
    | _ => some (.error (.malformed table number (String.ofList (Blank.trimEnd line))))

/-- What readings say one after another, behind `number` lines. A failed read is no line. -/
def itemsFrom (table : Path) (number : Nat) : List Feed.Reading → List Item
  | [] => []
  | ⟨.failure e, _⟩ :: rest =>
    .error (.cannotRead table (.numbered e)) :: itemsFrom table number rest
  | ⟨.line octets, _⟩ :: rest =>
    (lineItem table (number + 1) (Utf8.decodeLossy octets)).toList ++
      itemsFrom table (number + 1) rest

/-- All that a feed says as a table. -/
def items (table : Path) (feed : Feed) : List Item := itemsFrom table 0 feed.readings

/-- What begins behind `before`, if anything does: a line, unless a failure is met before its end.
The number of a line counts the newlines before it. -/
def itemAt (table : Path) (before rest : Feed) : Option Item :=
  if begins before then
    match rest.find? Signal.ends with
    | some (.failure e) => some (.error (.cannotRead table (.numbered e)))
    | _ =>
      let number := before.count (.octet Octets.newline) + 1
      lineItem table number (Utf8.decodeLossy rest.body)
  else none

/-- What begins at all places of a feed, from the first to the last. -/
def listed (table : Path) (f : Feed) : List Item :=
  (List.range (f.length + 1)).filterMap fun k => itemAt table (f.take k) (f.drop k)

/-! ## Places -/

/-- The same behind other signals. -/
def listedFrom (table : Path) (before f : Feed) : List Item :=
  (List.range (f.length + 1)).filterMap fun k => itemAt table (before ++ f.take k) (f.drop k)

section Places

variable (table : Path) (before : Feed)

theorem listedFrom_nil : listedFrom table before [] = (itemAt table before []).toList := by
  rw [listedFrom, show List.range (([] : Feed).length + 1) = [0] from rfl, List.filterMap_cons,
    List.take_nil, List.append_nil, List.drop_nil]
  cases itemAt table before [] <;> rfl

theorem listedFrom_cons (s : Signal) (f : Feed) :
    listedFrom table before (s :: f) =
      (itemAt table before (s :: f)).toList ++ listedFrom table (before ++ [s]) f := by
  have hplaces : List.range ((s :: f).length + 1) = 0 :: (List.range (f.length + 1)).map .succ :=
    List.range_succ_eq_map
  have hmore : (List.range (f.length + 1)).filterMap
      ((fun k => itemAt table (before ++ (s :: f).take k) ((s :: f).drop k)) ∘ Nat.succ) =
        listedFrom table (before ++ [s]) f := by
    refine List.filterMap_congr fun k _ => ?_
    rw [Function.comp_apply, List.take_succ_cons, List.drop_succ_cons, List.append_assoc,
      List.singleton_append]
  rw [listedFrom, hplaces, List.filterMap_cons, List.filterMap_map, hmore, List.take_zero,
    List.append_nil, List.drop_zero]
  cases itemAt table before (s :: f) <;> rfl

/-- Nothing begins in the midst of a line. -/
theorem itemAt_of_octet {b : UInt8} (h : b ≠ Octets.newline) (rest : Feed) :
    itemAt table (before ++ [.octet b]) rest = none := by
  rw [itemAt, begins_concat, if_neg]
  simpa [Signal.ends] using h

/-- One place after another: where octets begin that end no line, and behind the signal that follows
them. -/
theorem listedFrom_append {body : Octets} (h : Octets.newline ∉ body) (s : Signal) (f : Feed) :
    listedFrom table before (ofOctets body ++ s :: f) =
      (itemAt table before (ofOctets body ++ s :: f)).toList ++
        listedFrom table (before ++ ofOctets body ++ [s]) f := by
  induction body generalizing before with
  | nil =>
    rw [show ofOctets [] = [] from rfl, List.append_nil]
    exact listedFrom_cons table before s f
  | cons b body ih =>
    -- The hypothesis speaks of the place behind `b`, where nothing begins.
    obtain ⟨hb, hbody⟩ := List.ne_and_not_mem_of_not_mem_cons h
    have hcons : ofOctets (b :: body) = .octet b :: ofOctets body := rfl
    rw [hcons, List.cons_append, listedFrom_cons, ih _ hbody, itemAt_of_octet table before hb.symm,
      List.append_assoc before [.octet b]]
    rfl

theorem listedFrom_last {o : Octets} (h : Octets.newline ∉ o) :
    listedFrom table before (ofOctets o) = (itemAt table before (ofOctets o)).toList := by
  induction o generalizing before with
  | nil => exact listedFrom_nil table before
  | cons b o ih =>
    obtain ⟨hb, ho⟩ := List.ne_and_not_mem_of_not_mem_cons h
    have hcons : ofOctets (b :: o) = .octet b :: ofOctets o := rfl
    rw [hcons, listedFrom_cons, ih _ ho, itemAt_of_octet table before hb.symm]
    exact List.append_nil _

variable {before} (hbegins : begins before = true)
include hbegins

theorem itemAt_line {body : Octets} (h : Octets.newline ∉ body) (f : Feed) :
    itemAt table before (ofOctets body ++ .octet Octets.newline :: f) =
      lineItem table (before.count (.octet Octets.newline) + 1) (Utf8.decodeLossy body) := by
  rw [itemAt, if_pos hbegins, find?_ends_append h, body_append h]
  show lineItem _ _ (Utf8.decodeLossy (body ++ [])) = _
  rw [List.append_nil]

theorem itemAt_failure {body : Octets} (h : Octets.newline ∉ body) (e : Errno) (f : Feed) :
    itemAt table before (ofOctets body ++ .failure e :: f) =
      some (.error (.cannotRead table (.numbered e))) := by
  rw [itemAt, if_pos hbegins, find?_ends_append h]
  rfl

theorem itemAt_last {o : Octets} (h : Octets.newline ∉ o) :
    itemAt table before (ofOctets o) =
      lineItem table (before.count (.octet Octets.newline) + 1) (Utf8.decodeLossy o) := by
  rw [← List.append_nil (ofOctets o), itemAt, if_pos hbegins, find?_ends_append h, body_append h]
  show lineItem _ _ (Utf8.decodeLossy (o ++ [])) = _
  rw [List.append_nil]

end Places

/-! ## Items -/

section Items

variable (table : Path)

theorem lineItem_eq (number : Nat) (line : List Char) :
    lineItem table number line =
      match Record.parse line with
      | .blank => none
      | .entry e => some (.ok e)
      | .malformed =>
        some (.error (.malformed table number (String.ofList (Blank.trimEnd line)))) := by
  rw [lineItem]
  split
  · next h => rw [Record.parse_of_saysNothing h]
  · next h =>
    rw [Record.parse_of_not_saysNothing h]
    split <;> rfl

theorem lineItem_append_gap {gap : List Char} (h : ∀ c ∈ gap, Blank.isWhite c = true)
    (number : Nat) (line : List Char) :
    lineItem table number (line ++ gap) = lineItem table number line := by
  rw [lineItem_eq, lineItem_eq, Record.parse, Record.parse, Blank.trim_append h,
    Blank.trimEnd_append h]

theorem itemsFrom_ended {body : Octets} (h : Octets.newline ∉ body) (number : Nat) (rest : Feed) :
    itemsFrom table number (readings (ofOctets body ++ .octet Octets.newline :: rest)) =
      (lineItem table (number + 1) (Utf8.decodeLossy body)).toList ++
        itemsFrom table (number + 1) rest.readings := by
  have hgap := lineItem_append_gap table Blank.isWhite_newline (number + 1) (Utf8.decodeLossy body)
  rw [readings_line h, itemsFrom, Utf8.decodeLossy_append_newline, ← hgap]
  rfl

theorem itemsFrom_last {o : Octets} (h : Octets.newline ∉ o) (number : Nat) :
    itemsFrom table number (readings (ofOctets o)) =
      (lineItem table (number + 1) (Utf8.decodeLossy o)).toList := by
  rw [readings_last h]
  by_cases ho : o = []
  · subst ho
    rw [lineItem_eq]
    rfl
  · rw [if_neg ho]
    exact List.append_nil _

/-- Behind signals that have been read, the items of a feed are what begins at its places. -/
theorem itemsFrom_eq_listedFrom (before f : Feed) (hbegins : begins before = true) :
    itemsFrom table (before.count (.octet Octets.newline)) f.readings =
      listedFrom table before f := by
  -- The reader's counter is always the number of newlines that it has behind it.
  induction f using pieceInduction generalizing before with
  | last o h =>
    rw [itemsFrom_last table h, listedFrom_last table before h, itemAt_last table hbegins h]
  | line body rest h ih =>
    have hrest := ih (before ++ ofOctets body ++ [.octet Octets.newline]) (begins_concat _ _)
    rw [count_newline_append h, List.count_singleton_self] at hrest
    rw [itemsFrom_ended table h, listedFrom_append table before h, itemAt_line table hbegins h,
      hrest]
  | failure body e rest h ih =>
    have hrest := ih (before ++ ofOctets body ++ [.failure e]) (begins_concat _ _)
    have hnone : [Signal.failure e].count (.octet Octets.newline) = 0 :=
      List.count_eq_zero_of_not_mem (by simp)
    rw [count_newline_append h, hnone, Nat.add_zero] at hrest
    rw [readings_failure h, itemsFrom, listedFrom_append table before h,
      itemAt_failure table hbegins h, hrest]
    rfl

/-- Some lines say nothing; what the others say is told in order by the items. -/
theorem items_eq_listed (f : Feed) : items table f = listed table f :=
  itemsFrom_eq_listedFrom table [] f rfl

/-- The failure that an item tells of, if it tells of one. -/
def failure? : Item → Option Errno
  | .error (.cannotRead _ (.numbered e)) => some e
  | _ => none

theorem failures_lineItem (number : Nat) (line : List Char) :
    (lineItem table number line).toList.filterMap failure? = [] := by
  rw [lineItem_eq]
  cases Record.parse line <;> rfl

/-- Each failed read is an item, and nothing else is such an item. -/
theorem failures_itemsFrom (f : Feed) (number : Nat) :
    (itemsFrom table number f.readings).filterMap failure? = f.filterMap Signal.failure? := by
  have hoctets : ∀ o : Octets, (ofOctets o).filterMap Signal.failure? = [] := by
    intro o
    rw [ofOctets, List.filterMap_map]
    exact List.filterMap_eq_nil_iff.2 fun _ _ => rfl
  induction f using pieceInduction generalizing number with
  | last o h =>
    rw [itemsFrom_last table h, failures_lineItem, hoctets]
  | line body rest h ih =>
    rw [itemsFrom_ended table h, List.filterMap_append, failures_lineItem, ih,
      List.filterMap_append, hoctets]
    rfl
  | failure body e rest h ih =>
    rw [readings_failure h, itemsFrom, List.filterMap_append, hoctets]
    exact congrArg (e :: ·) (ih number)

variable {table}

theorem parse_of_lineItem {path : Path} {number n : Nat} {line : List Char} {text : String}
    (h : lineItem table number line = some (.error (.malformed path n text))) :
    Record.parse text.toList = .malformed := by
  rw [lineItem_eq] at h
  cases hparse : Record.parse line with
  | blank =>
    rw [hparse] at h
    cases h
  | entry e =>
    rw [hparse] at h
    cases h
  | malformed =>
    rw [hparse] at h
    cases h
    rw [String.toList_ofList, Record.parse_trimEnd, hparse]

/-- A malformed line is malformed as it is reported. -/
theorem parse_of_mem_itemsFrom {path : Path} {number n : Nat} {text : String}
    {readings : List Feed.Reading}
    (h : .error (.malformed path n text) ∈ itemsFrom table number readings) :
    Record.parse text.toList = .malformed := by
  induction readings generalizing number with
  | nil => cases h
  | cons reading rest ih =>
    obtain ⟨item, unread⟩ := reading
    cases item with
    | failure e =>
      rcases List.mem_cons.1 h with h | h
      · cases h
      · exact ih h
    | line octets =>
      rcases List.mem_append.1 h with h | h
      · exact parse_of_lineItem (Option.mem_toList.1 h)
      · exact ih h

end Items

/-! ## Reading item by item -/

section Cursors

variable (table : Path)

namespace Cursor

variable {ρ : Type} [Reader ρ] (f : Files) (c : Cursor ρ)

theorem line_eq (number : Nat) (octets : Octets) :
    line table number octets =
      match lineItem table (number + 1) (Utf8.decodeLossy octets) with
      | none => .ok (number + 1)
      | some item => .error (item, number + 1) := by
  rw [line, lineItem_eq]
  cases Record.parse (Utf8.decodeLossy octets) <;> rfl

theorem next_eq :
    c.next table f =
      match Reader.readLine c.reader f with
      | (.error e, left) =>
        if e = .interrupted then next table f ⟨left, c.number⟩
        else (some (.error (.cannotRead table (.numbered e))), ⟨left, c.number⟩)
      | (.ok octets, left) =>
        if octets = [] then (none, ⟨left, c.number⟩)
        else
          match lineItem table (c.number + 1) (Utf8.decodeLossy octets) with
          | none => next table f ⟨left, c.number + 1⟩
          | some item => (some item, ⟨left, c.number + 1⟩) := by
  rw [next, Reader.foldLines_eq]
  simp only [bind, pure, Id]
  rcases Reader.readLine c.reader f with ⟨read, left⟩
  cases read with
  | error e =>
    dsimp only
    by_cases he : e = .interrupted
    · rw [if_pos he, if_pos he]
      rfl
    · rw [if_neg he, if_neg he]
      rfl
  | ok octets =>
    dsimp only
    by_cases hne : octets = []
    · rw [if_pos hne, if_pos hne]
    · rw [if_neg hne, if_neg hne, line_eq]
      cases lineItem table (c.number + 1) (Utf8.decodeLossy octets) <;> rfl

/-- An item is a failed read, or it is what a line says. -/
theorem item_of_next {f : Files} {c left : Cursor ρ} {item : Item}
    (h : c.next table f = (some item, left)) :
    (∃ e, item = .error (.cannotRead table (.numbered e))) ∨
      ∃ number line, lineItem table number line = some item := by
  obtain ⟨reader, number⟩ := c
  induction reader, number using Reader.foldLines.induct with
  | case1 reader number ihInterrupted ihLine =>
    rw [next_eq] at h
    rcases hread : Reader.readLine reader f with ⟨read, rest⟩
    rw [hread] at h
    cases read with
    | error e =>
      dsimp only at h
      by_cases he : e = .interrupted
      · rw [if_pos he] at h
        exact ihInterrupted f e rest hread he h
      · rw [if_neg he] at h
        cases h
        exact .inl ⟨e, rfl⟩
    | ok octets =>
      dsimp only at h
      by_cases hne : octets = []
      · rw [if_pos hne] at h
        cases h
      · rw [if_neg hne] at h
        cases hitem : lineItem table (number + 1) (Utf8.decodeLossy octets) with
        | none =>
          rw [hitem] at h
          exact ihLine f octets rest hread hne (number + 1) h
        | some said =>
          rw [hitem] at h
          cases h
          exact .inr ⟨_, _, hitem⟩

/-- Of a reader that is read like a feed, the next item is the first that is left, and there is none
at the end alone. -/
theorem next_of_readsAs {f : Files} {R : ρ → Feed → Prop} (hR : ReadsAs f R) (c : Cursor ρ)
    {feed : Feed} (hfeed : R c.reader feed) :
    match c.next table f with
    | (none, last) =>
      (∃ reader, Reader.readLine reader f = (.ok [], last.reader)) ∧
        itemsFrom table c.number feed.readings = []
    | (some item, left) => ∃ unread, R left.reader unread ∧
        itemsFrom table c.number feed.readings =
          item :: itemsFrom table left.number unread.readings := by
  obtain ⟨reader, number⟩ := c
  induction reader, number using Reader.foldLines.induct generalizing feed with
  | case1 reader number _ ih =>
    rw [next_eq]
    rcases hread : Reader.readLine reader f with ⟨read, left⟩
    cases read with
    | error e =>
      obtain ⟨he, unread, hreadings, hleft⟩ := hR.failed hfeed hread
      dsimp only
      rw [if_neg he, hreadings]
      exact ⟨unread, hleft, rfl⟩
    | ok octets =>
      by_cases hne : octets = []
      · subst hne
        rw [(hR.ended hfeed hread).1]
        exact ⟨⟨reader, hread⟩, rfl⟩
      · obtain ⟨unread, hreadings, hleft⟩ := hR.line hfeed hread hne
        have hmore := ih f octets left hread hne (number + 1) hleft
        dsimp only
        rw [if_neg hne, hreadings, itemsFrom]
        cases hitem : lineItem table (number + 1) (Utf8.decodeLossy octets) with
        | none => exact hmore
        | some item => exact ⟨unread, hleft, rfl⟩

end Cursor

theorem drain_eq (c : Cursor Source) :
    (c.drain table).1 = itemsFrom table c.number c.reader.feed.readings ∧
      (c.drain table).2.reader = .ended := by
  fun_induction Cursor.drain table c with
  | case1 c last h =>
    have hnext := Cursor.next_of_readsAs table (Source.readsAs ⟨.empty, [], 0⟩) c rfl
    rw [h] at hnext
    obtain ⟨⟨reader, hread⟩, hitems⟩ := hnext
    exact ⟨hitems.symm, (Source.readings_of_end hread).1⟩
  | case2 c item left h items last hdrain ih =>
    have hnext := Cursor.next_of_readsAs table (Source.readsAs ⟨.empty, [], 0⟩) c rfl
    rw [h] at hnext
    obtain ⟨unread, rfl, hitems⟩ := hnext
    rw [hdrain] at ih
    exact ⟨(congrArg (item :: ·) ih.1).trans hitems.symm, ih.2⟩

/-- At the end there is never another item. -/
theorem next_of_ended {c : Cursor Source} (h : c.reader = .ended) (f : Files) :
    c.next table f = (none, c) := by
  have hread : Reader.readLine c.reader f = (.ok [], c.reader) := by
    rw [h]
    exact Source.readLine_eq .ended []
  rw [Cursor.next_eq, hread]
  rfl

/-- What reading a table to its end gives: its items, and the cursor at the end. -/
structure ReadOut (ds : List Delivery) (out : List Item × Cursor Source) : Prop where
  /-- The items are what begins at the places of the stream, one after another. -/
  items_eq : out.1 = listed table (Feed.ofDeliveries ds)
  /-- Each failed read is one of them. -/
  failures_eq : out.1.filterMap failure? = (Feed.ofDeliveries ds).filterMap Signal.failure?
  /-- A malformed line is malformed as it is reported. -/
  malformed : ∀ path number text, .error (.malformed path number text) ∈ out.1 →
    Record.parse text.toList = .malformed ∧ ¬Record.SaysNothing text.toList ∧
      (Blank.fields text.toList).length < 3
  /-- The whole source has been read, and there is no more to come. -/
  source_eq : out.2.reader = .ended
  next_eq : ∀ f, out.2.next table f = (none, out.2)
  /-- They are the items that are mounted. -/
  eq_items : out.1 = items table (Feed.ofDeliveries ds)

/-- A table is read out, item by item, however it arrives and wherever its reading fails. -/
theorem drain_readOut (ds : List Delivery) :
    ReadOut table ds ((Cursor.ofDeliveries ds).drain table) := by
  obtain ⟨hitems, hended⟩ := drain_eq table (Cursor.ofDeliveries ds)
  have hfeed : (Cursor.ofDeliveries ds).reader.feed = Feed.ofDeliveries ds :=
    Source.feed_ofDeliveries ds
  rw [hfeed] at hitems
  refine
    { items_eq := hitems.trans (items_eq_listed table _)
      failures_eq := ?_
      malformed := fun path number text hmem => ?_
      source_eq := hended
      next_eq := next_of_ended table hended
      eq_items := hitems }
  · rw [hitems]
    exact failures_itemsFrom table _ 0
  · rw [hitems] at hmem
    have hparse := parse_of_mem_itemsFrom hmem
    exact ⟨hparse, (Record.parse_told _).2.2.1 hparse⟩

end Cursors

end Table
end Mount
end BootSequence
