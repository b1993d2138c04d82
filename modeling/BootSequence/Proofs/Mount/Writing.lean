import BootSequence.Proofs.Mount.Field
import BootSequence.Proofs.Mount.Live
import BootSequence.Proofs.Text.Encoding

/-!
Tables that are written. A row holds what can be told in a line: texts whose white space can be
escaped, and a flag word. However rows are laid out in their lines, and whatever blank lines and
comments stand between them, a table that is written of rows is read as these, and mounts them
(`mountAll_write`).
-/

namespace BootSequence
namespace Mount
namespace Table

/-! ## Rows -/

/-- A text that can be told in a field. -/
structure FieldText where
  text : List Char
  ne_nil : text ≠ []
  white : ∀ c ∈ text, Blank.isWhite c = true → c ∈ Escape.escaped

/-- What a line tells. -/
structure Row where
  source : FieldText
  target : FieldText
  fsType : FieldText
  flags : UInt32
  source_head : source.text.head? ≠ some Record.commentMark

/-- What is to be mounted by it. -/
def Row.entry (r : Row) : Entry where
  source := String.ofList r.source.text
  target := .ofString (String.ofList r.target.text)
  fsType := String.ofList r.fsType.text
  flags := ⟨r.flags⟩
  data := none

/-- White space within a line. -/
structure Gap where
  text : List Char
  white : ∀ c ∈ text, Blank.isWhite c = true
  sameLine : '\n' ∉ text

/-- White space that keeps two fields apart. -/
structure Separator extends Gap where
  ne_nil : text ≠ []

/-- What stands behind the flags of a row: nothing, or white space and any text. -/
structure Tail where
  text : List Char
  apart : ∀ c ∈ text.head?, Blank.isWhite c = true
  sameLine : '\n' ∉ text

/-- How a row is laid out in its line. -/
structure Layout where
  lead : Gap
  beforeTarget : Separator
  beforeType : Separator
  beforeFlags : Separator
  tail : Tail

/-- A line of a table that is written. -/
inductive Line where
  | row (r : Row) (layout : Layout)
  | blank (gap : Gap)
  | comment (lead : Gap) (text : List Char) (sameLine : '\n' ∉ text)

namespace Line

def entry? : Line → Option Entry
  | row r _ => some r.entry
  | blank _ | comment _ _ _ => none

/-- The fields of a row, and what is between them. -/
def text : Line → List Char
  | row r layout =>
    layout.lead.text ++ (Escape.encode r.source.text ++ (layout.beforeTarget.text ++
      (Escape.encode r.target.text ++ (layout.beforeType.text ++
        (Escape.encode r.fsType.text ++ (layout.beforeFlags.text ++
          (Nat.toDigits 10 r.flags.toNat ++ layout.tail.text)))))))
  | blank gap => gap.text
  | comment lead text _ => lead.text ++ Record.commentMark :: text

end Line

/-- The entries that lines tell. -/
def entries (lines : List Line) : List Entry := lines.filterMap Line.entry?

/-- A table of lines. -/
def write (lines : List Line) : List Char := ['\n'].intercalate (lines.map Line.text)

/-! ## Reading a row -/

namespace FieldText

variable (f : FieldText)

theorem isWhite_encode : ∀ c ∈ Escape.encode f.text, Blank.isWhite c = false :=
  Escape.isWhite_of_mem_encode f.white

theorem encode_ne_nil : Escape.encode f.text ≠ [] := by
  obtain ⟨c, rest, hcons, -⟩ := Escape.exists_encode_eq_cons f.ne_nil
  rw [hcons]
  exact List.cons_ne_nil c rest

theorem field_encode : Record.field (Escape.encode f.text) = String.ofList f.text := by
  rw [Record.field, Escape.decode_encode]

theorem fields_encode_append {rest : List Char}
    (hrest : ∀ c ∈ rest.head?, Blank.isWhite c = true) :
    Blank.fields (Escape.encode f.text ++ rest) = Escape.encode f.text :: Blank.fields rest :=
  words_append_word f.encode_ne_nil f.isWhite_encode hrest

end FieldText

theorem Separator.head?_white (gap : Separator) (rest : List Char) :
    ∀ c ∈ (gap.text ++ rest).head?, Blank.isWhite c = true := by
  obtain ⟨c, more, hcons⟩ := List.exists_cons_of_ne_nil gap.ne_nil
  intro d hd
  rw [hcons, List.cons_append, List.head?_cons, Option.mem_some_iff] at hd
  subst hd
  exact gap.white c (hcons ▸ List.mem_cons_self)

/-- The fields of a row are its own, and then those of its tail. -/
theorem fields_row (r : Row) (layout : Layout) :
    Blank.fields (Line.row r layout).text =
      Escape.encode r.source.text :: Escape.encode r.target.text ::
        Escape.encode r.fsType.text :: Nat.toDigits 10 r.flags.toNat ::
          Blank.fields layout.tail.text := by
  have hgap : ∀ (gap : Gap) (rest : List Char),
      Blank.fields (gap.text ++ rest) = Blank.fields rest := fun gap rest =>
    words_append_of_separates gap.white rest
  rw [Line.text, hgap, r.source.fields_encode_append (layout.beforeTarget.head?_white _), hgap,
    r.target.fields_encode_append (layout.beforeType.head?_white _), hgap,
    r.fsType.fields_encode_append (layout.beforeFlags.head?_white _), hgap]
  exact congrArg _ (congrArg _ (congrArg _
    (words_append_word Nat.toDigits_ne_nil Flags.isWhite_of_mem_toDigits layout.tail.apart)))

theorem parse_row (r : Row) (layout : Layout) :
    Record.parse (Line.row r layout).text = .entry r.entry := by
  -- The first character of the source is what makes the line no comment, escaped or not.
  obtain ⟨c, rest, hcons, hhead⟩ := Escape.exists_encode_eq_cons r.source.ne_nil
  have hwhite : Blank.isWhite c = false :=
    r.source.isWhite_encode c (hcons ▸ List.mem_cons_self)
  have hmark : c ≠ Record.commentMark := by
    rintro rfl
    rcases hhead with h | h
    · exact r.source_head h
    · exact absurd h (by decide)
  have htrim : ∃ more, Blank.trim (Line.row r layout).text = c :: more := by
    rw [Line.text, hcons]
    exact ⟨_, Blank.trim_append_cons layout.lead.white hwhite _⟩
  obtain ⟨more, hmore⟩ := htrim
  have hfields := Blank.fields_trim (Line.row r layout).text
  rw [fields_row, hmore] at hfields
  have hnot : ¬((c :: more).isEmpty || (c :: more).head? = some Record.commentMark) = true := by
    simpa using hmark
  rw [Record.parse, hmore]
  show (if _ then _ else _) = _
  rw [if_neg hnot, hfields]
  simp only [Row.entry, FieldText.field_encode, List.headD_cons, Flags.ofOptions_toDigits]

theorem parse_blank (gap : Gap) : Record.parse (Line.blank gap).text = .blank := by
  rw [Record.parse, Line.text, Blank.trim_gap gap.white]
  rfl

theorem parse_comment (lead : Gap) (text : List Char) (sameLine : '\n' ∉ text) :
    Record.parse (Line.comment lead text sameLine).text = .blank := by
  rw [Record.parse, Line.text, Blank.trim_append_cons lead.white (by decide)]
  rfl

/-- A line says what it has been written to say. -/
theorem lineItem_text (table : Path) (number : Nat) (l : Line) :
    lineItem table number l.text = l.entry?.map .ok := by
  cases l with
  | row r layout => rw [lineItem_eq, parse_row]; rfl
  | blank gap => rw [lineItem_eq, parse_blank]; rfl
  | comment lead text sameLine => rw [lineItem_eq, parse_comment]; rfl

/-! ## Reading a table -/

theorem newline_not_mem_text (l : Line) : '\n' ∉ l.text := by
  have hplain : ∀ cs : List Char, (∀ c ∈ cs, Blank.isWhite c = false) → '\n' ∉ cs :=
    fun cs hcs hm => absurd (hcs '\n' hm) (by decide)
  cases l with
  | row r layout =>
    simp only [Line.text, List.mem_append, not_or]
    exact ⟨layout.lead.sameLine, hplain _ r.source.isWhite_encode, layout.beforeTarget.sameLine,
      hplain _ r.target.isWhite_encode, layout.beforeType.sameLine,
      hplain _ r.fsType.isWhite_encode, layout.beforeFlags.sameLine,
      hplain _ Flags.isWhite_of_mem_toDigits, layout.tail.sameLine⟩
  | blank gap => exact gap.sameLine
  | comment lead text sameLine =>
    intro hm
    rcases List.mem_append.1 hm with hm | hm
    · exact lead.sameLine hm
    · rcases List.mem_cons.1 hm with h | hm
      · exact absurd h (by decide)
      · exact sameLine hm

theorem write_cons (l : Line) {ls : List Line} (hne : ls ≠ []) :
    write (l :: ls) = l.text ++ '\n' :: write ls := by
  have hmap : ls.map Line.text ≠ [] := mt List.map_eq_nil_iff.1 hne
  rw [write, List.map_cons, List.intercalate_cons_of_ne_nil hmap, List.append_assoc]
  rfl

/-- The items of a written table are the entries that it was written of. -/
theorem itemsFrom_write (table : Path) (number : Nat) (ls : List Line) :
    itemsFrom table number (Feed.readings (Feed.ofOctets (Utf8.encode (write ls)))) =
      (entries ls).map .ok := by
  induction ls generalizing number with
  | nil => rfl
  | cons l ls ih =>
    have hline := Utf8.newline_not_mem_encode (newline_not_mem_text l)
    have hentries : (l.entry?.map Except.ok).toList ++ (entries ls).map .ok =
        ((entries (l :: ls)).map .ok : List Item) := by
      rw [entries, entries, List.filterMap_cons]
      cases l.entry? <;> rfl
    rw [← hentries]
    -- Only a line with another one behind it is ended.
    by_cases hne : ls = []
    · subst hne
      have hwrite : write [l] = l.text := List.intercalate_singleton
      rw [hwrite, itemsFrom_last table hline, Utf8.decodeLossy_encode, lineItem_text]
      exact (List.append_nil _).symm
    · have hencode : Feed.ofOctets (Utf8.encode (write (l :: ls))) =
          Feed.ofOctets (Utf8.encode l.text) ++
            .octet Octets.newline :: Feed.ofOctets (Utf8.encode (write ls)) := by
        rw [write_cons l hne, Utf8.encode, List.flatMap_append, List.flatMap_cons, Feed.ofOctets,
          List.map_append]
        rfl
      rw [hencode, itemsFrom_ended table hline, Utf8.decodeLossy_encode, lineItem_text, ih]

/-- A table that has been written is read as the entries that it was written of, however it arrives.
Where their directories can be made sure of and the mounter accepts them, and nothing is written over
the table meanwhile, they are what is mounted. -/
theorem mountAll_write (table : Path) (ls : List Line) :
    (∀ ds, Feed.ofDeliveries ds = Feed.ofOctets (Utf8.encode (write ls)) →
      ((Cursor.ofDeliveries ds).drain table).1 = (entries ls).map .ok) ∧
    ∀ {σ : Type} (mounter : Mounter σ) (log : Option LogFile) (w w' : World σ) (file : OpenFile),
      OpenFile.ofPath w.files table = .ok file →
      Stays mounter log table w file.loc (Utf8.encode (write ls)) →
      Mounts mounter log w (entries ls) w' →
      let run := mountAll mounter table log w
      run.value = .ok (entries ls).length ∧
        run.trace.effects = (entries ls).flatMap (·.steps true) ∧
        run.trace.mounts = entries ls ∧ run.world = w' := by
  have hitems : items table (Feed.ofOctets (Utf8.encode (write ls))) = (entries ls).map .ok :=
    itemsFrom_write table 0 ls
  refine ⟨fun ds hds => ?_, fun mounter log w w' file hopens hstays hmounts => ?_⟩
  · have hfeed : (Cursor.ofDeliveries ds).reader.feed = Feed.ofOctets (Utf8.encode (write ls)) :=
      (Source.feed_ofDeliveries ds).trans hds
    rw [(drain_eq table (Cursor.ofDeliveries ds)).1, hfeed]
    exact hitems
  · have hrun : mountAll mounter table log w = mountEach mounter ((entries ls).map .ok) log w := by
      rw [mountAll_of_stays hopens hstays, hitems]
    have hcomplete := (mountEach_upToFirstBad ((entries ls).map .ok) w).complete _ _ rfl hmounts
    rw [hrun]
    refine ⟨hcomplete.1, hcomplete.2.1, ?_, hcomplete.2.2⟩
    rw [← Trace.mounts_effects, hcomplete.2.1, mounts_flatMap_steps]

/-- Spaces, a backslash, and what looks like an escape and is none. -/
def trickyRow : Row where
  source := ⟨"a b\x5C040".toList, by decide, by simp [Escape.escaped, Blank.isWhite]⟩
  target := ⟨"w".toList, by decide, by simp [Escape.escaped, Blank.isWhite]⟩
  fsType := ⟨"x\ty".toList, by decide, by simp [Escape.escaped, Blank.isWhite]⟩
  flags := 14
  source_head := by decide

def trickyLines : List Line := [
  .comment ⟨[], nofun, by decide⟩ " none".toList (by decide),
  .row trickyRow {
    lead := ⟨['\t'], by simp [Blank.isWhite], by decide⟩
    beforeTarget := ⟨⟨[' '], by simp [Blank.isWhite], by decide⟩, by decide⟩
    beforeType := ⟨⟨[' '], by simp [Blank.isWhite], by decide⟩, by decide⟩
    beforeFlags := ⟨⟨[' '], by simp [Blank.isWhite], by decide⟩, by decide⟩
    tail := ⟨" 0".toList, by simp [Blank.isWhite], by decide⟩ },
  .blank ⟨[], nofun, by decide⟩]

def trickyTable : Octets :=
  Octets.ofString "# none\n\ta\x5C040b\x5C134040 w x\x5C011y 14 0\n"

theorem encode_write_trickyLines : Utf8.encode (write trickyLines) = trickyTable := by cbv

/-- That table in a file, and a mounter that refuses nothing. -/
def trickyWorld : World Unit :=
  ⟨⟨⟨[([.ofString "fstab"], .file 0o644 trickyTable)]⟩, [], 0o022⟩, ()⟩

/-- It is read in two pieces, the first of which ends within an escape, and mounted. -/
theorem mountAll_write_tricky :
    let entry : Entry := ⟨"a b\x5C040", .ofString "w", "x\ty", ⟨14⟩, none⟩
    let pieces : List Delivery := [.data (trickyTable.take 11), .interruption,
      .data (trickyTable.drop 11)]
    let run := mountAll (Rehearsal.mounter []) (.ofString "/fstab") none trickyWorld
    ((Cursor.ofDeliveries pieces).drain (.ofString "/fstab")).1 = [.ok entry] ∧
      run.value = .ok 1 ∧ run.trace.mounts = [entry] := by
  intro entry pieces run
  have hwritten := mountAll_write (.ofString "/fstab") trickyLines
  have hentries : entries trickyLines = [entry] := by cbv
  rw [encode_write_trickyLines, hentries] at hwritten
  have hpieces : Feed.ofDeliveries pieces = Feed.ofOctets trickyTable := by cbv
  have hnode : trickyWorld.files.tree.node? [.ofString "fstab"] =
      some (.file 0o644 trickyTable) := by cbv
  have hlocated : trickyWorld.files.openToRead (.ofString "/fstab") = .ok [.ofString "fstab"] := by
    cbv
  obtain ⟨hopens, hstays⟩ := (leftAlone_rehearsal [] _).opened hlocated hnode
  have hdir : (ensureDir entry.target none trickyWorld).value = .ok .created := by cbv
  have hmounts : Mounts (Rehearsal.mounter []) none trickyWorld [entry]
      (mountEntry (Rehearsal.mounter []) entry none trickyWorld).world :=
    .cons hdir (by cbv) (.nil _)
  have hrun := hwritten.2 _ none trickyWorld _ _ hopens hstays hmounts
  exact ⟨hwritten.1 pieces hpieces, hrun.1, hrun.2.2.1⟩

end Table
end Mount
end BootSequence
