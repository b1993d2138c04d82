import BootSequence.Invocation
import BootSequence.Proofs.Text.Blank

/-!
Command lines that are written. However words are spaced and however their line ends, it is cut into
these words again. The words that have been kept of a line are shown with one space between them, and
what is shown is cut into the same words, unless the last of them ends as a line does
(`ofLine_inverts_display`).
-/

namespace BootSequence
namespace Invocation

/-! ## Words that are kept -/

/-- There is always room for the command. -/
theorem room_pos (maxArgs : Nat) : 0 < room maxArgs := by
  rw [room, wordMax]
  omega

theorem room_le (maxArgs : Nat) : room maxArgs ≤ maxArgs + 1 := Nat.min_le_left ..

theorem room_mono {fewer maxArgs : Nat} (h : fewer ≤ maxArgs) : room fewer ≤ room maxArgs := by
  rw [room, room]
  omega

theorem command?_ofLine (line : String) (maxArgs : Nat) :
    (ofLine line maxArgs).command? = (tokens line).head? := by
  rw [command?, ofLine, List.head?_take, if_neg (room_pos maxArgs).ne']

theorem isEmpty_ofLine (line : String) (maxArgs : Nat) :
    (ofLine line maxArgs).isEmpty = (tokens line).isEmpty := by
  rw [Bool.eq_iff_iff]
  simp [isEmpty, ofLine, List.take_eq_nil_iff, (room_pos maxArgs).ne']

/-! ## Lines that are written -/

/-- Spaces and tabs. -/
structure Gap where
  text : List Char
  blank : ∀ c ∈ text, Blank.isBlank c = true

structure Word where
  text : List Char
  ne_nil : text ≠ []
  plain : ∀ c ∈ text, Blank.isBlank c = false
  sameLine : '\n' ∉ text

inductive Ending where
  | nothing
  | newline
  | returnNewline
  deriving DecidableEq

def Ending.text : Ending → List Char
  | nothing => []
  | newline => ['\n']
  | returnNewline => ['\r', '\n']

/-- Words as they stand in a line, each with what separates it from the next. A carriage return at
the end of the last word would be taken for a part of the ending, if nothing is behind it. -/
structure Written where
  lead : Gap
  words : List (Word × Gap)
  ending : Ending
  apart : ∀ p ∈ words.dropLast, p.2.text ≠ []
  unreturned : ending ≠ .returnNewline → ∀ p ∈ words.getLast?, p.2.text = [] →
    p.1.text.getLast? ≠ some '\r'

namespace Written

def said (l : Written) : List String := l.words.map fun p => String.ofList p.1.text

def spaced (words : List (Word × Gap)) : List Char := words.flatMap fun p => p.1.text ++ p.2.text

def body (l : Written) : List Char := l.lead.text ++ spaced l.words

def text (l : Written) : String := String.ofList (l.body ++ l.ending.text)

end Written

/-! ## Endings -/

theorem stripEnd_of_unended {cs : List Char} (hn : cs.getLast? ≠ some '\n')
    (hr : cs.getLast? ≠ some '\r') : stripEnd cs = cs := by
  simp [stripEnd, hn, hr]

theorem stripEnd_append_ending {cs : List Char} {e : Ending} (hn : cs.getLast? ≠ some '\n')
    (hr : e ≠ .returnNewline → cs.getLast? ≠ some '\r') : stripEnd (cs ++ e.text) = cs := by
  cases e with
  | nothing =>
    rw [Ending.text, List.append_nil]
    exact stripEnd_of_unended hn (hr nofun)
  | newline =>
    have hreturn := hr nofun
    simp [stripEnd, Ending.text, hreturn]
  | returnNewline =>
    rw [Ending.text, List.append_cons cs '\r' ['\n']]
    simp [stripEnd]

theorem stripEnd_concat_isPrefix {cs : List Char} {c : Char} (hc : c = '\r' ∨ c = '\n') :
    stripEnd (cs ++ [c]) <+: cs := by
  rcases hc with rfl | rfl
  · simp [stripEnd]
  · simp only [stripEnd, List.getLast?_concat, List.dropLast_concat, if_true]
    split
    · exact List.dropLast_prefix cs
    · exact List.prefix_refl cs

/-! ## Cutting a line that is written -/

namespace Written

theorem newline_not_mem_body (l : Written) : '\n' ∉ l.body := by
  have hgap : ∀ gap : Gap, '\n' ∉ gap.text := fun gap h => absurd (gap.blank _ h) (by decide)
  intro hm
  rcases List.mem_append.1 hm with hm | hm
  · exact hgap l.lead hm
  · obtain ⟨p, -, hp⟩ := List.mem_flatMap.1 hm
    rcases List.mem_append.1 hp with hp | hp
    · exact p.1.sameLine hp
    · exact hgap p.2 hp

theorem getLast?_body_ne_return (l : Written) (h : l.ending ≠ .returnNewline) :
    l.body.getLast? ≠ some '\r' := by
  have hgap : ∀ gap : Gap, gap.text.getLast? ≠ some '\r' := fun gap hlast =>
    absurd (gap.blank _ (List.mem_of_getLast? hlast)) (by decide)
  have hlast := l.unreturned h
  rw [body, spaced]
  rcases List.eq_nil_or_concat' l.words with hnil | ⟨init, p, hwords⟩
  · rw [hnil, List.flatMap_nil, List.append_nil]
    exact hgap l.lead
  · have hp := hlast p (by simp [hwords])
    rw [hwords, List.flatMap_append, List.flatMap_singleton, ← List.append_assoc,
      ← List.append_assoc]
    by_cases hnil : p.2.text = []
    · rw [hnil, List.append_nil, List.getLast?_append_of_ne_nil _ p.1.ne_nil]
      exact hp hnil
    · rw [List.getLast?_append_of_ne_nil _ hnil]
      exact hgap p.2

theorem words_spaced {ps : List (Word × Gap)} (h : ∀ p ∈ ps.dropLast, p.2.text ≠ []) :
    BootSequence.words Blank.isBlank (spaced ps) = ps.map fun p => p.1.text := by
  induction ps with
  | nil => rfl
  | cons p ps ih =>
    -- A word ends at the gap behind it, or with the line.
    have hapart : ∀ c ∈ (p.2.text ++ spaced ps).head?, Blank.isBlank c = true := by
      intro c hc
      cases hgap : p.2.text with
      | cons b gap =>
        rw [hgap] at hc
        obtain rfl : b = c := by simpa using hc
        exact p.2.blank _ (hgap ▸ List.mem_cons_self)
      | nil =>
        have hnil : ps = [] := by
          by_contra hne
          exact h p (by rw [List.dropLast_cons_of_ne_nil hne]; exact List.mem_cons_self) hgap
        rw [hgap, hnil] at hc
        cases hc
    have hrest : ∀ q ∈ ps.dropLast, q.2.text ≠ [] := by
      intro q hq
      cases ps with
      | nil => cases hq
      | cons p' ps => exact h q (List.mem_cons_of_mem _ hq)
    show BootSequence.words _ (p.1.text ++ p.2.text ++ spaced ps) = _
    rw [List.append_assoc, words_append_word p.1.ne_nil p.1.plain hapart,
      words_append_of_separates p.2.blank, ih hrest]
    rfl

theorem tokens_text (l : Written) : tokens l.text = l.said := by
  have hn : l.body.getLast? ≠ some '\n' := fun h =>
    l.newline_not_mem_body (List.mem_of_getLast? h)
  rw [tokens, text, String.toList_ofList,
    stripEnd_append_ending hn l.getLast?_body_ne_return, body,
    words_append_of_separates l.lead.blank, words_spaced l.apart, List.map_map]
  rfl

end Written

/-! ## Cutting what is shown -/

theorem plain_of_mem_tokens {line word : String} (h : word ∈ tokens line) :
    word.toList ≠ [] ∧ ∀ c ∈ word.toList, Blank.isBlank c = false := by
  obtain ⟨cs, hcs, rfl⟩ := List.mem_map.1 h
  rw [String.toList_ofList]
  exact ⟨by simpa using (List.mem_filter.1 hcs).2, not_separates_of_mem_words hcs⟩

theorem getLast?_intercalate {gap : List Char} {parts : List (List Char)}
    (h : ∀ part ∈ parts, part ≠ []) :
    (gap.intercalate parts).getLast? = parts.getLast?.bind List.getLast? := by
  induction parts with
  | nil => rfl
  | cons part parts ih =>
    have hparts := ih fun part hpart => h part (List.mem_cons_of_mem _ hpart)
    cases parts with
    | nil => rw [List.intercalate_singleton]; rfl
    | cons next parts =>
      have hne : gap.intercalate (next :: parts) ≠ [] := by
        intro hnil
        have hnext := h next (by simp)
        cases parts with
        | nil => exact hnext (by rwa [List.intercalate_singleton] at hnil)
        | cons => rw [List.intercalate_cons_cons] at hnil; simp [hnext] at hnil
      rw [List.intercalate_cons_cons, List.getLast?_append_of_ne_nil _ hne, hparts,
        List.getLast?_cons_cons]

section Display

variable {argv : List String}
  (h : ∀ word ∈ argv, word.toList ≠ [] ∧ ∀ c ∈ word.toList, Blank.isBlank c = false)
include h

theorem words_display (dropped : Nat) :
    words Blank.isBlank (display ⟨argv, dropped⟩).toList = argv.map String.toList := by
  have hparts : ∀ part ∈ argv.map String.toList,
      part ≠ [] ∧ ∀ c ∈ part, Blank.isBlank c = false := by
    simpa using h
  rw [display, String.toList_intercalate]
  exact words_intercalate (by simp [Blank.isBlank]) (by decide) hparts

theorem getLast?_display (dropped : Nat) :
    (display ⟨argv, dropped⟩).toList.getLast? = argv.getLast?.bind (·.toList.getLast?) := by
  have hparts : ∀ part ∈ argv.map String.toList, part ≠ [] := by
    simpa using fun word hword => (h word hword).1
  rw [display, String.toList_intercalate, getLast?_intercalate hparts, List.getLast?_map]
  cases argv.getLast? <;> rfl

/-- What is shown is cut into the words that are shown, unless something of the last is taken for the
end of a line. -/
theorem tokens_display_iff (dropped : Nat) :
    tokens (display ⟨argv, dropped⟩) = argv ↔ ∀ word ∈ argv.getLast?,
      word.toList.getLast? ≠ some '\r' ∧ word.toList.getLast? ≠ some '\n' := by
  have hlast := getLast?_display h dropped
  have hwords := words_display h dropped
  constructor
  · intro htokens word hword
    by_contra hended
    obtain ⟨c, hc, hcs⟩ : ∃ c, (c = '\r' ∨ c = '\n') ∧
        (display ⟨argv, dropped⟩).toList.getLast? = some c := by
      rw [hlast, hword]
      by_cases hr : word.toList.getLast? = some '\r'
      · exact ⟨'\r', .inl rfl, hr⟩
      · exact ⟨'\n', .inr rfl, by_contra fun hn => hended ⟨hr, hn⟩⟩
    obtain ⟨init, hinit⟩ := List.getLast?_eq_some_iff.1 hcs
    -- The characters of the words are all that are no blanks, and the last of these is cut off.
    have hcut := congrArg (fun ws => (ws.map String.toList).flatten) htokens
    rw [← hwords, tokens, List.map_map] at hcut
    simp only [Function.comp_def, String.toList_ofList, List.map_id', flatten_words, hinit] at hcut
    have hstart : stripEnd (init ++ [c]) <+: init := stripEnd_concat_isPrefix hc
    have hle := (hstart.filter (!Blank.isBlank ·)).length_le
    have hkept : ([c].filter (!Blank.isBlank ·)).length = 1 := by
      rcases hc with rfl | rfl <;> rfl
    rw [hcut, List.filter_append, List.length_append, hkept] at hle
    omega
  · intro hopen
    have hends : ∀ c, (∀ word ∈ argv.getLast?, word.toList.getLast? ≠ some c) →
        (display ⟨argv, dropped⟩).toList.getLast? ≠ some c := by
      intro c hc he
      rw [hlast, Option.bind_eq_some_iff] at he
      obtain ⟨word, hword, he⟩ := he
      exact hc word hword he
    have hstrip := stripEnd_of_unended (hends _ fun word hword => (hopen word hword).2)
      (hends _ fun word hword => (hopen word hword).1)
    rw [tokens, hstrip, hwords, List.map_map]
    simp [Function.comp_def]

end Display

/-! ## Both ways -/

/-- A line that is written is cut into what is written, as far as there is room. What is kept of any
line and shown is cut into the same again, if no word at its end can be taken for the end of a line.
-/
theorem ofLine_inverts_display :
    (∀ (l : Written) (maxArgs : Nat),
      let kept := min l.said.length (min (maxArgs + 1) wordMax)
      ofLine l.text maxArgs = ⟨l.said.take kept, l.said.length - kept⟩) ∧
    ∀ (line : String) (maxArgs : Nat),
      let i := ofLine line maxArgs
      i.argv.length + i.dropped = (tokens line).length ∧
      (∀ fewer ≤ maxArgs, (ofLine line fewer).argv <+: i.argv) ∧
      (∀ word ∈ i.argv, word ≠ "" ∧ ' ' ∉ word.toList ∧ '\t' ∉ word.toList) ∧
      (ofLine i.display maxArgs = ⟨i.argv, 0⟩ ↔ ∀ word ∈ i.argv.getLast?,
        word.toList.getLast? ≠ some '\r' ∧ word.toList.getLast? ≠ some '\n') := by
  refine ⟨fun l maxArgs => ?_, fun line maxArgs => ?_⟩
  · intro kept
    have htake : l.said.take (room maxArgs) = l.said.take kept := by
      rw [List.take_eq_take_min, Nat.min_comm]
      rfl
    have hrest : l.said.length - room maxArgs = l.said.length - kept := by
      show _ - min (maxArgs + 1) wordMax = _ - min _ (min (maxArgs + 1) wordMax)
      omega
    rw [ofLine, l.tokens_text, htake, hrest]
  · intro i
    have hargv : i.argv = (tokens line).take (room maxArgs) := rfl
    have hplain : ∀ word ∈ i.argv,
        word.toList ≠ [] ∧ ∀ c ∈ word.toList, Blank.isBlank c = false :=
      fun word hword => plain_of_mem_tokens (List.mem_of_mem_take hword)
    have hlength : i.argv.length ≤ room maxArgs := by
      rw [hargv, List.length_take]
      omega
    refine ⟨?_, fun fewer hfewer => ?_, fun word hword => ?_, ?_⟩
    · show ((tokens line).take _).length + ((tokens line).length - _) = _
      rw [List.length_take]
      omega
    · exact List.take_prefix_take_left (room_mono hfewer)
    · obtain ⟨hne, hblank⟩ := hplain word hword
      refine ⟨?_, fun hm => absurd (hblank _ hm) (by decide),
        fun hm => absurd (hblank _ hm) (by decide)⟩
      rintro rfl
      exact hne rfl
    · rw [← tokens_display_iff hplain i.dropped]
      constructor
      · intro h
        have hdropped : (tokens i.display).length - room maxArgs = 0 := congrArg dropped h
        have hkept : (tokens i.display).take (room maxArgs) = i.argv := congrArg argv h
        rwa [List.take_of_length_le (by omega)] at hkept
      · intro h
        show Invocation.mk ((tokens i.display).take _) ((tokens i.display).length - _) = _
        rw [h, List.take_of_length_le hlength, Nat.sub_eq_zero_of_le hlength]

/-- Two words, the last of which ends in a carriage return in front of the one that ends the line. -/
def returned : Written where
  lead := ⟨['\t'], by simp [Blank.isBlank]⟩
  words := [
    (⟨['a'], by decide, by simp [Blank.isBlank], by decide⟩, ⟨[' ', '\t'], by simp [Blank.isBlank]⟩),
    (⟨['b', '\r'], by decide, by simp [Blank.isBlank], by decide⟩, ⟨[], by simp⟩)]
  ending := .returnNewline
  apart := by simp
  unreturned := fun h => absurd rfl h

/-- They are read; shown and read again, they are not the same. -/
theorem ofLine_inverts_display_returned :
    returned.text = "\ta \tb\r\r\n" ∧ 0 ≤ 5 ∧
      ofLine returned.text 5 = ⟨["a", "b\r"], 0⟩ ∧
      (ofLine returned.text 0).argv <+: ["a", "b\r"] ∧
      ofLine (display ⟨["a", "b\r"], 0⟩) 5 ≠ ⟨["a", "b\r"], 0⟩ := by
  have hread := ofLine_inverts_display.1 returned 5
  have hkept : ofLine returned.text 5 = ⟨["a", "b\r"], 0⟩ := hread.trans (by decide)
  obtain ⟨-, hstart, -, hshown⟩ := ofLine_inverts_display.2 returned.text 5
  rw [hkept] at hstart hshown
  refine ⟨by decide, by decide, hkept, hstart 0 (by decide), fun h => ?_⟩
  exact (hshown.1 h "b\r" rfl).1 (by decide)

end Invocation
end BootSequence
