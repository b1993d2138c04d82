import BootSequence.Proofs.Invocation
import BootSequence.Proofs.Script.Lines
import BootSequence.Rehearsal

/-!
What a script asks for, read off its whole text: cut into lines and words, each line with a command
that resolves asks for one call. A run of the script makes these calls and no others, in this order,
whatever becomes of them (`calls_runFeed_eq_requests`).
-/

namespace BootSequence
namespace Script

/-! ## The requests of a text -/

/-- A line without the carriage return at its end, if it has one. -/
def dropReturn (line : List Char) : List Char :=
  if line.getLast? = some '\r' then line.dropLast else line

/-- The maximal runs of characters other than space and tab. -/
def lineWords (line : List Char) : List String :=
  (((dropReturn line).splitOnP fun c => c = ' ' || c = '\t').filter (!·.isEmpty)).map String.ofList

/-- The call that a line asks for, if it has a word and that resolves. -/
def request? (searchDir : Path) (maxArgs : Nat) (line : List Char) : Option Call :=
  match lineWords line with
  | [] => none
  | name :: args =>
    match Command.resolve name searchDir with
    | .error _ => none
    | .ok command => some ⟨command, args.take maxArgs⟩

/-- The same for a line that has been cut into words. -/
def requestOf? (searchDir : Path) (maxArgs : Nat) : List String → Option Call
  | [] => none
  | name :: args =>
    match Command.resolve name searchDir with
    | .error _ => none
    | .ok command => some ⟨command, args.take maxArgs⟩

/-- The calls that a script asks for, in the order of its lines. The content is decoded as a whole.
-/
def requests (searchDir : Path) (maxArgs : Nat) (content : Octets) : List Call :=
  (lines '\n' (Utf8.decodeLossy content)).filterMap (request? searchDir maxArgs)

/-! ## The words of a line -/

theorem tokens_ofList_of_not_mem {cs : List Char} (h : '\n' ∉ cs) :
    Invocation.tokens (String.ofList cs) = lineWords cs := by
  have hlast : cs.getLast? ≠ some '\n' := fun e => h (List.mem_of_getLast? e)
  have hstrip : Invocation.stripEnd cs = dropReturn cs := by
    simp [Invocation.stripEnd, hlast, dropReturn]
  rw [Invocation.tokens, String.toList_ofList, hstrip, words, pieces_eq_splitOnP]
  rfl

theorem tokens_ofList_newline (cs : List Char) :
    Invocation.tokens (String.ofList (cs ++ ['\n'])) = lineWords cs := by
  have hstrip : Invocation.stripEnd (cs ++ ['\n']) = dropReturn cs := by
    simp [Invocation.stripEnd, dropReturn]
  rw [Invocation.tokens, String.toList_ofList, hstrip, words, pieces_eq_splitOnP]
  rfl

/-- The lines that are read have the words of the lines of the text. -/
theorem words_linesRead (content : Octets) :
    (Feed.linesRead content).map (fun line => Invocation.tokens line.lossy) =
      (lines '\n' (Utf8.decodeLossy content)).map lineWords :=
  Feed.map_linesRead (f := fun cs => Invocation.tokens (String.ofList cs))
    (fun _ => tokens_ofList_of_not_mem) (fun cs _ => tokens_ofList_newline cs) content

theorem length_lineWords_le (cs : List Char) : (lineWords cs).length ≤ cs.length := by
  have hdrop : (dropReturn cs).length ≤ cs.length := by
    unfold dropReturn
    split
    · rw [List.length_dropLast]
      omega
    · exact Nat.le_refl _
  have hwords := length_words_le Blank.isBlank (dropReturn cs)
  rw [words, pieces_eq_splitOnP] at hwords
  rw [lineWords, List.length_map]
  exact Nat.le_trans hwords hdrop

/-- Where the words are no more than a machine word counts, the bound on arguments is the only one.
-/
theorem take_room {words : List String} (h : words.length ≤ wordMax) (maxArgs : Nat) :
    words.take (Invocation.room maxArgs) = words.take (maxArgs + 1) := by
  rw [Invocation.room]
  rcases Nat.le_total (maxArgs + 1) wordMax with hroom | hroom
  · rw [Nat.min_eq_left hroom]
  · rw [Nat.min_eq_right hroom, List.take_of_length_le h,
      List.take_of_length_le (Nat.le_trans h hroom)]

theorem tail_take_room {words : List String} (h : words.length ≤ wordMax) (maxArgs : Nat) :
    (words.take (Invocation.room maxArgs)).tail = words.tail.take maxArgs := by
  rw [take_room h]
  cases words with
  | nil => rw [List.take_nil, List.tail_nil, List.take_nil]
  | cons name args => rfl

theorem length_tail_take_room_le (words : List String) (maxArgs : Nat) :
    (words.take (Invocation.room maxArgs)).tail.length ≤ maxArgs := by
  have hroom := Invocation.room_le maxArgs
  rw [List.length_tail, List.length_take]
  omega

end Script

/-! ## Runs -/

namespace Invocation

/-- The call that an invocation leads to. -/
def call? (searchDir : Path) (invocation : Invocation) : Option Call :=
  match invocation.command? with
  | none => none
  | some name =>
    match Command.resolve name searchDir with
    | .error _ => none
    | .ok command => some ⟨command, invocation.args⟩

/-- Whatever the limit on words does, the call is the one that the words ask for. -/
theorem call?_eq_requestOf? {line : String} (h : (tokens line).length ≤ wordMax) (searchDir : Path)
    (maxArgs : Nat) :
    (ofLine line maxArgs).call? searchDir =
      Script.requestOf? searchDir maxArgs (tokens line) := by
  have htail := Script.tail_take_room h maxArgs
  simp only [call?, ofLine, command?, args, htail]
  cases tokens line with
  | nil => simp [Script.requestOf?]
  | cons name args => rw [List.head?_take, if_neg (room_pos maxArgs).ne']; rfl

theorem call?_ofLine {line : String} {cs : List Char} (htokens : tokens line = Script.lineWords cs)
    (hlen : cs.length ≤ wordMax) (searchDir : Path) (maxArgs : Nat) :
    (ofLine line maxArgs).call? searchDir = Script.request? searchDir maxArgs cs := by
  have hwords : (tokens line).length ≤ wordMax := by
    rw [htokens]
    exact Nat.le_trans (Script.length_lineWords_le cs) hlen
  rw [call?_eq_requestOf? hwords, htokens]
  rfl

end Invocation

namespace Interpreter

open Script

variable {σ : Type} (i : Interpreter σ) (path : Path) (log : Option LogFile)

theorem calls_execute (invocation : Invocation) (w : World σ) :
    (i.execute invocation log w).trace.calls = (invocation.call? i.searchDir).toList := by
  cases h : invocation.command? with
  | none =>
    rw [execute_of_none i h, Invocation.call?, h]
    rfl
  | some name =>
    cases hc : Command.resolve name i.searchDir with
    | error e =>
      rw [execute_of_error i h hc]
      simp only [Invocation.call?, h, hc]
      rfl
    | ok command =>
      rw [execute_of_ok i h hc, Action.trace_bind, Action.trace_bind, trace_conclude]
      simp [Invocation.call?, h, hc]

theorem calls_runLine (number : Nat) (line : Octets) (w : World σ) :
    (i.runLine path number line log w).trace.calls =
      ((Invocation.ofLine line.lossy i.maxArgs).call? i.searchDir).toList := by
  unfold runLine
  split
  · rw [Action.trace_bind, Action.trace_bind, Action.log_apply, Trace.calls_append,
      Trace.calls_append, calls_execute]
    simp
  · rw [Action.trace_bind, Trace.calls_append, calls_execute]
    simp

theorem calls_runEach (number : Nat) (lines : List Octets) (w : World σ) :
    (i.runEach path number lines log w).trace.calls =
      lines.filterMap fun line => (Invocation.ofLine line.lossy i.maxArgs).call? i.searchDir := by
  induction lines generalizing number w with
  | nil => rfl
  | cons line lines ih =>
    rw [runEach_cons]
    dsimp only
    rw [Trace.calls_append, calls_runLine, ih, List.filterMap_cons]
    cases (Invocation.ofLine line.lossy i.maxArgs).call? i.searchDir <;> rfl

/-- Line by line, the calls are those that the text of the line asks for. -/
theorem filterMap_call?_linesRead {content : Octets} (hlen : content.length ≤ wordMax) :
    (Feed.linesRead content).filterMap
        (fun line => (Invocation.ofLine line.lossy i.maxArgs).call? i.searchDir) =
      (lines Octets.newline content).filterMap fun line =>
        request? i.searchDir i.maxArgs (Utf8.decodeLossy line) := by
  induction content using lineInduction Octets.newline with
  | last o h =>
    rw [Feed.linesRead_of_not_mem h, lines_of_not_mem h]
    by_cases ho : o = []
    · rw [if_pos ho]
      rfl
    · have hd : '\n' ∉ Utf8.decodeLossy o := fun hn => h (Utf8.newline_mem_of_mem_decodeLossy hn)
      have hcs : (Utf8.decodeLossy o).length ≤ wordMax :=
        Nat.le_trans (Utf8.length_decodeLossy_le o) hlen
      have hcall := Invocation.call?_ofLine (tokens_ofList_of_not_mem hd) hcs i.searchDir i.maxArgs
      rw [if_neg ho]
      exact List.filterMap_congr fun line hline => List.mem_singleton.1 hline ▸ hcall
  | line body rest h ih =>
    rw [List.length_append, List.length_cons] at hlen
    have htokens : Invocation.tokens (Octets.lossy (body ++ [Octets.newline])) =
        lineWords (Utf8.decodeLossy body) := by
      rw [Octets.lossy, Utf8.decodeLossy_append_newline]
      exact tokens_ofList_newline _
    have hcs : (Utf8.decodeLossy body).length ≤ wordMax :=
      Nat.le_trans (Utf8.length_decodeLossy_le body) (by omega)
    rw [Feed.linesRead_append h, lines_append_cons h, List.filterMap_cons, List.filterMap_cons,
      Invocation.call?_ofLine htokens hcs, ih (by omega)]

/-- The calls of a run are the requests of the text, one for each line that asks for a call, in the
order of the lines. The launcher is not asked what they are to be: its answers, whatever they are,
change none of them. -/
theorem calls_runFeed_eq_requests (content : Octets) (hlen : content.length < 2 ^ 64)
    (w : World σ) :
    (i.runFeed path (Feed.ofOctets content) log w).trace.calls =
      requests i.searchDir i.maxArgs content := by
  have hword : content.length ≤ wordMax := Nat.le_of_lt_succ hlen
  rw [runFeed_eq_runEach, Action.trace_bind, Trace.calls_append,
    calls_runEach, filterMap_call?_linesRead i hword, requests, Utf8.lines_decodeLossy,
    List.filterMap_map]
  exact List.append_nil _

/-- A character that a newline cuts off, a carriage return, a blank line, and a last line that
nothing ends; the first program is refused and one word is over the limit. -/
theorem calls_runFeed_of_cut_character :
    let content := Octets.ofString "echo " ++ [0xE2, 0x82, 10] ++ Octets.ofString "a b c\r\n \n./x"
    let i : Interpreter Unit :=
      ⟨.ofString "/sbin", 1, Rehearsal.launcher [(.ofString "/sbin/echo", .refuses)]⟩
    let w : World Unit := ⟨⟨.empty, [], 0⟩, ()⟩
    content.length < 2 ^ 64 ∧
      (i.runFeed (.ofString "rcS") (Feed.ofOctets content) none w).trace.calls =
        [⟨⟨"echo", .ofString "/sbin/echo"⟩, ["\uFFFD"]⟩, ⟨⟨"a", .ofString "/sbin/a"⟩, ["b"]⟩,
          ⟨⟨"./x", .ofString "./x"⟩, []⟩] := by
  intro content i w
  have hlen : content.length < 2 ^ 64 := by decide
  refine ⟨hlen, (calls_runFeed_eq_requests i _ none content hlen w).trans ?_⟩
  decide

end Interpreter
end BootSequence
