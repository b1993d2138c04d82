import BootSequence.Proofs.Harness.Cases
import BootSequence.Proofs.Mount.Listing
import BootSequence.Proofs.Script.Composition

/-!
Line endings. Tables and lists of cases trim white space of every kind, and a script drops one
carriage return at the end of a line. So none of them takes notice when a newline has a carriage
return put before it, or when a last line that had no end gets one. Only a line of a script that
ends in a carriage return already would keep it (`line_ends_irrelevant`).
-/

namespace BootSequence

open Octets Delivery
open Feed (Reended SameLines)

variable {returns : Octets → Prop}

/-! ## Tables -/

namespace Mount
namespace Table

/-- Two texts in which tables read the same items. -/
def ReadsSame (c c' : Octets) : Prop :=
  ∀ table ds ds', broken ds = [] → broken ds' = [] → arrived ds = c → arrived ds' = c' →
    ((Cursor.ofDeliveries ds').drain table).1 = ((Cursor.ofDeliveries ds).drain table).1

variable (table : Path)

theorem lineItem_reended {line line' : Octets} (h : Reended returns line line') (number : Nat) :
    lineItem table number (Utf8.decodeLossy line') =
      lineItem table number (Utf8.decodeLossy line) := by
  obtain ⟨cs, gap, gap', hgap, hgap', hline, hline'⟩ := h.decodeLossy
  rw [hline, hline', lineItem_append_gap table hgap, lineItem_append_gap table hgap']

theorem itemsFrom_reended {lines lines' : List Octets}
    (h : List.Forall₂ (Reended returns) lines lines') {readings readings' : List Feed.Reading}
    (hlines : readings.map (·.item) = lines.map .line)
    (hlines' : readings'.map (·.item) = lines'.map .line) (number : Nat) :
    itemsFrom table number readings' = itemsFrom table number readings := by
  induction h generalizing readings readings' number with
  | nil =>
    obtain rfl := List.map_eq_nil_iff.1 hlines
    obtain rfl := List.map_eq_nil_iff.1 hlines'
    rfl
  | cons hline _ ih =>
    obtain ⟨⟨_, _⟩, rest, rfl, rfl, hrest⟩ := List.map_eq_cons_iff.1 hlines
    obtain ⟨⟨_, _⟩, rest', rfl, rfl, hrest'⟩ := List.map_eq_cons_iff.1 hlines'
    rw [itemsFrom, itemsFrom, lineItem_reended table hline, ih hrest hrest']

theorem readsSame_of_sameLines {c c' : Octets}
    (h : SameLines returns c c') : ReadsSame c c' := by
  intro table ds ds' hds hds' hc hc'
  rw [(drain_readOut table ds).eq_items, (drain_readOut table ds').eq_items,
    ofDeliveries_of_ended hds, ofDeliveries_of_ended hds', hc, hc']
  exact itemsFrom_reended table h (Feed.items_readings c) (Feed.items_readings c') 0

end Table
end Mount

/-! ## Lists of cases -/

namespace Harness

theorem namesOf_reended {lines lines' : List Octets}
    (h : List.Forall₂ (Reended returns) lines lines') :
    namesOf lines' = namesOf lines := by
  induction h with
  | nil => rfl
  | cons hline _ ih =>
    obtain ⟨cs, gap, gap', hgap, hgap', hdecoded, hdecoded'⟩ := hline.decodeLossy
    rw [namesOf_cons, namesOf_cons, ih, hdecoded, hdecoded', caseName?_append_gap hgap,
      caseName?_append_gap hgap']

section Alike

variable {σ τ : Type} {h : Harness σ} {view : World σ → τ} {log log' : Option LogFile}
  (hlog : Unseen view log) (hlog' : Unseen view log') (hlaunch : SeesOnly view h.launcher)
  {w w' u u' : World σ}
include hlog hlog' hlaunch

theorem Tries.alike {name : String} {fate fate' : Fate} (ht : Tries h log w name fate u)
    (ht' : Tries h log' w' name fate' u') (hw : view w = view w') :
    fate' = fate ∧ view u = view u' := by
  have hopened : view (w.recorded log [opening name]) = view (w'.recorded log' [opening name]) := by
    rw [hlog.recorded, hlog'.recorded, hw]
  cases ht with
  | unresolved hjoin =>
    cases ht' with
    | unresolved hjoin' =>
      cases hjoin.symm.trans hjoin'
      refine ⟨rfl, ?_⟩
      rw [hlog.recorded, hlog'.recorded]
      exact hopened
    | launched hjoin' => cases hjoin.symm.trans hjoin'
  | @launched left _ path reply notes hjoin hreply =>
    cases ht' with
    | unresolved hjoin' => cases hjoin.symm.trans hjoin'
    | @launched left' _ path' reply' notes' hjoin' hreply' =>
      cases hjoin.symm.trans hjoin'
      obtain ⟨rfl, hleft⟩ := hlaunch.alike hopened hreply hreply'
      refine ⟨rfl, ?_⟩
      rw [hlog.recorded, hlog'.recorded]
      exact hleft

theorem TriesAll.alike {names : List String} {fates fates' : List Fate}
    (ht : TriesAll h log w names fates u) (ht' : TriesAll h log' w' names fates' u')
    (hw : view w = view w') : fates' = fates ∧ view u = view u' := by
  induction ht generalizing w' fates' with
  | nil =>
    cases ht'
    exact ⟨rfl, hw⟩
  | cons tries _ ih =>
    cases ht' with
    | cons tries' rest' =>
      obtain ⟨rfl, hnext⟩ := tries.alike hlog hlog' hlaunch tries' hw
      obtain ⟨rfl, hlast⟩ := ih rest' hnext
      exact ⟨rfl, hlast⟩

/-- The same cases come to the same, whatever list names them. -/
theorem Counted.alike {list : Path} {names : List String} {failure : Option Errno}
    {fates fates' : List Fate} {ran ran' : Ran σ (Except Error Tally)}
    (hc : Counted h log list w names failure fates ran)
    (hc' : Counted h log' list w' names failure fates' ran') (hw : view w = view w') :
    Ran.Alike view (· = ·) ran ran' ∧ ran.trace.own = ran'.trace.own := by
  obtain ⟨rfl, hseen⟩ := hc.tries.alike hlog hlog' hlaunch hc'.tries hw
  obtain ⟨tally, hpassed, hfailed, -, hvalue⟩ := hc.result_eq
  obtain ⟨tally', hpassed', hfailed', -, hvalue'⟩ := hc'.result_eq
  have htally : tally = tally' := by
    obtain ⟨passed, failed⟩ := tally
    obtain ⟨passed', failed'⟩ := tally'
    exact congrArg₂ Tally.mk (hpassed.trans hpassed'.symm) (hfailed.trans hfailed'.symm)
  refine ⟨⟨?_, hc.calls_eq.trans hc'.calls_eq.symm, hseen⟩, hc.own_eq.trans hc'.own_eq.symm⟩
  rw [hvalue, hvalue', htally]

end Alike

/-- Two texts that name the same cases; lists that go on holding them are run alike. -/
structure RunsSame (c c' : Octets) : Prop where
  cases_eq : cases c' = cases c
  run_eq : ∀ (σ τ : Type) (h : Harness σ) (view : World σ → τ) (log log' : Option LogFile),
    Unseen view log → Unseen view log' → SeesOnly view h.launcher →
    ∀ (list : Path) (w w' : World σ) (file file' : OpenFile),
      OpenFile.ofPath w.files list = .ok file → OpenFile.ofPath w'.files list = .ok file' →
      w.files.contentAt file.loc = .ok c → w'.files.contentAt file'.loc = .ok c' →
      Steady h.launcher log file.loc c → Steady h.launcher log' file'.loc c' → view w = view w' →
      let ran := h.runList list log w
      let ran' := h.runList list log' w'
      Ran.Alike view (· = ·) ran ran' ∧ ran.trace.own = ran'.trace.own

theorem runsSame_of_sameLines {c c' : Octets}
    (hlines : SameLines returns c c') : RunsSame c c' := by
  have hcases : cases c' = cases c := by
    rw [← namesOf_linesRead, ← namesOf_linesRead, namesOf_reended hlines]
  refine ⟨hcases, ?_⟩
  intro σ τ h view log log' hlog hlog' hlaunch list w w' file file' hopens hopens' hc hc' hsteady
    hsteady' hw
  obtain ⟨fates, hcounted⟩ := runList_of_steady h log hopens hc hsteady
  obtain ⟨fates', hcounted'⟩ := runList_of_steady h log' hopens' hc' hsteady'
  rw [hcases] at hcounted'
  exact hcounted.alike hlog hlog' hlaunch hcounted' hw

end Harness

/-! ## Scripts -/

namespace Interpreter

open Script

/-- Two texts that are the same script. -/
def RunsSame (c c' : Octets) : Prop :=
  ∀ (σ : Type) (i : Interpreter σ) (path : Path) (ds ds' : List Delivery), broken ds = [] →
    broken ds' = [] → arrived ds = c → arrived ds' = c' →
      i.runReader path (Source.ofDeliveries ds') 0 = i.runReader path (Source.ofDeliveries ds) 0

/-- One carriage return at the end of a line goes, but no second one. -/
theorem tokens_reended (hreturns : ∀ body, returns body → body.getLast? ≠ some carriageReturn)
    {line line' : Octets} (h : Reended returns line line') :
    Invocation.tokens line'.lossy = Invocation.tokens line.lossy := by
  cases h with
  | same => rfl
  | @returned body hbody hplain =>
    have hlast : (Utf8.decodeLossy body).getLast? ≠ some '\r' := fun hlast =>
      hreturns body hplain (Utf8.getLast?_of_decodeLossy hlast)
    have hdrop : dropReturn (Utf8.decodeLossy body ++ ['\r']) =
        dropReturn (Utf8.decodeLossy body) := by
      simp [dropReturn, hlast]
    have hwords : lineWords (Utf8.decodeLossy body ++ ['\r']) =
        lineWords (Utf8.decodeLossy body) := by
      rw [lineWords, lineWords, hdrop]
    rw [Octets.lossy, Octets.lossy, Utf8.decodeLossy_append_newline,
      Utf8.decodeLossy_append_newline, Utf8.decodeLossy_concat_return]
    exact (tokens_ofList_newline _).trans (hwords.trans (tokens_ofList_newline _).symm)
  | ended hbody =>
    have hd : '\n' ∉ Utf8.decodeLossy line := fun hn =>
      hbody (Utf8.newline_mem_of_mem_decodeLossy hn)
    rw [Octets.lossy, Octets.lossy, Utf8.decodeLossy_append_newline]
    exact (tokens_ofList_newline _).trans (tokens_ofList_of_not_mem hd).symm

example : Invocation.tokens "a\r\n" = ["a"] ∧ Invocation.tokens "a\r\r\n" = ["a\r"] := by decide

variable {σ : Type} (i : Interpreter σ) (path : Path)

/-- A line is run by its words. -/
theorem runEach_congr {lines lines' : List Octets}
    (h : List.Forall₂
      (fun line line' => Invocation.tokens line'.lossy = Invocation.tokens line.lossy) lines lines')
    (number : Nat) :
    i.runEach path number lines' = i.runEach path number lines := by
  induction h generalizing number with
  | nil => rfl
  | cons hline _ ih => rw [runEach, runEach, runLine, runLine, Invocation.ofLine, hline, ih]; rfl

theorem runsSame_of_sameLines
    (hreturns : ∀ body, returns body → body.getLast? ≠ some carriageReturn) {c c' : Octets}
    (h : SameLines returns c c') : RunsSame c c' := by
  intro σ i path ds ds' hds hds' hc hc'
  have hlines : Delivery.linesRead ds = Feed.linesRead c := by
    rw [(linesRead_of_ended hds).1, hc]
  have hlines' : Delivery.linesRead ds' = Feed.linesRead c' := by
    rw [(linesRead_of_ended hds').1, hc']
  funext log w
  rw [runSource_of_ended i path log hds, runSource_of_ended i path log hds', hlines, hlines',
    runEach_congr i path (h.imp fun _ _ hline => tokens_reended hreturns hline)]

end Interpreter

/-- Carriage returns before all newlines are of no account to tables and to lists of cases, nor to
scripts that have none there yet; and a newline at the very end is of no account to any of them. -/
theorem line_ends_irrelevant (c : Octets) :
    Mount.Table.ReadsSame c c.withReturns ∧ Harness.RunsSame c c.withReturns ∧
    (¬[carriageReturn, newline] <:+: c → Interpreter.RunsSame c c.withReturns) ∧
    (¬c.Ended → Mount.Table.ReadsSame c (c ++ [newline]) ∧ Harness.RunsSame c (c ++ [newline]) ∧
      Interpreter.RunsSame c (c ++ [newline])) := by
  have hreturned := Feed.sameLines_withReturns (o := c) fun _ _ => trivial
  refine ⟨Mount.Table.readsSame_of_sameLines hreturned,
    Harness.runsSame_of_sameLines hreturned, ?_, ?_⟩
  · intro hnone
    have hlast : ∀ body, body ++ [newline] ∈ Feed.linesRead c →
        body.getLast? ≠ some carriageReturn := by
      intro body hbody hlast
      -- A return at the end of a line would stand before its newline in `c`.
      obtain ⟨init, rfl⟩ := List.getLast?_eq_some_iff.1 hlast
      have hinfix := List.infix_of_mem_flatten hbody
      rw [Feed.flatten_linesRead, List.append_assoc] at hinfix
      exact hnone ((List.suffix_append init _).isInfix.trans hinfix)
    exact Interpreter.runsSame_of_sameLines (fun _ h => h) (Feed.sameLines_withReturns hlast)
  · intro hended
    have hconcat : SameLines (fun _ => False) c (c ++ [newline]) := Feed.sameLines_concat hended
    exact ⟨Mount.Table.readsSame_of_sameLines hconcat, Harness.runsSame_of_sameLines hconcat,
      Interpreter.runsSame_of_sameLines (fun _ h => h.elim) hconcat⟩

/-- A rehearsal looks at nothing of the world and leaves it alone. -/
theorem seesOnly_rehearsal {σ τ : Type} (view : World σ → τ)
    (programs : List (Path × Rehearsal.Reply)) : SeesOnly view (Rehearsal.launcher programs) where
  answer := by
    intro call w w' _
    unfold Rehearsal.launcher
    split <;> rfl
  left := by
    intro call w w' h
    unfold Rehearsal.launcher
    split <;> exact h

/-- Of the two lines the first is cut off within a character, and the last has no end. -/
theorem line_ends_irrelevant_of_cut_character :
    let c : Octets := Octets.ofString "a b" ++ [0xE2, 0x82, 10] ++ Octets.ofString "./x"
    let i : Interpreter Unit := ⟨.ofString "/sbin", 8, Rehearsal.launcher []⟩
    let h : Harness Unit := ⟨.ofString "/t", Rehearsal.launcher [(.ofString "/t/./x", .refuses)]⟩
    let w : World Unit := ⟨⟨.empty, [], 0⟩, ()⟩
    let listed (o : Octets) : World Unit :=
      ⟨⟨⟨[([.ofString "list"], .file 0o644 o)]⟩, [], 0⟩, ()⟩
    let calls (o : Octets) : List Call :=
      (i.runReader (.ofString "rcS") (Source.ofDeliveries [.data o]) 0 none w).trace.calls
    let items (o : Octets) : List Mount.Table.Item :=
      ((Mount.Table.Cursor.ofDeliveries [.data o]).drain (.ofString "fstab")).1
    c.withReturns = Octets.ofString "a b" ++ [0xE2, 0x82, 13, 10] ++ Octets.ofString "./x" ∧
      ¬[carriageReturn, newline] <:+: c ∧ ¬c.Ended ∧
      calls c.withReturns =
        [⟨⟨"a", .ofString "/sbin/a"⟩, ["b\uFFFD"]⟩, ⟨⟨"./x", .ofString "./x"⟩, []⟩] ∧
      calls (c ++ [newline]) = calls c.withReturns ∧
      items c.withReturns = items c ∧ items (c ++ [newline]) = items c ∧
      Harness.cases c.withReturns = ["a b\uFFFD", "./x"] ∧
      Harness.cases (c ++ [newline]) = ["a b\uFFFD", "./x"] ∧
      (h.runList (.ofString "list") none (listed c.withReturns)).trace.own =
        (h.runList (.ofString "list") none (listed c)).trace.own := by
  intro c i h w listed calls items
  have hnone : ¬[carriageReturn, newline] <:+: c := by decide
  have hended : ¬c.Ended := by decide
  have hplain : calls c =
      [⟨⟨"a", .ofString "/sbin/a"⟩, ["b\uFFFD"]⟩, ⟨⟨"./x", .ofString "./x"⟩, []⟩] := by
    simp only [calls]
    rw [Interpreter.runSource_of_ended _ _ _ (by decide)]
    decide
  have hnames : Harness.cases c = ["a b\uFFFD", "./x"] := by decide
  obtain ⟨htable, hlist, hscript, hclosed⟩ := line_ends_irrelevant c
  obtain ⟨htable', hlist', hscript'⟩ := hclosed hended
  have hreturned : calls c.withReturns = calls c := by
    simp only [calls]
    rw [hscript hnone Unit i _ [.data c] [.data c.withReturns] (by decide) (by decide) (by decide)
      (by decide)]
  have hconcat : calls (c ++ [newline]) = calls c := by
    simp only [calls]
    rw [hscript' Unit i _ [.data c] [.data (c ++ [newline])] (by decide) (by decide) (by decide)
      (by decide)]
  have hcontent : ∀ o, (listed o).files.contentAt [.ofString "list"] = .ok o := by
    intro o
    cbv
  have hopens : ∀ o, OpenFile.ofPath (listed o).files (.ofString "list") =
      .ok (.atStart [.ofString "list"] o) := by
    intro o
    exact OpenFile.ofPath_of_content (by cbv) (hcontent o)
  have hsees : SeesOnly (fun w : World Unit => w.state) h.launcher := seesOnly_rehearsal _ _
  refine ⟨by decide, hnone, hended, hreturned.trans hplain, hconcat.trans hreturned.symm, ?_, ?_,
    hlist.cases_eq.trans hnames, hlist'.cases_eq.trans hnames, ?_⟩
  · exact htable _ [.data c] [.data c.withReturns] (by decide) (by decide) (by decide) (by decide)
  · exact htable' _ [.data c] [.data (c ++ [newline])] (by decide) (by decide) (by decide)
      (by decide)
  · have hruns := hlist.run_eq Unit Unit h _ none none (unseen_state id none) (unseen_state id none)
      hsees _ _ _ _ _ (hopens c) (hopens c.withReturns) (hcontent c) (hcontent c.withReturns)
      (Harness.steady_rehearsal _ _ _) (Harness.steady_rehearsal _ _ _) rfl
    exact hruns.2.symm

end BootSequence
