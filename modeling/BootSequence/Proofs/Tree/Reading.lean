import BootSequence.Proofs.Reader
import BootSequence.Proofs.Steps
import BootSequence.Tree.OpenFile

/-!
Files that are read line by line while something is done for each line. What is done may change the
file. As long as it holds what it held when it was opened, it is read like the feed of its content
(`OpenFile.readsAs`), and so, where it goes on holding that, the lines that are read are those of its
content (`Reads.lines_of_opened`).
-/

namespace BootSequence

/-! ## One line -/

namespace OpenFile

open Feed (linesRead)

variable {o : OpenFile} {content : Octets}

/-- Reading leaves it open at the same place, and it can be read as far as before. -/
theorem ready_same : (o.ready content).loc = o.loc ∧ (o.ready content).reach = o.reach := by
  unfold ready
  split <;> exact ⟨rfl, rfl⟩

theorem readLine_same (started : Octets) :
    (o.readLine content started).2.loc = o.loc ∧ (o.readLine content started).2.reach = o.reach := by
  fun_induction readLine o content started with
  | case1 o started now h => exact ready_same
  | case2 o started now h hd ih => exact ⟨ih.1.trans ready_same.1, ih.2.trans ready_same.2⟩
  | case3 o started now h line rest hd => exact ready_same

theorem firstLine_of_not_mem {o : Octets} (h : Octets.newline ∉ o) : firstLine o = o := by
  induction o with
  | nil => rfl
  | cons b o ih =>
    have hb : b ≠ Octets.newline := fun he => h (he ▸ List.mem_cons_self)
    rw [firstLine, if_neg hb, ih fun hm => h (List.mem_cons_of_mem _ hm)]

theorem firstLine_append {body : Octets} (h : Octets.newline ∉ body) (rest : Octets) :
    firstLine (body ++ Octets.newline :: rest) = body ++ [Octets.newline] := by
  induction body with
  | nil => rfl
  | cons b body ih =>
    have hb : b ≠ Octets.newline := fun he => h (he ▸ List.mem_cons_self)
    rw [List.cons_append, firstLine, if_neg hb, ih fun hm => h (List.mem_cons_of_mem _ hm)]
    rfl

/-- The first line comes first, and behind it what comes behind it. -/
theorem readings_firstLine {o : Octets} (h : o ≠ []) :
    let rest := Feed.ofOctets (o.drop (firstLine o).length)
    firstLine o ≠ [] ∧
      Feed.readings (Feed.ofOctets o) = ⟨.line (firstLine o), rest⟩ :: rest.readings := by
  induction o using lineInduction Octets.newline with
  | last o hm =>
    rw [firstLine_of_not_mem hm, Feed.readings_last hm, if_neg h, List.drop_length]
    exact ⟨h, rfl⟩
  | line body rest hm ih =>
    have hdrop :
        (body ++ Octets.newline :: rest).drop (body ++ [Octets.newline]).length = rest := by
      rw [List.append_cons body Octets.newline rest]
      exact List.drop_left
    rw [firstLine_append hm, Feed.readings_ofOctets_line hm, hdrop]
    exact ⟨by simp, rfl⟩

/-- While a file holds a content that it can be read to the end of, it is read like the feed of what
is left of that. -/
theorem readsAs {f : Files} {loc : Location} (h : f.contentAt loc = .ok content) :
    ReadsAs f fun (o : OpenFile) feed =>
      o.loc = loc ∧ content.length ≤ o.reach ∧ feed = Feed.ofOctets (o.left content) := by
  have hread : ∀ {o left : OpenFile} {read : Except Errno Octets}, o.loc = loc →
      Reader.readLine o f = (read, left) → read = .ok (firstLine (o.left content)) ∧
        left.loc = loc ∧ left.reach = o.reach ∧
        left.left content = (o.left content).drop (firstLine (o.left content)).length := by
    rintro o left read rfl hread
    obtain ⟨hline, hleft⟩ := o.readLine_eq content []
    simp only [Reader.readLine, h] at hread
    obtain ⟨rfl, rfl⟩ := Prod.mk.inj hread
    exact ⟨congrArg _ hline, (o.readLine_same []).1, (o.readLine_same []).2, hleft⟩
  constructor
  · rintro o left _ ⟨hloc, hreach, rfl⟩ hend
    obtain ⟨hline, hloc', hreach', hleft⟩ := hread hloc hend
    by_cases hnil : o.left content = []
    · rw [hleft, hnil]
      exact ⟨rfl, hloc', hreach' ▸ hreach, rfl⟩
    · exact absurd (Except.ok.inj hline).symm (readings_firstLine hnil).1
  · rintro o left _ e ⟨hloc, hreach, rfl⟩ hfailed
    cases (hread hloc hfailed).1
  · rintro o left _ line ⟨hloc, hreach, rfl⟩ hline hne
    obtain ⟨hfirst, hloc', hreach', hleft⟩ := hread hloc hline
    obtain rfl := Except.ok.inj hfirst
    have hnil : o.left content ≠ [] := fun hnil => hne (by rw [hnil]; rfl)
    exact ⟨_, (readings_firstLine hnil).2, hloc', hreach' ▸ hreach, by rw [hleft]⟩

theorem ofPath_of_content {f : Files} {p : Path} {loc : Location}
    (hopens : f.openToRead p = .ok loc) (hcontent : f.contentAt loc = .ok content) :
    ofPath f p = .ok (atStart loc content) := by
  rw [ofPath, hopens, Except.map, hcontent]
  rfl

/-- A file that has just been opened is all to be read. -/
theorem left_ofPath {f : Files} {p : Path} {file : OpenFile} (h : ofPath f p = .ok file)
    (hcontent : f.contentAt file.loc = .ok content) :
    content.length ≤ file.reach ∧ file.left content = content := by
  cases hopens : f.openToRead p with
  | error fault =>
    rw [ofPath, hopens] at h
    cases h
  | ok loc =>
    have hloc : file.loc = loc := by
      rw [ofPath, hopens] at h
      cases h
      rfl
    rw [hloc] at hcontent
    obtain rfl := Except.ok.inj (h.symm.trans (ofPath_of_content hopens hcontent))
    have hlength : content.length ≤ (atStart loc content).reach := Nat.le_max_left _ _
    exact ⟨hlength, List.take_of_length_le hlength⟩

end OpenFile

/-- From a file that goes on holding what it held when it was opened, all its lines are read. -/
theorem Reads.lines_of_opened {σ α : Type} {step : α → Octets → Action σ α} {log : Option LogFile}
    {w : World σ} {a : α} {file left : OpenFile} {lines : List Octets} {failure : Option Errno}
    {f : Files} {path : Path} {content : Octets} (h : Reads step log w a file lines failure left)
    (hopens : OpenFile.ofPath f path = .ok file) (hopened : f.contentAt file.loc = .ok content)
    (hcontent : w.files.contentAt file.loc = .ok content)
    (hstep : ∀ a line w, w.files.contentAt file.loc = .ok content →
      (step a line log w).world.files.contentAt file.loc = .ok content) :
    lines = Feed.linesRead content ∧ failure = none := by
  obtain ⟨hreach, hleft⟩ := OpenFile.left_ofPath hopens hopened
  obtain ⟨hlines, hfailure, -⟩ :=
    h.eq_of_readsAs (fun w => OpenFile.readsAs) hstep hcontent ⟨rfl, hreach, rfl⟩
  rw [hleft] at hlines hfailure
  obtain ⟨hall, hnone, -⟩ := Feed.readings_ofOctets content
  exact ⟨hlines.trans hall, hfailure.trans hnone⟩

/-! ## Files that stay as they are -/

namespace Files

/-- A record changes nothing but the log file. -/
theorem node?_record {log : Option LogFile} {loc : Location} (h : ∀ l ∈ log, l.loc ≠ loc)
    (level : Level) (message : String) (f : Files) :
    (LogFile.record log level message f).tree.node? loc = f.tree.node? loc := by
  cases log with
  | none => rfl
  | some l =>
    have hne : loc ≠ l.loc := (h l rfl).symm
    show (f.modify l.loc _).tree.node? loc = _
    unfold modify
    split
    · rename_i mode content hfile
      have hroot : l.loc ≠ [] := by
        intro hnil
        rw [hnil] at hfile
        cases hfile
      rw [Tree.node?_put _ hroot, if_neg hne]
    · rfl

theorem contentAt_record {log : Option LogFile} {loc : Location} (h : ∀ l ∈ log, l.loc ≠ loc)
    (level : Level) (message : String) (f : Files) :
    (LogFile.record log level message f).contentAt loc = f.contentAt loc := by
  rw [contentAt, node?_record h]
  rfl

end Files

section Steady

variable {σ : Type}

/-- No launch changes the content of a file, and it is not the log file. -/
structure Steady (launcher : Launcher σ) (log : Option LogFile) (loc : Location)
    (content : Octets) : Prop where
  launches : ∀ call w, w.files.contentAt loc = .ok content →
    (launcher call w).2.2.files.contentAt loc = .ok content
  not_log : ∀ l ∈ log, l.loc ≠ loc

/-- A file that holds a content holds it afterwards. -/
def Leaves (loc : Location) (content : Octets) (w : World σ) (_ : Trace) (w' : World σ) : Prop :=
  w.files.contentAt loc = .ok content → w'.files.contentAt loc = .ok content

variable {launcher : Launcher σ} {log : Option LogFile} {loc : Location} {content : Octets}

theorem Steady.law (h : Steady launcher log loc content) :
    Action.Law log (Leaves (σ := σ) loc content) where
  nothing := fun _ hw => hw
  followed := fun hfirst hnext hw => hnext (hfirst hw)
  record := fun level message w hw =>
    (Files.contentAt_record h.not_log level message w.files).trans hw

theorem Steady.launch (h : Steady launcher log loc content) (call : Call) :
    Action.Obeys log (Leaves loc content) (Action.launch launcher call) :=
  fun w hw => h.launches call w hw

end Steady
end BootSequence
