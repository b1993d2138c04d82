import BootSequence.Journal
import BootSequence.Proofs.Tree.Adding
import BootSequence.Proofs.Tree.Growth

/-!
The two sinks of a logger. A record is held back by the limit of the process, by the logger, and by
the threshold of each sink. Of these only the last counts: the limit and the logger hold nothing
back that a sink would let through. So each sink gets the records of its own threshold, in order,
whatever the other one is asked to do (`sinks_apart`).
-/

namespace BootSequence

/-! ## Which records a sink gets -/

namespace Log

/-- The lines that records make in a sink with this threshold. -/
def lines (line : Level → String → String) (t : Threshold) (records : List (Level × String)) :
    Octets :=
  (records.filter fun r => t.permits r.1).flatMap fun r => Octets.ofString (line r.1 r.2)

abbrev consoleLines : Threshold → List (Level × String) → Octets := lines colouredLine

abbrev fileLines : Threshold → List (Level × String) → Octets := lines plainLine

theorem lines_append (line : Level → String → String) (t : Threshold)
    (records more : List (Level × String)) :
    lines line t (records ++ more) = lines line t records ++ lines line t more := by
  rw [lines, List.filter_append, List.flatMap_append]
  rfl

theorem lines_singleton (line : Level → String → String) (t : Threshold) (level : Level)
    (message : String) :
    lines line t [(level, message)] =
      if t.permits level then Octets.ofString (line level message) else [] := by
  cases h : t.permits level <;> simp [lines, h]

end Log

/-- The limit lets through what a sink lets through, and nothing else. -/
theorem Logger.permits_limit (l : Logger) (level : Level) :
    l.limit.permits level = l.enabled level := by
  cases hfile : l.file with
  | none => simp [limit, enabled, hfile]
  | some file =>
    simp only [limit, enabled, hfile, Option.any_some, Threshold.max, Threshold.permits]
    split <;> grind

namespace Journal

open Log (consoleLines fileLines)

/-- What a logger shows of records. -/
def shownBy (logger : Option Logger) (records : List (Level × String)) : Octets :=
  match logger with
  | some l => consoleLines l.console records
  | none => []

/-- What records add to the file at a location. -/
def filedAt (log : Option LogFile) (loc : Location) (records : List (Level × String)) : Octets :=
  match log with
  | some l => if l.loc = loc then fileLines l.threshold records else []
  | none => []

theorem shownBy_append (logger : Option Logger) (records more : List (Level × String)) :
    shownBy logger (records ++ more) = shownBy logger records ++ shownBy logger more := by
  cases logger with
  | none => rfl
  | some l => exact Log.lines_append Log.colouredLine l.console records more

theorem filedAt_append (log : Option LogFile) (loc : Location)
    (records more : List (Level × String)) :
    filedAt log loc (records ++ more) = filedAt log loc records ++ filedAt log loc more := by
  cases log with
  | none => rfl
  | some l =>
    rw [filedAt, filedAt, filedAt]
    split
    · exact Log.lines_append Log.plainLine l.threshold records more
    · rfl

/-- The limit is that of the logger in place. -/
def InForce (j : Journal) : Prop :=
  j.limit = match j.logger with
    | some l => l.limit
    | none => .off

theorem inForce_start (f : Files) : (start f).InForce := rfl

/-- What records do to a journal: each sink gets its own, and nothing else changes. -/
structure Logged (j : Journal) (records : List (Level × String)) (j' : Journal) : Prop where
  logger_eq : j'.logger = j.logger
  limit_eq : j'.limit = j.limit
  console_eq : j'.console = j.console ++ shownBy j.logger records
  workdir_eq : j'.files.workdir = j.files.workdir
  mask_eq : j'.files.mask = j.files.mask
  node_eq : ∀ loc, j'.files.tree.node? loc =
    (j.files.tree.node? loc).map (Node.added (filedAt j.logFile? loc records))
  files_eq : j.logFile? = none → j'.files = j.files

variable {j j' j'' : Journal} {records more : List (Level × String)}

theorem Logged.logFile?_eq (h : Logged j records j') : j'.logFile? = j.logFile? := by
  rw [logFile?, h.logger_eq]
  rfl

theorem Logged.inForce (h : Logged j records j') (hj : j.InForce) : j'.InForce := by
  rw [InForce, h.limit_eq, h.logger_eq]
  exact hj

theorem Logged.trans (h : Logged j records j') (h' : Logged j' more j'') :
    Logged j (records ++ more) j'' where
  logger_eq := h'.logger_eq.trans h.logger_eq
  limit_eq := h'.limit_eq.trans h.limit_eq
  console_eq := by
    rw [h'.console_eq, h.console_eq, h.logger_eq, shownBy_append, List.append_assoc]
  workdir_eq := h'.workdir_eq.trans h.workdir_eq
  mask_eq := h'.mask_eq.trans h.mask_eq
  node_eq := fun loc => by
    rw [h'.node_eq, h.node_eq, h.logFile?_eq, filedAt_append, Option.map_map]
    congr 1
    funext node
    exact (Node.added_append node _ _).symm
  files_eq := fun hnone => (h'.files_eq (h.logFile?_eq.trans hnone)).trans (h.files_eq hnone)

/-- Records that no sink gets do nothing. -/
theorem logged_of_silent (hconsole : shownBy j.logger records = [])
    (hfile : ∀ loc, filedAt j.logFile? loc records = []) : Logged j records j where
  logger_eq := rfl
  limit_eq := rfl
  console_eq := by rw [hconsole, List.append_nil]
  workdir_eq := rfl
  mask_eq := rfl
  node_eq := fun loc => by rw [hfile, Node.map_added_nil]
  files_eq := fun _ => rfl

theorem logged_nil (j : Journal) : Logged j [] j := by
  refine logged_of_silent ?_ fun loc => ?_
  · cases j.logger <;> rfl
  · cases j.logFile? with
    | none => rfl
    | some l => exact ite_self _

theorem node?_record_eq (log : Option LogFile) (level : Level) (message : String) (f : Files)
    (loc : Location) :
    (LogFile.record log level message f).tree.node? loc =
      (f.tree.node? loc).map (Node.added (filedAt log loc [(level, message)])) := by
  cases log with
  | none => exact (Node.map_added_nil _).symm
  | some l =>
    show (f.addContent l.loc (l.text level message)).tree.node? loc = _
    rw [Files.node?_addContent, filedAt]
    by_cases hloc : loc = l.loc
    · subst hloc
      rw [if_pos rfl, if_pos rfl, fileLines, Log.lines_singleton]
      rfl
    · rw [if_neg hloc, if_neg (Ne.symm hloc), Node.map_added_nil]

/-- Each sink holds back its own when a record is shown to both. -/
theorem logged_both (j : Journal) (level : Level) (message : String) :
    Logged j [(level, message)]
      { j.display level message with
        files := LogFile.record j.logFile? level message j.files } := by
  have hdisplay : j.display level message =
      j.print (shownBy j.logger [(level, message)]) := by
    rw [display]
    cases hlogger : j.logger with
    | none => simp only [shownBy, print, List.append_nil]
    | some l =>
      simp only [shownBy, consoleLines, Log.lines_singleton]
      rfl
  rw [hdisplay]
  exact ⟨rfl, rfl, rfl, (Files.keeps_record j.files j.logFile? level message).1.workdir_eq,
    Files.mask_record j.logFile? level message j.files,
    node?_record_eq j.logFile? level message j.files,
    fun hnone => by rw [hnone]; rfl⟩

/-- An action that logs does what the record does. -/
theorem logged_perform {σ : Type} (j : Journal) (state : σ) (level : Level) (message : String) :
    Logged j [(level, message)] (j.perform state (Action.log level message)).2.2 := by
  have hboth := logged_both j level message
  have heq : (j.perform state (Action.log level message)).2.2 =
      { j.display level message with
        files := LogFile.record j.logFile? level message j.files } := by
    show Journal.display { j with files := _ } level message = _
    cases hlogger : j.logger with
    | none => simp only [display, hlogger]; rfl
    | some l => simp only [display, hlogger, print]; rfl
  rwa [heq]

/-- The logger is handed each record that one of its sinks is to get. -/
theorem logged_record (h : j.InForce) (level : Level) (message : String) :
    Logged j [(level, message)] (j.record level message) := by
  rw [InForce] at h
  cases hlogger : j.logger with
  | none =>
    rw [hlogger] at h
    have hheld : j.limit.permits level = false := by
      rw [h]
      cases level <;> rfl
    have hlog : j.logFile? = none := by
      rw [logFile?, hlogger]
      rfl
    rw [record, hheld]
    exact logged_of_silent (by rw [hlogger]; rfl) fun loc => by rw [hlog]; rfl
  | some l =>
    rw [hlogger] at h
    have hlog : j.logFile? = l.file := by
      rw [logFile?, hlogger]
      rfl
    have henabled : j.enabled level = l.enabled level := by
      rw [enabled, hlogger]
      rfl
    rw [record, h, Logger.permits_limit, write, henabled]
    cases hl : l.enabled level with
    | true => exact logged_both j level message
    | false =>
      rw [Logger.enabled, Bool.or_eq_false_iff] at hl
      refine logged_of_silent ?_ fun loc => ?_
      · rw [hlogger, shownBy, consoleLines, Log.lines_singleton, hl.1]
        rfl
      · rw [hlog]
        cases hfile : l.file with
        | none => rfl
        | some file =>
          rw [hfile] at hl
          have hfiled : file.threshold.permits level = false := hl.2
          rw [filedAt, fileLines, Log.lines_singleton, hfiled]
          exact ite_self _

def recordAll (j : Journal) (records : List (Level × String)) : Journal :=
  records.foldl (fun j r => j.record r.1 r.2) j

theorem logged_recordAll (h : j.InForce) (records : List (Level × String)) :
    Logged j records (j.recordAll records) := by
  induction records generalizing j with
  | nil => exact logged_nil j
  | cons r records ih =>
    have hfirst := logged_record h r.1 r.2
    exact hfirst.trans (ih (hfirst.inForce h))

/-! ## Installing -/

variable {c : LoggerConfig}

theorem install_eq_ok_iff : j.install c = (.ok (), j') ↔
    j.logger = none ∧ ∃ file opened, openFile j.files c = .ok (file, opened) ∧
      j' = { j with
        logger := some ⟨c.console, file⟩, limit := (Logger.mk c.console file).limit,
        files := opened } := by
  unfold install
  cases hopen : openFile j.files c with
  | error cause => simp
  | ok r =>
    obtain ⟨file, opened⟩ := r
    cases hlogger : j.logger with
    | none => simp [eq_comm]
    | some l => simp

theorem install_eq_error_iff {e : Error} : j.install c = (.error e, j') ↔
    (∃ cause, openFile j.files c = .error cause ∧ e = .cannotOpen cause ∧ j' = j) ∨
      ∃ file opened, openFile j.files c = .ok (file, opened) ∧ j.logger ≠ none ∧
        e = .alreadyInstalled ∧ j' = { j with files := opened } := by
  unfold install
  cases hopen : openFile j.files c with
  | error cause => simp [eq_comm]
  | ok r =>
    obtain ⟨file, opened⟩ := r
    cases hlogger : j.logger with
    | none => simp
    | some l => simp [eq_comm]

/-- A log file is opened only for a logger that writes to one. -/
theorem openFile_cases (f : Files) (c : LoggerConfig) :
    c.path? = none ∧ openFile f c = .ok (none, f) ∨
      ∃ path, c.path? = some path ∧
        ((∃ cause, f.openToWrite path 0o666 = .error cause ∧ openFile f c = .error cause) ∨
          ∃ loc opened, f.openToWrite path 0o666 = .ok (loc, opened) ∧
            openFile f c = .ok (some ⟨loc, c.file⟩, opened)) := by
  unfold openFile
  cases hpath : c.path? with
  | none => exact .inl ⟨rfl, rfl⟩
  | some path =>
    refine .inr ⟨path, rfl, ?_⟩
    dsimp only
    cases hopen : f.openToWrite path 0o666 with
    | error cause => exact .inl ⟨cause, rfl, rfl⟩
    | ok r => exact .inr ⟨r.1, r.2, rfl, rfl⟩

theorem path?_eq_none_iff : c.path? = none ↔ c.path = none ∨ c.file = .off := by
  unfold LoggerConfig.path?
  split
  · next h => simp [h]
  · next h => simp [h]

theorem path?_eq_some_iff {path : Path} :
    c.path? = some path ↔ c.path = some path ∧ c.file ≠ .off := by
  unfold LoggerConfig.path?
  split
  · next h => simp [h]
  · next h => simp [h]

/-- What has become of a journal after a logger was installed and records were logged: standard
output and the log file get what their own thresholds let through. -/
structure BothSinks (j : Journal) (c : LoggerConfig) (records : List (Level × String))
    (last : Journal) : Prop where
  console : last.console = j.console ++ consoleLines c.console records
  file : ∀ path, c.path = some path → c.file ≠ .off → ∃ loc opened,
    j.files.openToWrite path 0o666 = .ok (loc, opened) ∧
      j.files.Appended loc (fileLines c.file records) last.files
  noFile : c.path = none ∨ c.file = .off → last.files = j.files

theorem bothSinks_recordAll (h : j.install c = (.ok (), j')) (records : List (Level × String)) :
    BothSinks j c records (j'.recordAll records) := by
  obtain ⟨hnone, file, opened, hopen, rfl⟩ := install_eq_ok_iff.1 h
  have hinForce : InForce { j with
      logger := some ⟨c.console, file⟩, limit := (Logger.mk c.console file).limit,
      files := opened } := rfl
  have hlogged := logged_recordAll hinForce records
  refine ⟨hlogged.console_eq, fun path hpath hfile => ?_, fun hunused => ?_⟩
  · have hpath' := path?_eq_some_iff.2 ⟨hpath, hfile⟩
    obtain ⟨hunused, -⟩ | ⟨path', hused, hcases⟩ := openFile_cases j.files c
    · cases hpath'.symm.trans hunused
    cases hpath'.symm.trans hused
    obtain ⟨cause, -, herror⟩ | ⟨loc, opened', hwrite, hok⟩ := hcases
    · cases hopen.symm.trans herror
    cases hopen.symm.trans hok
    have happended := Files.appended_openToWrite hwrite
    refine ⟨loc, opened, hwrite, ?_⟩
    refine ⟨hlogged.workdir_eq.trans happended.workdir_eq,
      hlogged.mask_eq.trans happended.mask_eq, happended.writable, ?_, fun other hother => ?_⟩
    · rw [hlogged.node_eq, happended.written, Option.map_some, Node.added_nil]
      show some (Node.added (if loc = loc then _ else _) _) = _
      rw [if_pos rfl]
    · rw [hlogged.node_eq, ← happended.others other hother]
      show Option.map (Node.added (if loc = other then _ else _)) _ = _
      rw [if_neg (Ne.symm hother), Node.map_added_nil]
  · obtain ⟨-, hok⟩ | ⟨path', hused, -⟩ := openFile_cases j.files c
    · cases hopen.symm.trans hok
      exact hlogged.files_eq rfl
    · cases (path?_eq_none_iff.2 hunused).symm.trans hused

/-- What a failed attempt to install a logger leaves. At most its file has been made, or opened in
vain. -/
structure Refused (j : Journal) (c : LoggerConfig) (e : Error) (after : Journal) : Prop where
  logger_eq : after.logger = j.logger
  limit_eq : after.limit = j.limit
  console_eq : after.console = j.console
  cause :
    (∃ path cause, c.path = some path ∧ c.file ≠ .off ∧
      j.files.openToWrite path 0o666 = .error cause ∧ e = .cannotOpen cause ∧ after = j) ∨
    e = .alreadyInstalled ∧ j.logger ≠ none ∧ (after.files = j.files ∨
      ∃ path loc, j.files.openToWrite path 0o666 = .ok (loc, after.files))

theorem refused_of_install {e : Error} (h : j.install c = (.error e, j')) : Refused j c e j' := by
  obtain ⟨cause, hopen, rfl, rfl⟩ | ⟨file, opened, hopen, hlogger, rfl, rfl⟩ :=
    install_eq_error_iff.1 h
  · obtain ⟨-, hok⟩ | ⟨path, hused, ⟨cause', hwrite, herror⟩ | ⟨loc, opened, -, hok⟩⟩ :=
      openFile_cases j'.files c
    · cases hopen.symm.trans hok
    · cases hopen.symm.trans herror
      obtain ⟨hpath, hfile⟩ := path?_eq_some_iff.1 hused
      exact ⟨rfl, rfl, rfl, .inl ⟨path, cause, hpath, hfile, hwrite, rfl, rfl⟩⟩
    · cases hopen.symm.trans hok
  · obtain ⟨-, hok⟩ | ⟨path, hused, ⟨cause, -, herror⟩ | ⟨loc, opened', hwrite, hok⟩⟩ :=
      openFile_cases j.files c
    · cases hopen.symm.trans hok
      exact ⟨rfl, rfl, rfl, .inr ⟨rfl, hlogger, .inl rfl⟩⟩
    · cases hopen.symm.trans herror
    · cases hopen.symm.trans hok
      exact ⟨rfl, rfl, rfl, .inr ⟨rfl, hlogger, .inr ⟨path, loc, hwrite⟩⟩⟩

theorem Refused.inForce {e : Error} (h : Refused j c e j') (hj : j.InForce) : j'.InForce := by
  rw [InForce, h.limit_eq, h.logger_eq]
  exact hj

theorem InForce.install (h : j.InForce) (c : LoggerConfig) : (j.install c).2.InForce := by
  rcases hinstall : j.install c with ⟨result, after⟩
  cases result with
  | ok _ =>
    obtain ⟨-, file, opened, -, rfl⟩ := install_eq_ok_iff.1 hinstall
    rfl
  | error e => exact (refused_of_install hinstall).inForce h

/-- No node is changed by an attempt that fails. -/
theorem Refused.kept {e : Error} (h : Refused j c e j') {loc : Location} {node : Node}
    (hnode : j.files.tree.node? loc = some node) : j'.files.tree.node? loc = some node := by
  rcases h.cause with ⟨_, _, -, -, -, -, rfl⟩ | ⟨-, -, heq | ⟨path, opened, hopen⟩⟩
  · exact hnode
  · rw [heq, hnode]
  · have happended := Files.appended_openToWrite hopen
    by_cases hloc : loc = opened
    · rw [hloc, happended.written, ← hloc, hnode, Node.added_nil]
      rfl
    · rw [happended.others loc hloc, hnode]

/-- A logger is installed if there is none yet and its file, if it writes to one, can be opened. -/
theorem exists_install_eq_ok_iff (j : Journal) (c : LoggerConfig) :
    (∃ after, j.install c = (.ok (), after)) ↔
      j.logger = none ∧ ∀ path ∈ c.path?, ∃ opened, j.files.openToWrite path 0o666 = .ok opened := by
  constructor
  · rintro ⟨after, h⟩
    obtain ⟨hnone, file, opened, hopen, -⟩ := install_eq_ok_iff.1 h
    refine ⟨hnone, fun path hpath => ?_⟩
    obtain ⟨hunused, -⟩ | ⟨path', hused, hcases⟩ := openFile_cases j.files c
    · cases hunused.symm.trans hpath
    cases hused.symm.trans hpath
    obtain ⟨cause, -, herror⟩ | ⟨loc, opened', hwrite, -⟩ := hcases
    · cases hopen.symm.trans herror
    · exact ⟨_, hwrite⟩
  · rintro ⟨hnone, hpaths⟩
    obtain ⟨-, hopen⟩ | ⟨path, hused, hcases⟩ := openFile_cases j.files c
    · exact ⟨_, install_eq_ok_iff.2 ⟨hnone, _, _, hopen, rfl⟩⟩
    obtain ⟨cause, herror, -⟩ | ⟨loc, opened, -, hopen⟩ := hcases
    · obtain ⟨opened, hwrite⟩ := hpaths path hused
      cases hwrite.symm.trans herror
    · exact ⟨_, install_eq_ok_iff.2 ⟨hnone, _, _, hopen, rfl⟩⟩

/-- The file of a logger does not depend on what is asked for the console. -/
theorem BothSinks.node?_eq {c' : LoggerConfig} (h : BothSinks j c records j')
    (h' : BothSinks j c' records j'') (hpath : c'.path = c.path) (hfile : c'.file = c.file)
    (loc : Location) : j''.files.tree.node? loc = j'.files.tree.node? loc := by
  by_cases hunused : c.path = none ∨ c.file = .off
  · rw [h.noFile hunused, h'.noFile (by rwa [hpath, hfile])]
  · rw [not_or] at hunused
    obtain ⟨path, hsome⟩ := Option.ne_none_iff_exists'.1 hunused.1
    obtain ⟨there, opened, hopen, happended⟩ := h.file path hsome hunused.2
    obtain ⟨there', opened', hopen', happended'⟩ :=
      h'.file path (hpath.trans hsome) (hfile ▸ hunused.2)
    cases hopen.symm.trans hopen'
    by_cases hloc : loc = there
    · rw [hloc, happended.written, happended'.written, hfile]
    · rw [happended.others loc hloc, happended'.others loc hloc]

/-- What is logged after a failed attempt shows as if the attempt had not been made. -/
theorem Refused.recordAll {e : Error} (h : Refused j c e j') (hj : j.InForce)
    (records : List (Level × String)) :
    (j'.recordAll records).console = (j.recordAll records).console ∧
      ∀ loc node, j.files.tree.node? loc = some node →
        (j'.recordAll records).files.tree.node? loc =
          (j.recordAll records).files.tree.node? loc := by
  have hlogged := logged_recordAll hj records
  have hlogged' := logged_recordAll (h.inForce hj) records
  have hlog : j'.logFile? = j.logFile? := by
    rw [logFile?, h.logger_eq]
    rfl
  refine ⟨?_, fun loc node hnode => ?_⟩
  · rw [hlogged.console_eq, hlogged'.console_eq, h.logger_eq, h.console_eq]
  · rw [hlogged.node_eq, hlogged'.node_eq, hlog, hnode, h.kept hnode]

/-- Each sink gets the records of its own threshold, in order, and is not touched by what is asked
for the other. A logger that is not installed leaves the one before it in force. -/
theorem sinks_apart (j : Journal) (c : LoggerConfig) (records : List (Level × String)) :
    ((∃ after, j.install c = (.ok (), after)) ↔
      j.logger = none ∧
        ∀ path ∈ c.path?, ∃ opened, j.files.openToWrite path 0o666 = .ok opened) ∧
    (∀ after, j.install c = (.ok (), after) →
      BothSinks j c records (after.recordAll records)) ∧
    (∀ c' after after', j.install c = (.ok (), after) → j.install c' = (.ok (), after') →
      (c'.console = c.console →
        (after'.recordAll records).console = (after.recordAll records).console) ∧
      (c'.path = c.path → c'.file = c.file → ∀ loc,
        (after'.recordAll records).files.tree.node? loc =
          (after.recordAll records).files.tree.node? loc)) ∧
    ∀ e after, j.install c = (.error e, after) →
      Refused j c e after ∧
        (j.InForce →
          (after.recordAll records).console = (j.recordAll records).console ∧
          ∀ loc node, j.files.tree.node? loc = some node →
            (after.recordAll records).files.tree.node? loc =
              (j.recordAll records).files.tree.node? loc) := by
  refine ⟨exists_install_eq_ok_iff j c, fun after h => bothSinks_recordAll h records,
    fun c' after after' h h' => ?_, fun e after h => ?_⟩
  · have hsinks := bothSinks_recordAll h records
    have hsinks' := bothSinks_recordAll h' records
    refine ⟨fun hconsole => ?_, hsinks.node?_eq hsinks'⟩
    rw [hsinks.console, hsinks'.console, hconsole]
  · have hrefused := refused_of_install h
    exact ⟨hrefused, fun hj => hrefused.recordAll hj records⟩

/-- A tree with a log file that holds a line. -/
def usedFiles : Files :=
  ⟨⟨[([Octets.ofString "boot.log"], .file 0o644 (.ofString "before\n"))]⟩, [], 0⟩

/-- A file that gets more than the console does, and a second logger that comes too late. -/
theorem sinks_apart_second_logger :
    let c : LoggerConfig := ⟨.upTo .warn, .upTo .info, some (.ofString "boot.log")⟩
    let silent : LoggerConfig := ⟨.off, .off, none⟩
    let records := [(.info, "up"), (.debug, "lost"), (.error, "down\nagain")]
    ∃ after, (start usedFiles).install c = (.ok (), after) ∧
      let last := after.recordAll records
      last.console = .ofString "\x1b[31m[ERROR]\x1b[0m down\nagain\n" ∧
      last.files.tree.node? [.ofString "boot.log"] =
        some (.file 0o644 (.ofString "before\n[ INFO] up\n[ERROR] down\nagain\n")) ∧
      ∃ late, after.install silent = (.error .alreadyInstalled, late) ∧
        late.logger = after.logger ∧ (late.recordAll records).console = last.console := by
  intro c silent records
  have hplace : usedFiles.tree.walkToParent (usedFiles.allows .pass) Tree.maxLinks
      (Tree.origin [] (.ofString "boot.log")) (Path.ofString "boot.log").components =
        .ok ⟨[], .ofString "boot.log", 40⟩ := by
    cbv
  have hwalk : usedFiles.tree.walkToFile (usedFiles.allows .pass) Tree.maxLinks []
      (.ofString "boot.log") = .ok [.ofString "boot.log"] :=
    Tree.walkToFile_of_place hplace (by decide) (by decide) rfl rfl
  have hopen : usedFiles.openToWrite (.ofString "boot.log") 0o666 =
      .ok ([.ofString "boot.log"], usedFiles) := by
    have hcheck : Files.checkPath (.ofString "boot.log") = .ok () := by decide
    rw [Files.openToWrite, hcheck, show usedFiles.workdir = [] from rfl, hwalk]
    rfl
  obtain ⟨hpossible, hsinks, -, -⟩ := sinks_apart (start usedFiles) c records
  obtain ⟨after, hafter⟩ := hpossible.2 ⟨rfl, fun path hpath => by cases hpath; exact ⟨_, hopen⟩⟩
  obtain ⟨hconsole, hfile, -⟩ := hsinks after hafter
  have hused : c.file ≠ .off := by
    intro h
    cases h
  obtain ⟨there, opened, hopened, happended⟩ := hfile _ rfl hused
  cases hopen.symm.trans hopened
  have hlate : after.InForce ∧ after.install silent = (.error .alreadyInstalled, after) := by
    obtain ⟨-, file, opened, -, rfl⟩ := install_eq_ok_iff.1 hafter
    exact ⟨rfl, rfl⟩
  obtain ⟨-, -, -, hfailed⟩ := sinks_apart after silent records
  obtain ⟨hrefused, hlater⟩ := hfailed _ _ hlate.2
  exact ⟨after, hafter, hconsole.trans (by decide), happended.written.trans (by decide), after,
    hlate.2, hrefused.logger_eq, (hlater hlate.1).1⟩

end Journal
end BootSequence
