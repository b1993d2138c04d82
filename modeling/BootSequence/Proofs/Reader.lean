import BootSequence.Action
import BootSequence.Proofs.Text.Lines
import BootSequence.Reader

/-!
Loops over lines. What is done for a line may change what is read next, so that the lines of a loop
are told along the way (`Reads`), and the loop is what is done for one of them after another
(`foldAll_of_reads`). A reader that is read like a feed as long as some condition holds gives the
readings of that feed (`Reads.eq_of_readsAs`).
-/

namespace BootSequence

open Reader (readLine foldLines foldAll)

variable {σ ρ α ε : Type} [Reader ρ]

/-! ## One turn of the loop -/

namespace Reader

theorem foldLines_eq {m : Type → Type} [Monad m] (files : m Files)
    (line : α → Octets → m (Except ε α)) (failed : α → Errno → ε) (reader : ρ) (a : α) :
    foldLines files line failed reader a = (do
      match readLine reader (← files) with
      | (.error e, left) =>
        if e = .interrupted then foldLines files line failed left a
        else return (.error (failed a e), left)
      | (.ok octets, left) =>
        if octets = [] then return (.ok a, left)
        else
          match ← line a octets with
          | .error e => return (.error e, left)
          | .ok b => foldLines files line failed left b) := by
  rw [foldLines]
  refine congrArg (files >>= ·) (funext fun now => ?_)
  split <;> rename_i heq <;> exact heq ▸ rfl

section Turn

variable {line : α → Octets → Action σ (Except ε α)} {failed : α → Errno → ε} {reader left : ρ}
  {a : α} {log : Option LogFile} {w : World σ}

theorem foldLines_of_end (h : readLine reader w.files = (.ok [], left)) :
    foldLines Action.files line failed reader a log w = ⟨(.ok a, left), [], w⟩ := by
  rw [foldLines_eq, Action.files_bind, h]
  rfl

theorem foldLines_of_failure {e : Errno} (h : readLine reader w.files = (.error e, left))
    (he : e ≠ .interrupted) :
    foldLines Action.files line failed reader a log w = ⟨(.error (failed a e), left), [], w⟩ := by
  rw [foldLines_eq, Action.files_bind, h]
  exact congrFun (congrFun (if_neg he) log) w

theorem foldLines_of_interruption
    (h : readLine reader w.files = (.error .interrupted, left)) :
    foldLines Action.files line failed reader a log w =
      foldLines Action.files line failed left a log w := by
  rw [foldLines_eq, Action.files_bind, h]
  rfl

theorem foldLines_of_line {octets : Octets} (h : readLine reader w.files = (.ok octets, left))
    (hne : octets ≠ []) :
    foldLines Action.files line failed reader a log w = (do
      match ← line a octets with
      | .error e => return (.error e, left)
      | .ok b => foldLines Action.files line failed left b : Action σ (Except ε α × ρ)) log w := by
  rw [foldLines_eq, Action.files_bind, h]
  exact congrFun (congrFun (if_neg hne) log) w

end Turn
end Reader

/-! ## Line after line -/

/-- Lines are read one after another, until there are no more or a read fails. What is done for a
line comes to what the next one is worked through on top of, and leaves the world that it is read in.
-/
inductive Reads (step : α → Octets → Action σ α) (log : Option LogFile) :
    World σ → α → ρ → List Octets → Option Errno → ρ → Prop where
  | ended {w : World σ} {a : α} {reader left : ρ} (read : readLine reader w.files = (.ok [], left)) :
      Reads step log w a reader [] none left
  | failed {w : World σ} {a : α} {reader left : ρ} {e : Errno}
      (read : readLine reader w.files = (.error e, left)) (final : e ≠ .interrupted) :
      Reads step log w a reader [] (some e) left
  | interrupted {w : World σ} {a : α} {reader left last : ρ} {lines : List Octets}
      {failure : Option Errno} (read : readLine reader w.files = (.error .interrupted, left))
      (again : Reads step log w a left lines failure last) :
      Reads step log w a reader lines failure last
  | line {w : World σ} {a : α} {reader left last : ρ} {line : Octets} {lines : List Octets}
      {failure : Option Errno} (read : readLine reader w.files = (.ok line, left))
      (some : line ≠ [])
      (more : Reads step log (step a line log w).world (step a line log w).value left lines failure
        last) :
      Reads step log w a reader (line :: lines) failure last

section Reads

variable {step : α → Octets → Action σ α} {log : Option LogFile} {w : World σ} {a : α}
  {reader left : ρ} {lines : List Octets} {failure : Option Errno}

theorem exists_reads (step : α → Octets → Action σ α) (log : Option LogFile) (w : World σ) (a : α)
    (reader : ρ) : ∃ lines failure left, Reads step log w a reader lines failure left := by
  induction hn : Reader.size reader using Nat.strongRecOn generalizing w a reader with
  | ind n ih =>
    subst hn
    rcases hread : readLine reader w.files with ⟨read, left⟩
    cases read with
    | error e =>
      by_cases he : e = .interrupted
      · subst he
        obtain ⟨lines, failure, last, hagain⟩ := ih _ (Reader.size_interrupted hread) w a left rfl
        exact ⟨lines, failure, last, .interrupted hread hagain⟩
      · exact ⟨[], some e, left, .failed hread he⟩
    | ok line =>
      by_cases hne : line = []
      · subst hne
        exact ⟨[], none, left, .ended hread⟩
      · obtain ⟨lines, failure, last, hmore⟩ := ih _ (Reader.size_line hread hne)
          (step a line log w).world (step a line log w).value left rfl
        exact ⟨line :: lines, failure, last, .line hread hne hmore⟩

/-- The loop does for the lines that are read, one after another, what it does for one. -/
theorem foldAll_of_reads (h : Reads step log w a reader lines failure left)
    (failed : α → Errno → ε) :
    let all := lines.foldlM step a log w
    foldAll Action.files step failed reader a log w =
      ⟨(failure.elim (.ok all.value) fun e => .error (failed all.value e), left), all.trace,
        all.world⟩ := by
  unfold foldAll
  induction h with
  | ended read => exact Reader.foldLines_of_end read
  | failed read final => exact Reader.foldLines_of_failure read final
  | interrupted read again ih => exact (Reader.foldLines_of_interruption read).trans ih
  | line read some more ih =>
    rw [Reader.foldLines_of_line read some, List.foldlM_cons]
    simp only [Action.bind_apply, Action.pure_apply, List.append_nil, ih]

/-! ## Readers that are read like feeds -/

/-- As long as the files are these, a reader is read like the feed that it stands for. -/
structure ReadsAs (f : Files) (R : ρ → Feed → Prop) : Prop where
  ended : ∀ {reader left : ρ} {feed : Feed}, R reader feed → readLine reader f = (.ok [], left) →
    feed.readings = [] ∧ R left []
  failed : ∀ {reader left : ρ} {feed : Feed} {e : Errno}, R reader feed →
    readLine reader f = (.error e, left) → e ≠ .interrupted ∧
      ∃ unread, feed.readings = ⟨.failure e, unread⟩ :: unread.readings ∧ R left unread
  line : ∀ {reader left : ρ} {feed : Feed} {line : Octets}, R reader feed →
    readLine reader f = (.ok line, left) → line ≠ [] →
      ∃ unread, feed.readings = ⟨.line line, unread⟩ :: unread.readings ∧ R left unread

/-- If what is done for a line keeps a reader like a feed, the lines are those of the feed, and so is
what is left. -/
theorem Reads.eq_of_readsAs (h : Reads step log w a reader lines failure left)
    {R : ρ → Feed → Prop} {I : World σ → Prop} (hR : ∀ w, I w → ReadsAs w.files R)
    (hstep : ∀ a line w, I w → I (step a line log w).world) (hw : I w) {feed : Feed}
    (hfeed : R reader feed) :
    lines = Feed.linesBefore feed.readings ∧ failure = Feed.failure? feed.readings ∧
      R left (Feed.unreadBehind feed.readings) := by
  induction h generalizing feed with
  | ended read =>
    obtain ⟨hreadings, hleft⟩ := (hR _ hw).ended hfeed read
    rw [hreadings]
    exact ⟨rfl, rfl, hleft⟩
  | failed read final =>
    obtain ⟨-, unread, hreadings, hleft⟩ := (hR _ hw).failed hfeed read
    rw [hreadings]
    exact ⟨rfl, rfl, hleft⟩
  | interrupted read again ih => exact absurd rfl ((hR _ hw).failed hfeed read).1
  | line read some more ih =>
    obtain ⟨unread, hreadings, hleft⟩ := (hR _ hw).line hfeed read some
    obtain ⟨hlines, hfailure, hlast⟩ := ih (hstep _ _ _ hw) hleft
    rw [hreadings]
    exact ⟨congrArg _ hlines, hfailure, hlast⟩

end Reads

namespace Feed

/-- No read is interrupted. -/
def Uninterrupted (f : Feed) : Prop := .failure .interrupted ∉ f

theorem uninterrupted_ofOctets (o : Octets) : (ofOctets o).Uninterrupted := by
  intro h
  obtain ⟨b, -, hb⟩ := List.mem_map.1 h
  cases hb

theorem uninterrupted_ofDeliveries (ds : List Delivery) : (ofDeliveries ds).Uninterrupted := by
  intro h
  obtain ⟨d, -, hd⟩ := List.mem_flatMap.1 h
  cases d with
  | data o => exact uninterrupted_ofOctets o hd
  | interruption => cases hd
  | failure e =>
    rw [Delivery.signals] at hd
    split at hd
    · cases hd
    · obtain rfl := Signal.failure.inj (List.mem_singleton.1 hd)
      exact ‹¬Errno.interrupted = .interrupted› rfl

theorem subset_readLine (started : Octets) (f : Feed) :
    (f.readLine started).2 ⊆ f ∧
      ∀ e, (f.readLine started).1 = .error e → .failure e ∈ f := by
  induction f generalizing started with
  | nil =>
    refine ⟨List.Subset.refl _, fun e he => ?_⟩
    cases he
  | cons s f ih =>
    cases s with
    | failure e =>
      refine ⟨List.subset_cons_self _ _, fun e' he => ?_⟩
      obtain rfl := Except.error.inj he
      exact List.mem_cons_self
    | octet b =>
      rw [readLine]
      split
      · refine ⟨List.subset_cons_self _ _, fun e he => ?_⟩
        cases he
      · obtain ⟨hleft, hfailure⟩ := ih (b :: started)
        exact ⟨List.Subset.trans hleft (List.subset_cons_self _ _),
          fun e he => List.mem_cons_of_mem _ (hfailure e he)⟩

/-- A feed is read like itself if no read of it is interrupted. -/
theorem readsAs (f : Files) :
    ReadsAs f fun reader feed : Feed => reader = feed ∧ feed.Uninterrupted := by
  have hleft : ∀ {feed left : Feed} {read : Except Errno Octets}, feed.Uninterrupted →
      feed.readLine [] = (read, left) → left.Uninterrupted := by
    intro feed left read hquiet hread hmem
    have hsubset := (feed.subset_readLine []).1
    rw [hread] at hsubset
    exact hquiet (hsubset hmem)
  constructor
  · rintro feed left _ ⟨rfl, hquiet⟩ hread
    have hfirst := feed.readings_readLine []
    rw [show feed.readLine [] = _ from hread] at hfirst
    exact ⟨hfirst.1, hfirst.2, List.not_mem_nil⟩
  · rintro feed left _ e ⟨rfl, hquiet⟩ hread
    have hfirst := feed.readings_readLine []
    have hmem := (feed.subset_readLine []).2 e
    rw [show feed.readLine [] = _ from hread] at hfirst hmem
    exact ⟨fun he => hquiet (he ▸ hmem rfl), left, hfirst, rfl, hleft hquiet hread⟩
  · rintro feed left _ line ⟨rfl, hquiet⟩ hread hne
    have hfirst := feed.readings_readLine []
    rw [show feed.readLine [] = _ from hread] at hfirst
    exact ⟨left, (if_neg hne).mp hfirst, rfl, hleft hquiet hread⟩

end Feed
end BootSequence
