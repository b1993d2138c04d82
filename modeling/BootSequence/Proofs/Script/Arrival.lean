import BootSequence.Proofs.Script.Lines
import BootSequence.Proofs.Source

/-!
Scripts that arrive piece by piece. All that a run makes of its source are the lines that it reads
(`runSource_eq`), so that it goes like the run over the octets alone, up to the first failure. A
failure stops it behind the last line that was ended (`runSource_asArrived`).
-/

namespace BootSequence

/-! ## Ended lines -/

namespace Octets

/-- The lines that are ended, with what ends them. -/
def terminated (o : Octets) : Octets := o.rdropWhile (· ≠ newline)

theorem terminated_of_not_mem {o : Octets} (h : newline ∉ o) : o.terminated = [] := by
  rw [terminated, List.rdropWhile_eq_nil_iff]
  exact fun b hb => decide_eq_true fun he => h (he ▸ hb)

theorem terminated_append_newline (body rest : Octets) :
    terminated (body ++ newline :: rest) = body ++ newline :: rest.terminated := by
  have hdrop : (rest.reverse ++ newline :: body.reverse).dropWhile (· ≠ newline) =
      rest.reverse.dropWhile (· ≠ newline) ++ newline :: body.reverse := by
    rw [List.dropWhile_append]
    split
    · rename_i hnil
      rw [List.isEmpty_iff.1 hnil]
      rfl
    · rfl
  rw [terminated, terminated, List.rdropWhile, List.reverse_append, List.reverse_cons,
    List.append_assoc, List.singleton_append, hdrop, List.reverse_append, List.reverse_cons,
    List.reverse_reverse, List.append_assoc]
  rfl

end Octets

namespace Interpreter

open Script Delivery

variable {σ : Type} (i : Interpreter σ) (path : Path) (log : Option LogFile)

/-- The readings of its feed are all that a run makes of a source. -/
theorem runSource_eq (s : Source) (number : Nat) :
    i.runReader path s number = (do
      let report ← i.runEach path number (Feed.linesBefore s.feed.readings)
      return (report.result path (number + (Feed.linesBefore s.feed.readings).length)
        (Feed.failure? s.feed.readings), s.leftover)) := by
  funext log w
  obtain ⟨lines, failure, left, hreads⟩ := exists_reads (i.countLine path number) log w {} s
  obtain ⟨rfl, rfl, -⟩ := hreads.eq_of_readsAs (I := fun _ => True)
    (fun w _ => Source.readsAs w.files) (fun _ _ _ _ => trivial) trivial rfl
  rw [i.runReader_of_reads path log hreads, Source.left_eq_leftover hreads]
  simp only [Action.bind_apply, Action.pure_apply, List.append_nil]

/-- Before a failure the ended lines are read, as if they were all. -/
theorem readings_failure (o : Octets) (e : Errno) (rest : Feed) :
    let readings := Feed.readings (Feed.ofOctets o ++ .failure e :: rest)
    Feed.linesBefore readings = Feed.linesRead o.terminated ∧ Feed.failure? readings = some e ∧
      (Feed.linesRead o.terminated).length = o.count Octets.newline := by
  induction o using lineInduction Octets.newline with
  | last o h =>
    rw [Feed.readings_failure h, Octets.terminated_of_not_mem h, List.count_eq_zero_of_not_mem h]
    exact ⟨rfl, rfl, rfl⟩
  | line body more h ih =>
    obtain ⟨hlines, hfailure, hlength⟩ := ih
    have hfeed : Feed.ofOctets (body ++ Octets.newline :: more) ++ .failure e :: rest =
        Feed.ofOctets body ++
          .octet Octets.newline :: (Feed.ofOctets more ++ .failure e :: rest) := by
      simp [Feed.ofOctets]
    rw [hfeed, Feed.readings_line h, Octets.terminated_append_newline, Feed.linesRead_append h,
      List.count_append, List.count_eq_zero_of_not_mem h, List.count_cons_self, List.length_cons,
      hlength, Nat.zero_add]
    exact ⟨congrArg _ hlines, hfailure, rfl⟩

/-- A run over a source, told by the octets that arrive. -/
structure AsArrived (ds : List Delivery) (w : World σ)
    (run : Ran σ (Except Error Report × Source)) : Prop where
  /-- Nothing fails, or there is a first failure. -/
  decided : broken ds = [] ∨ ∃ e after, e ≠ .interrupted ∧ broken ds = .failure e :: after
  /-- If nothing fails, it is the run over the octets. -/
  ended : broken ds = [] →
    let plain := i.runFeed path (Feed.ofOctets (arrived ds)) log w
    run = ⟨(plain.value.result, .ended), plain.trace, plain.world⟩
  /-- At a failure the ended lines have been run and no others, and they are the lines that are
  reported; what is behind it is still to be read. -/
  failed : ∀ e after, broken ds = .failure e :: after →
    let plain := i.runFeed path (Feed.ofOctets (arrived ds).terminated) log w
    run = ⟨(.error (.cannotRead path ((arrived ds).count Octets.newline) (.numbered e)),
      .ofDeliveries after), plain.trace, plain.world⟩
  /-- It is also the run over what its reader notices. -/
  feed : let fed := i.runFeed path (Feed.ofDeliveries ds) log w
    run.value.1 = fed.value.result ∧ run.trace = fed.trace ∧ run.world = fed.world

/-- However a script arrives, its run depends only on the octets before the first failure, and on
that failure: not on where chunks are cut, nor on where reading is interrupted. -/
theorem runSource_asArrived (ds : List Delivery) (w : World σ) :
    AsArrived i path log ds w (i.runReader path (Source.ofDeliveries ds) 0 log w) := by
  have hrun : i.runReader path (Source.ofDeliveries ds) 0 log w =
      let fed := i.runFeed path (Feed.ofDeliveries ds) log w
      ⟨(fed.value.result, (Source.ofDeliveries ds).leftover), fed.trace, fed.world⟩ := by
    rw [runSource_eq, Source.feed_ofDeliveries,
      i.runFeed_eq path (Feed.uninterrupted_ofDeliveries ds), Nat.zero_add]
    rfl
  rw [hrun]
  refine ⟨broken_cases ds, fun hend => ?_, fun e after hfailure => ?_, rfl, rfl, rfl⟩
  · obtain ⟨hfeed, hleft⟩ := Source.feed_of_ended (s := .ofDeliveries ds) hend
    rw [Source.feed_ofDeliveries] at hfeed
    rw [hleft, hfeed]
    rfl
  · obtain ⟨-, hfeed, hleft⟩ := Source.feed_of_failure (s := .ofDeliveries ds) hfailure
    rw [Source.feed_ofDeliveries] at hfeed
    obtain ⟨hlines, hfailed, hlength⟩ := readings_failure (arrived ds) e (Feed.ofDeliveries after)
    rw [show (Source.ofDeliveries ds).plain = arrived ds from rfl] at hfeed
    have hquiet := hfeed ▸ Feed.uninterrupted_ofDeliveries ds
    rw [hleft, hfeed, i.runFeed_eq path hquiet, hlines, hfailed, hlength, runFeed_eq_runEach]
    simp only [Action.bind_apply, Action.pure_apply, List.append_nil]
    rfl

end Interpreter
end BootSequence
