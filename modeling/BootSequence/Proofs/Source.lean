import BootSequence.Proofs.Reader
import BootSequence.Source

/-!
What is read of a source. Seen from its reader a source is the octets that arrive before its first
failure, and what is behind them: how the octets come in chunks, and where reading is interrupted
among them, is not to be seen (`readLine_eq`). So its lines are the readings of its feed
(`readings_feed`, `readsAs`).
-/

namespace BootSequence

/-! ## The first line of a text -/

namespace OpenFile

theorem line?_eq_none {o : Octets} (h : Octets.newline ∉ o) : line? o = none := by
  induction o with
  | nil => rfl
  | cons b o ih =>
    obtain ⟨hb, ho⟩ := List.ne_and_not_mem_of_not_mem_cons h
    rw [line?, if_neg hb.symm, ih ho]
    rfl

theorem line?_append_newline {body : Octets} (h : Octets.newline ∉ body) (rest : Octets) :
    line? (body ++ Octets.newline :: rest) = some (body ++ [Octets.newline], rest) := by
  induction body with
  | nil => rfl
  | cons b body ih =>
    obtain ⟨hb, hbody⟩ := List.ne_and_not_mem_of_not_mem_cons h
    rw [List.cons_append, line?, if_neg hb.symm, ih hbody]
    rfl

/-- Octets that end no line belong to the line that the next ones end. -/
theorem line?_append_of_none {o : Octets} (h : line? o = none) (more : Octets) :
    line? (o ++ more) = (line? more).map fun x => (o ++ x.1, x.2) := by
  induction o with
  | nil => simp
  | cons b o ih =>
    by_cases hb : b = Octets.newline
    · simp [line?, hb] at h
    · simp only [line?, hb, if_false, Option.map_eq_none_iff] at h
      rw [List.cons_append, line?, if_neg hb, ih h, Option.map_map]
      rfl

theorem line?_append_of_some {o line rest : Octets} (h : line? o = some (line, rest))
    (more : Octets) : line? (o ++ more) = some (line, rest ++ more) := by
  induction o generalizing line with
  | nil => cases h
  | cons b o ih =>
    by_cases hb : b = Octets.newline
    · rw [line?, if_pos hb] at h
      cases h
      rw [List.cons_append, line?, if_pos hb]
    · rw [line?, if_neg hb] at h
      obtain ⟨⟨start, rest'⟩, hstart, hx⟩ := Option.map_eq_some_iff.1 h
      cases hx
      rw [List.cons_append, line?, if_neg hb, ih hstart]
      rfl

end OpenFile

/-! ## What arrives -/

namespace Delivery

/-- No failure: an interrupted read is tried again. -/
def isQuiet : Delivery → Bool
  | data _ | interruption => true
  | failure e => e = .interrupted

def octets : Delivery → Octets
  | data o => o
  | interruption | failure _ => []

/-- The octets that arrive before the first failure. -/
def arrived (ds : List Delivery) : Octets := (ds.takeWhile isQuiet).flatMap octets

/-- The first failure, and all that comes behind it. -/
def broken (ds : List Delivery) : List Delivery := ds.dropWhile isQuiet

theorem arrived_cons_of_quiet {d : Delivery} (h : d.isQuiet = true) (ds : List Delivery) :
    arrived (d :: ds) = d.octets ++ arrived ds := by
  rw [arrived, List.takeWhile_cons_of_pos h, List.flatMap_cons]
  rfl

theorem broken_cons_of_quiet {d : Delivery} (h : d.isQuiet = true) (ds : List Delivery) :
    broken (d :: ds) = broken ds := List.dropWhile_cons_of_pos h

/-- Nothing is behind the octets, or a failure is that ends the reading. -/
theorem broken_cases (ds : List Delivery) :
    broken ds = [] ∨ ∃ e after, e ≠ .interrupted ∧ broken ds = .failure e :: after := by
  cases h : broken ds with
  | nil => exact .inl rfl
  | cons d after =>
    have hhead := List.head?_dropWhile_not isQuiet ds
    have hd : ¬d.isQuiet = true := by
      rw [show ds.dropWhile isQuiet = d :: after from h] at hhead
      simpa using hhead
    cases d with
    | data o => exact absurd rfl hd
    | interruption => exact absurd rfl hd
    | failure e => exact .inr ⟨e, after, fun he => hd (decide_eq_true he), rfl⟩

theorem signals_of_quiet {d : Delivery} (h : d.isQuiet = true) :
    d.signals = Feed.ofOctets d.octets := by
  cases d with
  | data o => rfl
  | interruption => rfl
  | failure e =>
    have he : e = .interrupted := of_decide_eq_true h
    rw [signals, if_pos he]
    rfl

end Delivery

namespace Source

open Delivery

/-- The octets that are read before the first failure. -/
def plain (s : Source) : Octets := s.buffer ++ arrived s.coming

/-- What is behind them. -/
def behind (s : Source) : List Delivery := broken s.coming

/-- What answers come to is nothing but octets, until one of them fails. -/
theorem await_eq (ds : List Delivery) :
    match await ds with
    | (.ok o, coming) =>
      arrived ds = o ++ arrived coming ∧ broken ds = broken coming ∧ (o = [] → coming = [])
    | (.error e, coming) =>
      if e = .interrupted then arrived ds = arrived coming ∧ broken ds = broken coming
      else arrived ds = [] ∧ broken ds = .failure e :: coming := by
  induction ds with
  | nil => exact ⟨rfl, rfl, fun _ => rfl⟩
  | cons d ds ih =>
    cases d with
    | data o =>
      rw [arrived_cons_of_quiet rfl, broken_cons_of_quiet rfl]
      by_cases ho : o = []
      · subst ho
        exact ih
      · rw [await, if_neg ho]
        exact ⟨rfl, rfl, fun h => absurd h ho⟩
    | interruption =>
      rw [arrived_cons_of_quiet rfl, broken_cons_of_quiet rfl]
      exact ⟨rfl, rfl⟩
    | failure e =>
      by_cases he : e = .interrupted
      · subst he
        rw [arrived_cons_of_quiet rfl, broken_cons_of_quiet rfl]
        exact ⟨rfl, rfl⟩
      · have hquiet : ¬(Delivery.failure e).isQuiet = true := fun h => he (of_decide_eq_true h)
        simp only [await, if_neg he]
        exact ⟨by rw [arrived, List.takeWhile_cons_of_neg hquiet]; rfl,
          List.dropWhile_cons_of_neg hquiet⟩

theorem ready_eq (s : Source) :
    match s.ready with
    | (.ok o, coming) =>
      s.plain = o ++ arrived coming ∧ s.behind = broken coming ∧ (o = [] → coming = [])
    | (.error e, coming) =>
      if e = .interrupted then s.plain = arrived coming ∧ s.behind = broken coming
      else s.plain = [] ∧ s.behind = .failure e :: coming := by
  obtain ⟨buffer, coming⟩ := s
  by_cases hb : buffer = []
  · subst hb
    exact await_eq coming
  · rw [ready, if_neg hb]
    exact ⟨rfl, rfl, fun h => absurd h hb⟩

/-- A line is read as far as the first newline of the octets before a failure. If they have none the
failure is met, and all that is behind it is left; if there is no failure either, the source has
ended. -/
theorem readLine_eq (s : Source) (started : Octets) :
    match OpenFile.line? s.plain with
    | some (line, rest) => ∃ left, s.readLine started = (.ok (started ++ line), left) ∧
        left.plain = rest ∧ left.behind = s.behind
    | none => s.readLine started = match s.behind with
        | .failure e :: after => (.error e, ⟨[], after⟩)
        | _ => (.ok (started ++ s.plain), ended) := by
  fun_induction readLine s started with
  | case1 s started coming h ih =>
    -- Interrupted: what has arrived and what is behind it are as before.
    have hready := s.ready_eq
    rw [h] at hready
    obtain ⟨hplain, hbehind⟩ := hready
    rw [hplain, hbehind]
    exact ih
  | case2 s started e coming h he =>
    -- Failed: nothing had arrived any more.
    have hready := s.ready_eq
    rw [h] at hready
    obtain ⟨hplain, hbehind⟩ := (if_neg he).mp hready
    rw [hplain, hbehind]
    rfl
  | case3 s started coming h =>
    have hready := s.ready_eq
    rw [h] at hready
    obtain ⟨hplain, hbehind, hcoming⟩ := hready
    rw [hplain, hbehind, hcoming rfl]
    show (Except.ok started, (⟨[], []⟩ : Source)) = (.ok (started ++ []), ended)
    rw [List.append_nil]
    rfl
  | case4 s started octets coming h ho hline ih =>
    -- The chunk ends no line, and goes in front of the one that the next chunks end.
    have hready := s.ready_eq
    rw [h] at hready
    obtain ⟨hplain, hbehind, -⟩ := hready
    have hnext : plain ⟨[], coming⟩ = arrived coming := rfl
    rw [hplain, hbehind, OpenFile.line?_append_of_none hline]
    rw [hnext] at ih
    cases harrived : OpenFile.line? (arrived coming) with
    | none =>
      rw [harrived] at ih
      simp only [Option.map_none]
      rw [← List.append_assoc]
      exact ih
    | some x =>
      obtain ⟨line, rest⟩ := x
      rw [harrived] at ih
      simp only [Option.map_some]
      rw [← List.append_assoc]
      exact ih
  | case5 s started octets coming h ho line rest hline =>
    have hready := s.ready_eq
    rw [h] at hready
    obtain ⟨hplain, hbehind, -⟩ := hready
    rw [hplain, OpenFile.line?_append_of_some hline]
    exact ⟨_, rfl, rfl, hbehind.symm⟩

/-! ## Its lines -/

/-- What a reader notices of a source. -/
def feed (s : Source) : Feed := Feed.ofOctets s.plain ++ Feed.ofDeliveries s.behind

/-- The source behind its first failure, or at its end. -/
def leftover (s : Source) : Source :=
  match s.behind with
  | .failure _ :: after => .ofDeliveries after
  | _ => ended

theorem feed_ofDeliveries (ds : List Delivery) :
    (Source.ofDeliveries ds).feed = Feed.ofDeliveries ds := by
  have hquiet : ∀ ds : List Delivery, (∀ d ∈ ds, d.isQuiet = true) →
      Feed.ofDeliveries ds = Feed.ofOctets (ds.flatMap octets) := by
    intro ds hds
    rw [Feed.ofDeliveries, Feed.ofOctets, List.map_flatMap]
    exact List.flatMap_congr fun d hd => signals_of_quiet (hds d hd)
  have hcut : Feed.ofDeliveries ds =
      Feed.ofDeliveries (ds.takeWhile isQuiet) ++ Feed.ofDeliveries (broken ds) := by
    rw [Feed.ofDeliveries, Feed.ofDeliveries, Feed.ofDeliveries, ← List.flatMap_append, broken,
      List.takeWhile_append_dropWhile]
  rw [hcut, hquiet _ fun d hd => List.mem_takeWhile_imp hd]
  rfl

theorem feed_of_ended {s : Source} (h : s.behind = []) :
    s.feed = Feed.ofOctets s.plain ∧ s.leftover = ended := by
  rw [feed, leftover, h]
  exact ⟨List.append_nil _, rfl⟩

theorem feed_of_failure {s : Source} {e : Errno} {after : List Delivery}
    (h : s.behind = .failure e :: after) :
    e ≠ .interrupted ∧ s.feed = Feed.ofOctets s.plain ++ .failure e :: Feed.ofDeliveries after ∧
      s.leftover = .ofDeliveries after := by
  have he : e ≠ .interrupted := by
    rcases broken_cases s.coming with hend | ⟨e', after', he', hfailure⟩
    · cases h.symm.trans hend
    · cases h.symm.trans hfailure
      exact he'
  refine ⟨he, ?_, by rw [leftover, h]⟩
  rw [feed, h, Feed.ofDeliveries, List.flatMap_cons, signals, if_neg he]
  rfl

/-- So the next reading of its feed is what is read of a source, and the others are those of what is
left. A reading is never interrupted. -/
theorem readings_feed (s : Source) :
    match s.readLine [] with
    | (.error e, left) => e ≠ .interrupted ∧ left = s.leftover ∧
        s.feed.readings = ⟨.failure e, left.feed⟩ :: left.feed.readings
    | (.ok line, left) => left.leftover = s.leftover ∧
        if line = [] then left = ended ∧ s.feed.readings = []
        else s.feed.readings = ⟨.line line, left.feed⟩ :: left.feed.readings := by
  have hread := s.readLine_eq []
  -- Either a line ends among the octets that have arrived, or they are used up.
  by_cases hmem : Octets.newline ∈ s.plain
  · obtain ⟨body, rest, hplain, hbody⟩ := List.eq_append_cons_of_mem hmem
    rw [hplain, OpenFile.line?_append_newline hbody] at hread
    obtain ⟨left, hleft, hrest, hbehind⟩ := hread
    have hfeed : s.feed = Feed.ofOctets body ++ .octet Octets.newline :: left.feed := by
      rw [feed, feed, hplain, hrest, hbehind]
      simp [Feed.ofOctets]
    rw [hleft]
    refine ⟨by rw [leftover, leftover, hbehind], ?_⟩
    rw [if_neg (by simp), hfeed]
    exact Feed.readings_line hbody left.feed
  · rw [OpenFile.line?_eq_none hmem] at hread
    rcases broken_cases s.coming with hend | ⟨e, after, -, hfailure⟩
    · have hbehind : s.behind = [] := hend
      obtain ⟨hfeed, hleft⟩ := feed_of_ended hbehind
      rw [hbehind] at hread
      rw [hread, hfeed, Feed.readings_last hmem]
      refine ⟨hleft.symm, ?_⟩
      by_cases hplain : s.plain = []
      · rw [if_pos (by rw [hplain]; rfl), if_pos hplain]
        exact ⟨rfl, rfl⟩
      · rw [if_neg (by rwa [List.nil_append]), if_neg hplain]
        rfl
    · have hbehind : s.behind = .failure e :: after := hfailure
      obtain ⟨he, hfeed, hleft⟩ := feed_of_failure hbehind
      rw [hbehind] at hread
      rw [hread]
      refine ⟨he, hleft.symm, ?_⟩
      show _ = ⟨.failure e, (Source.ofDeliveries after).feed⟩ ::
        (Source.ofDeliveries after).feed.readings
      rw [hfeed, feed_ofDeliveries, Feed.readings_failure hmem]

section Readings

variable {s left : Source}

theorem readings_of_failure {e : Errno} (h : s.readLine [] = (.error e, left)) :
    e ≠ .interrupted ∧ left = s.leftover ∧
      s.feed.readings = ⟨.failure e, left.feed⟩ :: left.feed.readings := by
  have hread := s.readings_feed
  rwa [h] at hread

theorem readings_of_line {line : Octets} (h : s.readLine [] = (.ok line, left)) (hne : line ≠ []) :
    left.leftover = s.leftover ∧
      s.feed.readings = ⟨.line line, left.feed⟩ :: left.feed.readings := by
  have hread := s.readings_feed
  rw [h] at hread
  exact ⟨hread.1, (if_neg hne).mp hread.2⟩

theorem readings_of_end (h : s.readLine [] = (.ok [], left)) :
    left = ended ∧ left = s.leftover ∧ s.feed.readings = [] := by
  have hread := s.readings_feed
  rw [h] at hread
  obtain ⟨hleft, rfl, hfeed⟩ := hread
  exact ⟨rfl, hleft, hfeed⟩

end Readings

/-- A source is read like its feed. -/
theorem readsAs (f : Files) : ReadsAs f fun (s : Source) feed => s.feed = feed where
  ended := by
    rintro s left _ rfl hread
    obtain ⟨rfl, -, hfeed⟩ := readings_of_end hread
    exact ⟨hfeed, rfl⟩
  failed := by
    rintro s left _ e rfl hread
    obtain ⟨he, -, hfeed⟩ := readings_of_failure hread
    exact ⟨he, _, hfeed, rfl⟩
  line := by
    rintro s left _ line rfl hread hne
    exact ⟨_, (readings_of_line hread hne).2, rfl⟩

theorem left_eq_leftover {σ α : Type} {step : α → Octets → Action σ α} {log : Option LogFile}
    {w : World σ} {a : α} {s left : Source} {lines : List Octets} {failure : Option Errno}
    (h : Reads step log w a s lines failure left) : left = s.leftover := by
  induction h with
  | ended read => exact (readings_of_end read).2.1
  | failed read => exact (readings_of_failure read).2.1
  | interrupted read => exact absurd rfl (readings_of_failure read).1
  | line read some more ih => exact ih.trans (readings_of_line read some).1

end Source
end BootSequence
