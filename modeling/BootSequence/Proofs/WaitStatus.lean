import BootSequence.Machine.Launcher
import BootSequence.Proofs.Harness.Cases
import BootSequence.Proofs.Script.Composition

/-!
What wait statuses come to. A script goes by the end of a child, and a test list by its code, in
which a signal is an exit like others; yet both judge by the same two fields of a status, its low
seven bits and the octet above the lowest (`judgements_agree`). No other bit counts, and no child
that was killed, stopped or continued ever counts as one that did well.
-/

namespace BootSequence
namespace WaitStatus

/-! ## Fields -/

/-- The low seven bits. -/
def low (s : WaitStatus) : BitVec 7 := s.extractLsb' 0 7

/-- Bits 8 to 15. -/
def exitBits (s : WaitStatus) : BitVec 8 := s.extractLsb' 8 8

/-- A mask of ones keeps the lowest bits. -/
theorem and_mask (x : BitVec 32) (n : Nat) :
    x &&& BitVec.ofNat 32 (2 ^ n - 1) = (x.extractLsb' 0 n).setWidth 32 := by
  apply BitVec.eq_of_getLsbD_eq
  intro i hi
  simp only [BitVec.getLsbD_and, BitVec.getLsbD_ofNat, hi, Nat.testBit_two_pow_sub_one,
    BitVec.getLsbD_setWidth, BitVec.getLsbD_extractLsb', decide_true, Bool.true_and, Nat.zero_add]
  exact Bool.and_comm ..

theorem toInt_setWidth {n : Nat} (x : BitVec n) (h : n < 32) :
    (x.setWidth 32).toInt = x.toNat := by
  have hlt := x.isLt
  have hpow : 2 ^ n ≤ 2 ^ 31 := Nat.pow_le_pow_right (by decide) (by omega)
  have hnat : (x.setWidth 32).toNat = x.toNat := BitVec.toNat_setWidth_of_le (by omega)
  rw [BitVec.toInt_eq_toNat_of_lt (by omega), hnat]

theorem setWidth_eq_zero_iff {n : Nat} (x : BitVec n) (h : n ≤ 32) :
    x.setWidth 32 = 0 ↔ x = 0 := by
  rw [← BitVec.toNat_inj, ← BitVec.toNat_inj, BitVec.toNat_setWidth_of_le h]
  rfl

variable (s : WaitStatus)

theorem and_low : s &&& 0x7F = s.low.setWidth 32 := and_mask s 7

/-- The sign comes in above the octet. -/
theorem sshiftRight_and : s.sshiftRight 8 &&& 0xFF = s.exitBits.setWidth 32 := by
  have hbits : (s.sshiftRight 8).extractLsb' 0 8 = s.exitBits := by
    apply BitVec.eq_of_getLsbD_eq
    intro i hi
    have hin : 8 + i < 32 := by omega
    simp only [exitBits, BitVec.getLsbD_extractLsb', BitVec.getLsbD_sshiftRight, Nat.zero_add,
      if_pos hin]
    simp [hi, show i < 32 by omega]
  rw [← hbits]
  exact and_mask (s.sshiftRight 8) 8

/-- Of seven bits one more is a negative octet if all are set, and below 2 if none is. -/
theorem two_le_toInt_iff (low : BitVec 7) :
    2 ≤ ((low.setWidth 32 + 1).setWidth 8).toInt ↔ low ≠ 0 ∧ low ≠ 127 := by
  have hlow := low.isLt
  have hsum : ((low.setWidth 32 + 1).setWidth 8).toNat = low.toNat + 1 := by
    simp
    omega
  rw [BitVec.toInt_eq_toNat_cond, hsum, ne_eq, ne_eq, ← BitVec.toNat_inj, ← BitVec.toNat_inj]
  simp
  split <;> omega

theorem exitCode?_eq :
    s.exitCode? = if s.low = 0 then some (s.exitBits.setWidth 32) else none := by
  simp only [exitCode?, and_low, sshiftRight_and, setWidth_eq_zero_iff s.low (by decide)]

theorem signal?_eq :
    s.signal? = if s.low ≠ 0 ∧ s.low ≠ 127 then some (s.low.setWidth 32) else none := by
  simp only [signal?, and_low, two_le_toInt_iff]

/-! ## Ends -/

/-- Every status is of a child that has exited, of one that was killed, or of one that has only
stopped or gone on. -/
theorem ofWaitStatus_cases :
    (s.low = 0 ∧ Outcome.ofWaitStatus s = .exited s.exitBits.toNat) ∨
      (1 ≤ s.low.toNat ∧ s.low.toNat ≤ 126 ∧ Outcome.ofWaitStatus s = .signaled s.low.toNat) ∨
      (s.low = 127 ∧ Outcome.ofWaitStatus s = .exited s.toInt ∧ s.toInt % 128 = 127) := by
  have hlt := s.low.isLt
  by_cases hzero : s.low = 0
  · left
    refine ⟨hzero, ?_⟩
    simp only [Outcome.ofWaitStatus, exitCode?_eq, if_pos hzero,
      toInt_setWidth _ (show 8 < 32 by decide)]
  have hexit : s.exitCode? = none := by rw [exitCode?_eq, if_neg hzero]
  by_cases hall : s.low = 127
  · right
    right
    have hsignal : s.signal? = none := by rw [signal?_eq, if_neg fun h => h.2 hall]
    refine ⟨hall, by simp only [Outcome.ofWaitStatus, hexit, hsignal], ?_⟩
    have hmod : s.toNat % 128 = 127 := by
      have hnat := congrArg BitVec.toNat hall
      rwa [low, BitVec.extractLsb'_toNat, Nat.shiftRight_zero] at hnat
    rw [BitVec.toInt_eq_toNat_cond]
    split <;> omega
  · right
    left
    have hsignal : s.signal? = some (s.low.setWidth 32) := by
      rw [signal?_eq, if_pos ⟨hzero, hall⟩]
    rw [← BitVec.toNat_inj] at hzero hall
    refine ⟨Nat.pos_of_ne_zero hzero, by simp at hall; omega, ?_⟩
    simp only [Outcome.ofWaitStatus, hexit, hsignal, toInt_setWidth _ (show 7 < 32 by decide)]

/-! ## Judgements -/

/-- What the end of a child is taken for that had this status. -/
structure Judged (s : WaitStatus) (o : Outcome) : Prop where
  success_iff_code : o.success = true ↔ o.code = 0
  success_iff : o.success = true ↔ s.low = 0 ∧ s.exitBits = 0
  passed_iff : Verdict.ofOutcome o = .passed ↔ o.success = true
  isPass_iff : (Verdict.ofOutcome o).isPass = true ↔
    s.low = 0 ∧ (s.exitBits = 0 ∨ s.exitBits = 4)
  killed : 1 ≤ s.low.toNat → s.low.toNat ≤ 126 →
    o = .signaled s.low.toNat ∧ 129 ≤ o.code ∧ o.code ≤ 254 ∧ o.success = false ∧
      (Verdict.ofOutcome o).isPass = false
  stopped : s.low = 127 → o.success = false ∧ (Verdict.ofOutcome o).isPass = false
  /-- The sum with a signal is the same in signed words of 32 bits, and fits them. -/
  fits : ∀ signal, o = .signaled signal →
    BitVec.saddOverflow 128#32 (.ofInt 32 signal) = false ∧
      (128#32 + .ofInt 32 signal).toInt = o.code

/-- A small code is that of an exit: those of signals are above 128, and a child that has stopped
has one that is 127 modulo 128. -/
theorem code_eq_iff {n : Nat} (hn : n < 127) :
    (Outcome.ofWaitStatus s).code = n ↔ s.low = 0 ∧ s.exitBits.toNat = n := by
  obtain ⟨hzero, ho⟩ | ⟨hpos, -, ho⟩ | ⟨hall, ho, hmod⟩ := ofWaitStatus_cases s
  · rw [ho]
    simp [Outcome.code, hzero]
  · have hne : s.low ≠ 0 := by
      intro h
      simp [h] at hpos
    rw [ho]
    simp only [Outcome.code, hne, false_and, iff_false]
    omega
  · rw [ho]
    simp only [Outcome.code, hall, show (127 : BitVec 7) ≠ 0 by decide, false_and, iff_false]
    omega

theorem low_of_signaled {signal : Int} (h : Outcome.ofWaitStatus s = .signaled signal) :
    signal = s.low.toNat ∧ 1 ≤ s.low.toNat ∧ s.low.toNat ≤ 126 := by
  obtain ⟨-, ho⟩ | ⟨hpos, hle, ho⟩ | ⟨-, ho, -⟩ := ofWaitStatus_cases s
  · cases ho.symm.trans h
  · cases ho.symm.trans h
    exact ⟨rfl, hpos, hle⟩
  · cases ho.symm.trans h

/-- No signal makes up for what a code says. -/
theorem success_iff_code :
    (Outcome.ofWaitStatus s).success = true ↔ (Outcome.ofWaitStatus s).code = 0 := by
  cases ho : Outcome.ofWaitStatus s with
  | exited code => simp [Outcome.success, Outcome.code]
  | signaled signal =>
    obtain ⟨rfl, -, -⟩ := low_of_signaled s ho
    simp only [Outcome.success, Outcome.code, reduceCtorEq, decide_false, Bool.false_eq_true,
      false_iff]
    omega

theorem success_iff : (Outcome.ofWaitStatus s).success = true ↔ s.low = 0 ∧ s.exitBits = 0 :=
  (success_iff_code s).trans ((code_eq_iff s (n := 0) (by decide)).trans
    (and_congr_right fun _ => BitVec.toNat_inj (y := 0)))

theorem isPass_iff : (Verdict.ofOutcome (.ofWaitStatus s)).isPass = true ↔
    s.low = 0 ∧ (s.exitBits = 0 ∨ s.exitBits = 4) := by
  rw [Harness.Fate.isPass_ofOutcome, decide_eq_true_iff, and_or_left,
    ← BitVec.toNat_inj (x := s.exitBits), ← BitVec.toNat_inj (x := s.exitBits)]
  exact or_congr (code_eq_iff s (n := 0) (by decide)) (code_eq_iff s (n := 4) (by decide))

theorem fits_of_signaled {signal : Int} (h : Outcome.ofWaitStatus s = .signaled signal) :
    BitVec.saddOverflow 128#32 (.ofInt 32 signal) = false ∧
      (128#32 + .ofInt 32 signal).toInt = 128 + signal := by
  obtain ⟨rfl, -, hle⟩ := low_of_signaled s h
  have hsignal : (BitVec.ofInt 32 s.low.toNat).toInt = s.low.toNat := by
    rw [BitVec.toInt_ofInt, Int.bmod_eq_of_le (by omega) (by omega)]
  have hfits : BitVec.saddOverflow 128#32 (.ofInt 32 s.low.toNat) = false := by
    rw [BitVec.saddOverflow, hsignal]
    simp
    omega
  refine ⟨hfits, ?_⟩
  rw [BitVec.toInt_add_of_not_saddOverflow (hfits ▸ Bool.false_ne_true), hsignal]
  rfl

theorem passed_iff (o : Outcome) : Verdict.ofOutcome o = .passed ↔ o.code = 0 := by
  unfold Verdict.ofOutcome
  by_cases hzero : o.code = 0
  · simp only [hzero, if_true]
  · rw [if_neg hzero]
    split <;> simp only [reduceCtorEq, hzero]

/-- Only an exit is taken for good. -/
theorem not_good_of_low_ne (h : s.low ≠ 0) :
    (Outcome.ofWaitStatus s).success = false ∧
      (Verdict.ofOutcome (.ofWaitStatus s)).isPass = false :=
  ⟨Bool.eq_false_iff.2 fun hgood => h ((success_iff s).1 hgood).1,
    Bool.eq_false_iff.2 fun hgood => h ((isPass_iff s).1 hgood).1⟩

theorem judged_ofWaitStatus : Judged s (.ofWaitStatus s) where
  success_iff_code := success_iff_code s
  success_iff := success_iff s
  passed_iff := (passed_iff _).trans (success_iff_code s).symm
  isPass_iff := isPass_iff s
  killed := by
    intro hpos hle
    have hne : s.low ≠ 0 := fun h => by simp [h] at hpos
    obtain ⟨hzero, -⟩ | ⟨-, -, ho⟩ | ⟨hall, -⟩ := ofWaitStatus_cases s
    · exact (hne hzero).elim
    · have hcode : (Outcome.ofWaitStatus s).code = 128 + s.low.toNat := by rw [ho, Outcome.code]
      exact ⟨ho, by omega, by omega, not_good_of_low_ne s hne⟩
    · simp [hall] at hle
  stopped := fun hall => not_good_of_low_ne s (hall ▸ by decide)
  fits := fun signal ho => by
    rw [ho]
    exact fits_of_signaled s ho

/-- The other bits count for nothing, unless a child has stopped; and they do not make that good. -/
theorem same_of_fields {t : WaitStatus} (hlow : t.low = s.low) (hexit : t.exitBits = s.exitBits) :
    (Outcome.ofWaitStatus t).success = (Outcome.ofWaitStatus s).success ∧
      (Verdict.ofOutcome (.ofWaitStatus t)).isPass = (Verdict.ofOutcome (.ofWaitStatus s)).isPass ∧
      (s.low ≠ 127 → Outcome.ofWaitStatus t = .ofWaitStatus s) := by
  refine ⟨?_, ?_, fun hsome => ?_⟩
  · rw [Bool.eq_iff_iff, success_iff, success_iff, hlow, hexit]
  · rw [Bool.eq_iff_iff, isPass_iff, isPass_iff, hlow, hexit]
  · have hcode : t.exitCode? = s.exitCode? := by rw [exitCode?_eq, exitCode?_eq, hlow, hexit]
    have hsignal : t.signal? = s.signal? := by rw [signal?_eq, signal?_eq, hlow]
    rw [Outcome.ofWaitStatus, Outcome.ofWaitStatus, hcode, hsignal]
    split
    · rfl
    · rfl
    · next hexits hkilled =>
      have hzero : s.low ≠ 0 := fun h => by
        rw [exitCode?_eq, if_pos h] at hexits
        cases hexits
      rw [signal?_eq, if_pos ⟨hzero, hsome⟩] at hkilled
      cases hkilled

end WaitStatus

/-! ## Children that are waited for -/

/-- Has a command run and waits for it: what the wait told, or why nothing could be run. -/
abbrev Waiter (σ : Type) := Call → World σ → Except Fault WaitStatus × List Note × World σ

namespace Waiter

open Machine

/-- An exit with 0. -/
def isGood : Except Fault WaitStatus → Bool
  | .ok s => s.low = 0 ∧ s.exitBits = 0
  | .error _ => false

/-- Any other end, or a program that could not be executed. -/
def isBad : Except Fault WaitStatus → Bool
  | .ok s => ¬(s.low = 0 ∧ s.exitBits = 0)
  | .error fault => (executionFailure? fault).isSome

/-- An exit with 0, or with 4. -/
def isPass : Except Fault WaitStatus → Bool
  | .ok s => s.low = 0 ∧ (s.exitBits = 0 ∨ s.exitBits = 4)
  | .error _ => false

def answer (call : Call) : Except Fault WaitStatus → Except LaunchError Outcome
  | .ok s => .ok (.ofWaitStatus s)
  | .error fault =>
    match executionFailure? fault with
    | some code => .ok (.exited code)
    | none => .error ⟨call.command.program, fault⟩

variable {σ : Type}

/-- A launcher that keeps in mind all that it is told. -/
def launcher (wait : Waiter σ) : Launcher (List (Except Fault WaitStatus) × σ) := fun call w =>
  let (told, notes, left) := wait call ⟨w.files, w.state.2⟩
  (answer call told, notes, ⟨left.files, w.state.1 ++ [told], left.state⟩)

theorem exists_told {wait : Waiter σ} {call : Call}
    {w left : World (List (Except Fault WaitStatus) × σ)} {reply : Except LaunchError Outcome}
    {notes : List Note} (answers : wait.launcher call w = (reply, notes, left)) :
    ∃ told, reply = answer call told ∧ left.state.1 = w.state.1 ++ [told] := by
  cases answers
  exact ⟨_, rfl, rfl⟩

/-- What is kept in mind is not written down. -/
theorem told_recorded (log : Option LogFile) (w : World (List (Except Fault WaitStatus) × σ))
    (t : Trace) : (w.recorded log t).state.1 = w.state.1 :=
  (unseen_state Prod.fst log).recorded t w

theorem executionFailure?_cases {fault : Fault} {code : Int}
    (h : executionFailure? fault = some code) : code = exitNotFound ∨ code = exitNotExecutable := by
  unfold executionFailure? at h
  split at h
  · cases h
  · split at h
    · exact .inl (Option.some.inj h).symm
    · split at h
      · exact .inr (Option.some.inj h).symm
      · cases h

/-- A launch counts in a script by what is told of it. -/
theorem kind_answer (call : Call) (told : Except Fault WaitStatus) :
    ((Script.Fate.launched call (answer call told)).kind = .succeeded ↔ isGood told = true) ∧
      ((Script.Fate.launched call (answer call told)).kind = .failed ↔ isBad told = true) := by
  cases told with
  | ok s =>
    have hgood : Outcome.ofWaitStatus s = .exited 0 ↔ s.low = 0 ∧ s.exitBits = 0 := by
      rw [← WaitStatus.success_iff, Outcome.success, decide_eq_true_iff]
    simp only [isGood, isBad, decide_eq_true_iff, ← hgood, Script.Fate.kind, answer]
    by_cases h : Outcome.ofWaitStatus s = .exited 0 <;> simp [h]
  | error fault =>
    cases hcode : executionFailure? fault with
    | none => simp [Script.Fate.kind, answer, isGood, isBad, hcode]
    | some code =>
      have hne : code ≠ 0 := by
        rcases executionFailure?_cases hcode with rfl | rfl <;> decide
      simp [Script.Fate.kind, answer, isGood, isBad, hcode, hne]

theorem passes_answer (path : Path) (call : Call) (told : Except Fault WaitStatus) :
    (Harness.Fate.launched path (answer call told)).passes = isPass told := by
  rw [← Harness.Fate.isPass_verdict]
  cases told with
  | ok s =>
    rw [Bool.eq_iff_iff]
    refine (WaitStatus.isPass_iff s).trans ?_
    simp [isPass]
  | error fault =>
    cases hcode : executionFailure? fault with
    | none => simp [Harness.Fate.verdict, answer, isPass, hcode, Verdict.isPass]
    | some code =>
      have hne : ¬(code = 0 ∨ code = testWarnCode) := by
        rcases executionFailure?_cases hcode with rfl | rfl <;> decide
      simp only [Harness.Fate.verdict, answer, hcode, isPass, Harness.Fate.isPass_ofOutcome,
        Outcome.code, hne, decide_false]

end Waiter

/-! ## Scripts and lists -/

namespace Script

open Waiter

variable {σ : Type} {wait : Waiter σ} {i : Interpreter (List (Except Fault WaitStatus) × σ)}
  {log : Option LogFile} {w w' : World (List (Except Fault WaitStatus) × σ)}
  (hi : i.launcher = wait.launcher)
include hi

/-- A line is told of once at most, and counts by that. -/
theorem Meets.told {words : List String} {fate : Fate} (h : Meets i log w words fate w') :
    ∃ told, w'.state.1 = w.state.1 ++ told ∧
      (if fate.kind = .succeeded then 1 else 0) = told.countP isGood ∧
      (if fate.kind = .failed then 1 else 0) = told.countP isBad := by
  cases h with
  | blank => exact ⟨[], (List.append_nil _).symm, rfl, rfl⟩
  | unresolved resolves =>
    refine ⟨[], ?_, rfl, rfl⟩
    rw [told_recorded, List.append_nil]
  | launched resolves answers =>
    rw [hi] at answers
    obtain ⟨told, rfl, hleft⟩ := exists_told answers
    refine ⟨[told], ?_, ?_⟩
    · rw [told_recorded, hleft, told_recorded]
    · simp only [(kind_answer _ told).1, (kind_answer _ told).2, List.countP_singleton, and_self]

/-- The lines of a script count by what is told of their commands. -/
theorem Passes.told {path : Path} {number : Nat} {lines : List (List String)}
    {passages : List Passage} (h : Passes i path log w number lines passages w') :
    ∃ told, w'.state.1 = w.state.1 ++ told ∧
      countOf .succeeded passages = told.countP isGood ∧
      countOf .failed passages = told.countP isBad := by
  induction h with
  | nil => exact ⟨[], (List.append_nil _).symm, rfl, rfl⟩
  | cons meets rest ih =>
    obtain ⟨first, hfirst, hgood, hbad⟩ := meets.told hi
    obtain ⟨others, hothers, hgoods, hbads⟩ := ih
    refine ⟨first ++ others, ?_, ?_, ?_⟩
    · rw [hothers, hfirst, told_recorded, List.append_assoc]
    · rw [countOf_cons, hgood, hgoods, List.countP_append]
    · rw [countOf_cons, hbad, hbads, List.countP_append]

end Script

namespace Harness

open Waiter

variable {σ : Type} {wait : Waiter σ} {h : Harness (List (Except Fault WaitStatus) × σ)}
  {log : Option LogFile} {w w' : World (List (Except Fault WaitStatus) × σ)}
  (hh : h.launcher = wait.launcher)
include hh

theorem Tries.told {name : String} {fate : Fate} (ht : Tries h log w name fate w') :
    ∃ told, w'.state.1 = w.state.1 ++ told ∧
      (if fate.passes then 1 else 0) = told.countP isPass ∧
      told.countP (!isPass ·) ≤ if !fate.passes then 1 else 0 := by
  cases ht with
  | unresolved joins =>
    refine ⟨[], ?_, rfl, Nat.zero_le _⟩
    rw [told_recorded, told_recorded, List.append_nil]
  | launched joins answers =>
    rw [hh] at answers
    obtain ⟨told, rfl, hleft⟩ := exists_told answers
    refine ⟨[told], ?_, ?_, ?_⟩
    · rw [told_recorded, hleft, told_recorded]
    · rw [passes_answer, List.countP_singleton]
    · rw [passes_answer, List.countP_singleton]

/-- A case passes by what is told of it, and fails by that or for want of it. -/
theorem TriesAll.told {names : List String} {fates : List Fate}
    (ht : TriesAll h log w names fates w') :
    ∃ told, w'.state.1 = w.state.1 ++ told ∧
      fates.countP Fate.passes = told.countP isPass ∧
      told.countP (!isPass ·) ≤ fates.countP (!Fate.passes ·) := by
  induction ht with
  | nil => exact ⟨[], (List.append_nil _).symm, rfl, Nat.le_refl _⟩
  | cons tries rest ih =>
    obtain ⟨first, hfirst, hpass, hfail⟩ := tries.told hh
    obtain ⟨others, hothers, hpasses, hfails⟩ := ih
    refine ⟨first ++ others, ?_, ?_, ?_⟩
    · rw [hothers, hfirst, List.append_assoc]
    · rw [List.countP_cons, List.countP_append, hpasses, hpass, Nat.add_comm]
    · rw [List.countP_cons, List.countP_append, Nat.add_comm]
      exact Nat.add_le_add hfails hfail

end Harness

namespace WaitStatus

open Waiter

variable {σ : Type}

theorem runFeed_told (i : Interpreter (List (Except Fault WaitStatus) × σ)) {wait : Waiter σ}
    (hi : i.launcher = wait.launcher) (path : Path) (content : Octets) (log : Option LogFile)
    (w : World (List (Except Fault WaitStatus) × σ)) :
    let ran := i.runFeed path (Feed.ofOctets content) log w
    ∃ report told, ran.value.result = .ok report ∧ ran.world.state.1 = w.state.1 ++ told ∧
      report.succeeded = told.countP isGood ∧ report.failed = told.countP isBad := by
  obtain ⟨passages, hpasses, -, hcounts⟩ :=
    i.runEach_passes path log (Feed.linesRead content) 0 w
  obtain ⟨told, hleft, hgood, hbad⟩ := hpasses.told hi
  rw [i.runFeed_eq_runEach path]
  simp only [Action.bind_apply, Action.pure_apply]
  exact ⟨_, told, rfl, hleft, hcounts.succeeded_eq.trans hgood, hcounts.failed_eq.trans hbad⟩

theorem runList_told (h : Harness (List (Except Fault WaitStatus) × σ)) {wait : Waiter σ}
    (hh : h.launcher = wait.launcher) {list : Path} {file : OpenFile} (log : Option LogFile)
    {w : World (List (Except Fault WaitStatus) × σ)}
    (hopens : OpenFile.ofPath w.files list = .ok file) :
    let ran := h.runList list log w
    ∃ tally told,
      (ran.value = .ok tally ∨ ∃ e, ran.value = .error (.cannotRead list tally (.numbered e))) ∧
      ran.world.state.1 = w.state.1 ++ told ∧ tally.passed = told.countP isPass ∧
      told.countP (!isPass ·) ≤ tally.failed := by
  obtain ⟨lines, failure, left, hreads⟩ := exists_reads h.runLine log w {} file
  obtain ⟨fates, hcounted⟩ := Harness.runList_counted h log hopens hreads
  obtain ⟨tally, hpassed, hfailed, -, hvalue⟩ := hcounted.result_eq
  obtain ⟨told, hleft, hpass, hfail⟩ := hcounted.tries.told hh
  refine ⟨tally, told, ?_, hleft, hpassed.trans hpass, hfailed ▸ hfail⟩
  rw [hvalue]
  cases failure with
  | none => exact .inl rfl
  | some e => exact .inr ⟨e, rfl⟩

/-- The end of a child is judged alike by its sort and by its code, and by nothing in its status but
the low seven bits and the octet above the lowest. So it is counted: of all that their launcher is
told, scripts and lists count for good what says an exit with 0, or for lists with 4. -/
theorem judgements_agree (s : WaitStatus) (wait : Waiter σ) (searchDir caseDir path list : Path)
    (maxArgs : Nat) (content : Octets) (log : Option LogFile)
    (w : World (List (Except Fault WaitStatus) × σ)) :
    Judged s (.ofWaitStatus s) ∧
    (∀ t : WaitStatus, t.low = s.low → t.exitBits = s.exitBits →
      (Outcome.ofWaitStatus t).success = (Outcome.ofWaitStatus s).success ∧
      (Verdict.ofOutcome (.ofWaitStatus t)).isPass =
        (Verdict.ofOutcome (.ofWaitStatus s)).isPass ∧
      (s.low ≠ 127 → Outcome.ofWaitStatus t = .ofWaitStatus s)) ∧
    (let i : Interpreter _ := ⟨searchDir, maxArgs, wait.launcher⟩
      let ran := i.runFeed path (Feed.ofOctets content) log w
      ∃ report told, ran.value.result = .ok report ∧ ran.world.state.1 = w.state.1 ++ told ∧
        report.succeeded = told.countP isGood ∧ report.failed = told.countP isBad) ∧
    ∀ file, OpenFile.ofPath w.files list = .ok file →
      let h : Harness _ := ⟨caseDir, wait.launcher⟩
      let ran := h.runList list log w
      ∃ tally told,
        (ran.value = .ok tally ∨
          ∃ e, ran.value = .error (.cannotRead list tally (.numbered e))) ∧
        ran.world.state.1 = w.state.1 ++ told ∧ tally.passed = told.countP isPass ∧
        told.countP (!isPass ·) ≤ tally.failed := by
  refine ⟨judged_ofWaitStatus s, fun t => same_of_fields s, ?_, fun file hopens => ?_⟩
  · exact runFeed_told ⟨searchDir, maxArgs, wait.launcher⟩ rfl path content log w
  · exact runList_told ⟨caseDir, wait.launcher⟩ rfl log hopens

/-- A child that signal 11 has killed, with its core dumped. What the octet above the lowest says is
of no account then. -/
theorem judgements_agree_dumped :
    let s : WaitStatus := 0xFF8B
    let o := Outcome.ofWaitStatus s
    let wait : Waiter Unit := fun _ w => (.ok s, [], w)
    let content := Octets.ofString "true\n"
    let w : World (List (Except Fault WaitStatus) × Unit) :=
      ⟨⟨⟨[([.ofString "list"], .file 0o644 content)]⟩, [], 0⟩, [], ()⟩
    let file : OpenFile := .atStart [.ofString "list"] content
    s.low = 11 ∧ o = .signaled 11 ∧ o.success = false ∧ (Verdict.ofOutcome o).isPass = false ∧
      (128#32 + .ofInt 32 11).toInt = o.code ∧ Outcome.ofWaitStatus 0xFFFBFF0B = o ∧
      OpenFile.ofPath w.files (.ofString "list") = .ok file ∧
      let h : Harness _ := ⟨.ofString "/bin", wait.launcher⟩
      let ran := h.runList (.ofString "list") none w
      ∃ tally told,
        (ran.value = .ok tally ∨
          ∃ e, ran.value = .error (.cannotRead (.ofString "list") tally (.numbered e))) ∧
        ran.world.state.1 = told ∧ tally.passed = told.countP isPass ∧
        told.countP (!isPass ·) ≤ tally.failed := by
  intro s o wait content w file
  have hlow : s.low = 11 := by decide
  have ho : o = .signaled 11 := by decide
  have hcontent : w.files.contentAt [.ofString "list"] = .ok content := by cbv
  have hopens : OpenFile.ofPath w.files (.ofString "list") = .ok file :=
    OpenFile.ofPath_of_content (by cbv) hcontent
  obtain ⟨hjudged, hsame, -, hcounts⟩ := judgements_agree s wait (.ofString "/bin")
    (.ofString "/bin") (.ofString "rcS") (.ofString "list") 8 [] none w
  obtain ⟨-, -, -, hsuccess, hpass⟩ := hjudged.killed (by decide) (by decide)
  have hdumped := (hsame 0xFFFBFF0B (by decide) (by decide)).2.2 (by decide)
  exact ⟨hlow, ho, hsuccess, hpass, (hjudged.fits 11 ho).2, hdumped, hopens,
    hcounts file hopens⟩

end WaitStatus
end BootSequence
