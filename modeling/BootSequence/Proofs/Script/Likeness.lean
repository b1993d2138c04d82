import BootSequence.Proofs.Script.InFile
import BootSequence.Proofs.Script.Requests

/-!
Two runs side by side. They are alike if they launch the same commands and leave worlds that look
the same to the launcher. Lines are run alike if they agree on the words that are kept of them,
whatever else they say (`alike_runEach`).
-/

namespace BootSequence

/-! ## What is seen of the world -/

section View

variable {σ τ : Type}

/-- No record is seen. -/
def Unseen (view : World σ → τ) (log : Option LogFile) : Prop :=
  ∀ level message w, view (Action.log level message log w).world = view w

/-- What a launcher answers, and what is seen of the world that it leaves, depends only on what it
sees of the world before. -/
structure SeesOnly (view : World σ → τ) (launcher : Launcher σ) : Prop where
  answer : ∀ call w w', view w = view w' → (launcher call w).1 = (launcher call w').1
  left : ∀ call w w', view w = view w' →
    view (launcher call w).2.2 = view (launcher call w').2.2

theorem unseen_none (view : World σ → τ) : Unseen view none := fun _ _ _ => rfl

theorem unseen_state (view : σ → τ) (log : Option LogFile) :
    Unseen (fun w : World σ => view w.state) log := fun _ _ _ => rfl

theorem seesOnly_id (launcher : Launcher σ) : SeesOnly id launcher where
  answer := fun call _ _ h => congrArg (fun w => (launcher call w).1) h
  left := fun call _ _ h => congrArg (fun w => (launcher call w).2.2) h

end View

/-! ## Likeness -/

/-- The results are as they should be to each other, the same commands are launched, and the same is
seen of the worlds that are left. -/
structure Ran.Alike {σ τ α β : Type} (view : World σ → τ) (rel : α → β → Prop) (r : Ran σ α)
    (r' : Ran σ β) : Prop where
  value : rel r.value r'.value
  calls : r.trace.calls = r'.trace.calls
  seen : view r.world = view r'.world

namespace Action

variable {σ τ α β γ δ : Type} (view : World σ → τ) (log log' : Option LogFile)

/-- Done in worlds that look the same, two actions run alike. -/
def Alike (rel : α → β → Prop) (x : Action σ α) (y : Action σ β) : Prop :=
  ∀ w w', view w = view w' → Ran.Alike view rel (x log w) (y log' w')

variable {view log log'} {rel : α → β → Prop}

theorem alike_pure {a : α} {b : β} (h : rel a b) :
    Alike view log log' rel (pure a) (pure b) := fun _ _ hw => ⟨h, rfl, hw⟩

theorem alike_bind {rel' : γ → δ → Prop} {x : Action σ α} {y : Action σ β} {f : α → Action σ γ}
    {g : β → Action σ δ} (hxy : Alike view log log' rel x y)
    (hfg : ∀ a b, rel a b → Alike view log log' rel' (f a) (g b)) :
    Alike view log log' rel' (x >>= f) (y >>= g) := by
  intro w w' hw
  obtain ⟨hvalue, hcalls, hseen⟩ := hxy w w' hw
  obtain ⟨hvalue', hcalls', hseen'⟩ := hfg _ _ hvalue _ _ hseen
  refine ⟨hvalue', ?_, hseen'⟩
  rw [trace_bind, trace_bind, Trace.calls_append, Trace.calls_append, hcalls, hcalls']

theorem alike_map {rel' : γ → δ → Prop} {x : Action σ α} {y : Action σ β} {f : α → γ} {g : β → δ}
    (hxy : Alike view log log' rel x y) (hfg : ∀ a b, rel a b → rel' (f a) (g b)) :
    Alike view log log' rel' (do return f (← x)) (do return g (← y)) :=
  alike_bind hxy fun a b hab => alike_pure (hfg a b hab)

/-- A record on one side makes no difference. -/
theorem alike_log_left (h : Unseen view log) (level : Level) (message : String)
    {x : Action σ α} {y : Action σ β} (hxy : Alike view log log' rel x y) :
    Alike view log log' rel (do Action.log level message; x) y := by
  intro w w' hw
  obtain ⟨hvalue, hcalls, hseen⟩ := hxy _ w' ((h level message w).trans hw)
  exact ⟨hvalue, hcalls, hseen⟩

theorem alike_log_right (h : Unseen view log') (level : Level) (message : String)
    {x : Action σ α} {y : Action σ β} (hxy : Alike view log log' rel x y) :
    Alike view log log' rel x (do Action.log level message; y) := by
  intro w w' hw
  obtain ⟨hvalue, hcalls, hseen⟩ := hxy w _ (hw.trans (h level message w').symm)
  exact ⟨hvalue, hcalls, hseen⟩

theorem alike_launch {launcher : Launcher σ} (h : SeesOnly view launcher) (call : Call) :
    Alike view log log' (· = ·) (launch launcher call) (launch launcher call) := by
  intro w w' hw
  refine ⟨h.answer call w w' hw, ?_, h.left call w w' hw⟩
  rw [trace_launch, trace_launch, Trace.calls_launch, Trace.calls_launch, Trace.calls_children,
    Trace.calls_children]

end Action

/-! ## Words that are kept -/

/-- Command lines that begin with the same command and the same arguments, as many of these as are
kept. -/
structure SameStart (maxArgs : Nat) (words words' : List String) : Prop where
  start_eq : words.take (maxArgs + 1) = words'.take (maxArgs + 1)
  countable : words.length < 2 ^ 64
  countable' : words'.length < 2 ^ 64

theorem SameStart.isEmpty_eq {maxArgs : Nat} {words words' : List String}
    (h : SameStart maxArgs words words') : words.isEmpty = words'.isEmpty := by
  have hstart := congrArg List.isEmpty h.start_eq
  cases words <;> cases words' <;> simp_all

theorem SameStart.argv_eq {maxArgs : Nat} {line line' : String}
    (h : SameStart maxArgs (Invocation.tokens line) (Invocation.tokens line')) :
    (Invocation.ofLine line maxArgs).argv = (Invocation.ofLine line' maxArgs).argv := by
  show (Invocation.tokens line).take _ = (Invocation.tokens line').take _
  rw [Script.take_room (Nat.le_of_lt_succ h.countable),
    Script.take_room (Nat.le_of_lt_succ h.countable'), h.start_eq]

def Script.Report.undropped (r : Script.Report) : Script.Report := { r with droppedTokens := 0 }

namespace Script.Report

theorem undropped_add (a b : Report) : (a + b).undropped = a.undropped + b.undropped := rfl

/-- Reports that are the same but for the count of dropped words. -/
def SameButDropped (r r' : Report) : Prop := r.undropped = r'.undropped

theorem undropped_ofLine (dropped : Nat) (outcome : LineOutcome) :
    (ofLine dropped outcome).undropped = ofLine 0 outcome := by
  cases outcome with
  | finished outcome =>
    simp only [ofLine]
    split <;> rfl
  | skipped | unresolved | launchFailed => rfl

end Script.Report

namespace Interpreter

open Script

variable {σ τ : Type} (i : Interpreter σ) {view : World σ → τ} {log log' : Option LogFile}

theorem execute_congr {invocation invocation' : Invocation}
    (h : invocation.argv = invocation'.argv) : i.execute invocation = i.execute invocation' := by
  have hcommand : invocation.command? = invocation'.command? := congrArg List.head? h
  have hargs : invocation.args = invocation'.args := congrArg List.tail h
  simp only [execute, hcommand, hargs]

section Alike

variable {i} (hlog : Unseen view log) (hlog' : Unseen view log')
  (hlaunch : SeesOnly view i.launcher)
include hlog hlog' hlaunch

theorem alike_execute (invocation : Invocation) :
    Action.Alike view log log' (· = ·) (i.execute invocation) (i.execute invocation) := by
  cases hname : invocation.command? with
  | none =>
    rw [execute_of_none i hname]
    exact Action.alike_pure rfl
  | some name =>
    cases hc : Command.resolve name i.searchDir with
    | error e =>
      rw [execute_of_error i hname hc]
      exact Action.alike_log_left hlog _ _
        (Action.alike_log_right hlog' _ _ (Action.alike_pure rfl))
    | ok command =>
      rw [execute_of_ok i hname hc]
      refine Action.alike_log_left hlog _ _ (Action.alike_log_right hlog' _ _ ?_)
      refine Action.alike_bind (Action.alike_launch hlaunch _) fun reply reply' hreply => ?_
      subst hreply
      cases reply with
      | error e =>
        exact Action.alike_log_left hlog _ _
          (Action.alike_log_right hlog' _ _ (Action.alike_pure rfl))
      | ok outcome =>
        unfold conclude
        dsimp only
        split <;> exact Action.alike_log_left hlog _ _
          (Action.alike_log_right hlog' _ _ (Action.alike_pure rfl))

/-- The warning about dropped words is all in which lines that keep the same words differ. -/
theorem alike_runLine {line line' : Octets}
    (h : SameStart i.maxArgs (Invocation.tokens line.lossy) (Invocation.tokens line'.lossy))
    (path path' : Path) (number number' : Nat) :
    Action.Alike view log log' Report.SameButDropped (i.runLine path number line)
      (i.runLine path' number' line') := by
  have hexecute : Action.Alike view log log' Report.SameButDropped
      (do
        let outcome ← i.execute (.ofLine line.lossy i.maxArgs)
        return Report.ofLine (Invocation.ofLine line.lossy i.maxArgs).dropped outcome)
      (do
        let outcome ← i.execute (.ofLine line'.lossy i.maxArgs)
        return Report.ofLine (Invocation.ofLine line'.lossy i.maxArgs).dropped outcome) := by
    rw [i.execute_congr h.argv_eq]
    refine Action.alike_map (alike_execute hlog hlog' hlaunch _) fun outcome outcome' ho => ?_
    rw [Report.SameButDropped, ho, Report.undropped_ofLine, Report.undropped_ofLine]
  unfold runLine
  dsimp only
  -- Each of the two may warn or not.
  split <;> split
  · exact Action.alike_log_left hlog _ _ (Action.alike_log_right hlog' _ _ hexecute)
  · exact Action.alike_log_left hlog _ _ hexecute
  · exact Action.alike_log_right hlog' _ _ hexecute
  · exact hexecute

/-- Line by line, so are whole scripts. -/
theorem alike_runEach {lines lines' : List Octets}
    (h : List.Forall₂ (fun line line' => SameStart i.maxArgs (Invocation.tokens line.lossy)
      (Invocation.tokens line'.lossy)) lines lines') (path path' : Path) (number number' : Nat) :
    Action.Alike view log log' Report.SameButDropped (i.runEach path number lines)
      (i.runEach path' number' lines') := by
  induction h generalizing number number' with
  | nil => exact Action.alike_pure rfl
  | cons hline hlines ih =>
    refine Action.alike_bind (alike_runLine hlog hlog' hlaunch hline path path' _ _)
      fun report report' hreport => ?_
    refine Action.alike_map (ih (number + 1) (number' + 1)) fun more more' hmore => ?_
    rw [Report.SameButDropped, Report.undropped_add, Report.undropped_add, hreport, hmore]

end Alike
end Interpreter
end BootSequence
