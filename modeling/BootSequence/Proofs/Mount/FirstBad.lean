import BootSequence.Proofs.Mount.Directory
import Mathlib

/-!
How far a list of items is worked through. An item is bad if it is no entry, if the directory that it
is to be mounted on cannot be made sure of, or if the mounter refuses it. The entries before the first
bad item are mounted one after another, and what is behind it is left alone
(`mountEach_upToFirstBad`).
-/

namespace BootSequence
namespace Mount

variable {σ : Type}

/-- What is done for an entry that the mounter is asked to mount. -/
def Entry.steps (e : Entry) (accepted : Bool) : Trace :=
  [.makeDirectory e.target, .mount e accepted]

/-- From one world to another, entries are mounted one after another: the directory of each is made
sure of, and the mounter accepts it. -/
inductive Mounts (mounter : Mounter σ) (log : Option LogFile) :
    World σ → List Entry → World σ → Prop where
  | nil (w : World σ) : Mounts mounter log w [] w
  | cons {w w' : World σ} {e : Entry} {es : List Entry} {status : DirStatus}
      (directory : (ensureDir e.target log w).value = .ok status)
      (accepted : (mounter e (ensureDir e.target log w).world).1 = .ok ())
      (rest : Mounts mounter log (mountEntry mounter e log w).world es w') :
      Mounts mounter log w (e :: es) w'

/-- An item is bad in a world: the error that tells of it, and what has been done for it then. -/
inductive Bad (mounter : Mounter σ) (log : Option LogFile) (w : World σ) :
    Table.Item → Error → Trace → Prop where
  | record (e : Error) : Bad mounter log w (.error e) e []
  | mountPoint {e : Entry} {fault : Fault}
      (directory : (ensureDir e.target log w).value = .error fault) :
      Bad mounter log w (.ok e) (.mountPoint e.target fault) [.makeDirectory e.target]
  | refused {e : Entry} {status : DirStatus} {fault : Fault}
      (directory : (ensureDir e.target log w).value = .ok status)
      (refused : (mounter e (ensureDir e.target log w).world).1 = .error fault) :
      Bad mounter log w (.ok e) (.refused e fault) (e.steps false)

/-- A run that works through items as far as the first bad one: it mounts the entries before, and
nothing behind. One of the two cases holds (`decided`). -/
structure UpToFirstBad (mounter : Mounter σ) (log : Option LogFile) (w : World σ)
    (items : List Table.Item) (run : Ran σ (Except Error Nat)) : Prop where
  complete : ∀ done w', items = done.map .ok → Mounts mounter log w done w' →
    run.value = .ok done.length ∧ run.trace.effects = done.flatMap (·.steps true) ∧
      run.world = w'
  stopped : ∀ done bad later w' e steps, items = done.map .ok ++ bad :: later →
    Mounts mounter log w done w' → Bad mounter log w' bad e steps →
    run.value = .error e ∧ run.trace.effects = done.flatMap (·.steps true) ++ steps
  decided : (∃ done w', items = done.map .ok ∧ Mounts mounter log w done w') ∨
    ∃ done bad later w' e steps, items = done.map .ok ++ bad :: later ∧
      Mounts mounter log w done w' ∧ Bad mounter log w' bad e steps
  ok_iff : ∀ n, run.value = .ok n ↔
    ∃ done w', items = done.map .ok ∧ Mounts mounter log w done w' ∧
      n = items.length ∧ n = run.trace.mounts.length

/-! ## Working through items -/

/-- Work through a list of items; the first bad one ends it. The result counts the mounts. -/
def mountEach (mounter : Mounter σ) : List Table.Item → Action σ (Except Error Nat)
  | [] => return .ok 0
  | .error e :: _ => return .error e
  | .ok entry :: rest => do
    match ← mountEntry mounter entry with
    | .error e => return .error e
    | .ok () => return (← mountEach mounter rest).map (· + 1)

section Items

variable {mounter : Mounter σ} {log : Option LogFile}

theorem mountEach_cons_of_error {e : Entry} {w : World σ} {error : Error}
    (h : (mountEntry mounter e log w).value = .error error) (rest : List Table.Item) :
    mountEach mounter (.ok e :: rest) log w =
      ⟨.error error, (mountEntry mounter e log w).trace, (mountEntry mounter e log w).world⟩ := by
  simp only [mountEach, Action.bind_apply, h, Action.pure_apply, List.append_nil]

theorem mountEach_cons_of_ok {e : Entry} {w : World σ}
    (h : (mountEntry mounter e log w).value = .ok ()) (rest : List Table.Item) :
    mountEach mounter (.ok e :: rest) log w =
      let later := mountEach mounter rest log (mountEntry mounter e log w).world
      ⟨later.value.map (· + 1), (mountEntry mounter e log w).trace ++ later.trace, later.world⟩ := by
  simp only [mountEach, Action.bind_apply, h, Action.pure_apply, List.append_nil]

/-- An entry that is mounted leaves the rest of the items to be worked through. -/
theorem mountEach_cons_of_mounted {e : Entry} {w : World σ} {status : DirStatus}
    (hdir : (ensureDir e.target log w).value = .ok status)
    (hacc : (mounter e (ensureDir e.target log w).world).1 = .ok ()) (rest : List Table.Item) :
    let run := mountEach mounter (.ok e :: rest) log w
    let later := mountEach mounter rest log (mountEntry mounter e log w).world
    run.value = later.value.map (· + 1) ∧
      run.trace.effects = e.steps true ++ later.trace.effects ∧ run.world = later.world := by
  have hentry := mountEntry_of_accepted log mounter hdir hacc
  have hvalue : (mountEntry mounter e log w).value = .ok () := by rw [hentry]
  have hsteps : (mountEntry mounter e log w).trace.effects = e.steps true := by
    rw [hentry, Trace.effects_append, effects_ensureDir]
    rfl
  rw [mountEach_cons_of_ok hvalue rest]
  refine ⟨rfl, ?_, rfl⟩
  rw [Trace.effects_append, hsteps]

/-- A bad item ends it. -/
theorem mountEach_cons_of_bad {bad : Table.Item} {w : World σ} {e : Error} {steps : Trace}
    (h : Bad mounter log w bad e steps) (later : List Table.Item) :
    (mountEach mounter (bad :: later) log w).value = .error e ∧
      (mountEach mounter (bad :: later) log w).trace.effects = steps := by
  cases h with
  | record => exact ⟨rfl, rfl⟩
  | @mountPoint entry fault hdir =>
    have hentry := mountEntry_of_error log mounter hdir
    have hvalue : (mountEntry mounter entry log w).value =
        .error (.mountPoint entry.target fault) := by
      rw [hentry]
    rw [mountEach_cons_of_error hvalue later, hentry]
    exact ⟨rfl, effects_ensureDir log entry.target w⟩
  | @refused entry status fault hdir href =>
    have hentry := mountEntry_of_refused log mounter hdir href
    have hvalue : (mountEntry mounter entry log w).value = .error (.refused entry fault) := by
      rw [hentry]
    rw [mountEach_cons_of_error hvalue later, hentry]
    refine ⟨rfl, ?_⟩
    rw [Trace.effects_append, effects_ensureDir]
    rfl

/-- Entries that are mounted one after another come before whatever the rest comes to. -/
theorem mountEach_append {w w' : World σ} {done : List Entry} (h : Mounts mounter log w done w')
    (rest : List Table.Item) :
    let run := mountEach mounter (done.map .ok ++ rest) log w
    let later := mountEach mounter rest log w'
    run.value = later.value.map (· + done.length) ∧
      run.trace.effects = done.flatMap (·.steps true) ++ later.trace.effects ∧
      run.world = later.world := by
  induction h with
  | nil w =>
    refine ⟨?_, rfl, rfl⟩
    show (mountEach mounter rest log w).value =
      (mountEach mounter rest log w).value.map (· + 0)
    cases (mountEach mounter rest log w).value <;> rfl
  | @cons w w' e es status hdir hacc hrest ih =>
    have hcons := mountEach_cons_of_mounted hdir hacc (es.map .ok ++ rest)
    refine ⟨?_, ?_, hcons.2.2.trans ih.2.2⟩
    · rw [List.map_cons, List.cons_append, hcons.1, ih.1]
      cases (mountEach mounter rest log w').value <;>
        simp [Except.map, Nat.add_assoc]
    · rw [List.map_cons, List.cons_append, hcons.2.1, ih.2.1, List.flatMap_cons, List.append_assoc]

variable (mounter log) in
/-- Either all items are entries that are mounted, or one of them is the first bad one. -/
theorem mounts_or_bad (items : List Table.Item) (w : World σ) :
    (∃ done w', items = done.map .ok ∧ Mounts mounter log w done w') ∨
      ∃ done bad later w' e steps, items = done.map .ok ++ bad :: later ∧
        Mounts mounter log w done w' ∧ Bad mounter log w' bad e steps := by
  induction items generalizing w with
  | nil => exact .inl ⟨[], w, rfl, .nil w⟩
  | cons item items ih =>
    cases item with
    | error e => exact .inr ⟨[], .error e, items, w, e, [], rfl, .nil w, .record e⟩
    | ok e =>
      cases hdir : (ensureDir e.target log w).value with
      | error fault => exact .inr ⟨[], .ok e, items, w, _, _, rfl, .nil w, .mountPoint hdir⟩
      | ok status =>
        cases hacc : (mounter e (ensureDir e.target log w).world).1 with
        | error fault => exact .inr ⟨[], .ok e, items, w, _, _, rfl, .nil w, .refused hdir hacc⟩
        | ok u =>
          rcases ih (mountEntry mounter e log w).world with
            ⟨done, w', rfl, hm⟩ | ⟨done, bad, later, w', error, steps, rfl, hm, hbad⟩
          · exact .inl ⟨e :: done, w', rfl, .cons hdir hacc hm⟩
          · exact .inr ⟨e :: done, bad, later, w', error, steps, rfl, .cons hdir hacc hm, hbad⟩

theorem mounts_flatMap_steps (done : List Entry) :
    Trace.mounts (done.flatMap (·.steps true)) = done := by
  induction done with
  | nil => rfl
  | cons e done ih =>
    rw [List.flatMap_cons, Trace.mounts_append, ih]
    rfl

theorem mountEach_upToFirstBad (items : List Table.Item) (w : World σ) :
    UpToFirstBad mounter log w items (mountEach mounter items log w) := by
  have hcomplete : ∀ done w', items = done.map .ok → Mounts mounter log w done w' →
      (mountEach mounter items log w).value = .ok done.length ∧
        (mountEach mounter items log w).trace.effects = done.flatMap (·.steps true) ∧
        (mountEach mounter items log w).world = w' := by
    rintro done w' rfl hm
    have h := mountEach_append hm []
    rw [List.append_nil] at h
    refine ⟨h.1.trans ?_, h.2.1.trans (List.append_nil _), h.2.2⟩
    show Except.ok (0 + done.length) = _
    rw [Nat.zero_add]
  have hstopped : ∀ done bad later w' e steps, items = done.map .ok ++ bad :: later →
      Mounts mounter log w done w' → Bad mounter log w' bad e steps →
      (mountEach mounter items log w).value = .error e ∧
        (mountEach mounter items log w).trace.effects = done.flatMap (·.steps true) ++ steps := by
    rintro done bad later w' e steps rfl hm hbad
    obtain ⟨hvalue, heffects, -⟩ := mountEach_append hm (bad :: later)
    have hb := mountEach_cons_of_bad hbad later
    rw [hb.1] at hvalue
    rw [hb.2] at heffects
    exact ⟨hvalue, heffects⟩
  refine ⟨hcomplete, hstopped, mounts_or_bad mounter log items w, fun n => ⟨fun hn => ?_, ?_⟩⟩
  · rcases mounts_or_bad mounter log items w with
      ⟨done, w', hitems, hm⟩ | ⟨done, bad, later, w', e, steps, hitems, hm, hbad⟩
    · obtain ⟨hvalue, heffects, -⟩ := hcomplete done w' hitems hm
      have hlen : n = done.length := Except.ok.inj (hn.symm.trans hvalue)
      refine ⟨done, w', hitems, hm, ?_, ?_⟩
      · rw [hlen, hitems, List.length_map]
      · rw [← Trace.mounts_effects, heffects, mounts_flatMap_steps, hlen]
    · have hvalue := (hstopped done bad later w' e steps hitems hm hbad).1
      cases hn.symm.trans hvalue
  · rintro ⟨done, w', hitems, hm, hlen, -⟩
    rw [(hcomplete done w' hitems hm).1, hlen, hitems, List.length_map]

end Items

end Mount
end BootSequence
