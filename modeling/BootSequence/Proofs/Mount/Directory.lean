import BootSequence.Mount.Point
import BootSequence.Proofs.Effects

/-!
What one mount does, case by case: whether its directory can be made sure of, and then whether the
mounter accepts it.
-/

namespace BootSequence
namespace Mount

variable {σ : Type} (log : Option LogFile)

/-! ## Making sure of a directory -/

section EnsureDir

variable {path : Path} {w : World σ}

theorem ensureDir_of_ok {made : Files} (h : w.files.makeDirectory path mountPointMode = .ok made) :
    ensureDir path log w =
      ⟨.ok .created, [.makeDirectory path, .log .info s!"mkdir {path.display} ok!"],
        { w with files := LogFile.record log .info s!"mkdir {path.display} ok!" made }⟩ := by
  simp only [ensureDir, Action.bind_apply, Action.emit_apply, Action.files_apply, h]
  rfl

theorem ensureDir_of_exists {fault : Fault}
    (h : w.files.makeDirectory path mountPointMode = .error fault)
    (hkind : fault.kind = .alreadyExists) :
    ensureDir path log w =
      ⟨.ok .alreadyExists,
        [.makeDirectory path, .log .debug s!"mkdir {path.display}: {fault.report}"],
        { w with
          files := LogFile.record log .debug s!"mkdir {path.display}: {fault.report}" w.files }⟩ := by
  simp only [ensureDir, Action.bind_apply, Action.emit_apply, Action.files_apply, h, hkind, if_true]
  rfl

theorem ensureDir_of_error {fault : Fault}
    (h : w.files.makeDirectory path mountPointMode = .error fault)
    (hkind : fault.kind ≠ .alreadyExists) :
    ensureDir path log w = ⟨.error fault, [.makeDirectory path], w⟩ := by
  simp only [ensureDir, Action.bind_apply, Action.emit_apply, Action.files_apply, h, hkind,
    if_false]
  rfl

end EnsureDir

/-- The directory is asked for once, whatever comes of it. -/
theorem effects_ensureDir (path : Path) (w : World σ) :
    (ensureDir path log w).trace.effects = [.makeDirectory path] := by
  cases h : w.files.makeDirectory path mountPointMode with
  | ok made => rw [ensureDir_of_ok log h]; rfl
  | error fault =>
    by_cases hkind : fault.kind = .alreadyExists
    · rw [ensureDir_of_exists log h hkind]; rfl
    · rw [ensureDir_of_error log h hkind]; rfl

/-! ## One mount -/

section MountEntry

variable (mounter : Mounter σ) {e : Entry} {w : World σ}

/-- The record of a mount. -/
def Entry.record (e : Entry) : String := s!"{e.source} mount on {e.target.display} successfully"

theorem mountEntry_of_error {fault : Fault}
    (h : (ensureDir e.target log w).value = .error fault) :
    mountEntry mounter e log w =
      ⟨.error (.mountPoint e.target fault), (ensureDir e.target log w).trace,
        (ensureDir e.target log w).world⟩ := by
  simp only [mountEntry, Action.bind_apply, h, Action.pure_apply, List.append_nil]

theorem mountEntry_of_refused {status : DirStatus} {fault : Fault}
    (h : (ensureDir e.target log w).value = .ok status)
    (hm : (mounter e (ensureDir e.target log w).world).1 = .error fault) :
    mountEntry mounter e log w =
      ⟨.error (.refused e fault), (ensureDir e.target log w).trace ++ [.mount e false],
        (mounter e (ensureDir e.target log w).world).2⟩ := by
  simp only [mountEntry, Action.bind_apply, h, Action.mount, hm, Action.pure_apply,
    List.append_nil]
  rfl

theorem mountEntry_of_accepted {status : DirStatus}
    (h : (ensureDir e.target log w).value = .ok status)
    (hm : (mounter e (ensureDir e.target log w).world).1 = .ok ()) :
    mountEntry mounter e log w =
      ⟨.ok (), (ensureDir e.target log w).trace ++ [.mount e true, .log .info e.record],
        (Action.log .info e.record log (mounter e (ensureDir e.target log w).world).2).world⟩ := by
  simp only [mountEntry, Action.bind_apply, h, Action.mount, hm]
  rfl

theorem accepted_of_mountEntry {u : Unit} (h : (mountEntry mounter e log w).value = .ok u) :
    ∃ status, (ensureDir e.target log w).value = .ok status ∧
      (mounter e (ensureDir e.target log w).world).1 = .ok () := by
  cases hdir : (ensureDir e.target log w).value with
  | error fault =>
    rw [mountEntry_of_error log mounter hdir] at h
    cases h
  | ok status =>
    cases hm : (mounter e (ensureDir e.target log w).world).1 with
    | error fault =>
      rw [mountEntry_of_refused log mounter hdir hm] at h
      cases h
    | ok u => exact ⟨status, rfl, rfl⟩

end MountEntry

end Mount
end BootSequence
