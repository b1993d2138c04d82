import BootSequence.Proofs.Tree.Directories
import BootSequence.Proofs.Tree.Reading

/-!
Trees that get mount points and nothing else, by one attempt after another (`Grows`). Nodes stay as
they are, and each one that is new is a directory with the mode of mount points, at the location
where a path ends that was asked for (`MountPointsOnly`).
-/

namespace BootSequence
namespace Files

def withMountPoint (f : Files) (place : Tree.Place) : Files :=
  { f with tree := f.tree.put place.loc (.directory (f.directoryMode place.dir mountPointMode)) }

/-- How a tree grows: after attempts at these paths mount points have been made, at these paths and
locations. An attempt makes one mount point or none, where there is nothing, and the directory
that it is to be made in is there already. -/
inductive Grows (log : Option LogFile) :
    Files → List Path → List (Path × Location) → Files → Prop where
  | nothing (f : Files) : Grows log f [] [] f
  | record (f : Files) (level : Level) (message : String) :
      Grows log f [] [] (LogFile.record log level message f)
  | vain (f : Files) (p : Path) : Grows log f [p] [] f
  | made {f : Files} {p : Path} {place : Tree.Place} (placed : f.placeOf p = .ok place)
      (parent : f.tree.isDirectory place.dir = true) (free : f.tree.node? place.loc = none) :
      Grows log f [p] [(p, place.loc)] (f.withMountPoint place)
  | next {f f' f'' : Files} {paths paths' : List Path} {new new' : List (Path × Location)}
      (first : Grows log f paths new f') (later : Grows log f' paths' new' f'') :
      Grows log f (paths ++ paths') (new ++ new') f''

/-- All that is new in `f'` are mount points, made at these paths and locations. Only the log file
may hold something else than before. -/
structure MountPointsOnly (log : Option LogFile) (f f' : Files) (new : List (Path × Location)) :
    Prop where
  workdir_eq : f'.workdir = f.workdir
  mask_eq : f'.mask = f.mask
  kept : ∀ loc node, (∀ l ∈ log, l.loc ≠ loc) → f.tree.node? loc = some node →
    f'.tree.node? loc = some node
  outlined : f.tree.Keeps f'.tree
  made : ∀ loc node, f.tree.node? loc = none → f'.tree.node? loc = some node →
    (∃ above, f'.tree.node? loc.dropLast = some (.directory above) ∧
      node = .directory (f.maskMode mountPointMode ||| (above &&& 0o2000))) ∧ ∃ p, (p, loc) ∈ new
  resolved : ∀ p loc, (p, loc) ∈ new → ∃ place, f'.placeOf p = .ok place ∧ place.loc = loc

variable {log : Option LogFile} {f f' f'' : Files} {new more : List (Path × Location)}

theorem MountPointsOnly.keeps (h : MountPointsOnly log f f' new) : Keeps f f' :=
  ⟨h.workdir_eq, h.outlined⟩

theorem mountPointsOnly_refl (log : Option LogFile) (f : Files) : MountPointsOnly log f f [] where
  workdir_eq := rfl
  mask_eq := rfl
  kept := fun _ _ _ h => h
  outlined := .refl _
  made := fun _ _ hnone hsome => by cases hnone.symm.trans hsome
  resolved := nofun

theorem mask_record (log : Option LogFile) (level : Level) (message : String) (f : Files) :
    (LogFile.record log level message f).mask = f.mask := by
  cases log with
  | none => rfl
  | some l =>
    show (f.modify l.loc _).mask = _
    unfold modify
    split <;> rfl

theorem mountPointsOnly_record (log : Option LogFile) (level : Level) (message : String)
    (f : Files) : MountPointsOnly log f (LogFile.record log level message f) [] := by
  obtain ⟨hkeeps, hback⟩ := keeps_record f log level message
  refine ⟨hkeeps.workdir_eq, mask_record log level message f, ?_, hkeeps.tree, ?_, nofun⟩
  · intro loc node hlog hnode
    rw [node?_record hlog]
    exact hnode
  · intro loc node hnone hsome
    obtain ⟨node', hnode', -⟩ := hback.tree loc node hsome
    cases hnone.symm.trans hnode'

/-- The mode of mount points has none of the bits that no directory gets when it is made. -/
theorem directoryMode_mountPoint {dir : Location} {above : Nat}
    (h : f.tree.node? dir = some (.directory above)) :
    f.directoryMode dir mountPointMode = f.maskMode mountPointMode ||| (above &&& 0o2000) := by
  rw [directoryMode, h]
  rfl

/-- What has been made is a mount point at the end of its path. -/
theorem mountPointsOnly_made {p : Path} {place : Tree.Place} (hplace : f.placeOf p = .ok place)
    (hparent : f.tree.isDirectory place.dir = true) (hnone : f.tree.node? place.loc = none) :
    MountPointsOnly log f (f.withMountPoint place) [(p, place.loc)] := by
  have hne : place.loc ≠ [] := by simp [Tree.Place.loc]
  have hkeeps : Keeps f (f.withMountPoint place) := keeps_put f hnone
  refine ⟨rfl, rfl, ?_, hkeeps.tree, ?_, ?_⟩
  · intro loc node _ hnode
    have hother : loc ≠ place.loc := by
      rintro rfl
      cases hnone.symm.trans hnode
    rw [withMountPoint, Tree.node?_put _ hne, if_neg hother]
    exact hnode
  · intro loc node hbefore hafter
    rw [withMountPoint, Tree.node?_put _ hne] at hafter
    by_cases hloc : loc = place.loc
    · rw [if_pos hloc] at hafter
      obtain ⟨above, habove⟩ := Tree.isDirectory_iff.1 hparent
      have hdir : loc.dropLast = place.dir := by rw [hloc, Tree.Place.loc, List.dropLast_concat]
      refine ⟨⟨above, hdir ▸ hkeeps.tree.directory habove, ?_⟩, p, ?_⟩
      · rw [← directoryMode_mountPoint habove]
        exact (Option.some.inj hafter).symm
      · rw [hloc]
        exact List.mem_singleton.2 rfl
    · rw [if_neg hloc] at hafter
      cases hbefore.symm.trans hafter
  · intro q loc hmem
    cases List.mem_singleton.1 hmem
    exact ⟨place, hkeeps.placeOf hplace, rfl⟩

theorem MountPointsOnly.trans (h : MountPointsOnly log f f' new)
    (h' : MountPointsOnly log f' f'' more) : MountPointsOnly log f f'' (new ++ more) where
  workdir_eq := h'.workdir_eq.trans h.workdir_eq
  mask_eq := h'.mask_eq.trans h.mask_eq
  kept := fun loc node hlog hnode => h'.kept loc node hlog (h.kept loc node hlog hnode)
  outlined := fun loc node hnode => by
    obtain ⟨node', hnode', houtline⟩ := h.outlined loc node hnode
    obtain ⟨node'', hnode'', houtline'⟩ := h'.outlined loc node' hnode'
    exact ⟨node'', hnode'', houtline'.trans houtline⟩
  made := fun loc node hnone hsome => by
    cases hbetween : f'.tree.node? loc with
    | none =>
      obtain ⟨hnode, p, hp⟩ := h'.made loc node hbetween hsome
      rw [maskMode, h.mask_eq] at hnode
      exact ⟨hnode, p, List.mem_append_right _ hp⟩
    | some node' =>
      obtain ⟨⟨above, habove, rfl⟩, p, hp⟩ := h.made loc node' hnone hbetween
      -- A directory is none that records could have changed.
      have hkept := h'.outlined.directory hbetween
      exact ⟨⟨above, h'.outlined.directory habove, Option.some.inj (hsome.symm.trans hkept)⟩, p,
        List.mem_append_left _ hp⟩
  resolved := fun p loc hmem => by
    rcases List.mem_append.1 hmem with hmem | hmem
    · obtain ⟨place, hplace, hloc⟩ := h.resolved p loc hmem
      exact ⟨place, h'.keeps.placeOf hplace, hloc⟩
    · exact h'.resolved p loc hmem

theorem grows_of_makeDirectory (log : Option LogFile) {p : Path}
    (h : f.makeDirectory p mountPointMode = .ok f') :
    ∃ place, f.placeOf p = .ok place ∧ f.tree.isDirectory place.dir = true ∧
      Grows log f [p] [(p, place.loc)] f' := by
  obtain ⟨place, hplace, hnone, rfl⟩ := makeDirectory_eq_ok h
  have hparent := (looksUp_of_placeOf hplace).isDirectory
  exact ⟨place, hplace, hparent, .made hplace hparent hnone⟩

theorem Grows.mountPointsOnly {paths : List Path} (h : Grows log f paths new f') :
    MountPointsOnly log f f' new := by
  induction h with
  | nothing f => exact mountPointsOnly_refl log f
  | record f level message => exact mountPointsOnly_record log level message f
  | vain f p => exact mountPointsOnly_refl log f
  | made placed parent free => exact mountPointsOnly_made placed parent free
  | next first later ihfirst ihlater => exact ihfirst.trans ihlater

/-- What has been made cannot be made again. -/
theorem makeDirectory_made {p : Path} {mode : Nat} (h : f.makeDirectory p mode = .ok f') :
    f'.makeDirectory p mode = .error (.numbered .fileExists) := by
  obtain ⟨place, hplace, hnone, rfl⟩ := makeDirectory_eq_ok h
  have hne : place.loc ≠ [] := by simp [Tree.Place.loc]
  refine makeDirectory_eq_fileExists_iff.2
    (.inr ⟨place, .directory (f.directoryMode place.dir mode), ?_, ?_⟩)
  · exact (keeps_put f hnone).placeOf hplace
  · rw [Tree.node?_put _ hne, if_pos rfl]

/-- No more mount points are made than attempts, and in their order. -/
theorem Grows.sublist {paths : List Path} (h : Grows log f paths new f') :
    (new.map Prod.fst).Sublist paths := by
  induction h with
  | nothing f => exact List.Sublist.refl _
  | record f level message => exact List.Sublist.refl _
  | vain f p => exact List.nil_sublist _
  | made placed parent free => exact List.Sublist.refl _
  | next first later ihfirst ihlater =>
    rw [List.map_append]
    exact ihfirst.append ihlater

end Files
end BootSequence
