import BootSequence.Proofs.Mount.FirstBad
import BootSequence.Proofs.Mount.Listing
import BootSequence.Proofs.Tree.Directories
import BootSequence.Proofs.Tree.Reading
import BootSequence.Rehearsal

/-!
Tables that are read while they are worked through. An entry is mounted before the next item is read,
so that a mount may change what the table says behind it (`ReadsItems`). What is read is worked
through as far as its first bad item, and where no mount changes the table it is what the table says
(`mountAll_upToFirstBad`).
-/

namespace BootSequence
namespace Mount

open Table

variable {σ ρ : Type} [Reader ρ] {mounter : Mounter σ} {log : Option LogFile} {table : Path}

/-! ## One item -/

theorem mountItems_eq (c : Cursor ρ) :
    mountItems mounter table c = (do
      match c.next table (← Action.files) with
      | (none, _) => return .ok 0
      | (some (.error e), _) => return .error e
      | (some (.ok entry), left) =>
        match ← mountEntry mounter entry with
        | .error e => return .error e
        | .ok () => return (← mountItems mounter table left).map (· + 1)) := by
  rw [mountItems]
  refine congrArg (Action.files >>= ·) (funext fun now => ?_)
  split <;> rename_i heq <;> exact heq ▸ rfl

section Turn

variable {w : World σ} {c left : Cursor ρ}

theorem mountItems_of_end (h : c.next table w.files = (none, left)) :
    mountItems mounter table c log w = ⟨.ok 0, [], w⟩ := by
  rw [mountItems_eq, Action.files_bind, h]
  rfl

theorem mountItems_of_error {e : Error} (h : c.next table w.files = (some (.error e), left)) :
    mountItems mounter table c log w = ⟨.error e, [], w⟩ := by
  rw [mountItems_eq, Action.files_bind, h]
  rfl

theorem mountItems_of_refused {entry : Entry} {e : Error}
    (h : c.next table w.files = (some (.ok entry), left))
    (hentry : (mountEntry mounter entry log w).value = .error e) :
    mountItems mounter table c log w =
      ⟨.error e, (mountEntry mounter entry log w).trace, (mountEntry mounter entry log w).world⟩ := by
  rw [mountItems_eq, Action.files_bind, h]
  simp only [Action.bind_apply, hentry, Action.pure_apply, List.append_nil]

theorem mountItems_of_mounted {entry : Entry}
    (h : c.next table w.files = (some (.ok entry), left))
    (hentry : (mountEntry mounter entry log w).value = .ok ()) :
    mountItems mounter table c log w =
      let later := mountItems mounter table left log (mountEntry mounter entry log w).world
      ⟨later.value.map (· + 1), (mountEntry mounter entry log w).trace ++ later.trace,
        later.world⟩ := by
  rw [mountItems_eq, Action.files_bind, h]
  simp only [Action.bind_apply, hentry, Action.pure_apply, List.append_nil]

end Turn

/-! ## Item after item -/

/-- The items that are read of a table, each in the world that the mounts before have left. Behind a
bad one none is read. -/
inductive ReadsItems (mounter : Mounter σ) (log : Option LogFile) (table : Path) :
    World σ → Cursor ρ → List Item → Prop where
  | ended {w : World σ} {c last : Cursor ρ} (next : c.next table w.files = (none, last)) :
      ReadsItems mounter log table w c []
  | bad {w : World σ} {c left : Cursor ρ} {item : Item} {e : Error} {steps : Trace}
      (next : c.next table w.files = (some item, left)) (bad : Bad mounter log w item e steps) :
      ReadsItems mounter log table w c [item]
  | mounted {w : World σ} {c left : Cursor ρ} {e : Entry} {status : DirStatus} {items : List Item}
      (next : c.next table w.files = (some (.ok e), left))
      (directory : (ensureDir e.target log w).value = .ok status)
      (accepted : (mounter e (ensureDir e.target log w).world).1 = .ok ())
      (rest : ReadsItems mounter log table (mountEntry mounter e log w).world left items) :
      ReadsItems mounter log table w c (.ok e :: items)

theorem exists_readsItems (mounter : Mounter σ) (log : Option LogFile) (table : Path) (w : World σ)
    (c : Cursor ρ) : ∃ items, ReadsItems mounter log table w c items := by
  induction c using @mountItems.induct ρ _ table generalizing w with
  | case1 c ih =>
    rcases hnext : c.next table w.files with ⟨_ | e | e, left⟩
    · exact ⟨[], .ended hnext⟩
    · exact ⟨[.error e], .bad hnext (.record e)⟩
    · cases hdir : (ensureDir e.target log w).value with
      | error fault => exact ⟨[.ok e], .bad hnext (.mountPoint hdir)⟩
      | ok status =>
        cases hacc : (mounter e (ensureDir e.target log w).world).1 with
        | error fault => exact ⟨[.ok e], .bad hnext (.refused hdir hacc)⟩
        | ok u =>
          obtain ⟨items, hrest⟩ := ih w.files e left hnext (mountEntry mounter e log w).world
          exact ⟨.ok e :: items, .mounted hnext hdir hacc hrest⟩

/-- A table is worked through as its items are read. -/
theorem mountItems_of_readsItems {w : World σ} {c : Cursor ρ} {items : List Item}
    (h : ReadsItems mounter log table w c items) :
    mountItems mounter table c log w = mountEach mounter items log w := by
  induction h with
  | ended next => exact mountItems_of_end next
  | @bad w c left item e steps next bad =>
    cases bad with
    | record => exact mountItems_of_error next
    | @mountPoint e fault hdir =>
      have hvalue : (mountEntry mounter e log w).value = .error (.mountPoint e.target fault) := by
        rw [mountEntry_of_error log mounter hdir]
      rw [mountItems_of_refused next hvalue, mountEach_cons_of_error hvalue]
    | @refused e status fault hdir href =>
      have hvalue : (mountEntry mounter e log w).value = .error (.refused e fault) := by
        rw [mountEntry_of_refused log mounter hdir href]
      rw [mountItems_of_refused next hvalue, mountEach_cons_of_error hvalue]
  | @mounted w c left e status items next hdir hacc rest ih =>
    have hvalue : (mountEntry mounter e log w).value = .ok () := by
      rw [mountEntry_of_accepted log mounter hdir hacc]
    rw [mountItems_of_mounted next hvalue, mountEach_cons_of_ok hvalue]
    dsimp only
    rw [ih]

/-- Where mounting what a feed says keeps a reader like that feed, it is what is mounted. -/
theorem mountItems_of_readsAs {R : ρ → Feed → Prop} {I : World σ → Prop}
    (hR : ∀ w, I w → ReadsAs w.files R) {w : World σ} {c : Cursor ρ} {feed : Feed}
    (hI : ∀ done later w', itemsFrom table c.number feed.readings = done.map .ok ++ later →
      Mounts mounter log w done w' → I w')
    (hfeed : R c.reader feed) :
    mountItems mounter table c log w =
      mountEach mounter (itemsFrom table c.number feed.readings) log w := by
  induction c using @mountItems.induct ρ _ table generalizing w feed with
  | case1 c ih =>
    have hw : I w := hI [] _ w rfl (.nil w)
    have hnext := c.next_of_readsAs table (hR w hw) hfeed
    rcases hread : c.next table w.files with ⟨_ | item, left⟩
    · rw [hread] at hnext
      rw [hnext.2]
      exact mountItems_of_end hread
    · rw [hread] at hnext
      obtain ⟨unread, hleft, hitems⟩ := hnext
      rw [hitems] at hI ⊢
      cases item with
      | error e => exact mountItems_of_error hread
      | ok e =>
        cases hvalue : (mountEntry mounter e log w).value with
        | error error => rw [mountItems_of_refused hread hvalue, mountEach_cons_of_error hvalue]
        | ok u =>
          obtain ⟨status, hdir, hacc⟩ := accepted_of_mountEntry log mounter hvalue
          have hmore := ih w.files e left hread (fun done later w' hdone hmounts =>
            hI (e :: done) later w' (congrArg _ hdone) (.cons hdir hacc hmounts)) hleft
          rw [mountItems_of_mounted hread hvalue, mountEach_cons_of_ok hvalue]
          dsimp only
          rw [hmore]

theorem ReadsItems.item_of_mem {w : World σ} {c : Cursor ρ} {items : List Item}
    (h : ReadsItems mounter log table w c items) {item : Item} (hitem : item ∈ items) :
    (∃ e, item = .error (.cannotRead table (.numbered e))) ∨
      ∃ number line, lineItem table number line = some item := by
  induction h with
  | ended => cases hitem
  | bad next =>
    obtain rfl := List.mem_singleton.1 hitem
    exact Cursor.item_of_next table next
  | mounted next _ _ _ ih =>
    rcases List.mem_cons.1 hitem with rfl | hmem
    · exact Cursor.item_of_next table next
    · exact ih hmem

/-! ## Tables -/

/-- A table holds a content as long as what it says is mounted. -/
def Stays (mounter : Mounter σ) (log : Option LogFile) (table : Path) (w : World σ) (loc : Location)
    (content : Octets) : Prop :=
  ∀ done later w', items table (Feed.ofOctets content) = done.map .ok ++ later →
    Mounts mounter log w done w' → w'.files.contentAt loc = .ok content

section Tables

variable {w : World σ}

theorem mountAll_of_unopened {fault : Fault} (h : OpenFile.ofPath w.files table = .error fault) :
    mountAll mounter table log w = ⟨.error (.cannotOpen table fault), [], w⟩ := by
  rw [mountAll, Action.files_bind, h]
  rfl

theorem mountAll_of_opened {file : OpenFile} (h : OpenFile.ofPath w.files table = .ok file) :
    mountAll mounter table log w = mountItems mounter table ⟨file, 0⟩ log w := by
  rw [mountAll, Action.files_bind, h]

/-- A directory can be opened, and then fails to be read. -/
theorem mountAll_of_unreadable {file : OpenFile} (hopens : OpenFile.ofPath w.files table = .ok file)
    {e : Errno} (he : w.files.contentAt file.loc = .error e) :
    mountAll mounter table log w = ⟨.error (.cannotRead table (.numbered e)), [], w⟩ := by
  have hne : e ≠ .interrupted := fun h => w.files.contentAt_ne_interrupted file.loc (h ▸ he)
  have hread : Reader.readLine file w.files = (.error e, file) := by
    simp only [Reader.readLine, he]
  have hnext : Cursor.next table w.files (⟨file, 0⟩ : Cursor OpenFile) =
      (some (.error (.cannotRead table (.numbered e))), ⟨file, 0⟩) := by
    rw [Cursor.next_eq, hread]
    exact if_neg hne
  rw [mountAll_of_opened hopens, mountItems_of_error hnext]

theorem mountAll_of_stays {file : OpenFile} {content : Octets}
    (hopens : OpenFile.ofPath w.files table = .ok file)
    (hstays : Stays mounter log table w file.loc content) :
    mountAll mounter table log w =
      mountEach mounter (items table (Feed.ofOctets content)) log w := by
  have hcontent : w.files.contentAt file.loc = .ok content := hstays [] _ w rfl (.nil w)
  obtain ⟨hreach, hleft⟩ := OpenFile.left_ofPath hopens hcontent
  rw [mountAll_of_opened hopens]
  refine mountItems_of_readsAs (I := fun w => w.files.contentAt file.loc = .ok content)
    (fun w => OpenFile.readsAs) hstays ⟨rfl, hreach, ?_⟩
  rw [hleft]

/-- However a table arrives, the mounts do not change it. -/
theorem mountItems_ofDeliveries (ds : List Delivery) :
    mountItems mounter table (Cursor.ofDeliveries ds) log w =
      mountEach mounter (items table (Feed.ofDeliveries ds)) log w :=
  mountItems_of_readsAs (I := fun _ => True) (fun w _ => Source.readsAs w.files)
    (fun _ _ _ _ _ => trivial) (Source.feed_ofDeliveries ds)

end Tables

/-! ## Tables that mounts leave alone -/

/-- The mounter leaves what is at a location as it is, and it is not the log file. -/
structure LeftAlone (mounter : Mounter σ) (log : Option LogFile) (loc : Location) : Prop where
  mounts : ∀ entry w node, w.files.tree.node? loc = some node →
    (mounter entry w).2.files.tree.node? loc = some node
  not_log : ∀ l ∈ log, l.loc ≠ loc

section LeftAlone

variable {loc : Location} (h : LeftAlone mounter log loc)
include h

/-- To make a directory is to change nothing that is there. -/
theorem LeftAlone.ensureDir {w : World σ} {node : Node} (hnode : w.files.tree.node? loc = some node)
    (path : Path) : (ensureDir path log w).world.files.tree.node? loc = some node := by
  cases hmade : w.files.makeDirectory path mountPointMode with
  | ok made =>
    obtain ⟨place, -, hnone, rfl⟩ := Files.makeDirectory_eq_ok hmade
    have hne : loc ≠ place.loc := by
      rintro rfl
      cases hnone.symm.trans hnode
    have hroot : place.loc ≠ [] := by
      intro hnil
      rw [hnil] at hnone
      cases hnone
    rw [ensureDir_of_ok log hmade, Files.node?_record h.not_log, Tree.node?_put _ hroot, if_neg hne]
    exact hnode
  | error fault =>
    by_cases hkind : fault.kind = .alreadyExists
    · rw [ensureDir_of_exists log hmade hkind, Files.node?_record h.not_log]
      exact hnode
    · rw [ensureDir_of_error log hmade hkind]
      exact hnode

theorem LeftAlone.node?_eq {w w' : World σ} {done : List Entry} {node : Node}
    (hmounts : Mounts mounter log w done w') (hnode : w.files.tree.node? loc = some node) :
    w'.files.tree.node? loc = some node := by
  induction hmounts with
  | nil w => exact hnode
  | @cons w w' e es status hdir hacc _ ih =>
    refine ih ?_
    rw [mountEntry_of_accepted log mounter hdir hacc, Action.log_apply, Files.node?_record h.not_log]
    exact h.mounts _ _ _ (h.ensureDir hnode e.target)

/-- A table that is left alone holds what it held when it was opened. -/
theorem LeftAlone.opened {w : World σ} {mode : Nat} {content : Octets}
    (hopens : w.files.openToRead table = .ok loc)
    (hnode : w.files.tree.node? loc = some (.file mode content)) :
    OpenFile.ofPath w.files table = .ok (.atStart loc content) ∧
      Stays mounter log table w loc content := by
  have hcontent : ∀ f : Files, f.tree.node? loc = some (.file mode content) →
      f.contentAt loc = .ok content := by
    intro f hf
    rw [Files.contentAt, hf]
  exact ⟨OpenFile.ofPath_of_content hopens (hcontent _ hnode),
    fun done later w' _ hmounts => hcontent _ (h.node?_eq hmounts hnode)⟩

end LeftAlone

/-! ## Mount tables -/

/-- A table is worked through as far as its first bad item, whatever its lines hold, wherever its
reading fails, and whatever the mounter does. One that cannot be opened or read leads to nothing. -/
theorem mountAll_upToFirstBad (mounter : Mounter σ) (log : Option LogFile) (w : World σ)
    (table : Path) :
    -- however it arrives
    (∀ ds, UpToFirstBad mounter log w (items table (Feed.ofDeliveries ds))
      (mountItems mounter table (Cursor.ofDeliveries ds) log w)) ∧
    -- in a file, as it is read between the mounts, and as it stands there if they do not change it
    (∀ file, OpenFile.ofPath w.files table = .ok file →
      ∃ read, ReadsItems mounter log table w ⟨file, 0⟩ read ∧
        UpToFirstBad mounter log w read (mountAll mounter table log w)) ∧
    (∀ file content, OpenFile.ofPath w.files table = .ok file →
      Stays mounter log table w file.loc content →
      UpToFirstBad mounter log w (items table (Feed.ofOctets content))
        (mountAll mounter table log w)) ∧
    -- in no file
    (∀ file e, OpenFile.ofPath w.files table = .ok file → w.files.contentAt file.loc = .error e →
      mountAll mounter table log w = ⟨.error (.cannotRead table (.numbered e)), [], w⟩) ∧
    ∀ fault, OpenFile.ofPath w.files table = .error fault →
      mountAll mounter table log w = ⟨.error (.cannotOpen table fault), [], w⟩ := by
  refine ⟨fun ds => ?_, fun file hopens => ?_, fun file content hopens hstays => ?_,
    fun file e hopens he => mountAll_of_unreadable hopens he, fun fault => mountAll_of_unopened⟩
  · rw [mountItems_ofDeliveries]
    exact mountEach_upToFirstBad _ w
  · obtain ⟨read, hread⟩ := exists_readsItems mounter log table w (⟨file, 0⟩ : Cursor OpenFile)
    refine ⟨read, hread, ?_⟩
    rw [mountAll_of_opened hopens, mountItems_of_readsItems hread]
    exact mountEach_upToFirstBad read w
  · rw [mountAll_of_stays hopens hstays]
    exact mountEach_upToFirstBad _ w

/-- A rehearsal mounts nothing. -/
theorem leftAlone_rehearsal (faults : List (String × Fault)) (loc : Location) :
    LeftAlone (σ := σ) (Rehearsal.mounter faults) none loc where
  mounts := by
    intro entry w node hnode
    unfold Rehearsal.mounter
    split <;> exact hnode
  not_log := nofun

def sampleTable : Octets :=
  Octets.ofString "proc a proc 14\n# none\nbogus b bogusfs 0\nonly two\n"

/-- A table, and beside it a directory to work in. -/
def sampleWorld : World Unit :=
  ⟨⟨⟨[([.ofString "w"], .directory 0o777), ([.ofString "fstab"], .file 0o644 sampleTable)]⟩,
    [.ofString "w"], 0o022⟩, ()⟩

def sampleMounter : Mounter Unit := Rehearsal.mounter [("bogusfs", .numbered ⟨19⟩)]

/-- The second entry is refused, and the malformed record behind it is not even noticed. -/
theorem mountAll_upToFirstBad_of_refused :
    let first : Entry := ⟨"proc", .ofString "a", "proc", ⟨14⟩, none⟩
    let second : Entry := ⟨"bogus", .ofString "b", "bogusfs", ⟨0⟩, none⟩
    let run := mountAll sampleMounter (.ofString "/fstab") none sampleWorld
    OpenFile.ofPath sampleWorld.files (.ofString "/fstab") =
        .ok (.atStart [.ofString "fstab"] sampleTable) ∧
      Stays sampleMounter none (.ofString "/fstab") sampleWorld [.ofString "fstab"] sampleTable ∧
      run.value = .error (.refused second (.numbered ⟨19⟩)) ∧
      run.trace.effects = first.steps true ++ second.steps false := by
  intro first second run
  have hnode : sampleWorld.files.tree.node? [.ofString "fstab"] =
      some (.file 0o644 sampleTable) := by cbv
  have hlocated : sampleWorld.files.openToRead (.ofString "/fstab") = .ok [.ofString "fstab"] := by
    cbv
  obtain ⟨hopens, hstays⟩ :=
    (leftAlone_rehearsal [("bogusfs", .numbered ⟨19⟩)] _).opened hlocated hnode
  have hitems : Table.items (.ofString "/fstab") (Feed.ofOctets sampleTable) =
      [first].map .ok ++ .ok second ::
        [.error (.malformed (.ofString "/fstab") 4 "only two")] := by cbv
  have hdir : (ensureDir first.target none sampleWorld).value = .ok .created := by cbv
  have hmounts : Mounts sampleMounter none sampleWorld [first]
      (mountEntry sampleMounter first none sampleWorld).world := .cons hdir (by cbv) (.nil _)
  have hdir' : (ensureDir second.target none
      (mountEntry sampleMounter first none sampleWorld).world).value = .ok .created := by cbv
  have hbad : Bad sampleMounter none (mountEntry sampleMounter first none sampleWorld).world
      (.ok second) (.refused second (.numbered ⟨19⟩)) (second.steps false) :=
    .refused hdir' (by cbv)
  have htable := mountAll_upToFirstBad sampleMounter none sampleWorld (.ofString "/fstab")
  have hrun := htable.2.2.1 _ _ hopens hstays
  exact ⟨hopens, hstays, hrun.stopped _ _ _ _ _ _ hitems hmounts hbad⟩

end Mount
end BootSequence
