import BootSequence.Program.MountCommand
import BootSequence.Proofs.Mount.Keys
import BootSequence.Proofs.Mount.Live
import BootSequence.Proofs.Mount.Target
import BootSequence.Proofs.Text.Encoding

/-!
Long options in a command line. They are the arguments that are text behind two dashes, and are
told from the others one by one, so that only their order among themselves counts
(`fold_of_splits`). What they say goes to the kernel as the data of a mount for which the command
line names a type (`fold_handsOver`).
-/

namespace BootSequence
namespace Mount
namespace Options

theorem long?_eq_some_iff {arg : Octets} {text : List Char} :
    long? arg = some text ↔ arg = Utf8.encode ('-' :: '-' :: text) := by
  rw [← Utf8.decode?_eq_some_iff, long?]
  split
  · next option h =>
    rw [h]
    simp
  · next h =>
    constructor
    · nofun
    · intro hdecode
      exact absurd hdecode (h text)

/-- Arguments in order, with the texts of the long options taken out of the others. -/
inductive Splits : List Octets → List Octets → List (List Char) → Prop where
  | nil : Splits [] [] []
  | long {args rest : List Octets} {texts : List (List Char)} (text : List Char)
      (more : Splits args rest texts) :
      Splits (Utf8.encode ('-' :: '-' :: text) :: args) rest (text :: texts)
  | kept {args rest : List Octets} {texts : List (List Char)} {arg : Octets}
      (other : ∀ text, arg ≠ Utf8.encode ('-' :: '-' :: text)) (more : Splits args rest texts) :
      Splits (arg :: args) (arg :: rest) texts

section Splits

variable {args rest : List Octets} {texts : List (List Char)}

theorem fold_of_splits (h : Splits args rest texts) : fold args = (rest, texts.foldl merge []) := by
  have hparts : args.filter (fun arg => (long? arg).isNone) = rest ∧
      args.filterMap long? = texts := by
    induction h with
    | nil => exact ⟨rfl, rfl⟩
    | long text more ih =>
      have hlong := long?_eq_some_iff.2 (Eq.refl (Utf8.encode ('-' :: '-' :: text)))
      rw [List.filter_cons_of_neg (by simp [hlong]), List.filterMap_cons_some hlong, ih.1, ih.2]
      exact ⟨rfl, rfl⟩
    | @kept args rest texts arg other more ih =>
      have hnone : long? arg = none := by
        cases hlong : long? arg with
        | none => rfl
        | some text => exact absurd (long?_eq_some_iff.1 hlong) (other text)
      rw [List.filter_cons_of_pos (by simp [hnone]), List.filterMap_cons_none hnone, ih.1, ih.2]
      exact ⟨rfl, rfl⟩
  rw [fold, hparts.1, hparts.2]

theorem exists_splits (args : List Octets) : ∃ rest texts, Splits args rest texts := by
  induction args with
  | nil => exact ⟨[], [], .nil⟩
  | cons arg args ih =>
    obtain ⟨rest, texts, h⟩ := ih
    by_cases hlong : ∃ text, arg = Utf8.encode ('-' :: '-' :: text)
    · obtain ⟨text, rfl⟩ := hlong
      exact ⟨rest, text :: texts, .long text h⟩
    · exact ⟨arg :: rest, texts, .kept (not_exists.1 hlong) h⟩

theorem Splits.append {args' rest' : List Octets} {texts' : List (List Char)}
    (h : Splits args rest texts) (h' : Splits args' rest' texts') :
    Splits (args ++ args') (rest ++ rest') (texts ++ texts') := by
  induction h with
  | nil => exact h'
  | long text more ih => exact .long text ih
  | kept other more ih => exact .kept other ih

/-- There are no long options left. -/
theorem Splits.rest_splits (h : Splits args rest texts) : Splits rest rest [] := by
  induction h with
  | nil => exact .nil
  | long text more ih => exact ih
  | kept other more ih => exact .kept other ih

end Splits
end Options

/-! ## Entries of tables -/

theorem mounts_mountEntry_cases {σ : Type} (mounter : Mounter σ) (e : Entry)
    (log : Option LogFile) (w : World σ) :
    (mountEntry mounter e log w).trace.mounts = [] ∨
      (mountEntry mounter e log w).trace.mounts = [e] := by
  cases h : (ensureDir e.target log w).value with
  | ok status => exact .inr (mounts_mountEntry log mounter h)
  | error fault =>
    left
    rw [mountEntry_of_error log mounter h, ← Trace.mounts_effects, effects_ensureDir]
    rfl

theorem mem_items_of_mem_mounts {σ : Type} (mounter : Mounter σ) {items : List Table.Item}
    {log : Option LogFile} {w : World σ} {e : Entry}
    (h : e ∈ (mountEach mounter items log w).trace.mounts) : .ok e ∈ items := by
  induction items generalizing w with
  | nil => cases h
  | cons item items ih =>
    cases item with
    | error error => cases h
    | ok entry =>
      have hentry : e ∈ (mountEntry mounter entry log w).trace.mounts → e = entry := by
        intro hm
        rcases mounts_mountEntry_cases mounter entry log w with hnone | hone
        · rw [hnone] at hm
          cases hm
        · rw [hone] at hm
          exact List.mem_singleton.1 hm
      cases hvalue : (mountEntry mounter entry log w).value with
      | error error =>
        rw [mountEach_cons_of_error hvalue] at h
        rw [hentry h]
        exact List.mem_cons_self
      | ok u =>
        rw [mountEach_cons_of_ok hvalue] at h
        rw [Trace.mounts_append] at h
        rcases List.mem_append.1 h with h | h
        · rw [hentry h]
          exact List.mem_cons_self
        · exact List.mem_cons_of_mem _ (ih h)

/-- A table says nothing about data. -/
theorem Table.data_of_lineItem {table : Path} {number : Nat} {line : List Char} {e : Entry}
    (h : lineItem table number line = some (.ok e)) : e.data = none := by
  unfold lineItem at h
  split at h
  · cases h
  · split at h
    · cases h
      rfl
    · cases h

theorem data_of_mem_mounts_mountAll {σ : Type} (mounter : Mounter σ) (table : Path)
    (log : Option LogFile) (w : World σ) {e : Entry}
    (h : e ∈ (mountAll mounter table log w).trace.mounts) : e.data = none := by
  cases hopens : OpenFile.ofPath w.files table with
  | error fault =>
    rw [mountAll_of_unopened hopens] at h
    cases h
  | ok file =>
    obtain ⟨items, hitems⟩ := exists_readsItems mounter log table w (⟨file, 0⟩ : Table.Cursor _)
    rw [mountAll_of_opened hopens, mountItems_of_readsItems hitems] at h
    rcases hitems.item_of_mem (mem_items_of_mem_mounts mounter h) with
      ⟨errno, herror⟩ | ⟨number, line, hline⟩
    · cases herror
    · exact Table.data_of_lineItem hline

end Mount

namespace Program
namespace MountCommand

open Mount.Options (keyList fresh merge fold Splits)

/-! ## Data -/

theorem data?_ne_empty (options : List Char) : data? options ≠ some "" := by
  unfold data?
  split
  · nofun
  · next h =>
    intro hdata
    apply h
    rw [List.isEmpty_iff]
    have htext := congrArg String.toList (Option.some.inj hdata)
    rwa [String.toList_ofList] at htext

theorem isSome_data?_iff {options : List Char} : (data? options).isSome ↔ options ≠ [] := by
  unfold data?
  cases options <;> simp

/-! ## Mounts -/

/-- The mounts that are asked for: those that the table lists, if all are wanted, and at most one
for the type that is named. Only that one has data. -/
def HandsOver (request : Request) (data : Option String) (mounts : List Mount.Entry) : Prop :=
  ∃ listed targeted, mounts = listed ++ targeted ∧
    (∀ e ∈ listed, request.all = true ∧ e.data = none) ∧
    targeted.length ≤ 1 ∧ ∀ e ∈ targeted, request.fsType = some e.fsType ∧ e.data = data

section Mounts

variable {σ : Type} (mounter : Mounter σ) (log : Option LogFile)

theorem mountOne_of_words {words more : List String} {source target : String}
    (h : words.reverse = target :: source :: more) (fsType : String) (data : Option String)
    (w : World σ) :
    (mountOne mounter fsType words data log w).trace =
      (Mount.mountEntry mounter ⟨source, .ofString target, fsType, .magic, data⟩ log w).trace := by
  simp only [mountOne, h, Action.trace_bind, Action.pure_apply, List.append_nil]
  rfl

theorem mounts_mountOne (fsType : String) (words : List String) (data : Option String)
    (w : World σ) :
    let mounts := (mountOne mounter fsType words data log w).trace.mounts
    mounts.length ≤ 1 ∧ ∀ e ∈ mounts, e.fsType = fsType ∧ e.data = data := by
  have hfew : (mountOne mounter fsType words data log w).trace = [] ∨
      ∃ source target more, words.reverse = target :: source :: more := by
    rcases h : words.reverse with _ | ⟨target, _ | ⟨source, more⟩⟩
    · simp [mountOne, h]
    · simp [mountOne, h]
    · exact .inr ⟨source, target, more, rfl⟩
  dsimp only
  rcases hfew with hnone | ⟨source, target, more, h⟩
  · rw [hnone]
    exact ⟨Nat.zero_le _, nofun⟩
  · rw [mountOne_of_words mounter log h]
    rcases Mount.mounts_mountEntry_cases mounter ⟨source, .ofString target, fsType, .magic, data⟩
      log w with hnone | hone
    · rw [hnone]
      exact ⟨Nat.zero_le _, nofun⟩
    · rw [hone]
      refine ⟨Nat.le_refl _, ?_⟩
      intro e he
      rw [List.mem_singleton.1 he]
      exact ⟨rfl, rfl⟩

/-- What is done when the table is done with. -/
def serveType (mounter : Mounter σ) (request : Request) (data : Option String) :
    Except Failure Unit → Action σ (Except Failure Unit)
  | .error failure => return .error failure
  | .ok () =>
    match request.fsType with
    | none => return .ok ()
    | some fsType => mountOne mounter fsType request.words data

theorem serve_eq (request : Request) (data : Option String) :
    serve mounter request data =
      (if request.all then mountAll mounter else pure (.ok ())) >>=
        serveType mounter request data := by
  unfold serve
  cases request.all with
  | true =>
    refine congrArg (mountAll mounter >>= ·) (funext fun listed => ?_)
    cases listed <;> rfl
  | false => rfl

theorem mounts_serveType (request : Request) (data : Option String) (listed : Except Failure Unit)
    (w : World σ) :
    let mounts := (serveType mounter request data listed log w).trace.mounts
    mounts.length ≤ 1 ∧ ∀ e ∈ mounts, request.fsType = some e.fsType ∧ e.data = data := by
  have hnone : ([] : List Mount.Entry).length ≤ 1 ∧
      ∀ e ∈ ([] : List Mount.Entry), request.fsType = some e.fsType ∧ e.data = data :=
    ⟨Nat.zero_le _, List.forall_mem_nil _⟩
  cases listed with
  | error failure => exact hnone
  | ok u =>
    cases hType : request.fsType with
    | none =>
      rw [hType] at hnone
      simp only [serveType, hType]
      exact hnone
    | some fsType =>
      obtain ⟨hlength, hdata⟩ := mounts_mountOne mounter log fsType request.words data w
      simp only [serveType, hType]
      refine ⟨hlength, ?_⟩
      intro e he
      obtain ⟨he, hdata⟩ := hdata e he
      exact ⟨by rw [he], hdata⟩

/-- The table comes first, and a failure there ends it. -/
theorem handsOver_serve (request : Request) (data : Option String) (w : World σ) :
    HandsOver request data (serve mounter request data log w).trace.mounts := by
  let first : Action σ (Except Failure Unit) :=
    if request.all then mountAll mounter else pure (.ok ())
  have hlisted : ∀ e ∈ (first log w).trace.mounts, request.all = true ∧ e.data = none := by
    intro e he
    by_cases hall : request.all = true
    · refine ⟨hall, ?_⟩
      simp only [first, if_pos hall, mountAll, Action.trace_bind, Action.pure_apply,
        List.append_nil] at he
      exact Mount.data_of_mem_mounts_mountAll mounter _ log w he
    · simp only [first, if_neg hall, Action.pure_apply] at he
      cases he
  obtain ⟨hlength, htargeted⟩ :=
    mounts_serveType mounter log request data (first log w).value (first log w).world
  rw [serve_eq, Action.trace_bind, Trace.mounts_append]
  exact ⟨_, _, rfl, hlisted, hlength, htargeted⟩

/-- What is told of a failure is no mount. -/
theorem mounts_serveAll (request : Request) (data : Option String) (w : World σ) :
    (serveAll mounter request data log w).trace.mounts =
      (serve mounter request data log w).trace.mounts := by
  rw [serveAll, Action.trace_bind, Trace.mounts_append]
  cases (serve mounter request data log w).value with
  | ok u => exact List.append_nil _
  | error failure => cases failure <;> exact List.append_nil _

theorem mounts_serve_of_words {request : Request} {fsType source target : String}
    {more : List String} {status : Mount.DirStatus} (hall : request.all = false)
    (hType : request.fsType = some fsType)
    (hwords : request.words.reverse = target :: source :: more)
    {w : World σ} (hdirectory : (Mount.ensureDir (.ofString target) log w).value = .ok status)
    (data : Option String) :
    (serve mounter request data log w).trace.mounts =
      [⟨source, .ofString target, fsType, .magic, data⟩] := by
  have hserve : serve mounter request data = mountOne mounter fsType request.words data := by
    simp only [serve, hall, hType, Bool.false_eq_true, if_false, pure_bind]
  rw [hserve, mountOne_of_words mounter log hwords]
  exact Mount.mounts_mountEntry log mounter hdirectory

end Mounts

/-- What becomes of the long options among the arguments. -/
structure Folded (args : List Octets) (texts : List (List Char)) : Prop where
  /-- The others are left, in order. -/
  splits : Splits args (fold args).1 texts
  /-- The keys of the options are collected. -/
  options_eq : (fold args).2 = [','].intercalate (fresh [] (texts.flatMap (·.splitOn ',')))
  keyList_eq : keyList (fold args).2 = fresh [] (texts.flatMap (·.splitOn ','))
  nodup : (keyList (fold args).2).Nodup
  data_isSome_iff : (data? (fold args).2).isSome ↔
    ∃ text ∈ texts, ∃ key ∈ text.splitOn ',', key ≠ []

theorem exists_folded (args : List Octets) : ∃ texts, Folded args texts := by
  obtain ⟨rest, texts, hsplits⟩ := Mount.Options.exists_splits args
  have hfold := Mount.Options.fold_of_splits hsplits
  have hkeys : keyList (fold args).2 = fresh [] (texts.flatMap (·.splitOn ',')) := by
    rw [hfold]
    exact Mount.Options.keyList_foldl_merge [] texts
  refine ⟨texts,
    { splits := by rwa [hfold]
      options_eq := by rw [← hkeys, Mount.Options.intercalate_keyList]
      keyList_eq := hkeys
      nodup := by
        rw [hkeys]
        exact Mount.Options.nodup_fresh _ _
      data_isSome_iff := ?_ }⟩
  rw [isSome_data?_iff, Ne, ← Mount.Options.keyList_eq_nil_iff, hkeys,
    Mount.Options.fresh_eq_nil_iff]
  simp only [List.mem_flatMap, List.not_mem_nil]
  constructor
  · intro h
    by_contra hnone
    apply h
    rintro key ⟨text, htext, hkey⟩ hne
    exact hnone ⟨text, htext, key, hkey, hne⟩
  · rintro ⟨text, htext, key, hkey, hne⟩ h
    exact h key ⟨text, htext, hkey⟩ hne

/-- Long options are folded out of a command line wherever they stand in it, and part by part; and
what they say is the data of the mount for which a type is named, and of no other. -/
theorem fold_handsOver {σ : Type} (mounter : Mounter σ) (log : Option LogFile) (w : World σ)
    (args : List Octets) :
    (∃ texts, Folded args texts) ∧
    (∀ more, fold (args ++ more) =
      ((fold args).1 ++ (fold more).1, merge (fold args).2 (fold more).2)) ∧
    (∀ moved rest texts, Splits args rest texts → Splits moved rest texts →
      fold moved = fold args) ∧
    fold (fold args).1 = ((fold args).1, []) ∧
    data? (fold args).2 ≠ some "" ∧
    ∀ request, (parse (fold args).1).answer = .ok request →
      ∃ action, (act mounter args).answer = .ok action ∧
        HandsOver request (data? (fold args).2) (action log w).trace.mounts ∧
        ∀ fsType source target more status, request.all = false → request.fsType = some fsType →
          request.words.reverse = target :: source :: more →
          (Mount.ensureDir (.ofString target) log w).value = .ok status →
          (action log w).trace.mounts =
            [⟨source, .ofString target, fsType, .magic, data? (fold args).2⟩] := by
  obtain ⟨rest, texts, hsplits⟩ := Mount.Options.exists_splits args
  have hfold := Mount.Options.fold_of_splits hsplits
  refine ⟨exists_folded args, ?_, ?_, ?_, data?_ne_empty _, ?_⟩
  · intro more
    obtain ⟨rest', texts', hmore⟩ := Mount.Options.exists_splits more
    rw [Mount.Options.fold_of_splits (hsplits.append hmore), hfold,
      Mount.Options.fold_of_splits hmore, List.foldl_append, Mount.Options.merge_foldl_merge]
  · intro moved rest texts hargs hmoved
    rw [Mount.Options.fold_of_splits hargs, Mount.Options.fold_of_splits hmoved]
  · rw [hfold]
    exact Mount.Options.fold_of_splits hsplits.rest_splits
  · intro request hrequest
    refine ⟨serveAll mounter request (data? (fold args).2), ?_, ?_, ?_⟩
    · simp only [act, hrequest]
      rfl
    · rw [mounts_serveAll]
      exact handsOver_serve mounter log request _ w
    · intro fsType source target more status hall hType hwords hdirectory
      rw [mounts_serveAll]
      exact mounts_serve_of_words mounter log hall hType hwords hdirectory _

/-- A memory file system whose options stand before and behind its other arguments, with an argument
that is no text among others. -/
theorem fold_handsOver_tmpfs :
    let ro := Octets.ofString "--ro,,"
    let size := Octets.ofString "--size=1m,ro"
    let type := Octets.ofString "-ttmpfs"
    let words := [Octets.ofString "none", Octets.ofString "t"]
    let malformed : Octets := [0x2D, 0x2D, 0xFF]
    let request : Request := ⟨false, some "tmpfs", ["none", "t"]⟩
    let w : World Unit := ⟨⟨.empty, [], 0⟩, ()⟩
    fold [ro, malformed, type, size] = fold [malformed, ro, size, type] ∧
      (parse (fold (ro :: type :: size :: words)).1).answer = .ok request ∧
      ∃ action, (act Mount.Kernel.mounter (ro :: type :: size :: words)).answer = .ok action ∧
        (action none w).trace.mounts =
          [⟨"none", .ofString "t", "tmpfs", .magic, some "ro,size=1m"⟩] := by
  intro ro size type words malformed request w
  have hother : ∀ text, malformed ≠ Utf8.encode ('-' :: '-' :: text) := by
    intro text h
    cases (Utf8.decode?_eq_some_iff.2 h).symm.trans (by decide : Utf8.decode? malformed = none)
  have hshort : ∀ text, type ≠ Utf8.encode ('-' :: '-' :: text) := by
    intro text h
    cases (Utf8.decode?_eq_some_iff.2 h).symm.trans
      (by decide : Utf8.decode? type = some "-ttmpfs".toList)
  have hsplits : Splits [ro, malformed, type, size] [malformed, type]
      ["ro,,".toList, "size=1m,ro".toList] :=
    .long "ro,,".toList (.kept hother (.kept hshort (.long "size=1m,ro".toList .nil)))
  have hmoved : Splits [malformed, ro, size, type] [malformed, type]
      ["ro,,".toList, "size=1m,ro".toList] :=
    .kept hother (.long "ro,,".toList (.long "size=1m,ro".toList (.kept hshort .nil)))
  have hfolded : fold (ro :: type :: size :: words) = (type :: words, "ro,size=1m".toList) := by
    decide
  have hread : (CommandLine.parse grammar (type :: words)).map Request.ofMatches =
      .ok request := by
    rfl
  have hrequest : (parse (fold (ro :: type :: size :: words)).1).answer = .ok request := by
    rw [hfolded, parse, CommandLine.parseSkipping, hread]
  have hdirectory : (Mount.ensureDir (.ofString "t") none w).value = .ok .created := by cbv
  have hfold := fold_handsOver Mount.Kernel.mounter none w
  obtain ⟨action, hact, -, hmounts⟩ :=
    (hfold (ro :: type :: size :: words)).2.2.2.2.2 request hrequest
  refine ⟨(hfold _).2.2.1 _ _ _ hmoved hsplits, hrequest, action, hact, ?_⟩
  rw [hmounts "tmpfs" "none" "t" [] .created rfl rfl rfl hdirectory, hfolded]
  rfl

end MountCommand
end Program
end BootSequence
