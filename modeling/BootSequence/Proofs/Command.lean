import BootSequence.Command
import BootSequence.Machine.Image
import BootSequence.Proofs.Text.Encoding
import BootSequence.Spawn

/-!
From names to programs. A name that is joined to a directory makes a path with a slash in it, and a
name with a slash or a dot in it is a path already. So a path that has been found is found again,
wherever it is looked for, and the same program is run (`resolution_settles`).
-/

namespace BootSequence
namespace Command

/-! ## Names -/

theorem isPathLike_iff {token : String} :
    isPathLike token = true ↔ '/' ∈ token.toList ∨ '.' ∈ token.toList := by
  rw [isPathLike, List.any_eq_true]
  constructor
  · rintro ⟨c, hc, h⟩
    have h : c = '/' ∨ c = '.' := by simpa using h
    rcases h with rfl | rfl
    · exact .inl hc
    · exact .inr hc
  · rintro (h | h)
    · exact ⟨_, h, rfl⟩
    · exact ⟨_, h, rfl⟩

theorem isPathLike_of_slash_mem {token : String} (h : Octets.slash ∈ Octets.ofString token) :
    isPathLike token = true :=
  isPathLike_iff.2 (.inl (Utf8.mem_of_mem_encode (by decide) h))

/-! ## Joining -/

def separator (dir : Path) : Octets := if dir.endsInSlash then [] else [Octets.slash]

/-- The path of an entry, whatever its length. -/
def entryPath (dir : Path) (name : String) : Path :=
  ⟨dir.octets ++ separator dir ++ Octets.ofString name⟩

def entryLength (dir : Path) (name : String) : Nat :=
  dir.octets.length + (if dir.endsInSlash then 0 else 1) + octetLength name

theorem length_entryPath (dir : Path) (name : String) :
    (entryPath dir name).octets.length = entryLength dir name := by
  rw [entryPath, List.length_append, List.length_append, separator, entryLength, octetLength]
  split <;> rfl

theorem slash_mem_entryPath (dir : Path) (name : String) :
    Octets.slash ∈ (entryPath dir name).octets := by
  refine List.mem_append_left _ ?_
  rw [separator]
  by_cases hend : dir.endsInSlash = true
  · exact List.mem_append_left _ (List.mem_of_getLast? (of_decide_eq_true hend))
  · rw [if_neg hend]
    exact List.mem_append_right _ List.mem_cons_self

theorem entryPath_inj {dir : Path} {name name' : String} :
    entryPath dir name = entryPath dir name' ↔ name = name' := by
  rw [entryPath, entryPath, Path.mk.injEq, List.append_cancel_left_eq, Octets.ofString_inj]

theorem join_eq (dir : Path) (name : String) :
    join dir name =
      if name = "" then .error .empty
      else if nameMax < octetLength name then .error (.nameTooLong (octetLength name))
      else if pathMax ≤ (entryPath dir name).octets.length then
        .error (.pathTooLong (entryPath dir name).octets.length)
      else .ok (entryPath dir name) := by
  have hnil : Octets.ofString name = [] ↔ name = "" := Octets.ofString_inj (t := "")
  simp only [join, List.isEmpty_iff, hnil]
  rfl

theorem join_eq_ok_iff {dir path : Path} {name : String} :
    join dir name = .ok path ↔ name ≠ "" ∧ octetLength name ≤ nameMax ∧
      path.octets.length ≤ pathMax - 1 ∧ path = entryPath dir name := by
  rw [join_eq]
  split
  · next h => exact ⟨nofun, fun hok => absurd h hok.1⟩
  split
  · next h => exact ⟨nofun, fun hok => absurd hok.2.1 (Nat.not_le.2 h)⟩
  split
  · next h =>
    refine ⟨nofun, fun hok => ?_⟩
    obtain ⟨-, -, hlen, rfl⟩ := hok
    rw [pathMax] at h hlen
    omega
  · next hne hname hpath =>
    have hlen : (entryPath dir name).octets.length ≤ pathMax - 1 :=
      Nat.le_pred_of_lt (Nat.not_le.1 hpath)
    constructor
    · rintro ⟨⟩
      exact ⟨hne, Nat.not_lt.1 hname, hlen, rfl⟩
    · rintro ⟨-, -, -, rfl⟩
      rfl

/-! ## Resolving -/

/-- The empty name is no path, and is refused when it is joined. -/
theorem resolve_eq (token : String) (dir : Path) :
    resolve token dir =
      if isPathLike token = true then .ok ⟨token, .ofString token⟩
      else (join dir token).map fun path => ⟨token, path⟩ := by
  rw [resolve]
  by_cases hempty : token = ""
  · subst hempty
    rfl
  · rw [if_neg (by simpa using hempty)]

theorem resolve_eq_ok_iff {token : String} {dir : Path} {c : Command} :
    resolve token dir = .ok c ↔ c.name = token ∧
      (isPathLike token = true ∧ c.path = .ofString token ∨
        isPathLike token = false ∧ join dir token = .ok c.path) := by
  obtain ⟨name, path⟩ := c
  rw [resolve_eq]
  cases isPathLike token with
  | true => simp [eq_comm]
  | false => cases join dir token <;> simp [Except.map, @eq_comm _ name]

theorem resolveUnder_eq_ok_iff {name : String} {dir : Path} {c : Command} :
    resolveUnder dir name = .ok c ↔ c.name = name ∧ join dir name = .ok c.path := by
  obtain ⟨called, path⟩ := c
  rw [resolveUnder]
  cases join dir name <;> simp [Except.map, @eq_comm _ called]

/-! ## Programs -/

theorem program_octets (c : Command) :
    c.program.octets =
      if Octets.slash ∈ c.path.octets then c.path.octets
      else Octets.ofString "./" ++ c.path.octets := by
  rw [program]
  by_cases h : Octets.slash ∈ c.path.octets
  · have hslash : c.path.containsSlash = true := List.contains_iff_mem.2 h
    rw [if_pos h, if_pos hslash]
  · have hslash : ¬c.path.containsSlash = true := mt List.contains_iff_mem.1 h
    rw [if_neg h, if_neg hslash]
    rfl

theorem resolve_of_slash_mem {text : String} (h : Octets.slash ∈ Octets.ofString text)
    (dir : Path) : resolve text dir = .ok ⟨text, .ofString text⟩ := by
  rw [resolve_eq, if_pos (isPathLike_of_slash_mem h)]

/-- The request to run a command that a name has been resolved to. -/
structure RunsAs (token : String) (c : Command) (spawn : Spawn) : Prop where
  /-- The program is told the name that it was called by. -/
  name_eq : spawn.name = Octets.ofString token
  slash_mem : Octets.slash ∈ spawn.program
  program_eq : spawn.program =
    if Octets.slash ∈ c.path.octets then c.path.octets else Octets.ofString "./" ++ c.path.octets
  /-- It is not searched for. -/
  search_eq : ∀ source searchPath argv, Image.search source searchPath argv spawn.program =
    Image.ofFile source ⟨spawn.program⟩ argv
  handed_over : Octets.nul ∉ Octets.ofString token → Octets.nul ∉ c.path.octets →
    spawn.isRefused = false ∧ Spawn.shown spawn.program = spawn.program
  /-- To look for it once more makes no difference. -/
  again : ∀ text dir, spawn.program.text? = some text →
    ∃ c', resolve text dir = .ok c' ∧ (Spawn.ofCommand c').program = spawn.program

theorem runsAs_ofCommand {token : String} {c : Command} (hname : c.name = token) :
    RunsAs token c (Spawn.ofCommand c) := by
  have hprogram : (Spawn.ofCommand c).program = _ := program_octets c
  have hslash : Octets.slash ∈ (Spawn.ofCommand c).program := by
    rw [hprogram]
    split
    · assumption
    · exact List.mem_append_left _ (by decide)
  have htold : (Spawn.ofCommand c).name = Octets.ofString token := congrArg Octets.ofString hname
  refine
    { name_eq := htold
      slash_mem := hslash
      program_eq := hprogram
      search_eq := fun source searchPath argv => ?_
      handed_over := fun htoken hpath => ?_
      again := fun text dir htext => ?_ }
  · rw [Image.search, if_pos (List.contains_iff_mem.2 hslash)]
  · have hnul : Octets.nul ∉ (Spawn.ofCommand c).program := by
      rw [hprogram]
      split
      · exact hpath
      · exact List.not_mem_append (by decide) hpath
    have hargs : (Spawn.ofCommand c).args = [] := rfl
    have hvars : (Spawn.ofCommand c).vars = [] := rfl
    have hspoiled : (Spawn.ofCommand c).spoiled = false := rfl
    constructor
    · simp [Spawn.isRefused, Spawn.varsHaveNul, hargs, hvars, hspoiled, htold, hnul, htoken]
    · simp [Spawn.shown, hnul]
  · have htext : (Spawn.ofCommand c).program = Octets.ofString text :=
      Octets.text?_eq_some_iff.1 htext
    rw [htext] at hslash ⊢
    exact ⟨_, resolve_of_slash_mem hslash dir, (program_octets _).trans (if_pos hslash)⟩

/-- What has been found is found again under any directory, and is run as what was found. -/
theorem resolution_settles :
    (∀ (token : String) (dir : Path) (c : Command) (text : String),
      resolve token dir = .ok c → c.path.text? = some text →
      ∀ dir', ∃ c', resolve text dir' = .ok c' ∧ c'.path = c.path) ∧
    ∀ (token : String) (dir : Path) (c : Command),
      resolve token dir = .ok c ∨ resolveUnder dir token = .ok c →
      RunsAs token c (Spawn.ofCommand c) := by
  refine ⟨fun token dir c text hc htext dir' => ?_, fun token dir c hc => ?_⟩
  · have hpath : c.path = .ofString text :=
      congrArg Path.mk (Octets.text?_eq_some_iff.1 htext)
    rcases (resolve_eq_ok_iff.1 hc).2 with ⟨hlike, htoken⟩ | ⟨-, hjoin⟩
    · -- The text of the path is the token itself, and is looked for as it was before.
      have hsame : token = text :=
        Octets.ofString_inj.1 (congrArg Path.octets (htoken.symm.trans hpath))
      subst hsame
      refine ⟨⟨token, .ofString token⟩, ?_, hpath.symm⟩
      rw [resolve_eq, if_pos hlike]
    · obtain ⟨-, -, -, hentry⟩ := join_eq_ok_iff.1 hjoin
      have hslash := slash_mem_entryPath dir token
      rw [← hentry, hpath] at hslash
      exact ⟨_, resolve_of_slash_mem hslash dir', hpath.symm⟩
  · rcases hc with hc | hc
    · exact runsAs_ofCommand (resolve_eq_ok_iff.1 hc).1
    · exact runsAs_ofCommand (resolveUnder_eq_ok_iff.1 hc).1

/-- A script of the working directory, and a name in a directory that is no text. -/
theorem resolution_settles_dotted :
    let script : Command := ⟨"run.sh", .ofString "run.sh"⟩
    let entry : Command := ⟨"init", ⟨[0xFF, Octets.slash] ++ Octets.ofString "init"⟩⟩
    resolve "run.sh" (.ofString "/sbin") = .ok script ∧
      resolve "init" ⟨[0xFF]⟩ = .ok entry ∧
      (Spawn.ofCommand script).program = Octets.ofString "./run.sh" ∧
      (∃ c', resolve "run.sh" (.ofString "/bin/") = .ok c' ∧ c'.path = script.path) ∧
      (∃ c', resolve "./run.sh" ⟨[]⟩ = .ok c' ∧
        (Spawn.ofCommand c').program = Octets.ofString "./run.sh") ∧
      (Spawn.ofCommand entry).program = entry.path.octets ∧
      (Spawn.ofCommand entry).isRefused = false := by
  intro script entry
  have hscript : resolve "run.sh" (.ofString "/sbin") = .ok script := by decide
  have hentry : resolve "init" ⟨[0xFF]⟩ = .ok entry := by decide
  have hruns := resolution_settles.2 _ _ _ (.inl hscript)
  have hruns' := resolution_settles.2 _ _ _ (.inl hentry)
  have htext : script.path.text? = some "run.sh" := by decide
  exact ⟨hscript, hentry, hruns.program_eq.trans (by decide),
    resolution_settles.1 _ _ _ _ hscript htext (.ofString "/bin/"),
    hruns.again "./run.sh" ⟨[]⟩ (by decide), hruns'.program_eq.trans (by decide),
    (hruns'.handed_over (by decide) (by decide)).1⟩

end Command
end BootSequence
