import BootSequence.Tree.Files

/-!
Reading line after line. What is read may change meanwhile, so that a reader looks at the files as
they are when it is asked for its next line. Scripts, lists of test cases and mount tables are all
read by one loop.
-/

namespace BootSequence

/-- The next line, with the newline that ends it if there is one, and what is left behind it. No
octets are the end. -/
class Reader (ρ : Type) where
  readLine : ρ → Files → Except Errno Octets × ρ
  size : ρ → Nat
  size_line : ∀ {r left : ρ} {f : Files} {line : Octets},
    readLine r f = (.ok line, left) → line ≠ [] → size left < size r
  size_interrupted : ∀ {r left : ρ} {f : Files},
    readLine r f = (.error .interrupted, left) → size left < size r

namespace Reader

variable {m : Type → Type} [Monad m] {ρ α ε : Type} [Reader ρ]

/-- Work through the lines that are left, each on top of what those before have come to. A line may
end it, and so does a failed read; one that has been interrupted is tried again. -/
def foldLines (files : m Files) (line : α → Octets → m (Except ε α)) (failed : α → Errno → ε)
    (reader : ρ) (a : α) : m (Except ε α × ρ) := do
  match _h : readLine reader (← files) with
  | (.error e, left) =>
    if e = .interrupted then foldLines files line failed left a
    else return (.error (failed a e), left)
  | (.ok octets, left) =>
    if octets = [] then return (.ok a, left)
    else
      match ← line a octets with
      | .error e => return (.error e, left)
      | .ok b => foldLines files line failed left b
termination_by size reader
decreasing_by
  · subst e
    exact size_interrupted ‹_›
  · exact size_line ‹_› ‹_›

/-- The same where nothing but a failed read ends it early. -/
def foldAll (files : m Files) (line : α → Octets → m α) (failed : α → Errno → ε) (reader : ρ)
    (a : α) : m (Except ε α × ρ) :=
  foldLines files (fun a octets => do return .ok (← line a octets)) failed reader a

/-- A loop that ends early has taken something up, unless a failed read that takes up nothing ends
it. -/
theorem size_foldLines {f : Files} {line : α → Octets → Except ε α} {failed : α → Errno → ε}
    {reader left : ρ} {a : α} {x : ε}
    (h : foldLines (m := Id) f line failed reader a = (.error x, left))
    (hfailed : ∀ {b : α} {e : Errno} {r r' : ρ}, readLine r f = (.error e, r') → x = failed b e →
      size r' < size r) : size left < size reader := by
  induction reader, a using foldLines.induct with
  | case1 reader a ihInterrupted ihLine =>
    rw [foldLines] at h
    simp only [bind, pure, Id] at h
    split at h
    · rename_i e rest hread
      split at h
      · rename_i he
        subst he
        exact Nat.lt_trans (ihInterrupted f _ rest hread rfl h) (size_interrupted hread)
      · cases h
        exact hfailed hread rfl
    · rename_i octets rest hread
      split at h
      · cases h
      · rename_i hne
        split at h
        · cases h
          exact size_line hread hne
        · exact Nat.lt_trans (ihLine f octets rest hread hne _ h) (size_line hread hne)

end Reader
end BootSequence
