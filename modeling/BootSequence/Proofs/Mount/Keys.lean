import BootSequence.Mount.Options
import BootSequence.Proofs.Text.Lines

/-!
Option strings as lists of keys. Merging puts the keys that are missing behind those that are there,
and all laws of merging are laws of that list, since a string is its keys with commas between them
(`merge_collects`).
-/

namespace BootSequence
namespace Mount
namespace Options

/-! ## Strings and their keys -/

/-- The keys between the commas; the empty string has none. -/
def keyList (options : List Char) : List (List Char) :=
  if options = [] then [] else options.splitOn ','

theorem keys_eq_splitOn (options : List Char) : keys options = options.splitOn ',' :=
  pieces_eq_splitOnP _ options

theorem keyList_of_ne_nil {options : List Char} (h : options ≠ []) :
    keyList options = options.splitOn ',' := if_neg h

/-- So nothing but its keys is in a string. -/
theorem intercalate_keyList (options : List Char) :
    [','].intercalate (keyList options) = options := by
  by_cases h : options = []
  · subst h
    rfl
  · rw [keyList_of_ne_nil h, List.intercalate_splitOn]

theorem keyList_inj {a b : List Char} (h : keyList a = keyList b) : a = b := by
  rw [← intercalate_keyList a, h, intercalate_keyList]

theorem keyList_eq_nil_iff {options : List Char} : keyList options = [] ↔ options = [] := by
  constructor
  · intro h
    exact keyList_inj h
  · intro h
    rw [h]
    rfl

theorem not_mem_of_mem_splitOn {options key : List Char} (h : key ∈ options.splitOn ',') :
    ',' ∉ key := by
  induction options using lineInduction ',' generalizing key with
  | last options hlast =>
    rw [List.splitOn_eq_singleton hlast, List.mem_singleton] at h
    rwa [h]
  | line body rest hbody ih =>
    rw [List.splitOn_append_cons_self_of_not_mem hbody] at h
    rcases List.mem_cons.1 h with rfl | h
    · exact hbody
    · exact ih h

/-- The empty key that the empty string is cut into counts for nothing. -/
theorem mem_keys_iff {options key : List Char} (hkey : key ≠ []) :
    key ∈ keys options ↔ key ∈ keyList options := by
  rw [keys_eq_splitOn]
  by_cases h : options = []
  · subst h
    show key ∈ [[]] ↔ key ∈ []
    simp [hkey]
  · rw [keyList_of_ne_nil h]

theorem keys_append_comma (a b : List Char) : keys (a ++ ',' :: b) = keys a ++ keys b := by
  rw [keys_eq_splitOn, keys_eq_splitOn, keys_eq_splitOn]
  exact List.splitOnP_append_cons a b (by decide)

/-! ## Keys that are missing -/

/-- The keys among these that are neither empty nor known, each once, where it first comes. -/
def fresh (known keys : List (List Char)) : List (List Char) :=
  (keys.filter fun key => key ≠ [] ∧ key ∉ known).eraseDups

/-- The keys of an option string that are to be added to known ones. -/
def missing (known : List (List Char)) (new : List Char) : List (List Char) :=
  fresh known (new.splitOn ',')

section Fresh

variable {known : List (List Char)} {key : List Char} {ks : List (List Char)}

theorem mem_fresh : key ∈ fresh known ks ↔ key ∈ ks ∧ key ≠ [] ∧ key ∉ known := by
  rw [fresh, List.mem_eraseDups, List.mem_filter, decide_eq_true_iff]

theorem fresh_eq_nil_iff : fresh known ks = [] ↔ ∀ key ∈ ks, key ≠ [] → key ∈ known := by
  rw [List.eq_nil_iff_forall_not_mem]
  constructor
  · intro h key hkey hne
    by_contra hnew
    exact h key (mem_fresh.2 ⟨hkey, hne, hnew⟩)
  · intro h key hkey
    obtain ⟨hmem, hne, hnew⟩ := mem_fresh.1 hkey
    exact hnew (h key hmem hne)

theorem fresh_cons_of_old (h : key = [] ∨ key ∈ known) :
    fresh known (key :: ks) = fresh known ks := by
  rw [fresh, List.filter_cons_of_neg, fresh]
  rw [decide_eq_true_iff]
  rintro ⟨hne, hnew⟩
  exact h.elim hne hnew

theorem fresh_cons_of_new (hne : key ≠ []) (hnew : key ∉ known) :
    fresh known (key :: ks) = key :: fresh (known ++ [key]) ks := by
  rw [fresh, List.filter_cons_of_pos (by simp [hne, hnew]), List.eraseDups_cons, fresh,
    List.filter_filter]
  refine congrArg (fun l => key :: List.eraseDups l) (List.filter_congr fun other _ => ?_)
  rw [Bool.eq_iff_iff]
  simp
  tauto

theorem nodup_fresh (known ks : List (List Char)) : (fresh known ks).Nodup := by
  induction ks generalizing known with
  | nil => exact List.nodup_nil
  | cons key ks ih =>
    by_cases hold : key = [] ∨ key ∈ known
    · rw [fresh_cons_of_old hold]
      exact ih known
    · rw [not_or] at hold
      rw [fresh_cons_of_new hold.1 hold.2, List.nodup_cons]
      refine ⟨?_, ih _⟩
      intro hmem
      apply (mem_fresh.1 hmem).2.2
      exact List.mem_append_right known (List.mem_singleton.2 rfl)

/-- What has been collected once brings the same keys again. -/
theorem fresh_fresh (known ks : List (List Char)) : fresh known (fresh [] ks) = fresh known ks := by
  -- Whatever the inner collection passes over for having seen it, the outer one knows already.
  have hfrom : ∀ seen, (∀ key ∈ seen, key ∈ known) →
      fresh known (fresh seen ks) = fresh known ks := by
    induction ks generalizing known with
    | nil =>
      intro seen _
      rfl
    | cons key ks ih =>
      intro seen hseen
      by_cases hold : key = [] ∨ key ∈ seen
      · rw [fresh_cons_of_old hold, ih known seen hseen,
          fresh_cons_of_old (hold.imp id (hseen key))]
      · rw [not_or] at hold
        rw [fresh_cons_of_new hold.1 hold.2]
        by_cases hknown : key ∈ known
        · rw [fresh_cons_of_old (.inr hknown), fresh_cons_of_old (.inr hknown)]
          apply ih
          intro other hother
          rcases List.mem_append.1 hother with hother | hother
          · exact hseen other hother
          · rw [List.mem_singleton.1 hother]
            exact hknown
        · rw [fresh_cons_of_new hold.1 hknown, fresh_cons_of_new hold.1 hknown, ih]
          intro other hother
          rcases List.mem_append.1 hother with hother | hother
          · exact List.mem_append_left _ (hseen other hother)
          · exact List.mem_append_right _ hother
  exact hfrom [] nofun

end Fresh

/-! ## Merging -/

section Merge

variable {acc key : List Char} {ks : List (List Char)}

/-- One key goes to the end of the list, if it is missing. -/
theorem keyList_addKey (hcomma : ',' ∉ key) :
    keyList (addKey acc key) =
      if key = [] ∨ key ∈ keyList acc then keyList acc else keyList acc ++ [key] := by
  by_cases hkey : key = []
  · rw [if_pos (.inl hkey), addKey, hkey]
    rfl
  · have hsome : key.isEmpty = false := List.isEmpty_eq_false_iff.2 hkey
    by_cases hmem : key ∈ keyList acc
    · have hthere : (keys acc).contains key = true :=
        List.contains_iff_mem.2 ((mem_keys_iff hkey).2 hmem)
      rw [if_pos (.inr hmem), addKey, hthere, Bool.or_true]
      rfl
    · have hnew : (keys acc).contains key = false := by
        rw [Bool.eq_false_iff, Ne, List.contains_iff_mem, mem_keys_iff hkey]
        exact hmem
      rw [if_neg (not_or.2 ⟨hkey, hmem⟩), addKey, hsome, hnew]
      by_cases hacc : acc = []
      · subst hacc
        show keyList key = [key]
        rw [keyList_of_ne_nil hkey, List.splitOn_eq_singleton hcomma]
      · have hfull : acc.isEmpty = false := List.isEmpty_eq_false_iff.2 hacc
        rw [hfull]
        show keyList (acc ++ ',' :: key) = keyList acc ++ [key]
        rw [keyList_of_ne_nil (by simp), keyList_of_ne_nil hacc, ← keys_eq_splitOn,
          keys_append_comma, keys_eq_splitOn, keys_eq_splitOn, List.splitOn_eq_singleton hcomma]

theorem isPrefix_addKey (acc key : List Char) : acc <+: addKey acc key := by
  unfold addKey
  split
  · exact List.prefix_rfl
  · split
    · next h =>
      rw [List.isEmpty_iff.1 h]
      exact List.nil_prefix
    · exact List.prefix_append acc _

theorem isPrefix_foldl (acc : List Char) (ks : List (List Char)) :
    acc <+: ks.foldl addKey acc := by
  induction ks generalizing acc with
  | nil => exact List.prefix_rfl
  | cons key ks ih => exact (isPrefix_addKey acc key).trans (ih _)

theorem keyList_foldl (hcomma : ∀ key ∈ ks, ',' ∉ key) :
    keyList (ks.foldl addKey acc) = keyList acc ++ fresh (keyList acc) ks := by
  induction ks generalizing acc with
  | nil => exact (List.append_nil _).symm
  | cons key ks ih =>
    obtain ⟨hkey, hks⟩ := List.forall_mem_cons.1 hcomma
    rw [List.foldl_cons, ih hks, keyList_addKey hkey]
    by_cases hold : key = [] ∨ key ∈ keyList acc
    · rw [if_pos hold, fresh_cons_of_old hold]
    · rw [if_neg hold]
      rw [not_or] at hold
      rw [fresh_cons_of_new hold.1 hold.2, List.append_assoc]
      rfl

theorem keyList_merge (acc new : List Char) :
    keyList (merge acc new) = keyList acc ++ missing (keyList acc) new := by
  rw [merge, keys_eq_splitOn, keyList_foldl fun key => not_mem_of_mem_splitOn]
  rfl

theorem merge_eq_self_iff {acc new : List Char} :
    merge acc new = acc ↔ ∀ key ∈ new.splitOn ',', key ≠ [] → key ∈ keyList acc := by
  rw [← fresh_eq_nil_iff]
  constructor
  · intro h
    have hkeys := keyList_merge acc new
    rw [h] at hkeys
    exact List.self_eq_append_right.1 hkeys
  · intro h
    apply keyList_inj
    rw [keyList_merge, missing, h, List.append_nil]

/-- Many strings one after another bring the keys of all of them. -/
theorem foldl_merge (acc : List Char) (all : List (List Char)) :
    all.foldl merge acc = (all.flatMap (·.splitOn ',')).foldl addKey acc := by
  induction all generalizing acc with
  | nil => rfl
  | cons new all ih =>
    rw [List.foldl_cons, ih, List.flatMap_cons, List.foldl_append, merge, keys_eq_splitOn]

theorem keyList_foldl_merge (acc : List Char) (all : List (List Char)) :
    keyList (all.foldl merge acc) =
      keyList acc ++ fresh (keyList acc) (all.flatMap (·.splitOn ',')) := by
  rw [foldl_merge, keyList_foldl]
  intro key hkey
  obtain ⟨new, -, hmem⟩ := List.mem_flatMap.1 hkey
  exact not_mem_of_mem_splitOn hmem

/-- It makes no difference whether they have been merged before. -/
theorem merge_foldl_merge (acc : List Char) (all : List (List Char)) :
    merge acc (all.foldl merge []) = all.foldl merge acc := by
  apply keyList_inj
  have hcollected := keyList_foldl_merge [] all
  rw [show keyList [] = [] from rfl, List.nil_append] at hcollected
  rw [keyList_merge, keyList_foldl_merge, missing, ← keys_eq_splitOn]
  congr 1
  -- The empty string is cut into one empty key and has none in its list, so it stands apart.
  by_cases hnil : all.foldl merge [] = []
  · rw [hnil, ← fresh_fresh _ (all.flatMap _), ← hcollected, hnil]
    exact fresh_cons_of_old (.inl rfl)
  · rw [keys_eq_splitOn, ← keyList_of_ne_nil hnil, hcollected, fresh_fresh]

end Merge

/-! ## Strings without empty or repeated keys -/

/-- No key is empty and none comes twice; so no comma is without a key on either side. -/
structure Clean (options : List Char) : Prop where
  not_empty : [] ∉ keyList options
  nodup : (keyList options).Nodup
  first : options.head? ≠ some ','
  last : options.getLast? ≠ some ','
  between : ¬[',', ','] <:+: options

theorem clean_of_keyList {options : List Char} (hempty : [] ∉ keyList options)
    (hnodup : (keyList options).Nodup) : Clean options := by
  -- A comma at either end, or next to another one, has an empty key beside it.
  have hcut : ∀ a b, options = a ++ ',' :: b → [] ∉ keys a ∧ [] ∉ keys b := by
    intro a b h
    have hne : options ≠ [] := by
      rw [h]
      simp
    rw [keyList_of_ne_nil hne, ← keys_eq_splitOn, h, keys_append_comma] at hempty
    exact ⟨fun hm => hempty (List.mem_append_left _ hm),
      fun hm => hempty (List.mem_append_right _ hm)⟩
  have hnil : [] ∈ keys [] := List.mem_singleton.2 rfl
  refine ⟨hempty, hnodup, ?_, ?_, ?_⟩
  · intro h
    obtain ⟨rest, hrest⟩ := List.head?_eq_some_iff.1 h
    exact (hcut [] rest hrest).1 hnil
  · intro h
    obtain ⟨start, hstart⟩ := List.getLast?_eq_some_iff.1 h
    exact (hcut start [] hstart).2 hnil
  · rintro ⟨a, b, h⟩
    have hb := (hcut a (',' :: b) (by rw [← h]; simp)).2
    rw [show ',' :: b = [] ++ ',' :: b from rfl, keys_append_comma] at hb
    exact hb (List.mem_append_left _ hnil)

theorem clean_foldl_merge (all : List (List Char)) : Clean (all.foldl merge []) := by
  have hkeys := keyList_foldl_merge [] all
  rw [show keyList [] = [] from rfl, List.nil_append] at hkeys
  apply clean_of_keyList
  · rw [hkeys]
    intro hmem
    exact (mem_fresh.1 hmem).2.1 rfl
  · rw [hkeys]
    exact nodup_fresh _ _

/-- Merging leaves an option string as it is and puts the missing keys of another one behind its
own. So it does not matter how options come to be spread over strings, nor whether they are
repeated. -/
theorem merge_collects (acc new : List Char) :
    acc <+: merge acc new ∧
    keyList (merge acc new) = keyList acc ++ missing (keyList acc) new ∧
    (∀ more, merge (merge acc new) more = merge acc (new ++ ',' :: more)) ∧
    (∀ others : List (List Char), merge (others.foldl merge (merge acc new)) new =
      others.foldl merge (merge acc new)) ∧
    (merge acc new = acc ↔ ∀ key ∈ new.splitOn ',', key ≠ [] → key ∈ keyList acc) ∧
    merge acc new = merge acc (merge [] new) ∧
    ∀ all : List (List Char), Clean (all.foldl merge []) := by
  refine ⟨isPrefix_foldl acc (keys new), keyList_merge acc new, ?_, ?_, merge_eq_self_iff, ?_,
    clean_foldl_merge⟩
  · intro more
    rw [merge, merge, merge, keys_append_comma, List.foldl_append]
  · intro others
    rw [merge_eq_self_iff]
    intro key hkey hne
    rw [keyList_foldl_merge, keyList_merge]
    apply List.mem_append_left
    by_cases hold : key ∈ keyList acc
    · exact List.mem_append_left _ hold
    · exact List.mem_append_right _ (mem_fresh.2 ⟨hkey, hne, hold⟩)
  · exact (merge_foldl_merge acc [new]).symm

example : merge ",a,,erofs".toList "ro,,a,b=1,ro".toList = ",a,,erofs,ro,b=1".toList := by decide

end Options
end Mount
end BootSequence
