import TreeInspector.Config.Value
import Mathlib.Data.List.Nodup

/-!
# Entries of configuration objects

Entries are put into an object one by one. What counts in the end is the last value under each name,
and each name is enumerated once. The one exception is the name that chooses a parent: it is kept
only by an object that no longer descends from the root object.
-/

set_option autoImplicit false

namespace TreeInspector.Config

section

variable {α : Type} {name other : Name} {value : α} {entries : List (Name × α)}

/-- The last value under a name. -/
def last? (name : Name) (entries : List (Name × α)) : Option α := get? name entries.reverse

/-- The first entry is found under its name, and the others under theirs. -/
theorem get?_cons (name : Name) (entry : Name × α) (entries : List (Name × α)) :
    get? name (entry :: entries) = if entry.1 = name then some entry.2 else get? name entries := by
  rw [get?, get?, List.find?_cons]
  by_cases h : entry.1 = name <;> simp [h]

/-- What is not found among the first entries is looked for among the second. -/
theorem get?_append (name : Name) (first second : List (Name × α)) :
    get? name (first ++ second) = (get? name first).or (get? name second) := by
  rw [get?, get?, get?, List.find?_append]
  cases first.find? fun e => e.1 = name <;> rfl

/-- The first entry counts only if none of the others has its name. -/
theorem last?_cons (name : Name) (entry : Name × α) (entries : List (Name × α)) :
    last? name (entry :: entries) =
      (last? name entries).or (if entry.1 = name then some entry.2 else none) := by
  rw [last?, List.reverse_cons, get?_append, get?_cons]
  rfl

/-- Something is found under the names that entries have. -/
theorem get?_isSome_iff : (get? name entries).isSome ↔ name ∈ entries.map (·.1) := by
  simp [get?, List.find?_isSome]

/-- Names that entries have are those with a last value. -/
theorem last?_isSome_iff : (last? name entries).isSome ↔ name ∈ entries.map (·.1) := by
  rw [last?, get?_isSome_iff, List.map_reverse, List.mem_reverse]

/-- The last value of a name is that of an entry. -/
theorem mem_of_last? (h : last? name entries = some value) : (name, value) ∈ entries := by
  rw [last?, get?] at h
  obtain ⟨entry, hfind, rfl⟩ := Option.map_eq_some_iff.1 h
  have hname := List.find?_some hfind
  have hmem := List.mem_reverse.1 (List.mem_of_find?_eq_some hfind)
  simp only [decide_eq_true_eq] at hname
  rw [← hname]
  exact hmem

/-! ## Putting entries -/

/-- What has been put under a name is found there, and nothing else is found differently. -/
theorem get?_put (name other : Name) (value : α) (entries : List (Name × α)) :
    get? other (put name value entries) =
      if name = other then some value else get? other entries := by
  induction entries with
  | nil => simp [put, get?]
  | cons entry rest ih =>
    obtain ⟨n, v⟩ := entry
    by_cases hn : n = name
    · by_cases ho : name = other <;> simp [put, get?_cons, hn, ho]
    · by_cases ho : name = other
      · subst ho
        simp [put, get?_cons, hn, ih]
      · simp [put, get?_cons, hn, ih, ho]

/-- Putting an entry adds its name. -/
theorem mem_names_put : other ∈ (put name value entries).map (·.1) ↔
    other = name ∨ other ∈ entries.map (·.1) := by
  rw [← get?_isSome_iff, get?_put, ← get?_isSome_iff]
  by_cases h : name = other
  · simp [h]
  · simp [h, Ne.symm h]

/-- Putting an entry does not make a name occur twice. -/
theorem nodup_names_put (h : (entries.map (·.1)).Nodup) (name : Name) (value : α) :
    ((put name value entries).map (·.1)).Nodup := by
  induction entries with
  | nil => simp [put]
  | cons entry rest ih =>
    obtain ⟨n, v⟩ := entry
    rw [List.map_cons, List.nodup_cons] at h
    by_cases hn : n = name
    · simpa [put, hn] using h
    · have hnot : n ∉ (put name value rest).map (·.1) := by
        rw [mem_names_put, not_or]
        exact ⟨hn, h.1⟩
      rw [put, if_neg hn, List.map_cons, List.nodup_cons]
      exact ⟨hnot, ih h.2⟩

end

namespace Value

variable {object : List (Name × Value) × Option Value} {entry : Name × Value}
  {entries : List (Name × Value)} {name : Name}

/-- An entry that names no parent is put among the own ones. -/
theorem putEntry_of_ne (h : entry.1 ≠ parentName) (object : List (Name × Value) × Option Value) :
    putEntry object entry = (put entry.1 entry.2 object.1, object.2) := by
  obtain ⟨entries, parent⟩ := object
  obtain ⟨n, v⟩ := entry
  simp only at h
  simp [putEntry, h]

/-- An entry that chooses a parent leaves those with other names as they are. -/
theorem get?_putEntry (h : entry.1 = parentName → name ≠ parentName)
    (object : List (Name × Value) × Option Value) :
    get? name (putEntry object entry).1 =
      if entry.1 = name then some entry.2 else get? name object.1 := by
  by_cases hentry : entry.1 = parentName
  · obtain ⟨entries, parent⟩ := object
    obtain ⟨n, v⟩ := entry
    have hn : n ≠ name := by
      rintro rfl
      exact h hentry hentry
    simp only [putEntry, hn, if_false]
    split
    · split <;> rfl
    · rw [get?_put, if_neg hn]
  · rw [putEntry_of_ne hentry, get?_put]

/-- Of several values for a name, the last one counts. -/
theorem get?_foldl_putEntry (h : ∀ entry ∈ entries, entry.1 = parentName → name ≠ parentName)
    (object : List (Name × Value) × Option Value) :
    get? name (entries.foldl putEntry object).1 = (last? name entries).or (get? name object.1) := by
  induction entries generalizing object with
  | nil => simp [last?, get?]
  | cons entry rest ih =>
    rw [List.forall_mem_cons] at h
    rw [List.foldl_cons, ih h.2, get?_putEntry h.1, last?_cons]
    cases last? name rest with
    | some v => rfl
    | none => by_cases hn : entry.1 = name <;> simp [hn]

/-- Without a name that chooses a parent, the parent stays, and each name is kept once. -/
theorem foldl_putEntry_of_not_mem (h : parentName ∉ entries.map (·.1))
    (object : List (Name × Value) × Option Value) (hnodup : (object.1.map (·.1)).Nodup) :
    (entries.foldl putEntry object).2 = object.2 ∧
      ((entries.foldl putEntry object).1.map (·.1)).Nodup := by
  induction entries generalizing object with
  | nil => exact ⟨rfl, hnodup⟩
  | cons entry rest ih =>
    rw [List.map_cons, List.mem_cons, not_or] at h
    rw [List.foldl_cons, putEntry_of_ne (Ne.symm h.1)]
    exact ih h.2 _ (nodup_names_put hnodup entry.1 entry.2)

/-- The object of some entries is what putting them one by one leads to. -/
theorem ofEntries_eq (entries : List (Name × Value)) :
    ofEntries entries =
      .object (entries.foldl putEntry ([], none)).1 (entries.foldl putEntry ([], none)).2 :=
  rfl

/-- An object that chooses no parent has the last value under each name and inherits nothing. -/
theorem ofEntries_of_not_mem (h : parentName ∉ entries.map (·.1)) :
    ∃ own, ofEntries entries = .object own none ∧ (own.map (·.1)).Nodup ∧
      ∀ name, get? name own = last? name entries := by
  obtain ⟨hparent, hnodup⟩ := foldl_putEntry_of_not_mem h ([], none) List.nodup_nil
  refine ⟨_, by rw [ofEntries_eq, hparent], hnodup, ?_⟩
  intro name
  rw [get?_foldl_putEntry]
  · exact Option.or_none
  · intro entry hmem hentry
    exact absurd (List.mem_map.2 ⟨entry, hmem, hentry⟩) h

/-- Whatever parent an object has, it has the last value under each ordinary name. -/
theorem lookup?_ofEntries (h : name ≠ parentName) {v : Value} (hv : last? name entries = some v) :
    (ofEntries entries).lookup? name = some v := by
  have hget : get? name (entries.foldl putEntry ([], none)).1 = some v := by
    rw [get?_foldl_putEntry fun _ _ _ => h, hv]
    rfl
  rw [ofEntries_eq]
  cases (entries.foldl putEntry ([], none)).2 with
  | none => exact hget
  | some parent => simp only [lookup?, hget]

/-! ## Enumeration -/

/-- Enumeration only rearranges names. -/
theorem enumerate_perm (names : List Name) : (enumerate names).Perm names := by
  have hindexed : (names.filterMap fun n => (indexOf? n).map fun i => (i, n)).map (·.2) =
      names.filter fun n => (indexOf? n).isSome := by
    induction names with
    | nil => rfl
    | cons n names ih => cases hn : indexOf? n <;> simp [hn, ih]
  have hsorted := (List.mergeSort_perm (names.filterMap fun n => (indexOf? n).map fun i => (i, n))
    fun a b => decide (a.1 ≤ b.1)).map (·.2)
  rw [hindexed] at hsorted
  have hothers : (names.filter fun n => (indexOf? n).isNone) =
      names.filter fun n => !(indexOf? n).isSome := by
    simp
  rw [enumerate, hothers]
  exact (hsorted.append_right _).trans (List.filter_append_perm _ _)

end Value

end TreeInspector.Config
