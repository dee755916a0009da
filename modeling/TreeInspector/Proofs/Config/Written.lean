import TreeInspector.Config.Read
import TreeInspector.Proofs.Config.Entries
import TreeInspector.Proofs.Document.Grammar

/-!
# What a configuration text writes

The names and values as they stand in the elements of a document, before any object is made of them.
An object of a document without faults is made of its members in their order; so it has the last
value written under each name, unless one of the names chooses a parent.
-/

set_option autoImplicit false

namespace TreeInspector.Config

open Document (Element ElementKind Holds IsMember IsValue)

/-- The name and the value of a property that has both. -/
def member? : Tree Element → Option (Name × Tree Element)
  | .node ⟨.property, _, _⟩ [.node ⟨.string name, _, _⟩ _, value] => some (name, value)
  | _ => none

/-- The names and values written in an object. -/
def members (t : Tree Element) : List (Name × Tree Element) := t.children.filterMap member?

/-- The names written in an object. -/
def writtenNames (t : Tree Element) : List Name := (members t).map (·.1)

/-- The element that holds the options: the last section, if the top is an object that has one, else
the top. -/
def optionsElement (top : Tree Element) : Tree Element :=
  (last? (Text.units sectionName) (members top)).getD top

/-- What an element says if it stands for an option. -/
def setting? (t : Tree Element) : Option Setting :=
  match t.value.kind with
  | .boolean b => some (.given b)
  | .null => some .null
  | _ => none

/-- What an object says about an option: the last value written under its name. -/
def writtenSetting (t : Tree Element) (name : String) : Setting :=
  ((last? (Text.units name) (members t)).bind setting?).getD .absent

variable {t : Tree Element} {ts : List (Tree Element)}

/-! ## Values of elements -/

namespace Value

/-- An element that is no property stands for a value. -/
theorem fold_partOf_of_value (h : t.value.kind ≠ .property) :
    t.fold partOf = .value (ofTree t) := by
  have hpart : ∀ parts, ∃ v, partOf t.value parts = .value v := by
    intro parts
    unfold partOf
    cases hkind : t.value.kind with
    | property => exact absurd hkind h
    | _ => exact ⟨_, rfl⟩
  rw [ofTree, Tree.fold_eq]
  obtain ⟨v, hv⟩ := hpart (t.children.map (Tree.fold partOf))
  rw [hv]

/-- A property that has its value stands for an entry. -/
theorem fold_partOf_of_member (h : IsMember True t) :
    ∃ name v, member? t = some (name, v) ∧ IsValue True v ∧
      t.fold partOf = .entry name (ofTree v) := by
  obtain ⟨⟨kind, start, stop⟩, ts⟩ := t
  have hkind : kind = .property := h.kind
  subst hkind
  have hholds : Holds True .property ts := h.lawful.here
  obtain ⟨⟨nameKind, nameStart, nameStop⟩, name, hname, hts⟩ := hholds.of_property
  simp only at hname
  subst hname
  rcases hts with ⟨hincomplete, -⟩ | ⟨v, hv, rfl⟩
  · exact absurd trivial hincomplete
  · have hvalue : IsValue True v := ⟨h.lawful.each v (by simp [Tree.children]), hv⟩
    refine ⟨name, v, rfl, hvalue, ?_⟩
    rw [Tree.fold_eq]
    simp only [Tree.value, Tree.children, List.map_cons, List.map_nil, fold_partOf_of_value hv,
      partOf]
    rfl

/-- The entries of members that fit the grammar are their names with the values of their elements.
-/
theorem filterMap_entries { entry? : Part → Option (Name × Value)}
    (hentry : ∀ name v, entry? (.entry name v) = some (name, v)) (hts : ∀ t ∈ ts, IsMember True t) :
    (ts.map (Tree.fold partOf)).filterMap entry? =
      (ts.filterMap member?).map fun m => (m.1, ofTree m.2) := by
  induction ts with
  | nil => rfl
  | cons t ts ih =>
    rw [List.forall_mem_cons] at hts
    obtain ⟨name, v, hmember, -, hfold⟩ := fold_partOf_of_member hts.1
    simp [hmember, hfold, hentry, ih hts.2]

/-- An object of a document without faults is made of what is written in it. -/
theorem ofTree_object (h : IsValue True t) (hkind : t.value.kind = .object) :
    ofTree t = ofEntries ((members t).map fun m => (m.1, ofTree m.2)) := by
  have hholds := h.lawful.here
  rw [hkind] at hholds
  have hmembers : ∀ c ∈ t.children, IsMember True c :=
    fun c hc => ⟨h.lawful.each c hc, hholds.of_object c hc⟩
  unfold ofTree
  rw [Tree.fold_eq]
  unfold partOf
  rw [hkind]
  exact congrArg ofEntries (filterMap_entries (fun _ _ => rfl) hmembers)

end Value

/-- A value written in a document without faults is a value itself. -/
theorem isValue_of_mem_members (h : IsValue True t) {m : Name × Tree Element}
    (hm : m ∈ members t) : IsValue True m.2 := by
  rw [members, List.mem_filterMap] at hm
  obtain ⟨c, hc, hmember⟩ := hm
  have hkind : c.value.kind = .property := by
    unfold member? at hmember
    split at hmember
    · rfl
    · cases hmember
  obtain ⟨name, v, hmember', hv, -⟩ := Value.fold_partOf_of_member ⟨h.lawful.each c hc, hkind⟩
  rw [hmember] at hmember'
  cases hmember'
  exact hv

/-- The element that holds the options of a value is a value. -/
theorem isValue_optionsElement (h : IsValue True t) : IsValue True (optionsElement t) := by
  rw [optionsElement]
  cases hlast : last? (Text.units sectionName) (members t) with
  | none => exact h
  | some v => exact isValue_of_mem_members h (mem_of_last? hlast)

end TreeInspector.Config
