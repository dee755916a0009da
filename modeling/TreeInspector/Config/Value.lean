import TreeInspector.Document.Element

/-!
# Values of a configuration

The value that a document without faults stands for. An object keeps its entries in the order of
their first appearance, each with its last value, and inherits from a parent object. An entry named
`__proto__` is not kept but chooses the parent, as long as the object still descends from the
ordinary root object.
-/

set_option autoImplicit false

namespace TreeInspector.Config

open Document (Element)

/-- The name of an entry. -/
abbrev Name := List CodeUnit

/-- A value of a configuration; of numbers and strings only the kind matters, and the name a string
may serve as. The parent of an object is the ordinary root object unless another was chosen. -/
inductive Value where
  | null
  | boolean (value : Bool)
  | number
  | string (value : Name)
  | array (length : Nat)
  | object (entries : List (Name × Value)) (parent : Option Value)

/-- The name of the entry that chooses a parent. -/
def parentName : Name := Text.units "__proto__"

/-- The entries with a value put under a name, which keeps its place if it has one. -/
def put {α : Type} (name : Name) (value : α) : List (Name × α) → List (Name × α)
  | [] => [(name, value)]
  | (n, v) :: rest =>
    if n = name then (n, value) :: rest else (n, v) :: put name value rest

/-- The value under a name. -/
def get? {α : Type} (name : Name) (entries : List (Name × α)) : Option α :=
  (entries.find? fun e => e.1 = name).map (·.2)

namespace Value

/-- An object with this parent takes an entry named `__proto__` for the choice of a parent: it
descends from the root object, and nothing between holds such an entry itself. -/
def choosesParent : Option Value → Bool
  | none => true
  | some (.object entries parent) =>
    (get? parentName entries).isNone && choosesParent parent
  | some (.array _) => true
  | some _ => false

/-- An object after an entry has been put into it. -/
def putEntry (object : List (Name × Value) × Option Value) (entry : Name × Value) :
    List (Name × Value) × Option Value :=
  let (entries, parent) := object
  let (name, value) := entry
  if name = parentName ∧ choosesParent parent then
    match value with
    | .null => (entries, some .null)
    | .array n => (entries, some (.array n))
    | .object es p => (entries, some (.object es p))
    | _ => (entries, parent)
  else (put name value entries, parent)

/-- The object with the given entries, put into it one by one. -/
def ofEntries (entries : List (Name × Value)) : Value :=
  let (entries, parent) := entries.foldl putEntry ([], none)
  .object entries parent

/-- What an element stands for: a value, or an entry of the object around it. -/
inductive Part where
  | value (v : Value)
  | entry (name : Name) (v : Value)

/-- What an element stands for, given what its parts do. -/
def partOf (e : Element) (parts : List Part) : Part :=
  match e.kind with
  | .null => .value .null
  | .boolean b => .value (.boolean b)
  | .number => .value .number
  | .string s => .value (.string s)
  | .array => .value (.array parts.length)
  | .object =>
    .value (ofEntries (parts.filterMap fun
      | .entry name v => some (name, v)
      | .value _ => none))
  | .property =>
    match parts with
    | [.value (.string name), .value v] => .entry name v
    | _ => .value .null

/-- The value of a document. -/
def ofTree (root : Tree Element) : Value :=
  match root.fold partOf with
  | .value v => v
  | .entry _ v => v

/-- The value under a name, the object's own or an inherited one. -/
def lookup? (name : Name) : Value → Option Value
  | .object entries none => get? name entries
  | .object entries (some parent) =>
    match get? name entries with
    | some v => some v
    | none => lookup? name parent
  | _ => none

/-- The number that a name spells, if it is written without needless zeros and small enough to be
the index of an array. -/
def indexOf? (name : Name) : Option Nat :=
  if name.isEmpty ∨ name.any (fun u => !Text.isDigit u) then none
  else
    let n := name.foldl (fun n u => 10 * n + (u.toNat - '0'.toNat)) 0
    if n < Nat.pow 2 32 - 1 ∧ Text.units (Nat.repr n) = name then some n else none

/-- Names in the order of enumeration: those that are indices first, by size, then the others. -/
def enumerate (names : List Name) : List Name :=
  let indexed := names.filterMap fun n => (indexOf? n).map fun i => (i, n)
  (indexed.mergeSort fun a b => a.1 ≤ b.1).map (·.2) ++
    names.filter fun n => (indexOf? n).isNone

/-- The names that an object holds or inherits, its own first, each once. -/
def names : Value → List Name
  | .object entries none => enumerate (entries.map (·.1))
  | .object entries (some parent) =>
    let own := enumerate (entries.map (·.1))
    own ++ (names parent).filter fun n => n ∉ own
  | .array length => (List.range length).map fun i => Text.units (Nat.repr i)
  | _ => []

end Value

end TreeInspector.Config
