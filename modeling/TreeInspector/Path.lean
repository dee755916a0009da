import TreeInspector.Text.Blank

/-!
# Paths

An absolute path is its list of segments. `resolve` reads a path relative to a directory and works
off empty segments, `.` and `..`.
-/

set_option autoImplicit false

namespace TreeInspector

/-- An absolute path without empty, `.` and `..` segments; the root has no segment. -/
structure Path where
  segments : List String
  deriving DecidableEq

namespace Path

/-- The pieces of a path between its slashes. -/
def pieces (path : String) : List String :=
  (Text.splitAt '/' path.toList).map String.ofList

/-- One step from a directory, whose segments are listed innermost first. -/
def enter (inner : List String) (piece : String) : List String :=
  if piece = "" ∨ piece = "." then inner
  else if piece = ".." then inner.drop 1
  else piece :: inner

/-- The path that `path` names from the directory `base`. -/
def resolve (base : Path) (path : String) : Path :=
  let start := if path.toList.head? = some '/' then [] else base.segments.reverse
  ⟨((pieces path).foldl enter start).reverse⟩

/-- The written form of a path. -/
def text (p : Path) : String := "/" ++ "/".intercalate p.segments

/-- The directory that holds a path; the root holds itself. -/
def parent (p : Path) : Path := ⟨p.segments.dropLast⟩

/-- The directories above a path, the root first. -/
def ancestors (p : Path) : List Path :=
  (List.range p.segments.length).map fun n => ⟨p.segments.take n⟩

/-- The last piece of a written path, slashes at its end not counting. -/
def baseName (path : String) : String :=
  ((pieces path).filter (· ≠ "")).getLast?.getD ""

end Path

end TreeInspector
