import TreeInspector.Number.Text

/-!
# Trees of nodes

A parse tree is a rooted ordered tree; each of its nodes has a label and the span of the text it
covers.
-/

set_option autoImplicit false

namespace TreeInspector

/-- A half-open stretch of a text, from `start` up to but not including `stop`. -/
structure Span where
  start : Number
  stop : Number
  deriving DecidableEq

namespace Span

/-- The span between two counted offsets. -/
def between (start stop : Nat) : Span := ⟨start, stop⟩

/-- The offset lies in the span. -/
def contains (s : Span) (offset : Number) : Bool :=
  decide (s.start ≤ offset) && decide (offset < s.stop)

/-- The written form of a span. -/
def text (s : Span) : String := "[" ++ s.start.text ++ ", " ++ s.stop.text ++ ")"

end Span

/-- A rooted tree whose nodes carry values and have their children in order. -/
inductive Tree (α : Type) where
  | node (value : α) (children : List (Tree α))

namespace Tree

section

variable {α β : Type}

/-- What the root carries. -/
def value : Tree α → α
  | .node a _ => a

/-- The subtrees right below the root. -/
def children : Tree α → List (Tree α)
  | .node _ cs => cs

mutual

/-- The number of nodes of a tree. -/
def size : Tree α → Nat
  | .node _ cs => 1 + sizes cs

/-- The number of nodes of several trees. -/
def sizes : List (Tree α) → Nat
  | [] => 0
  | t :: ts => size t + sizes ts

end

mutual

/-- The tree with every value replaced. -/
def map (f : α → β) : Tree α → Tree β
  | .node a cs => .node (f a) (maps f cs)

/-- The trees with every value replaced. -/
def maps (f : α → β) : List (Tree α) → List (Tree β)
  | [] => []
  | t :: ts => map f t :: maps f ts

end

mutual

/-- What a tree amounts to, when a node is worked out from its value and its children. -/
def fold (f : α → List β → β) : Tree α → β
  | .node a cs => f a (folds f cs)

/-- What several trees amount to. -/
def folds (f : α → List β → β) : List (Tree α) → List β
  | [] => []
  | t :: ts => fold f t :: folds f ts

end

/-- The size of a tree is one more than that of its children. -/
theorem size_eq (t : Tree α) : t.size = 1 + sizes t.children := by
  cases t with
  | node a cs => rw [size, children]

/-- Sizes of lists of trees add up. -/
theorem sizes_append (ts us : List (Tree α)) : sizes (ts ++ us) = sizes ts + sizes us := by
  induction ts with
  | nil => simp [sizes]
  | cons t ts ih => simp [sizes, ih, Nat.add_assoc]

/-- The size of a list of trees does not depend on its direction. -/
theorem sizes_reverse (ts : List (Tree α)) : sizes ts.reverse = sizes ts := by
  induction ts with
  | nil => rfl
  | cons t ts ih => simp [sizes, sizes_append, ih, Nat.add_comm]

end

end Tree

/-- What a node of a parse tree carries. -/
structure Node where
  label : String
  span : Span
  deriving DecidableEq

/-- A parse tree as views and searches see it. -/
abbrev ParseTree := Tree Node

end TreeInspector
