import TreeInspector.Failure
import TreeInspector.Tree.Basic

/-!
# Depth-first search

`search` visits the nodes of a tree in pre-order, from left to right or from right to left, down to
a depth limit, and stops at the first node accepted. The visitor may keep state of its own and may
fail. Open nodes are kept as a list of frames, so a tree may be as deep as it likes.
-/

set_option autoImplicit false

namespace TreeInspector

/-- The order in which the children of a node are visited. -/
inductive Direction where
  | forward
  | backward
  deriving DecidableEq, Repr

/-- How deep a search goes; nodes at the limit are visited, those below it are not. -/
inductive DepthLimit where
  | unbounded
  | atMost (depth : Nat)
  deriving DecidableEq, Repr

namespace DepthLimit

/-- Children of a node at this depth are within the limit. -/
def exceeds : DepthLimit → Nat → Bool
  | .unbounded, _ => true
  | .atMost limit, depth => depth < limit

/-- The limit that a number states. -/
def ofNumber (n : Number) : Except Failure DepthLimit :=
  if n = Number.infinity then .ok .unbounded
  else
    match n.toIndex? with
    | some depth => .ok (.atMost depth)
    | none => .error (.badDepthLimit n)

end DepthLimit

namespace Tree

section

variable {α ε σ : Type}

/-- The children of an open node, of which the last `remaining` ones in visiting order are still to
be visited. -/
structure Frame (α : Type) where
  children : Array (Tree α)
  depth : Nat
  remaining : Nat
  remaining_le : remaining ≤ children.size

namespace Frame

/-- The frame of a node just opened. -/
def ofChildren (children : List (Tree α)) (depth : Nat) : Frame α :=
  ⟨children.toArray, depth, children.toArray.size, Nat.le_refl _⟩

/-- The place of the child that is visited next. -/
def index (direction : Direction) (f : Frame α) : Nat :=
  match direction with
  | .forward => f.children.size - f.remaining
  | .backward => f.remaining - 1

/-- The children still to be visited, in visiting order. -/
def pending (direction : Direction) (f : Frame α) : List (Tree α) :=
  match direction with
  | .forward => f.children.toList.drop (f.children.size - f.remaining)
  | .backward => (f.children.toList.take f.remaining).reverse

/-- The frame after its next child has been taken. -/
def advance (f : Frame α) : Frame α :=
  { f with
    remaining := f.remaining - 1
    remaining_le := Nat.le_trans (Nat.sub_le ..) f.remaining_le }

/-- The index of the next child is one of a child. -/
theorem index_lt (direction : Direction) (f : Frame α) (h : 0 < f.remaining) :
    f.index direction < f.children.size := by
  have := f.remaining_le
  cases direction <;> simp only [index] <;> omega

/-- The child that is visited next. -/
def next (direction : Direction) (f : Frame α) (h : 0 < f.remaining) : Tree α :=
  have := f.index_lt direction h
  f.children[f.index direction]

/-- The first of the children to come is the next one. -/
theorem pending_eq_cons (direction : Direction) (f : Frame α) (h : 0 < f.remaining) :
    f.pending direction = f.next direction h :: f.advance.pending direction := by
  have hle := f.remaining_le
  have hlt := f.index_lt direction h
  cases direction with
  | forward =>
    have hnext : f.children.size - (f.remaining - 1) = f.children.size - f.remaining + 1 := by
      omega
    simp only [pending, next, advance, index, hnext]
    rw [List.drop_eq_getElem_cons (by simpa [index] using hlt)]
    simp
  | backward =>
    obtain ⟨k, hk⟩ : ∃ k, f.remaining = k + 1 := ⟨f.remaining - 1, by omega⟩
    simp only [pending, next, advance, index, hk, Nat.add_sub_cancel]
    rw [List.take_add_one, List.getElem?_eq_getElem (by simp; omega)]
    simp

/-- A bound on the work left for a frame: each node in and below the children still to be visited
is taken once and opens at most one frame, and the frame itself is closed. -/
def weight (direction : Direction) (f : Frame α) : Nat := 1 + 2 * sizes (f.pending direction)

/-- Going on to the next child takes twice its size off the weight. -/
theorem weight_advance (direction : Direction) (f : Frame α) (h : 0 < f.remaining) :
    f.weight direction = 2 * (f.next direction h).size + f.advance.weight direction := by
  simp only [weight, f.pending_eq_cons direction h, sizes]
  omega

/-- The weight of a fresh frame is one more than twice the size of its children. -/
theorem weight_ofChildren (direction : Direction) (children : List (Tree α)) (depth : Nat) :
    (ofChildren children depth).weight direction = 1 + 2 * sizes children := by
  cases direction <;> simp [weight, pending, ofChildren, sizes_reverse, List.take_of_length_le]

end Frame

/-- The work left for a list of frames. -/
def pendingWeight (direction : Direction) (frames : List (Frame α)) : Nat :=
  frames.foldr (fun f n => f.weight direction + n) 0

/-- Visits what the frames still hold. The innermost frame comes first. -/
def searchFrames (visit : Tree α → Nat → EStateM ε σ Bool) (direction : Direction)
    (limit : DepthLimit) (frames : List (Frame α)) : EStateM ε σ (Option (Tree α)) := fun s =>
  match frames with
  | [] => .ok none s
  | frame :: outer =>
    if h : 0 < frame.remaining then
      let node := frame.next direction h
      match visit node frame.depth s with
      | .error e s' => .error e s'
      | .ok true s' => .ok (some node) s'
      | .ok false s' =>
        if limit.exceeds frame.depth && !node.children.isEmpty then
          searchFrames visit direction limit
            (Frame.ofChildren node.children (frame.depth + 1) :: frame.advance :: outer) s'
        else searchFrames visit direction limit (frame.advance :: outer) s'
    else searchFrames visit direction limit outer s
termination_by pendingWeight direction frames
decreasing_by
  · have := frame.weight_advance direction h
    have := size_eq (frame.next direction h)
    simp only [pendingWeight, List.foldr_cons, Frame.weight_ofChildren]
    omega
  · have := frame.weight_advance direction h
    have := size_eq (frame.next direction h)
    simp only [pendingWeight, List.foldr_cons]
    omega
  · simp only [pendingWeight, List.foldr_cons, Frame.weight]
    omega

/-- The first node in pre-order that the visitor accepts. -/
def search (visit : Tree α → Nat → EStateM ε σ Bool) (direction : Direction) (limit : DepthLimit)
    (root : Tree α) : EStateM ε σ (Option (Tree α)) := do
  if ← visit root 0 then return some root
  if limit.exceeds 0 && !root.children.isEmpty then
    searchFrames visit direction limit [Frame.ofChildren root.children 1]
  else return none

/-- `search` with the limit given as a number, which is checked before any node is visited. -/
def searchWithin (visit : Tree α → Nat → EStateM Failure σ Bool) (direction : Direction)
    (limit : Number) (root : Tree α) : EStateM Failure σ (Option (Tree α)) :=
  match DepthLimit.ofNumber limit with
  | .error e => throw e
  | .ok limit => search visit direction limit root

/-- Visits every node in pre-order from left to right. -/
def walk (visit : Tree α → Nat → EStateM ε σ Unit) (root : Tree α) : EStateM ε σ Unit := do
  let _ ← search (fun node depth => do visit node depth; return false) .forward .unbounded root

/-- The values of all nodes with their depths, in pre-order. -/
def listing (root : Tree α) : Array (α × Nat) :=
  let visit := fun (node : Tree α) depth =>
    modify fun (found : Array (α × Nat)) => found.push (node.value, depth)
  match (walk visit root : EStateM Empty (Array (α × Nat)) Unit) #[] with
  | .ok _ found => found

end

end Tree

end TreeInspector
