import Mathlib.Data.List.Chain
import Mathlib.Data.List.TakeWhile
import Mathlib.Data.Set.Function
import TreeInspector.Proofs.Tree.Preorder
import TreeInspector.Tree.ViewLine

/-!
# The outline of a tree

The lines of a view give each node with its depth and nothing else of the tree. `outline` is that
list by recursion on the tree, and `forest` reads trees off such a list: the entries below the first
one, up to the next entry that is no deeper than it, are its children. The two are inverse to each
other on the lists in which depths rise one at a time, so rendering loses nothing.
-/

set_option autoImplicit false

namespace TreeInspector

namespace Tree

section

variable {α ε : Type}

/-- Trees that stand side by side are none, or a tree whose children stand side by side and further
trees. -/
@[elab_as_elim]
theorem forestInduction {motive : List (Tree α) → Prop} (nil : motive [])
    (cons : ∀ a cs ts, motive cs → motive ts → motive (.node a cs :: ts)) :
    ∀ ts, motive ts
  | [] => nil
  | .node a cs :: ts => cons a cs ts (forestInduction nil cons cs) (forestInduction nil cons ts)
termination_by ts => sizes ts
decreasing_by
  all_goals simp only [sizes, size]; omega

mutual

/-- The values of a tree with their depths, where the root has the given one. -/
def outline (depth : Nat) : Tree α → List (α × Nat)
  | .node a cs => (a, depth) :: outlines (depth + 1) cs

/-- The values of several trees with their depths, where each root has the given one. -/
def outlines (depth : Nat) : List (Tree α) → List (α × Nat)
  | [] => []
  | t :: ts => outline depth t ++ outlines depth ts

end

/-- The outline of a forest lists the first root, then what is below it, then the other trees. -/
theorem outlines_cons_node (depth : Nat) (a : α) (cs ts : List (Tree α)) :
    outlines depth (.node a cs :: ts) =
      (a, depth) :: (outlines (depth + 1) cs ++ outlines depth ts) := by
  rw [outlines, outline, List.cons_append]

/-- The outline of a tree starts with its root. -/
theorem outline_eq (depth : Nat) (t : Tree α) :
    outline depth t = (t.value, depth) :: outlines (depth + 1) t.children := by
  cases t with
  | node a cs => rw [outline, value, children]

/-! ## The listing is the outline -/

/-- The pre-order of a forest, read for the values, is its outline. -/
theorem preorders_map_value (depth : Nat) (ts : List (Tree α)) :
    (preorders .forward .unbounded depth ts).map (fun x => (x.1.value, x.2)) =
      outlines depth ts := by
  induction ts using forestInduction generalizing depth with
  | nil => rfl
  | cons a cs ts hcs hts =>
    rw [outlines_cons_node, ← hcs, ← hts]
    simp only [preorders, preorder, DepthLimit.exceeds, if_true, List.map_append, List.map_cons,
      List.cons_append]
    rfl

/-- The pre-order of a tree, read for the values, is its outline. -/
theorem preorder_map_value (t : Tree α) :
    (preorder .forward .unbounded 0 t).map (fun x => (x.1.value, x.2)) = outline 0 t := by
  rw [preorder_eq, outline_eq]
  simp only [DepthLimit.exceeds, if_true, List.map_cons, preorders_map_value]

/-- A visitor that only writes down what it is handed goes through the whole list. -/
theorem firstAccepted_push (xs : List (Tree α × Nat)) (found : Array (α × Nat)) :
    firstAccepted (fun (node : Tree α) depth => do
        modify fun (found : Array (α × Nat)) => found.push (node.value, depth)
        return false : Tree α → Nat → EStateM ε (Array (α × Nat)) Bool) xs found =
      .ok none (found ++ (xs.map fun x => (x.1.value, x.2)).toArray) := by
  induction xs generalizing found with
  | nil => simp [firstAccepted, pure, EStateM.pure]
  | cons x xs ih =>
    obtain ⟨t, depth⟩ := x
    rw [firstAccepted_cons]
    have hpush := ih (found.push (t.value, depth))
    have harray : found.push (t.value, depth) ++ (xs.map fun x => (x.1.value, x.2)).toArray =
        found ++ (((t, depth) :: xs).map fun x => (x.1.value, x.2)).toArray := by
      simp
    rw [harray] at hpush
    exact hpush

/-- The walk that lists the values of a tree writes down its outline. -/
theorem toList_listing (t : Tree α) : t.listing.toList = outline 0 t := by
  have hwalk : (search (fun (node : Tree α) depth => do
        modify fun (found : Array (α × Nat)) => found.push (node.value, depth)
        return false) .forward .unbounded t :
          EStateM Empty (Array (α × Nat)) (Option (Tree α))) #[] =
      .ok none (outline 0 t).toArray := by
    rw [search_eq_firstAccepted, firstAccepted_push, preorder_map_value, Array.empty_append]
  unfold listing walk
  simp only [bind, EStateM.bind]
  simp only [bind] at hwalk
  rw [hwalk]
  rfl

/-! ## Reading trees off an outline -/

/-- The trees whose roots stand at the given depth of an outline. -/
def forest (depth : Nat) : List (α × Nat) → List (Tree α)
  | [] => []
  | (a, _) :: rest =>
    .node a (forest (depth + 1) (rest.takeWhile fun x => depth < x.2)) ::
      forest depth (rest.dropWhile fun x => depth < x.2)
termination_by xs => xs.length
decreasing_by
  · exact Nat.lt_succ_of_le (List.takeWhile_sublist _).length_le
  · exact Nat.lt_succ_of_le (List.dropWhile_sublist _).length_le

/-- The entries of a list start at a depth, never come above it, and go down one at a time. -/
structure Layered (depth : Nat) (xs : List (α × Nat)) : Prop where
  head : ∀ x ∈ xs.head?, x.2 = depth
  floor : ∀ x ∈ xs, depth ≤ x.2
  steps : xs.IsChain fun x y => y.2 ≤ x.2 + 1

/-- What stands deeper right after the first entry is layered one level down. -/
theorem Layered.inner {depth : Nat} {x : α × Nat} {rest : List (α × Nat)}
    (h : Layered depth (x :: rest)) :
    Layered (depth + 1) (rest.takeWhile fun y => depth < y.2) := by
  have hroot : x.2 = depth := h.head x rfl
  have hstep := (List.isChain_cons.1 h.steps).1
  have hbelow : ∀ y ∈ rest.takeWhile (fun y => depth < y.2), depth < y.2 := by
    intro y hy
    simpa using List.mem_takeWhile_imp hy
  refine ⟨?_, hbelow, ?_⟩
  · -- The first entry below the root is one step below it.
    intro y hy
    have hdeep := hbelow y (List.mem_of_mem_head? hy)
    have hfirst : y ∈ rest.head? := by
      cases rest with
      | nil => simp at hy
      | cons z rest =>
        by_cases hz : depth < z.2
        · simpa [List.takeWhile_cons, hz] using hy
        · simp [hz] at hy
    have := hstep y hfirst
    omega
  · have hall := (List.isChain_cons.1 h.steps).2
    rw [← List.takeWhile_append_dropWhile (p := fun y => decide (depth < y.2)) (l := rest)]
      at hall
    exact hall.left_of_append

/-- What follows the entries below the first one is layered at the same depth. -/
theorem Layered.outer {depth : Nat} {x : α × Nat} {rest : List (α × Nat)}
    (h : Layered depth (x :: rest)) :
    Layered depth (rest.dropWhile fun y => depth < y.2) := by
  have hfloor : ∀ y ∈ rest.dropWhile (fun y => depth < y.2), depth ≤ y.2 := by
    intro y hy
    exact h.floor y (List.mem_cons_of_mem _ ((List.dropWhile_sublist _).subset hy))
  refine ⟨?_, hfloor, ?_⟩
  · intro y hy
    have hge := hfloor y (List.mem_of_mem_head? hy)
    have hle : ¬depth < y.2 := by
      have hnot := List.head?_dropWhile_not (fun y : α × Nat => decide (depth < y.2)) rest
      rw [Option.mem_def] at hy
      simpa [hy] using hnot
    omega
  · have hall := (List.isChain_cons.1 h.steps).2
    rw [← List.takeWhile_append_dropWhile (p := fun y => decide (depth < y.2)) (l := rest)]
      at hall
    exact hall.right_of_append

/-- The outline of a forest is layered. -/
theorem layered_outlines (depth : Nat) (ts : List (Tree α)) :
    Layered depth (outlines depth ts) := by
  induction ts using forestInduction generalizing depth with
  | nil => exact ⟨by simp [outlines], by simp [outlines], by simp [outlines]⟩
  | cons a cs ts hcs hts =>
    have hc := hcs (depth + 1)
    have ht := hts depth
    rw [outlines_cons_node]
    refine ⟨by simp, ?_, ?_⟩
    · intro x hx
      simp only [List.mem_cons, List.mem_append] at hx
      rcases hx with rfl | hx | hx
      · exact Nat.le_refl _
      · have := hc.floor x hx
        omega
      · exact ht.floor x hx
    · refine List.IsChain.cons (hc.steps.append ht.steps ?_) ?_
      · intro x hx y hy
        have hdeep := hc.floor x (List.mem_of_mem_getLast? hx)
        have htop := ht.head y hy
        omega
      · intro y hy
        rw [List.head?_append, Option.mem_def, Option.or_eq_some_iff] at hy
        rcases hy with hy | ⟨-, hy⟩
        · have := hc.head y hy
          simp only
          omega
        · have := ht.head y hy
          simp only
          omega

/-- The entries right behind a root that are deeper than it are those of its children. -/
theorem takeWhile_children (depth : Nat) (cs ts : List (Tree α)) :
    (outlines (depth + 1) cs ++ outlines depth ts).takeWhile (fun x => depth < x.2) =
        outlines (depth + 1) cs ∧
      (outlines (depth + 1) cs ++ outlines depth ts).dropWhile (fun x => depth < x.2) =
        outlines depth ts := by
  have hbelow : ∀ x ∈ outlines (depth + 1) cs, decide (depth < x.2) = true := by
    intro x hx
    rw [decide_eq_true_eq]
    exact (layered_outlines (depth + 1) cs).floor x hx
  have hhead := (layered_outlines depth ts).head
  rw [List.takeWhile_append_of_pos hbelow, List.dropWhile_append_of_pos hbelow]
  cases hout : outlines depth ts with
  | nil => simp
  | cons x xs =>
    have hx : x.2 = depth := hhead x (by simp [hout])
    simp [hx]

/-- Reading the trees off their outline gives them back. -/
theorem forest_outlines (depth : Nat) (ts : List (Tree α)) :
    forest depth (outlines depth ts) = ts := by
  induction ts using forestInduction generalizing depth with
  | nil => rw [outlines, forest]
  | cons a cs ts hcs hts =>
    obtain ⟨htake, hdrop⟩ := takeWhile_children depth cs ts
    rw [outlines_cons_node, forest, htake, hdrop, hcs, hts]

/-- The trees that are read off a layered list have that list as their outline. -/
theorem outlines_forest (depth : Nat) (xs : List (α × Nat)) (h : Layered depth xs) :
    outlines depth (forest depth xs) = xs := by
  fun_induction forest depth xs with
  | case1 depth => rfl
  | case2 depth a d rest hinner houter =>
    have hd : d = depth := h.head (a, d) rfl
    rw [outlines_cons_node, hinner h.inner, houter h.outer, List.takeWhile_append_dropWhile, hd]

end

end Tree

/-! ## Rendered lines -/

/-- The rendered lines are the entries of the outline. -/
theorem ParseTree.render_eq (navigation : Bool) (t : ParseTree) :
    t.render navigation =
      (t.outline 0).map fun x => ViewLine.ofNode navigation x.1 x.2 := by
  unfold render
  rw [Array.toList_map, Tree.toList_listing]

namespace ViewLine

/-- Lines that a tree may have: each has a span, the first one is not indented, the others are, and
no line is indented by more than one level further than the line before it. -/
structure IsOutline (lines : List ViewLine) : Prop where
  nonempty : lines ≠ []
  spanned : ∀ line ∈ lines, line.span.isSome
  first : ∀ line ∈ lines.head?, line.indent = 0
  later : ∀ line ∈ lines.tail, 1 ≤ line.indent
  steps : lines.IsChain fun line next => next.indent ≤ line.indent + 1

/-- What a line with a span tells of its node. -/
def entry (line : ViewLine) : Node × Nat :=
  (⟨line.label, line.span.getD ⟨0, 0⟩⟩, line.indent)

/-- The line of a node tells the node and its depth. -/
theorem entry_ofNode (node : Node) (depth : Nat) : (ofNode true node depth).entry = (node, depth) :=
  rfl

/-- A line with a span is the line of the node that it tells of. -/
theorem ofNode_entry {line : ViewLine} (h : line.span.isSome) :
    ofNode true line.entry.1 line.entry.2 = line := by
  obtain ⟨⟨label, span⟩, indent⟩ := line
  cases span with
  | none => simp at h
  | some span => rfl

end ViewLine

namespace ParseTree

/-- The rendered lines of a tree are lines that a tree may have. -/
theorem isOutline_render (t : ParseTree) : ViewLine.IsOutline (t.render true) := by
  have hlayers := Tree.layered_outlines 1 t.children
  have hwhole := Tree.layered_outlines 0 [t]
  rw [Tree.outlines, Tree.outlines, List.append_nil] at hwhole
  rw [render_eq]
  refine ⟨?_, ?_, ?_, ?_, ?_⟩
  · simp [Tree.outline_eq]
  · intro line hline
    obtain ⟨x, -, rfl⟩ := List.mem_map.1 hline
    rfl
  · simp [Tree.outline_eq, ViewLine.ofNode]
  · intro line hline
    rw [Tree.outline_eq, List.map_cons, List.tail_cons, List.mem_map] at hline
    obtain ⟨x, hx, rfl⟩ := hline
    exact hlayers.floor x hx
  · rw [List.isChain_map]
    exact hwhole.steps

/-- Different trees are rendered differently. -/
theorem render_injective : Function.Injective (render true) := by
  intro t u h
  have hentries := congrArg (List.map ViewLine.entry) h
  simp only [render_eq, List.map_map, Function.comp_def, ViewLine.entry_ofNode, Prod.mk.eta,
    List.map_id'] at hentries
  have hforest : Tree.outlines 0 [t] = Tree.outlines 0 [u] := by
    simp only [Tree.outlines, hentries]
  have hsame := congrArg (Tree.forest 0) hforest
  simpa only [Tree.forest_outlines, List.cons.injEq, and_true] using hsame

/-- Lines that a tree may have are the rendered lines of some tree. -/
theorem exists_render {lines : List ViewLine} (h : ViewLine.IsOutline lines) :
    ∃ t : ParseTree, t.render true = lines := by
  obtain ⟨line, rest, rfl⟩ := List.exists_cons_of_ne_nil h.nonempty
  have hlayers : Tree.Layered 1 (rest.map ViewLine.entry) := by
    have hsteps := List.isChain_cons.1 h.steps
    have htop : line.indent = 0 := h.first line rfl
    have hfloor : ∀ next ∈ rest, 1 ≤ next.indent := h.later
    refine ⟨?_, ?_, ?_⟩
    · intro x hx
      rw [List.head?_map, Option.mem_def, Option.map_eq_some_iff] at hx
      obtain ⟨next, hnext, rfl⟩ := hx
      have hle := hsteps.1 next hnext
      have hge := hfloor next (List.mem_of_mem_head? hnext)
      show next.indent = 1
      omega
    · intro x hx
      obtain ⟨next, hnext, rfl⟩ := List.mem_map.1 hx
      exact hfloor next hnext
    · rw [List.isChain_map]
      exact hsteps.2
  refine ⟨.node line.entry.1 (Tree.forest 1 (rest.map ViewLine.entry)), ?_⟩
  have hindent : line.entry.2 = 0 := h.first line rfl
  have hback : ∀ next ∈ line :: rest, ViewLine.ofNode true next.entry.1 next.entry.2 = next :=
    fun next hnext => ViewLine.ofNode_entry (h.spanned next hnext)
  rw [render_eq, Tree.outline, Tree.outlines_forest 1 _ hlayers, ← hindent, List.map_cons,
    List.map_map]
  have hrest : rest.map (fun next => ViewLine.ofNode true next.entry.1 next.entry.2) = rest :=
    (List.map_congr_left fun next hnext => hback next (List.mem_cons_of_mem _ hnext)).trans
      (List.map_id rest)
  exact congrArg₂ List.cons (hback line List.mem_cons_self) hrest

/-- Rendering with spans is a bijection between trees and the lists of lines that look like an
outline, and rendering without them leaves out the spans and nothing else. -/
theorem render_bijective :
    Set.BijOn (render true) Set.univ {lines | ViewLine.IsOutline lines} ∧
      ∀ t : ParseTree, t.render false =
        (t.render true).map fun line => { line with span := none } := by
  refine ⟨⟨?_, render_injective.injOn, ?_⟩, ?_⟩
  · intro t _
    exact isOutline_render t
  · intro lines hlines
    obtain ⟨t, ht⟩ := exists_render hlines
    exact ⟨t, Set.mem_univ t, ht⟩
  · intro t
    rw [render_eq, render_eq, List.map_map]
    rfl

end ParseTree

end TreeInspector
