import TreeInspector.Proofs.Number
import TreeInspector.Tree.Search

/-!
# The search is a pre-order search

`preorder` lists what a search goes through, by recursion on the tree: a node with its depth, then
its subtrees if the limit lets the search go deeper. `seek` is the search itself by recursion. The
search that keeps its open nodes as frames does the same as both, whatever the visitor does.

It is a ladder: `searchFrames_eq_firstAccepted` says what the frames still stand for,
`search_eq_firstAccepted` and `seek_eq_firstAccepted` meet at the list of nodes, and
`searchWithin_agrees_with_preorder` adds the limit as a number.
-/

set_option autoImplicit false

namespace TreeInspector

/-- The limit that a number states: infinity states none, a natural number states itself. -/
inductive DepthLimit.Stated : Number → DepthLimit → Prop where
  | unbounded : Stated Number.infinity .unbounded
  | atMost (depth : Nat) : Stated (Number.ofNat depth) (.atMost depth)

namespace Tree

section

variable {α ε σ : Type}

mutual

/-- The nodes of a tree down to a limit, each with its depth: the root first, then the nodes of its
subtrees in the given direction. -/
def preorder (direction : Direction) (limit : DepthLimit) (depth : Nat) :
    Tree α → List (Tree α × Nat)
  | .node a cs =>
    (.node a cs, depth) ::
      if limit.exceeds depth then preorders direction limit (depth + 1) cs else []

/-- The nodes of several trees that stand side by side. -/
def preorders (direction : Direction) (limit : DepthLimit) (depth : Nat) :
    List (Tree α) → List (Tree α × Nat)
  | [] => []
  | t :: ts =>
    match direction with
    | .forward => preorder direction limit depth t ++ preorders direction limit depth ts
    | .backward => preorders direction limit depth ts ++ preorder direction limit depth t

end

mutual

/-- The first node of a tree that the visitor accepts, by recursion: the root is visited first, then
its subtrees if the limit lets the search go deeper. -/
def seek (visit : Tree α → Nat → EStateM ε σ Bool) (direction : Direction) (limit : DepthLimit)
    (depth : Nat) : Tree α → EStateM ε σ (Option (Tree α))
  | .node a cs => do
    if ← visit (.node a cs) depth then return some (.node a cs)
    if limit.exceeds depth then seekAmong visit direction limit (depth + 1) cs else return none

/-- The first node of several trees that the visitor accepts. -/
def seekAmong (visit : Tree α → Nat → EStateM ε σ Bool) (direction : Direction)
    (limit : DepthLimit) (depth : Nat) : List (Tree α) → EStateM ε σ (Option (Tree α))
  | [] => return none
  | t :: ts =>
    match direction with
    | .forward => do
      if let some found ← seek visit direction limit depth t then return some found
      seekAmong visit direction limit depth ts
    | .backward => do
      if let some found ← seekAmong visit direction limit depth ts then return some found
      seek visit direction limit depth t

end

/-- Hands the nodes of a list to the visitor one after another, until one is accepted. -/
def firstAccepted (visit : Tree α → Nat → EStateM ε σ Bool) :
    List (Tree α × Nat) → EStateM ε σ (Option (Tree α))
  | [] => return none
  | (t, depth) :: rest => do
    if ← visit t depth then return some t
    firstAccepted visit rest

/-- The part of a list that is handed to the visitor: up to the first node that it accepts or at
which it fails, that node included. -/
def handed (visit : Tree α → Nat → EStateM ε σ Bool) : List (Tree α × Nat) → σ →
    List (Tree α × Nat)
  | [], _ => []
  | (t, depth) :: rest, s =>
    (t, depth) ::
      match visit t depth s with
      | .ok false s' => handed visit rest s'
      | _ => []

/-- The visitor that also writes down what it is handed. -/
def noting (visit : Tree α → Nat → EStateM ε σ Bool) (t : Tree α) (depth : Nat) :
    EStateM ε (σ × List (Tree α × Nat)) Bool := fun (s, seen) =>
  match visit t depth s with
  | .ok accepted s' => .ok accepted (s', seen ++ [(t, depth)])
  | .error e s' => .error e (s', seen ++ [(t, depth)])

/-! ## Lists of nodes -/

/-- The pre-order of a tree is its root and, where the limit allows, the pre-order of its children.
-/
theorem preorder_eq (direction : Direction) (limit : DepthLimit) (depth : Nat) (t : Tree α) :
    preorder direction limit depth t =
      (t, depth) ::
        if limit.exceeds depth then preorders direction limit (depth + 1) t.children else [] := by
  cases t with
  | node a cs => rw [preorder, children]

/-- Forwards, the children come from the first to the last. -/
theorem preorders_forward (limit : DepthLimit) (depth : Nat) (ts : List (Tree α)) :
    preorders .forward limit depth ts = ts.flatMap (preorder .forward limit depth) := by
  induction ts with
  | nil => rfl
  | cons t ts ih => simp only [preorders, ih, List.flatMap_cons]

/-- Backwards, the children come from the last to the first. -/
theorem preorders_backward (limit : DepthLimit) (depth : Nat) (ts : List (Tree α)) :
    preorders .backward limit depth ts =
      ts.reverse.flatMap (preorder .backward limit depth) := by
  induction ts with
  | nil => rfl
  | cons t ts ih =>
    simp only [preorders, ih, List.reverse_cons, List.flatMap_append, List.flatMap_cons,
      List.flatMap_nil, List.append_nil]

/-- What a frame still stands for: the nodes of the children that are still to be visited. -/
def Frame.agenda (direction : Direction) (limit : DepthLimit) (f : Frame α) :
    List (Tree α × Nat) :=
  (f.pending direction).flatMap (preorder direction limit f.depth)

/-- A fresh frame stands for all of its children. -/
theorem Frame.agenda_ofChildren (direction : Direction) (limit : DepthLimit)
    (cs : List (Tree α)) (depth : Nat) :
    (Frame.ofChildren cs depth).agenda direction limit = preorders direction limit depth cs := by
  cases direction with
  | forward => simp [agenda, pending, ofChildren, preorders_forward]
  | backward => simp [agenda, pending, ofChildren, preorders_backward, List.take_of_length_le]

/-- A frame that has children left stands for the next of them and for what it stands for after it.
-/
theorem Frame.agenda_eq_cons (direction : Direction) (limit : DepthLimit) (f : Frame α)
    (h : 0 < f.remaining) :
    f.agenda direction limit =
      preorder direction limit f.depth (f.next direction h) ++
        f.advance.agenda direction limit := by
  unfold agenda
  rw [f.pending_eq_cons direction h, List.flatMap_cons]
  rfl

/-- A frame without children left stands for nothing. -/
theorem Frame.agenda_of_not_pos (direction : Direction) (limit : DepthLimit) (f : Frame α)
    (h : ¬0 < f.remaining) : f.agenda direction limit = [] := by
  have hzero : f.remaining = 0 := by omega
  cases direction with
  | forward => simp [agenda, pending, hzero, List.drop_of_length_le]
  | backward => simp [agenda, pending, hzero]

/-! ## Going through a list of nodes -/

/-- The nodes are handed to the visitor one at a time, until one is accepted or a visit fails. -/
theorem firstAccepted_cons (visit : Tree α → Nat → EStateM ε σ Bool) (t : Tree α) (depth : Nat)
    (rest : List (Tree α × Nat)) (s : σ) :
    firstAccepted visit ((t, depth) :: rest) s =
      match visit t depth s with
      | .ok true s' => .ok (some t) s'
      | .ok false s' => firstAccepted visit rest s'
      | .error e s' => .error e s' := by
  simp only [firstAccepted, bind, EStateM.bind]
  cases visit t depth s with
  | ok accepted s' => cases accepted <;> rfl
  | error e s' => rfl

/-- The second half of a list is gone through if nothing in the first one is accepted. -/
theorem firstAccepted_append (visit : Tree α → Nat → EStateM ε σ Bool)
    (xs ys : List (Tree α × Nat)) (s : σ) :
    firstAccepted visit (xs ++ ys) s =
      match firstAccepted visit xs s with
      | .ok (some t) s' => .ok (some t) s'
      | .ok none s' => firstAccepted visit ys s'
      | .error e s' => .error e s' := by
  induction xs generalizing s with
  | nil => rfl
  | cons x xs ih =>
    obtain ⟨t, depth⟩ := x
    rw [List.cons_append, firstAccepted_cons, firstAccepted_cons]
    cases visit t depth s with
    | ok accepted s' =>
      cases accepted with
      | true => rfl
      | false => exact ih s'
    | error e s' => rfl

/-- The visitor that takes notes decides as the visitor does, and what it has written down in the
end is what was handed to the visitor. -/
theorem firstAccepted_noting (visit : Tree α → Nat → EStateM ε σ Bool)
    (xs : List (Tree α × Nat)) (s : σ) (seen : List (Tree α × Nat)) :
    firstAccepted (noting visit) xs (s, seen) =
      match firstAccepted visit xs s with
      | .ok found s' => .ok found (s', seen ++ handed visit xs s)
      | .error e s' => .error e (s', seen ++ handed visit xs s) := by
  induction xs generalizing s seen with
  | nil => simp [firstAccepted, handed, pure, EStateM.pure]
  | cons x xs ih =>
    obtain ⟨t, depth⟩ := x
    rw [firstAccepted_cons, firstAccepted_cons]
    simp only [noting, handed]
    cases visit t depth s with
    | ok accepted s' =>
      cases accepted with
      | true => rfl
      | false =>
        simp only [ih, List.append_assoc, List.singleton_append]
    | error e s' => rfl

/-! ## The search with frames -/

/-- What frames stand for begins with the next child of the innermost one and what is below it. -/
theorem agendas_eq_cons (direction : Direction) (limit : DepthLimit) (f : Frame α)
    (outer : List (Frame α)) (h : 0 < f.remaining) :
    (f :: outer).flatMap (Frame.agenda direction limit) =
      (f.next direction h, f.depth) ::
        ((if limit.exceeds f.depth then
            preorders direction limit (f.depth + 1) (f.next direction h).children
          else []) ++
          (f.advance :: outer).flatMap (Frame.agenda direction limit)) := by
  rw [List.flatMap_cons, f.agenda_eq_cons direction limit h, preorder_eq, List.flatMap_cons]
  simp only [List.cons_append, List.append_assoc]

/-- Visiting what the frames hold is going through what they stand for, the innermost first. -/
theorem searchFrames_eq_firstAccepted (visit : Tree α → Nat → EStateM ε σ Bool)
    (direction : Direction) (limit : DepthLimit) (frames : List (Frame α)) (s : σ) :
    searchFrames visit direction limit frames s =
      firstAccepted visit (frames.flatMap (Frame.agenda direction limit)) s := by
  -- The cases are those of the loop: no frame, a failure, an accepted node, a node that is opened,
  -- one that is not, and a frame that is done.
  fun_induction searchFrames visit direction limit frames s with
  | case1 s => rfl
  | case2 s frame outer h node e s' hvisit =>
    rw [agendas_eq_cons direction limit frame outer h, firstAccepted_cons, hvisit]
  | case3 s frame outer h node s' hvisit =>
    rw [agendas_eq_cons direction limit frame outer h, firstAccepted_cons, hvisit]
  | case4 s frame outer h node s' hvisit hopen ih =>
    rw [agendas_eq_cons direction limit frame outer h, firstAccepted_cons, hvisit, ih]
    simp only [Bool.and_eq_true] at hopen
    rw [List.flatMap_cons, Frame.agenda_ofChildren, if_pos hopen.1]
  | case5 s frame outer h node s' hvisit hclosed ih =>
    rw [agendas_eq_cons direction limit frame outer h, firstAccepted_cons, hvisit, ih]
    have hnone : (if limit.exceeds frame.depth then
        preorders direction limit (frame.depth + 1) node.children else []) = [] := by
      by_cases hdeep : limit.exceeds frame.depth = true
      · have hleaf : node.children = [] := by simpa [hdeep] using hclosed
        rw [hleaf, preorders, ite_self]
      · rw [if_neg hdeep]
    rw [hnone, List.nil_append]
  | case6 s frame outer h ih =>
    rw [ih, List.flatMap_cons, frame.agenda_of_not_pos direction limit h, List.nil_append]

/-- A search goes through the nodes of the tree in pre-order. -/
theorem search_eq_firstAccepted (visit : Tree α → Nat → EStateM ε σ Bool) (direction : Direction)
    (limit : DepthLimit) (root : Tree α) :
    search visit direction limit root =
      firstAccepted visit (preorder direction limit 0 root) := by
  funext s
  rw [preorder_eq, firstAccepted_cons]
  simp only [search, bind, EStateM.bind]
  cases visit root 0 s with
  | error e s' => rfl
  | ok accepted s' =>
    cases accepted with
    | true => rfl
    | false =>
      by_cases hdeep : limit.exceeds 0 = true
      · by_cases hleaf : root.children = []
        · simp [hdeep, hleaf, preorders, firstAccepted]
        · have hopen : (limit.exceeds 0 && !root.children.isEmpty) = true := by
            simp [hdeep, hleaf]
          simp only [Bool.false_eq_true, if_false]
          rw [if_pos hopen, if_pos hdeep, searchFrames_eq_firstAccepted, List.flatMap_cons,
            Frame.agenda_ofChildren, List.flatMap_nil, List.append_nil]
      · simp [hdeep, firstAccepted]

/-! ## The search by recursion -/

mutual

/-- The recursive search goes through the nodes of a tree in pre-order. -/
theorem seek_eq_firstAccepted (visit : Tree α → Nat → EStateM ε σ Bool) (direction : Direction)
    (limit : DepthLimit) (depth : Nat) (t : Tree α) (s : σ) :
    seek visit direction limit depth t s =
      firstAccepted visit (preorder direction limit depth t) s := by
  cases t with
  | node a cs =>
    rw [preorder, firstAccepted_cons]
    simp only [seek, bind, EStateM.bind]
    cases visit (.node a cs) depth s with
    | error e s' => rfl
    | ok accepted s' =>
      cases accepted with
      | true => rfl
      | false =>
        by_cases hdeep : limit.exceeds depth = true
        · simp only [hdeep, if_true, Bool.false_eq_true, if_false]
          exact seekAmong_eq_firstAccepted visit direction limit (depth + 1) cs s'
        · simp only [hdeep, Bool.false_eq_true, if_false]
          rfl

/-- The recursive search goes through the nodes of several trees in pre-order. -/
theorem seekAmong_eq_firstAccepted (visit : Tree α → Nat → EStateM ε σ Bool)
    (direction : Direction) (limit : DepthLimit) (depth : Nat) (ts : List (Tree α)) (s : σ) :
    seekAmong visit direction limit depth ts s =
      firstAccepted visit (preorders direction limit depth ts) s := by
  cases ts with
  | nil => rfl
  | cons t ts =>
    have hhead := seek_eq_firstAccepted visit direction limit depth t
    have htail := seekAmong_eq_firstAccepted visit direction limit depth ts
    cases direction with
    | forward =>
      rw [preorders, firstAccepted_append, ← hhead]
      simp only [seekAmong, bind, EStateM.bind]
      cases seek visit .forward limit depth t s with
      | error e s' => rfl
      | ok found s' =>
        cases found with
        | some r => rfl
        | none => exact htail s'
    | backward =>
      rw [preorders, firstAccepted_append, ← htail]
      simp only [seekAmong, bind, EStateM.bind]
      cases seekAmong visit .backward limit depth ts s with
      | error e s' => rfl
      | ok found s' =>
        cases found with
        | some r => rfl
        | none => exact hhead s'

end

end

end Tree

/-! ## The limit as a number -/

namespace DepthLimit

/-- A number that states a limit is read as that limit. -/
theorem ofNumber_of_stated {number : Number} {limit : DepthLimit} (h : Stated number limit) :
    ofNumber number = .ok limit := by
  cases h with
  | unbounded => rfl
  | atMost depth =>
    have hne : Number.ofNat depth ≠ Number.infinity := by simp [Number.ofNat, Number.infinity]
    rw [ofNumber, if_neg hne, Number.toIndex?_ofNat]

/-- A number that states no limit is refused. -/
theorem ofNumber_of_not_stated {number : Number} (h : ¬∃ limit, Stated number limit) :
    ofNumber number = .error (.badDepthLimit number) := by
  have hne : number ≠ Number.infinity := by
    rintro rfl
    exact h ⟨_, .unbounded⟩
  have hindex : number.toIndex? = none := by
    cases hi : number.toIndex? with
    | none => rfl
    | some depth =>
      rw [Number.toIndex?_eq_some_iff] at hi
      exact absurd ⟨.atMost depth, hi ▸ Stated.atMost depth⟩ h
  rw [ofNumber, if_neg hne, hindex]

end DepthLimit

namespace Tree

/-- A search whose limit is stated by a number does what the recursive search does: it hands the
nodes to the visitor in pre-order, returns the first one accepted and stops there, stops at a
failure with the visitor's state as it is then, and finds nothing only when all have been handed
over. Any other limit is refused before the visitor is called. -/
theorem searchWithin_agrees_with_preorder {α σ : Type}
    (visit : Tree α → Nat → EStateM Failure σ Bool) (direction : Direction) (number : Number)
    (root : Tree α) :
    (∀ limit, DepthLimit.Stated number limit →
      searchWithin visit direction number root = seek visit direction limit 0 root ∧
      searchWithin visit direction number root =
        firstAccepted visit (preorder direction limit 0 root) ∧
      ∀ s, searchWithin (noting visit) direction number root (s, []) =
        match searchWithin visit direction number root s with
        | .ok found s' => .ok found (s', handed visit (preorder direction limit 0 root) s)
        | .error e s' => .error e (s', handed visit (preorder direction limit 0 root) s)) ∧
    ((¬∃ limit, DepthLimit.Stated number limit) →
      ∀ s, searchWithin visit direction number root s = .error (.badDepthLimit number) s) := by
  constructor
  · intro limit hlimit
    have hlist : searchWithin visit direction number root =
        firstAccepted visit (preorder direction limit 0 root) := by
      simp only [searchWithin, DepthLimit.ofNumber_of_stated hlimit, search_eq_firstAccepted]
    refine ⟨?_, hlist, ?_⟩
    · funext s
      rw [hlist, seek_eq_firstAccepted]
    · intro s
      rw [hlist]
      simp only [searchWithin, DepthLimit.ofNumber_of_stated hlimit, search_eq_firstAccepted,
        firstAccepted_noting, List.nil_append]
      cases firstAccepted visit (preorder direction limit 0 root) s with
      | ok found s' => rfl
      | error e s' => rfl
  · intro hnone s
    rw [searchWithin, DepthLimit.ofNumber_of_not_stated hnone]
    rfl

/-- From right to left and one level deep, a visitor that looks for a two and counts its calls is
called for the root and for the last of its children, and a limit that is no number is refused. -/
theorem searchWithin_backward_two :
    let visit : Tree Nat → Nat → EStateM Failure Nat Bool :=
      fun t _ calls => .ok (t.value == 2) (calls + 1)
    let root : Tree Nat := .node 0 [.node 2 [], .node 1 [], .node 2 [.node 2 []]]
    searchWithin visit .backward (Number.ofNat 1) root 0 = .ok (some (.node 2 [.node 2 []])) 2 ∧
      searchWithin visit .backward Number.nan root 0 = .error (.badDepthLimit Number.nan) 0 := by
  intro visit root
  constructor
  · rw [((searchWithin_agrees_with_preorder visit .backward (Number.ofNat 1) root).1 _
      (.atMost 1)).2.1]
    rfl
  · apply (searchWithin_agrees_with_preorder visit .backward Number.nan root).2
    rintro ⟨limit, hlimit⟩
    cases hlimit

end Tree

end TreeInspector
