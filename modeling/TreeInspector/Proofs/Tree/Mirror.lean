import TreeInspector.Proofs.Tree.Nesting
import TreeInspector.Proofs.Tree.Pruning

/-!
# Searches in the mirror

The mirror of a tree has the children of each node in reverse order. A search from right to left
does in a tree what the search from left to right does in its mirror, as long as visitors look at
values and depths alone. The two searches of one tree go through it in orders of which neither is
the other one reversed, but both go through each node within the limit, and through each once.
-/

set_option autoImplicit false

namespace TreeInspector.Tree

section

variable {α ε σ : Type}

/-! ## Mirrors -/

/-- The tree with the children of each node in reverse order. -/
def mirror : Tree α → Tree α := fold fun a cs => .node a cs.reverse

/-- The mirror image of a node has the mirror images of its children in reverse. -/
theorem mirror_node (a : α) (cs : List (Tree α)) :
    (node a cs).mirror = .node a (cs.map mirror).reverse :=
  fold_eq _ _

/-- A mirror image has the value of the tree. -/
@[simp]
theorem value_mirror (t : Tree α) : t.mirror.value = t.value := by
  cases t with
  | node a cs => rw [mirror_node, value, value]

/-- The mirror images of mirror images are the trees. -/
theorem map_mirror_mirror (ts : List (Tree α)) : (ts.map mirror).map mirror = ts := by
  induction ts using forestInduction with
  | nil => rfl
  | cons a cs ts hcs hts =>
    rw [List.map_cons, List.map_cons, hts, mirror_node, mirror_node, List.map_reverse,
      List.reverse_reverse, hcs]

/-- The mirror of the mirror is the tree. -/
@[simp]
theorem mirror_mirror (t : Tree α) : t.mirror.mirror = t := by
  simpa using map_mirror_mirror [t]

/-- A node with its depth, seen in the mirror. -/
def reflect (x : Tree α × Nat) : Tree α × Nat := (x.1.mirror, x.2)

/-- What a search that takes notes comes to, seen in the mirror. -/
def mirrored : EStateM.Result ε (σ × List (Tree α × Nat)) (Option (Tree α)) →
    EStateM.Result ε (σ × List (Tree α × Nat)) (Option (Tree α))
  | .ok found (s, seen) => .ok (found.map mirror) (s, seen.map reflect)
  | .error e (s, seen) => .error e (s, seen.map reflect)

/-! ## From right to left -/

/-- Backwards through a list of trees is forwards through the mirror images of it. -/
theorem preorders_backward_eq (limit : DepthLimit) (depth : Nat) (ts : List (Tree α)) :
    preorders .backward limit depth ts =
      (preorders .forward limit depth (ts.map mirror).reverse).map reflect := by
  induction ts using forestInduction generalizing depth with
  | nil => rfl
  | cons a cs ts hcs hts =>
    have hfirst : preorder .backward limit depth (.node a cs) =
        (preorder .forward limit depth (node a cs).mirror).map reflect := by
      have hroot : reflect ((node a cs).mirror, depth) = (.node a cs, depth) := by simp [reflect]
      rw [mirror_node] at hroot ⊢
      rw [preorder, preorder, List.map_cons, hroot, hcs, apply_ite (List.map reflect),
        List.map_nil]
    rw [preorders, hts, hfirst, List.map_cons, List.reverse_cons, preorders_forward,
      preorders_forward, List.flatMap_append, List.flatMap_singleton, List.map_append]

/-- The nodes of a tree from right to left are those of its mirror from left to right. -/
theorem preorder_backward_eq (limit : DepthLimit) (t : Tree α) :
    preorder .backward limit 0 t = (preorder .forward limit 0 t.mirror).map reflect := by
  have hforest := preorders_backward_eq limit 0 [t]
  rwa [List.map_singleton, List.reverse_singleton, preorders_singleton, preorders_singleton]
    at hforest

/-- A visitor that looks at values and depths alone does the same in the mirror. -/
theorem firstAccepted_reflect (visit : α → Nat → EStateM ε σ Bool) (xs : List (Tree α × Nat))
    (s : σ) (seen : List (Tree α × Nat)) :
    firstAccepted (noting fun t => visit t.value) (xs.map reflect) (s, seen.map reflect) =
      mirrored (firstAccepted (noting fun t => visit t.value) xs (s, seen)) := by
  induction xs generalizing s seen with
  | nil => rfl
  | cons x xs ih =>
    obtain ⟨t, depth⟩ := x
    have hseen : seen.map reflect ++ [(t.mirror, depth)] = (seen ++ [(t, depth)]).map reflect := by
      rw [List.map_append]
      rfl
    rw [List.map_cons, reflect, firstAccepted_cons, firstAccepted_cons]
    simp only [noting, value_mirror]
    cases visit t.value depth s with
    | error e s' => simp only [mirrored, hseen]
    | ok accepted s' =>
      cases accepted with
      | true => simp only [mirrored, hseen, Option.map_some]
      | false => simp only [hseen, ih]

/-! ## Each node once -/

/-- Backwards and forwards through a list of trees the same nodes are met. -/
theorem preorders_perm (limit : DepthLimit) (depth : Nat) (ts : List (Tree α)) :
    (preorders .backward limit depth ts).Perm (preorders .forward limit depth ts) := by
  induction ts using forestInduction generalizing depth with
  | nil => exact .refl _
  | cons a cs ts hcs hts =>
    have hfirst : (preorder .backward limit depth (.node a cs)).Perm
        (preorder .forward limit depth (.node a cs)) := by
      rw [preorder, preorder]
      refine .cons _ ?_
      split
      · exact hcs (depth + 1)
      · exact .refl _
    exact List.perm_append_comm.trans (hfirst.append (hts depth))

/-- Backwards and forwards through a tree the same nodes are met. -/
theorem preorder_perm (limit : DepthLimit) (root : Tree α) :
    (preorder .backward limit 0 root).Perm (preorder .forward limit 0 root) := by
  rw [← preorders_singleton, ← preorders_singleton]
  exact preorders_perm limit 0 [root]

/-- The list holds each node within the limit once, with its depth. It is made of what stands at the
places of the tree, each place taken once. -/
def HoldsOnce (limit : DepthLimit) (root : Tree α) (seen : List (Tree α × Nat)) : Prop :=
  ∃ found : List (List Nat × Tree α), (found.map (·.1)).Nodup ∧
    (∀ place t, (place, t) ∈ found ↔
      root.subtree? place = some t ∧ limit.admits place.length = true) ∧
    seen.Perm (found.map fun x => (x.2, x.1.length))

/-- In either direction each node within the limit is met once. -/
theorem preorder_holdsOnce (direction : Direction) (limit : DepthLimit) (root : Tree α) :
    HoldsOnce limit root (preorder direction limit 0 root) := by
  have hforward : preorder .forward limit 0 root =
      (root.sites.filter fun x => limit.admits x.1.length).map fun x => (x.2, x.1.length) := by
    rw [preorder_eq_filter, preorder_eq_sites, List.filter_map]
    rfl
  refine ⟨root.sites.filter fun x => limit.admits x.1.length, ?_, ?_, ?_⟩
  · exact root.nodup_sites.sublist (List.filter_sublist.map _)
  · intro place t
    rw [List.mem_filter, mem_sites_iff]
  · rw [← hforward]
    cases direction with
    | forward => exact .refl _
    | backward => exact preorder_perm limit root

/-- A list that holds each node once has those that stand at places within the limit, with the
depths of these. -/
theorem HoldsOnce.mem_iff {limit : DepthLimit} {root t : Tree α} {seen : List (Tree α × Nat)}
    (h : HoldsOnce limit root seen) {depth : Nat} :
    (t, depth) ∈ seen ↔ ∃ place, root.subtree? place = some t ∧
      limit.admits place.length = true ∧ place.length = depth := by
  obtain ⟨found, -, hfound, hperm⟩ := h
  rw [hperm.mem_iff, List.mem_map]
  constructor
  · rintro ⟨⟨place, t⟩, hmem, heq⟩
    cases heq
    obtain ⟨ht, hadmits⟩ := (hfound place t).1 hmem
    exact ⟨place, ht, hadmits, rfl⟩
  · rintro ⟨place, ht, hadmits, rfl⟩
    exact ⟨(place, t), (hfound place t).2 ⟨ht, hadmits⟩, rfl⟩

/-! ## Both directions -/

/-- A search that accepts nothing is handed all nodes within the limit, in order. -/
theorem search_noting_false {number : Number} {limit : DepthLimit}
    (h : DepthLimit.Stated number limit) (direction : Direction) (root : Tree α) :
    searchWithin (noting (deciding fun _ _ => false)) direction number root ((), []) =
      .ok none ((), preorder direction limit 0 root) := by
  have hnone : (preorder direction limit 0 root).find? (fun _ => false) = none := by simp
  have hhanded := handed_deciding (fun _ _ => false) (preorder direction limit 0 root) ()
  simp only [hnone] at hhanded
  rw [searchWithin_of_stated h, firstAccepted_noting, firstAccepted_deciding, hhanded, hnone]
  rfl

/-- A search finds something exactly if something within the limit matches. -/
theorem exists_search_iff {number : Number} {limit : DepthLimit}
    (h : DepthLimit.Stated number limit) (p : α → Nat → Bool) (direction : Direction)
    (root : Tree α) :
    (∃ t, searchWithin (deciding fun t => p t.value) direction number root () =
        .ok (some t) ()) ↔
      ∃ place t, root.subtree? place = some t ∧ limit.admits place.length = true ∧
        p t.value place.length = true := by
  have hholds := preorder_holdsOnce direction limit root
  constructor
  · rintro ⟨t, hreturns⟩
    obtain ⟨depth, hfinds⟩ := exists_finds_of_returns h hreturns
    obtain ⟨hmem, hp⟩ := hfinds.mem h
    obtain ⟨place, hplace, hadmits, rfl⟩ := hholds.mem_iff.1 hmem
    exact ⟨place, t, hplace, hadmits, hp⟩
  · rintro ⟨place, t, hplace, hadmits, hp⟩
    have hmem := hholds.mem_iff.2 ⟨place, hplace, hadmits, rfl⟩
    obtain ⟨t', depth', hfinds⟩ := exists_finds_of_mem (p := fun t => p t.value) h hmem hp
    exact ⟨t', hfinds.returns⟩

/-- The only match within the limit is found. -/
theorem finds_of_unique {number : Number} {limit : DepthLimit}
    (h : DepthLimit.Stated number limit) {p : α → Nat → Bool} {root t : Tree α}
    {place : List Nat} (hplace : root.subtree? place = some t)
    (hadmits : limit.admits place.length = true) (hp : p t.value place.length = true)
    (hunique : ∀ place' t', root.subtree? place' = some t' →
      limit.admits place'.length = true → p t'.value place'.length = true → place' = place)
    (direction : Direction) :
    Finds (fun t => p t.value) direction number root t place.length := by
  have hholds := preorder_holdsOnce direction limit root
  have hmem := hholds.mem_iff.2 ⟨place, hplace, hadmits, rfl⟩
  obtain ⟨t', depth', hfinds⟩ := exists_finds_of_mem (p := fun t => p t.value) h hmem hp
  obtain ⟨hmem', hp'⟩ := hfinds.mem h
  obtain ⟨place', hplace', hadmits', rfl⟩ := hholds.mem_iff.1 hmem'
  obtain rfl := hunique place' t' hplace' hadmits' hp'
  rw [hplace] at hplace'
  cases hplace'
  exact hfinds

/-- A search from right to left is the search from left to right in the mirror, also if the visitor
has a state or fails, and whatever the limit is. For a limit that is one, both directions go through
each node within it, and through each once; one of them finds something if the other one does; and
if only one node within the limit matches, both find that node. -/
theorem searchWithin_mirror (number : Number) (root : Tree α) :
    (∀ (visit : α → Nat → EStateM Failure σ Bool) (s : σ),
      searchWithin (noting fun t => visit t.value) .backward number root (s, []) =
        mirrored (searchWithin (noting fun t => visit t.value) .forward number root.mirror
          (s, []))) ∧
    ∀ limit, DepthLimit.Stated number limit →
      (∃ ahead back,
        searchWithin (noting (deciding fun _ _ => false)) .forward number root ((), []) =
          .ok none ((), ahead) ∧
        searchWithin (noting (deciding fun _ _ => false)) .backward number root ((), []) =
          .ok none ((), back) ∧
        ahead.Perm back ∧ HoldsOnce limit root ahead ∧ HoldsOnce limit root back) ∧
      ∀ p : α → Nat → Bool,
        ((∃ t, searchWithin (deciding fun t => p t.value) .forward number root () =
            .ok (some t) ()) ↔
          ∃ t, searchWithin (deciding fun t => p t.value) .backward number root () =
            .ok (some t) ()) ∧
        ∀ place t, root.subtree? place = some t → limit.admits place.length = true →
          p t.value place.length = true →
          (∀ place' t', root.subtree? place' = some t' → limit.admits place'.length = true →
            p t'.value place'.length = true → place' = place) →
          ∀ direction, Finds (fun t => p t.value) direction number root t place.length := by
  constructor
  · intro visit s
    by_cases hstated : ∃ limit, DepthLimit.Stated number limit
    · obtain ⟨limit, hlimit⟩ := hstated
      rw [searchWithin_of_stated hlimit, searchWithin_of_stated hlimit, preorder_backward_eq]
      exact firstAccepted_reflect visit _ s []
    · rw [searchWithin, searchWithin, DepthLimit.ofNumber_of_not_stated hstated]
      rfl
  · intro limit hlimit
    refine ⟨⟨_, _, search_noting_false hlimit .forward root,
      search_noting_false hlimit .backward root, (preorder_perm limit root).symm,
      preorder_holdsOnce _ limit root, preorder_holdsOnce _ limit root⟩, ?_⟩
    intro p
    constructor
    · rw [exists_search_iff hlimit, exists_search_iff hlimit]
    · intro place t hplace hadmits hp hunique
      exact finds_of_unique hlimit hplace hadmits hp hunique

/-- The only three of a tree is found from both sides. -/
theorem only_three_found :
    let root : Tree Nat := .node 0 [.node 1 [.node 3 [], .node 4 []], .node 2 []]
    (∀ place t, root.subtree? place = some t → (t.value == 3) = true → place = [0, 0]) ∧
      ∀ direction, Finds (fun t _ => t.value == 3) direction (Number.ofNat 2) root
        (.node 3 []) 2 := by
  intro root
  have hunique : ∀ place t, root.subtree? place = some t → (t.value == 3) = true →
      place = [0, 0] := by
    intro place t ht hthree
    have hmem := mem_sites_iff.2 ht
    simp only [root, sites, sitesFrom, List.map_cons, List.map_nil, List.cons_append,
      List.nil_append, List.mem_cons, Prod.mk.injEq, List.not_mem_nil, or_false] at hmem
    rcases hmem with ⟨-, rfl⟩ | ⟨-, rfl⟩ | ⟨hplace, -⟩ | ⟨-, rfl⟩ | ⟨-, rfl⟩
    · cases hthree
    · cases hthree
    · exact hplace
    · cases hthree
    · cases hthree
  have hboth := (@searchWithin_mirror Nat Unit (Number.ofNat 2) root).2 _ (.atMost 2)
  exact ⟨hunique, (hboth.2 fun a _ => a == 3).2 [0, 0] _ rfl rfl rfl
    fun place t ht _ hthree => hunique place t ht hthree⟩

end

end TreeInspector.Tree
