import TreeInspector.Proofs.Tree.Outline

/-!
# What a depth limit leaves out

A search with a depth limit goes through fewer nodes, but these are the nodes within the limit in
the order of the whole search. So it does what the search without a limit does with a visitor that
turns down whatever is deeper, and of two limits the larger one finds the same node unless it finds
one that the smaller one does not reach.

A node that is found is named together with its depth. The values of a tree may tell all of its
nodes apart, so that the same node is meant and not only an equal one.
-/

set_option autoImplicit false

namespace TreeInspector

namespace DepthLimit

/-- Nodes at this depth are within the limit. -/
def admits : DepthLimit → Nat → Bool
  | .unbounded, _ => true
  | .atMost limit, depth => depth ≤ limit

/-- The search goes below a node iff the level below is within the limit. -/
theorem exceeds_eq (limit : DepthLimit) (depth : Nat) :
    limit.exceeds depth = limit.admits (depth + 1) := by
  cases limit <;> rfl

/-- What is above a node within the limit is within it too. -/
theorem admits_of_le {limit : DepthLimit} {depth depth' : Nat} (hle : depth ≤ depth')
    (h : limit.admits depth' = true) : limit.admits depth = true := by
  cases limit with
  | unbounded => rfl
  | atMost d =>
    simp only [admits, decide_eq_true_eq] at h ⊢
    omega

/-- The root is within every limit. -/
theorem admits_zero (limit : DepthLimit) : limit.admits 0 = true := by
  cases limit <;> simp [admits]

end DepthLimit

namespace Tree

section

variable {α ε σ : Type} {direction : Direction} {limit : DepthLimit} {depth : Nat}

/-! ## The nodes within a limit -/

/-- The pre-order of a forest of one tree is that of the tree. -/
theorem preorders_singleton (direction : Direction) (limit : DepthLimit) (depth : Nat)
    (t : Tree α) : preorders direction limit depth [t] = preorder direction limit depth t := by
  cases direction <;> simp [preorders]

/-- No node of a forest is above the depth of its roots. -/
theorem le_of_mem_preorders {ts : List (Tree α)} {x : Tree α × Nat}
    (h : x ∈ preorders direction limit depth ts) : depth ≤ x.2 := by
  induction ts using forestInduction generalizing depth with
  | nil => cases h
  | cons a cs ts hcs hts =>
    have hfirst : x ∈ preorder direction limit depth (.node a cs) → depth ≤ x.2 := by
      intro hx
      rw [preorder, List.mem_cons] at hx
      rcases hx with rfl | hx
      · exact Nat.le_refl _
      · split at hx
        · exact Nat.le_of_succ_le (hcs hx)
        · cases hx
    cases direction with
    | forward => exact (List.mem_append.1 h).elim hfirst hts
    | backward => exact (List.mem_append.1 h).elim hts hfirst

/-- Down to a limit there is what the whole list has within the limit, in the same order. -/
theorem preorders_eq_filter (direction : Direction) (hdepth : limit.admits depth = true)
    (ts : List (Tree α)) :
    preorders direction limit depth ts =
      (preorders direction .unbounded depth ts).filter fun x => limit.admits x.2 := by
  induction ts using forestInduction generalizing depth with
  | nil => rfl
  | cons a cs ts hcs hts =>
    have hbelow : (if limit.exceeds depth = true then
          preorders direction limit (depth + 1) cs else []) =
        (preorders direction .unbounded (depth + 1) cs).filter fun x => limit.admits x.2 := by
      rw [limit.exceeds_eq]
      by_cases hdeep : limit.admits (depth + 1) = true
      · rw [if_pos hdeep, hcs hdeep]
      · -- Everything below the children is deeper still.
        rw [if_neg hdeep, eq_comm, List.filter_eq_nil_iff]
        intro x hx hadmits
        exact hdeep (DepthLimit.admits_of_le (le_of_mem_preorders hx) hadmits)
    have hfirst : preorder direction limit depth (.node a cs) =
        (preorder direction .unbounded depth (.node a cs)).filter fun x => limit.admits x.2 := by
      rw [preorder, preorder, hbelow, List.filter_cons, if_pos hdepth]
      rfl
    cases direction with
    | forward => rw [preorders, preorders, List.filter_append, hfirst, hts hdepth]
    | backward => rw [preorders, preorders, List.filter_append, hfirst, hts hdepth]

/-- The pre-order up to a limit is what the limit admits of the whole pre-order. -/
theorem preorder_eq_filter (direction : Direction) (limit : DepthLimit) (t : Tree α) :
    preorder direction limit 0 t =
      (preorder direction .unbounded 0 t).filter fun x => limit.admits x.2 := by
  rw [← preorders_singleton, ← preorders_singleton, preorders_eq_filter _ limit.admits_zero]

/-! ## Visitors that turn down what is deeper -/

/-- The visitor that turns down the nodes beyond a limit without a further look at them. -/
def within (limit : DepthLimit) (visit : Tree α → Nat → EStateM ε σ Bool) (t : Tree α)
    (depth : Nat) : EStateM ε σ Bool :=
  if limit.admits depth then visit t depth else return false

/-- Leaving out what is beyond a limit has the effect of turning it down. -/
theorem firstAccepted_filter (limit : DepthLimit) (visit : Tree α → Nat → EStateM ε σ Bool)
    (xs : List (Tree α × Nat)) :
    firstAccepted visit (xs.filter fun x => limit.admits x.2) =
      firstAccepted (within limit visit) xs := by
  funext s
  induction xs generalizing s with
  | nil => rfl
  | cons x xs ih =>
    obtain ⟨t, depth⟩ := x
    rw [firstAccepted_cons, within]
    by_cases hdepth : limit.admits depth = true
    · rw [List.filter_cons, if_pos hdepth, firstAccepted_cons, if_pos hdepth]
      cases visit t depth s with
      | error e s' => rfl
      | ok accepted s' =>
        cases accepted with
        | true => rfl
        | false => exact ih s'
    · rw [List.filter_cons, if_neg hdepth, if_neg hdepth]
      exact ih s

/-- A search with a stated limit hands the pre-order up to that limit to the visitor. -/
theorem searchWithin_of_stated {number : Number} (h : DepthLimit.Stated number limit)
    (visit : Tree α → Nat → EStateM Failure σ Bool) (direction : Direction) (root : Tree α) :
    searchWithin visit direction number root =
      firstAccepted visit (preorder direction limit 0 root) := by
  simp only [searchWithin, DepthLimit.ofNumber_of_stated h, search_eq_firstAccepted]

/-- A limit does what a visitor does that turns down whatever is beyond it, also if visits change
the visitor's state or fail. -/
theorem searchWithin_eq_within {number : Number} (h : DepthLimit.Stated number limit)
    (visit : Tree α → Nat → EStateM Failure σ Bool) (direction : Direction) (root : Tree α) :
    searchWithin visit direction number root =
      searchWithin (within limit visit) direction Number.infinity root := by
  rw [searchWithin_of_stated h, searchWithin_of_stated .unbounded, preorder_eq_filter,
    firstAccepted_filter]

/-! ## Searches for what a predicate holds of -/

/-- The visitor that decides by a predicate and does nothing else. -/
def deciding (p : Tree α → Nat → Bool) (t : Tree α) (depth : Nat) : EStateM ε σ Bool :=
  return p t depth

/-- Turning down what is beyond a limit amounts to a further condition on the depth. -/
theorem within_deciding (limit : DepthLimit) (p : Tree α → Nat → Bool) :
    within limit (deciding p : Tree α → Nat → EStateM ε σ Bool) =
      deciding fun t depth => limit.admits depth && p t depth := by
  funext t depth
  rw [within, deciding, deciding]
  cases limit.admits depth <;> rfl

/-- The search finds a node at a depth: it returns the node, and the last thing that the predicate
is asked about is the node at that depth. -/
structure Finds (p : Tree α → Nat → Bool) (direction : Direction) (number : Number)
    (root t : Tree α) (depth : Nat) : Prop where
  returns : searchWithin (deciding p) direction number root () = .ok (some t) ()
  last : ∃ before, searchWithin (noting (deciding p)) direction number root ((), []) =
    .ok (some t) ((), before ++ [(t, depth)])

/-- A visitor that only decides finds the first entry for which it says yes. -/
theorem firstAccepted_deciding (p : Tree α → Nat → Bool) (xs : List (Tree α × Nat)) (s : σ) :
    (firstAccepted (deciding p) xs s : EStateM.Result ε σ _) =
      .ok ((xs.find? fun x => p x.1 x.2).map (·.1)) s := by
  induction xs with
  | nil => rfl
  | cons x xs ih =>
    obtain ⟨t, depth⟩ := x
    rw [firstAccepted_cons, deciding, List.find?_cons]
    cases p t depth with
    | true => rfl
    | false => exact ih

/-- A predicate is asked about everything up to the first thing that it holds of. -/
theorem handed_deciding (p : Tree α → Nat → Bool) (xs : List (Tree α × Nat)) (s : σ) :
    match xs.find? fun x => p x.1 x.2 with
    | some x => ∃ before,
      handed (deciding p : Tree α → Nat → EStateM Failure σ Bool) xs s = before ++ [x]
    | none => handed (deciding p : Tree α → Nat → EStateM Failure σ Bool) xs s = xs := by
  induction xs with
  | nil => rfl
  | cons x xs ih =>
    obtain ⟨t, depth⟩ := x
    rw [List.find?_cons, handed, deciding]
    cases p t depth with
    | true => exact ⟨[], rfl⟩
    | false =>
      simp only
      cases hfind : xs.find? fun x => p x.1 x.2 with
      | none =>
        rw [hfind] at ih
        exact congrArg _ ih
      | some y =>
        rw [hfind] at ih
        obtain ⟨before, hbefore⟩ := ih
        exact ⟨(t, depth) :: before, congrArg _ hbefore⟩

section

variable {number : Number} {p : Tree α → Nat → Bool} {root t : Tree α}

/-- A search by a predicate finds the first node of the pre-order for which it holds. -/
theorem search_deciding (h : DepthLimit.Stated number limit) (p : Tree α → Nat → Bool)
    (direction : Direction) (root : Tree α) (s : σ) :
    searchWithin (deciding p) direction number root s =
      .ok (((preorder direction limit 0 root).find? fun x => p x.1 x.2).map (·.1)) s := by
  rw [searchWithin_of_stated h, firstAccepted_deciding]

/-- The node found, with its depth, is the first one of the pre-order for which the predicate holds.
-/
theorem finds_iff (h : DepthLimit.Stated number limit) :
    Finds p direction number root t depth ↔
      (preorder direction limit 0 root).find? (fun x => p x.1 x.2) = some (t, depth) := by
  have hhanded := handed_deciding p (preorder direction limit 0 root) ()
  have hnoting := firstAccepted_noting (deciding p : Tree α → Nat → EStateM Failure Unit Bool)
    (preorder direction limit 0 root) () []
  rw [firstAccepted_deciding, List.nil_append] at hnoting
  constructor
  · rintro ⟨hreturns, before, hlast⟩
    rw [searchWithin_of_stated h, hnoting] at hlast
    rw [search_deciding h] at hreturns
    cases hfind : (preorder direction limit 0 root).find? fun x => p x.1 x.2 with
    | none =>
      rw [hfind] at hreturns
      cases hreturns
    | some x =>
      rw [hfind] at hhanded hlast
      obtain ⟨before', hbefore⟩ := hhanded
      simp only [EStateM.Result.ok.injEq, Prod.mk.injEq, true_and] at hlast
      have hsame := hbefore.symm.trans hlast.2
      simpa using (List.append_inj' hsame rfl).2
  · intro hfind
    rw [hfind] at hhanded hnoting
    obtain ⟨before, hbefore⟩ := hhanded
    refine ⟨?_, before, ?_⟩
    · rw [search_deciding h, hfind]
      rfl
    · rw [searchWithin_of_stated h, hnoting, hbefore]
      rfl

/-- Whatever a search returns, it finds at some depth. -/
theorem exists_finds_of_returns (h : DepthLimit.Stated number limit)
    (hreturns : searchWithin (deciding p) direction number root () = .ok (some t) ()) :
    ∃ depth, Finds p direction number root t depth := by
  rw [search_deciding h] at hreturns
  simp only [EStateM.Result.ok.injEq, and_true] at hreturns
  obtain ⟨⟨t', depth⟩, hfind, rfl⟩ := Option.map_eq_some_iff.1 hreturns
  exact ⟨depth, (finds_iff h).2 hfind⟩

/-- What is found is within the limit, and the predicate holds of it. -/
theorem Finds.mem (h : DepthLimit.Stated number limit)
    (hfinds : Finds p direction number root t depth) :
    (t, depth) ∈ preorder direction limit 0 root ∧ p t depth = true := by
  have hfind := (finds_iff h).1 hfinds
  exact ⟨List.mem_of_find?_eq_some hfind, by simpa using List.find?_some hfind⟩

/-- If the predicate holds of something within the limit, the search finds something. -/
theorem exists_finds_of_mem (h : DepthLimit.Stated number limit)
    (hmem : (t, depth) ∈ preorder direction limit 0 root) (hp : p t depth = true) :
    ∃ t' depth', Finds p direction number root t' depth' := by
  have hsome : ((preorder direction limit 0 root).find? fun x => p x.1 x.2).isSome := by
    rw [List.find?_isSome]
    exact ⟨(t, depth), hmem, hp⟩
  obtain ⟨⟨t', depth'⟩, hfind⟩ := Option.isSome_iff_exists.1 hsome
  exact ⟨t', depth', (finds_iff h).2 hfind⟩

end

/-! ## Two limits -/

/-- The nodes within a limit, as a part of those within a larger one. -/
theorem preorder_atMost {number : Number} (h : DepthLimit.Stated number limit) {d : Nat}
    (hle : (d : Number) ≤ number) (direction : Direction) (root : Tree α) :
    preorder direction (.atMost d) 0 root =
      (preorder direction limit 0 root).filter fun x => decide (x.2 ≤ d) := by
  rw [preorder_eq_filter, preorder_eq_filter direction limit, List.filter_filter]
  refine List.filter_congr fun x _ => ?_
  cases h with
  | unbounded => simp [DepthLimit.admits]
  | atMost e =>
    have hle : d ≤ e := Number.natCast_le_natCast.1 hle
    simp only [DepthLimit.admits]
    rw [← Bool.decide_and, decide_eq_decide]
    omega

/-- Pruning loses no match. With a limit the search returns what the search without one returns for
the predicate that also asks for the depth. So what is found within a limit is found, or something
before it, within every larger limit, and what is found within the larger limit is found within the
smaller one if it is no deeper than that. -/
theorem searchWithin_prunes (p : Tree α → Nat → Bool) (direction : Direction) (d : Nat)
    (root : Tree α) :
    (∀ s : σ, searchWithin (deciding p) direction (d : Number) root s =
      searchWithin (deciding fun t depth => decide (depth ≤ d) && p t depth) direction
        Number.infinity root s) ∧
    ∀ number limit, DepthLimit.Stated number limit → (d : Number) ≤ number →
      (∀ t, searchWithin (deciding p) direction (d : Number) root () = .ok (some t) () →
        ∃ t' depth', Finds p direction number root t' depth') ∧
      ∀ t depth, Finds p direction number root t depth → depth ≤ d →
        Finds p direction (d : Number) root t depth := by
  constructor
  · intro s
    rw [searchWithin_eq_within (.atMost d), within_deciding]
    rfl
  · intro number limit hlimit hle
    have hprune := preorder_atMost hlimit hle direction root
    constructor
    · intro t hreturns
      obtain ⟨depth, hfinds⟩ := exists_finds_of_returns (.atMost d) hreturns
      obtain ⟨hmem, hp⟩ := hfinds.mem (.atMost d)
      rw [hprune, List.mem_filter] at hmem
      exact exists_finds_of_mem hlimit hmem.1 hp
    · intro t depth hfinds hdepth
      rw [finds_iff hlimit, List.find?_eq_some_iff_append] at hfinds
      obtain ⟨hp, before, after, hsplit, hbefore⟩ := hfinds
      rw [finds_iff (.atMost d), hprune, hsplit, List.filter_append, List.filter_cons_of_pos
        (by simpa using hdepth), List.find?_eq_some_iff_append]
      refine ⟨hp, _, _, rfl, ?_⟩
      intro x hx
      exact hbefore x (List.mem_filter.1 hx).1

/-- From left to right a two stands one level deep behind one that stands deeper: a limit of one
finds the former, a limit of two something, too. From right to left it comes first, with a limit and
without. -/
theorem two_found_within_one :
    let p : Tree Nat → Nat → Bool := fun t _ => t.value == 2
    let root : Tree Nat := .node 0 [.node 1 [.node 2 [.node 3 []]], .node 2 []]
    searchWithin (deciding p) .forward (Number.ofNat 1) root () = .ok (some (.node 2 [])) () ∧
      (∃ t depth, Finds p .forward (Number.ofNat 2) root t depth) ∧
      Finds p .backward Number.infinity root (.node 2 []) 1 ∧
      Finds p .backward (Number.ofNat 1) root (.node 2 []) 1 := by
  intro p root
  have hreturns : searchWithin (deciding p) .forward (Number.ofNat 1) root () =
      .ok (some (.node 2 [])) () := search_deciding (.atMost 1) p .forward root ()
  have hfinds : Finds p .backward Number.infinity root (.node 2 []) 1 :=
    (finds_iff .unbounded).2 rfl
  have hlarger : (Number.ofNat 1) ≤ Number.ofNat 2 := Number.natCast_le_natCast.2 (by decide)
  have hforward := (@searchWithin_prunes Nat Unit p .forward 1 root).2 _ _ (.atMost 2) hlarger
  have hbackward := (@searchWithin_prunes Nat Unit p .backward 1 root).2 _ _ .unbounded rfl
  exact ⟨hreturns, hforward.1 _ hreturns, hfinds, hbackward.2 _ _ hfinds (Nat.le_refl 1)⟩

end

end Tree

end TreeInspector
