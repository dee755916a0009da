import TreeInspector.Proofs.Tree.Nesting

/-!
# Indents tell parents

The lines of a view give the tree by their indents alone. Looking upwards from a line, the first
one that is indented less shows the parent of its node; looking downwards, the lines that are
indented more, up to the first that is not, show the nodes below it. Both are read off one split of
the list of places: the nodes of a subtree stand together, with the subtree's root in front, and
what comes behind them is no deeper than that root.
-/

set_option autoImplicit false

namespace TreeInspector

namespace ViewLine

/-- Looking upwards through the first so many lines, the index of the first line that is indented
less. -/
def scanUp (lines : List ViewLine) (indent : Nat) : Nat → Option Nat
  | 0 => none
  | i + 1 =>
    if lines[i]?.any fun line => decide (line.indent < indent) then some i
    else scanUp lines indent i

/-- The lines right below the given one that are indented more, up to the first that is not. -/
def deeperBelow (lines : List ViewLine) (indent i : Nat) : List ViewLine :=
  (lines.drop (i + 1)).takeWhile fun line => decide (indent < line.indent)

/-- The scan ends at a line that is indented less when the lines between are not. -/
theorem scanUp_eq_some {lines : List ViewLine} {above : ViewLine} {indent i j : Nat} (hji : j < i)
    (hline : lines[j]? = some above) (hless : above.indent < indent)
    (hbetween : ∀ k line, j < k → k < i → lines[k]? = some line → indent ≤ line.indent) :
    scanUp lines indent i = some j := by
  induction i with
  | zero => exact absurd hji (Nat.not_lt_zero j)
  | succ i ih =>
    rw [scanUp]
    rcases Nat.lt_succ_iff_lt_or_eq.1 hji with hlt | rfl
    · have hpast : ¬(lines[i]?.any fun line => decide (line.indent < indent)) = true := by
        rw [Option.any_eq_true]
        rintro ⟨line, hi, hindent⟩
        have hdeep := hbetween i line hlt (Nat.lt_succ_self i) hi
        exact absurd (of_decide_eq_true hindent) (Nat.not_lt.2 hdeep)
      rw [if_neg hpast]
      exact ih hlt fun k line hjk hki => hbetween k line hjk (hki.trans (Nat.lt_succ_self i))
    · have hhere : (lines[j]?.any fun line => decide (line.indent < indent)) = true := by
        rw [hline, Option.any_some, decide_eq_true hless]
      rw [if_pos hhere]

end ViewLine

/-! ## The nodes of a subtree stand together -/

namespace Tree

section

variable {α : Type}

/-- A part of the list of nodes: what comes before a subtree, the subtree below its place, and what
comes behind it, which is no deeper than the subtree's root. -/
structure SplitAt (listed : List (List Nat × Tree α)) (place : List Nat) (s : Tree α)
    (before after : List (List Nat × Tree α)) : Prop where
  parts : listed = before ++ (s.sites.map (fun x => (place ++ x.1, x.2)) ++ after)
  behind : ∀ x ∈ after.head?, x.1.length ≤ place.length

/-- The nodes of a list of trees are those before a tree, those of the tree, and those after it,
which come back up. -/
theorem exists_sitesFrom_split (first k : Nat) (ts : List (Tree α)) (t : Tree α)
    (ht : ts[k]? = some t) :
    ∃ before after,
      sitesFrom first ts =
          before ++ (t.sites.map (fun x => ((first + k) :: x.1, x.2)) ++ after) ∧
        ∀ x ∈ after.head?, x.1.length ≤ 1 := by
  induction ts generalizing first k with
  | nil => cases ht
  | cons u ts ih =>
    cases k with
    | zero =>
      cases ht
      refine ⟨[], sitesFrom (first + 1) ts, rfl, ?_⟩
      -- What stands behind is the next tree's root, or nothing.
      cases ts with
      | nil => simp [sitesFrom]
      | cons v ts =>
        cases v with
        | node a cs => simp [sitesFrom_cons_node]
    | succ k =>
      obtain ⟨before, after, hparts, hbehind⟩ := ih (first + 1) k ht
      refine ⟨u.sites.map (fun x => (first :: x.1, x.2)) ++ before, after, ?_, hbehind⟩
      rw [sitesFrom, hparts, Nat.add_assoc, Nat.add_comm 1 k, List.append_assoc]

/-- The nodes of a tree are split at each of its places. -/
theorem exists_splitAt {t s : Tree α} {place : List Nat} (hs : t.subtree? place = some s) :
    ∃ before after, SplitAt t.sites place s before after := by
  induction place generalizing t with
  | nil =>
    cases hs
    exact ⟨[], [], by simp, by simp⟩
  | cons k place ih =>
    obtain ⟨c, hc, hbelow⟩ := subtree?_cons_eq_some_iff.1 hs
    obtain ⟨inner, inner', hinner⟩ := ih hbelow
    obtain ⟨outer, outer', houter, hbehind⟩ := exists_sitesFrom_split 0 k t.children c hc
    let moved : List Nat × Tree α → List Nat × Tree α := fun x => (k :: x.1, x.2)
    refine ⟨([], t) :: (outer ++ inner.map moved), inner'.map moved ++ outer', ?_, ?_⟩
    · rw [sites_eq, houter, hinner.parts]
      simp [moved, List.map_map, Function.comp_def]
    · intro x hx
      rw [List.head?_append, List.head?_map, Option.mem_def, Option.or_eq_some_iff] at hx
      rw [List.length_cons]
      rcases hx with hx | ⟨-, hx⟩
      · obtain ⟨y, hy, rfl⟩ := Option.map_eq_some_iff.1 hx
        exact Nat.succ_le_succ (hinner.behind y hy)
      · exact (hbehind x hx).trans (Nat.succ_le_succ (Nat.zero_le _))

variable {t s : Tree α} {place : List Nat} {before after : List (List Nat × Tree α)} {i : Nat}

/-- The subtree's root is the first of its nodes. -/
theorem SplitAt.index (h : SplitAt t.sites place s before after)
    (hi : t.sites[i]? = some (place, s)) : i = before.length := by
  have hroot : t.sites[before.length]? = some (place, s) := by
    rw [h.parts, List.getElem?_append_right (Nat.le_refl _), Nat.sub_self, sites_eq]
    simp
  exact site_injective hi hroot

/-- The node at an index behind the subtree's root, as far as the subtree goes. -/
theorem SplitAt.getElem? (h : SplitAt t.sites place s before after) {n : Nat}
    (hn : n < s.sites.length) :
    t.sites[before.length + n]? = s.sites[n]?.map fun x => (place ++ x.1, x.2) := by
  rw [h.parts, List.getElem?_append_right (Nat.le_add_right _ _), Nat.add_sub_cancel_left,
    List.getElem?_append_left (by rwa [List.length_map]), List.getElem?_map]

/-- The nodes whose places begin with that of a node are its subtree's, side by side from the node
on. -/
theorem SplitAt.below_iff (h : SplitAt t.sites place s before after) {j : Nat} :
    (∃ below u, t.sites[j]? = some (place ++ below, u)) ↔
      before.length ≤ j ∧ j < before.length + s.sites.length := by
  constructor
  · rintro ⟨below, u, hj⟩
    -- The node is listed among the subtree's, and its place is at one spot only.
    have hs : t.subtree? place = some s := by
      refine mem_sites_iff.1 ?_
      rw [h.parts, sites_eq]
      simp
    have hu := subtree?_of_site hj
    rw [subtree?_append, hs, Option.bind_some] at hu
    obtain ⟨n, hn⟩ := List.mem_iff_getElem?.1 (mem_sites_iff.2 hu)
    obtain ⟨hlt, -⟩ := List.getElem?_eq_some_iff.1 hn
    have hspot := h.getElem? hlt
    rw [hn, Option.map_some] at hspot
    have := site_injective hj hspot
    omega
  · rintro ⟨hle, hlt⟩
    obtain ⟨n, rfl⟩ := Nat.exists_eq_add_of_le hle
    have hn : n < s.sites.length := by omega
    refine ⟨s.sites[n].1, s.sites[n].2, ?_⟩
    rw [h.getElem? hn, List.getElem?_eq_getElem hn, Option.map_some]

/-- Behind its root, a subtree's nodes are deeper than the root is. -/
theorem SplitAt.deeper (h : SplitAt t.sites place s before after) {n : Nat} (hpos : 0 < n)
    (hn : n < s.sites.length) :
    ∀ x, t.sites[before.length + n]? = some x → place.length < x.1.length := by
  intro x hx
  rw [h.getElem? hn] at hx
  obtain ⟨⟨below, u⟩, hbelow, rfl⟩ := Option.map_eq_some_iff.1 hx
  have hne : below ≠ [] := by
    rintro rfl
    have hroot : s.sites[0]? = some ([], s) := by rw [sites_eq, List.getElem?_cons_zero]
    exact absurd (site_injective hroot hbelow) (Nat.ne_of_lt hpos)
  have hsome := List.length_pos_iff.2 hne
  show place.length < (place ++ below).length
  rw [List.length_append]
  exact Nat.lt_add_of_pos_right hsome

/-- The nodes behind the root that are deeper than it, up to the first that is not, are those below
the root. -/
theorem SplitAt.takeWhile_deeper (h : SplitAt t.sites place s before after) :
    ((t.sites.drop (before.length + 1)).takeWhile fun x =>
        decide (place.length < x.1.length)).length + 1 = s.sites.length := by
  have hrest : t.sites.drop (before.length + 1) =
      (sitesFrom 0 s.children).map (fun x => (place ++ x.1, x.2)) ++ after := by
    rw [h.parts, List.drop_append, sites_eq]
    simp
  have hdeep : ∀ x ∈ (sitesFrom 0 s.children).map (fun x => (place ++ x.1, x.2)),
      decide (place.length < x.1.length) = true := by
    intro x hx
    obtain ⟨⟨below, u⟩, hmem, rfl⟩ := List.mem_map.1 hx
    obtain ⟨k, rest, c, rfl, -, -⟩ := (mem_sitesFrom_iff _ _ _ _).1 hmem
    rw [decide_eq_true_eq, List.length_append, List.length_cons]
    omega
  have hend : after.takeWhile (fun x => decide (place.length < x.1.length)) = [] := by
    cases hafter : after with
    | nil => rfl
    | cons x rest =>
      have hle : x.1.length ≤ place.length := h.behind x (by rw [hafter, List.head?_cons]; rfl)
      rw [List.takeWhile_cons_of_neg (by simpa using hle)]
  rw [hrest, List.takeWhile_append_of_pos hdeep, hend, List.append_nil, List.length_map, sites_eq,
    List.length_cons]

end

end Tree

/-! ## Parents and subtrees by indents -/

namespace ParseTree

variable {navigation : Bool} {t s : ParseTree} {place : List Nat} {i : Nat}

/-- Only the root's place is without a parent, and the root comes first. -/
theorem exists_parent_of_pos (hpos : 0 < i) (hi : (Tree.sites t)[i]? = some (place, s)) :
    ∃ parent k p, place = parent ++ [k] ∧ Tree.subtree? t parent = some p ∧
      p.children[k]? = some s := by
  have hne : place ≠ [] := by
    rintro rfl
    have hroot : (Tree.sites t)[0]? = some ([], t) := by
      rw [Tree.sites_eq, List.getElem?_cons_zero]
    exact absurd (Tree.site_injective hroot hi) (Nat.ne_of_lt hpos)
  obtain ⟨parent, k, rfl⟩ := List.eq_nil_or_concat' place |>.resolve_left hne
  have hs := Tree.subtree?_of_site hi
  rw [Tree.subtree?_append, Option.bind_eq_some_iff] at hs
  obtain ⟨p, hp, hchild⟩ := hs
  obtain ⟨c, hc, hself⟩ := Tree.subtree?_cons_eq_some_iff.1 hchild
  cases hself
  exact ⟨parent, k, p, rfl, hp, hc⟩

/-- Scanning upwards for a smaller indent leads to the line of the parent. -/
theorem scanUp_finds_parent {parent : List Nat} {p : ParseTree} {k : Nat}
    (hp : Tree.subtree? t parent = some p) (hi : (Tree.sites t)[i]? = some (parent ++ [k], s)) :
    ∃ j, (Tree.sites t)[j]? = some (parent, p) ∧
      ViewLine.scanUp (t.render navigation) (parent ++ [k]).length i = some j := by
  obtain ⟨before, after, hsplit⟩ := Tree.exists_splitAt hp
  obtain ⟨j, hj⟩ := List.mem_iff_getElem?.1 (Tree.mem_sites_iff.2 hp)
  obtain rfl := hsplit.index hj
  obtain ⟨hle, hlt⟩ := hsplit.below_iff.1 ⟨[k], s, hi⟩
  refine ⟨_, hj, ?_⟩
  have hbelow : before.length < i := by
    refine Nat.lt_of_le_of_ne hle ?_
    rintro rfl
    rw [hj] at hi
    simp at hi
  have habove : (t.render navigation)[before.length]? =
      some (.ofNode navigation p.value parent.length) := by
    rw [getElem?_render, hj, Option.map_some]
  refine ViewLine.scanUp_eq_some hbelow habove ?_ ?_
  · rw [List.length_append]
    exact Nat.lt_succ_self _
  · intro m line hm hmi hline
    rw [getElem?_render] at hline
    obtain ⟨x, hx, rfl⟩ := Option.map_eq_some_iff.1 hline
    obtain ⟨n, rfl⟩ := Nat.exists_eq_add_of_le hm.le
    have hdeep := hsplit.deeper (n := n) (by omega) (by omega) x hx
    rw [List.length_append]
    exact hdeep

/-- The lines of the nodes below a node are the run of deeper ones that follows its own line. -/
theorem deeperBelow_is_subtree (hi : (Tree.sites t)[i]? = some (place, s)) (j : Nat) :
    (∃ below u, (Tree.sites t)[j]? = some (place ++ below, u)) ↔
      i ≤ j ∧ j ≤ i + (ViewLine.deeperBelow (t.render navigation) place.length i).length := by
  obtain ⟨before, after, hsplit⟩ := Tree.exists_splitAt (Tree.subtree?_of_site hi)
  obtain rfl := hsplit.index hi
  have hlength : (ViewLine.deeperBelow (t.render navigation) place.length before.length).length + 1 =
      s.sites.length := by
    have hlines : t.render navigation =
        (Tree.sites t).map fun x => ViewLine.ofNode navigation x.2.value x.1.length := by
      rw [render_eq, ← Tree.sites_map_value, List.map_map]
      rfl
    rw [← hsplit.takeWhile_deeper, ViewLine.deeperBelow, hlines, ← List.map_drop,
      List.takeWhile_map, List.length_map]
    rfl
  rw [hsplit.below_iff, ← hlength]
  omega

/-- Each line shows a node, by its label and with its depth for an indent. Above every line but the
first there is one that is indented less, and the nearest such is indented by one level less and
shows the parent. The lines of the nodes in a line's subtree are the line itself and the lines
indented more that follow it without a gap. -/
theorem indents_tell_parents (navigation : Bool) (t : ParseTree) (i : Nat) (line : ViewLine)
    (hline : (t.render navigation)[i]? = some line) :
    ∃ place s, (Tree.sites t)[i]? = some (place, s) ∧
      line = .ofNode navigation s.value place.length ∧
      (0 < i → ∃ j above parent k p,
        ViewLine.scanUp (t.render navigation) line.indent i = some j ∧
        (t.render navigation)[j]? = some above ∧ above.indent + 1 = line.indent ∧
        (Tree.sites t)[j]? = some (parent, p) ∧ place = parent ++ [k] ∧
        p.children[k]? = some s) ∧
      ∀ j, (∃ below u, (Tree.sites t)[j]? = some (place ++ below, u)) ↔
        i ≤ j ∧ j ≤ i + (ViewLine.deeperBelow (t.render navigation) line.indent i).length := by
  have hshown := hline
  rw [getElem?_render] at hshown
  obtain ⟨⟨place, s⟩, hi, rfl⟩ := Option.map_eq_some_iff.1 hshown
  refine ⟨place, s, hi, rfl, ?_, deeperBelow_is_subtree hi⟩
  intro hpos
  obtain ⟨parent, k, p, rfl, hp, hchild⟩ := exists_parent_of_pos hpos hi
  obtain ⟨j, hj, hscan⟩ := scanUp_finds_parent hp hi
  refine ⟨j, .ofNode navigation p.value parent.length, parent, k, p, hscan, ?_, ?_, hj, rfl, hchild⟩
  · rw [getElem?_render, hj, Option.map_some]
  · show parent.length + 1 = (parent ++ [k]).length
    rw [List.length_append, List.length_singleton]

/-- A sum whose first number is in brackets. -/
def bracketedSum : ParseTree :=
  .node ⟨"Sum", .between 0 5⟩ [
    .node ⟨"Group", .between 0 3⟩ [.node ⟨"Num", .between 1 2⟩ []],
    .node ⟨"Num", .between 4 5⟩ []]

/-- The second number's line is right below one that is indented more, and its parent is two lines
further up. -/
theorem bracketedSum_second_number :
    (bracketedSum.render false)[3]? = some ⟨⟨"Num", none⟩, 1⟩ ∧
      ∃ place s, (Tree.sites bracketedSum)[3]? = some (place, s) ∧
        ∃ j parent k p, ViewLine.scanUp (bracketedSum.render false) 1 3 = some j ∧
          (Tree.sites bracketedSum)[j]? = some (parent, p) ∧ place = parent ++ [k] ∧
          p.children[k]? = some s := by
  have hline : (bracketedSum.render false)[3]? = some ⟨⟨"Num", none⟩, 1⟩ := by
    rw [getElem?_render]
    rfl
  obtain ⟨place, s, hsite, -, hparent, -⟩ := indents_tell_parents false bracketedSum 3 _ hline
  obtain ⟨j, -, parent, k, p, hscan, -, -, hj, hplace, hchild⟩ := hparent (Nat.succ_pos 2)
  exact ⟨hline, place, s, hsite, j, parent, k, p, hscan, hj, hplace, hchild⟩

end ParseTree

end TreeInspector
