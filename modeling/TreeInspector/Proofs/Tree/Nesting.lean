import TreeInspector.Proofs.Number
import TreeInspector.Proofs.Tree.Outline

/-!
# Places in a tree and nested spans

A node is found from the root by its place, which says which child to take at each level; its
ancestors have the places that its own begins with. `sites` lists the nodes with their places in
the order of the outline. In a tree whose spans are well nested, the nodes that cover an offset are
the ancestors of one of them, and that one comes last in the outline.
-/

set_option autoImplicit false

namespace TreeInspector

namespace Span

/-- The span lies inside another one. -/
def Within (inner outer : Span) : Prop := outer.start ≤ inner.start ∧ inner.stop ≤ outer.stop

/-- The span ends before another one starts. -/
def Before (first second : Span) : Prop := first.stop ≤ second.start

variable {s u : Span} {offset : Number}

/-- A span covers an offset iff the offset is at or after its start and before its end. -/
theorem contains_iff : s.contains offset = true ↔ s.start ≤ offset ∧ offset < s.stop := by
  simp [contains]

/-- What a span covers, the spans around it cover as well. -/
theorem Within.contains (h : s.Within u) (hs : s.contains offset = true) :
    u.contains offset = true := by
  rw [contains_iff] at hs ⊢
  exact ⟨Number.le_trans h.1 hs.1, Number.lt_of_lt_of_le hs.2 h.2⟩

/-- A span that covers anything is bounded by numbers that can be compared. -/
theorem Within.refl_of_contains (hs : s.contains offset = true) : s.Within s := by
  obtain ⟨hstart, hstop⟩ := contains_iff.1 hs
  have hbounds : s.start < s.stop := Number.lt_of_le_of_lt hstart hstop
  exact Number.le_self_of_lt hbounds

/-- Lying inside is transitive. -/
theorem Within.trans {v : Span} (hsu : s.Within u) (huv : u.Within v) : s.Within v :=
  ⟨Number.le_trans huv.1 hsu.1, Number.le_trans hsu.2 huv.2⟩

/-- No offset lies in a span and in one that starts after its end. -/
theorem Before.not_contains (h : s.Before u) (hs : s.contains offset = true) :
    ¬u.contains offset = true := by
  rw [contains_iff] at hs ⊢
  rintro ⟨hstart, -⟩
  exact Number.not_lt_of_le (Number.le_trans h hstart) hs.2

end Span

namespace Tree

section

variable {α β : Type}

/-! ## Places -/

/-- The subtree at a place, which says which child to take at each level. -/
def subtree? (t : Tree α) : List Nat → Option (Tree α)
  | [] => some t
  | i :: place => t.children[i]?.bind fun c => c.subtree? place

/-- A place leads through the child that it names first. -/
theorem subtree?_cons_eq_some_iff {t s : Tree α} {i : Nat} {place : List Nat} :
    t.subtree? (i :: place) = some s ↔
      ∃ c, t.children[i]? = some c ∧ c.subtree? place = some s := by
  rw [subtree?, Option.bind_eq_some_iff]

/-- One follows the two halves of a place one after the other. -/
theorem subtree?_append (t : Tree α) (p q : List Nat) :
    t.subtree? (p ++ q) = (t.subtree? p).bind fun s => s.subtree? q := by
  induction p generalizing t with
  | nil => rfl
  | cons i p ih =>
    rw [List.cons_append, subtree?, subtree?, Option.bind_assoc]
    congr 1
    funext c
    exact ih c

mutual

/-- The nodes of a tree with their places, in pre-order. -/
def sites : Tree α → List (List Nat × Tree α)
  | .node a cs => ([], .node a cs) :: sitesFrom 0 cs

/-- The nodes of several trees with their places below a common parent, of which the trees are the
children from the given one on. -/
def sitesFrom (first : Nat) : List (Tree α) → List (List Nat × Tree α)
  | [] => []
  | t :: ts => (sites t).map (fun x => (first :: x.1, x.2)) ++ sitesFrom (first + 1) ts

end

/-- The root comes first, then the nodes below its children. -/
theorem sites_eq (t : Tree α) : t.sites = ([], t) :: sitesFrom 0 t.children := by
  cases t with
  | node a cs => rw [sites, children]

/-- Of several trees, the root of the first one is listed first, then what is below it, then the
other trees. -/
theorem sitesFrom_cons_node (first : Nat) (a : α) (cs ts : List (Tree α)) :
    sitesFrom first (.node a cs :: ts) =
      ([first], .node a cs) ::
        ((sitesFrom 0 cs).map (fun x => (first :: x.1, x.2)) ++ sitesFrom (first + 1) ts) := by
  rw [sitesFrom, sites, List.map_cons, List.cons_append]

/-- In a forest below a common parent, places have the lengths that the depths call for. -/
theorem preorders_eq_sitesFrom (first depth : Nat) (ts : List (Tree α)) :
    preorders .forward .unbounded (depth + 1) ts =
      (sitesFrom first ts).map fun x => (x.2, depth + x.1.length) := by
  induction ts using forestInduction generalizing first depth with
  | nil => rfl
  | cons a cs ts hcs hts =>
    rw [sitesFrom_cons_node, preorders, preorder, DepthLimit.exceeds, if_pos rfl,
      hcs 0 (depth + 1), hts (first + 1) depth, List.map_cons, List.map_append, List.map_map]
    simp [Function.comp_def, Nat.add_assoc, Nat.add_comm 1]

/-- The depth of a node is the length of its place. -/
theorem preorder_eq_sites (t : Tree α) :
    preorder .forward .unbounded 0 t = t.sites.map fun x => (x.2, x.1.length) := by
  have hbelow := preorders_eq_sitesFrom 0 0 t.children
  simp only [Nat.zero_add] at hbelow
  rw [preorder_eq, DepthLimit.exceeds, if_pos rfl, hbelow, sites_eq, List.map_cons]
  rfl

/-- The values at the sites, with the lengths of their places, are the outline. -/
theorem sites_map_value (t : Tree α) :
    t.sites.map (fun x => (x.2.value, x.1.length)) = outline 0 t := by
  rw [← preorder_map_value, preorder_eq_sites, List.map_map]
  rfl

/-- The sites of a forest are exactly the places that lead to a subtree. -/
theorem mem_sitesFrom_iff (first : Nat) (ts : List (Tree α)) (place : List Nat) (s : Tree α) :
    (place, s) ∈ sitesFrom first ts ↔
      ∃ i below t, place = (first + i) :: below ∧ ts[i]? = some t ∧ t.subtree? below = some s := by
  induction ts using forestInduction generalizing first place s with
  | nil => simp [sitesFrom]
  | cons a cs ts hcs hts =>
    -- A node of the first tree is its root or stands below it.
    have hfirst : ∀ below, (below, s) ∈ (Tree.node a cs).sites ↔
        (Tree.node a cs).subtree? below = some s := by
      intro below
      cases below with
      | nil =>
        have hnil : ([], s) ∉ sitesFrom 0 cs := by simp [hcs]
        simp [sites_eq, children, subtree?, hnil, eq_comm]
      | cons i below =>
        rw [sites_eq, List.mem_cons, children, hcs, subtree?_cons_eq_some_iff, children]
        simp
    rw [sitesFrom, List.mem_append, List.mem_map]
    constructor
    · rintro (⟨⟨below, s'⟩, hmem, hsame⟩ | hmem)
      · cases hsame
        exact ⟨0, below, _, rfl, rfl, (hfirst below).1 hmem⟩
      · obtain ⟨i, below, t, rfl, ht, hs⟩ := (hts _ _ _).1 hmem
        refine ⟨i + 1, below, t, ?_, ht, hs⟩
        rw [Nat.add_assoc, Nat.add_comm 1 i]
    · rintro ⟨i, below, t, rfl, ht, hs⟩
      cases i with
      | zero =>
        cases ht
        exact .inl ⟨(below, s), (hfirst below).2 hs, rfl⟩
      | succ i =>
        refine .inr ((hts _ _ _).2 ⟨i, below, t, ?_, ht, hs⟩)
        rw [Nat.add_assoc, Nat.add_comm 1 i]

/-- Every node is listed at its place, and nothing else is listed. -/
theorem mem_sites_iff {t s : Tree α} {place : List Nat} :
    (place, s) ∈ t.sites ↔ t.subtree? place = some s := by
  rw [sites_eq, List.mem_cons, mem_sitesFrom_iff]
  cases place with
  | nil => simp [subtree?, eq_comm]
  | cons i below => simp [subtree?_cons_eq_some_iff]

/-- No place is listed after one that it is the beginning of, so ancestors come first. -/
theorem sitesFrom_pairwise (first : Nat) (ts : List (Tree α)) :
    (sitesFrom first ts).Pairwise fun x y => ¬y.1 <+: x.1 := by
  induction ts using forestInduction generalizing first with
  | nil => exact .nil
  | cons a cs ts hcs hts =>
    rw [sitesFrom_cons_node, List.pairwise_cons, List.pairwise_append, List.pairwise_map]
    refine ⟨?_, ?_, hts (first + 1), ?_⟩
    · rintro ⟨place, s⟩ hmem
      rw [List.mem_append, List.mem_map] at hmem
      rcases hmem with ⟨⟨below, s'⟩, hbelow, hsame⟩ | hlater
      · obtain ⟨i, rest, t, rfl, -, -⟩ := (mem_sitesFrom_iff _ _ _ _).1 hbelow
        cases hsame
        simp
      · obtain ⟨i, rest, t, rfl, -, -⟩ := (mem_sitesFrom_iff _ _ _ _).1 hlater
        simp only [List.cons_prefix_cons, not_and]
        omega
    · exact (hcs 0).imp fun h => by simpa using h
    · rintro ⟨place, s⟩ hmem ⟨place', s'⟩ hmem'
      obtain ⟨⟨below, u⟩, -, hsame⟩ := List.mem_map.1 hmem
      obtain ⟨i, rest, t, rfl, -, -⟩ := (mem_sitesFrom_iff _ _ _ _).1 hmem'
      cases hsame
      simp only [List.cons_prefix_cons, not_and]
      omega

/-- In the outline no node comes before an ancestor of its own. -/
theorem sites_pairwise (t : Tree α) : t.sites.Pairwise fun x y => ¬y.1 <+: x.1 := by
  rw [sites_eq, List.pairwise_cons]
  refine ⟨?_, sitesFrom_pairwise 0 t.children⟩
  rintro ⟨place, s⟩ hmem
  obtain ⟨i, below, c, rfl, -, -⟩ := (mem_sitesFrom_iff _ _ _ _).1 hmem
  simp

/-- No place is listed twice. -/
theorem nodup_sites (t : Tree α) : (t.sites.map (·.1)).Nodup := by
  rw [List.Nodup, List.pairwise_map]
  refine t.sites_pairwise.imp ?_
  intro x y hnot heq
  rw [heq] at hnot
  exact hnot List.prefix_rfl

/-- The place of a site leads to its subtree. -/
theorem subtree?_of_site {t s : Tree α} {place : List Nat} {i : Nat}
    (hsite : t.sites[i]? = some (place, s)) : t.subtree? place = some s :=
  mem_sites_iff.1 (List.mem_of_getElem? hsite)

/-- A node that comes after another one is no ancestor of it. -/
theorem not_ancestor_of_later {t s s' : Tree α} {place place' : List Nat} {i j : Nat} (hij : i < j)
    (hi : t.sites[i]? = some (place, s)) (hj : t.sites[j]? = some (place', s')) :
    ¬place' <+: place := by
  obtain ⟨hilt, hisite⟩ := List.getElem?_eq_some_iff.1 hi
  obtain ⟨hjlt, hjsite⟩ := List.getElem?_eq_some_iff.1 hj
  have hpair := List.pairwise_iff_getElem.1 (sites_pairwise t) i j hilt hjlt hij
  rw [hisite, hjsite] at hpair
  exact hpair

/-- A place is at one spot of the list. -/
theorem site_injective {t s s' : Tree α} {place : List Nat} {i j : Nat}
    (hi : t.sites[i]? = some (place, s)) (hj : t.sites[j]? = some (place, s')) : i = j := by
  rcases Nat.lt_trichotomy i j with hlt | heq | hgt
  · exact absurd (List.prefix_refl place) (not_ancestor_of_later hlt hi hj)
  · exact heq
  · exact absurd (List.prefix_refl place) (not_ancestor_of_later hgt hj hi)

/-! ## Nested trees -/

/-- Children lie inside their parent, and siblings come one before the other. -/
inductive Nested (inside before : α → α → Prop) : Tree α → Prop where
  | node {a : α} {cs : List (Tree α)} (within : ∀ c ∈ cs, inside c.value a)
      (apart : (cs.map value).Pairwise before) (each : ∀ c ∈ cs, Nested inside before c) :
      Nested inside before (.node a cs)

variable {inside before : α → α → Prop} {t s : Tree α}

/-- In a nested tree the value of a child is inside that of the root. -/
theorem Nested.within (h : t.Nested inside before) : ∀ c ∈ t.children, inside c.value t.value := by
  cases h with
  | node within apart each => exact within

/-- In a nested tree the values of the children come in order. -/
theorem Nested.apart (h : t.Nested inside before) : (t.children.map value).Pairwise before := by
  cases h with
  | node within apart each => exact apart

/-- The children of a nested tree are nested. -/
theorem Nested.each (h : t.Nested inside before) : ∀ c ∈ t.children, c.Nested inside before := by
  cases h with
  | node within apart each => exact each

/-- A tree without children is nested. -/
theorem Nested.leaf (a : α) : (Tree.node a []).Nested inside before :=
  .node (by simp) (by simp) (by simp)

/-- Mapping a tree maps the value of its root. -/
theorem value_map (f : α → β) (t : Tree α) : (t.map f).value = f t.value := by
  cases t with
  | node a cs => rw [map, value, value]

/-- Mapping a forest maps each of its trees. -/
theorem maps_eq (f : α → β) (ts : List (Tree α)) : maps f ts = ts.map (map f) := by
  induction ts with
  | nil => rfl
  | cons t ts ih => rw [maps, ih, List.map_cons]

/-- Folding a forest folds each of its trees. -/
theorem folds_eq (f : α → List β → β) (ts : List (Tree α)) : folds f ts = ts.map (fold f) := by
  induction ts with
  | nil => rfl
  | cons t ts ih => rw [folds, ih, List.map_cons]

/-- A tree is folded from its value and its folded children. -/
theorem fold_eq (f : α → List β → β) (t : Tree α) :
    t.fold f = f t.value (t.children.map (fold f)) := by
  cases t with
  | node a cs => rw [fold, folds_eq, value, children]

/-- A map that keeps both relations keeps a tree nested. -/
theorem Nested.map {inside' before' : β → β → Prop} {f : α → β}
    (hinside : ∀ a b, inside a b → inside' (f a) (f b))
    (hbefore : ∀ a b, before a b → before' (f a) (f b)) (h : t.Nested inside before) :
    (t.map f).Nested inside' before' := by
  induction h with
  | @node a cs within apart each ih =>
    rw [Tree.map, maps_eq]
    refine .node ?_ ?_ ?_
    · intro c hc
      obtain ⟨c, hmem, rfl⟩ := List.mem_map.1 hc
      rw [value_map]
      exact hinside _ _ (within c hmem)
    · have hvalues : (cs.map (Tree.map f)).map value = (cs.map value).map f := by
        rw [List.map_map, List.map_map]
        exact List.map_congr_left fun c _ => value_map f c
      rw [hvalues, List.pairwise_map]
      exact apart.imp (hbefore _ _)
    · intro c hc
      obtain ⟨c, hmem, rfl⟩ := List.mem_map.1 hc
      exact ih c hmem

/-- Nested trees stay so for weaker relations. -/
theorem Nested.imp {inside' before' : α → α → Prop} (hinside : ∀ a b, inside a b → inside' a b)
    (hbefore : ∀ a b, before a b → before' a b) (h : t.Nested inside before) :
    t.Nested inside' before' := by
  induction h with
  | node within apart each ih =>
    exact .node (fun c hc => hinside _ _ (within c hc)) (apart.imp (hbefore _ _)) ih

/-- Every subtree of a nested tree is nested. -/
theorem Nested.subtree (h : t.Nested inside before) {place : List Nat}
    (hs : t.subtree? place = some s) : s.Nested inside before := by
  induction place generalizing t with
  | nil =>
    cases hs
    exact h
  | cons i place ih =>
    obtain ⟨c, hc, hbelow⟩ := subtree?_cons_eq_some_iff.1 hs
    exact ih (h.each c (List.mem_of_getElem? hc)) hbelow

/-- What holds at the root and of everything that stands inside another thing holds everywhere. -/
theorem Nested.value_of_subtree {P : α → Prop} (h : t.Nested inside before)
    (hinside : ∀ a b, inside a b → P a) (hroot : P t.value) {place : List Nat}
    (hs : t.subtree? place = some s) : P s.value := by
  induction place generalizing t with
  | nil =>
    cases hs
    exact hroot
  | cons i place ih =>
    obtain ⟨c, hc, hbelow⟩ := subtree?_cons_eq_some_iff.1 hs
    have hmem := List.mem_of_getElem? hc
    exact ih (h.each c hmem) (hinside _ _ (h.within c hmem)) hbelow

end

end Tree

/-! ## Well-nested parse trees -/

namespace ParseTree

/-- Line by line, what is shown are the nodes with the lengths of their places. -/
theorem getElem?_render (navigation : Bool) (t : ParseTree) (i : Nat) :
    (t.render navigation)[i]? =
      (Tree.sites t)[i]?.map fun x => ViewLine.ofNode navigation x.2.value x.1.length := by
  rw [render_eq, ← Tree.sites_map_value, List.map_map, List.getElem?_map]
  rfl

/-- The span of each child lies inside that of its parent, and the spans of siblings do not overlap
and come in order. -/
def WellNested (t : ParseTree) : Prop :=
  Tree.Nested (fun child parent => child.span.Within parent.span)
    (fun node next => node.span.Before next.span) t

/-- The root of the tree covers an offset. -/
def Covers (offset : Number) (t : ParseTree) : Prop := t.value.span.contains offset = true

variable {t s u : ParseTree} {place place' : List Nat} {offset : Number}

/-- The span of a node that covers an offset lies inside that of the root. -/
theorem WellNested.within_root (h : t.WellNested) (hs : Tree.subtree? t place = some s)
    (hcovers : s.Covers offset) : s.value.span.Within t.value.span := by
  induction place generalizing t with
  | nil =>
    cases hs
    exact Span.Within.refl_of_contains hcovers
  | cons i place ih =>
    obtain ⟨c, hc, hbelow⟩ := Tree.subtree?_cons_eq_some_iff.1 hs
    have hmem := List.mem_of_getElem? hc
    exact (ih (Tree.Nested.each h c hmem) hbelow).trans (Tree.Nested.within h c hmem)

/-- The ancestors of a node that covers an offset have spans around its own. -/
theorem WellNested.within_ancestor (h : t.WellNested) (hs : Tree.subtree? t place = some s)
    (hu : Tree.subtree? t place' = some u) (hpre : place <+: place') (hcovers : u.Covers offset) :
    u.value.span.Within s.value.span := by
  obtain ⟨rest, rfl⟩ := hpre
  rw [Tree.subtree?_append, hs, Option.bind_some] at hu
  exact WellNested.within_root (Tree.Nested.subtree h hs) hu hcovers

/-- The ancestors of a node that covers an offset cover it as well. -/
theorem WellNested.covers_ancestor (h : t.WellNested) (hs : Tree.subtree? t place = some s)
    (hu : Tree.subtree? t place' = some u) (hpre : place <+: place') (hcovers : u.Covers offset) :
    s.Covers offset :=
  (h.within_ancestor hs hu hpre hcovers).contains hcovers

/-- Of two children of one node, at most one covers an offset. -/
theorem WellNested.children_eq (h : t.WellNested) {i j : Nat} (hs : t.children[i]? = some s)
    (hu : t.children[j]? = some u) (hcovers : s.Covers offset) (hcovers' : u.Covers offset) :
    i = j := by
  have hapart := List.pairwise_iff_getElem.1 (List.pairwise_map.1 (Tree.Nested.apart h))
  obtain ⟨hi, rfl⟩ := List.getElem?_eq_some_iff.1 hs
  obtain ⟨hj, rfl⟩ := List.getElem?_eq_some_iff.1 hu
  rcases Nat.lt_trichotomy i j with hlt | heq | hgt
  · exact absurd hcovers' ((hapart i j hi hj hlt).not_contains hcovers)
  · exact heq
  · exact absurd hcovers ((hapart j i hj hi hgt).not_contains hcovers')

/-- Of two nodes that cover an offset, one is an ancestor of the other. -/
theorem WellNested.comparable (h : t.WellNested) (hs : Tree.subtree? t place = some s)
    (hu : Tree.subtree? t place' = some u) (hcovers : s.Covers offset)
    (hcovers' : u.Covers offset) : place <+: place' ∨ place' <+: place := by
  induction place generalizing t place' with
  | nil => exact .inl List.nil_prefix
  | cons i place ih =>
    cases place' with
    | nil => exact .inr List.nil_prefix
    | cons j place' =>
      obtain ⟨c, hc, hbelow⟩ := Tree.subtree?_cons_eq_some_iff.1 hs
      obtain ⟨d, hd, hbelow'⟩ := Tree.subtree?_cons_eq_some_iff.1 hu
      have hnested : WellNested c := Tree.Nested.each h c (List.mem_of_getElem? hc)
      have hnested' : WellNested d := Tree.Nested.each h d (List.mem_of_getElem? hd)
      have hcover := (hnested.within_root hbelow hcovers).contains hcovers
      have hcover' := (hnested'.within_root hbelow' hcovers').contains hcovers'
      obtain rfl := h.children_eq hc hd hcover hcover'
      rw [hc] at hd
      cases hd
      simp only [List.cons_prefix_cons, true_and]
      exact ih hnested hbelow hbelow'

end ParseTree

end TreeInspector
