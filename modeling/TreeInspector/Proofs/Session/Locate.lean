import TreeInspector.Proofs.Session.Lifecycle
import TreeInspector.Proofs.Tree.Nesting
import TreeInspector.Session.Navigation

/-!
# Locating an offset in a view

The search for the line of an offset goes through the lines from the last one and never looks at
their depths. On the lines of a well-nested tree it finds the innermost node all the same: the lines
that cover the offset belong to that node and its ancestors, and no node comes before an ancestor.
-/

set_option autoImplicit false

namespace TreeInspector.Session

/-- The line with the given index leads to a span that contains the offset. -/
def LineCovers (lines : List ViewLine) (offset : Number) (i : Nat) : Prop :=
  ∃ line span, lines[i]? = some line ∧ line.span = some span ∧ span.contains offset = true

section

variable {lines : List ViewLine} {offset : Number} {i : Nat}

/-- A line covers an offset iff it has a span that contains the offset. -/
theorem lineCovers_iff :
    LineCovers lines offset i ↔
      ∃ h : i < lines.length, (lines[i].span.map (·.contains offset)).getD false = true := by
  constructor
  · rintro ⟨line, span, hline, hspan, hcontains⟩
    obtain ⟨hi, rfl⟩ := List.getElem?_eq_some_iff.1 hline
    exact ⟨hi, by simp [hspan, hcontains]⟩
  · rintro ⟨hi, hcovers⟩
    cases hspan : lines[i].span with
    | none => simp [hspan] at hcovers
    | some span =>
      refine ⟨lines[i], span, List.getElem?_eq_getElem hi, hspan, ?_⟩
      simpa [hspan] using hcovers

/-- No line is found for an offset iff none covers it. -/
theorem locate?_eq_none_iff : locate? lines offset = none ↔ ∀ i, ¬LineCovers lines offset i := by
  simp only [locate?, Option.map_eq_none_iff, List.findIdx?_eq_none_iff, List.mem_reverse]
  constructor
  · intro hnone i hcovers
    obtain ⟨hi, hline⟩ := lineCovers_iff.1 hcovers
    rw [hnone lines[i] (List.getElem_mem hi)] at hline
    cases hline
  · intro hnone line hline
    obtain ⟨i, hi, rfl⟩ := List.mem_iff_getElem.1 hline
    rw [← Bool.not_eq_true]
    exact fun hcovers => hnone i (lineCovers_iff.2 ⟨hi, hcovers⟩)

/-- What is located is the last line that covers the offset. -/
theorem last_of_locate?_eq_some (h : locate? lines offset = some i) :
    LineCovers lines offset i ∧ ∀ j, i < j → ¬LineCovers lines offset j := by
  simp only [locate?, Option.map_eq_some_iff] at h
  obtain ⟨k, hk, rfl⟩ := h
  obtain ⟨hlt, hcovers, hbefore⟩ := List.findIdx?_eq_some_iff_getElem.1 hk
  rw [List.length_reverse] at hlt
  rw [List.getElem_reverse] at hcovers
  refine ⟨lineCovers_iff.2 ⟨by omega, hcovers⟩, ?_⟩
  intro j hj hcovers'
  obtain ⟨hjlt, hline⟩ := lineCovers_iff.1 hcovers'
  -- The lines behind the one found are those that the search has gone through before.
  have hmirror : lines.length - 1 - (lines.length - 1 - j) = j := by omega
  have hnot := hbefore (lines.length - 1 - j) (by omega)
  simp only [List.getElem_reverse, hmirror] at hnot
  exact hnot hline

end

/-! ## The lines of a tree -/

section

variable {t : ParseTree} {offset : Number} {i j : Nat} {place place' : List Nat}
  {node node' : ParseTree}

/-- A rendered line covers an offset iff the node at its place does. -/
theorem lineCovers_render_iff :
    LineCovers (t.render true) offset i ↔
      ∃ (place : List Nat) (node : ParseTree),
        (Tree.sites t)[i]? = some (place, node) ∧ node.Covers offset := by
  unfold LineCovers
  rw [ParseTree.getElem?_render]
  constructor
  · rintro ⟨line, span, hline, hspan, hcontains⟩
    obtain ⟨⟨place, node⟩, hsite, rfl⟩ := Option.map_eq_some_iff.1 hline
    cases hspan
    exact ⟨place, node, hsite, hcontains⟩
  · rintro ⟨place, node, hsite, hcontains⟩
    refine ⟨ViewLine.ofNode true (Tree.value node) place.length, _, ?_, rfl, hcontains⟩
    rw [hsite, Option.map_some]

/-- The line of a node covers an offset iff the node does. -/
theorem lineCovers_site (hsite : (Tree.sites t)[i]? = some (place, node)) :
    LineCovers (t.render true) offset i ↔ node.Covers offset := by
  rw [lineCovers_render_iff, hsite]
  constructor
  · rintro ⟨place', node', hsame, hcovers⟩
    cases hsame
    exact hcovers
  · intro hcovers
    exact ⟨place, node, rfl, hcovers⟩

/-! ## The innermost line -/

/-- The line with the given index is the innermost of the lines of a tree that cover an offset. -/
structure Innermost (t : ParseTree) (lines : List ViewLine) (offset : Number) (i : Nat) :
    Prop where
  covers : LineCovers lines offset i
  /-- The lines that cover the offset are those of its node and of the ancestors of its node. -/
  chain : ∃ place node, (Tree.sites t)[i]? = some (place, node) ∧
    ∀ j place' node', (Tree.sites t)[j]? = some (place', node') →
      (LineCovers lines offset j ↔ place' <+: place)
  deepest : ∀ j line line', LineCovers lines offset j → j ≠ i → lines[j]? = some line →
    lines[i]? = some line' → line.indent < line'.indent
  smallest : ∀ j line line' span span', LineCovers lines offset j → lines[j]? = some line →
    lines[i]? = some line' → line.span = some span → line'.span = some span' → span'.Within span

/-- If a covering line is the last one, the covering lines are those of its node and the ancestors
of it. -/
theorem chain_of_last (hnested : t.WellNested)
    (hlast : ∀ k, i < k → ¬LineCovers (t.render true) offset k)
    (hi : (Tree.sites t)[i]? = some (place, node)) (hcovers : node.Covers offset)
    (hj : (Tree.sites t)[j]? = some (place', node')) :
    LineCovers (t.render true) offset j ↔ place' <+: place := by
  have hsub := Tree.subtree?_of_site hi
  have hsub' := Tree.subtree?_of_site hj
  rw [lineCovers_site hj]
  constructor
  · intro hcovers'
    rcases hnested.comparable hsub hsub' hcovers hcovers' with hdown | hup
    · -- A covering line below the last one would come after it.
      rcases Nat.lt_trichotomy j i with hlt | rfl | hgt
      · exact absurd hdown (Tree.not_ancestor_of_later hlt hj hi)
      · rw [hi] at hj
        cases hj
        exact hdown
      · exact absurd ((lineCovers_site hj).2 hcovers') (hlast j hgt)
    · exact hup
  · intro hup
    exact hnested.covers_ancestor hsub' hsub hup hcovers

/-- The line that is found is the innermost one. -/
theorem innermost_of_locate? (hnested : t.WellNested)
    (h : locate? (t.render true) offset = some i) : Innermost t (t.render true) offset i := by
  obtain ⟨hcovers, hlast⟩ := last_of_locate?_eq_some h
  obtain ⟨place, node, hi, hnode⟩ := lineCovers_render_iff.1 hcovers
  have hline : (t.render true)[i]? = some (ViewLine.ofNode true node.value place.length) := by
    rw [ParseTree.getElem?_render, hi, Option.map_some]
  have hchain : ∀ j place' node', (Tree.sites t)[j]? = some (place', node') →
      (LineCovers (t.render true) offset j ↔ place' <+: place) :=
    fun j place' node' hj => chain_of_last hnested hlast hi hnode hj
  refine ⟨hcovers, ⟨place, node, hi, hchain⟩, ?_, ?_⟩
  · intro j line line' hj hne hjline hiline
    obtain ⟨place', node', hjsite, -⟩ := lineCovers_render_iff.1 hj
    have hup := (hchain j place' node' hjsite).1 hj
    have hother : place' ≠ place := by
      rintro rfl
      exact hne (Tree.site_injective hjsite hi)
    rw [ParseTree.getElem?_render, hjsite] at hjline
    rw [hline] at hiline
    cases hjline
    cases hiline
    have hle := hup.length_le
    have hlength : place'.length ≠ place.length := fun hsame => hother (hup.eq_of_length hsame)
    show place'.length < place.length
    omega
  · intro j line line' span span' hj hjline hiline hspan hspan'
    obtain ⟨place', node', hjsite, -⟩ := lineCovers_render_iff.1 hj
    have hup := (hchain j place' node' hjsite).1 hj
    rw [ParseTree.getElem?_render, hjsite] at hjline
    rw [hline] at hiline
    cases hjline
    cases hiline
    cases hspan
    cases hspan'
    exact hnested.within_ancestor (Tree.subtree?_of_site hjsite) (Tree.subtree?_of_site hi) hup hnode

/-- A leaf that covers an offset is located. -/
theorem locate?_of_leaf (hnested : t.WellNested) (hi : (Tree.sites t)[i]? = some (place, node))
    (hleaf : node.children = []) (hcovers : node.Covers offset) :
    locate? (t.render true) offset = some i := by
  have hline : LineCovers (t.render true) offset i := (lineCovers_site hi).2 hcovers
  cases hlocated : locate? (t.render true) offset with
  | none => exact absurd hline (locate?_eq_none_iff.1 hlocated i)
  | some k =>
    obtain ⟨place', node', hk, hchain⟩ := (innermost_of_locate? hnested hlocated).chain
    obtain ⟨rest, rfl⟩ := (hchain i place node hi).1 hline
    have hbelow := Tree.subtree?_of_site hk
    rw [Tree.subtree?_append, Tree.subtree?_of_site hi, Option.bind_some] at hbelow
    cases rest with
    | nil =>
      rw [List.append_nil] at hk
      rw [Tree.site_injective hi hk]
    | cons c rest =>
      obtain ⟨child, hchild, -⟩ := Tree.subtree?_cons_eq_some_iff.1 hbelow
      simp [hleaf] at hchild

/-- Without navigation no line leads anywhere. -/
theorem locate?_render_false (t : ParseTree) (offset : Number) :
    locate? (t.render false) offset = none := by
  rw [locate?_eq_none_iff]
  rintro i ⟨line, span, hline, hspan, -⟩
  rw [ParseTree.getElem?_render] at hline
  obtain ⟨x, -, rfl⟩ := Option.map_eq_some_iff.1 hline
  cases hspan

end

/-! ## Following the located line -/

/-- Navigating to a line of the session moves the focus to a span that contains the offset, as soon
as the host says that the source is available. -/
def LeadsTo (s : Session) (offset : Number) (i : Nat) : Prop :=
  ∃ span : Span, span.contains offset = true ∧
    ∀ {H C : Type} (host : Host H C) (id : SessionId) (w w₁ : World H C),
      w.sessions[id]? = some s → host.isAvailable s.source w = .ok true w₁ →
      w₁.sessions[id]? = some s →
      navigate host id i w =
        (do host.focus s.source span s.highlights; return ⟨span, s.highlights⟩ :
          Action H C Jump) w₁

/-- Looking for a session that exists gives it. -/
theorem find_eq {H C : Type} {w : World H C} {id : SessionId} {s : Session}
    (hs : w.sessions[id]? = some s) : find id w = .ok s w := by
  have hget : (get : Action H C (World H C)) w = .ok w w := rfl
  simp only [find, bind, EStateM.bind, hget, hs]
  rfl

/-- An active session is bound. -/
theorem checkBound_eq {H C : Type} {w : World H C} {id : SessionId} {s : Session}
    (host : Host H C) (hs : w.sessions[id]? = some s) (hactive : s.state = .active) :
    checkBound host id w = .ok () w := by
  simp [checkBound, bind, EStateM.bind, find_eq hs, hactive, pure, EStateM.pure]

/-- Navigating to a line with a span moves the focus to it if the source is available. -/
theorem navigate_eq {H C : Type} {host : Host H C} {w w₁ : World H C} {id : SessionId}
    {s : Session} {i : Nat} {line : ViewLine} {span : Span} (hs : w.sessions[id]? = some s)
    (hactive : s.state = .active) (hline : s.lines[i]? = some line) (hspan : line.span = some span)
    (havailable : host.isAvailable s.source w = .ok true w₁) (hs₁ : w₁.sessions[id]? = some s) :
    navigate host id i w =
      (do host.focus s.source span s.highlights; return ⟨span, s.highlights⟩ :
        Action H C Jump) w₁ := by
  have hjump : jump host id line.toTarget w =
      (do host.focus s.source span s.highlights; return ⟨span, s.highlights⟩ :
        Action H C Jump) w₁ := by
    simp only [jump, bind, EStateM.bind, checkBound_eq host hs hactive, hspan, find_eq hs,
      havailable, if_true, find_eq hs₁]
  have hindex : ((i : Number).toIndex?.bind fun i => s.lines[i]?) = some line := by
    rw [Number.toIndex?_ofNat, Option.bind_some, hline]
  simp only [navigate, bind, EStateM.bind, checkBound_eq host hs hactive, find_eq hs, hindex]
  exact hjump

/-- A line that covers an offset leads to a span that contains it. -/
theorem leadsTo_of_lineCovers {s : Session} {offset : Number} {i : Nat}
    (h : LineCovers s.lines offset i) : s.LeadsTo offset i := by
  obtain ⟨line, span, hline, hspan, hcontains⟩ := h
  have hactive : s.state = .active := by
    unfold lines at hline
    cases hbinding : s.binding? with
    | none => simp [hbinding] at hline
    | some binding => exact state_eq_active_iff.2 ⟨binding, hbinding⟩
  exact ⟨span, hcontains, fun host id w w₁ hs havailable hs₁ =>
    navigate_eq hs hactive hline hspan havailable hs₁⟩

/-- In a session that shows a well-nested tree with navigation, the line located for an offset is
the innermost that covers it, a leaf is located from every offset in its span, nothing is located
only if no line covers the offset, and following the located line leads to a span around the offset.
Without navigation nothing is ever located. -/
theorem locate?_finds_innermost (s : Session) (t : ParseTree)
    (rendered : s.lines = t.render s.options.navigation) (offset : Number) :
    (s.options.navigation = false → locate? s.lines offset = none) ∧
    (s.options.navigation = true → t.WellNested →
      (locate? s.lines offset = none ↔ ∀ i, ¬LineCovers s.lines offset i) ∧
      (∀ i, locate? s.lines offset = some i →
        Innermost t s.lines offset i ∧ s.LeadsTo offset i) ∧
      (∀ i place leaf, (Tree.sites t)[i]? = some (place, leaf) → leaf.children = [] →
        leaf.value.span.contains offset = true → locate? s.lines offset = some i)) := by
  constructor
  · intro hnavigation
    rw [rendered, hnavigation]
    exact locate?_render_false t offset
  · intro hnavigation hnested
    rw [hnavigation] at rendered
    refine ⟨locate?_eq_none_iff, ?_, ?_⟩
    · intro i hlocated
      have hcovers := (last_of_locate?_eq_some hlocated).1
      refine ⟨?_, leadsTo_of_lineCovers hcovers⟩
      rw [rendered] at hlocated ⊢
      exact innermost_of_locate? hnested hlocated
    · intro i place leaf hi hleaf hcovers
      rw [rendered]
      exact locate?_of_leaf hnested hi hleaf hcovers

/-- The tree of a sum of two numbers. -/
def sumTree : ParseTree :=
  .node ⟨"Program", .between 0 3⟩ [
    .node ⟨"BinaryExpr", .between 0 3⟩ [
      .node ⟨"Num", .between 0 1⟩ [],
      .node ⟨"Num", .between 2 3⟩ []]]

/-- A session that shows the tree of the sum. -/
def sumSession : Session where
  source := 0
  options := { navigation := true }
  registered := true
  bindings := [⟨0, sumTree.render true, []⟩]
  current := some 0

/-- Between the numbers the line of the sum is located, and in the second number its own. -/
theorem sumSession_locates :
    sumSession.lines = sumTree.render sumSession.options.navigation ∧ sumTree.WellNested ∧
      Innermost sumTree sumSession.lines 1 1 ∧ sumSession.LeadsTo 1 1 ∧
      locate? sumSession.lines 2 = some 3 := by
  have hshown : sumSession.lines = sumTree.render sumSession.options.navigation := rfl
  have hnested : sumTree.WellNested := by
    refine .node (by simp [Tree.value, Span.Within, Span.between]) (by simp) ?_
    simp only [List.mem_singleton, forall_eq]
    refine .node ?_ ?_ ?_
    · simp only [List.mem_cons, List.not_mem_nil, or_false, forall_eq_or_imp, forall_eq]
      exact ⟨⟨by decide, by decide⟩, ⟨by decide, by decide⟩⟩
    · refine List.pairwise_pair.2 ?_
      show (1 : Number) ≤ 2
      decide
    · simp only [List.mem_cons, List.not_mem_nil, or_false, forall_eq_or_imp, forall_eq]
      exact ⟨.leaf _, .leaf _⟩
  have hbetween := (locate?_finds_innermost sumSession sumTree hshown 1).2 rfl hnested
  have hsecond := (locate?_finds_innermost sumSession sumTree hshown 2).2 rfl hnested
  have hlocated : locate? sumSession.lines 1 = some 1 := by decide +kernel
  obtain ⟨hinnermost, hleads⟩ := hbetween.2.1 1 hlocated
  exact ⟨hshown, hnested, hinnermost, hleads, hsecond.2.2 3 [0, 1] _ rfl rfl (by decide)⟩

end TreeInspector.Session
