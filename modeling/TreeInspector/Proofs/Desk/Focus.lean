import TreeInspector.Desk.Basic
import TreeInspector.Proofs.Text.Positions
import TreeInspector.Proofs.Tree.Nesting

/-!
# Spans that can be shown

A jump prints the line on which a span begins and may underline the span. Columns are differences of
offsets, and text is repeated as often as a column says, which fails for a count that is negative or
infinite. The spans of parsed documents begin and end at whole offsets, so that it does not fail for
any line of a view.
-/

set_option autoImplicit false

namespace TreeInspector

/-- The span begins and ends at whole offsets. -/
def Span.Whole (s : Span) : Prop := ∃ start stop : Nat, s = .between start stop

/-- The line leads to a span with whole offsets, or to none. -/
def ViewLine.Whole (line : ViewLine) : Prop := ∀ span, line.span = some span → span.Whole

namespace Desk

/-- A character is repeated as often as a whole number says. -/
theorem repeated_natCast (c : Char) (n : Nat) :
    repeated c n = .ok (String.ofList (List.replicate n c)) := by
  unfold repeated
  rw [Number.toCount?_natCast]

/-- A span with whole offsets can be shown, whatever the text is. -/
theorem focusReport_of_whole (name : String) (text : List CodeUnit) {span : Span}
    (hspan : span.Whole) (highlight : Bool) :
    ∃ rows, focusReport name text span highlight = .ok rows := by
  obtain ⟨start, stop, rfl⟩ := hspan
  unfold focusReport Span.between
  cases highlight with
  | false => exact ⟨_, rfl⟩
  | true =>
    simp only [Text.positionOf_natCast, if_true]
    split
    · rw [Number.one_max_sub, repeated_natCast, repeated_natCast]
      exact ⟨_, rfl⟩
    · rw [Number.one_max_sub, repeated_natCast, repeated_natCast]
      exact ⟨_, rfl⟩

end Desk

namespace Tree

variable {α β : Type}

/-- The outline of mapped trees is the mapped outline. -/
theorem outlines_maps (f : α → β) (depth : Nat) (ts : List (Tree α)) :
    outlines depth (maps f ts) = (outlines depth ts).map fun x => (f x.1, x.2) := by
  induction ts using forestInduction generalizing depth with
  | nil => rfl
  | cons a cs ts hcs hts =>
    rw [maps, map, outlines_cons_node, outlines_cons_node, hcs, hts, List.map_cons, List.map_append]

end Tree

/-- All lines of a parsed document have whole offsets. -/
theorem Document.render_analyze_whole (options : Dialect) (text : String) (navigation : Bool)
    {line : ViewLine} (hline : line ∈ (analyze options text).root.render navigation) :
    line.Whole := by
  have hnode : ∀ {node : Node} {depth}, node.span.Whole →
      (ViewLine.ofNode navigation node depth).Whole := by
    intro node depth hwhole span hspan
    cases navigation with
    | false => cases hspan
    | true =>
      cases hspan
      exact hwhole
  rw [ParseTree.render_eq] at hline
  obtain ⟨⟨node, depth⟩, hmem, rfl⟩ := List.mem_map.1 hline
  refine hnode ?_
  unfold analyze analyzeUnits at hmem
  dsimp only at hmem
  split at hmem
  case h_1 root _ =>
    have houtline : Tree.outline 0 (root.map Element.toNode) =
        (Tree.outlines 0 [root]).map fun x => (x.1.toNode, x.2) := by
      rw [← Tree.outlines_maps]
      simp [Tree.maps, Tree.outlines]
    rw [houtline] at hmem
    obtain ⟨⟨e, depth'⟩, -, heq⟩ := List.mem_map.1 hmem
    cases heq
    exact ⟨e.start, e.stop, rfl⟩
  case h_2 =>
    simp only [Tree.outline, Tree.outlines, List.mem_singleton, Prod.mk.injEq] at hmem
    rw [hmem.1]
    exact ⟨0, (Text.units text).length, rfl⟩

end TreeInspector
