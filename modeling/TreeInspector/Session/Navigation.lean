import TreeInspector.Session.Lifecycle

/-!
# Navigation

A line of a view leads to the span it was made from. All conditions are checked before the host is
asked to move the focus, so a refused jump has no effect.
-/

set_option autoImplicit false

namespace TreeInspector.Session

section

variable {H C : Type}

/-- Where a jump went, and whether it was highlighted. -/
structure Jump where
  span : Span
  highlighted : Bool
  deriving DecidableEq

/-- Refuses a session that is not bound. -/
def checkBound (host : Host H C) (id : SessionId) : Action H C Unit := do
  let s ← find id
  match s.state with
  | .active => return
  | .inactive =>
    if s.endReason = some .sourceDestroyed then
      throw (.view (.sourceUnavailable (← title host id)))
    else throw (.view .noSourceBound)

/-- Jumps to the span of a target. -/
def jump (host : Host H C) (id : SessionId) (target : Target) : Action H C Jump := do
  checkBound host id
  match target.span with
  | none => throw (.view (.notNavigable target.label))
  | some span =>
    let source := (← find id).source
    if ← host.isAvailable source then
      let highlighted := (← find id).highlights
      host.focus source span highlighted
      return ⟨span, highlighted⟩
    else throw (.view (.sourceUnavailable (← title host id)))

/-- Jumps to the span of the line with the given index. -/
def navigate (host : Host H C) (id : SessionId) (index : Number) : Action H C Jump := do
  checkBound host id
  let lines := (← find id).lines
  match index.toIndex?.bind fun i => lines[i]? with
  | some line => jump host id line.toTarget
  | none => throw (.view (.noSuchLine index lines.length))

end

/-- The index of the last line that covers an offset. Spans of siblings do not overlap, so that
line is the innermost. -/
def locate? (lines : List ViewLine) (offset : Number) : Option Nat :=
  let covers := fun line : ViewLine => (line.span.map (·.contains offset)).getD false
  (lines.reverse.findIdx? covers).map fun i => lines.length - 1 - i

end TreeInspector.Session
