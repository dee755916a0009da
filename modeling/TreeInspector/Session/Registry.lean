import TreeInspector.Session.Navigation

/-!
# The registry

The entry point of a host that turns tree views on and off. It keeps at most one session in charge
of each source and logs navigation.
-/

set_option autoImplicit false

namespace TreeInspector.Registry

section

variable {H C : Type}

open Session (Jump)

/-- Puts a session in charge of a source. -/
def record (source : SourceId) (id : SessionId) (registry : List (SourceId × SessionId)) :
    List (SourceId × SessionId) :=
  if registry.any fun e => e.1 = source then
    registry.map fun e => if e.1 = source then (source, id) else e
  else registry ++ [(source, id)]

/-- Opens a view of a source that has none. -/
def enable (host : Host H C) (source : SourceId) (settings : Settings) :
    Action H C SessionId := do
  match (← get).sessionFor? source with
  | some existing =>
    let state := (← Session.find existing).state
    let title ← Session.title host existing
    throw (.view (.alreadyViewed state title))
  | none =>
    let id ← Session.create source settings.resolve true
    Session.enable host id
    modify fun w => { w with registry := record source id w.registry }
    return id

/-- Closes the view of a session. -/
def disable (host : Host H C) (id : SessionId) : Action H C Unit := Session.disable host id

/-- Runs a jump and logs how it went. -/
def logged (host : Host H C) (id : SessionId) (jump : Action H C Jump) : Action H C Jump := do
  let guarded : Action H C Jump := do
    let result ← jump
    let title ← Session.title host id
    host.log ("Navigated " ++ title ++ " to " ++ result.span.text ++ ".")
    return result
  match ← guarded.attempt with
  | .ok result => return result
  | .error e =>
    host.log ("Navigation failed: " ++ e.message)
    throw e

/-- Jumps to the line with the given index. -/
def navigate (host : Host H C) (id : SessionId) (index : Number) : Action H C Jump :=
  logged host id (Session.navigate host id index)

/-- Jumps to a target. -/
def jump (host : Host H C) (id : SessionId) (target : Target) : Action H C Jump :=
  logged host id (Session.jump host id target)

/-- Closes the views of all sessions in charge, in the order of the registry. -/
def dispose (host : Host H C) : Action H C Unit := do
  ((← get).registry.map (·.2)).forM (Session.disable host)

/-- The number of sessions in charge of a source. -/
def count (w : World H C) : Nat := w.registry.length

end

end TreeInspector.Registry
