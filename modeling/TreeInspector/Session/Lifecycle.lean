import TreeInspector.Session.Basic

/-!
# The life of a session

Enabling makes a view, fills it and subscribes to the source; a failure on the way undoes what was
done. A commit of the source fills the view again. Disabling, or the end of the source, ends the
subscriptions and the view.
-/

set_option autoImplicit false

namespace TreeInspector.Session

section

variable {H C : Type}

/-- A session by its number. -/
def find (id : SessionId) : Action H C Session := do
  match (← get).sessions[id]? with
  | some s => return s
  | none => throw (.noSuch .session id)

/-- Adds a session that is not bound yet. -/
def create (source : SourceId) (options : Options) (registered : Bool) : Action H C SessionId := do
  let w ← get
  set { w with sessions := w.sessions ++ [{ source, options, registered : Session }] }
  return w.sessions.length

/-- The title of a session is the name of its source. -/
def title (host : Host H C) (id : SessionId) : Action H C String := do
  host.sourceName (← find id).source

/-- The current binding of a session, which an operation needs. -/
def activeBinding (operation : SessionOperation) (id : SessionId) : Action H C (Nat × Binding) := do
  let s ← find id
  match s.current, s.binding? with
  | some b, some binding => return (b, binding)
  | _, _ => throw (.view (.lifecycle operation s.state.text none))

/-- Shows the tree of the source in a view. -/
def render (host : Host H C) (id : SessionId) (view : ViewId) : Action H C (List ViewLine) := do
  let s ← find id
  let tree ← host.tree s.source
  let lines := tree.render s.options.navigation
  host.showLines view lines
  return lines

/-- Changes one binding of a session. -/
def modifyBinding (id : SessionId) (b : Nat) (f : Binding → Binding) : Action H C Unit :=
  modify fun w => w.modifySession id fun s => { s with bindings := s.bindings.modify b f }

/-- Takes the latest subscription off a binding. -/
def popSubscription (id : SessionId) (b : Nat) : Action H C (Option SubscriptionId) := do
  let s ← find id
  match s.bindings[b]? with
  | none => return none
  | some binding =>
    match binding.subscriptions with
    | [] => return none
    | latest :: rest =>
      modifyBinding id b fun binding => { binding with subscriptions := rest }
      return some latest

/-- Ends the subscriptions of a binding, the latest first. Each is taken off before it is ended, so
the count of those there were at the start bounds the rounds. -/
def endSubscriptions (host : Host H C) (id : SessionId) (b : Nat) : Nat → Action H C Unit
  | 0 => return
  | rounds + 1 => do
    match ← popSubscription id b with
    | none => return
    | some subscription =>
      host.unsubscribe subscription
      endSubscriptions host id b rounds

/-- Runs a part of the clean-up; its failure is only logged. -/
def cleanUp (host : Host H C) (title : String) (part : Action H C Unit) : Action H C Unit := do
  match ← part.attempt with
  | .ok _ => return
  | .error e => host.log ("Rollback of tree view for " ++ title ++ " failed: " ++ e.message)

/-- Undoes a failed enabling: ends the subscriptions made, then the view, and fails for the reason
that enabling did. -/
def undo {α : Type} (host : Host H C) (title : String) (view : ViewId)
    (subscriptions : List SubscriptionId) (reason : Failure) : Action H C α := do
  cleanUp host title (subscriptions.forM host.unsubscribe)
  cleanUp host title (host.destroyView view)
  throw reason

/-- Fills a new view and subscribes to the source; a failure undoes it all. -/
def bindView (host : Host H C) (id : SessionId) (title : String) (view : ViewId) :
    Action H C Binding := do
  let source := (← find id).source
  match ← (render host id view).attempt with
  | .error e => undo host title view [] e
  | .ok lines =>
    match ← (host.subscribe source .commit (.session id .commit)).attempt with
    | .error e => undo host title view [] e
    | .ok commit =>
      match ← (host.subscribe source .destroy (.session id .destroy)).attempt with
      | .error e => undo host title view [commit] e
      | .ok destroy => return { view, lines, subscriptions := [destroy, commit] }

/-- Binds a session that is not bound. -/
def enable (host : Host H C) (id : SessionId) : Action H C Unit := do
  let s ← find id
  if s.binding?.isSome then throw (.view (.lifecycle .enable s.state.text none))
  let title ← title host id
  let view ← host.createView ("Parse Tree: " ++ title)
  let binding ← bindView host id title view
  modify fun w => w.modifySession id fun s =>
    { s with
      bindings := s.bindings ++ [binding]
      current := some s.bindings.length
      endReason := none }
  host.log ("Enabled tree view for " ++ title ++ " (" ++ Nat.repr binding.lines.length ++
    " nodes).")

/-- Fills the view of an active session again. -/
def refresh (host : Host H C) (id : SessionId) : Action H C Unit := do
  let (b, binding) ← activeBinding .sourceChanged id
  let lines ← render host id binding.view
  modifyBinding id b fun binding => { binding with lines := lines }
  let title ← title host id
  let shown := (((← find id).bindings[b]?).map (·.lines)).getD []
  host.log ("Re-rendered tree view for " ++ title ++ " (" ++ Nat.repr shown.length ++ " nodes).")

/-- Tells the registry that a session has ended; it lets go of the source if the session is still
in charge of it. -/
def release (id : SessionId) : Action H C Unit := do
  let s ← find id
  if s.registered then
    modify fun w =>
      if w.sessionFor? s.source = some id then
        { w with registry := w.registry.filter fun e => e.1 ≠ s.source }
      else w

/-- Ends an active session. -/
def finish (host : Host H C) (id : SessionId) (operation : SessionOperation)
    (reason : EndReason) : Action H C Unit := do
  let (b, binding) ← activeBinding operation id
  let title ← title host id
  endSubscriptions host id b binding.subscriptions.length
  modify fun w => w.modifySession id fun s =>
    { s with current := none, endReason := some reason }
  host.destroyView binding.view
  host.log <| match reason with
    | .sourceDestroyed => "Source " ++ title ++ " was destroyed; tree view closed."
    | .disabled => "Disabled tree view for " ++ title ++ "."
  release id

/-- Ends an active session because its source is gone. -/
def sourceDestroyed (host : Host H C) (id : SessionId) : Action H C Unit :=
  finish host id .sourceDestroyed .sourceDestroyed

/-- Ends an active session on request. -/
def disable (host : Host H C) (id : SessionId) : Action H C Unit :=
  finish host id .disable .disabled

/-- The name of an event as a session sees it. -/
def noticeText : Notice → String
  | .commit => "sourceChanged"
  | .destroy => "sourceDestroyed"

/-- Takes in what the source announces. A session that is no longer bound only logs it. -/
def notify (host : Host H C) (id : SessionId) (event : Notice) : Action H C Unit := do
  if (← find id).binding?.isSome then
    match event with
    | .commit => refresh host id
    | .destroy => sourceDestroyed host id
  else
    let title ← title host id
    host.log ("Ignored stale " ++ noticeText event ++ " notification for " ++ title ++ ".")

end

end TreeInspector.Session
