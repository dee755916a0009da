import TreeInspector.Options
import TreeInspector.Tree.ViewLine

/-!
# Sessions and their world

A session binds a source to a view. The world holds the sessions, the registry of the sessions in
charge of a source, the state of the host that owns sources and views, and whatever the client that
drives the run keeps beside it. Operations are actions on the world: they may fail, and what they
did before failing stays done.
-/

set_option autoImplicit false

namespace TreeInspector

/-- A source, by its number in the host. -/
abbrev SourceId := Nat

/-- A view, by its number in the host. -/
abbrev ViewId := Nat

/-- A subscription to the events of a source, by its number in the host. -/
abbrev SubscriptionId := Nat

/-- A session, by its number in the world. -/
abbrev SessionId := Nat

/-- What a source announces: that its text was committed, or that it is gone. -/
inductive Notice where
  | commit
  | destroy
  deriving DecidableEq, Repr

/-- The word for an event. -/
def Notice.text : Notice → String
  | .commit => "commit"
  | .destroy => "destroy"

/-- Who is called when a source announces something: a session, or a listener of the client. -/
inductive Callback where
  | session (id : SessionId) (event : Notice)
  | client (listener : Nat)
  deriving DecidableEq, Repr

/-- A subscription to an event of a source, and whether it has been ended. -/
structure Subscription where
  source : SourceId
  event : Notice
  callback : Callback
  ended : Bool := false
  deriving DecidableEq, Repr

/-- Why a session was last torn down. -/
inductive EndReason where
  | disabled
  | sourceDestroyed
  deriving DecidableEq, Repr

/-- The word for a reason. -/
def EndReason.text : EndReason → String
  | .disabled => "disabled"
  | .sourceDestroyed => "source-destroyed"

/-- What enabling a session made: a view, the lines it shows, and the subscriptions that have not
been disposed of, the latest first. -/
structure Binding where
  view : ViewId
  lines : List ViewLine
  subscriptions : List SubscriptionId
  deriving DecidableEq

/-- A session. Every enabling adds a binding; the current one makes the session active. -/
structure Session where
  source : SourceId
  options : Options
  /-- The registry is told when the session ends. -/
  registered : Bool
  bindings : List Binding := []
  current : Option Nat := none
  endReason : Option EndReason := none
  deriving DecidableEq

namespace Session

/-- The binding in force. -/
def binding? (s : Session) : Option Binding := s.current.bind fun b => s.bindings[b]?

/-- Whether the session is bound. -/
def state (s : Session) : SessionState :=
  if s.binding?.isSome then .active else .inactive

/-- The view of an active session. -/
def view? (s : Session) : Option ViewId := s.binding?.map (·.view)

/-- The lines that an active session shows. -/
def lines (s : Session) : List ViewLine := (s.binding?.map (·.lines)).getD []

/-- Highlighting takes effect only together with navigation. -/
def highlights (s : Session) : Bool :=
  s.options.navigation && s.options.highlight

end Session

/-- Everything a run consists of. -/
structure World (H C : Type) where
  sessions : List Session := []
  /-- The session in charge of each source, in the order in which the sources were taken over. -/
  registry : List (SourceId × SessionId) := []
  host : H
  client : C

/-- An action on the world. -/
abbrev Action (H C α : Type) := EStateM Failure (World H C) α

namespace Action

section

variable {H C α : Type}

/-- Runs an action and hands over its failure instead of failing. -/
def attempt (a : Action H C α) : Action H C (Except Failure α) := fun w =>
  match a w with
  | .ok x w' => .ok (.ok x) w'
  | .error e w' => .ok (.error e) w'

/-- The outcome of an action and the world after it. -/
def outcome (a : Action H C α) (w : World H C) : Except Failure α × World H C :=
  match a w with
  | .ok x w' => (.ok x, w')
  | .error e w' => (.error e, w')

/-- The state of the host. -/
def host : Action H C H := do return (← get).host

/-- Changes the state of the host. -/
def modifyHost (f : H → H) : Action H C Unit := modify fun w => { w with host := f w.host }

/-- The state of the client. -/
def client : Action H C C := do return (← get).client

/-- Changes the state of the client. -/
def modifyClient (f : C → C) : Action H C Unit := modify fun w => { w with client := f w.client }

/-- Takes what a calculation gives, or fails as it does. -/
def ofExcept : Except Failure α → Action H C α
  | .ok a => pure a
  | .error e => throw e

end

end Action

/-- What sessions need from whoever owns the sources and the views. -/
structure Host (H C : Type) where
  /-- The parse tree of a source as it is now. -/
  tree : SourceId → Action H C ParseTree
  /-- Asks for a callback whenever the source announces the event. -/
  subscribe : SourceId → Notice → Callback → Action H C SubscriptionId
  /-- Ends a subscription; a second time does nothing. -/
  unsubscribe : SubscriptionId → Action H C Unit
  /-- Whether a source can be navigated to. -/
  isAvailable : SourceId → Action H C Bool
  /-- The name of a source. -/
  sourceName : SourceId → Action H C String
  /-- Makes a view with a title. -/
  createView : String → Action H C ViewId
  /-- Shows lines in a view. -/
  showLines : ViewId → List ViewLine → Action H C Unit
  /-- Ends a view. -/
  destroyView : ViewId → Action H C Unit
  /-- Moves the focus to a span of a source. -/
  focus : SourceId → Span → Bool → Action H C Unit
  /-- Writes a message to the log. -/
  log : String → Action H C Unit

namespace World

section

variable {H C : Type}

/-- The world with one session changed. -/
def modifySession (id : SessionId) (f : Session → Session) (w : World H C) : World H C :=
  { w with sessions := w.sessions.modify id f }

/-- The session in charge of a source. -/
def sessionFor? (source : SourceId) (w : World H C) : Option SessionId :=
  (w.registry.find? fun e => e.1 = source).map (·.2)

end

end World

end TreeInspector
