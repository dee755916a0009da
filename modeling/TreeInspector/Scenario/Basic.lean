import TreeInspector.CommandLine.Interactive
import TreeInspector.Desk.Watch
import TreeInspector.Session.Registry

/-!
# Scenarios

A scenario is a list of steps taken one after another against a host. Sources, sessions and
listeners are numbered from zero in the order in which the scenario came to know them; a session
gets its number when the step that enables it returns.
-/

set_option autoImplicit false

namespace TreeInspector.Scenario

/-- The steps that any host allows. -/
inductive CommonStep where
  | enable (source : Number) (settings : Settings)
  | disable (session : Number)
  | navigate (session : Number) (index : Number)
  | jump (session : Number) (target : Target)
  | jumpToOwnLine (session : Number) (index : Number)
  | sessionFor (source : Number)
  | dispose
  | create (source : Number) (settings : Settings)
  | enableSession (session : Number)
  | disableSession (session : Number)
  | changed (session : Number)
  | destroyed (session : Number)
  | bridge (session : Number) (index : Number)
  | bridgeJump (session : Number) (target : Target)
  | locate (session : Number) (offsets : List Number)
  | lines (session : Number)
  | title (session : Number)
  | view (session : Number)
  | off (listener : Number)

/-- What a step answers. -/
inductive Answer where
  | nothing
  | number (n : Option Nat)
  | enabled (session : Nat) (options : Options)
  | jump (jump : Session.Jump)
  | indices (found : List (Option Nat))
  | text (text : Option String)
  | texts (texts : List String)
  | recordedView (id : Nat) (title : String) (lines : List String) (updates : Nat)
  | recordedViews (views : List (String × Nat × Nat × Bool))
  | pane (pane : Pane)
  | paneContent (lines : List String) (disposed : Bool)
  | source (source : SourceFile)
  | description (name : String) (available : Bool)
  | command (outcome : CommandLine.Outcome)

/-- A listener of the scenario: what it does when called, and how it fails after that. It has its
number before it is subscribed. -/
structure Listener (S : Type) where
  subscription : Option SubscriptionId
  body : Option S
  failure : Option String

/-- What a scenario knows by number. -/
structure Roster (S : Type) where
  sources : List SourceId := []
  sessions : List SessionId := []
  listeners : List (Listener S) := []

section

variable {H S : Type}

/-- An action of a scenario whose steps are of type `S`. -/
abbrev Act (H S α : Type) := Action H (Roster S) α

/-- The member of a list that a scenario names by number. -/
def named {α : Type} (kind : ReferenceKind) (known : Roster S → List α) (n : Number) :
    Act H S α := do
  let all := known (← Action.client)
  match n.toIndex?.bind fun i => all[i]? with
  | some a => return a
  | none => throw (.noSuch kind n)

/-- The source with a number. -/
def sourceAt (n : Number) : Act H S SourceId := named .source Roster.sources n

/-- The session with a number. -/
def sessionAt (n : Number) : Act H S SessionId := named .session Roster.sessions n

/-- The listener with a number. -/
def listenerAt (n : Number) : Act H S (Listener S) := named .listener Roster.listeners n

/-- Makes sure that the session and the source that a step names exist, the session first. -/
def requireNamed (session source : Option Number) : Act H S Unit := do
  match session with
  | some n => discard (sessionAt n)
  | none => pure ()
  match source with
  | some n => discard (sourceAt n)
  | none => pure ()

/-- Gives a session its number. -/
def enrol (id : SessionId) : Act H S Nat := do
  let n := (← Action.client).sessions.length
  Action.modifyClient fun r => { r with sessions := r.sessions ++ [id] }
  return n

/-- Takes a step that any host allows; `showView` tells what a view looks like. -/
def commonStep (host : Host H (Roster S)) (showView : ViewId → Act H S Answer) :
    CommonStep → Act H S Answer
  | .enable source settings => do
    let id ← Registry.enable host (← sourceAt source) settings
    return .enabled (← enrol id) (← Session.find id).options
  | .disable n => do
    Registry.disable host (← sessionAt n)
    return .nothing
  | .navigate n index => do return .jump (← Registry.navigate host (← sessionAt n) index)
  | .jump n target => do return .jump (← Registry.jump host (← sessionAt n) target)
  | .jumpToOwnLine n index => do
    let id ← sessionAt n
    let lines := (← Session.find id).lines
    match index.toIndex?.bind fun i => lines[i]? with
    | some line => return .jump (← Registry.jump host id line.toTarget)
    | none => throw (.noSuch .line index)
  | .sessionFor source => do
    let id := (← get).sessionFor? (← sourceAt source)
    let known := (← Action.client).sessions
    return .number (id.bind fun id => known.findIdx? (· = id))
  | .dispose => do
    Registry.dispose host
    return .nothing
  | .create source settings => do
    let id ← Session.create (← sourceAt source) settings.resolve false
    return .number (some (← enrol id))
  | .enableSession n => do
    Session.enable host (← sessionAt n)
    return .nothing
  | .disableSession n => do
    Session.disable host (← sessionAt n)
    return .nothing
  | .changed n => do
    Session.refresh host (← sessionAt n)
    return .nothing
  | .destroyed n => do
    Session.sourceDestroyed host (← sessionAt n)
    return .nothing
  | .bridge n index => do return .jump (← Session.navigate host (← sessionAt n) index)
  | .bridgeJump n target => do return .jump (← Session.jump host (← sessionAt n) target)
  | .locate n offsets => do
    let s ← Session.find (← sessionAt n)
    return .indices (offsets.map (Session.locate? s.lines))
  | .lines n => do
    let s ← Session.find (← sessionAt n)
    return .texts (s.lines.map (·.text))
  | .title n => do return .text (some (← Session.title host (← sessionAt n)))
  | .view n => do
    match (← Session.find (← sessionAt n)).view? with
    | some view => showView view
    | none => return .nothing
  | .off n => do
    match (← listenerAt n).subscription with
    | some id => host.unsubscribe id
    | none => throw (.noSuch .listener n)
    return .nothing

/-- Gives a listener of the scenario its number and subscribes it to a source. The number stays
taken if subscribing fails. -/
def listen (host : Host H (Roster S)) (source : Number) (event : Notice) (body : Option S)
    (failure : Option String) : Act H S Answer := do
  let source ← sourceAt source
  let n := (← Action.client).listeners.length
  Action.modifyClient fun r =>
    { r with listeners := r.listeners ++ [{ subscription := none, body, failure }] }
  let id ← host.subscribe source event (.client n)
  Action.modifyClient fun r =>
    { r with listeners := r.listeners.modify n ({ · with subscription := some id }) }
  return .number (some n)

/-- Calls whoever a callback names. A listener of the scenario is noted, does its step and then
fails if it is to. -/
def deliver (host : Host H (Roster S)) (note : String → Act H S Unit) (run : S → Act H S Unit) :
    Callback → Act H S Unit
  | .session id event => Session.notify host id event
  | .client n => do
    note ("listener " ++ Nat.repr n)
    let listener ← listenerAt n
    match listener.body with
    | some step => run step
    | none => pure ()
    match listener.failure with
    | some message => throw (.raised message)
    | none => pure ()

/-- Takes a step, and notes how it went instead of failing. -/
def tried (note : String → Act H S Unit) (step : Act H S Unit) : Act H S Answer := do
  match ← step.attempt with
  | .ok _ => note "try: ok"
  | .error e => note ("try: " ++ e.message)
  return .nothing

/-- How deeply steps may stand in one another or call one another through hooks and listeners. -/
def greatestDepth : Nat := 2000

/-- What can be seen of a session after a step. -/
structure SessionReport where
  state : SessionState
  endReason : Option EndReason
  lineCount : Nat
  hasView : Bool

/-- What can be seen of a world after a step. -/
structure Report (σ : Type) where
  answer : Except Failure Answer
  log : List String
  trace : List String
  sessions : List SessionReport
  active : Nat
  sources : List σ
  output : String := ""

/-- What can be seen of the sessions that have a number. -/
def sessionReports (w : World H (Roster S)) : List SessionReport :=
  w.client.sessions.filterMap fun id =>
    w.sessions[id]?.map fun s => ⟨s.state, s.endReason, s.lines.length, s.view?.isSome⟩

/-- Takes the steps one after another, each whatever became of the ones before, and reports on
each. -/
def reports {σ : Type} (run : S → World H (Roster S) → Report σ × World H (Roster S)) :
    World H (Roster S) → List S → List (Report σ)
  | _, [] => []
  | w, step :: rest =>
    let (report, w') := run step w
    report :: reports run w' rest

end

end TreeInspector.Scenario
