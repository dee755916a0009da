import TreeInspector.Scenario.Basic

/-!
# The stage: a host that records

A host for scenarios that notes every call, can be made to fail at any of them, and can take a step
of the scenario in the middle of one.
-/

set_option autoImplicit false

namespace TreeInspector.Scenario

/-- The calls at which the stage may fail or take a step. -/
inductive Point where
  | tree
  | subscribeCommit
  | subscribeDestroy
  | endCommit
  | endDestroy
  | isAvailable
  | sourceName
  | createView
  | showLines
  | destroyView
  | focus
  deriving DecidableEq, Repr

namespace Point

/-- All calls. -/
def all : List Point :=
  [.tree, .subscribeCommit, .subscribeDestroy, .endCommit, .endDestroy, .isAvailable,
   .sourceName, .createView, .showLines, .destroyView, .focus]

/-- The name of a call. -/
def name : Point → String
  | .tree => "getTree"
  | .subscribeCommit => "onCommit"
  | .subscribeDestroy => "onDestroy"
  | .endCommit => "dispose commit"
  | .endDestroy => "dispose destroy"
  | .isAvailable => "isSourceAvailable"
  | .sourceName => "describeSource"
  | .createView => "createViewSurface"
  | .showLines => "setViewContent"
  | .destroyView => "destroyViewSurface"
  | .focus => "focusAndSelect"

/-- The call with a name. -/
def ofName? (name : String) : Option Point := all.find? (·.name = name)

/-- The call that subscribes to an event. -/
def subscribing : Notice → Point
  | .commit => .subscribeCommit
  | .destroy => .subscribeDestroy

/-- The call that ends a subscription to an event. -/
def disposing : Notice → Point
  | .commit => .endCommit
  | .destroy => .endDestroy

end Point

/-- The steps of a scenario on the stage. -/
inductive StageStep where
  | common (step : CommonStep)
  | on (source : Number) (event : Notice) (body : Option StageStep) (failure : Option String)
  | sequence (steps : List StageStep)
  | attempt (step : StageStep)
  | naming (session source : Option Number) (step : StageStep)
  | commit (source : Number) (tree : Option ParseTree)
  | destroy (source : Number)
  | setTree (source : Number) (tree : ParseTree)
  | setAvailable (source : Number) (available : Bool)
  | rename (source : Number) (name : String)
  | failAt (points : List Point) (bare : Bool)
  | hook (point : Option Point) (step : StageStep)
  | views

/-- A source on the stage. -/
structure StageSource where
  name : String
  tree : ParseTree
  available : Bool := true
  commitListeners : List SubscriptionId := []
  destroyListeners : List SubscriptionId := []

namespace StageSource

/-- The subscriptions to an event, in the order in which they were made. -/
def listeners (s : StageSource) : Notice → List SubscriptionId
  | .commit => s.commitListeners
  | .destroy => s.destroyListeners

/-- The source with the subscriptions to an event changed. -/
def modifyListeners (event : Notice) (f : List SubscriptionId → List SubscriptionId)
    (s : StageSource) : StageSource :=
  match event with
  | .commit => { s with commitListeners := f s.commitListeners }
  | .destroy => { s with destroyListeners := f s.destroyListeners }

end StageSource

/-- A view on the stage. -/
structure StageView where
  title : String
  lines : List ViewLine := []
  updates : Nat := 0
  destroyed : Bool := false

/-- The state of the stage. -/
structure Stage where
  sources : List StageSource
  subscriptions : List Subscription := []
  views : List StageView := []
  hooks : List (Point × StageStep) := []
  failing : List Point := []
  /-- Failures are bare texts. -/
  bare : Bool := false
  /-- Ended subscriptions go on being called. -/
  leaky : Bool := false
  silent : Bool := false
  log : List String := []
  trace : List String := []

/-- An action on the stage. -/
abbrev StageAct (α : Type) := Act Stage StageStep α

namespace Stage

/-- Notes a happening. -/
def note (happening : String) : StageAct Unit :=
  Action.modifyHost fun d => { d with trace := d.trace ++ [happening] }

/-- Takes the step hooked to a call, which is unhooked first, and then fails if it is to. -/
def reach (run : StageStep → StageAct Unit) (point : Point) : StageAct Unit := do
  match (← Action.host).hooks.find? fun h => h.1 = point with
  | some (_, step) =>
    Action.modifyHost fun d => { d with hooks := d.hooks.filter fun h => h.1 ≠ point }
    run step
  | none => pure ()
  let d ← Action.host
  if point ∈ d.failing then
    let message := "host failure in " ++ point.name
    throw (if d.bare then .bare message else .raised message)

/-- A source by its number. -/
def findSource (id : SourceId) : StageAct StageSource := do
  match (← Action.host).sources[id]? with
  | some s => return s
  | none => throw (.noSuch .source id)

/-- Changes a source. -/
def modifySource (id : SourceId) (f : StageSource → StageSource) : StageAct Unit :=
  Action.modifyHost fun d => { d with sources := d.sources.modify id f }

/-- Changes a view. -/
def modifyView (id : ViewId) (f : StageView → StageView) : StageAct Unit :=
  Action.modifyHost fun d => { d with views := d.views.modify id f }

/-- Ends a subscription; a second time does nothing. -/
def unsubscribe (run : StageStep → StageAct Unit) (id : SubscriptionId) : StageAct Unit := do
  match (← Action.host).subscriptions[id]? with
  | none => return
  | some s =>
    if s.ended then return
    Action.modifyHost fun d =>
      { d with subscriptions := d.subscriptions.modify id ({ · with ended := true }) }
    let point := Point.disposing s.event
    note point.name
    reach run point
    if !(← Action.host).leaky then
      modifySource s.source (·.modifyListeners s.event (·.filter (· ≠ id)))

/-- The stage as the host of sessions; `run` takes the steps hooked to its calls. -/
def host (run : StageStep → StageAct Unit) : Host Stage (Roster StageStep) where
  tree source := do
    note Point.tree.name
    reach run .tree
    return (← findSource source).tree
  subscribe source event callback := do
    let point := Point.subscribing event
    note point.name
    reach run point
    let id := (← Action.host).subscriptions.length
    Action.modifyHost fun d =>
      { d with subscriptions := d.subscriptions ++ [{ source, event, callback }] }
    modifySource source (·.modifyListeners event (· ++ [id]))
    return id
  unsubscribe := unsubscribe run
  isAvailable source := do
    reach run .isAvailable
    return (← findSource source).available
  sourceName source := do
    reach run .sourceName
    return (← findSource source).name
  createView title := do
    note (Point.createView.name ++ " " ++ title)
    reach run .createView
    let id := (← Action.host).views.length
    Action.modifyHost fun d => { d with views := d.views ++ [{ title := title }] }
    return id
  showLines view lines := do
    note (Point.showLines.name ++ " " ++ Nat.repr view)
    lines.forM fun line => note line.text
    reach run .showLines
    modifyView view fun v => { v with lines := lines, updates := v.updates + 1 }
  destroyView view := do
    note (Point.destroyView.name ++ " " ++ Nat.repr view)
    reach run .destroyView
    modifyView view ({ · with destroyed := true })
  focus source span highlight := do
    note (Point.focus.name ++ " " ++ (← findSource source).name ++ " " ++ span.text ++ " " ++
      (if highlight then "true" else "false"))
    reach run .focus
  log message :=
    Action.modifyHost fun d => if d.silent then d else { d with log := d.log ++ [message] }

/-- Announces an event to those who listen when it begins, in the order in which they
subscribed. -/
def announce (deliver : Callback → StageAct Unit) (source : SourceId) (event : Notice) :
    StageAct Unit := do
  ((← findSource source).listeners event).forM fun id => do
    match (← Action.host).subscriptions[id]? with
    | some s => deliver s.callback
    | none => return

/-- What a view looks like. -/
def showView (id : ViewId) : StageAct Answer := do
  match (← Action.host).views[id]? with
  | some v => return .recordedView id v.title (v.lines.map (·.text)) v.updates
  | none => return .nothing

/-- Takes a step. Steps that it calls through hooks and listeners have one level of depth less. -/
def step : Nat → StageStep → StageAct Answer
  | 0, _ => throw .tooDeep
  | depth + 1, s =>
    let run := fun inner => do
      let _ ← step depth inner
    let host := host run
    let deliver := deliver host note run
    match s with
    | .common s => commonStep host showView s
    | .on source event body failure => listen host source event body failure
    | .sequence steps => do
      steps.forM run
      return .nothing
    | .attempt inner => tried note (run inner)
    | .naming session source inner => do
      requireNamed session source
      step depth inner
    | .commit source tree => do
      let id ← sourceAt source
      match tree with
      | some tree => modifySource id ({ · with tree := tree })
      | none => pure ()
      announce deliver id .commit
      return .nothing
    | .destroy source => do
      let id ← sourceAt source
      modifySource id ({ · with available := false })
      announce deliver id .destroy
      return .nothing
    | .setTree source tree => do
      modifySource (← sourceAt source) ({ · with tree := tree })
      return .nothing
    | .setAvailable source available => do
      modifySource (← sourceAt source) ({ · with available := available })
      return .nothing
    | .rename source name => do
      modifySource (← sourceAt source) ({ · with name := name })
      return .nothing
    | .failAt points bare => do
      Action.modifyHost fun d => { d with failing := points, bare := bare }
      return .nothing
    | .hook point inner => do
      match point with
      | some point =>
        Action.modifyHost fun d =>
          { d with hooks := (point, inner) :: d.hooks.filter fun h => h.1 ≠ point }
      | none => pure ()
      return .nothing
    | .views => do
      return .recordedViews ((← Action.host).views.map fun v =>
        (v.title, v.lines.length, v.updates, v.destroyed))

/-- What can be seen of a source: whether it is available, and how many listen to its events. -/
structure SourceReport where
  available : Bool
  commitListeners : Nat
  destroyListeners : Nat

/-- Takes a step of the scenario and reports on it. -/
def reportedStep (s : StageStep) (w : World Stage (Roster StageStep)) :
    Report SourceReport × World Stage (Roster StageStep) :=
  let w := { w with host := { w.host with log := [], trace := [] } }
  let (answer, w) := (step greatestDepth s).outcome w
  ({ answer := answer
     log := w.host.log
     trace := w.host.trace
     sessions := sessionReports w
     active := Registry.count w
     sources := w.host.sources.map fun s =>
       ⟨s.available, s.commitListeners.length, s.destroyListeners.length⟩ }, w)

/-- Plays a scenario on a stage with the given sources. -/
def play (stage : Stage) (steps : List StageStep) : List (Report SourceReport) :=
  reports reportedStep
    { host := stage, client := { sources := List.range stage.sources.length } } steps

end Stage

end TreeInspector.Scenario
