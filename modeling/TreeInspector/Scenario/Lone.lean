import TreeInspector.Desk.Basic

/-!
# Scenarios with a lone source

Scenarios with a single file source that no host looks after.
-/

set_option autoImplicit false

namespace TreeInspector.Scenario.Lone

/-- The steps of a scenario with a lone source. -/
inductive Step where
  | update (text : String) (saved : Bool)
  | tree
  | on (event : Notice)
  | off (listener : Number)
  | emit (event : Notice)
  | select (span : Option Span)
  | shut
  | dispose

/-- What a step answers. -/
inductive Answer where
  | nothing
  | listener (n : Nat)
  | lines (lines : List String)

/-- The subscriptions of the listeners, by number, and the listeners called in this step. -/
structure Audience where
  subscriptions : List SubscriptionId := []
  heard : List Nat := []

/-- An action on a lone source, which is number zero on its desk. -/
abbrev Act (α : Type) := Action Desk Audience α

/-- Notes that a listener was called. -/
def hear : Callback → Act Unit
  | .client n => Action.modifyClient fun a => { a with heard := a.heard ++ [n] }
  | .session .. => pure ()

/-- Takes a step. -/
def step : Step → Act Answer
  | .update text saved => do
    Desk.modifySource 0 (·.update text saved)
    return .nothing
  | .tree => do
    let tree ← Action.ofExcept (← Desk.findSource 0).currentTree
    return .lines ((tree.render true).map (·.text))
  | .on event => do
    let n := (← Action.client).subscriptions.length
    let id ← Desk.subscribe 0 event (.client n)
    Action.modifyClient fun a => { a with subscriptions := a.subscriptions ++ [id] }
    return .listener n
  | .off n => do
    let known := (← Action.client).subscriptions
    match n.toIndex?.bind fun i => known[i]? with
    | some id => Desk.unsubscribe id
    | none => throw (.noSuch .listener n)
    return .nothing
  | .emit event => do
    Desk.announce hear 0 event
    return .nothing
  | .select span => do
    Desk.modifySource 0 ({ · with selection := span })
    return .nothing
  | .shut => do
    Desk.shut 0
    return .nothing
  | .dispose => do
    Desk.forgetListeners 0
    return .nothing

/-- What can be seen after a step. -/
structure Report where
  answer : Except Failure Answer
  heard : List Nat
  source : SourceFile

/-- Takes the steps one after another and reports on each. -/
def reports : World Desk Audience → List Step → List Report
  | _, [] => []
  | w, s :: rest =>
    let (answer, w) := (step s).outcome { w with client := { w.client with heard := [] } }
    let source := w.host.sources[0]?.getD { path := "" }
    { answer := answer, heard := w.client.heard, source := source } :: reports w rest

/-- Plays a scenario with a source of the given path. -/
def play (path : String) (steps : List Step) : List Report :=
  let desk : Desk := { disk := { workingDirectory := ⟨[]⟩ }, sources := [{ path := path }] }
  reports { host := desk, client := {} } steps

end TreeInspector.Scenario.Lone
