import TreeInspector.Proofs.Session.Terms

/-!
# The record of the calls to a host

A host that writes down every call together with how it ended shows what an operation did to it and
in which order. Any host can be watched in this way: the watched host keeps to the same terms and
adds the record to them.
-/

set_option autoImplicit false

namespace TreeInspector

/-- A call to a host and how it ended. The log takes every message. -/
inductive HostCall where
  | tree (source : SourceId) (result : Except Failure ParseTree)
  | subscribe (source : SourceId) (event : Notice) (callback : Callback)
      (result : Except Failure SubscriptionId)
  | unsubscribe (sub : SubscriptionId) (result : Except Failure Unit)
  | isAvailable (source : SourceId) (result : Except Failure Bool)
  | sourceName (source : SourceId) (result : Except Failure String)
  | createView (title : String) (result : Except Failure ViewId)
  | showLines (view : ViewId) (lines : List ViewLine) (result : Except Failure Unit)
  | destroyView (view : ViewId) (result : Except Failure Unit)
  | focus (source : SourceId) (span : Span) (highlight : Bool) (result : Except Failure Unit)
  | log (message : String)

namespace HostCall

/-- Why a call with the given result failed. -/
@[simp]
def failureOf {α : Type} : Except Failure α → Option Failure
  | .ok _ => none
  | .error e => some e

/-- Why the call failed, if it did. -/
@[simp]
def failure? : HostCall → Option Failure
  | .tree _ r => failureOf r
  | .subscribe _ _ _ r => failureOf r
  | .unsubscribe _ r => failureOf r
  | .isAvailable _ r => failureOf r
  | .sourceName _ r => failureOf r
  | .createView _ r => failureOf r
  | .showLines _ _ r => failureOf r
  | .destroyView _ r => failureOf r
  | .focus _ _ _ r => failureOf r
  | .log _ => none

/-- The view that the call made. -/
@[simp]
def view? : HostCall → Option ViewId
  | .createView _ (.ok view) => some view
  | _ => none

/-- The subscription that the call made. -/
@[simp]
def subscription? : HostCall → Option SubscriptionId
  | .subscribe _ _ _ (.ok sub) => some sub
  | _ => none

end HostCall

section

variable {H C α : Type}

/-- Every call is added to the record. -/
structure Terms.Records (T : Terms H) (record : H → List HostCall) : Prop where
  tree : ∀ {source h r h'}, T.tree source h r h' → record h' = record h ++ [.tree source r]
  subscribe : ∀ {source event callback h r h'}, T.subscribe source event callback h r h' →
    record h' = record h ++ [.subscribe source event callback r]
  unsubscribe : ∀ {sub h r h'}, T.unsubscribe sub h r h' →
    record h' = record h ++ [.unsubscribe sub r]
  isAvailable : ∀ {source h r h'}, T.isAvailable source h r h' →
    record h' = record h ++ [.isAvailable source r]
  sourceName : ∀ {source h r h'}, T.sourceName source h r h' →
    record h' = record h ++ [.sourceName source r]
  createView : ∀ {title h r h'}, T.createView title h r h' →
    record h' = record h ++ [.createView title r]
  showLines : ∀ {view lines h r h'}, T.showLines view lines h r h' →
    record h' = record h ++ [.showLines view lines r]
  destroyView : ∀ {view h r h'}, T.destroyView view h r h' →
    record h' = record h ++ [.destroyView view r]
  focus : ∀ {source span highlight h r h'}, T.focus source span highlight h r h' →
    record h' = record h ++ [.focus source span highlight r]
  log : ∀ {message h h'}, T.log message h h' → record h' = record h ++ [.log message]

/-! ## Watched hosts -/

/-- The state of a host and the record of the calls to it. -/
structure Watched (H : Type) where
  inner : H
  calls : List HostCall := []

namespace World

/-- The world without the record. -/
def unwatched (w : World (Watched H) C) : World H C :=
  { sessions := w.sessions, registry := w.registry, host := w.host.inner, client := w.client }

/-- The world with a record. -/
def watched (calls : List HostCall) (w : World H C) : World (Watched H) C :=
  { sessions := w.sessions, registry := w.registry, host := ⟨w.host, calls⟩, client := w.client }

end World

/-- Runs a call and adds it to the record. -/
def Action.watched (call : Except Failure α → HostCall) (a : Action H C α) :
    Action (Watched H) C α := fun w =>
  match a w.unwatched with
  | .ok x w' => .ok x (w'.watched (w.host.calls ++ [call (.ok x)]))
  | .error e w' => .error e (w'.watched (w.host.calls ++ [call (.error e)]))

/-- The host with a record of the calls to it. -/
def Host.watched (host : Host H C) : Host (Watched H) C where
  tree source := (host.tree source).watched (.tree source)
  subscribe source event callback :=
    (host.subscribe source event callback).watched (.subscribe source event callback)
  unsubscribe sub := (host.unsubscribe sub).watched (.unsubscribe sub)
  isAvailable source := (host.isAvailable source).watched (.isAvailable source)
  sourceName source := (host.sourceName source).watched (.sourceName source)
  createView title := (host.createView title).watched (.createView title)
  showLines view lines := (host.showLines view lines).watched (.showLines view lines)
  destroyView view := (host.destroyView view).watched (.destroyView view)
  focus source span highlight :=
    (host.focus source span highlight).watched (.focus source span highlight)
  log message := (host.log message).watched fun _ => .log message

/-- The terms of a call together with the record of it. -/
def Terms.watching (call : Except Failure α → HostCall) (R : H → Except Failure α → H → Prop)
    (h : Watched H) (r : Except Failure α) (h' : Watched H) : Prop :=
  R h.inner r h'.inner ∧ h'.calls = h.calls ++ [call r]

/-- The terms with a record of the calls. -/
def Terms.watched (T : Terms H) : Terms (Watched H) where
  fit h := T.fit h.inner
  tree source := watching (.tree source) (T.tree source)
  subscribe source event callback :=
    watching (.subscribe source event callback) (T.subscribe source event callback)
  unsubscribe sub := watching (.unsubscribe sub) (T.unsubscribe sub)
  isAvailable source := watching (.isAvailable source) (T.isAvailable source)
  sourceName source := watching (.sourceName source) (T.sourceName source)
  createView title := watching (.createView title) (T.createView title)
  showLines view lines := watching (.showLines view lines) (T.showLines view lines)
  destroyView view := watching (.destroyView view) (T.destroyView view)
  focus source span highlight :=
    watching (.focus source span highlight) (T.focus source span highlight)
  log message h h' := T.log message h.inner h'.inner ∧ h'.calls = h.calls ++ [.log message]

/-- Terms with a record of the calls add every call to it. -/
theorem Terms.watched_records (T : Terms H) : T.watched.Records Watched.calls where
  tree h := h.2
  subscribe h := h.2
  unsubscribe h := h.2
  isAvailable h := h.2
  sourceName h := h.2
  createView h := h.2
  showLines h := h.2
  destroyView h := h.2
  focus h := h.2
  log h := h.2

/-- An action that keeps to its terms does so with a record of the call. -/
theorem Action.Obeys.watched {a : Action H C α} {fit : H → Prop}
    {R : H → Except Failure α → H → Prop} (h : a.Obeys fit R)
    (call : Except Failure α → HostCall) :
    (a.watched call).Obeys (fun s => fit s.inner) (Terms.watching call R) := by
  intro w hfit
  have ha := h w.unwatched hfit
  unfold Action.Ensures Action.watched at *
  cases hrun : a w.unwatched with
  | ok x w' =>
    simp only [hrun] at ha ⊢
    obtain ⟨h', c, rfl, hfit', hR⟩ := ha
    exact ⟨⟨h', _⟩, c, rfl, hfit', hR, rfl⟩
  | error e w' =>
    simp only [hrun] at ha ⊢
    obtain ⟨h', c, rfl, hfit', hR⟩ := ha
    exact ⟨⟨h', _⟩, c, rfl, hfit', hR, rfl⟩

/-- A host that keeps to its terms does so with a record of its calls. -/
theorem Host.Honours.watched {T : Terms H} {host : Host H C} (honours : host.Honours T) :
    host.watched.Honours T.watched where
  tree source := (honours.tree source).watched _
  subscribe source event callback := (honours.subscribe source event callback).watched _
  unsubscribe sub := (honours.unsubscribe sub).watched _
  isAvailable source := (honours.isAvailable source).watched _
  sourceName source := (honours.sourceName source).watched _
  createView title := (honours.createView title).watched _
  showLines view lines := (honours.showLines view lines).watched _
  destroyView view := (honours.destroyView view).watched _
  focus source span highlight := (honours.focus source span highlight).watched _
  log message := by
    intro w hfit
    refine ((honours.log message).watched (fun _ => .log message) w hfit).mono ?_ ?_
    · rintro x w' ⟨h, c, rfl, hfit', ⟨hok, hlog⟩, hcalls⟩
      exact ⟨h, c, rfl, hfit', hok, hlog, hcalls⟩
    · rintro e w' ⟨h, c, rfl, hfit', ⟨hok, hlog⟩, hcalls⟩
      exact ⟨h, c, rfl, hfit', hok, hlog, hcalls⟩

end

end TreeInspector
