import TreeInspector.Proofs.Action
import TreeInspector.Session.Registry

/-!
# The terms between sessions and a host

A host may be anything that owns sources and views. What a proof relies on is which changes of the
host's own state each of its calls may bring about, and that no call reaches back into the sessions
or the registry. `Terms` states the first, `Host.Honours` both. An operation on a session is then a
series of calls, and the relations below say which series each part of an operation can be.
-/

set_option autoImplicit false

namespace TreeInspector

/-- What each call may do to the state of a host, together with how the call ends. Calls are only
made in states that are `fit`. -/
structure Terms (H : Type) where
  fit : H → Prop
  tree : SourceId → H → Except Failure ParseTree → H → Prop
  subscribe : SourceId → Notice → Callback → H → Except Failure SubscriptionId → H → Prop
  unsubscribe : SubscriptionId → H → Except Failure Unit → H → Prop
  isAvailable : SourceId → H → Except Failure Bool → H → Prop
  sourceName : SourceId → H → Except Failure String → H → Prop
  createView : String → H → Except Failure ViewId → H → Prop
  showLines : ViewId → List ViewLine → H → Except Failure Unit → H → Prop
  destroyView : ViewId → H → Except Failure Unit → H → Prop
  focus : SourceId → Span → Bool → H → Except Failure Unit → H → Prop
  log : String → H → H → Prop

section

variable {H C α : Type}

/-- The world with another state of the host, and of the client. -/
def World.beside (h : H) (c : C) (w : World H C) : World H C := { w with host := h, client := c }

namespace World

/-- The world has the host that it was given. -/
@[simp]
theorem beside_host (h : H) (c : C) (w : World H C) : (w.beside h c).host = h := rfl

/-- The host that was given last counts. -/
@[simp]
theorem beside_beside (h h' : H) (c c' : C) (w : World H C) :
    (w.beside h c).beside h' c' = w.beside h' c' := rfl

/-- A change of a session does not mind where the host stands. -/
@[simp]
theorem modifySession_beside (id : SessionId) (f : Session → Session) (h : H) (c : C)
    (w : World H C) :
    (w.beside h c).modifySession id f = (w.modifySession id f).beside h c := rfl

end World

/-- From a fit state, the action changes the state of the host as the relation says, leaves it fit,
and does not touch the sessions or the registry. -/
def Action.Obeys (a : Action H C α) (fit : H → Prop) (R : H → Except Failure α → H → Prop) :
    Prop :=
  ∀ w, fit w.host → a.Ensures w
    (fun x w' => ∃ h c, w' = w.beside h c ∧ fit h ∧ R w.host (.ok x) h)
    (fun e w' => ∃ h c, w' = w.beside h c ∧ fit h ∧ R w.host (.error e) h)

/-- The host keeps to the terms, and its log takes every message. -/
structure Host.Honours (T : Terms H) (host : Host H C) : Prop where
  tree : ∀ source, (host.tree source).Obeys T.fit (T.tree source)
  subscribe : ∀ source event callback,
    (host.subscribe source event callback).Obeys T.fit (T.subscribe source event callback)
  unsubscribe : ∀ id, (host.unsubscribe id).Obeys T.fit (T.unsubscribe id)
  isAvailable : ∀ source, (host.isAvailable source).Obeys T.fit (T.isAvailable source)
  sourceName : ∀ source, (host.sourceName source).Obeys T.fit (T.sourceName source)
  createView : ∀ title, (host.createView title).Obeys T.fit (T.createView title)
  showLines : ∀ view lines, (host.showLines view lines).Obeys T.fit (T.showLines view lines)
  destroyView : ∀ view, (host.destroyView view).Obeys T.fit (T.destroyView view)
  focus : ∀ source span highlight,
    (host.focus source span highlight).Obeys T.fit (T.focus source span highlight)
  log : ∀ message, (host.log message).Obeys T.fit fun h r h' => r = .ok () ∧ T.log message h h'

end

namespace Terms

variable {H : Type}

/-- Subscriptions are ended one after another. -/
inductive Unsubscribes (T : Terms H) : List SubscriptionId → H → H → Prop where
  | nil (h : H) : T.Unsubscribes [] h h
  | cons {sub : SubscriptionId} {rest : List SubscriptionId} {h₁ h₂ h₃ : H}
      (first : T.unsubscribe sub h₁ (.ok ()) h₂) (others : T.Unsubscribes rest h₂ h₃) :
      T.Unsubscribes (sub :: rest) h₁ h₃

/-- Subscriptions are ended one after another until one fails, which leaves the ones behind it. -/
inductive UnsubscribesUntil (T : Terms H) :
    List SubscriptionId → H → Failure → List SubscriptionId → H → Prop where
  | here {sub : SubscriptionId} {rest : List SubscriptionId} {h₁ h₂ : H} {e : Failure}
      (fails : T.unsubscribe sub h₁ (.error e) h₂) :
      T.UnsubscribesUntil (sub :: rest) h₁ e rest h₂
  | later {sub : SubscriptionId} {rest left : List SubscriptionId} {h₁ h₂ h₃ : H} {e : Failure}
      (first : T.unsubscribe sub h₁ (.ok ()) h₂)
      (others : T.UnsubscribesUntil rest h₂ e left h₃) :
      T.UnsubscribesUntil (sub :: rest) h₁ e left h₃

/-- Calls that only look at a source, move the focus or write to the log. -/
inductive LooksAround (T : Terms H) : H → H → Prop where
  | done (h : H) : T.LooksAround h h
  | isAvailable {source : SourceId} {r : Except Failure Bool} {h₁ h₂ h₃ : H}
      (call : T.isAvailable source h₁ r h₂) (rest : T.LooksAround h₂ h₃) : T.LooksAround h₁ h₃
  | sourceName {source : SourceId} {r : Except Failure String} {h₁ h₂ h₃ : H}
      (call : T.sourceName source h₁ r h₂) (rest : T.LooksAround h₂ h₃) : T.LooksAround h₁ h₃
  | focus {source : SourceId} {span : Span} {highlight : Bool} {r : Except Failure Unit}
      {h₁ h₂ h₃ : H} (call : T.focus source span highlight h₁ r h₂)
      (rest : T.LooksAround h₂ h₃) : T.LooksAround h₁ h₃
  | log {message : String} {h₁ h₂ h₃ : H} (call : T.log message h₁ h₂)
      (rest : T.LooksAround h₂ h₃) : T.LooksAround h₁ h₃

/-- The tree of a source is shown in a view. -/
inductive Renders (T : Terms H) (source : SourceId) (navigation : Bool) (view : ViewId) (h : H) :
    Except Failure (List ViewLine) → H → Prop where
  | noTree {e : Failure} {h₁ : H} (call : T.tree source h (.error e) h₁) :
      T.Renders source navigation view h (.error e) h₁
  | notShown {tree : ParseTree} {e : Failure} {h₁ h₂ : H} (call : T.tree source h (.ok tree) h₁)
      (fails : T.showLines view (tree.render navigation) h₁ (.error e) h₂) :
      T.Renders source navigation view h (.error e) h₂
  | shown {tree : ParseTree} {h₁ h₂ : H} (call : T.tree source h (.ok tree) h₁)
      (shows : T.showLines view (tree.render navigation) h₁ (.ok ()) h₂) :
      T.Renders source navigation view h (.ok (tree.render navigation)) h₂

/-- A part of a clean-up: it ends the subscriptions given, or its failure is logged. -/
inductive Tidies (T : Terms H) (title : String) : List SubscriptionId → H → H → Prop where
  | done {subs : List SubscriptionId} {h₁ h₂ : H} (all : T.Unsubscribes subs h₁ h₂) :
      T.Tidies title subs h₁ h₂
  | failed {subs left : List SubscriptionId} {e : Failure} {h₁ h₂ h₃ : H}
      (some : T.UnsubscribesUntil subs h₁ e left h₂)
      (logs : T.log ("Rollback of tree view for " ++ title ++ " failed: " ++ e.message) h₂ h₃) :
      T.Tidies title subs h₁ h₃

/-- A part of a clean-up: it ends the view, or its failure is logged. -/
inductive Clears (T : Terms H) (title : String) (view : ViewId) : H → H → Prop where
  | done {h₁ h₂ : H} (call : T.destroyView view h₁ (.ok ()) h₂) : T.Clears title view h₁ h₂
  | failed {e : Failure} {h₁ h₂ h₃ : H} (call : T.destroyView view h₁ (.error e) h₂)
      (logs : T.log ("Rollback of tree view for " ++ title ++ " failed: " ++ e.message) h₂ h₃) :
      T.Clears title view h₁ h₃

/-- A new view of a session is filled and the session subscribed to its source. A failure comes
with the subscriptions made before it. -/
inductive Binds (T : Terms H) (source : SourceId) (navigation : Bool) (id : SessionId)
    (view : ViewId) (h : H) : Except (Failure × List SubscriptionId) Binding → H → Prop where
  | unrendered {e : Failure} {h₁ : H} (renders : T.Renders source navigation view h (.error e) h₁) :
      T.Binds source navigation id view h (.error (e, [])) h₁
  | noCommit {lines : List ViewLine} {e : Failure} {h₁ h₂ : H}
      (renders : T.Renders source navigation view h (.ok lines) h₁)
      (fails : T.subscribe source .commit (.session id .commit) h₁ (.error e) h₂) :
      T.Binds source navigation id view h (.error (e, [])) h₂
  | noDestroy {lines : List ViewLine} {commit : SubscriptionId} {e : Failure} {h₁ h₂ h₃ : H}
      (renders : T.Renders source navigation view h (.ok lines) h₁)
      (first : T.subscribe source .commit (.session id .commit) h₁ (.ok commit) h₂)
      (fails : T.subscribe source .destroy (.session id .destroy) h₂ (.error e) h₃) :
      T.Binds source navigation id view h (.error (e, [commit])) h₃
  | bound {lines : List ViewLine} {commit destroy : SubscriptionId} {h₁ h₂ h₃ : H}
      (renders : T.Renders source navigation view h (.ok lines) h₁)
      (first : T.subscribe source .commit (.session id .commit) h₁ (.ok commit) h₂)
      (second : T.subscribe source .destroy (.session id .destroy) h₂ (.ok destroy) h₃) :
      T.Binds source navigation id view h (.ok ⟨view, lines, [destroy, commit]⟩) h₃

end Terms

end TreeInspector
