import TreeInspector.Proofs.Session.Lifecycle

/-!
# Hosts that call back

A call of a host that calls back can do to the world whatever operations on sessions do. What is
known of it is then a relation between the world before the call and the world after it. If such a
relation is reflexive and transitive, the operations that do not change sessions on their own stay
in it as well, and enabling stays in it up to where the session is bound.
-/

set_option autoImplicit false

namespace TreeInspector

section

variable {H C α β : Type} {R : World H C → World H C → Prop} {host : Host H C} {w : World H C}

/-- Whatever comes of the action, the world after it is related to the world before. -/
def Action.Stays (R : World H C → World H C → Prop) (a : Action H C α) : Prop :=
  ∀ w, a.Ensures w (fun _ w' => R w w') (fun _ w' => R w w')

/-- All calls of the host stay in the relation. The log takes every message and calls nobody. -/
structure Host.Stays (R : World H C → World H C → Prop) (host : Host H C) : Prop where
  tree : ∀ source, (host.tree source).Stays R
  subscribe : ∀ source event callback, (host.subscribe source event callback).Stays R
  unsubscribe : ∀ sub, (host.unsubscribe sub).Stays R
  isAvailable : ∀ source, (host.isAvailable source).Stays R
  sourceName : ∀ source, (host.sourceName source).Stays R
  createView : ∀ title, (host.createView title).Stays R
  showLines : ∀ view lines, (host.showLines view lines).Stays R
  destroyView : ∀ view, (host.destroyView view).Stays R
  focus : ∀ source span highlight, (host.focus source span highlight).Stays R
  log : ∀ message w, ∃ h c, host.log message w = .ok () (w.beside h c) ∧ R w (w.beside h c)

/-- An action stays in a relation iff its outcome does from each world. -/
theorem Action.stays_iff {a : Action H C α} : a.Stays R ↔ ∀ w, R w (a.outcome w).2 := by
  refine forall_congr' fun w => ?_
  unfold Action.Ensures Action.outcome
  cases a w with
  | ok x w' => rfl
  | error e w' => rfl

/-- What stays in a relation stays in a wider one. -/
theorem Action.Stays.mono {R' : World H C → World H C → Prop} {a : Action H C α} (ha : a.Stays R)
    (hR : ∀ w w', R w w' → R' w w') : a.Stays R' :=
  fun w => (ha w).mono (fun _ w' h => hR w w' h) (fun _ w' h => hR w w' h)

/-- A host that stays in a relation stays in a wider one. -/
theorem Host.Stays.mono {R' : World H C → World H C → Prop} (h : host.Stays R)
    (hR : ∀ w w', R w w' → R' w w') : host.Stays R' where
  tree source := (h.tree source).mono hR
  subscribe source event callback := (h.subscribe source event callback).mono hR
  unsubscribe sub := (h.unsubscribe sub).mono hR
  isAvailable source := (h.isAvailable source).mono hR
  sourceName source := (h.sourceName source).mono hR
  createView title := (h.createView title).mono hR
  showLines view lines := (h.showLines view lines).mono hR
  destroyView view := (h.destroyView view).mono hR
  focus source span highlight := (h.focus source span highlight).mono hR
  log message w := by
    obtain ⟨h', c, hlog, hstays⟩ := h.log message w
    exact ⟨h', c, hlog, hR _ _ hstays⟩

/-- Logging stays in the relation. -/
theorem Host.Stays.log_stays (hhost : host.Stays R) (message : String) :
    (host.log message).Stays R := by
  intro w
  obtain ⟨h, c, hlog, hstays⟩ := hhost.log message w
  exact (Action.ensures_of_ok hlog).2 hstays

/-- A relation that things which happen one after another stay in. -/
structure World.Passage (R : World H C → World H C → Prop) : Prop where
  refl : ∀ w, R w w
  trans : ∀ {w₁ w₂ w₃}, R w₁ w₂ → R w₂ w₃ → R w₁ w₃

namespace World.Passage

/-! ## Actions -/

/-- An action that does nothing stays in the relation. -/
theorem pure (hR : Passage R) (x : α) : (pure x : Action H C α).Stays R := fun w => hR.refl w

/-- An action that only fails stays in the relation. -/
theorem throw (hR : Passage R) (e : Failure) : (throw e : Action H C α).Stays R :=
  fun w => hR.refl w

/-- What has stayed in the relation so far goes on staying in it. -/
theorem after (hR : Passage R) {w₁ : World H C} (h : R w w₁) {a : Action H C α}
    (ha : a.Stays R) : a.Ensures w₁ (fun _ w' => R w w') (fun _ w' => R w w') :=
  (ha w₁).mono (fun _ _ h₁ => hR.trans h h₁) (fun _ _ h₁ => hR.trans h h₁)

/-- Two actions that stay in the relation do so one after the other. -/
theorem bind (hR : Passage R) {a : Action H C α} {f : α → Action H C β} (ha : a.Stays R)
    (hf : ∀ x, (f x).Stays R) : (a >>= f).Stays R := by
  intro w
  refine (ha w).bind ?_ (fun _ _ h => h)
  intro x w₁ h₁
  exact (hf x w₁).mono (fun _ _ h₂ => hR.trans h₁ h₂) (fun _ _ h₂ => hR.trans h₁ h₂)

/-- An attempt at an action that stays in the relation does so. -/
theorem attempt {a : Action H C α} (ha : a.Stays R) : a.attempt.Stays R := by
  intro w
  rw [Action.ensures_attempt]
  exact ha w

/-- An action for each item of a list stays in the relation if each one does. -/
theorem forM (hR : Passage R) {f : α → Action H C Unit} (hf : ∀ x, (f x).Stays R) :
    ∀ xs : List α, (xs.forM f : Action H C Unit).Stays R
  | [] => hR.pure ()
  | x :: xs => hR.bind (hf x) fun _ => hR.forM hf xs

/-- Looking at the host stays in the relation. -/
theorem readHost (hR : Passage R) : (Action.host : Action H C H).Stays R := fun w => hR.refl w

/-- Looking for a session stays in the relation. -/
theorem find (hR : Passage R) (id : SessionId) : (Session.find id).Stays R := by
  intro w
  unfold Session.find
  rw [Action.ensures_bind, Action.ensures_get]
  cases w.sessions[id]? with
  | none => exact hR.refl w
  | some s => exact hR.refl w

/-- Asking for the binding of an active session stays in the relation. -/
theorem activeBinding (hR : Passage R) (operation : SessionOperation) (id : SessionId) :
    (Session.activeBinding operation id).Stays R := by
  refine hR.bind (hR.find id) fun s => ?_
  split
  · exact hR.pure _
  · exact hR.throw _

/-! ## Operations -/

/-- Asking for the title of a session stays in the relation if the host does. -/
theorem title (hR : Passage R) (hhost : host.Stays R) (id : SessionId) :
    (Session.title host id).Stays R :=
  hR.bind (hR.find id) fun s => hhost.sourceName s.source

/-- Rendering into a view stays in the relation if the host does. -/
theorem render (hR : Passage R) (hhost : host.Stays R) (id : SessionId) (view : ViewId) :
    (Session.render host id view).Stays R :=
  hR.bind (hR.find id) fun s => hR.bind (hhost.tree s.source) fun _ =>
    hR.bind (hhost.showLines view _) fun _ => hR.pure _

/-- Checking that a session is bound stays in the relation if the host does. -/
theorem checkBound (hR : Passage R) (hhost : host.Stays R) (id : SessionId) :
    (Session.checkBound host id).Stays R := by
  refine hR.bind (hR.find id) fun s => ?_
  cases s.state with
  | active => exact hR.pure ()
  | inactive =>
    dsimp only
    split
    · exact hR.bind (hR.title hhost id) fun _ => hR.throw _
    · exact hR.throw _

/-- A jump stays in the relation if the host does. -/
theorem jump (hR : Passage R) (hhost : host.Stays R) (id : SessionId) (target : Target) :
    (Session.jump host id target).Stays R := by
  refine hR.bind (hR.checkBound hhost id) fun _ => ?_
  cases target.span with
  | none => exact hR.throw _
  | some span =>
    refine hR.bind (hR.find id) fun s => hR.bind (hhost.isAvailable s.source) fun available => ?_
    cases available with
    | true =>
      exact hR.bind (hR.find id) fun _ => hR.bind (hhost.focus _ _ _) fun _ => hR.pure _
    | false => exact hR.bind (hR.title hhost id) fun _ => hR.throw _

/-- Navigating stays in the relation if the host does. -/
theorem navigate (hR : Passage R) (hhost : host.Stays R) (id : SessionId) (index : Number) :
    (Session.navigate host id index).Stays R := by
  refine hR.bind (hR.checkBound hhost id) fun _ => hR.bind (hR.find id) fun s => ?_
  dsimp only
  split
  · exact hR.jump hhost id _
  · exact hR.throw _

/-- Logging how a jump ended stays in the relation if the host does. -/
theorem logged (hR : Passage R) (hhost : host.Stays R) (id : SessionId)
    {a : Action H C Session.Jump} (ha : a.Stays R) : (Registry.logged host id a).Stays R := by
  refine hR.bind (attempt (hR.bind ha fun _ => hR.bind (hR.title hhost id) fun _ =>
    hR.bind (hhost.log_stays _) fun _ => hR.pure _)) fun result => ?_
  cases result with
  | ok r => exact hR.pure r
  | error e => exact hR.bind (hhost.log_stays _) fun _ => hR.throw e

/-- A part of a clean-up stays in the relation if the host does. -/
theorem cleanUp (hR : Passage R) (hhost : host.Stays R) (title : String)
    {part : Action H C Unit} (hpart : part.Stays R) :
    (Session.cleanUp host title part).Stays R := by
  refine hR.bind (attempt hpart) fun result => ?_
  cases result with
  | ok _ => exact hR.pure ()
  | error e => exact hhost.log_stays _

/-- Undoing what was made stays in the relation if the host does. -/
theorem undo (hR : Passage R) (hhost : host.Stays R) (title : String) (view : ViewId)
    (subs : List SubscriptionId) (reason : Failure) :
    (Session.undo host title view subs reason : Action H C α).Stays R :=
  hR.bind (hR.cleanUp hhost title (hR.forM hhost.unsubscribe subs)) fun _ =>
    hR.bind (hR.cleanUp hhost title (hhost.destroyView view)) fun _ => hR.throw reason

/-- Making a binding stays in the relation if the host does. -/
theorem bindView (hR : Passage R) (hhost : host.Stays R) (id : SessionId) (title : String)
    (view : ViewId) : (Session.bindView host id title view).Stays R := by
  refine hR.bind (hR.find id) fun s => hR.bind (attempt (hR.render hhost id view)) fun lines => ?_
  cases lines with
  | error e => exact hR.undo hhost title view [] e
  | ok lines =>
    refine hR.bind (attempt (hhost.subscribe _ _ _)) fun commit => ?_
    cases commit with
    | error e => exact hR.undo hhost title view [] e
    | ok commit =>
      refine hR.bind (attempt (hhost.subscribe _ _ _)) fun destroy => ?_
      cases destroy with
      | error e => exact hR.undo hhost title view [commit] e
      | ok destroy => exact hR.pure _

/-- Enabling a session stays in the relation until the session is bound, and then only the log is
left to do. -/
theorem enable (hR : Passage R) (hhost : host.Stays R) (id : SessionId) :
    (Session.enable host id).Ensures w
      (fun _ w' => ∃ w₁ binding h c, R w w₁ ∧
        w' = (w₁.modifySession id (Session.bound binding)).beside h c)
      (fun _ w' => R w w') := by
  unfold Session.enable
  refine (hR.find id w).bind ?_ (fun _ _ h => h)
  intro s w₁ h₁
  split
  · exact h₁
  · refine (hR.title hhost id w₁).bind ?_ (fun _ _ h => hR.trans h₁ h)
    intro title w₂ h₂
    refine (hhost.createView _ w₂).bind ?_ (fun _ _ h => hR.trans h₁ (hR.trans h₂ h))
    intro view w₃ h₃
    refine (hR.bindView hhost id title view w₃).bind ?_
      (fun _ _ h => hR.trans h₁ (hR.trans h₂ (hR.trans h₃ h)))
    intro binding w₄ h₄
    rw [Action.ensures_bind, Action.ensures_modify]
    obtain ⟨h, c, hlog, -⟩ := hhost.log _ (w₄.modifySession id (Session.bound binding))
    exact (Action.ensures_of_ok hlog).2
      ⟨w₄, binding, h, c, hR.trans h₁ (hR.trans h₂ (hR.trans h₃ h₄)), rfl⟩

end World.Passage

end

end TreeInspector
