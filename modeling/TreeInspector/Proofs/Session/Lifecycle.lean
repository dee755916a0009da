import TreeInspector.Proofs.Session.Changes
import TreeInspector.Proofs.Session.Terms

/-!
# Every way a session operation can end

For a host that honours its terms, the relations below list how enabling, refreshing and ending a
session can come out: which calls were made, which one failed if any did, and what has become of
the session. The theorems say that an operation always comes out in one of these ways, so that
nothing else has to look into an operation again.
-/

set_option autoImplicit false

namespace TreeInspector.Session

section

variable {H C : Type}

/-- How ending an active session can come out. -/
inductive Finishes (T : Terms H) (w : World H C) (id : SessionId) (s : Session) (b : Nat)
    (binding : Binding) (reason : EndReason) : Except Failure Unit → World H C → Prop where
  | unnamed {e : Failure} {h : H} {c : C} (name : T.sourceName s.source w.host (.error e) h) :
      Finishes T w id s b binding reason (.error e) (w.beside h c)
  | interrupted {title : String} {e : Failure} {left : List SubscriptionId} {h₁ h₂ : H} {c : C}
      (name : T.sourceName s.source w.host (.ok title) h₁)
      (ends : T.UnsubscribesUntil binding.subscriptions h₁ e left h₂) :
      Finishes T w id s b binding reason (.error e)
        ((w.modifySession id (keeping b left)).beside h₂ c)
  | viewLeft {title : String} {e : Failure} {h₁ h₂ h₃ : H} {c : C}
      (name : T.sourceName s.source w.host (.ok title) h₁)
      (ends : T.Unsubscribes binding.subscriptions h₁ h₂)
      (view : T.destroyView binding.view h₂ (.error e) h₃) :
      Finishes T w id s b binding reason (.error e)
        ((w.modifySession id fun s => (s.keeping b []).ended reason).beside h₃ c)
  | done {title message : String} {h₁ h₂ h₃ h₄ : H} {c : C}
      (name : T.sourceName s.source w.host (.ok title) h₁)
      (ends : T.Unsubscribes binding.subscriptions h₁ h₂)
      (view : T.destroyView binding.view h₂ (.ok ()) h₃) (logs : T.log message h₃ h₄) :
      Finishes T w id s b binding reason (.ok ())
        (((w.modifySession id fun s => (s.keeping b []).ended reason).released id s).beside h₄ c)

/-- How refreshing an active session can come out. -/
inductive Refreshes (T : Terms H) (w : World H C) (id : SessionId) (s : Session) (b : Nat)
    (binding : Binding) : Except Failure Unit → World H C → Prop where
  | unrendered {e : Failure} {h : H} {c : C}
      (renders : T.Renders s.source s.options.navigation binding.view w.host (.error e) h) :
      Refreshes T w id s b binding (.error e) (w.beside h c)
  | unnamed {lines : List ViewLine} {e : Failure} {h₁ h₂ : H} {c : C}
      (renders : T.Renders s.source s.options.navigation binding.view w.host (.ok lines) h₁)
      (name : T.sourceName s.source h₁ (.error e) h₂) :
      Refreshes T w id s b binding (.error e)
        ((w.modifySession id (showing b lines)).beside h₂ c)
  | done {lines : List ViewLine} {title message : String} {h₁ h₂ h₃ : H} {c : C}
      (renders : T.Renders s.source s.options.navigation binding.view w.host (.ok lines) h₁)
      (name : T.sourceName s.source h₁ (.ok title) h₂) (logs : T.log message h₂ h₃) :
      Refreshes T w id s b binding (.ok ())
        ((w.modifySession id (showing b lines)).beside h₃ c)

/-- How enabling a session that is not bound can come out. -/
inductive Enables (T : Terms H) (w : World H C) (id : SessionId) (s : Session) :
    Except Failure Unit → World H C → Prop where
  | unnamed {e : Failure} {h : H} {c : C} (name : T.sourceName s.source w.host (.error e) h) :
      Enables T w id s (.error e) (w.beside h c)
  | noView {title : String} {e : Failure} {h₁ h₂ : H} {c : C}
      (name : T.sourceName s.source w.host (.ok title) h₁)
      (view : T.createView ("Parse Tree: " ++ title) h₁ (.error e) h₂) :
      Enables T w id s (.error e) (w.beside h₂ c)
  | undone {title : String} {view : ViewId} {e : Failure} {made : List SubscriptionId}
      {h₁ h₂ h₃ h₄ h₅ : H} {c : C} (name : T.sourceName s.source w.host (.ok title) h₁)
      (makes : T.createView ("Parse Tree: " ++ title) h₁ (.ok view) h₂)
      (binds : T.Binds s.source s.options.navigation id view h₂ (.error (e, made)) h₃)
      (tidies : T.Tidies title made h₃ h₄) (clears : T.Clears title view h₄ h₅) :
      Enables T w id s (.error e) (w.beside h₅ c)
  | done {title message : String} {view : ViewId} {binding : Binding} {h₁ h₂ h₃ h₄ : H} {c : C}
      (name : T.sourceName s.source w.host (.ok title) h₁)
      (makes : T.createView ("Parse Tree: " ++ title) h₁ (.ok view) h₂)
      (binds : T.Binds s.source s.options.navigation id view h₂ (.ok binding) h₃)
      (logs : T.log message h₃ h₄) :
      Enables T w id s (.ok ()) ((w.modifySession id (bound binding)).beside h₄ c)

variable {T : Terms H} {host : Host H C} {w : World H C} {id : SessionId} {s : Session}

/-! ## Small steps -/

/-- Looking for a session that exists gives it. -/
theorem ensures_find (hs : w.sessions[id]? = some s) {Q : Session → World H C → Prop}
    {E : Failure → World H C → Prop} : (find id).Ensures w Q E ↔ Q s w := by
  unfold find
  simp only [Action.ensures_bind, Action.ensures_get, hs, Action.ensures_pure]

/-- Asking for the binding of an active session gives it. -/
theorem ensures_activeBinding {b : Nat} {binding : Binding} (hs : w.sessions[id]? = some s)
    (hb : s.current = some b) (hbinding : s.bindings[b]? = some binding)
    (operation : SessionOperation) {Q : Nat × Binding → World H C → Prop}
    {E : Failure → World H C → Prop} :
    (activeBinding operation id).Ensures w Q E ↔ Q (b, binding) w := by
  have hcurrent : s.binding? = some binding := binding?_eq_some_iff.2 ⟨b, hb, hbinding⟩
  unfold activeBinding
  rw [Action.ensures_bind, ensures_find hs]
  simp only [hb, hcurrent, Action.ensures_pure]

/-- An operation that needs an active session refuses one that is not bound. -/
theorem ensures_activeBinding_of_inactive (hs : w.sessions[id]? = some s)
    (hnone : s.binding? = none) (operation : SessionOperation)
    {Q : Nat × Binding → World H C → Prop} {E : Failure → World H C → Prop} :
    (activeBinding operation id).Ensures w Q E ↔
      E (.view (.lifecycle operation s.state.text none)) w := by
  unfold activeBinding
  rw [Action.ensures_bind, ensures_find hs]
  cases s.current with
  | none => exact Action.ensures_throw
  | some b => simp only [hnone, Action.ensures_throw]

/-- Asking for the title of a session asks the host what its source is called, and nothing else. -/
theorem title_obeys (honours : host.Honours T) (hs : w.sessions[id]? = some s)
    (hfit : T.fit w.host) :
    (title host id).Ensures w
      (fun name w' => ∃ h c, w' = w.beside h c ∧ T.fit h ∧
        T.sourceName s.source w.host (.ok name) h)
      (fun e w' => ∃ h c, w' = w.beside h c ∧ T.fit h ∧
        T.sourceName s.source w.host (.error e) h) := by
  unfold title
  rw [Action.ensures_bind, ensures_find hs]
  exact honours.sourceName s.source w hfit

/-- Rendering into a view fills it with the tree of the source. -/
theorem render_obeys (honours : host.Honours T) (hs : w.sessions[id]? = some s)
    (hfit : T.fit w.host) (view : ViewId) :
    (render host id view).Ensures w
      (fun lines w' => ∃ h c, w' = w.beside h c ∧ T.fit h ∧
        T.Renders s.source s.options.navigation view w.host (.ok lines) h)
      (fun e w' => ∃ h c, w' = w.beside h c ∧ T.fit h ∧
        T.Renders s.source s.options.navigation view w.host (.error e) h) := by
  unfold render
  rw [Action.ensures_bind, ensures_find hs]
  refine (honours.tree s.source w hfit).bind ?_ ?_
  · rintro tree _ ⟨h₁, c₁, rfl, hfit₁, htree⟩
    refine (honours.showLines view (tree.render s.options.navigation) _ hfit₁).bind ?_ ?_
    · rintro _ _ ⟨h₂, c₂, rfl, hfit₂, hshow⟩
      exact ⟨h₂, c₂, rfl, hfit₂, .shown htree hshow⟩
    · rintro e _ ⟨h₂, c₂, rfl, hfit₂, hshow⟩
      exact ⟨h₂, c₂, rfl, hfit₂, .notShown htree hshow⟩
  · rintro e _ ⟨h₁, c₁, rfl, hfit₁, htree⟩
    exact ⟨h₁, c₁, rfl, hfit₁, .noTree htree⟩

/-! ## Ending subscriptions -/

/-- The latest subscription is taken off the list and given. -/
theorem popSubscription_cons {b : Nat} {binding : Binding} {sub : SubscriptionId}
    {rest : List SubscriptionId} (hs : w.sessions[id]? = some s)
    (hbinding : s.bindings[b]? = some binding) (hsubs : binding.subscriptions = sub :: rest)
    {Q : Option SubscriptionId → World H C → Prop} {E : Failure → World H C → Prop} :
    (popSubscription id b).Ensures w Q E ↔
      Q (some sub) (w.modifySession id (keeping b rest)) := by
  unfold popSubscription
  rw [Action.ensures_bind, ensures_find hs]
  simp only [hbinding, hsubs]
  exact Iff.rfl

/-- The subscriptions that were kept last count. -/
theorem keeping_after_keeping (w : World H C) (id : SessionId) (b : Nat)
    (first second : List SubscriptionId) :
    (w.modifySession id (keeping b first)).modifySession id (keeping b second) =
      w.modifySession id (keeping b second) := by
  rw [World.modifySession_modifySession]
  simp only [keeping_keeping]

/-- The subscriptions of a binding are ended from the latest on, each taken off before it is ended;
the first failure leaves the ones that were not reached. -/
theorem endSubscriptions_obeys (honours : host.Honours T) (b : Nat) (subs : List SubscriptionId) :
    ∀ {w : World H C} {s : Session} {binding : Binding}, T.fit w.host →
      w.sessions[id]? = some s → s.bindings[b]? = some binding → binding.subscriptions = subs →
      (endSubscriptions host id b subs.length).Ensures w
        (fun _ w' => ∃ h c, w' = (w.modifySession id (keeping b [])).beside h c ∧ T.fit h ∧
          T.Unsubscribes subs w.host h)
        (fun e w' => ∃ left h c, w' = (w.modifySession id (keeping b left)).beside h c ∧ T.fit h ∧
          T.UnsubscribesUntil subs w.host e left h) := by
  induction subs with
  | nil =>
    intro w s binding hfit hs hbinding hsubs
    refine ⟨w.host, w.client, ?_, hfit, .nil w.host⟩
    rw [World.modifySession_eq_self hs (hsubs ▸ keeping_self hbinding)]
    rfl
  | cons sub rest ih =>
    intro w s binding hfit hs hbinding hsubs
    rw [List.length_cons, endSubscriptions, Action.ensures_bind,
      popSubscription_cons hs hbinding hsubs]
    refine (honours.unsubscribe sub (w.modifySession id (keeping b rest)) hfit).bind ?_ ?_
    · rintro _ _ ⟨h₁, c₁, rfl, hfit₁, hfirst⟩
      have hs₁ := World.getElem?_modifySession_self hs (keeping b rest)
      have hbinding₁ : (s.keeping b rest).bindings[b]? =
          some { binding with subscriptions := rest } := by
        simp [keeping, hbinding]
      refine (ih (w := (w.modifySession id (keeping b rest)).beside h₁ c₁) hfit₁ hs₁ hbinding₁
        rfl).mono ?_ ?_
      · rintro _ _ ⟨h₂, c₂, rfl, hfit₂, hothers⟩
        exact ⟨h₂, c₂, by simp [keeping_after_keeping], hfit₂,
          .cons hfirst hothers⟩
      · rintro e _ ⟨left, h₂, c₂, rfl, hfit₂, hothers⟩
        exact ⟨left, h₂, c₂, by simp [keeping_after_keeping], hfit₂,
          .later hfirst hothers⟩
    · rintro e _ ⟨h₁, c₁, rfl, hfit₁, hfails⟩
      exact ⟨rest, h₁, c₁, rfl, hfit₁, .here hfails⟩

/-! ## Ending a session -/

/-- The registry is told that a session has ended. -/
theorem release_ensures (hs : w.sessions[id]? = some s) {Q : Unit → World H C → Prop}
    {E : Failure → World H C → Prop} : (release id).Ensures w Q E ↔ Q () (w.released id s) := by
  unfold release World.released
  rw [Action.ensures_bind, ensures_find hs]
  by_cases hreg : s.registered = true
  · simp only [hreg, if_true, true_and, Action.ensures_modify]
    by_cases hfor : w.sessionFor? s.source = some id
    · rw [if_pos hfor, if_pos hfor]
    · rw [if_neg hfor, if_neg hfor]
  · simp only [hreg, Bool.false_eq_true, if_false, false_and, Action.ensures_pure]

/-- The part of ending a session up to where it is no longer bound: what is left to do is to end its
view and to tell the registry. -/
def letGo (host : Host H C) (id : SessionId) (operation : SessionOperation)
    (reason : EndReason) : Action H C (String × ViewId) := do
  let (b, binding) ← activeBinding operation id
  let title ← title host id
  endSubscriptions host id b binding.subscriptions.length
  modify fun w => w.modifySession id (ended reason)
  return (title, binding.view)

/-- Ending a session is letting it go, ending its view, and telling the registry. -/
theorem finish_eq (host : Host H C) (id : SessionId) (operation : SessionOperation)
    (reason : EndReason) :
    finish host id operation reason = (do
      let (title, view) ← letGo host id operation reason
      host.destroyView view
      host.log <| match reason with
        | .sourceDestroyed => "Source " ++ title ++ " was destroyed; tree view closed."
        | .disabled => "Disabled tree view for " ++ title ++ "."
      release id) := by
  unfold finish letGo
  simp only [bind_assoc, pure_bind]
  rfl

/-- A session that could not be let go of is still bound, perhaps with fewer subscriptions. -/
theorem letGo_ensures (honours : host.Honours T) {b : Nat} {binding : Binding}
    (hfit : T.fit w.host) (hs : w.sessions[id]? = some s) (hb : s.current = some b)
    (hbinding : s.bindings[b]? = some binding) (operation : SessionOperation)
    (reason : EndReason) :
    (letGo host id operation reason).Ensures w
      (fun x w' => x.2 = binding.view ∧ ∃ h₁ h₂ c,
        w' = (w.modifySession id fun s => (s.keeping b []).ended reason).beside h₂ c ∧
        T.fit h₂ ∧ T.sourceName s.source w.host (.ok x.1) h₁ ∧
        T.Unsubscribes binding.subscriptions h₁ h₂)
      (fun e w' => T.fit w'.host ∧ Finishes T w id s b binding reason (.error e) w' ∧
        ∃ left h c, w' = (w.modifySession id (keeping b left)).beside h c) := by
  unfold letGo
  rw [Action.ensures_bind, ensures_activeBinding hs hb hbinding]
  refine (title_obeys honours hs hfit).bind ?_ ?_
  · rintro name _ ⟨h₁, c₁, rfl, hfit₁, hname⟩
    refine (endSubscriptions_obeys honours b binding.subscriptions (w := w.beside h₁ c₁) hfit₁ hs
      hbinding rfl).bind ?_ ?_
    · rintro _ _ ⟨h₂, c₂, rfl, hfit₂, hends⟩
      refine ⟨rfl, h₁, h₂, c₂, ?_, hfit₂, hname, hends⟩
      simp only [World.modifySession_beside, World.beside_beside,
        World.modifySession_modifySession]
    · rintro e _ ⟨left, h₂, c₂, rfl, hfit₂, hends⟩
      exact ⟨hfit₂, .interrupted hname hends, left, h₂, c₂, rfl⟩
  · rintro e _ ⟨h₁, c₁, rfl, hfit₁, hname⟩
    refine ⟨hfit₁, .unnamed hname, binding.subscriptions, h₁, c₁, ?_⟩
    rw [World.modifySession_eq_self hs (keeping_self hbinding)]

/-- Ending an active session comes out in one of the ways listed. -/
theorem finish_finishes (honours : host.Honours T) {b : Nat} {binding : Binding}
    (hfit : T.fit w.host) (hs : w.sessions[id]? = some s) (hb : s.current = some b)
    (hbinding : s.bindings[b]? = some binding) (operation : SessionOperation)
    (reason : EndReason) :
    (finish host id operation reason).Ensures w
      (fun _ w' => T.fit w'.host ∧ Finishes T w id s b binding reason (.ok ()) w')
      (fun e w' => T.fit w'.host ∧ Finishes T w id s b binding reason (.error e) w') := by
  rw [finish_eq]
  refine (letGo_ensures honours hfit hs hb hbinding operation reason).bind ?_ ?_
  · rintro ⟨title, view⟩ _ ⟨rfl, h₁, h₂, c₂, rfl, hfit₂, hname, hends⟩
    refine (honours.destroyView binding.view _ hfit₂).bind ?_ ?_
    · rintro _ _ ⟨h₃, c₃, rfl, hfit₃, hview⟩
      refine (honours.log _ _ hfit₃).bind ?_ ?_
      · rintro _ _ ⟨h₄, c₄, rfl, hfit₄, -, hlog⟩
        rw [release_ensures (s := (s.keeping b []).ended reason)
          (World.getElem?_modifySession_self hs _)]
        exact ⟨hfit₄, .done hname hends hview hlog⟩
      · rintro e _ ⟨h₄, c₄, rfl, hfit₄, hnone, -⟩
        cases hnone
    · rintro e _ ⟨h₃, c₃, rfl, hfit₃, hview⟩
      exact ⟨hfit₃, .viewLeft hname hends hview⟩
  · rintro e w' ⟨hfit', hdoes, -⟩
    exact ⟨hfit', hdoes⟩

/-- Ending a session that is not bound is refused and changes nothing. -/
theorem finish_of_inactive (hs : w.sessions[id]? = some s) (hnone : s.binding? = none)
    (operation : SessionOperation) (reason : EndReason) {Q : Unit → World H C → Prop}
    {E : Failure → World H C → Prop} :
    (finish host id operation reason).Ensures w Q E ↔
      E (.view (.lifecycle operation s.state.text none)) w := by
  unfold finish
  rw [Action.ensures_bind, ensures_activeBinding_of_inactive hs hnone]

/-! ## Refreshing a session -/

/-- Refreshing an active session comes out in one of the ways listed. -/
theorem refresh_refreshes (honours : host.Honours T) {b : Nat} {binding : Binding}
    (hfit : T.fit w.host) (hs : w.sessions[id]? = some s) (hb : s.current = some b)
    (hbinding : s.bindings[b]? = some binding) :
    (refresh host id).Ensures w
      (fun _ w' => T.fit w'.host ∧ Refreshes T w id s b binding (.ok ()) w')
      (fun e w' => T.fit w'.host ∧ Refreshes T w id s b binding (.error e) w') := by
  unfold refresh
  rw [Action.ensures_bind, ensures_activeBinding hs hb hbinding]
  refine (render_obeys honours hs hfit binding.view).bind ?_ ?_
  · rintro lines _ ⟨h₁, c₁, rfl, hfit₁, hrenders⟩
    have hs₁ : ((w.modifySession id (showing b lines)).beside h₁ c₁).sessions[id]? =
        some (s.showing b lines) :=
      World.getElem?_modifySession_self hs _
    unfold modifyBinding
    rw [Action.ensures_bind, Action.ensures_modify]
    refine (title_obeys honours hs₁ hfit₁).bind ?_ ?_
    · rintro name _ ⟨h₂, c₂, rfl, hfit₂, hname⟩
      have hs₂ : ((w.modifySession id (showing b lines)).beside h₂ c₂).sessions[id]? =
          some (s.showing b lines) := hs₁
      rw [World.beside_beside, Action.ensures_bind, ensures_find hs₂]
      refine (honours.log _ _ hfit₂).mono ?_ ?_
      · rintro _ _ ⟨h₃, c₃, rfl, hfit₃, -, hlog⟩
        exact ⟨hfit₃, .done hrenders hname hlog⟩
      · rintro e _ ⟨h₃, c₃, rfl, hfit₃, hnone, -⟩
        cases hnone
    · rintro e _ ⟨h₂, c₂, rfl, hfit₂, hname⟩
      exact ⟨hfit₂, .unnamed hrenders hname⟩
  · rintro e _ ⟨h₁, c₁, rfl, hfit₁, hrenders⟩
    exact ⟨hfit₁, .unrendered hrenders⟩

/-- Refreshing a session that is not bound is refused and changes nothing. -/
theorem refresh_of_inactive (hs : w.sessions[id]? = some s) (hnone : s.binding? = none)
    {Q : Unit → World H C → Prop} {E : Failure → World H C → Prop} :
    (refresh host id).Ensures w Q E ↔
      E (.view (.lifecycle .sourceChanged s.state.text none)) w := by
  unfold refresh
  rw [Action.ensures_bind, ensures_activeBinding_of_inactive hs hnone]

/-! ## Enabling a session -/

/-- Subscriptions are ended one after another until one fails. -/
theorem forM_unsubscribe_obeys (honours : host.Honours T) (subs : List SubscriptionId) :
    ∀ {w : World H C}, T.fit w.host →
      (subs.forM host.unsubscribe).Ensures w
        (fun _ w' => ∃ h c, w' = w.beside h c ∧ T.fit h ∧ T.Unsubscribes subs w.host h)
        (fun e w' => ∃ left h c, w' = w.beside h c ∧ T.fit h ∧
          T.UnsubscribesUntil subs w.host e left h) := by
  induction subs with
  | nil =>
    intro w hfit
    exact ⟨w.host, w.client, rfl, hfit, .nil w.host⟩
  | cons sub rest ih =>
    intro w hfit
    refine (honours.unsubscribe sub w hfit).bind ?_ ?_
    · rintro _ _ ⟨h₁, c₁, rfl, hfit₁, hfirst⟩
      refine (ih (w := w.beside h₁ c₁) hfit₁).mono ?_ ?_
      · rintro _ _ ⟨h₂, c₂, rfl, hfit₂, hothers⟩
        exact ⟨h₂, c₂, rfl, hfit₂, .cons hfirst hothers⟩
      · rintro e _ ⟨left, h₂, c₂, rfl, hfit₂, hothers⟩
        exact ⟨left, h₂, c₂, rfl, hfit₂, .later hfirst hothers⟩
    · rintro e _ ⟨h₁, c₁, rfl, hfit₁, hfails⟩
      exact ⟨rest, h₁, c₁, rfl, hfit₁, .here hfails⟩

/-- A part of a clean-up never fails: what goes wrong in it is logged. -/
theorem cleanUp_ensures (honours : host.Honours T) (title : String) {part : Action H C Unit}
    {P : H → Prop} {F : Failure → H → Prop}
    (hpart : part.Ensures w (fun _ w' => ∃ h c, w' = w.beside h c ∧ T.fit h ∧ P h)
      (fun e w' => ∃ h c, w' = w.beside h c ∧ T.fit h ∧ F e h)) :
    (cleanUp host title part).Ensures w
      (fun _ w' => ∃ h c, w' = w.beside h c ∧ T.fit h ∧ (P h ∨ ∃ e h₁, F e h₁ ∧
        T.log ("Rollback of tree view for " ++ title ++ " failed: " ++ e.message) h₁ h))
      (fun _ _ => False) := by
  unfold cleanUp
  rw [Action.ensures_bind, Action.ensures_attempt]
  refine hpart.mono ?_ ?_
  · rintro _ _ ⟨h₁, c₁, rfl, hfit₁, hP⟩
    exact ⟨h₁, c₁, rfl, hfit₁, .inl hP⟩
  · rintro e _ ⟨h₁, c₁, rfl, hfit₁, hF⟩
    refine (honours.log _ _ hfit₁).mono ?_ ?_
    · rintro _ _ ⟨h₂, c₂, rfl, hfit₂, -, hlog⟩
      exact ⟨h₂, c₂, rfl, hfit₂, .inr ⟨e, h₁, hF, hlog⟩⟩
    · rintro _ _ ⟨h₂, c₂, rfl, hfit₂, hnone, -⟩
      cases hnone

/-- Undoing a failed enabling tries to end the subscriptions and the view, and always fails for the
reason for which enabling did. -/
theorem undo_ensures {α : Type} (honours : host.Honours T) (hfit : T.fit w.host) (title : String)
    (view : ViewId) (subs : List SubscriptionId) (reason : Failure)
    {Q : α → World H C → Prop} :
    (undo host title view subs reason : Action H C α).Ensures w Q
      (fun e w' => e = reason ∧ ∃ h c, w' = w.beside h c ∧ T.fit h ∧
        ∃ h₁, T.Tidies title subs w.host h₁ ∧ T.Clears title view h₁ h) := by
  unfold undo
  have htidy : (subs.forM host.unsubscribe).Ensures w
      (fun _ w' => ∃ h c, w' = w.beside h c ∧ T.fit h ∧ T.Unsubscribes subs w.host h)
      (fun e w' => ∃ h c, w' = w.beside h c ∧ T.fit h ∧
        ∃ left, T.UnsubscribesUntil subs w.host e left h) := by
    refine (forM_unsubscribe_obeys honours subs hfit).mono (fun _ _ h => h) ?_
    rintro e _ ⟨left, h, c, rfl, hfit', hends⟩
    exact ⟨h, c, rfl, hfit', left, hends⟩
  refine (cleanUp_ensures honours title htidy).bind ?_ (fun _ _ h => h.elim)
  rintro _ _ ⟨h₁, c₁, rfl, hfit₁, hends⟩
  have htidies : T.Tidies title subs w.host h₁ := by
    rcases hends with hall | ⟨e, h₀, ⟨left, hsome⟩, hlog⟩
    · exact .done hall
    · exact .failed hsome hlog
  refine (cleanUp_ensures (P := T.destroyView view h₁ (.ok ()))
    (F := fun e => T.destroyView view h₁ (.error e)) honours title
    (honours.destroyView view (w.beside h₁ c₁) hfit₁)).bind ?_ (fun _ _ h => h.elim)
  rintro _ _ ⟨h₂, c₂, rfl, hfit₂, hcleared⟩
  have hclears : T.Clears title view h₁ h₂ := by
    rcases hcleared with hview | ⟨e, h₀, hview, hlog⟩
    · exact .done hview
    · exact .failed hview hlog
  exact ⟨rfl, h₂, c₂, rfl, hfit₂, h₁, htidies, hclears⟩

/-- Filling and subscribing a new view ends in a binding, or fails and undoes what it did. -/
theorem bindView_binds (honours : host.Honours T) (hfit : T.fit w.host)
    (hs : w.sessions[id]? = some s) (title : String) (view : ViewId) :
    (bindView host id title view).Ensures w
      (fun binding w' => ∃ h c, w' = w.beside h c ∧ T.fit h ∧
        T.Binds s.source s.options.navigation id view w.host (.ok binding) h)
      (fun e w' => ∃ h c, w' = w.beside h c ∧ T.fit h ∧ ∃ made h₁ h₂,
        T.Binds s.source s.options.navigation id view w.host (.error (e, made)) h₁ ∧
        T.Tidies title made h₁ h₂ ∧ T.Clears title view h₂ h) := by
  -- Each failure on the way is followed by the same undoing, with what had been made by then.
  have hundo : ∀ {e : Failure} {made : List SubscriptionId} {h₁ : H} {c₁ : C}, T.fit h₁ →
      T.Binds s.source s.options.navigation id view w.host (.error (e, made)) h₁ →
      (undo host title view made e : Action H C Binding).Ensures (w.beside h₁ c₁)
        (fun binding w' => ∃ h c, w' = w.beside h c ∧ T.fit h ∧
          T.Binds s.source s.options.navigation id view w.host (.ok binding) h)
        (fun e w' => ∃ h c, w' = w.beside h c ∧ T.fit h ∧ ∃ made h₁ h₂,
          T.Binds s.source s.options.navigation id view w.host (.error (e, made)) h₁ ∧
          T.Tidies title made h₁ h₂ ∧ T.Clears title view h₂ h) := by
    intro e made h₁ c₁ hfit₁ hbinds
    refine (undo_ensures (w := w.beside h₁ c₁) honours hfit₁ title view made e).mono
      (fun _ _ h => h) ?_
    rintro _ _ ⟨rfl, h₃, c₃, rfl, hfit₃, h₂, htidies, hclears⟩
    exact ⟨h₃, c₃, rfl, hfit₃, made, h₁, h₂, hbinds, htidies, hclears⟩
  unfold bindView
  rw [Action.ensures_bind, ensures_find hs, Action.ensures_bind, Action.ensures_attempt]
  refine (render_obeys honours hs hfit view).mono ?_ ?_
  · rintro lines _ ⟨h₁, c₁, rfl, hfit₁, hrenders⟩
    rw [Action.ensures_bind, Action.ensures_attempt]
    refine (honours.subscribe s.source .commit (.session id .commit) _ hfit₁).mono ?_ ?_
    · rintro commit _ ⟨h₂, c₂, rfl, hfit₂, hfirst⟩
      rw [Action.ensures_bind, Action.ensures_attempt]
      refine (honours.subscribe s.source .destroy (.session id .destroy) _ hfit₂).mono ?_ ?_
      · rintro destroy _ ⟨h₃, c₃, rfl, hfit₃, hsecond⟩
        exact ⟨h₃, c₃, rfl, hfit₃, .bound hrenders hfirst hsecond⟩
      · rintro e _ ⟨h₃, c₃, rfl, hfit₃, hfails⟩
        exact hundo hfit₃ (.noDestroy hrenders hfirst hfails)
    · rintro e _ ⟨h₂, c₂, rfl, hfit₂, hfails⟩
      exact hundo hfit₂ (.noCommit hrenders hfails)
  · rintro e _ ⟨h₁, c₁, rfl, hfit₁, hrenders⟩
    exact hundo hfit₁ (.unrendered hrenders)

/-- Enabling a session that is not bound comes out in one of the ways listed. -/
theorem enable_enables (honours : host.Honours T) (hfit : T.fit w.host)
    (hs : w.sessions[id]? = some s) (hnone : s.binding? = none) :
    (enable host id).Ensures w
      (fun _ w' => T.fit w'.host ∧ Enables T w id s (.ok ()) w')
      (fun e w' => T.fit w'.host ∧ Enables T w id s (.error e) w') := by
  unfold enable
  rw [Action.ensures_bind, ensures_find hs]
  simp only [hnone, Option.isSome_none, Bool.false_eq_true, if_false]
  refine (title_obeys honours hs hfit).bind ?_ ?_
  · rintro name _ ⟨h₁, c₁, rfl, hfit₁, hname⟩
    refine (honours.createView _ _ hfit₁).bind ?_ ?_
    · rintro view _ ⟨h₂, c₂, rfl, hfit₂, hmakes⟩
      refine (bindView_binds (w := w.beside h₂ c₂) honours hfit₂ hs name view).bind ?_ ?_
      · rintro binding _ ⟨h₃, c₃, rfl, hfit₃, hbinds⟩
        rw [Action.ensures_bind, Action.ensures_modify]
        refine (honours.log _ _ hfit₃).mono ?_ ?_
        · rintro _ _ ⟨h₄, c₄, rfl, hfit₄, -, hlog⟩
          exact ⟨hfit₄, .done hname hmakes hbinds hlog⟩
        · rintro e _ ⟨h₄, c₄, rfl, hfit₄, hnever, -⟩
          cases hnever
      · rintro e _ ⟨h₅, c₅, rfl, hfit₅, made, h₃, h₄, hbinds, htidies, hclears⟩
        exact ⟨hfit₅, .undone hname hmakes hbinds htidies hclears⟩
    · rintro e _ ⟨h₂, c₂, rfl, hfit₂, hview⟩
      exact ⟨hfit₂, .noView hname hview⟩
  · rintro e _ ⟨h₁, c₁, rfl, hfit₁, hname⟩
    exact ⟨hfit₁, .unnamed hname⟩

end

end TreeInspector.Session
