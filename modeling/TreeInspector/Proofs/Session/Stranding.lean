import TreeInspector.Proofs.Session.Invariant

/-!
# Sessions that the registry does not let go of

A session that ends is unbound first; then its view is ended, and only after that the registry is
told. If the host fails to end the view, the session is gone but its source stays taken. These are
the only sessions by which the registry and the active sessions differ, whatever else the host fails
to do.
-/

set_option autoImplicit false

namespace TreeInspector

/-- What the registry goes by in a session. -/
structure Standing where
  source : SourceId
  registered : Bool
  state : SessionState

/-- How the session stands. -/
def Session.standing (s : Session) : Standing := ⟨s.source, s.registered, s.state⟩

/-! ## Registries that lost track of sessions -/

namespace Registry

/-- The registry lists the active sessions and the lost ones, and the lost ones are not active. -/
structure Tracks (registry : List (SourceId × SessionId)) (standing : SessionId → Option Standing)
    (lost : SessionId → Prop) : Prop where
  lists : Lists registry fun id source =>
    ∃ st, standing id = some st ∧ st.source = source ∧ (st.state = .active ∨ lost id)
  registered : ∀ {id st}, standing id = some st → st.registered = true
  idle : ∀ {id}, lost id → ∃ st, standing id = some st ∧ st.state = .inactive

namespace Tracks

section

variable {registry : List (SourceId × SessionId)} {standing : SessionId → Option Standing}
  {lost : SessionId → Prop} {id : SessionId} {source : SourceId} {st : Standing}

/-- What the registry tracks does not depend on how the lost sessions are named. -/
theorem congr {lost' : SessionId → Prop} (h : Tracks registry standing lost)
    (hsame : ∀ i, lost' i ↔ lost i) : Tracks registry standing lost' := by
  have heq : lost' = lost := funext fun i => propext (hsame i)
  rw [heq]
  exact h

/-- An active session is not lost. -/
theorem not_lost (h : Tracks registry standing lost) (hst : standing id = some st)
    (hactive : st.state = .active) : ¬ lost id := by
  intro hlost
  obtain ⟨st', hst', hinactive⟩ := h.idle hlost
  rw [hst] at hst'
  cases hst'
  rw [hactive] at hinactive
  cases hinactive

/-- All sessions are still ones of the registry after such a one has come to stand otherwise. -/
theorem registered_update (h : Tracks registry standing lost) (hst : st.registered = true)
    {i : SessionId} {st' : Standing} (hi : Function.update standing id (some st) i = some st') :
    st'.registered = true := by
  by_cases hid : i = id
  · subst hid
    rw [Function.update_self] at hi
    cases hi
    exact hst
  · rw [Function.update_of_ne hid] at hi
    exact h.registered hi

/-- Lost sessions are inactive also after a session has come to stand otherwise, unless that one is
lost and active. -/
theorem idle_update (h : Tracks registry standing lost) (hst : lost id → st.state = .inactive)
    {i : SessionId} (hi : lost i) :
    ∃ st', Function.update standing id (some st) i = some st' ∧ st'.state = .inactive := by
  by_cases hid : i = id
  · subst hid
    exact ⟨st, Function.update_self _ _ _, hst hi⟩
  · rw [Function.update_of_ne hid]
    exact h.idle hi

/-- A session that did not exist cannot have been lost. -/
theorem not_lost_of_new (h : Tracks registry standing lost) (hnew : standing id = none) :
    ¬ lost id := by
  intro hlost
  obtain ⟨st, hst, -⟩ := h.idle hlost
  rw [hnew] at hst
  cases hst

/-- A session is made that does not become active. -/
theorem created (h : Tracks registry standing lost) (hnew : standing id = none) :
    Tracks registry (Function.update standing id (some ⟨source, true, .inactive⟩)) lost where
  lists := by
    refine h.lists.congr fun i source' => ?_
    by_cases hid : i = id
    · subst hid
      simp [hnew, h.not_lost_of_new hnew]
    · rw [Function.update_of_ne hid]
  registered := h.registered_update rfl
  idle := h.idle_update fun _ => rfl

/-- A session is made for a free source, becomes active, and is put in charge. -/
theorem opened (h : Tracks registry standing lost) (hnew : standing id = none)
    (free : ∀ other, (source, other) ∉ registry) :
    Tracks (registry ++ [(source, id)])
      (Function.update standing id (some ⟨source, true, .active⟩)) lost where
  lists := by
    refine (h.lists.add free (by simp [hnew])).congr fun i source' => ?_
    by_cases hid : i = id
    · subst hid
      simp [hnew, eq_comm]
    · simp [hid]
  registered := h.registered_update rfl
  idle := h.idle_update fun hlost => (h.not_lost_of_new hnew hlost).elim

/-- An active session ends, and the registry lets go of its source. -/
theorem ended (h : Tracks registry standing lost) (hst : standing id = some st)
    (hactive : st.state = .active) :
    Tracks (registry.filter fun e => e.1 ≠ st.source)
      (Function.update standing id (some { st with state := .inactive })) lost where
  lists := by
    refine (h.lists.remove ⟨st, hst, rfl, .inl hactive⟩).congr fun i source' => ?_
    by_cases hid : i = id
    · subst hid
      simp [h.not_lost hst hactive]
    · simp [hid]
  registered := by
    intro i st' hi
    have hregistered : st.registered = true := h.registered hst
    exact h.registered_update (by exact hregistered) hi
  idle := h.idle_update fun _ => rfl

/-- An active session ends, but the registry is not told. -/
theorem stranded (h : Tracks registry standing lost) (hst : standing id = some st)
    (hactive : st.state = .active) :
    Tracks registry (Function.update standing id (some { st with state := .inactive }))
      fun i => lost i ∨ i = id where
  lists := by
    refine h.lists.congr fun i source' => ?_
    by_cases hid : i = id
    · subst hid
      simp [hst, hactive]
    · simp [hid]
  registered := by
    intro i st' hi
    have hregistered : st.registered = true := h.registered hst
    exact h.registered_update (by exact hregistered) hi
  idle := by
    rintro i (hlost | rfl)
    · exact h.idle_update (fun _ => rfl) hlost
    · exact ⟨_, Function.update_self _ _ _, rfl⟩

end

end Tracks

end Registry

section

variable {H C : Type} {T : Terms H} {host : Host H C} {w w' : World H C} {id : SessionId}
  {lost : SessionId → Prop}

/-! ## Losing a session -/

/-- The standing of a session, by its number. -/
def World.standing? (w : World H C) : SessionId → Option Standing := w.seen fun s => some s.standing

/-- Ending the session gets as far as its view, which the host then fails to end. -/
def Session.LeavesView (host : Host H C) (id : SessionId) (operation : SessionOperation)
    (reason : EndReason) (w : World H C) : Prop :=
  (Session.letGo host id operation reason).Ensures w
    (fun x w₁ => (host.destroyView x.2).Ensures w₁ (fun _ _ => False) (fun _ _ => True))
    (fun _ _ => False)

/-- The session that a call is to end, if it is to end one, and how. -/
def Call.ending? : Call → Option (SessionId × SessionOperation × EndReason)
  | .disable id | .disableSession id => some (id, .disable, .disabled)
  | .sourceDestroyed id | .notify id .destroy => some (id, .sourceDestroyed, .sourceDestroyed)
  | _ => none

/-- The call is to end the session, and the host fails to end its view. -/
def Call.Loses (host : Host H C) (c : Call) (w : World H C) (id : SessionId) : Prop :=
  ∃ operation reason, c.ending? = some (id, operation, reason) ∧
    Session.LeavesView host id operation reason w

/-- The sessions lost after some calls in a row, of which a failing one is the last. -/
def lostAfter (host : Host H C) : List Call → World H C → (SessionId → Prop) → SessionId → Prop
  | [], _, lost => lost
  | c :: calls, w, lost =>
    match c.run host w with
    | .ok _ w' => lostAfter host calls w' fun id => lost id ∨ c.Loses host w id
    | .error _ _ => fun id => lost id ∨ c.Loses host w id

/-- The registry knows all sessions but the lost ones. -/
def World.Tracked (lost : SessionId → Prop) (w : World H C) : Prop :=
  Registry.Tracks w.registry w.standing? lost

/-- What the registry knows depends on it and on how sessions stand. -/
theorem World.Tracked.same (h : w.Tracked lost) (hregistry : w'.registry = w.registry)
    (hstanding : w'.standing? = w.standing?) : w'.Tracked lost := by
  unfold World.Tracked
  rw [hregistry, hstanding]
  exact h

/-- The registry knows all but the lost sessions also after someone has looked around. -/
theorem World.Tracked.looked (h : w.Tracked lost) (looked : w.Looked T w') : w'.Tracked lost := by
  obtain ⟨h₁, c₁, rfl, -, -⟩ := looked
  exact h.same rfl rfl

/-- Whatever comes of the action, the registry then knows all sessions but the lost ones. -/
def Action.LeavesLost (T : Terms H) (a : Action H C Unit) (w : World H C)
    (lost : SessionId → Prop) : Prop :=
  a.Ensures w (fun _ w' => T.fit w'.host ∧ w'.Tracked lost)
    (fun _ w' => T.fit w'.host ∧ w'.Tracked lost)

/-- The lost sessions may be named in another way. -/
theorem Action.LeavesLost.congr {a : Action H C Unit} {lost' : SessionId → Prop}
    (h : a.LeavesLost T w lost) (hsame : ∀ i, lost' i ↔ lost i) : a.LeavesLost T w lost' := by
  have heq : lost' = lost := funext fun i => propext (hsame i)
  rw [heq]
  exact h

/-- An action that only looks loses no session. -/
theorem Action.OnlyLooks.leavesLost {a : Action H C Unit} (ha : Action.OnlyLooks T a)
    (hfit : T.fit w.host) (h : w.Tracked lost) : a.LeavesLost T w lost :=
  (ha w hfit).mono (fun _ _ hlooked => ⟨hlooked.fit, h.looked hlooked⟩)
    (fun _ _ hlooked => ⟨hlooked.fit, h.looked hlooked⟩)

/-- Two sessions that are bound stand alike if they have the same source and are both of the
registry or both not. -/
theorem Session.standing_of_bound {s s' : Session} {binding binding' : Binding}
    (hs : s.binding? = some binding) (hs' : s'.binding? = some binding')
    (hsource : s'.source = s.source) (hregistered : s'.registered = s.registered) :
    s'.standing = s.standing := by
  unfold Session.standing
  rw [hsource, hregistered, Session.state_eq_active_iff.2 ⟨_, hs⟩,
    Session.state_eq_active_iff.2 ⟨_, hs'⟩]

/-- Ending a session that is refused does not get as far as its view. -/
theorem Session.not_leavesView_of_refused {operation : SessionOperation} {reason : EndReason}
    {e : Failure}
    (h : ∀ {Q : Nat × Binding → World H C → Prop} {E : Failure → World H C → Prop},
      (Session.activeBinding operation id).Ensures w Q E ↔ E e w) :
    ¬ Session.LeavesView host id operation reason w := by
  intro hleaves
  unfold Session.LeavesView Session.letGo at hleaves
  rw [Action.ensures_bind, h] at hleaves
  exact hleaves

section

variable {s : Session} {b : Nat} {binding : Binding}

/-- A session that has ended stands as inactive, and the others as they did. -/
theorem World.standing?_ended (hs : w.sessions[id]? = some s) (b : Nat) (reason : EndReason) :
    (w.modifySession id fun s => (s.keeping b []).ended reason).standing? =
      Function.update w.standing? id (some { s.standing with state := .inactive }) :=
  World.seen_modifySession hs _

/-- A session that is let go of is lost unless the registry is told. -/
theorem World.Tracked.stranded (h : w.Tracked lost) (hs : w.sessions[id]? = some s)
    (hbound : s.binding? = some binding) (b : Nat) (reason : EndReason) :
    (w.modifySession id fun s => (s.keeping b []).ended reason).Tracked
      fun i => lost i ∨ i = id := by
  unfold World.Tracked
  rw [World.standing?_ended hs]
  exact Registry.Tracks.stranded h (World.seen_eq hs)
    (Session.state_eq_active_iff.2 ⟨binding, hbound⟩)

/-- The registry knows all but the lost sessions after one has ended and been taken off. -/
theorem World.Tracked.released (h : w.Tracked lost) (hs : w.sessions[id]? = some s)
    (hbound : s.binding? = some binding) (b : Nat) (reason : EndReason) :
    ((w.modifySession id fun s => (s.keeping b []).ended reason).released id s).Tracked lost := by
  have hst : w.standing? id = some s.standing := World.seen_eq hs
  have hactive : s.standing.state = .active := Session.state_eq_active_iff.2 ⟨binding, hbound⟩
  have hcharge : w.sessionFor? s.source = some id :=
    h.lists.sessionFor?_eq ⟨_, hst, rfl, .inl hactive⟩
  have hregistry : ((w.modifySession id fun s =>
      (s.keeping b []).ended reason).released id s).registry =
        w.registry.filter fun e => e.1 ≠ s.source :=
    if_pos ⟨h.registered hst, hcharge⟩
  have hstanding : ((w.modifySession id fun s =>
      (s.keeping b []).ended reason).released id s).standing? =
        Function.update w.standing? id (some { s.standing with state := .inactive }) :=
    World.standing?_ended hs b reason
  unfold World.Tracked
  rw [hregistry, hstanding]
  exact Registry.Tracks.ended h hst hactive

/-- Ending an active session loses it exactly if the host fails to end its view. -/
theorem Session.finish_tracks_of_active (honours : host.Honours T) (hfit : T.fit w.host)
    (h : w.Tracked lost) (hs : w.sessions[id]? = some s) (hbound : s.binding? = some binding)
    (operation : SessionOperation) (reason : EndReason) :
    (Session.finish host id operation reason).Ensures w
      (fun _ w' => T.fit w'.host ∧ ¬ Session.LeavesView host id operation reason w ∧
        w'.Tracked lost)
      (fun _ w' => T.fit w'.host ∧
        (¬ Session.LeavesView host id operation reason w ∧ w'.Tracked lost ∨
        Session.LeavesView host id operation reason w ∧ w'.Tracked fun i => lost i ∨ i = id)) := by
  obtain ⟨b, hb, hbinding⟩ := Session.binding?_eq_some_iff.1 hbound
  rw [Session.finish_eq]
  unfold Session.LeavesView
  refine (Session.letGo_ensures honours hfit hs hb hbinding operation reason).bind_eq ?_ ?_
  · rintro ⟨title, view⟩ _ hlet ⟨rfl, h₁, h₂, c₂, rfl, hfit₂, -, -⟩
    simp only [Action.ensures_of_ok hlet]
    refine (honours.destroyView binding.view _ hfit₂).bind_eq ?_ ?_
    · rintro _ _ hview ⟨h₃, c₃, rfl, hfit₃, -⟩
      simp only [Action.ensures_of_ok hview]
      refine (honours.log _ _ hfit₃).bind ?_ ?_
      · rintro _ _ ⟨h₄, c₄, rfl, hfit₄, -, -⟩
        rw [Session.release_ensures (s := (s.keeping b []).ended reason)
          (World.getElem?_modifySession_self hs _)]
        exact ⟨hfit₄, fun hnever => hnever, h.released hs hbound b reason⟩
      · rintro e _ ⟨h₄, c₄, rfl, hfit₄, hnever, -⟩
        cases hnever
    · rintro e _ hview ⟨h₃, c₃, rfl, hfit₃, -⟩
      simp only [Action.ensures_of_error hview]
      exact ⟨hfit₃, .inr ⟨trivial, h.stranded hs hbound b reason⟩⟩
  · rintro e _ hlet ⟨hfit', -, left, h₁, c₁, rfl⟩
    simp only [Action.ensures_of_error hlet]
    refine ⟨hfit', .inl ⟨fun hnever => hnever, World.Tracked.same h rfl ?_⟩⟩
    exact World.seen_modifySession_same hs (congrArg some (Session.standing_of_bound hbound
      (Session.binding?_keeping hb hbinding left) rfl rfl))

end

/-- Ending a session loses it exactly if the host fails to end its view. -/
theorem Session.finish_leavesLost (honours : host.Honours T) (hfit : T.fit w.host)
    (h : w.Tracked lost) (id : SessionId) (operation : SessionOperation) (reason : EndReason) :
    (Session.finish host id operation reason).LeavesLost T w fun i =>
      lost i ∨ i = id ∧ Session.LeavesView host id operation reason w := by
  have hkept : ∀ {a : Action H C Unit}, ¬ Session.LeavesView host id operation reason w →
      a.LeavesLost T w lost → a.LeavesLost T w fun i =>
        lost i ∨ i = id ∧ Session.LeavesView host id operation reason w :=
    fun hnot ha => ha.congr (by simp [hnot])
  cases hs : w.sessions[id]? with
  | none =>
    refine hkept (Session.not_leavesView_of_refused (Session.activeBinding_of_none hs _)) ?_
    unfold Session.finish Action.LeavesLost
    rw [Action.ensures_bind, Session.activeBinding_of_none hs]
    exact ⟨hfit, h⟩
  | some s =>
    cases hbound : s.binding? with
    | none =>
      refine hkept (Session.not_leavesView_of_refused
        (Session.ensures_activeBinding_of_inactive hs hbound _)) ?_
      unfold Action.LeavesLost
      rw [Session.finish_of_inactive hs hbound]
      exact ⟨hfit, h⟩
    | some binding =>
      refine (Session.finish_tracks_of_active honours hfit h hs hbound operation reason).mono ?_ ?_
      · rintro _ w' ⟨hfit', hnot, h'⟩
        exact ⟨hfit', Registry.Tracks.congr h' (by simp [hnot])⟩
      · rintro e w' ⟨hfit', ⟨hnot, h'⟩ | ⟨hleaves, h'⟩⟩
        · exact ⟨hfit', Registry.Tracks.congr h' (by simp [hnot])⟩
        · exact ⟨hfit', Registry.Tracks.congr h' (by simp [hleaves])⟩

/-! ## Calls -/

/-- The registry knows all but the lost sessions after one has been refreshed. -/
theorem World.Tracked.refreshes (h : w.Tracked lost) {s : Session} {b : Nat} {binding : Binding}
    {r : Except Failure Unit} (hs : w.sessions[id]? = some s) (hb : s.current = some b)
    (hbinding : s.bindings[b]? = some binding)
    (does : Session.Refreshes T w id s b binding r w') : w'.Tracked lost := by
  have hshowing : ∀ lines, (w.modifySession id (Session.showing b lines)).standing? =
      w.standing? := by
    intro lines
    exact World.seen_modifySession_same hs (congrArg some (Session.standing_of_bound
      (Session.binding?_eq_some_iff.2 ⟨b, hb, hbinding⟩)
      (Session.binding?_showing hb hbinding lines) rfl rfl))
  cases does with
  | unrendered renders => exact h.same rfl rfl
  | unnamed renders name => exact h.same rfl (hshowing _)
  | done renders name logs => exact h.same rfl (hshowing _)

/-- Refreshing a session loses none. -/
theorem Session.refresh_leavesLost (honours : host.Honours T) (hfit : T.fit w.host)
    (h : w.Tracked lost) (id : SessionId) : (Session.refresh host id).LeavesLost T w lost := by
  cases hs : w.sessions[id]? with
  | none =>
    unfold Session.refresh Action.LeavesLost
    rw [Action.ensures_bind, Session.activeBinding_of_none hs]
    exact ⟨hfit, h⟩
  | some s =>
    cases hbound : s.binding? with
    | none => exact (Session.refresh_of_inactive hs hbound).2 ⟨hfit, h⟩
    | some binding =>
      obtain ⟨b, hb, hbinding⟩ := Session.binding?_eq_some_iff.1 hbound
      refine (Session.refresh_refreshes honours hfit hs hb hbinding).mono ?_ ?_
      · rintro _ w' ⟨hfit', hdoes⟩
        exact ⟨hfit', h.refreshes hs hb hbinding hdoes⟩
      · rintro _ w' ⟨hfit', hdoes⟩
        exact ⟨hfit', h.refreshes hs hb hbinding hdoes⟩

/-- A session is told of an event. It is lost only by the end of its source. -/
theorem Session.notify_leavesLost (honours : host.Honours T) (hfit : T.fit w.host)
    (h : w.Tracked lost) (id : SessionId) (event : Notice) :
    (Session.notify host id event).LeavesLost T w fun i =>
      lost i ∨ (i = id ∧ event = .destroy ∧
        Session.LeavesView host id .sourceDestroyed .sourceDestroyed w) := by
  have hkept : ∀ {a : Action H C Unit},
      ¬ Session.LeavesView host id .sourceDestroyed .sourceDestroyed w →
      a.LeavesLost T w lost → a.LeavesLost T w fun i =>
        lost i ∨ (i = id ∧ event = .destroy ∧
          Session.LeavesView host id .sourceDestroyed .sourceDestroyed w) :=
    fun hnot ha => ha.congr (by simp [hnot])
  cases hs : w.sessions[id]? with
  | none =>
    refine hkept (Session.not_leavesView_of_refused (Session.activeBinding_of_none hs _)) ?_
    unfold Session.notify Session.find Action.LeavesLost
    simp only [Action.ensures_bind, Action.ensures_get, hs, Action.ensures_throw]
    exact ⟨hfit, h⟩
  | some s =>
    cases hbound : s.binding? with
    | none =>
      refine hkept (Session.not_leavesView_of_refused
        (Session.ensures_activeBinding_of_inactive hs hbound _)) ?_
      unfold Session.notify Action.LeavesLost
      rw [Action.ensures_bind, Session.ensures_find hs]
      simp only [hbound, Option.isSome_none, Bool.false_eq_true, if_false]
      exact ((Action.OnlyLooks.title honours id).bind fun _ =>
        Action.OnlyLooks.log honours _).leavesLost hfit h
    | some binding =>
      refine (Session.notify_of_active hs hbound event).2 ?_
      cases event with
      | commit => exact (Session.refresh_leavesLost honours hfit h id).congr (by simp)
      | destroy =>
        exact (Session.finish_leavesLost honours hfit h id _ _).congr (by simp)

/-- The registry knows all but the lost sessions when a new one is made. -/
theorem World.Tracked.freshSession (h : w.Tracked lost) (source : SourceId)
    (settings : Settings) : (w.withSession (freshSession source settings)).Tracked lost := by
  have hstanding : (w.withSession (TreeInspector.freshSession source settings)).standing? =
      Function.update w.standing? w.sessions.length (some ⟨source, true, .inactive⟩) :=
    w.seen_withSession _ _
  unfold World.Tracked
  rw [hstanding]
  exact Registry.Tracks.created h (w.seen_length _)

/-- The registry knows all but the lost sessions when a new one is put in charge. -/
theorem World.Tracked.opens (h : w.Tracked lost) {source : SourceId} {settings : Settings}
    {w₁ : World H C} (free : ∀ id, (source, id) ∉ w.registry)
    (does : Session.Enables T (w.withSession (TreeInspector.freshSession source settings))
      w.sessions.length (TreeInspector.freshSession source settings) (.ok ()) w₁) :
    World.Tracked lost { w₁ with registry := w₁.registry ++ [(source, w.sessions.length)] } := by
  have hs : (w.withSession (TreeInspector.freshSession source settings)).sessions[
      w.sessions.length]? = some (TreeInspector.freshSession source settings) := by
    simp [World.withSession]
  cases does with
  | @done _ _ _ binding _ _ _ _ _ name makes binds logs =>
    have hstanding : ((w.withSession (TreeInspector.freshSession source settings)).modifySession
        w.sessions.length (Session.bound binding)).standing? =
        Function.update w.standing? w.sessions.length (some ⟨source, true, .active⟩) := by
      refine (World.seen_modifySession hs _).trans ?_
      rw [World.seen_withSession, Function.update_idem]
      unfold Session.standing Session.state
      rw [Session.binding?_bound]
      rfl
    have hopened := Registry.Tracks.opened h (w.seen_length _) free
    rw [← hstanding] at hopened
    exact hopened

/-- A call that is to end a session loses that one if the host fails to end its view, and no other.
-/
theorem Call.loses_iff {c : Call} {operation : SessionOperation} {reason : EndReason}
    (hc : c.ending? = some (id, operation, reason)) (i : SessionId) :
    c.Loses host w i ↔ i = id ∧ Session.LeavesView host id operation reason w := by
  unfold Call.Loses
  rw [hc]
  constructor
  · rintro ⟨operation', reason', hsame, hleaves⟩
    cases hsame
    exact ⟨rfl, hleaves⟩
  · rintro ⟨rfl, hleaves⟩
    exact ⟨operation, reason, rfl, hleaves⟩

/-- A call that is to end no session loses none. -/
theorem Call.not_loses {c : Call} (hc : c.ending? = none) (i : SessionId) :
    ¬ c.Loses host w i := by
  rintro ⟨operation, reason, hsome, -⟩
  rw [hc] at hsome
  cases hsome

/-- Enabling a view loses no session. -/
theorem Registry.enable_leavesLost (honours : host.Honours T) (hfit : T.fit w.host)
    (h : w.Tracked lost) (source : SourceId) (settings : Settings) :
    (Call.run host (.enable source settings)).LeavesLost T w lost := by
  unfold Call.run Action.LeavesLost
  rw [Action.ensures_bind]
  cases hfor : w.sessionFor? source with
  | some existing =>
    refine (Registry.enable_of_taken honours hfit hfor).mono (fun _ _ hnever => hnever.elim) ?_
    intro e w' hlooked
    exact ⟨hlooked.fit, h.looked hlooked⟩
  | none =>
    have hfree := World.sessionFor?_eq_none_iff.1 hfor
    refine (Registry.enable_of_free honours hfit hfree).mono ?_ ?_
    · rintro id _ ⟨-, hfit', w₁, rfl, hdoes⟩
      exact ⟨hfit', h.opens hfree hdoes⟩
    · rintro e w' ⟨hfit', hdoes⟩
      have hcreated := h.freshSession source settings
      cases hdoes with
      | unnamed name => exact ⟨hfit', hcreated.same rfl rfl⟩
      | noView name view => exact ⟨hfit', hcreated.same rfl rfl⟩
      | undone name makes binds tidies clears => exact ⟨hfit', hcreated.same rfl rfl⟩

/-- Whatever is called, the sessions lost in it are the only ones that the registry loses track
of. -/
theorem Call.run_leavesLost (honours : host.Honours T) (hfit : T.fit w.host)
    (h : w.Tracked lost) (c : Call) :
    (c.run host).LeavesLost T w fun i => lost i ∨ c.Loses host w i := by
  have hkeeps : ∀ {a : Action H C Unit}, c.ending? = none → a.LeavesLost T w lost →
      a.LeavesLost T w fun i => lost i ∨ c.Loses host w i := by
    intro a hc ha
    exact ha.congr fun i => or_iff_left (Call.not_loses hc i)
  have hends : ∀ {id operation reason}, c.ending? = some (id, operation, reason) →
      (Session.finish host id operation reason).LeavesLost T w
        fun i => lost i ∨ c.Loses host w i := by
    intro id operation reason hc
    exact (Session.finish_leavesLost honours hfit h id operation reason).congr
      fun i => or_congr_right (Call.loses_iff hc i)
  cases c with
  | enable source settings => exact hkeeps rfl (Registry.enable_leavesLost honours hfit h _ _)
  | disable id => exact hends rfl
  | navigate id index =>
    exact hkeeps rfl (((Action.OnlyLooks.logged honours id (.navigate honours id index)).bind
      fun _ => .pure _).leavesLost hfit h)
  | jump id target =>
    exact hkeeps rfl (((Action.OnlyLooks.logged honours id (.jump honours id target)).bind
      fun _ => .pure _).leavesLost hfit h)
  | disableSession id => exact hends rfl
  | refresh id => exact hkeeps rfl (Session.refresh_leavesLost honours hfit h id)
  | sourceDestroyed id => exact hends rfl
  | notify id event =>
    have hnotify := Session.notify_leavesLost honours hfit h id event
    cases event with
    | commit => exact hkeeps rfl (hnotify.congr (by simp))
    | destroy =>
      exact hnotify.congr fun i => or_congr_right ((Call.loses_iff rfl i).trans (by simp))

/-! ## Runs -/

/-- The calls that a step makes, unless one of them fails. -/
def Step.calls (w : World H C) : Step → List Call
  | .call c => [c]
  | .announce event listeners => listeners.map (.notify · event)
  | .dispose => w.registry.map (.disableSession ·.2)

/-- A step is its calls, one after another. -/
theorem Step.run_eq (host : Host H C) (step : Step) (w : World H C) :
    step.run host w = ((step.calls w).forM fun c => c.run host : Action H C Unit) w := by
  have hmap : ∀ {α : Type} (f : α → Call) (xs : List α),
      ((xs.map f).forM fun c => c.run host : Action H C Unit) =
        xs.forM fun x => (f x).run host := by
    intro α f xs
    induction xs with
    | nil => rfl
    | cons x xs ih => exact congrArg (fun rest => (f x).run host >>= fun _ => rest) ih
  cases step with
  | call c => exact (congrFun (bind_pure_unit (x := c.run host)) w).symm
  | announce event listeners => exact (congrFun (hmap (.notify · event) listeners) w).symm
  | dispose =>
    have hdispose : Registry.dispose host w =
        ((w.registry.map (·.2)).forM (Session.disable host) : Action H C Unit) w := rfl
    have hids : w.registry.map (fun e => Call.disableSession e.2) =
        (w.registry.map (·.2)).map .disableSession := by
      rw [List.map_map]
      rfl
    unfold Step.calls
    rw [hids, hmap]
    exact hdispose

/-- The worlds that a run reaches, with the sessions that were lost on the way. Any call of the host
may fail at any time. -/
inductive Run (host : Host H C) (T : Terms H) : World H C → (SessionId → Prop) → Prop where
  | start {w : World H C} (noSessions : w.sessions = []) (noEntries : w.registry = [])
      (fits : T.fit w.host) : Run host T w fun _ => False
  | step {w : World H C} {lost : SessionId → Prop} (before : Run host T w lost) (step : Step) :
      Run host T ((step.run host).outcome w).2 (lostAfter host (step.calls w) w lost)
  | aside {w : World H C} {lost : SessionId → Prop} {h : H} {c : C} (before : Run host T w lost)
      (fits : T.fit h) : Run host T (w.beside h c) lost

/-- Calls one after another lose the sessions that each of them loses. -/
theorem Call.forM_leavesLost (honours : host.Honours T) (calls : List Call) :
    ∀ {w : World H C} {lost : SessionId → Prop}, T.fit w.host → w.Tracked lost →
      (calls.forM fun c => c.run host : Action H C Unit).LeavesLost T w
        (lostAfter host calls w lost) := by
  induction calls with
  | nil =>
    intro w lost hfit h
    exact ⟨hfit, h⟩
  | cons c calls ih =>
    intro w lost hfit h
    refine (c.run_leavesLost honours hfit h).bind_eq ?_ ?_
    · rintro _ w' hr ⟨hfit', h'⟩
      have hlost : lostAfter host (c :: calls) w lost =
          lostAfter host calls w' fun i => lost i ∨ c.Loses host w i := by
        rw [lostAfter, hr]
      rw [hlost]
      exact ih hfit' h'
    · rintro e w' hr ⟨hfit', h'⟩
      have hlost : lostAfter host (c :: calls) w lost = fun i => lost i ∨ c.Loses host w i := by
        rw [lostAfter, hr]
      rw [hlost]
      exact ⟨hfit', h'⟩

/-- All along a run the registry knows all sessions but the lost ones. -/
theorem Run.tracked (honours : host.Honours T) (run : Run host T w lost) :
    T.fit w.host ∧ w.Tracked lost := by
  induction run with
  | @start w noSessions noEntries fits =>
    have hnone : ∀ id, w.standing? id = none := by
      intro id
      simp [World.standing?, World.seen, noSessions]
    refine ⟨fits, ⟨?_, ?_, ?_⟩, ?_, fun hlost => hlost.elim⟩
    · simp [noEntries]
    · simp [hnone]
    · simp [noEntries, hnone]
    · simp [hnone]
  | @step w lost _ step ih =>
    have hleaves := Call.forM_leavesLost honours (step.calls w) ih.1 ih.2
    have hsame : (step.run host).outcome w =
        ((step.calls w).forM fun c => c.run host : Action H C Unit).outcome w := by
      unfold Action.outcome
      rw [Step.run_eq]
    rw [hsame]
    exact Action.Ensures.outcome (P := fun _ w' => T.fit w'.host ∧ w'.Tracked _) hleaves
  | aside _ fits ih => exact ⟨fits, ih.2.same rfl rfl⟩

/-- The registry and the active sessions differ by the lost sessions, and by nothing else. -/
structure World.AccountedFor (host : Host H C) (lost : SessionId → Prop) (w : World H C) :
    Prop where
  oneEach : (w.registry.map (·.1)).Nodup
  listed : ∀ source id, (source, id) ∈ w.registry ↔
    ∃ s, w.sessions[id]? = some s ∧ s.source = source ∧ (s.state = .active ∨ lost id)
  /-- A lost session is not active, and yet its source cannot be viewed again. -/
  blocking : ∀ id, lost id → ∃ s, w.sessions[id]? = some s ∧ s.state = .inactive ∧
    ∀ settings, (Registry.enable host s.source settings).Ensures w
      (fun _ _ => False) (fun _ _ => True)
  /-- In charge are exactly the active sessions if and only if none has been lost. -/
  registered_iff_active :
    (∀ source id, (source, id) ∈ w.registry ↔ ∃ s, w.Active id s ∧ s.source = source) ↔
      ∀ id, ¬ lost id
  /-- A view is refused only because of an active session if and only if none has been lost. -/
  refused_iff_active :
    (∀ source id, w.sessionFor? source = some id → ∃ s, w.Active id s) ↔ ∀ id, ¬ lost id

/-- After every step of a run in which any call of the host may fail, the sessions in charge of a
source are the active ones, and those whose view the host failed to end when they were closed. -/
theorem Run.accountedFor (honours : host.Honours T) (run : Run host T w lost) :
    w.AccountedFor host lost := by
  obtain ⟨hfit, h⟩ := run.tracked honours
  have hlisted : ∀ source id, (source, id) ∈ w.registry ↔
      ∃ s, w.sessions[id]? = some s ∧ s.source = source ∧ (s.state = .active ∨ lost id) := by
    intro source id
    rw [h.lists.listed]
    constructor
    · rintro ⟨st, hst, hsource, hstate⟩
      obtain ⟨s, hs, hsame⟩ := Option.bind_eq_some_iff.1 hst
      cases hsame
      exact ⟨s, hs, hsource, hstate⟩
    · rintro ⟨s, hs, hsource, hstate⟩
      exact ⟨s.standing, World.seen_eq hs, hsource, hstate⟩
  have hidle : ∀ {id}, lost id → ∃ s, w.sessions[id]? = some s ∧ s.state = .inactive := by
    intro id hlost
    obtain ⟨st, hst, hstate⟩ := h.idle hlost
    obtain ⟨s, hs, hsame⟩ := Option.bind_eq_some_iff.1 hst
    cases hsame
    exact ⟨s, hs, hstate⟩
  -- The entry of a lost session belongs to a session that is not active.
  have hstale : ∀ {id}, lost id → ∃ source, (source, id) ∈ w.registry ∧ ¬ ∃ s, w.Active id s := by
    intro id hlost
    obtain ⟨s, hs, hstate⟩ := hidle hlost
    refine ⟨s.source, (hlisted _ _).2 ⟨s, hs, rfl, .inr hlost⟩, ?_⟩
    rintro ⟨s', hs', hactive⟩
    rw [hs] at hs'
    cases hs'
    rw [hstate] at hactive
    cases hactive
  refine ⟨h.lists.oneEach, hlisted, ?_, ⟨?_, ?_⟩, ⟨?_, ?_⟩⟩
  · intro id hlost
    obtain ⟨s, hs, hstate⟩ := hidle hlost
    refine ⟨s, hs, hstate, fun settings => ?_⟩
    have htaken : w.sessionFor? s.source = some id :=
      (World.sessionFor?_eq_some_iff h.lists.oneEach).2
        ((hlisted _ _).2 ⟨s, hs, rfl, .inr hlost⟩)
    exact (Registry.enable_of_taken honours hfit htaken).mono (fun _ _ hnever => hnever)
      (fun _ _ _ => trivial)
  · intro hactive id hlost
    obtain ⟨source, hmem, hnot⟩ := hstale hlost
    obtain ⟨s, hs, -⟩ := (hactive source id).1 hmem
    exact hnot ⟨s, hs⟩
  · intro hnone source id
    rw [hlisted]
    simp only [World.Active, hnone, or_false]
    exact exists_congr fun s => by rw [and_assoc, and_comm (a := s.source = source)]
  · intro hactive id hlost
    obtain ⟨source, hmem, hnot⟩ := hstale hlost
    exact hnot (hactive source id ((World.sessionFor?_eq_some_iff h.lists.oneEach).2 hmem))
  · intro hnone source id hfor
    obtain ⟨s, hs, -, hactive | hlost⟩ := (hlisted _ _).1 (World.mem_of_sessionFor?_eq_some hfor)
    · exact ⟨s, hs, hactive⟩
    · exact (hnone id hlost).elim

end

end TreeInspector
