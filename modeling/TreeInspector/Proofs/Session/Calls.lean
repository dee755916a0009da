import Mathlib.Logic.Relation
import TreeInspector.Proofs.Session.Lifecycle

/-!
# Calls into the inspector

A run consists of calls: views are turned on and off, jumps are made, sources announce commits and
their end. `Call.run_does` is the one place where all of them are taken apart: whatever is called,
the host is only looked at, or one session is refreshed, or one is ended, or one is opened. A step
of a run is a call, an announcement to several sessions, or the end of all sessions in charge; the
last two tend to one session after another (`Step.run_does`).
-/

set_option autoImplicit false

namespace TreeInspector

section

variable {H C α β : Type} {T : Terms H} {host : Host H C}

/-! ## Actions that only look around -/

/-- Nothing happened but calls that look at sources, move the focus or write to the log. -/
def World.Looked (T : Terms H) (w w' : World H C) : Prop :=
  ∃ h c, w' = w.beside h c ∧ T.fit h ∧ T.LooksAround w.host h

/-- Whatever comes of the action, it only looks around. -/
def Action.OnlyLooks (T : Terms H) (a : Action H C α) : Prop :=
  ∀ w, T.fit w.host → a.Ensures w (fun _ w' => w.Looked T w') (fun _ w' => w.Looked T w')

/-- Looking around twice is looking around. -/
theorem Terms.LooksAround.trans {h₁ h₂ h₃ : H} (first : T.LooksAround h₁ h₂)
    (second : T.LooksAround h₂ h₃) : T.LooksAround h₁ h₃ := by
  induction first with
  | done h => exact second
  | isAvailable call _ ih => exact .isAvailable call (ih second)
  | sourceName call _ ih => exact .sourceName call (ih second)
  | focus call _ ih => exact .focus call (ih second)
  | log call _ ih => exact .log call (ih second)

namespace World.Looked

/-- Nothing needs to be looked at. -/
theorem refl {w : World H C} (hfit : T.fit w.host) : w.Looked T w :=
  ⟨w.host, w.client, rfl, hfit, .done w.host⟩

/-- A look leaves the host fit. -/
theorem fit {w w' : World H C} (h : w.Looked T w') : T.fit w'.host := by
  obtain ⟨h₁, c₁, rfl, hfit₁, -⟩ := h
  exact hfit₁

/-- Two looks are a look. -/
theorem trans {w₁ w₂ w₃ : World H C} (first : w₁.Looked T w₂) (second : w₂.Looked T w₃) :
    w₁.Looked T w₃ := by
  obtain ⟨h₁, c₁, rfl, -, hlooks₁⟩ := first
  obtain ⟨h₂, c₂, rfl, hfit₂, hlooks₂⟩ := second
  exact ⟨h₂, c₂, rfl, hfit₂, hlooks₁.trans hlooks₂⟩

end World.Looked

namespace Action.OnlyLooks

/-- An action that does nothing only looks. -/
theorem pure (x : α) : OnlyLooks T (pure x : Action H C α) := fun _ hfit => .refl hfit

/-- An action that only fails only looks. -/
theorem throw (e : Failure) : OnlyLooks T (throw e : Action H C α) := fun _ hfit => .refl hfit

/-- Two actions that only look, one after the other, only look. -/
theorem bind {a : Action H C α} {f : α → Action H C β} (ha : OnlyLooks T a)
    (hf : ∀ x, OnlyLooks T (f x)) : OnlyLooks T (a >>= f) := by
  intro w hfit
  refine (ha w hfit).bind ?_ (fun _ _ h => h)
  intro x w₁ hlooked
  refine (hf x w₁ hlooked.fit).mono ?_ ?_
  · intro _ _ h
    exact hlooked.trans h
  · intro _ _ h
    exact hlooked.trans h

/-- An attempt at an action that only looks only looks. -/
theorem attempt {a : Action H C α} (ha : OnlyLooks T a) : OnlyLooks T a.attempt := by
  intro w hfit
  rw [Action.ensures_attempt]
  exact ha w hfit

/-- Looking for a session only looks. -/
theorem find (id : SessionId) : OnlyLooks T (Session.find id : Action H C Session) := by
  intro w hfit
  unfold Session.find
  rw [Action.ensures_bind, Action.ensures_get]
  cases w.sessions[id]? with
  | none => exact .refl hfit
  | some s => exact .refl hfit

/-- A call of the host that the terms allow in between is only a look. -/
theorem of_obeys {a : Action H C α} {R : H → Except Failure α → H → Prop}
    (ha : a.Obeys T.fit R) (hR : ∀ h₁ r h₂, R h₁ r h₂ → T.LooksAround h₁ h₂) :
    OnlyLooks T a := by
  intro w hfit
  refine (ha w hfit).mono ?_ ?_
  · rintro _ _ ⟨h₁, c₁, rfl, hfit₁, hcall⟩
    exact ⟨h₁, c₁, rfl, hfit₁, hR _ _ _ hcall⟩
  · rintro _ _ ⟨h₁, c₁, rfl, hfit₁, hcall⟩
    exact ⟨h₁, c₁, rfl, hfit₁, hR _ _ _ hcall⟩

/-- Asking whether a source is available only looks. -/
theorem isAvailable (honours : host.Honours T) (source : SourceId) :
    OnlyLooks T (host.isAvailable source) :=
  of_obeys (honours.isAvailable source) fun _ _ h₂ call => .isAvailable call (.done h₂)

/-- Moving the focus only looks. -/
theorem focus (honours : host.Honours T) (source : SourceId) (span : Span) (highlight : Bool) :
    OnlyLooks T (host.focus source span highlight) :=
  of_obeys (honours.focus source span highlight) fun _ _ h₂ call => .focus call (.done h₂)

/-- Logging only looks. -/
theorem log (honours : host.Honours T) (message : String) : OnlyLooks T (host.log message) :=
  of_obeys (honours.log message) fun _ _ h₂ call => .log call.2 (.done h₂)

/-- Asking for the title of a session only looks. -/
theorem title (honours : host.Honours T) (id : SessionId) :
    OnlyLooks T (Session.title host id) :=
  (find id).bind fun s =>
    of_obeys (honours.sourceName s.source) fun _ _ h₂ call => .sourceName call (.done h₂)

/-- Checking that a session is bound only looks. -/
theorem checkBound (honours : host.Honours T) (id : SessionId) :
    OnlyLooks T (Session.checkBound host id) := by
  refine (find id).bind fun s => ?_
  cases s.state with
  | active => exact pure _
  | inactive =>
    by_cases hreason : s.endReason = some .sourceDestroyed
    · simp only [hreason, if_true]
      exact (title honours id).bind fun _ => throw _
    · simp only [hreason, if_false]
      exact throw _

/-- A jump only looks. -/
theorem jump (honours : host.Honours T) (id : SessionId) (target : Target) :
    OnlyLooks T (Session.jump host id target) := by
  refine (checkBound honours id).bind fun _ => ?_
  cases target.span with
  | none => exact throw _
  | some span =>
    refine (find id).bind fun s => (isAvailable honours s.source).bind fun available => ?_
    cases available with
    | true => exact (find id).bind fun s' => (focus honours _ _ _).bind fun _ => pure _
    | false => exact (title honours id).bind fun _ => throw _

/-- Navigating only looks. -/
theorem navigate (honours : host.Honours T) (id : SessionId) (index : Number) :
    OnlyLooks T (Session.navigate host id index) := by
  refine (checkBound honours id).bind fun _ => (find id).bind fun s => ?_
  dsimp only
  split
  · exact jump honours id _
  · exact throw _

/-- Logging how a jump ended only looks. -/
theorem logged (honours : host.Honours T) (id : SessionId) {a : Action H C Session.Jump}
    (ha : OnlyLooks T a) : OnlyLooks T (Registry.logged host id a) := by
  have hguarded : OnlyLooks T (do
      let result ← a
      let title ← Session.title host id
      host.log ("Navigated " ++ title ++ " to " ++ result.span.text ++ ".")
      return result : Action H C Session.Jump) :=
    ha.bind fun _ => (title honours id).bind fun _ => (log honours _).bind fun _ => pure _
  refine hguarded.attempt.bind fun result => ?_
  cases result with
  | ok r => exact pure r
  | error e => exact (log honours _).bind fun _ => throw e

end Action.OnlyLooks

/-! ## Calls -/

/-- What may be called on behalf of a source or a session. The last three come from the host: it
calls on a session to refresh, to end, or to take in an event. -/
inductive Call where
  | enable (source : SourceId) (settings : Settings)
  | disable (id : SessionId)
  | navigate (id : SessionId) (index : Number)
  | jump (id : SessionId) (target : Target)
  | disableSession (id : SessionId)
  | refresh (id : SessionId)
  | sourceDestroyed (id : SessionId)
  | notify (id : SessionId) (event : Notice)

/-- Carries out a call. -/
def Call.run (host : Host H C) : Call → Action H C Unit
  | .enable source settings => do
    let _ ← Registry.enable host source settings
  | .disable id => Registry.disable host id
  | .navigate id index => do
    let _ ← Registry.navigate host id index
  | .jump id target => do
    let _ ← Registry.jump host id target
  | .disableSession id => Session.disable host id
  | .refresh id => Session.refresh host id
  | .sourceDestroyed id => Session.sourceDestroyed host id
  | .notify id event => Session.notify host id event

/-- The session that enabling the view of a source makes. -/
def freshSession (source : SourceId) (settings : Settings) : Session :=
  { source, options := settings.resolve, registered := true }

/-- What an operation on one existing session can do: it only looks, or refreshes that session, or
ends it. -/
inductive Session.TendsTo (T : Terms H) (w : World H C) (id : SessionId) :
    Except Failure Unit → World H C → Prop where
  | looks {r : Except Failure Unit} {w' : World H C} (looked : w.Looked T w') :
      Session.TendsTo T w id r w'
  | refreshes {s : Session} {b : Nat} {binding : Binding} {r : Except Failure Unit}
      {w' : World H C} (session : w.sessions[id]? = some s) (current : s.current = some b)
      (bound : s.bindings[b]? = some binding)
      (does : Session.Refreshes T w id s b binding r w') : Session.TendsTo T w id r w'
  | finishes {s : Session} {b : Nat} {binding : Binding} {reason : EndReason}
      {r : Except Failure Unit} {w' : World H C} (session : w.sessions[id]? = some s)
      (current : s.current = some b) (bound : s.bindings[b]? = some binding)
      (does : Session.Finishes T w id s b binding reason r w') : Session.TendsTo T w id r w'

/-- What an operation on some existing session can do: it only looks, or refreshes the session, or
ends it. -/
inductive Session.Tends (T : Terms H) (w : World H C) :
    Except Failure Unit → World H C → Prop where
  | looks {r : Except Failure Unit} {w' : World H C} (looked : w.Looked T w') :
      Session.Tends T w r w'
  | refreshes {id : SessionId} {s : Session} {b : Nat} {binding : Binding}
      {r : Except Failure Unit} {w' : World H C} (session : w.sessions[id]? = some s)
      (current : s.current = some b) (bound : s.bindings[b]? = some binding)
      (does : Session.Refreshes T w id s b binding r w') : Session.Tends T w r w'
  | finishes {id : SessionId} {s : Session} {b : Nat} {binding : Binding} {reason : EndReason}
      {r : Except Failure Unit} {w' : World H C} (session : w.sessions[id]? = some s)
      (current : s.current = some b) (bound : s.bindings[b]? = some binding)
      (does : Session.Finishes T w id s b binding reason r w') : Session.Tends T w r w'

/-- What a call can do. -/
inductive Call.Does (T : Terms H) (w : World H C) : Except Failure Unit → World H C → Prop where
  | tends {r : Except Failure Unit} {w' : World H C} (tends : Session.Tends T w r w') :
      Call.Does T w r w'
  | staysClosed {source : SourceId} {settings : Settings} {e : Failure} {w' : World H C}
      (free : ∀ id, (source, id) ∉ w.registry)
      (does : Session.Enables T (w.withSession (freshSession source settings)) w.sessions.length
        (freshSession source settings) (.error e) w') : Call.Does T w (.error e) w'
  | opens {source : SourceId} {settings : Settings} {w₁ : World H C}
      (free : ∀ id, (source, id) ∉ w.registry)
      (does : Session.Enables T (w.withSession (freshSession source settings)) w.sessions.length
        (freshSession source settings) (.ok ()) w₁) :
      Call.Does T w (.ok ())
        { w₁ with registry := w₁.registry ++ [(source, w.sessions.length)] }

/-- What tends to a given session tends to some session. -/
theorem Session.TendsTo.tends {w w' : World H C} {id : SessionId} {r : Except Failure Unit}
    (h : Session.TendsTo T w id r w') : Session.Tends T w r w' := by
  cases h with
  | looks looked => exact .looks looked
  | refreshes session current bound does => exact .refreshes session current bound does
  | finishes session current bound does => exact .finishes session current bound does

/-- Whatever comes of the action in this world, it only tends to the given session. -/
def Action.TendsTo (T : Terms H) (a : Action H C Unit) (id : SessionId) (w : World H C) : Prop :=
  a.Ensures w (fun _ w' => T.fit w'.host ∧ Session.TendsTo T w id (.ok ()) w')
    (fun e w' => T.fit w'.host ∧ Session.TendsTo T w id (.error e) w')

/-- Whatever comes of the action in this world, it only tends to a session. -/
def Action.Tends (T : Terms H) (a : Action H C Unit) (w : World H C) : Prop :=
  a.Ensures w (fun _ w' => T.fit w'.host ∧ Session.Tends T w (.ok ()) w')
    (fun e w' => T.fit w'.host ∧ Session.Tends T w (.error e) w')

/-- Whatever comes of the action in this world, it is something that a call can do. -/
def Action.DoesCall (T : Terms H) (a : Action H C Unit) (w : World H C) : Prop :=
  a.Ensures w (fun _ w' => T.fit w'.host ∧ Call.Does T w (.ok ()) w')
    (fun e w' => T.fit w'.host ∧ Call.Does T w (.error e) w')

/-- An action that tends to a given session tends to some session. -/
theorem Action.TendsTo.tends {a : Action H C Unit} {id : SessionId} {w : World H C}
    (ha : a.TendsTo T id w) : a.Tends T w :=
  ha.mono (fun _ _ h => ⟨h.1, h.2.tends⟩) (fun _ _ h => ⟨h.1, h.2.tends⟩)

/-- An action that only looks tends to any session. -/
theorem Action.OnlyLooks.tendsTo {a : Action H C Unit} (ha : Action.OnlyLooks T a)
    {w : World H C} (hfit : T.fit w.host) (id : SessionId) : a.TendsTo T id w :=
  (ha w hfit).mono (fun _ _ h => ⟨h.fit, .looks h⟩) (fun _ _ h => ⟨h.fit, .looks h⟩)

/-- An action that only looks tends to some session. -/
theorem Action.OnlyLooks.tends {a : Action H C Unit} (ha : Action.OnlyLooks T a)
    {w : World H C} (hfit : T.fit w.host) : a.Tends T w :=
  (ha w hfit).mono (fun _ _ h => ⟨h.fit, .looks h⟩) (fun _ _ h => ⟨h.fit, .looks h⟩)

/-- An action that tends to a session does what a call can do. -/
theorem Action.Tends.doesCall {a : Action H C Unit} {w : World H C} (ha : a.Tends T w) :
    a.DoesCall T w :=
  ha.mono (fun _ _ h => ⟨h.1, .tends h.2⟩) (fun _ _ h => ⟨h.1, .tends h.2⟩)

namespace Session

/-- A session that does not exist is not found, so that an operation which needs its binding
stops there. -/
theorem activeBinding_of_none {w : World H C} {id : SessionId} (hs : w.sessions[id]? = none)
    (operation : SessionOperation) {Q : Nat × Binding → World H C → Prop}
    {E : Failure → World H C → Prop} :
    (activeBinding operation id).Ensures w Q E ↔ E (.noSuch .session id) w := by
  unfold activeBinding find
  simp only [Action.ensures_bind, Action.ensures_get, hs, Action.ensures_throw]

/-- What holds after looks, and after all that ending an active session can do, holds after an
operation that ends a session if it is active. -/
theorem finish_ensures (honours : host.Honours T) {w : World H C} (hfit : T.fit w.host)
    (id : SessionId) (operation : SessionOperation) (reason : EndReason)
    {Q : Except Failure Unit → World H C → Prop} (looks : ∀ {r w'}, w.Looked T w' → Q r w')
    (finishes : ∀ {s b binding r w'}, w.sessions[id]? = some s → s.current = some b →
      s.bindings[b]? = some binding → Finishes T w id s b binding reason r w' → Q r w') :
    (finish host id operation reason).Ensures w (fun _ w' => T.fit w'.host ∧ Q (.ok ()) w')
      (fun e w' => T.fit w'.host ∧ Q (.error e) w') := by
  cases hs : w.sessions[id]? with
  | none =>
    unfold finish
    rw [Action.ensures_bind, activeBinding_of_none hs]
    exact ⟨hfit, looks (.refl hfit)⟩
  | some s =>
    cases hbound : s.binding? with
    | none => exact (finish_of_inactive hs hbound operation reason).2 ⟨hfit, looks (.refl hfit)⟩
    | some binding =>
      obtain ⟨b, hb, hbinding⟩ := binding?_eq_some_iff.1 hbound
      exact (finish_finishes honours hfit hs hb hbinding operation reason).mono
        (fun _ _ h => ⟨h.1, finishes hs hb hbinding h.2⟩)
        (fun _ _ h => ⟨h.1, finishes hs hb hbinding h.2⟩)

/-- Ending a session tends to it. -/
theorem finish_tendsTo (honours : host.Honours T) {w : World H C} (hfit : T.fit w.host)
    (id : SessionId) (operation : SessionOperation) (reason : EndReason) :
    (finish host id operation reason).TendsTo T id w :=
  finish_ensures honours hfit id operation reason .looks .finishes

/-- Ending a session tends to some session. -/
theorem finish_tends (honours : host.Honours T) {w : World H C} (hfit : T.fit w.host)
    (id : SessionId) (operation : SessionOperation) (reason : EndReason) :
    (finish host id operation reason).Tends T w :=
  (finish_tendsTo honours hfit id operation reason).tends

/-- As `finish_ensures`, for refreshing a session. -/
theorem refresh_ensures (honours : host.Honours T) {w : World H C} (hfit : T.fit w.host)
    (id : SessionId) {Q : Except Failure Unit → World H C → Prop}
    (looks : ∀ {r w'}, w.Looked T w' → Q r w')
    (refreshes : ∀ {s b binding r w'}, w.sessions[id]? = some s → s.current = some b →
      s.bindings[b]? = some binding → Refreshes T w id s b binding r w' → Q r w') :
    (refresh host id).Ensures w (fun _ w' => T.fit w'.host ∧ Q (.ok ()) w')
      (fun e w' => T.fit w'.host ∧ Q (.error e) w') := by
  cases hs : w.sessions[id]? with
  | none =>
    unfold refresh
    rw [Action.ensures_bind, activeBinding_of_none hs]
    exact ⟨hfit, looks (.refl hfit)⟩
  | some s =>
    cases hbound : s.binding? with
    | none => exact (refresh_of_inactive hs hbound).2 ⟨hfit, looks (.refl hfit)⟩
    | some binding =>
      obtain ⟨b, hb, hbinding⟩ := binding?_eq_some_iff.1 hbound
      exact (refresh_refreshes honours hfit hs hb hbinding).mono
        (fun _ _ h => ⟨h.1, refreshes hs hb hbinding h.2⟩)
        (fun _ _ h => ⟨h.1, refreshes hs hb hbinding h.2⟩)

/-- Refreshing a session tends to it. -/
theorem refresh_tendsTo (honours : host.Honours T) {w : World H C} (hfit : T.fit w.host)
    (id : SessionId) : (refresh host id).TendsTo T id w :=
  refresh_ensures honours hfit id .looks .refreshes

/-- Refreshing a session tends to some session. -/
theorem refresh_tends (honours : host.Honours T) {w : World H C} (hfit : T.fit w.host)
    (id : SessionId) : (refresh host id).Tends T w :=
  (refresh_tendsTo honours hfit id).tends

/-- A session that is bound takes in an event by refreshing or by ending. -/
theorem notify_of_active {w : World H C} {id : SessionId} {s : Session} {binding : Binding}
    (hs : w.sessions[id]? = some s) (hbound : s.binding? = some binding) (event : Notice)
    {Q : Unit → World H C → Prop} {E : Failure → World H C → Prop} :
    (notify host id event).Ensures w Q E ↔
      (match event with
        | .commit => refresh host id
        | .destroy => sourceDestroyed host id).Ensures w Q E := by
  have hsome : s.binding?.isSome = true := by rw [hbound, Option.isSome_some]
  unfold notify
  rw [Action.ensures_bind, ensures_find hs]
  exact iff_of_eq (congrArg (Action.Ensures · w Q E) (if_pos hsome))

/-- A session that is not bound only asks for its title, to log the event. -/
theorem notify_onlyLooks_of_inactive (honours : host.Honours T) {w : World H C}
    (hfit : T.fit w.host) {id : SessionId} {s : Session} (hs : w.sessions[id]? = some s)
    (hnone : s.binding? = none) (event : Notice) :
    (notify host id event).Ensures w (fun _ w' => w.Looked T w') (fun _ w' => w.Looked T w') := by
  unfold notify
  rw [Action.ensures_bind, ensures_find hs]
  simp only [hnone, Option.isSome_none, Bool.false_eq_true, if_false]
  exact ((Action.OnlyLooks.title honours id).bind fun _ => Action.OnlyLooks.log honours _) w hfit

/-- A session takes in an event by looking if it is not bound, and else by refreshing or ending. -/
theorem notify_ensures (honours : host.Honours T) {w : World H C} (hfit : T.fit w.host)
    (id : SessionId) (event : Notice) {Q : Except Failure Unit → World H C → Prop}
    (looks : ∀ {r w'}, w.Looked T w' → Q r w')
    (takes : ∀ {s binding}, w.sessions[id]? = some s → s.binding? = some binding →
      (match event with
        | .commit => refresh host id
        | .destroy => sourceDestroyed host id).Ensures w
          (fun _ w' => T.fit w'.host ∧ Q (.ok ()) w')
          (fun e w' => T.fit w'.host ∧ Q (.error e) w')) :
    (notify host id event).Ensures w (fun _ w' => T.fit w'.host ∧ Q (.ok ()) w')
      (fun e w' => T.fit w'.host ∧ Q (.error e) w') := by
  cases hs : w.sessions[id]? with
  | none =>
    unfold notify find
    simp only [Action.ensures_bind, Action.ensures_get, hs, Action.ensures_throw]
    exact ⟨hfit, looks (.refl hfit)⟩
  | some s =>
    cases hbound : s.binding? with
    | none =>
      exact (notify_onlyLooks_of_inactive honours hfit hs hbound event).mono
        (fun _ _ h => ⟨h.fit, looks h⟩) (fun _ _ h => ⟨h.fit, looks h⟩)
    | some binding => exact (notify_of_active hs hbound event).2 (takes hs hbound)

/-- Notifying a session tends to it. -/
theorem notify_tendsTo (honours : host.Honours T) {w : World H C} (hfit : T.fit w.host)
    (id : SessionId) (event : Notice) : (notify host id event).TendsTo T id w := by
  refine notify_ensures honours hfit id event .looks fun _ _ => ?_
  cases event with
  | commit => exact refresh_tendsTo honours hfit id
  | destroy => exact finish_tendsTo honours hfit id .sourceDestroyed .sourceDestroyed

/-- Notifying a session tends to some session. -/
theorem notify_tends (honours : host.Honours T) {w : World H C} (hfit : T.fit w.host)
    (id : SessionId) (event : Notice) : (notify host id event).Tends T w :=
  (notify_tendsTo honours hfit id event).tends

end Session

/-- Enabling the view of a source that has one is refused after a look at its name. -/
theorem Registry.enable_of_taken (honours : host.Honours T) {w : World H C}
    (hfit : T.fit w.host) {source : SourceId} {settings : Settings} {existing : SessionId}
    (htaken : w.sessionFor? source = some existing) :
    (Registry.enable host source settings).Ensures w (fun _ _ => False)
      (fun _ w' => w.Looked T w') := by
  unfold Registry.enable
  rw [Action.ensures_bind, Action.ensures_get, htaken]
  refine (Action.OnlyLooks.find (T := T) existing w hfit).bind ?_ (fun _ _ h => h)
  intro s w₁ hlooked₁
  refine (Action.OnlyLooks.title honours existing w₁ hlooked₁.fit).bind ?_ ?_
  · intro name w₂ hlooked₂
    exact hlooked₁.trans hlooked₂
  · intro e w₂ hlooked₂
    exact hlooked₁.trans hlooked₂

/-- Enabling the view of a source that has none makes a session and enables it; the session is put
in charge only if that succeeds. -/
theorem Registry.enable_of_free (honours : host.Honours T) {w : World H C} (hfit : T.fit w.host)
    {source : SourceId} {settings : Settings} (hfree : ∀ id, (source, id) ∉ w.registry) :
    (Registry.enable host source settings).Ensures w
      (fun id w' => id = w.sessions.length ∧ T.fit w'.host ∧ ∃ w₁,
        w' = { w₁ with registry := w₁.registry ++ [(source, w.sessions.length)] } ∧
        Session.Enables T (w.withSession (freshSession source settings)) w.sessions.length
          (freshSession source settings) (.ok ()) w₁)
      (fun e w' => T.fit w'.host ∧
        Session.Enables T (w.withSession (freshSession source settings)) w.sessions.length
          (freshSession source settings) (.error e) w') := by
  have hs : (w.withSession (freshSession source settings)).sessions[w.sessions.length]? =
      some (freshSession source settings) := by
    simp [World.withSession]
  unfold Registry.enable
  rw [Action.ensures_bind, Action.ensures_get, World.sessionFor?_eq_none_iff.2 hfree]
  unfold Session.create
  simp only [Action.ensures_bind, Action.ensures_get, Action.ensures_set, Action.ensures_pure]
  refine (Session.enable_enables (w := w.withSession (freshSession source settings)) honours hfit
    hs rfl).mono ?_ ?_
  · rintro _ w₁ ⟨hfit₁, hdoes⟩
    rw [Action.ensures_modify]
    have hregistry : w₁.registry = w.registry := by
      cases hdoes with
      | done name makes binds logs => rfl
    refine ⟨trivial, hfit₁, w₁, ?_, hdoes⟩
    rw [hregistry, Registry.record_of_free hfree]
  · rintro e w₁ ⟨hfit₁, hdoes⟩
    exact ⟨hfit₁, hdoes⟩

/-- Every call does one of the things that a call can do. -/
theorem Call.run_does (honours : host.Honours T) {w : World H C} (hfit : T.fit w.host)
    (call : Call) : (call.run host).DoesCall T w := by
  cases call with
  | enable source settings =>
    unfold Call.run Action.DoesCall
    rw [Action.ensures_bind]
    cases hfor : w.sessionFor? source with
    | some existing =>
      refine (Registry.enable_of_taken honours hfit hfor).mono (fun _ _ h => h.elim) ?_
      intro e w' hlooked
      exact ⟨hlooked.fit, .tends (.looks hlooked)⟩
    | none =>
      have hfree := World.sessionFor?_eq_none_iff.1 hfor
      refine (Registry.enable_of_free honours hfit hfree).mono ?_ ?_
      · rintro id _ ⟨-, hfit', w₁, rfl, hdoes⟩
        exact ⟨hfit', .opens hfree hdoes⟩
      · rintro e w' ⟨hfit', hdoes⟩
        exact ⟨hfit', .staysClosed hfree hdoes⟩
  | disable id => exact (Session.finish_tends honours hfit id .disable .disabled).doesCall
  | navigate id index =>
    exact ((Action.OnlyLooks.logged honours id (.navigate honours id index)).bind
      fun _ => .pure _).tends hfit |>.doesCall
  | jump id target =>
    exact ((Action.OnlyLooks.logged honours id (.jump honours id target)).bind
      fun _ => .pure _).tends hfit |>.doesCall
  | disableSession id => exact (Session.finish_tends honours hfit id .disable .disabled).doesCall
  | refresh id => exact (Session.refresh_tends honours hfit id).doesCall
  | sourceDestroyed id =>
    exact (Session.finish_tends honours hfit id .sourceDestroyed .sourceDestroyed).doesCall
  | notify id event => exact (Session.notify_tends honours hfit id event).doesCall

/-! ## Steps of a run -/

/-- A step of a run. -/
inductive Step where
  | call (c : Call)
  | announce (event : Notice) (listeners : List SessionId)
  | dispose

/-- Carries out a step. An announcement stops at the first listener that fails. -/
def Step.run (host : Host H C) : Step → Action H C Unit
  | .call c => c.run host
  | .announce event listeners => listeners.forM fun id => Session.notify host id event
  | .dispose => Registry.dispose host

/-- Sessions were tended to, one after another. -/
def World.Tended (T : Terms H) : World H C → World H C → Prop :=
  Relation.ReflTransGen fun w w' => ∃ r, Session.Tends T w r w'

/-- What a step can do. -/
inductive Step.Does (T : Terms H) (w : World H C) : World H C → Prop where
  | call {r : Except Failure Unit} {w' : World H C} (does : Call.Does T w r w') : Step.Does T w w'
  | tended {w' : World H C} (tended : w.Tended T w') : Step.Does T w w'

/-- Going through a list of sessions, each of them is tended to until one fails. -/
theorem World.tended_forM {f : SessionId → Action H C Unit}
    (hf : ∀ id (w : World H C), T.fit w.host → (f id).Tends T w) (ids : List SessionId)
    {w : World H C} (hfit : T.fit w.host) :
    (ids.forM f).Ensures w (fun _ w' => T.fit w'.host ∧ w.Tended T w')
      (fun _ w' => T.fit w'.host ∧ w.Tended T w') := by
  refine Action.ensures_forM ids ?_ w ⟨hfit, .refl⟩
  rintro id - w₁ ⟨hfit₁, htended⟩
  refine (hf id w₁ hfit₁).mono ?_ ?_
  · rintro _ w₂ ⟨hfit₂, htends⟩
    exact ⟨hfit₂, htended.tail ⟨_, htends⟩⟩
  · rintro e w₂ ⟨hfit₂, htends⟩
    exact ⟨hfit₂, htended.tail ⟨_, htends⟩⟩

/-- However a step ends, it does what a step can do and leaves the host fit. -/
theorem Step.run_does (honours : host.Honours T) {w : World H C} (hfit : T.fit w.host)
    (step : Step) :
    (step.run host).Ensures w (fun _ w' => T.fit w'.host ∧ Step.Does T w w')
      (fun _ w' => T.fit w'.host ∧ Step.Does T w w') := by
  cases step with
  | call c =>
    refine (c.run_does honours hfit).mono ?_ ?_
    · rintro _ w' ⟨hfit', hdoes⟩
      exact ⟨hfit', .call hdoes⟩
    · rintro e w' ⟨hfit', hdoes⟩
      exact ⟨hfit', .call hdoes⟩
  | announce event listeners =>
    refine (World.tended_forM (fun id _ hfit' => Session.notify_tends honours hfit' id event)
      listeners hfit).mono ?_ ?_
    · rintro _ w' ⟨hfit', htended⟩
      exact ⟨hfit', .tended htended⟩
    · rintro e w' ⟨hfit', htended⟩
      exact ⟨hfit', .tended htended⟩
  | dispose =>
    unfold Step.run Registry.dispose
    rw [Action.ensures_bind, Action.ensures_get]
    refine (World.tended_forM
      (fun id _ hfit' => Session.finish_tends honours hfit' id .disable .disabled)
      (w.registry.map (·.2)) hfit).mono ?_ ?_
    · rintro _ w' ⟨hfit', htended⟩
      exact ⟨hfit', .tended htended⟩
    · rintro e w' ⟨hfit', htended⟩
      exact ⟨hfit', .tended htended⟩

end

end TreeInspector
