import TreeInspector.Proofs.Scenario.Stage
import TreeInspector.Proofs.Session.Deeds

/-!
# Sessions that come back

Nothing tells a session that has ended from one that was never enabled: neither is bound. So
enabling does not refuse a session that has ended, and if the host plays along, the session is
active again while the registry knows nothing of it. The end of a session is final exactly if nobody
enables it afterwards.
-/

set_option autoImplicit false

namespace TreeInspector

/-- The failure says that a session is in no state for what was asked of it. -/
def Failure.isLifecycle : Failure → Bool
  | .view (.lifecycle ..) => true
  | _ => false

section

variable {H C α : Type} {T : Terms H} {host : Host H C} {w w' : World H C} {id : SessionId}
  {s : Session}

/-! ## Hosts that do not speak for sessions -/

/-- If the action fails, then not because of the state of a session. -/
def Action.FailsOtherwise (fit : H → Prop) (a : Action H C α) : Prop :=
  ∀ w, fit w.host → a.Ensures w (fun _ _ => True) (fun e _ => e.isLifecycle = false)

/-- No step of opening a view fails because of the state of a session. -/
structure Host.FailsOtherwise (T : Terms H) (host : Host H C) : Prop where
  sourceName : ∀ source, (host.sourceName source).FailsOtherwise T.fit
  createView : ∀ title, (host.createView title).FailsOtherwise T.fit
  tree : ∀ source, (host.tree source).FailsOtherwise T.fit
  showLines : ∀ view lines, (host.showLines view lines).FailsOtherwise T.fit
  subscribe : ∀ source event callback,
    (host.subscribe source event callback).FailsOtherwise T.fit

namespace Terms

/-- The call does what it may do, and does not fail because of the state of a session. -/
def failing (R : H → Except Failure α → H → Prop) (h : H) (r : Except Failure α) (h' : H) : Prop :=
  R h r h' ∧ ∀ e, r = .error e → e.isLifecycle = false

/-- The terms, with what is known of the failures of the steps of opening a view. -/
def otherwise (T : Terms H) : Terms H :=
  { T with
    sourceName := fun source => failing (T.sourceName source)
    createView := fun title => failing (T.createView title)
    tree := fun source => failing (T.tree source)
    showLines := fun view lines => failing (T.showLines view lines)
    subscribe := fun source event callback => failing (T.subscribe source event callback) }

end Terms

/-- What is known of the failures of an action may be added to its terms. -/
theorem Action.Obeys.failing {a : Action H C α} {fit : H → Prop}
    {R : H → Except Failure α → H → Prop} (ha : a.Obeys fit R) (hfails : a.FailsOtherwise fit) :
    a.Obeys fit (Terms.failing R) := by
  intro w hfit
  have hobeys := ha w hfit
  have hfailure := hfails w hfit
  unfold Action.Ensures at *
  cases hrun : a w with
  | ok x w' =>
    simp only [hrun] at hobeys ⊢
    obtain ⟨h, c, hw', hfit', hR⟩ := hobeys
    exact ⟨h, c, hw', hfit', hR, fun e he => by cases he⟩
  | error e w' =>
    simp only [hrun] at hobeys hfailure ⊢
    obtain ⟨h, c, hw', hfit', hR⟩ := hobeys
    refine ⟨h, c, hw', hfit', hR, ?_⟩
    rintro _ ⟨⟩
    exact hfailure

/-- A host keeps to its terms together with what is known of its failures. -/
theorem Host.Honours.otherwise (honours : host.Honours T) (fails : host.FailsOtherwise T) :
    host.Honours T.otherwise :=
  { honours with
    sourceName := fun source => (honours.sourceName source).failing (fails.sourceName source)
    createView := fun title => (honours.createView title).failing (fails.createView title)
    tree := fun source => (honours.tree source).failing (fails.tree source)
    showLines := fun view lines =>
      (honours.showLines view lines).failing (fails.showLines view lines)
    subscribe := fun source event callback =>
      (honours.subscribe source event callback).failing (fails.subscribe source event callback) }

/-! ## Enabling a session that is not bound -/

/-- If no step of opening a view fails because of the state of a session, neither does enabling. -/
theorem Session.Enables.otherwise {e : Failure}
    (does : Session.Enables T.otherwise w id s (.error e) w') : e.isLifecycle = false := by
  cases does with
  | unnamed name => exact name.2 e rfl
  | noView name view => exact view.2 e rfl
  | undone name makes binds tidies clears =>
    cases binds with
    | unrendered renders =>
      cases renders with
      | noTree call => exact call.2 e rfl
      | notShown call fails => exact fails.2 e rfl
    | noCommit renders fails => exact fails.2 e rfl
    | noDestroy renders first fails => exact fails.2 e rfl

/-- A session that is not bound is never refused: it becomes active, which the registry does not
notice, or the host fails. -/
def Session.NotRefused (host : Host H C) (id : SessionId) (w : World H C) : Prop :=
  (Session.enable host id).Ensures w
    (fun _ w' => (∃ s, w'.Active id s) ∧ w'.registry = w.registry)
    (fun e _ => e.isLifecycle = false)

/-- A session that is not bound is not refused when it is enabled. -/
theorem Session.enable_notRefused (honours : host.Honours T) (fails : host.FailsOtherwise T)
    (hfit : T.fit w.host) (hs : w.sessions[id]? = some s) (hidle : s.state = .inactive) :
    Session.NotRefused host id w := by
  have hnone := Session.state_eq_inactive_iff.1 hidle
  refine (Session.enable_enables (honours.otherwise fails) hfit hs hnone).mono ?_ ?_
  · rintro _ w' ⟨-, hdoes⟩
    cases hdoes with
    | @done _ _ _ binding _ _ _ _ _ name makes binds logs =>
      refine ⟨⟨s.bound binding, World.getElem?_modifySession_self hs _, ?_⟩, rfl⟩
      exact Session.state_eq_active_iff.2 ⟨binding, Session.binding?_bound binding s⟩
  · rintro e w' ⟨-, hdoes⟩
    exact hdoes.otherwise

/-! ## Staying inactive -/

/-- A session that is not active stays so, whatever is done except enabling it. -/
theorem Deed.Does.stays_inactive {d : Deed} {r : Except Failure Unit}
    (does : Deed.Does T w d r w') (hs : w.sessions[id]? = some s) (hidle : s.state = .inactive)
    (hd : d ≠ .enableSession id) : w'.sessions[id]? = some s := by
  have hlt : id < w.sessions.length := (List.getElem?_eq_some_iff.1 hs).1
  -- What is refreshed or ended is bound, so it is another session.
  have hbound : ∀ {b : Nat} {binding : Binding} {s' : Session},
      w.sessions[d.subject w]? = some s' → s'.current = some b →
      s'.bindings[b]? = some binding → id ≠ d.subject w := by
    rintro b binding s' hs' hb hbinding rfl
    rw [hs] at hs'
    cases hs'
    rw [Session.state_eq_active_iff.2
      ⟨binding, Session.binding?_eq_some_iff.2 ⟨b, hb, hbinding⟩⟩] at hidle
    cases hidle
  have hother : id ≠ d.subject w → w'.sessions[id]? = some s := fun hne =>
    (does.others hlt hne).trans hs
  cases does with
  | tends tends =>
    cases tends with
    | looks looked =>
      obtain ⟨h, c, rfl, -, -⟩ := looked
      exact hs
    | refreshes session current bound does => exact hother (hbound session current bound)
    | finishes session current bound does => exact hother (hbound session current bound)
  | creates => exact hother (Nat.ne_of_lt hlt)
  | enables session idle does => exact hother fun heq => hd (congrArg _ heq.symm)
  | opens does => exact hother (Nat.ne_of_lt hlt)

/-- What happens in a run: deeds, and changes of the host and the client on their own. -/
inductive Happening (H C : Type) where
  | deed (d : Deed)
  | aside (h : H) (c : C)

/-- The world after something has happened. -/
def Happening.next (host : Host H C) (w : World H C) : Happening H C → World H C
  | .deed d => ((d.run host).outcome w).2
  | .aside h c => w.beside h c

/-- The session is never active while these things happen, and whoever enables it is told that it is
in no state for that. -/
def EndedForGood (host : Host H C) (id : SessionId) : List (Happening H C) → World H C → Prop
  | [], w => ∀ s, ¬w.Active id s
  | x :: rest, w =>
    (∀ s, ¬w.Active id s) ∧
      (x = .deed (.enableSession id) →
        (Session.enable host id).Ensures w (fun _ _ => False) (fun e _ => e.isLifecycle = true)) ∧
      EndedForGood host id rest (x.next host w)

/-- An inactive session stays as it is whatever happens, unless someone enables it. -/
theorem Happening.stays_inactive (honours : host.Honours T) (hfit : T.fit w.host)
    (hs : w.sessions[id]? = some s) (hidle : s.state = .inactive) {x : Happening H C}
    (hx : x ≠ .deed (.enableSession id)) (haside : ∀ h c, x = .aside h c → T.fit h) :
    T.fit (x.next host w).host ∧ (x.next host w).sessions[id]? = some s := by
  cases x with
  | aside h c => exact ⟨haside h c rfl, hs⟩
  | deed d =>
    have hd : d ≠ .enableSession id := fun heq => hx (congrArg _ heq)
    refine Action.Ensures.outcome
      (P := fun _ w' => T.fit w'.host ∧ w'.sessions[id]? = some s) ?_
    refine (d.run_does honours hfit).mono ?_ ?_
    · rintro _ w' ⟨hfit', hdoes⟩
      exact ⟨hfit', hdoes.stays_inactive hs hidle hd⟩
    · rintro e w' ⟨hfit', hdoes⟩
      exact ⟨hfit', hdoes.stays_inactive hs hidle hd⟩

/-- A session that is not active, whether it has ended or not begun, stays so and is refused to all
who enable it exactly if nobody does: enabling it is not refused. -/
theorem endedForGood_iff (honours : host.Honours T) (fails : host.FailsOtherwise T)
    (hfit : T.fit w.host) (hs : w.sessions[id]? = some s) (hidle : s.state = .inactive)
    (events : List (Happening H C)) (hasides : ∀ h c, .aside h c ∈ events → T.fit h) :
    (EndedForGood host id events w ↔ .deed (.enableSession id) ∉ events) ∧
      Session.NotRefused host id w := by
  refine ⟨?_, Session.enable_notRefused honours fails hfit hs hidle⟩
  induction events generalizing w with
  | nil => exact iff_of_true (World.not_active hs hidle) List.not_mem_nil
  | cons x rest ih =>
    by_cases hx : x = .deed (.enableSession id)
    · subst hx
      refine iff_of_false ?_ (fun hnot => hnot List.mem_cons_self)
      rintro ⟨-, hrefused, -⟩
      have hnot := Session.enable_notRefused honours fails hfit hs hidle
      have hrefuses := hrefused rfl
      unfold Session.NotRefused Action.Ensures at *
      cases hrun : Session.enable host id w with
      | ok _ w' => simp only [hrun] at hrefuses
      | error e w' =>
        simp only [hrun] at hnot hrefuses
        rw [hnot] at hrefuses
        cases hrefuses
    · obtain ⟨hfit', hs'⟩ := Happening.stays_inactive honours hfit hs hidle hx
        fun h c heq => hasides h c (heq ▸ List.mem_cons_self)
      have hrest := ih hfit' hs' fun h c hmem => hasides h c (List.mem_cons_of_mem x hmem)
      constructor
      · rintro ⟨-, -, hended⟩
        exact List.not_mem_cons_of_ne_of_not_mem (Ne.symm hx) (hrest.1 hended)
      · intro hnot
        exact ⟨World.not_active hs hidle, fun heq => (hx heq).elim,
          hrest.2 (List.not_mem_of_not_mem_cons hnot)⟩

end

/-! ## A session that was disabled and enabled again -/

namespace Scenario.Stage

section

variable {run : StageStep → StageAct Unit} {allowed : List Point}
  {w : World Stage (Roster StageStep)}

/-- A point of the stage fails for other reasons than the state of a session. -/
theorem reach_failsOtherwise (hhooks : w.host.hooks = []) (point : Point)
    {Q : Unit → World Stage (Roster StageStep) → Prop} (hQ : Q () w) :
    (reach run point).Ensures w Q (fun e _ => e.isLifecycle = false) := by
  unfold reach
  simp only [Action.ensures_bind, Action.ensures_host, hhooks, List.find?_nil]
  by_cases hfails : point ∈ w.host.failing
  · simp only [hfails, if_true, Action.ensures_throw]
    split <;> rfl
  · simp only [hfails, if_false]
    exact hQ

/-- Looking for a source fails for other reasons than the state of a session. -/
theorem findSource_failsOtherwise (id : SourceId)
    {Q : StageSource → World Stage (Roster StageStep) → Prop} (hQ : ∀ s, Q s w) :
    (findSource id).Ensures w Q (fun e _ => e.isLifecycle = false) := by
  unfold findSource
  simp only [Action.ensures_bind, Action.ensures_host]
  cases w.host.sources[id]? with
  | none => rfl
  | some s => exact hQ s

/-- The stage fails for other reasons than the state of a session. -/
theorem host_failsOtherwise (run : StageStep → StageAct Unit) (allowed : List Point) :
    (host run).FailsOtherwise (terms allowed) where
  sourceName source := by
    intro w hfit
    unfold host
    simp only [Action.ensures_bind]
    exact reach_failsOtherwise hfit.1 _ (findSource_failsOtherwise source fun _ => trivial)
  createView title := by
    intro w hfit
    unfold host note
    simp only [Action.ensures_bind, Action.ensures_modifyHost]
    exact reach_failsOtherwise (by exact hfit.1) _ trivial
  tree source := by
    intro w hfit
    unfold host note
    simp only [Action.ensures_bind, Action.ensures_modifyHost]
    exact reach_failsOtherwise (by exact hfit.1) _
      (findSource_failsOtherwise source fun _ => trivial)
  showLines view lines := by
    intro w hfit
    unfold host
    simp only [Action.ensures_bind]
    refine Action.ensures_modifyHost.2 (forM_note_ensures ViewLine.text lines fun trace => ?_)
    exact reach_failsOtherwise (by exact hfit.1) _ trivial
  subscribe source event callback := by
    intro w hfit
    unfold host note
    simp only [Action.ensures_bind, Action.ensures_modifyHost]
    exact reach_failsOtherwise (by exact hfit.1) _ trivial

end

/-- The world after the session has been disabled. -/
def disabled : World Stage (Roster StageStep) :=
  ((Deed.run quiet (.call (.disable 0))).outcome opened).2

/-- The session is called on, and the first source gets a view again, but by another session. -/
def aftermath : List (Happening Stage (Roster StageStep)) := [
  .deed (.call (.notify 0 .commit)), .deed (.call (.disable 0)), .deed (.call (.enable 0 {})),
  .aside { disabled.host with failing := [.sourceName] } {}, .deed (.call (.notify 0 .destroy))]

/-- The session that has been disabled exists and is inactive. -/
theorem disabled_session : ∃ s, disabled.sessions[0]? = some s ∧ s.state = .inactive := by
  have hstate : disabled.sessions[0]?.map (·.state) = some .inactive := by decide +kernel
  obtain ⟨s, hs, hidle⟩ := Option.map_eq_some_iff.1 hstate
  exact ⟨s, hs, hidle⟩

/-- Nothing is hooked to the calls of the stage there. -/
theorem disabled_hooks : disabled.host.hooks = [] :=
  List.isEmpty_iff.1 (by decide +kernel)

/-- The disabled session stays inactive through what follows, and yet it would not be refused. -/
theorem disabled_endedForGood :
    EndedForGood quiet 0 aftermath disabled ∧ Session.NotRefused quiet 0 disabled := by
  obtain ⟨s, hs, hidle⟩ := disabled_session
  have hfit : (terms Point.all).fit disabled.host := ⟨disabled_hooks, by decide +kernel⟩
  have hasides : ∀ h c, Happening.aside h c ∈ aftermath → (terms Point.all).fit h := by
    intro h c hmem
    simp only [aftermath, List.mem_cons, List.not_mem_nil, or_false, reduceCtorEq, false_or,
      Happening.aside.injEq] at hmem
    rw [hmem.1]
    exact ⟨disabled_hooks, by decide⟩
  obtain ⟨hends, hnotRefused⟩ := endedForGood_iff (host_honours _ Point.all)
    (host_failsOtherwise _ _) hfit hs hidle aftermath hasides
  exact ⟨hends.2 (by simp [aftermath]), hnotRefused⟩

/-- The session that was disabled is enabled again. -/
theorem ended_not_for_good :
    ¬∀ (w : World Stage (Roster StageStep)) (d : Deed)
        (events : List (Happening Stage (Roster StageStep))) (id : SessionId),
      (∃ s, w.Active id s) → (∀ s, ¬((d.run quiet).outcome w).2.Active id s) →
        EndedForGood quiet id events ((d.run quiet).outcome w).2 := by
  intro hclaim
  have hactive : ∃ s, opened.Active 0 s := World.exists_active_iff.2 (by decide +kernel)
  obtain ⟨s, hs, hidle⟩ := disabled_session
  have hlast := (hclaim opened (.call (.disable 0)) [.deed (.enableSession 0)] 0 hactive
    (World.not_active hs hidle)).2.2
  have hrevived : ∃ s, ((Session.enable quiet 0).outcome disabled).2.Active 0 s :=
    World.exists_active_iff.2 (by decide +kernel)
  obtain ⟨s', hactive'⟩ := hrevived
  exact hlast s' hactive'

end Scenario.Stage

end TreeInspector
