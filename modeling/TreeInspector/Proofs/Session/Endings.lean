import TreeInspector.Proofs.Session.Locate
import TreeInspector.Proofs.Session.Pieces

/-!
# Why sessions ended, and where their lines lead

A run can be followed with a memory: which of its deeds was the last to end a session, and for which
reason such deeds end sessions. A session that is not active tells the reason that is remembered of
it, also if the host calls back and several deeds are at it at once. The lines of an active session
come from its last rendering, so they lead to a span if the session was made with navigation, and
nowhere if it was not.
-/

set_option autoImplicit false

namespace TreeInspector

/-- For what reason a deed ends the session that it ends, if it ends one. -/
def Deed.endReason? : Deed → Option EndReason
  | .call (.disable _) | .call (.disableSession _) => some .disabled
  | .call (.sourceDestroyed _) | .call (.notify _ .destroy) => some .sourceDestroyed
  | _ => none

namespace Session

/-- The lines lead to a span if navigation is on, and nowhere if it is not. -/
def LinesLead (s : Session) : Prop := ∀ line ∈ s.lines, line.span.isSome = s.options.navigation

/-- What something that ends sessions for the given reason, if it ends any, makes of a session. -/
structure Ages (reason? : Option EndReason) (s s' : Session) : Prop where
  options : s'.options = s.options
  linesLead : s.LinesLead → s'.LinesLead
  ending : s'.state = .inactive →
    s.state = .inactive ∧ s'.endReason = s.endReason ∨ s.state = .active ∧ s'.endReason = reason?

/-- The lines lead where they should, and a session that is not active tells the given reason. -/
def AsRemembered (s : Session) (reason? : Option EndReason) : Prop :=
  s.LinesLead ∧ (s.state = .inactive → s.endReason = reason?)

section

variable {reason? : Option EndReason} {s s' : Session} {b : Nat} {binding : Binding}

/-- A session may stay as it is. -/
theorem Ages.refl (reason? : Option EndReason) (s : Session) : s.Ages reason? s :=
  ⟨rfl, fun h => h, fun hidle => .inl ⟨hidle, rfl⟩⟩

/-- A session is still as remembered when it has aged. -/
theorem Ages.asRemembered (hages : s.Ages reason? s') (hs : s.AsRemembered reason?) :
    s'.AsRemembered reason? := by
  refine ⟨hages.linesLead hs.1, fun hinactive => ?_⟩
  rcases hages.ending hinactive with ⟨hidle, hsame⟩ | ⟨-, hreason⟩
  · exact hsame.trans (hs.2 hidle)
  · exact hreason

/-- A bound session shows the lines of its binding. -/
theorem lines_of_binding? (hbound : s.binding? = some binding) : s.lines = binding.lines := by
  unfold lines
  rw [hbound]
  rfl

/-- A session that is not bound has no lines that could lead amiss. -/
theorem linesLead_of_idle (hidle : s.binding? = none) : s.LinesLead := by
  intro line hline
  unfold lines at hline
  rw [hidle] at hline
  cases hline

/-- A bound session is active. -/
theorem state_of_binding? (hbound : s.binding? = some binding) : s.state = .active :=
  state_eq_active_iff.2 ⟨binding, hbound⟩

/-- A change of a binding is seen only if it is the one in force. -/
theorem binding?_modify (b : Nat) (f : Binding → Binding) (s : Session) :
    ({ s with bindings := s.bindings.modify b f } : Session).binding? =
      if s.current = some b then s.binding?.map f else s.binding? := by
  unfold binding?
  cases s.current with
  | none => rfl
  | some c =>
    simp only [Option.bind_some, List.getElem?_modify, Option.some.injEq]
    by_cases hc : c = b
    · simp [hc]
    · simp [hc, Ne.symm hc]

/-- Changing a binding does not change whether a session is active. -/
theorem state_modify (b : Nat) (f : Binding → Binding) (s : Session) :
    ({ s with bindings := s.bindings.modify b f } : Session).state = s.state := by
  unfold state
  rw [binding?_modify]
  split
  · rw [Option.isSome_map]
  · rfl

/-- A session ages by a change of a binding after which its lines lead where they should. -/
theorem ages_modify {f : Binding → Binding}
    (hf : ∀ {binding}, s.binding? = some binding → s.LinesLead →
      ∀ line ∈ (f binding).lines, line.span.isSome = s.options.navigation) :
    s.Ages reason? { s with bindings := s.bindings.modify b f } where
  options := rfl
  linesLead h line hline := by
    unfold lines at hline
    rw [binding?_modify] at hline
    split at hline
    · cases hbound : s.binding? with
      | none =>
        rw [hbound] at hline
        cases hline
      | some binding =>
        rw [hbound] at hline
        exact hf hbound h line hline
    · exact h line hline
  ending hidle := .inl ⟨(state_modify b f s).symm.trans hidle, rfl⟩

/-- A session ages by keeping other subscriptions. -/
theorem ages_keeping (b : Nat) (subscriptions : List SubscriptionId) :
    s.Ages reason? (s.keeping b subscriptions) :=
  ages_modify fun hbound h line hline => h line (lines_of_binding? hbound ▸ hline)

/-- An active session ages by ending for the given reason. -/
theorem ages_ended {reason : EndReason} (hactive : s.state = .active) (b : Nat)
    (subscriptions : List SubscriptionId) :
    s.Ages (some reason) ((s.keeping b subscriptions).ended reason) where
  options := rfl
  linesLead _ line hline := by cases hline
  ending _ := .inr ⟨hactive, rfl⟩

/-- Rendered lines have spans iff there is navigation. -/
theorem span_isSome_of_mem_render {navigation : Bool} {t : ParseTree} {line : ViewLine}
    (hline : line ∈ t.render navigation) : line.span.isSome = navigation := by
  obtain ⟨i, hi⟩ := List.mem_iff_getElem?.1 hline
  rw [ParseTree.getElem?_render] at hi
  obtain ⟨x, -, rfl⟩ := Option.map_eq_some_iff.1 hi
  cases navigation <;> rfl

/-- A session ages by showing the lines of another tree. -/
theorem ages_showing (b : Nat) (t : ParseTree) :
    s.Ages reason? (s.showing b (t.render s.options.navigation)) :=
  ages_modify fun _ _ _ hline => span_isSome_of_mem_render hline

/-- A session ages by being bound with the lines of a tree. -/
theorem ages_bound {t : ParseTree} (hlines : binding.lines = t.render s.options.navigation) :
    s.Ages reason? (s.bound binding) where
  options := rfl
  linesLead _ line hline := by
    rw [lines_of_binding? (binding?_bound binding s), hlines] at hline
    exact span_isSome_of_mem_render hline
  ending hidle := by
    rw [state_of_binding? (binding?_bound binding s)] at hidle
    cases hidle

end

end Session

section

variable {H C : Type} {T : Terms H} {host : Host H C} {w w' : World H C} {id : SessionId}
  {s : Session} {b : Nat} {binding : Binding} {r : Except Failure Unit}
  {reason? : Option EndReason}

/-! ## What operations make of their session -/

/-- The session has become one that it may have been made into. -/
def World.Made (w' : World H C) (reason? : Option EndReason) (id : SessionId) (s : Session) :
    Prop :=
  ∃ s', w'.sessions[id]? = some s' ∧ s.Ages reason? s'

/-- A session that is changed to what it may age to has become that. -/
theorem World.made_modifySession (hs : w.sessions[id]? = some s) {f : Session → Session}
    (h : s.Ages reason? (f s)) : (w.modifySession id f).Made reason? id s :=
  ⟨f s, World.getElem?_modifySession_self hs f, h⟩

/-- Refreshing makes of a session what it may age to. -/
theorem Session.Refreshes.made (does : Session.Refreshes T w id s b binding r w')
    (hs : w.sessions[id]? = some s) : w'.Made reason? id s := by
  have hrendered : ∀ {lines h}, T.Renders s.source s.options.navigation binding.view w.host
      (.ok lines) h → s.Ages reason? (s.showing b lines) := by
    intro lines h renders
    cases renders with
    | shown call shows => exact Session.ages_showing b _
  cases does with
  | unrendered renders => exact ⟨s, hs, .refl _ s⟩
  | unnamed renders name => exact World.made_modifySession hs (hrendered renders)
  | done renders name logs => exact World.made_modifySession hs (hrendered renders)

/-- Ending makes of a session what it may age to for the given reason. -/
theorem Session.Finishes.made {reason : EndReason}
    (does : Session.Finishes T w id s b binding reason r w') (hs : w.sessions[id]? = some s)
    (hb : s.current = some b) (hbinding : s.bindings[b]? = some binding) :
    w'.Made (some reason) id s := by
  have hactive := Session.state_of_binding? (Session.binding?_eq_some_iff.2 ⟨b, hb, hbinding⟩)
  cases does with
  | unnamed name => exact ⟨s, hs, .refl _ s⟩
  | interrupted name ends =>
    exact World.made_modifySession hs (Session.ages_keeping b _)
  | viewLeft name ends view =>
    exact World.made_modifySession hs (Session.ages_ended hactive b [])
  | done name ends view logs =>
    exact World.made_modifySession hs (Session.ages_ended hactive b [])

/-- Enabling makes of a session what it may age to. -/
theorem Session.Enables.made (does : Session.Enables T w id s r w')
    (hs : w.sessions[id]? = some s) : w'.Made reason? id s := by
  cases does with
  | unnamed name => exact ⟨s, hs, .refl _ s⟩
  | noView name view => exact ⟨s, hs, .refl _ s⟩
  | undone name makes binds tidies clears => exact ⟨s, hs, .refl _ s⟩
  | done name makes binds logs =>
    refine World.made_modifySession hs ?_
    cases binds with
    | bound renders first second =>
      cases renders with
      | shown call shows => exact Session.ages_bound rfl

/-! ## What deeds make of all sessions -/

/-- All sessions have become what something that ends sessions for the given reason may have made of
them, and new ones have been active at most since. -/
structure World.Aged (reason? : Option EndReason) (w w' : World H C) : Prop where
  made : ∀ {id : SessionId} {s : Session}, w.sessions[id]? = some s → w'.Made reason? id s
  new : ∀ {id : SessionId} {s' : Session}, w.sessions[id]? = none → w'.sessions[id]? = some s' →
    s'.AsRemembered none

/-- Sessions that have not changed have aged. -/
theorem World.aged_of_sessions (hsessions : w'.sessions = w.sessions) : w.Aged reason? w' where
  made {id s} hs := ⟨s, by rwa [hsessions], .refl _ s⟩
  new {id s'} hnone hs' := by
    rw [hsessions, hnone] at hs'
    cases hs'

/-- Sessions age while someone only looks around. -/
theorem World.Looked.aged (looked : w.Looked T w') : w.Aged reason? w' := by
  obtain ⟨h, c, rfl, -, -⟩ := looked
  exact World.aged_of_sessions rfl

/-- Sessions have aged when one of them has and the others have not changed. -/
theorem World.aged_of_made (hs : w.sessions[id]? = some s) (made : w'.Made reason? id s)
    (hothers : ∀ i, i ≠ id → w'.sessions[i]? = w.sessions[i]?) : w.Aged reason? w' where
  made {i t} ht := by
    by_cases hi : i = id
    · subst hi
      rw [hs] at ht
      cases ht
      exact made
    · exact ⟨t, (hothers i hi).trans ht, .refl _ t⟩
  new {i t} hnone ht := by
    by_cases hi : i = id
    · rw [hi, hs] at hnone
      cases hnone
    · rw [hothers i hi, hnone] at ht
      cases ht

/-- The new session is found under the next number. -/
theorem World.getElem?_withSession_self (w : World H C) (s : Session) :
    (w.withSession s).sessions[w.sessions.length]? = some s := by
  unfold withSession
  exact List.getElem?_concat_length

/-- The other sessions are found where they were. -/
theorem World.getElem?_withSession_of_ne {i : SessionId} (hi : i ≠ w.sessions.length)
    (s : Session) : (w.withSession s).sessions[i]? = w.sessions[i]? := by
  unfold withSession
  rcases Nat.lt_or_gt_of_ne hi with hlt | hgt
  · exact List.getElem?_append_left hlt
  · rw [List.getElem?_eq_none (Nat.le_of_lt hgt), List.getElem?_eq_none]
    rw [List.length_append, List.length_singleton]
    exact hgt

/-- A session is made that has never been active, and something may be made of it at once. -/
theorem World.aged_withSession (hidle : s.binding? = none) (hnever : s.endReason = none)
    (made : w'.Made reason? w.sessions.length s)
    (hothers : ∀ i, i ≠ w.sessions.length → w'.sessions[i]? = (w.withSession s).sessions[i]?) :
    w.Aged reason? w' where
  made {i t} ht := by
    have hi : i ≠ w.sessions.length := Nat.ne_of_lt (List.getElem?_eq_some_iff.1 ht).1
    exact ⟨t, by rw [hothers i hi, World.getElem?_withSession_of_ne hi, ht], .refl _ t⟩
  new {i t} hnone ht := by
    by_cases hi : i = w.sessions.length
    · obtain ⟨s', hs', hages⟩ := made
      rw [hi, hs'] at ht
      cases ht
      refine ⟨hages.linesLead (Session.linesLead_of_idle hidle), fun hinactive => ?_⟩
      rcases hages.ending hinactive with ⟨-, hreason⟩ | ⟨hactive, -⟩
      · exact hreason.trans hnever
      · rw [Session.state_eq_inactive_iff.2 hidle] at hactive
        cases hactive
    · rw [hothers i hi, World.getElem?_withSession_of_ne hi, hnone] at ht
      cases ht

/-- Whatever comes of the action in this world, it ends sessions for the given reason if it ends
any. -/
def Action.AgesAll (T : Terms H) (reason? : Option EndReason) (a : Action H C Unit)
    (w : World H C) : Prop :=
  a.Ensures w (fun _ w' => T.fit w'.host ∧ w.Aged reason? w')
    (fun _ w' => T.fit w'.host ∧ w.Aged reason? w')

/-- However the action ends, the host is fit and all sessions have aged. -/
theorem Action.AgesAll.outcome {a : Action H C Unit} (ha : a.AgesAll T reason? w) :
    T.fit (a.outcome w).2.host ∧ w.Aged reason? (a.outcome w).2 := by
  unfold Action.AgesAll at ha
  exact ha.outcome (P := fun _ w' => T.fit w'.host ∧ w.Aged reason? w')

/-- An action that only looks ages all sessions. -/
theorem Action.OnlyLooks.agesAll {a : Action H C Unit} (ha : Action.OnlyLooks T a)
    (hfit : T.fit w.host) : a.AgesAll T reason? w :=
  (ha w hfit).mono (fun _ _ h => ⟨h.fit, h.aged⟩) (fun _ _ h => ⟨h.fit, h.aged⟩)

namespace Session

/-- Ending a session ages all sessions for that reason. -/
theorem finish_agesAll (honours : host.Honours T) (hfit : T.fit w.host) (id : SessionId)
    (operation : SessionOperation) (reason : EndReason) :
    (finish host id operation reason).AgesAll T (some reason) w :=
  finish_ensures honours hfit id operation reason World.Looked.aged fun hs hb hbinding does =>
    World.aged_of_made hs (does.made hs hb hbinding) fun _ => does.others

/-- Refreshing a session ages all sessions. -/
theorem refresh_agesAll (honours : host.Honours T) (hfit : T.fit w.host) (id : SessionId) :
    (refresh host id).AgesAll T reason? w :=
  refresh_ensures honours hfit id World.Looked.aged fun hs _ _ does =>
    World.aged_of_made hs (does.made hs) fun _ => does.others

/-- Notifying a session ages all sessions for the reason that the event gives. -/
theorem notify_agesAll (honours : host.Honours T) (hfit : T.fit w.host) (id : SessionId)
    (event : Notice) :
    (notify host id event).AgesAll T (Deed.call (.notify id event)).endReason? w := by
  refine notify_ensures honours hfit id event World.Looked.aged fun _ _ => ?_
  cases event with
  | commit => exact refresh_agesAll honours hfit id
  | destroy => exact finish_agesAll honours hfit id .sourceDestroyed .sourceDestroyed

end Session

namespace Deed

/-- Enabling a view of a source ages all sessions. -/
theorem enable_agesAll (honours : host.Honours T) (hfit : T.fit w.host) (source : SourceId)
    (settings : Settings) :
    (Call.run host (.enable source settings)).AgesAll T reason? w := by
  refine enable_ensures honours hfit source settings World.Looked.aged fun does => ?_
  obtain ⟨hmade, hnew⟩ : w.Aged reason? _ :=
    World.aged_withSession rfl rfl (does.made (World.getElem?_withSession_self w _))
      fun _ => does.others
  exact ⟨hmade, hnew⟩

/-- Enabling a session ages all sessions. -/
theorem enableSession_agesAll (honours : host.Honours T) (hfit : T.fit w.host)
    (id : SessionId) : (Session.enable host id).AgesAll T reason? w :=
  enableSession_ensures honours hfit id World.Looked.aged fun hs _ does =>
    World.aged_of_made hs (does.made hs) fun _ => does.others

/-- Every deed ends sessions for its own reason only. -/
theorem run_agesAll (honours : host.Honours T) (hfit : T.fit w.host) (d : Deed) :
    (d.run host).AgesAll T d.endReason? w := by
  cases d with
  | create source options =>
    exact ⟨hfit, World.aged_withSession rfl rfl
      ⟨_, World.getElem?_withSession_self w (looseSession source options), .refl _ _⟩
      fun _ _ => rfl⟩
  | enableSession id => exact enableSession_agesAll honours hfit id
  | call c =>
    cases c with
    | enable source settings => exact enable_agesAll honours hfit source settings
    | disable id => exact Session.finish_agesAll honours hfit id .disable .disabled
    | navigate id index =>
      exact ((Action.OnlyLooks.logged honours id (.navigate honours id index)).bind
        fun _ => .pure _).agesAll hfit
    | jump id target =>
      exact ((Action.OnlyLooks.logged honours id (.jump honours id target)).bind
        fun _ => .pure _).agesAll hfit
    | disableSession id => exact Session.finish_agesAll honours hfit id .disable .disabled
    | refresh id => exact Session.refresh_agesAll honours hfit id
    | sourceDestroyed id =>
      exact Session.finish_agesAll honours hfit id .sourceDestroyed .sourceDestroyed
    | notify id event => exact Session.notify_agesAll honours hfit id event

end Deed

/-! ## Runs with a memory -/

/-- The session exists and is active. -/
def World.activeAt (w : World H C) (id : SessionId) : Bool :=
  (w.sessions[id]?).any fun s => s.state = .active

/-- What is remembered after a deed of why each session ended last: the deed's reason if the session
was active before it and is not any more, and what was remembered before otherwise. -/
def Deed.recall (d : Deed) (w w' : World H C) (last : SessionId → Option EndReason)
    (id : SessionId) : Option EndReason :=
  if w.activeAt id && !w'.activeAt id then d.endReason? else last id

/-- What is remembered after one more ending. -/
def SessionEnd.recall (last : SessionId → Option EndReason) (e : SessionEnd) :
    SessionId → Option EndReason :=
  Function.update last e.id (some e.reason)

/-- The worlds of the runs that begin without sessions, each with the memory of why its sessions
ended last. Beside the deeds, the host and the client may change on their own. A deed on a host that
calls back may be interrupted by others; then the endings are remembered in the order in which they
take effect. -/
inductive World.Remembers (host : Host H C) (T : Terms H) :
    World H C → (SessionId → Option EndReason) → Prop where
  | start {w : World H C} (fits : T.fit w.host) (noSessions : w.sessions = []) :
      World.Remembers host T w fun _ => none
  | aside {w : World H C} {last : SessionId → Option EndReason} {h : H} {c : C}
      (run : World.Remembers host T w last) (fits : T.fit h) :
      World.Remembers host T (w.beside h c) last
  | deed {w : World H C} {last : SessionId → Option EndReason}
      (run : World.Remembers host T w last) (d : Deed) :
      World.Remembers host T ((d.run host).outcome w).2
        (d.recall w ((d.run host).outcome w).2 last)
  | interrupted {w : World H C} {last : SessionId → Option EndReason} {other : Host H C}
      {endings : List SessionEnd} (run : World.Remembers host T w last) (d : Deed)
      (callsBack : other.Stays World.ByPieces)
      (went : w.Went endings ((d.run other).outcome w).2)
      (fits : T.fit ((d.run other).outcome w).2.host) :
      World.Remembers host T ((d.run other).outcome w).2 (endings.foldl SessionEnd.recall last)

/-- A run can go on with every deed on a host that calls back. -/
theorem World.Remembers.exists_interrupted {last : SessionId → Option EndReason}
    {other : Host H C} (run : World.Remembers host T w last) (d : Deed)
    (callsBack : other.Stays World.ByPieces) (fits : T.fit ((d.run other).outcome w).2.host) :
    ∃ last', World.Remembers host T ((d.run other).outcome w).2 last' := by
  obtain ⟨endings, went⟩ := Action.stays_iff.1 (d.run_byPieces callsBack) w
  exact ⟨_, run.interrupted d callsBack went fits⟩

/-- The sessions are as they are remembered. -/
structure World.AsRemembered (w : World H C) (last : SessionId → Option EndReason) : Prop where
  there : ∀ {id : SessionId} {s : Session}, w.sessions[id]? = some s → s.AsRemembered (last id)
  unmade : ∀ {id : SessionId}, w.sessions[id]? = none → last id = none

/-- A session that exists is active as its state says. -/
theorem World.activeAt_eq (hs : w.sessions[id]? = some s) :
    w.activeAt id = decide (s.state = .active) := by
  unfold World.activeAt
  rw [hs, Option.any_some]

/-- A session that does not exist is not active. -/
theorem World.activeAt_of_none (hnone : w.sessions[id]? = none) : w.activeAt id = false := by
  unfold World.activeAt
  rw [hnone, Option.any_none]

section

variable {last last' : SessionId → Option EndReason}

/-- What is remembered depends on the sessions only. -/
theorem World.AsRemembered.of_sessions (hw : w.AsRemembered last)
    (hsessions : w'.sessions = w.sessions) : w'.AsRemembered last := by
  constructor
  · intro id s hs
    exact hw.there (hsessions ▸ hs)
  · intro id hnone
    exact hw.unmade (hsessions ▸ hnone)

/-- After a deed the sessions are as is then remembered. -/
theorem World.AsRemembered.deed {d : Deed} (hw : w.AsRemembered last)
    (aged : w.Aged d.endReason? w') : w'.AsRemembered (d.recall w w' last) where
  there {id s'} hs' := by
    unfold Deed.recall
    rw [World.activeAt_eq hs']
    cases hs : w.sessions[id]? with
    | none =>
      rw [World.activeAt_of_none hs, Bool.false_and, if_neg Bool.false_ne_true, hw.unmade hs]
      exact aged.new hs hs'
    | some s =>
      obtain ⟨t, ht, hages⟩ := aged.made hs
      rw [hs'] at ht
      cases ht
      rw [World.activeAt_eq hs]
      refine ⟨hages.linesLead (hw.there hs).1, fun hinactive => ?_⟩
      rcases hages.ending hinactive with ⟨hidle, hsame⟩ | ⟨hactive, hreason⟩
      · simp only [hidle, hinactive, reduceCtorEq, decide_false, Bool.false_and,
          Bool.false_eq_true, if_false]
        exact hsame.trans ((hw.there hs).2 hidle)
      · simp only [hactive, hinactive, reduceCtorEq, decide_true, decide_false, Bool.not_false,
          Bool.and_true, if_true]
        exact hreason
  unmade {id} hnone := by
    have hbefore : w.sessions[id]? = none := by
      cases hs : w.sessions[id]? with
      | none => rfl
      | some s =>
        obtain ⟨t, ht, -⟩ := aged.made hs
        rw [hnone] at ht
        cases ht
    unfold Deed.recall
    rw [World.activeAt_of_none hbefore, Bool.false_and, if_neg Bool.false_ne_true,
      hw.unmade hbefore]

/-! ## Piece by piece -/

/-- After one session has changed the sessions are as remembered if that one is. -/
theorem World.AsRemembered.modifySession (hw : w.AsRemembered last) {f : Session → Session}
    (hf : ∀ s, w.sessions[id]? = some s → s.AsRemembered (last id) →
      (f s).AsRemembered (last' id))
    (hnone : w.sessions[id]? = none → last' id = none) (hothers : ∀ i, i ≠ id → last' i = last i) :
    (w.modifySession id f).AsRemembered last' where
  there {i s'} hs' := by
    rw [World.getElem?_modifySession] at hs'
    by_cases hi : id = i
    · rw [if_pos hi] at hs'
      obtain ⟨s, hs, rfl⟩ := Option.map_eq_some_iff.1 hs'
      subst hi
      exact hf s hs (hw.there hs)
    · rw [if_neg hi] at hs'
      rw [hothers i (Ne.symm hi)]
      exact hw.there hs'
  unmade {i} hgone := by
    rw [World.getElem?_modifySession] at hgone
    by_cases hi : id = i
    · rw [if_pos hi] at hgone
      subst hi
      exact hnone (Option.map_eq_none_iff.1 hgone)
    · rw [if_neg hi] at hgone
      rw [hothers i (Ne.symm hi)]
      exact hw.unmade hgone

/-- After one session has aged the sessions are still as remembered. -/
theorem World.AsRemembered.ages (hw : w.AsRemembered last) {f : Session → Session}
    (hf : ∀ s, w.sessions[id]? = some s → s.Ages (last id) (f s)) :
    (w.modifySession id f).AsRemembered last :=
  hw.modifySession (fun s hs => (hf s hs).asRemembered) hw.unmade fun _ _ => rfl

/-- A new session that has never been active is as remembered. -/
theorem World.AsRemembered.withSession (hw : w.AsRemembered last) (hidle : s.binding? = none)
    (hnever : s.endReason = none) : (w.withSession s).AsRemembered last where
  there {i t} ht := by
    by_cases hi : i = w.sessions.length
    · subst hi
      rw [World.getElem?_withSession_self] at ht
      cases ht
      refine ⟨Session.linesLead_of_idle hidle, fun _ => ?_⟩
      rw [hw.unmade (List.getElem?_eq_none (Nat.le_refl _))]
      exact hnever
    · rw [World.getElem?_withSession_of_ne hi] at ht
      exact hw.there ht
  unmade {i} hnone := by
    refine hw.unmade (List.getElem?_eq_none ?_)
    have hle := List.getElem?_eq_none_iff.1 hnone
    unfold World.withSession at hle
    rw [List.length_append] at hle
    exact Nat.le_of_add_right_le hle

/-- What happens piece by piece leaves the sessions as they are remembered, if the endings are. -/
theorem World.Went.asRemembered {endings : List SessionEnd} (went : w.Went endings w') :
    ∀ {last}, w.AsRemembered last → w'.AsRemembered (endings.foldl SessionEnd.recall last) := by
  induction went with
  | rests same => exact fun hw => hw.of_sessions same
  | makes source options registered => exact fun hw => hw.withSession rfl rfl
  | keeps id b subscriptions => exact fun hw => hw.ages fun _ _ => Session.ages_keeping b _
  | shows there b tree =>
    intro last hw
    refine hw.ages fun s hs => ?_
    rw [there] at hs
    cases hs
    exact Session.ages_showing b tree
  | binds there rendered =>
    intro last hw
    refine hw.ages fun s hs => ?_
    rw [there] at hs
    cases hs
    exact Session.ages_bound rendered
  | @ends _ id _ there reason =>
    intro last hw
    refine hw.modifySession (fun s _ _ => ?_) (fun hnone => ?_) fun i hi => ?_
    · refine ⟨Session.linesLead_of_idle rfl, fun _ => ?_⟩
      show some reason = Function.update last id (some reason) id
      rw [Function.update_self]
    · rw [there] at hnone
      cases hnone
    · exact Function.update_of_ne hi ..
  | next first second ih₁ ih₂ =>
    intro last hw
    rw [List.foldl_append]
    exact ih₂ (ih₁ hw)

/-- Along a run, the sessions stay as they are remembered. -/
theorem World.Remembers.asRemembered (honours : host.Honours T)
    (run : World.Remembers host T w last) : T.fit w.host ∧ w.AsRemembered last := by
  induction run with
  | start fits noSessions =>
    refine ⟨fits, ⟨fun hs => ?_, fun _ => rfl⟩⟩
    rw [noSessions] at hs
    cases hs
  | aside run fits ih => exact ⟨fits, ih.2.of_sessions rfl⟩
  | deed run d ih =>
    obtain ⟨hfit', haged⟩ := (d.run_agesAll honours ih.1).outcome
    exact ⟨hfit', ih.2.deed haged⟩
  | interrupted run d callsBack went fits ih => exact ⟨fits, went.asRemembered ih.2⟩

end

end

end TreeInspector
