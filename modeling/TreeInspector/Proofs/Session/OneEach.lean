import TreeInspector.Proofs.Session.Passage
import TreeInspector.Proofs.Session.Stranding

/-!
# At most one session for each source

The registry looks up a source before it makes a session for it, and records the session only after
that has been enabled. In between, the host is called several times. If its calls keep the sessions
and the registry in order, so does every step, unless the source has got another session by the time
the new one is bound.
-/

set_option autoImplicit false

namespace TreeInspector

section

variable {H C : Type} {host : Host H C} {w w' : World H C} {id : SessionId} {source : SourceId}

/-- No source has two active sessions of the registry; if it has one, that one is in charge. -/
structure World.OneEach (w : World H C) : Prop where
  atMostOne : ∀ {id id' s s'}, w.Active id s → w.Active id' s' → s.registered = true →
    s'.registered = true → s.source = s'.source → id = id'
  inCharge : ∀ {id s}, w.Active id s → s.registered = true → w.sessionFor? s.source = some id

/-- An active session stands as one. -/
theorem World.standing?_of_active {s : Session} (h : w.Active id s) :
    w.standing? id = some ⟨s.source, s.registered, .active⟩ := by
  refine (World.seen_eq h.1).trans ?_
  unfold Session.standing
  rw [h.2]

/-- A session that stands as an active one is active. -/
theorem World.active_of_standing? {st : Standing} (h : w.standing? id = some st)
    (hactive : st.state = .active) :
    ∃ s, w.Active id s ∧ s.source = st.source ∧ s.registered = st.registered := by
  obtain ⟨s, hs, hst⟩ := Option.bind_eq_some_iff.1 h
  cases hst
  exact ⟨s, ⟨hs, hactive⟩, rfl, rfl⟩

/-- Whether no source has two active sessions can be told from how they stand. -/
theorem World.oneEach_iff : w.OneEach ↔ ∀ {id st}, w.standing? id = some st →
    st.state = .active → st.registered = true → w.sessionFor? st.source = some id := by
  constructor
  · intro h id st hst hactive hregistered
    obtain ⟨s, hs, hsource, hsame⟩ := World.active_of_standing? hst hactive
    rw [← hsource]
    exact h.inCharge hs (hsame.trans hregistered)
  · intro h
    have hcharge : ∀ {id s}, w.Active id s → s.registered = true →
        w.sessionFor? s.source = some id :=
      fun hs hregistered => h (World.standing?_of_active hs) rfl hregistered
    refine ⟨?_, hcharge⟩
    intro id id' s s' hs hs' hregistered hregistered' hsource
    have hfor := hcharge hs hregistered
    rw [hsource, hcharge hs' hregistered'] at hfor
    exact (Option.some.inj hfor).symm

/-! ## What is kept -/

/-- Sessions keep their sources and do not become active, and if the registry has been in order it
still is. -/
structure World.Kept (w w' : World H C) : Prop where
  sessions : ∀ {id st}, w.standing? id = some st → ∃ st', w'.standing? id = some st' ∧
    st'.source = st.source ∧ st'.registered = st.registered ∧
    (st'.state = .active → st.state = .active)
  oneEach : w.OneEach → w'.OneEach

/-- A world is kept if the registry and the standing of all sessions are. -/
theorem World.kept_of_same (hstanding : w'.standing? = w.standing?)
    (hregistry : w'.registry = w.registry) : w.Kept w' where
  sessions := by
    intro id st hst
    rw [hstanding]
    exact ⟨st, hst, rfl, rfl, fun h => h⟩
  oneEach := by
    intro h
    rw [World.oneEach_iff] at h ⊢
    unfold World.sessionFor? at h ⊢
    rw [hstanding, hregistry]
    exact h

/-- Whether no source has two active sessions does not depend on the host. -/
theorem World.oneEach_beside (h : H) (c : C) : (w.beside h c).OneEach ↔ w.OneEach := by
  have hto : w.Kept (w.beside h c) := World.kept_of_same rfl rfl
  have hfrom : (w.beside h c).Kept w := World.kept_of_same rfl rfl
  exact ⟨hfrom.oneEach, hto.oneEach⟩

/-- What keeps a world may be done one after another. -/
theorem World.passage_kept : World.Passage (World.Kept (H := H) (C := C)) where
  refl _ := World.kept_of_same rfl rfl
  trans h₁ h₂ := by
    refine ⟨?_, fun h => h₂.oneEach (h₁.oneEach h)⟩
    intro id st hst
    obtain ⟨st₁, hst₁, hsource₁, hregistered₁, hactive₁⟩ := h₁.sessions hst
    obtain ⟨st₂, hst₂, hsource₂, hregistered₂, hactive₂⟩ := h₂.sessions hst₁
    exact ⟨st₂, hst₂, hsource₂.trans hsource₁, hregistered₂.trans hregistered₁,
      fun h => hactive₁ (hactive₂ h)⟩

/-- The session exists and is not active. -/
def World.Idle (w : World H C) (id : SessionId) : Prop :=
  ∃ st, w.standing? id = some st ∧ st.state = .inactive

/-- An idle session exists. -/
theorem World.Idle.exists_session (h : w.Idle id) : ∃ s, w.sessions[id]? = some s := by
  obtain ⟨st, hst, -⟩ := h
  obtain ⟨s, hs, -⟩ := Option.bind_eq_some_iff.1 hst
  exact ⟨s, hs⟩

/-- An idle session stays so while a world is kept. -/
theorem World.Kept.idle (h : w.Kept w') (hidle : w.Idle id) : w'.Idle id := by
  obtain ⟨st, hst, hstate⟩ := hidle
  obtain ⟨st', hst', -, -, hactive⟩ := h.sessions hst
  refine ⟨st', hst', ?_⟩
  cases hstate' : st'.state with
  | inactive => rfl
  | active =>
    rw [hactive hstate'] at hstate
    cases hstate

/-! ## Changes of sessions -/

/-- A change of a session changes how it stands, and no other. -/
theorem World.standing?_modifySession (f : Session → Session) (g : Standing → Standing)
    (hf : ∀ s, (f s).standing = g s.standing) (i : SessionId) :
    (w.modifySession id f).standing? i =
      if id = i then (w.standing? i).map g else w.standing? i := by
  unfold World.standing? World.seen
  rw [World.getElem?_modifySession]
  by_cases hi : id = i
  · rw [if_pos hi, if_pos hi]
    cases w.sessions[i]? with
    | none => rfl
    | some s => exact congrArg some (hf s)
  · rw [if_neg hi, if_neg hi]

/-- Changing a binding does not change how the session stands. -/
theorem Session.standing_modifyBinding (b : Nat) (f : Binding → Binding) (s : Session) :
    ({ s with bindings := s.bindings.modify b f } : Session).standing = s.standing := by
  unfold Session.standing Session.state Session.binding?
  cases s.current with
  | none => rfl
  | some c => simp

/-- Changing a binding keeps a world. -/
theorem World.kept_modifyBinding (b : Nat) (f : Binding → Binding) :
    w.Kept (w.modifySession id fun s => { s with bindings := s.bindings.modify b f }) := by
  refine World.kept_of_same (funext fun i => ?_) rfl
  rw [World.standing?_modifySession _ (fun st => st) (Session.standing_modifyBinding b f)]
  simp

/-- A session that has ended stands as inactive, and the others as they did. -/
theorem World.standing?_unbound (reason : EndReason) (i : SessionId) :
    (w.modifySession id (Session.ended reason)).standing? i =
      if id = i then (w.standing? i).map fun st => { st with state := .inactive }
      else w.standing? i :=
  World.standing?_modifySession _ (fun st => { st with state := .inactive }) (fun _ => rfl) i

/-- Ending a session keeps a world. -/
theorem World.kept_ended (reason : EndReason) :
    w.Kept (w.modifySession id (Session.ended reason)) := by
  refine ⟨?_, ?_⟩
  · intro i st hst
    rw [World.standing?_unbound, hst]
    by_cases hi : id = i
    · rw [if_pos hi]
      exact ⟨_, rfl, rfl, rfl, fun h => by cases h⟩
    · rw [if_neg hi]
      exact ⟨st, rfl, rfl, rfl, fun h => h⟩
  · intro h
    rw [World.oneEach_iff] at h ⊢
    intro i st hst hactive hregistered
    rw [World.standing?_unbound] at hst
    by_cases hi : id = i
    · rw [if_pos hi] at hst
      obtain ⟨st₀, -, rfl⟩ := Option.map_eq_some_iff.1 hst
      cases hactive
    · rw [if_neg hi] at hst
      exact h hst hactive hregistered

/-- A session that has ended is idle. -/
theorem World.idle_ended (reason : EndReason) {st : Standing} (hst : w.standing? id = some st) :
    (w.modifySession id (Session.ended reason)).Idle id := by
  refine ⟨{ st with state := .inactive }, ?_, rfl⟩
  rw [World.standing?_unbound, if_pos rfl, hst, Option.map_some]

/-! ## Changes of the registry -/

/-- Letting go of a source makes no difference to the others. -/
theorem World.sessionFor?_filter_of_ne {other : SourceId} (h : other ≠ source)
    {registry : List (SourceId × SessionId)}
    (hregistry : w'.registry = registry.filter fun e => e.1 ≠ source) (hw : w.registry = registry) :
    w'.sessionFor? other = w.sessionFor? other := by
  unfold World.sessionFor?
  rw [hregistry, hw, List.find?_filter]
  congr 2
  funext e
  by_cases he : e.1 = other
  · simp [he, h]
  · simp [he]

/-- The world with a session put in charge of a source. -/
def World.recorded (source : SourceId) (id : SessionId) (w : World H C) : World H C :=
  { w with registry := Registry.record source id w.registry }

/-- Putting a session in charge of a source makes no difference to the others. -/
theorem World.sessionFor?_recorded (source other : SourceId) (id : SessionId) (w : World H C) :
    (w.recorded source id).sessionFor? other =
      if other = source then some id else w.sessionFor? other := by
  unfold World.recorded World.sessionFor? Registry.record
  generalize w.registry = registry
  by_cases hany : (registry.any fun e => e.1 = source) = true
  · rw [if_pos hany]
    have hfind : (registry.map fun e => if e.1 = source then (source, id) else e).find?
        (fun e => e.1 = other) = (registry.find? fun e => e.1 = other).map
          fun e => if e.1 = source then (source, id) else e := by
      rw [List.find?_map]
      congr 2
      funext e
      by_cases he : e.1 = source
      · simp [he]
      · simp [he]
    show ((registry.map fun e => if e.1 = source then (source, id) else e).find?
      fun e => e.1 = other).map (·.2) = _
    rw [hfind]
    cases hfound : registry.find? fun e => e.1 = other with
    | some e =>
      have he : e.1 = other := by
        simpa using List.find?_some hfound
      by_cases hother : other = source
      · simp [he, hother]
      · simp [he, hother]
    | none =>
      have hother : other ≠ source := by
        rintro rfl
        obtain ⟨e, he, hsource⟩ := List.any_eq_true.1 hany
        exact List.find?_eq_none.1 hfound e he hsource
      simp [hother]
  · rw [if_neg hany]
    by_cases hother : other = source
    · subst hother
      have hnone : registry.find? (fun e => e.1 = other) = none :=
        List.find?_eq_none.2 fun e he hsource => hany (List.any_eq_true.2 ⟨e, he, hsource⟩)
      simp [List.find?_append, hnone]
    · simp [List.find?_append, hother, Ne.symm hother]

/-- The registry lets go of a source only if none of its sessions is active. -/
theorem World.kept_released {s : Session} (hidle : w.Idle id) : w.Kept (w.released id s) := by
  refine ⟨fun hst => ⟨_, hst, rfl, rfl, fun h => h⟩, ?_⟩
  intro h
  rw [World.oneEach_iff] at h ⊢
  intro i st hst hactive hregistered
  have hfor := h hst hactive hregistered
  by_cases hrelease : s.registered = true ∧ w.sessionFor? s.source = some id
  · have hregistry : (w.released id s).registry = w.registry.filter fun e => e.1 ≠ s.source :=
      if_pos hrelease
    -- An active session of the source let go of would be the one in charge, and that one is idle.
    have hne : st.source ≠ s.source := by
      intro hsource
      rw [hsource, hrelease.2] at hfor
      obtain ⟨st', hst', hstate⟩ := hidle
      rw [← Option.some.inj hfor] at hst
      rw [show w.standing? id = some st from hst] at hst'
      cases hst'
      rw [hactive] at hstate
      cases hstate
    rw [World.sessionFor?_filter_of_ne hne hregistry rfl]
    exact hfor
  · have hregistry : (w.released id s).registry = w.registry := if_neg hrelease
    unfold World.sessionFor? at hfor ⊢
    rw [hregistry]
    exact hfor

/-! ## Operations on sessions -/

section

variable (hhost : host.Stays World.Kept)

include hhost

/-- Ending the subscriptions of a session keeps a world. -/
theorem Session.endSubscriptions_kept (id : SessionId) (b : Nat) :
    ∀ rounds, (Session.endSubscriptions host id b rounds).Stays World.Kept
  | 0 => World.passage_kept.pure ()
  | rounds + 1 => by
    have hpop : (Session.popSubscription (H := H) (C := C) id b).Stays World.Kept := by
      refine World.passage_kept.bind (World.passage_kept.find id) fun s => ?_
      split
      · exact World.passage_kept.pure _
      · split
        · exact World.passage_kept.pure _
        · exact World.passage_kept.bind (fun w => World.kept_modifyBinding b _)
            fun _ => World.passage_kept.pure _
    refine World.passage_kept.bind hpop fun sub => ?_
    cases sub with
    | none => exact World.passage_kept.pure ()
    | some sub =>
      exact World.passage_kept.bind (hhost.unsubscribe sub) fun _ =>
        Session.endSubscriptions_kept id b rounds

/-- Refreshing a session keeps a world. -/
theorem Session.refresh_kept (id : SessionId) : (Session.refresh host id).Stays World.Kept := by
  have hkept := World.passage_kept (H := H) (C := C)
  refine hkept.bind (hkept.activeBinding _ id) ?_
  rintro ⟨b, binding⟩
  refine hkept.bind (hkept.render hhost id binding.view) fun lines => ?_
  refine hkept.bind (fun w => World.kept_modifyBinding b _) fun _ => ?_
  refine hkept.bind (hkept.title hhost id) fun title => ?_
  exact hkept.bind (hkept.find id) fun _ => hhost.log_stays _

/-- A session that is let go of is not active any more. -/
theorem Session.letGo_kept {s : Session} (hs : w.sessions[id]? = some s)
    (operation : SessionOperation) (reason : EndReason) :
    (Session.letGo host id operation reason).Ensures w (fun _ w' => w.Kept w' ∧ w'.Idle id)
      (fun _ w' => w.Kept w') := by
  have hkept := World.passage_kept (H := H) (C := C)
  have hst : w.standing? id = some s.standing := World.seen_eq hs
  refine (hkept.activeBinding operation id w).bind ?_ (fun _ _ h => h)
  rintro ⟨b, binding⟩ w₁ h₁
  refine (hkept.title hhost id w₁).bind ?_ (fun _ _ h => hkept.trans h₁ h)
  intro title w₂ h₂
  refine (Session.endSubscriptions_kept hhost id b _ w₂).bind ?_
    (fun _ _ h => hkept.trans h₁ (hkept.trans h₂ h))
  intro _ w₃ h₃
  have h := hkept.trans h₁ (hkept.trans h₂ h₃)
  rw [Action.ensures_bind, Action.ensures_modify]
  obtain ⟨st, hst₃, -⟩ := h.sessions hst
  exact ⟨hkept.trans h (World.kept_ended reason), World.idle_ended reason hst₃⟩

/-- Ending a session with all that belongs to it keeps a world. -/
theorem Session.finish_kept (id : SessionId) (operation : SessionOperation) (reason : EndReason) :
    (Session.finish host id operation reason).Stays World.Kept := by
  have hkept := World.passage_kept (H := H) (C := C)
  intro w
  cases hs : w.sessions[id]? with
  | none =>
    unfold Session.finish
    rw [Action.ensures_bind, Session.activeBinding_of_none hs]
    exact hkept.refl w
  | some s =>
    rw [Session.finish_eq]
    refine (Session.letGo_kept hhost hs operation reason).bind ?_ (fun _ _ h => h)
    rintro ⟨title, view⟩ w₁ ⟨h₁, hidle₁⟩
    refine (hhost.destroyView view w₁).bind ?_ (fun _ _ h => hkept.trans h₁ h)
    intro _ w₂ h₂
    refine (hhost.log_stays _ w₂).bind ?_ (fun _ _ h => hkept.trans h₁ (hkept.trans h₂ h))
    intro _ w₃ h₃
    -- The host may have called back while it ended the view, but not to enable this session.
    have hidle₃ := h₃.idle (h₂.idle hidle₁)
    have h := hkept.trans h₁ (hkept.trans h₂ h₃)
    obtain ⟨s₃, hs₃⟩ := hidle₃.exists_session
    rw [Session.release_ensures hs₃]
    exact hkept.trans h (World.kept_released hidle₃)

/-- Notifying a session keeps a world. -/
theorem Session.notify_kept (id : SessionId) (event : Notice) :
    (Session.notify host id event).Stays World.Kept := by
  have hkept := World.passage_kept (H := H) (C := C)
  refine hkept.bind (hkept.find id) fun s => ?_
  split
  · cases event with
    | commit => exact Session.refresh_kept hhost id
    | destroy => exact Session.finish_kept hhost id .sourceDestroyed .sourceDestroyed
  · exact hkept.bind (hkept.title hhost id) fun _ => hhost.log_stays _

end

/-! ## Enabling -/

/-- The source has another active session. -/
def World.Shares (source : SourceId) (id : SessionId) (w : World H C) : Prop :=
  ∃ other s, other ≠ id ∧ w.Active other s ∧ s.registered = true ∧ s.source = source

/-- The next session has a number of its own. -/
theorem World.ne_length_of_standing? {st : Standing} (hst : w.standing? id = some st) :
    id ≠ w.sessions.length := by
  rintro rfl
  rw [show w.standing? w.sessions.length = none from w.seen_length _] at hst
  cases hst

/-- A new session keeps a world. -/
theorem World.kept_withSession (source : SourceId) (settings : Settings) :
    w.Kept (w.withSession (freshSession source settings)) := by
  have hstanding : (w.withSession (freshSession source settings)).standing? =
      Function.update w.standing? w.sessions.length (some ⟨source, true, .inactive⟩) :=
    w.seen_withSession _ _
  refine ⟨?_, ?_⟩
  · intro i st hst
    rw [hstanding, Function.update_of_ne (World.ne_length_of_standing? hst)]
    exact ⟨st, hst, rfl, rfl, fun h => h⟩
  · intro h
    rw [World.oneEach_iff] at h ⊢
    intro i st hst hactive hregistered
    rw [hstanding] at hst
    by_cases hi : i = w.sessions.length
    · rw [hi, Function.update_self] at hst
      cases hst
      cases hactive
    · rw [Function.update_of_ne hi] at hst
      exact h hst hactive hregistered

/-- A session that has been bound stands as active, and the others as they did. -/
theorem World.standing?_bound (binding : Binding) (i : SessionId) :
    (w.modifySession id (Session.bound binding)).standing? i =
      if id = i then (w.standing? i).map fun st => { st with state := .active }
      else w.standing? i := by
  refine World.standing?_modifySession _ (fun st => { st with state := .active }) (fun s => ?_) i
  unfold Session.standing Session.state
  rw [Session.binding?_bound]
  rfl

section

variable {w₁ : World H C} {settings : Settings}
  (h : (w.withSession (freshSession source settings)).Kept w₁) (binding : Binding)

include h

/-- The session that was made is still there, and not active. -/
theorem World.Kept.standing?_fresh :
    w₁.standing? w.sessions.length = some ⟨source, true, .inactive⟩ := by
  have hfresh : (w.withSession (freshSession source settings)).standing? w.sessions.length =
      some ⟨source, true, .inactive⟩ := by
    refine (congrFun (w.seen_withSession _ _) _).trans ?_
    rw [Function.update_self]
    rfl
  obtain ⟨⟨source', registered, state⟩, hst, hsource, hregistered, hactive⟩ := h.sessions hfresh
  cases hsource
  cases hregistered
  cases state with
  | inactive => exact hst
  | active => cases hactive rfl

/-- Binding the session and putting it in charge leaves each source with one session exactly if the
source had no other. -/
theorem World.Kept.oneEach_recorded_iff (hw : w.OneEach) :
    ((w₁.modifySession w.sessions.length (Session.bound binding)).recorded source
        w.sessions.length).OneEach ↔
      ¬(w₁.modifySession w.sessions.length (Session.bound binding)).Shares source
        w.sessions.length := by
  constructor
  · rintro hone ⟨other, s, hne, hactive, hregistered, rfl⟩
    have hcharge := hone.inCharge hactive hregistered
    rw [World.sessionFor?_recorded, if_pos rfl] at hcharge
    exact hne (Option.some.inj hcharge).symm
  · intro halone
    have hone₁ : w₁.OneEach := h.oneEach ((World.kept_withSession source settings).oneEach hw)
    rw [World.oneEach_iff]
    intro i st hst hactive hregistered
    have hbound : (w₁.modifySession w.sessions.length (Session.bound binding)).standing? i =
        some st := hst
    rw [World.sessionFor?_recorded]
    by_cases hi : w.sessions.length = i
    · subst hi
      rw [World.standing?_bound, if_pos rfl, h.standing?_fresh, Option.map_some] at hbound
      cases hbound
      exact if_pos rfl
    · -- A session in charge of the source before would share it with the new one.
      have hother : st.source ≠ source := by
        intro hsource
        obtain ⟨s, hs, hsource', hregistered'⟩ := World.active_of_standing? hbound hactive
        exact halone ⟨i, s, Ne.symm hi, hs, hregistered'.trans hregistered, hsource'.trans hsource⟩
      rw [World.standing?_bound, if_neg hi] at hbound
      rw [if_neg hother]
      exact World.oneEach_iff.1 hone₁ hbound hactive hregistered

/-- Binding the next session leaves the standing of those that existed, if the world was kept up to
then. -/
theorem World.Kept.sessions_bound {st : Standing} (hst : w.standing? id = some st) :
    ∃ st', (w₁.modifySession w.sessions.length (Session.bound binding)).standing? id = some st' ∧
      st'.source = st.source ∧ st'.registered = st.registered ∧
      (st'.state = .active → st.state = .active) := by
  rw [World.standing?_bound, if_neg (Ne.symm (World.ne_length_of_standing? hst))]
  exact (World.passage_kept.trans (World.kept_withSession source settings) h).sessions hst

end

/-- The part of enabling the view of a source that makes a session and enables it. What is left to
do is to put the session in charge. -/
def Registry.opening (host : Host H C) (source : SourceId) (settings : Settings) :
    Action H C SessionId := do
  let id ← Session.create source settings.resolve true
  Session.enable host id
  return id

/-- Enabling a view of a source that has none opens it and puts its session in charge. -/
theorem Registry.enable_of_free_iff {settings : Settings} (hfree : w.sessionFor? source = none)
    {Q : SessionId → World H C → Prop} {E : Failure → World H C → Prop} :
    (Registry.enable host source settings).Ensures w Q E ↔
      (Registry.opening host source settings).Ensures w
        (fun id w₁ => Q id (w₁.recorded source id)) E := by
  unfold Registry.enable Registry.opening World.recorded
  rw [Action.ensures_bind, Action.ensures_get, hfree]
  simp only [Action.ensures_bind, Action.ensures_modify, Action.ensures_pure]

/-- Opening a view makes a session. What then happens up to its binding, or up to a failure, stays
in the relation. -/
theorem Registry.opening_ensures {R : World H C → World H C → Prop} (hR : World.Passage R)
    (hhost : host.Stays R) (source : SourceId) (settings : Settings) :
    (Registry.opening host source settings).Ensures w
      (fun id w' => id = w.sessions.length ∧ ∃ w₁ binding h c,
        R (w.withSession (freshSession source settings)) w₁ ∧
        w' = (w₁.modifySession w.sessions.length (Session.bound binding)).beside h c)
      (fun _ w' => R (w.withSession (freshSession source settings)) w') := by
  unfold Registry.opening Session.create
  simp only [Action.ensures_bind, Action.ensures_get, Action.ensures_set, Action.ensures_pure]
  refine (hR.enable (w := w.withSession (freshSession source settings)) hhost
    w.sessions.length).mono ?_ (fun _ _ h => h)
  intro _ w' h
  exact ⟨trivial, h⟩

/-- When the new session has been enabled, the source has another active session. -/
def Registry.Crowds (host : Host H C) (source : SourceId) (settings : Settings) (w : World H C) :
    Prop :=
  w.sessionFor? source = none ∧ (Registry.opening host source settings).Ensures w
    (fun id w₁ => w₁.Shares source id) (fun _ _ => False)

/-- The step opens a view of a source that then has another active session. -/
def Step.Crowds (host : Host H C) (w : World H C) : Step → Prop
  | .call (.enable source settings) => Registry.Crowds host source settings w
  | _ => False

/-- A world is kept unless a source gets a second session, and is not in order if one does. -/
structure World.KeptUnless (crowds : Prop) (w w' : World H C) : Prop where
  kept : (w.OneEach → ¬crowds) → w.Kept w'
  notOneEach : w.OneEach → crowds → ¬w'.OneEach

/-- A world that is kept is so where no source gets a second session. -/
theorem World.Kept.unless {crowds : Prop} (h : w.Kept w') (hnot : ¬crowds) :
    w.KeptUnless crowds w' :=
  ⟨fun _ => h, fun _ hcrowds => (hnot hcrowds).elim⟩

/-- Enabling a view keeps a world unless its source gets a second session meanwhile. -/
theorem Registry.enable_keptUnless (hhost : host.Stays World.Kept) (source : SourceId)
    (settings : Settings) :
    (Registry.enable host source settings).Ensures w
      (fun _ w' => w.KeptUnless (Registry.Crowds host source settings w) w')
      (fun _ w' => w.KeptUnless (Registry.Crowds host source settings w) w') := by
  have hkept := World.passage_kept (H := H) (C := C)
  cases hfree : w.sessionFor? source with
  | some existing =>
    have hnot : ¬Registry.Crowds host source settings w := by
      rintro ⟨hnone, -⟩
      rw [hfree] at hnone
      cases hnone
    unfold Registry.enable
    rw [Action.ensures_bind, Action.ensures_get, hfree]
    have hrefused : (do
        let state := (← Session.find existing).state
        let title ← Session.title host existing
        throw (.view (.alreadyViewed state title)) : Action H C SessionId).Stays World.Kept :=
      hkept.bind (hkept.find existing) fun _ =>
        hkept.bind (hkept.title hhost existing) fun _ => hkept.throw _
    exact (hrefused w).mono (fun _ _ h => h.unless hnot) (fun _ _ h => h.unless hnot)
  | none =>
    rw [Registry.enable_of_free_iff hfree]
    have hopening := Registry.opening_ensures (w := w) hkept hhost source settings
    cases hrun : Registry.opening host source settings w with
    | error e w' =>
      rw [Action.ensures_of_error hrun] at hopening ⊢
      have hnot : ¬Registry.Crowds host source settings w := by
        rintro ⟨-, hshares⟩
        exact (Action.ensures_of_error hrun).1 hshares
      exact (hkept.trans (World.kept_withSession source settings) hopening).unless hnot
    | ok id w' =>
      have hcrowds : Registry.Crowds host source settings w ↔ w'.Shares source id := by
        unfold Registry.Crowds
        rw [Action.ensures_of_ok hrun]
        exact and_iff_right hfree
      rw [hcrowds]
      rw [Action.ensures_of_ok hrun] at hopening ⊢
      obtain ⟨rfl, w₁, binding, h, c, h₁, rfl⟩ := hopening
      have hiff := fun hw => (World.oneEach_beside h c).trans (h₁.oneEach_recorded_iff binding hw)
      refine ⟨fun hnot => ⟨fun hst => h₁.sessions_bound binding hst, fun hw => ?_⟩, ?_⟩
      · exact (hiff hw).2 (hnot hw)
      · exact fun hw hshares hone => (hiff hw).1 hone hshares

/-- What a step does is kept, unless it gives a source a second session. -/
theorem Step.run_keptUnless (hhost : host.Stays World.Kept) (step : Step) :
    (step.run host).Ensures w (fun _ w' => w.KeptUnless (step.Crowds host w) w')
      (fun _ w' => w.KeptUnless (step.Crowds host w) w') := by
  have hkept := World.passage_kept (H := H) (C := C)
  have hstays : ∀ {a : Action H C Unit}, a.Stays World.Kept →
      a.Ensures w (fun _ w' => w.KeptUnless False w') (fun _ w' => w.KeptUnless False w') :=
    fun ha => (ha w).mono (fun _ _ h => h.unless not_false) (fun _ _ h => h.unless not_false)
  cases step with
  | announce event listeners =>
    exact hstays (hkept.forM (fun id => Session.notify_kept hhost id event) listeners)
  | dispose =>
    refine hstays fun w => ?_
    unfold Step.run Registry.dispose
    rw [Action.ensures_bind, Action.ensures_get]
    exact hkept.forM (fun id => Session.finish_kept hhost id .disable .disabled) _ w
  | call c =>
    cases c with
    | enable source settings =>
      unfold Step.run Call.run
      rw [Action.ensures_bind]
      exact Registry.enable_keptUnless hhost source settings
    | disable id => exact hstays (Session.finish_kept hhost id .disable .disabled)
    | navigate id index =>
      exact hstays (hkept.bind (hkept.logged hhost id (hkept.navigate hhost id index)) fun _ =>
        hkept.pure ())
    | jump id target =>
      exact hstays (hkept.bind (hkept.logged hhost id (hkept.jump hhost id target)) fun _ =>
        hkept.pure ())
    | disableSession id => exact hstays (Session.finish_kept hhost id .disable .disabled)
    | refresh id => exact hstays (Session.refresh_kept hhost id)
    | sourceDestroyed id =>
      exact hstays (Session.finish_kept hhost id .sourceDestroyed .sourceDestroyed)
    | notify id event => exact hstays (Session.notify_kept hhost id event)

end

end TreeInspector
