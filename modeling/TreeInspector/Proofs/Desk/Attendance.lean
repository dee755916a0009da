import TreeInspector.Proofs.Desk.Roll

/-!
# Sessions that attend to their sources

As long as all listeners are sessions of the registry, a source that nobody views has no listeners,
and one that is viewed has one to each event, which is the session that views it. This holds whether
or not the output takes what is written: a session lets go of its source before its view is ended.
What is announced therefore reaches one session at most, and no failure can keep it from others.
-/

set_option autoImplicit false

namespace TreeInspector

section

variable {C : Type} {w w' : World Desk C} {g : Desk} {id : SessionId} {source : SourceId}

/-- Who listens to a source is who views it, and whoever views a source is in charge of it. -/
structure World.Attended (w : World Desk C) : Prop where
  listens : w.host.roll.Attended w.holding?
  inCharge : ∀ {id hold}, w.holding? id = some hold → w.sessionFor? hold.source = some id

/-- No session has begun to view a source. -/
def World.Wanes (w w' : World Desk C) : Prop :=
  ∀ {id hold}, w'.holding? id = some hold → w.holding? id = some hold

/-- Attendance depends on the roll, the holdings and the registry only. -/
theorem World.Attended.same (hw : w.Attended) (hroll : w'.host.roll = w.host.roll)
    (hholding : w'.holding? = w.holding?) (hregistry : w'.registry = w.registry) :
    w'.Attended where
  listens := by
    rw [hroll, hholding]
    exact hw.listens
  inCharge := by
    intro id hold held
    rw [hholding] at held
    have hfor := hw.inCharge held
    unfold World.sessionFor? at hfor ⊢
    rw [hregistry]
    exact hfor

/-- A change of the desk that leaves the roll keeps attendance. -/
theorem World.Attended.beside (hw : w.Attended) {d : Desk} (hroll : d.roll = w.host.roll) (c : C) :
    (w.beside d c).Attended :=
  hw.same hroll rfl rfl

namespace Desk

/-! ## Operations on sessions -/

/-- Looking around does not change the roll. -/
theorem looksAround_roll {h₁ h₂ : Desk} (looks : (rollTerms g).LooksAround h₁ h₂) :
    h₂.roll = h₁.roll := by
  induction looks with
  | done h => rfl
  | isAvailable call _ ih => exact ih.trans call
  | sourceName call _ ih => exact ih.trans call.1
  | focus call _ ih => exact ih.trans call
  | log call _ ih => exact ih.trans call

/-- Filling a view does not change the roll. -/
theorem renders_roll {navigation : Bool} {view : ViewId} {h h' : Desk}
    {r : Except Failure (List ViewLine)}
    (renders : (rollTerms g).Renders source navigation view h r h') : h'.roll = h.roll := by
  cases renders with
  | noTree call => exact call.1
  | notShown call fails => exact Eq.trans fails call.1
  | shown call shows => exact Eq.trans shows call.1

/-- Ending a view does not change the roll. -/
theorem clears_roll {title : String} {view : ViewId} {h h' : Desk}
    (clears : (rollTerms g).Clears title view h h') : h'.roll = h.roll := by
  cases clears with
  | done call => exact call
  | failed call logs => exact Eq.trans logs call

/-- No subscription fails to be ended. -/
theorem not_unsubscribesUntil {subs left : List SubscriptionId} {e : Failure} {h h' : Desk} :
    ¬ (rollTerms g).UnsubscribesUntil subs h e left h' := by
  intro ends
  induction ends with
  | here fails => cases fails.1
  | later _ _ ih => exact ih

/-- A view that could not be filled has not been subscribed for, so undoing it changes no
subscription. -/
theorem binds_tidies_roll {navigation : Bool} {view : ViewId} {title : String} {e : Failure}
    {made : List SubscriptionId} {h₁ h₂ h₃ : Desk}
    (binds : (rollTerms g).Binds source navigation id view h₁ (.error (e, made)) h₂)
    (tidies : (rollTerms g).Tidies title made h₂ h₃) : h₃.roll = h₁.roll := by
  cases binds with
  | noCommit renders fails => cases fails.1
  | noDestroy renders first fails => cases fails.1
  | unrendered renders =>
    cases tidies with
    | failed some logs => exact (not_unsubscribesUntil some).elim
    | done all =>
      cases all with
      | nil => exact renders_roll renders

/-- A binding that is made adds one subscription to each event of a source that is open. -/
theorem binds_roll {navigation : Bool} {view : ViewId} {binding : Binding} {h h' : Desk}
    (binds : (rollTerms g).Binds source navigation id view h (.ok binding) h') :
    ¬ g.Shut source ∧ binding.subscriptions =
      [h.roll.subscriptions.length + 1, h.roll.subscriptions.length] ∧
      h'.roll = (h.roll.subscribed source .commit (.session id .commit)).subscribed source .destroy
        (.session id .destroy) := by
  cases binds with
  | bound renders first second =>
    obtain ⟨hcommit, hfirst⟩ := first
    obtain ⟨hdestroy, hsecond⟩ := second
    cases hcommit
    cases hdestroy
    have hroll := renders_roll renders
    have hopen : ¬ g.Shut source := by
      cases renders with
      | shown call shows => exact call.2 _ rfl
    rw [hsecond, hfirst, hroll]
    refine ⟨hopen, ?_, rfl⟩
    simp [Roll.subscribed]

end Desk

/-- The registry lets go of no other source than that of the session. -/
theorem World.sessionFor?_released {s : Session} {other : SourceId} (h : other ≠ s.source)
    (id : SessionId) (w : World Desk C) :
    (w.released id s).sessionFor? other = w.sessionFor? other := by
  by_cases hrelease : s.registered = true ∧ w.sessionFor? s.source = some id
  · exact World.sessionFor?_filter_of_ne h (if_pos hrelease) rfl
  · have hsame : (w.released id s).registry = w.registry := if_neg hrelease
    unfold World.sessionFor?
    rw [hsame]

section

variable {s : Session} {b : Nat} {binding : Binding} {r : Except Failure Unit}

/-- Refreshing a session keeps attendance, and no session begins to view a source. -/
theorem Session.Refreshes.attended
    (does : Session.Refreshes (Desk.rollTerms g) w id s b binding r w') (hw : w.Attended)
    (hs : w.sessions[id]? = some s) (hb : s.current = some b)
    (hbinding : s.bindings[b]? = some binding) : w'.Attended ∧ w.Wanes w' := by
  have hholding : ∀ lines, (w.modifySession id (Session.showing b lines)).holding? = w.holding? :=
    fun lines => World.seen_modifySession_same hs (Session.holding?_showing hb hbinding lines)
  have hshown : ∀ {lines d c}, d.roll = w.host.roll →
      ((w.modifySession id (Session.showing b lines)).beside d c).Attended ∧
        w.Wanes ((w.modifySession id (Session.showing b lines)).beside d c) := by
    intro lines d c hroll
    refine ⟨hw.same hroll (hholding lines) rfl, ?_⟩
    intro id' hold held
    exact (congrFun (hholding lines) id').symm.trans held
  cases does with
  | unrendered renders => exact ⟨hw.beside (Desk.renders_roll renders) _, fun held => held⟩
  | unnamed renders name => exact hshown (name.1.trans (Desk.renders_roll renders))
  | done renders name logs =>
    exact hshown (Eq.trans logs (name.1.trans (Desk.renders_roll renders)))

/-- The session has ended its subscriptions and is not bound any more. -/
theorem World.Attended.letGo (hw : w.Attended) (hs : w.sessions[id]? = some s)
    (hb : s.current = some b) (hbinding : s.bindings[b]? = some binding) (reason : EndReason)
    {h₁ h₂ : Desk} (hroll : h₁.roll = w.host.roll)
    (ends : (Desk.rollTerms g).Unsubscribes binding.subscriptions h₁ h₂) {d : Desk}
    (hd : d.roll = h₂.roll) (c : C) :
    ((w.modifySession id fun s => (s.keeping b []).ended reason).beside d c).Attended ∧
      ∀ {id' hold}, ((w.modifySession id fun s =>
        (s.keeping b []).ended reason).beside d c).holding? id' = some hold →
          w.holding? id' = some hold ∧ hold.source ≠ s.source := by
  have held : w.holding? id = some ⟨s.source, s.registered, binding.view, binding.subscriptions⟩ :=
    (World.seen_eq hs).trans (Session.holding?_of_bound hb hbinding)
  have hholding : (w.modifySession id fun s => (s.keeping b []).ended reason).holding? =
      Function.update w.holding? id none := World.seen_modifySession hs _
  obtain ⟨commit, destroy, hsubs, hcommit, hdestroy⟩ := hw.listens.held held
  have hended := hw.listens.ended held hcommit hdestroy
  have hlast : h₂.roll = (w.host.roll.unsubscribed destroy
      (Roll.sessionSub s.source .destroy id)).unsubscribed commit
        (Roll.sessionSub s.source .commit id) := by
    rw [show binding.subscriptions = [destroy, commit] from hsubs] at ends
    cases ends with
    | cons first others =>
      cases others with
      | cons second none =>
        cases none
        have hfirst := first.2 _ (by rw [hroll]; exact hdestroy.called) rfl
        have hsecond := second.2 _ (by
          rw [hfirst, hroll]
          exact hcommit.called_unsubscribed hdestroy) rfl
        rw [hsecond, hfirst, hroll]
  have hold' : ∀ {id' hold}, ((w.modifySession id fun s =>
      (s.keeping b []).ended reason).beside d c).holding? id' = some hold →
        w.holding? id' = some hold ∧ hold.source ≠ s.source := by
    intro id' hold held'
    have heq := (congrFun hholding id').symm.trans held'
    by_cases hid : id' = id
    · rw [hid, Function.update_self] at heq
      cases heq
    · rw [Function.update_of_ne hid] at heq
      exact ⟨heq, fun hsource => hid (hw.listens.id_eq held heq hsource)⟩
  refine ⟨⟨?_, fun held' => hw.inCharge (hold' held').1⟩, hold'⟩
  rw [World.beside_host, hd, hlast]
  rw [← hholding] at hended
  exact hended

/-- Ending a session keeps attendance, and then nobody views its source. -/
theorem Session.Finishes.attended {reason : EndReason}
    (does : Session.Finishes (Desk.rollTerms g) w id s b binding reason r w') (hw : w.Attended)
    (hs : w.sessions[id]? = some s) (hb : s.current = some b)
    (hbinding : s.bindings[b]? = some binding) :
    w'.Attended ∧ ∀ {id' hold}, w'.holding? id' = some hold →
      w.holding? id' = some hold ∧ hold.source ≠ s.source := by
  cases does with
  | unnamed name =>
    -- The session views its source, so the source is there and has a name.
    have held := (World.seen_eq hs).trans (Session.holding?_of_bound hb hbinding)
    obtain ⟨commit, destroy, -, hcommit, -⟩ := hw.listens.held held
    have hnone := name.2
    obtain ⟨listeners, hthere, -⟩ := Option.map_eq_some_iff.1 hcommit.only
    rw [show w.host.roll.listeners[s.source]? = some listeners from hthere] at hnone
    cases hnone
  | interrupted name ends => exact (Desk.not_unsubscribesUntil ends).elim
  | viewLeft name ends view => exact hw.letGo hs hb hbinding reason name.1 ends view _
  | @done title message h₁ h₂ h₃ h₄ c name ends view logs =>
    obtain ⟨hlet, hheld⟩ := hw.letGo hs hb hbinding reason name.1 ends (Eq.trans logs view) c
    refine ⟨⟨hlet.listens, ?_⟩, hheld⟩
    intro id' hold held
    refine Eq.trans ?_ (hlet.inCharge held)
    exact World.sessionFor?_released (hheld held).2 id
      ((w.modifySession id fun s => (s.keeping b []).ended reason).beside h₄ c)

end

/-- Tending to a session keeps attendance, and no session begins to view a source. -/
theorem Session.Tends.attended {r : Except Failure Unit}
    (tends : Session.Tends (Desk.rollTerms g) w r w') (hw : w.Attended) :
    w'.Attended ∧ w.Wanes w' := by
  cases tends with
  | looks looked =>
    obtain ⟨d, c, rfl, -, hlooks⟩ := looked
    exact ⟨hw.beside (Desk.looksAround_roll hlooks) c, fun held => held⟩
  | refreshes session current bound does => exact does.attended hw session current bound
  | finishes session current bound does =>
    obtain ⟨hw', hheld⟩ := does.attended hw session current bound
    exact ⟨hw', fun held => (hheld held).1⟩

/-- Tending to several sessions keeps attendance, and none begins to view a source. -/
theorem World.Tended.attended (tended : w.Tended (Desk.rollTerms g) w') (hw : w.Attended) :
    w'.Attended ∧ w.Wanes w' := by
  induction tended with
  | refl => exact ⟨hw, fun held => held⟩
  | tail _ tends ih =>
    obtain ⟨r, htends⟩ := tends
    obtain ⟨hw', hwanes⟩ := htends.attended ih.1
    exact ⟨hw', fun held => ih.2 (hwanes held)⟩

/-- A session that has just been bound. -/
theorem World.holding?_bound_freshSession (w : World Desk C) (source : SourceId)
    (settings : Settings) (binding : Binding) :
    ((w.withSession (freshSession source settings)).modifySession w.sessions.length
      (Session.bound binding)).holding? = Function.update w.holding? w.sessions.length
        (some ⟨source, true, binding.view, binding.subscriptions⟩) := by
  have hs : (w.withSession (freshSession source settings)).sessions[w.sessions.length]? =
      some (freshSession source settings) := by
    simp [World.withSession]
  have hold : ((freshSession source settings).bound binding).holding? =
      some ⟨source, true, binding.view, binding.subscriptions⟩ := by
    unfold Session.holding?
    rw [Session.binding?_bound, Option.map_some]
    rfl
  refine (World.seen_modifySession hs _).trans ?_
  rw [hold]
  exact congrArg (Function.update · _ _) (w.holding?_freshSession source settings)

/-- A session made for a source that nobody viewed attends to it once it is bound. -/
theorem World.Attended.opened (hw : w.Attended) {settings : Settings}
    (free : ∀ id, (source, id) ∉ w.registry)
    (hthere : (w.host.roll.listeners[source]?).isSome = true) {binding : Binding}
    (hsubs : binding.subscriptions =
      [w.host.roll.subscriptions.length + 1, w.host.roll.subscriptions.length]) {d : Desk}
    (hroll : d.roll = (w.host.roll.subscribed source .commit
      (.session w.sessions.length .commit)).subscribed source .destroy
        (.session w.sessions.length .destroy)) (c : C) {w₁ : World Desk C}
    (hw₁ : w₁ = ((w.withSession (freshSession source settings)).modifySession w.sessions.length
      (Session.bound binding)).beside d c) :
    World.Attended { w₁ with registry := w.registry ++ [(source, w.sessions.length)] } ∧
      ∀ {id hold}, w₁.holding? id = some hold → w.holding? id = some hold ∨
        hold.source = source := by
  have hholding : w₁.holding? = Function.update w.holding? w.sessions.length
      (some ⟨source, true, binding.view, binding.subscriptions⟩) := by
    subst hw₁
    exact w.holding?_bound_freshSession source settings binding
  have hdesk : w₁.host = d := by
    subst hw₁
    rfl
  have hunseen : ∀ {id hold}, w.holding? id = some hold → hold.source ≠ source := by
    rintro id hold held rfl
    exact free id (World.mem_of_sessionFor?_eq_some (hw.inCharge held))
  have hcases : ∀ {id hold}, w₁.holding? id = some hold →
      id = w.sessions.length ∧ hold.source = source ∨ w.holding? id = some hold := by
    intro id hold held
    rw [hholding] at held
    by_cases hid : id = w.sessions.length
    · rw [hid, Function.update_self] at held
      cases held
      exact .inl ⟨hid, rfl⟩
    · rw [Function.update_of_ne hid] at held
      exact .inr held
  refine ⟨⟨?_, ?_⟩, fun held => (hcases held).elim (fun h => .inr h.2) .inl⟩
  · obtain ⟨listeners, hlisteners⟩ := Option.isSome_iff_exists.1 hthere
    have hbegun := hw.listens.begun (w.seen_length Session.holding?) hunseen hlisteners true
      binding.view
    rw [← hsubs, ← hroll, ← hholding, ← hdesk] at hbegun
    exact hbegun
  · intro id hold held
    have hfor := World.sessionFor?_recorded source hold.source w.sessions.length w
    unfold World.recorded World.sessionFor? at hfor
    rw [Registry.record_of_free free] at hfor
    refine hfor.trans ?_
    rcases hcases held with ⟨rfl, hsource⟩ | old
    · rw [if_pos hsource]
    · rw [if_neg (hunseen old)]
      exact hw.inCharge old

/-- Only a source that is open is newly viewed. -/
theorem Call.Does.attended {r : Except Failure Unit} (does : Call.Does (Desk.rollTerms g) w r w')
    (hw : w.Attended) :
    w'.Attended ∧ ∀ {id hold}, w'.holding? id = some hold →
      w.holding? id = some hold ∨ ¬ g.Shut hold.source := by
  cases does with
  | tends tends =>
    obtain ⟨hw', hwanes⟩ := tends.attended hw
    exact ⟨hw', fun held => .inl (hwanes held)⟩
  | @staysClosed source settings e w' free does =>
    have hholding := w.holding?_freshSession source settings
    have hkept : ∀ {d c}, d.roll = w.host.roll →
        ((w.withSession (freshSession source settings)).beside d c).Attended ∧
        ∀ {id hold}, ((w.withSession (freshSession source settings)).beside d c).holding? id =
          some hold → w.holding? id = some hold ∨ ¬ g.Shut hold.source := by
      intro d c hroll
      refine ⟨hw.same hroll hholding rfl, fun {id hold} held => .inl ?_⟩
      exact (congrFun hholding id).symm.trans held
    cases does with
    | unnamed name => exact hkept name.1
    | noView name view => exact hkept (Eq.trans view name.1)
    | undone name makes binds tidies clears =>
      exact hkept ((Desk.clears_roll clears).trans ((Desk.binds_tidies_roll binds tidies).trans
        (Eq.trans makes name.1)))
  | @opens source settings w₁ free does =>
    cases does with
    | @done title _ view binding h₁ h₂ h₃ h₄ c name makes binds logs =>
      obtain ⟨hopen, hsubs, hbound⟩ := Desk.binds_roll binds
      have hbefore : h₂.roll = w.host.roll := Eq.trans makes name.1
      rw [hbefore] at hsubs hbound
      obtain ⟨hw', hheld⟩ := hw.opened free name.2.symm hsubs (Eq.trans logs hbound) c rfl
      refine ⟨hw', fun held => (hheld held).imp_right ?_⟩
      rintro rfl
      exact hopen

/-- A step of the registry leaves the listeners in order. -/
theorem Step.after_attended (hw : w.Attended) (htalks : w.host.Talks) (step : Step) :
    ((step.run Desk.host).outcome w).2.Attended ∧
      ∀ {id hold}, ((step.run Desk.host).outcome w).2.holding? id = some hold →
        w.holding? id = some hold ∨ ¬ w.host.Shut hold.source := by
  have hdoes := Action.Ensures.outcome
    (P := fun _ w' => (Desk.rollTerms w.host.ground).fit w'.host ∧
      Step.Does (Desk.rollTerms w.host.ground) w w')
    (step.run_does (Desk.host_honours_roll w.host.ground) ⟨rfl, htalks⟩)
  rcases hdoes.2 with does | tended
  · obtain ⟨hw', hheld⟩ := does.attended hw
    refine ⟨hw', fun held => (hheld held).imp_right ?_⟩
    intro hopen hshut
    exact hopen ((Desk.shut_ground _ _).2 hshut)
  · obtain ⟨hw', hwanes⟩ := tended.attended hw
    exact ⟨hw', fun held => .inl (hwanes held)⟩

end

end TreeInspector
