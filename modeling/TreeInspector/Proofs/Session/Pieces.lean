import TreeInspector.Proofs.Session.Deeds
import TreeInspector.Proofs.Session.Reentrancy

/-!
# Deeds piece by piece

If the host calls back, a deed is interrupted by others, and only pieces of it happen at once: a
session is made, or bound, or ended, or one of its bindings changes. Whatever is done on such a
host, what happens to the sessions is one piece after another. On the way it can be told which
sessions ended, and for which reason.
-/

set_option autoImplicit false

namespace TreeInspector

/-- A session has ended for a reason. -/
structure SessionEnd where
  id : SessionId
  reason : EndReason

section

variable {H C : Type} {host : Host H C} {w w' : World H C} {id : SessionId} {s : Session}

/-! ## Sessions that stay -/

/-- The session is still there, for the same source and with the same options. -/
def World.Knows (w : World H C) (id : SessionId) (s : Session) : Prop :=
  ∃ s', w.sessions[id]? = some s' ∧ s'.source = s.source ∧ s'.options = s.options

/-- No session has vanished or changed what it is about. -/
def World.Persists (w w' : World H C) : Prop :=
  ∀ ⦃id : SessionId⦄ ⦃s : Session⦄, w.sessions[id]? = some s → w'.Knows id s

/-- A session that is known stays so as long as the sessions persist. -/
theorem World.Knows.persists (known : w.Knows id s) (persists : w.Persists w') :
    w'.Knows id s := by
  obtain ⟨s₁, hs₁, hsource₁, hoptions₁⟩ := known
  obtain ⟨s₂, hs₂, hsource₂, hoptions₂⟩ := persists hs₁
  exact ⟨s₂, hs₂, hsource₂.trans hsource₁, hoptions₂.trans hoptions₁⟩

/-- Sessions that have not changed persist. -/
theorem World.persists_of_sessions (hsessions : w'.sessions = w.sessions) : w.Persists w' :=
  fun _ s hs => ⟨s, by rwa [hsessions], rfl, rfl⟩

/-- A change of a session that keeps its source and its options lets the sessions persist. -/
theorem World.persists_modifySession (w : World H C) (id : SessionId) {f : Session → Session}
    (hsource : ∀ s, (f s).source = s.source) (hoptions : ∀ s, (f s).options = s.options) :
    w.Persists (w.modifySession id f) := by
  intro i s hs
  unfold World.Knows
  rw [World.getElem?_modifySession, hs]
  by_cases hi : id = i
  · exact ⟨f s, if_pos hi, hsource s, hoptions s⟩
  · exact ⟨s, if_neg hi, rfl, rfl⟩

/-! ## Pieces -/

/-- What can happen to the sessions, piece by piece, with the endings on the way. The registry, the
host and the client may change as they like. -/
inductive World.Went : World H C → List SessionEnd → World H C → Prop where
  | rests {w w' : World H C} (same : w'.sessions = w.sessions) : World.Went w [] w'
  | makes {w : World H C} (source : SourceId) (options : Options) (registered : Bool) :
      World.Went w [] (w.withSession { source, options, registered })
  | keeps {w : World H C} (id : SessionId) (b : Nat) (subscriptions : List SubscriptionId) :
      World.Went w [] (w.modifySession id (Session.keeping b subscriptions))
  | shows {w : World H C} {id : SessionId} {s : Session} (there : w.sessions[id]? = some s)
      (b : Nat) (tree : ParseTree) :
      World.Went w [] (w.modifySession id (Session.showing b (tree.render s.options.navigation)))
  | binds {w : World H C} {id : SessionId} {s : Session} {binding : Binding} {tree : ParseTree}
      (there : w.sessions[id]? = some s)
      (rendered : binding.lines = tree.render s.options.navigation) :
      World.Went w [] (w.modifySession id (Session.bound binding))
  | ends {w : World H C} {id : SessionId} {s : Session} (there : w.sessions[id]? = some s)
      (reason : EndReason) :
      World.Went w [⟨id, reason⟩] (w.modifySession id (Session.ended reason))
  | next {w₁ w₂ w₃ : World H C} {endings endings' : List SessionEnd}
      (first : World.Went w₁ endings w₂) (second : World.Went w₂ endings' w₃) :
      World.Went w₁ (endings ++ endings') w₃

/-- Nothing has happened to the sessions but piece by piece. -/
def World.ByPieces (w w' : World H C) : Prop := ∃ endings, w.Went endings w'

/-- What happens piece by piece may be done one after another. -/
theorem World.passage_byPieces : World.Passage (World.ByPieces (H := H) (C := C)) where
  refl w := ⟨[], .rests rfl⟩
  trans := by
    rintro w₁ w₂ w₃ ⟨endings, first⟩ ⟨endings', second⟩
    exact ⟨endings ++ endings', .next first second⟩

/-- Where no session changes nothing happens to them but piece by piece. -/
theorem World.byPieces_of_sessions (same : w'.sessions = w.sessions) : w.ByPieces w' :=
  ⟨[], .rests same⟩

/-- Sessions persist through all that can happen to them. -/
theorem World.Went.persists {endings : List SessionEnd} (went : w.Went endings w') :
    w.Persists w' := by
  induction went with
  | rests same => exact World.persists_of_sessions same
  | makes source options registered =>
    intro i s hs
    refine ⟨s, ?_, rfl, rfl⟩
    exact (List.getElem?_append_left (List.getElem?_eq_some_iff.1 hs).1).trans hs
  | keeps | shows | binds | ends =>
    exact World.persists_modifySession _ _ (fun _ => rfl) (fun _ => rfl)
  | next first second ih₁ ih₂ => exact fun _ _ hs => (ih₁ hs).persists ih₂

/-- A session that exists stays known through what happens piece by piece. -/
theorem World.ByPieces.knows (h : w.ByPieces w') (hs : w.sessions[id]? = some s) :
    w'.Knows id s := by
  obtain ⟨endings, went⟩ := h
  exact went.persists hs

/-- Lines rendered for a session can be shown in it later. -/
theorem World.ByPieces.shows (h : w.ByPieces w') (hs : w.sessions[id]? = some s) (b : Nat)
    (tree : ParseTree) : w.ByPieces
      (w'.modifySession id (Session.showing b (tree.render s.options.navigation))) := by
  obtain ⟨s', hs', -, hoptions⟩ := h.knows hs
  rw [← hoptions]
  exact World.passage_byPieces.trans h ⟨[], .shows hs' b tree⟩

/-- A session can be bound later to lines rendered for it. -/
theorem World.ByPieces.binds (h : w.ByPieces w') (hs : w.sessions[id]? = some s)
    {binding : Binding} {tree : ParseTree}
    (rendered : binding.lines = tree.render s.options.navigation) :
    w.ByPieces (w'.modifySession id (Session.bound binding)) := by
  obtain ⟨s', hs', -, hoptions⟩ := h.knows hs
  rw [← hoptions] at rendered
  exact World.passage_byPieces.trans h ⟨[], .binds hs' rendered⟩

/-- A session may end after what has happened piece by piece. -/
theorem World.ByPieces.ends (h : w.ByPieces w') (hs : w.sessions[id]? = some s)
    (reason : EndReason) : w.ByPieces (w'.modifySession id (Session.ended reason)) := by
  obtain ⟨s', hs', -⟩ := h.knows hs
  exact World.passage_byPieces.trans h ⟨_, .ends hs' reason⟩

/-! ## Operations on sessions -/

/-- Nothing need be known of how an action ends. -/
theorem Action.ensures_true {α : Type} (a : Action H C α) (w : World H C) :
    a.Ensures w (fun _ _ => True) (fun _ _ => True) := by
  unfold Action.Ensures
  cases a w with
  | ok x w' => trivial
  | error e w' => trivial

/-- Doing nothing may be done one after another. -/
theorem World.passage_same : World.Passage fun w w' : World H C => w' = w :=
  ⟨fun _ => rfl, fun h₁ h₂ => h₂.trans h₁⟩

namespace Session

/-- Making a session is a piece. -/
theorem create_byPieces (source : SourceId) (options : Options) (registered : Bool) :
    (create source options registered : Action H C SessionId).Stays World.ByPieces :=
  fun _ => ⟨[], .makes source options registered⟩

/-- Telling the registry that a session has ended happens piece by piece. -/
theorem release_byPieces (id : SessionId) :
    (release id : Action H C Unit).Stays World.ByPieces := by
  refine World.passage_byPieces.bind (World.passage_byPieces.find id) fun s => ?_
  split
  · intro w
    rw [Action.ensures_modify]
    refine World.byPieces_of_sessions ?_
    split <;> rfl
  · exact World.passage_byPieces.pure ()

/-- Taking a subscription off a session is a piece. -/
theorem popSubscription_byPieces (id : SessionId) (b : Nat) :
    (popSubscription id b : Action H C _).Stays World.ByPieces := by
  refine World.passage_byPieces.bind (World.passage_byPieces.find id) fun s => ?_
  split
  · exact World.passage_byPieces.pure _
  · split
    · exact World.passage_byPieces.pure _
    · exact World.passage_byPieces.bind (fun w => ⟨[], .keeps id b _⟩)
        fun _ => World.passage_byPieces.pure _

/-- Whatever the host is, what is rendered is a tree, for the options of the session. -/
theorem render_lines (hs : w.sessions[id]? = some s) (view : ViewId) :
    (render host id view).Ensures w
      (fun lines _ => ∃ tree : ParseTree, lines = tree.render s.options.navigation)
      (fun _ _ => True) := by
  unfold render
  rw [Action.ensures_bind, ensures_find hs]
  refine (Action.ensures_true _ _).bind (fun tree w₁ _ => ?_) (fun _ _ h => h)
  refine (Action.ensures_true _ _).bind (fun _ _ _ => ?_) (fun _ _ h => h)
  exact ⟨tree, rfl⟩

/-- Undoing what was made ends with the failure that led to it. -/
theorem undo_fails {α : Type} (title : String) (view : ViewId) (subs : List SubscriptionId)
    (reason : Failure) (w : World H C) :
    (undo host title view subs reason : Action H C α).Ensures w (fun _ _ => False)
      (fun _ _ => True) :=
  (Action.ensures_true _ w).bind (fun _ w₁ _ => (Action.ensures_true _ w₁).bind
    (fun _ _ _ => trivial) (fun _ _ h => h)) (fun _ _ h => h)

/-- A binding that is made shows the lines of a tree. -/
theorem bindView_lines (hs : w.sessions[id]? = some s) (title : String) (view : ViewId) :
    (bindView host id title view).Ensures w
      (fun binding _ => ∃ tree : ParseTree, binding.lines = tree.render s.options.navigation)
      (fun _ _ => True) := by
  have hundo : ∀ {w' : World H C} {subs e},
      (undo host title view subs e : Action H C Binding).Ensures w'
        (fun binding _ => ∃ tree : ParseTree, binding.lines = tree.render s.options.navigation)
        (fun _ _ => True) :=
    (undo_fails title view _ _ _).mono (fun _ _ h => h.elim) (fun _ _ h => h)
  unfold bindView
  rw [Action.ensures_bind, ensures_find hs, Action.ensures_bind, Action.ensures_attempt]
  refine (render_lines hs view).mono ?_ (fun _ _ _ => hundo)
  rintro lines w₁ ⟨tree, rfl⟩
  refine (Action.ensures_true _ w₁).bind (fun commit w₂ _ => ?_) (fun _ _ h => h)
  cases commit with
  | error e => exact hundo
  | ok commit =>
    refine (Action.ensures_true _ w₂).bind (fun destroy w₃ _ => ?_) (fun _ _ h => h)
    cases destroy with
    | error e => exact hundo
    | ok destroy => exact ⟨tree, rfl⟩

section

variable (callsBack : host.Stays World.ByPieces)

include callsBack

/-- Ending the subscriptions of a session happens piece by piece. -/
theorem endSubscriptions_byPieces (id : SessionId) (b : Nat) :
    ∀ rounds, (endSubscriptions host id b rounds).Stays World.ByPieces
  | 0 => World.passage_byPieces.pure ()
  | rounds + 1 => by
    refine World.passage_byPieces.bind (popSubscription_byPieces id b) fun sub => ?_
    cases sub with
    | none => exact World.passage_byPieces.pure ()
    | some sub =>
      exact World.passage_byPieces.bind (callsBack.unsubscribe sub) fun _ =>
        endSubscriptions_byPieces id b rounds

/-- Refreshing a session happens piece by piece. -/
theorem refresh_byPieces (id : SessionId) : (refresh host id).Stays World.ByPieces := by
  have hR := World.passage_byPieces (H := H) (C := C)
  intro w
  cases hs : w.sessions[id]? with
  | none =>
    unfold refresh
    rw [Action.ensures_bind, activeBinding_of_none hs]
    exact hR.refl w
  | some s =>
    refine (World.passage_same.activeBinding _ id w).bind ?_ (fun _ _ h => h ▸ hR.refl w)
    rintro ⟨b, binding⟩ _ rfl
    refine ((hR.render callsBack id binding.view _).and (render_lines hs binding.view)).bind
      ?_ (fun _ _ h => h.1)
    rintro lines w₁ ⟨h₁, tree, rfl⟩
    have hshown := h₁.shows hs b tree
    unfold modifyBinding
    rw [Action.ensures_bind, Action.ensures_modify]
    exact hR.after hshown (hR.bind (hR.title callsBack id) fun _ =>
      hR.bind (hR.find id) fun _ => callsBack.log_stays _)

/-- Ending a session happens piece by piece. -/
theorem finish_byPieces (id : SessionId) (operation : SessionOperation) (reason : EndReason) :
    (finish host id operation reason).Stays World.ByPieces := by
  have hR := World.passage_byPieces (H := H) (C := C)
  intro w
  cases hs : w.sessions[id]? with
  | none =>
    unfold finish
    rw [Action.ensures_bind, activeBinding_of_none hs]
    exact hR.refl w
  | some s =>
    refine (World.passage_same.activeBinding _ id w).bind ?_ (fun _ _ h => h ▸ hR.refl w)
    rintro ⟨b, binding⟩ _ rfl
    refine (hR.title callsBack id _).bind ?_ (fun _ _ h => h)
    intro title w₁ h₁
    refine (endSubscriptions_byPieces callsBack id b _ w₁).bind ?_ (fun _ _ h => hR.trans h₁ h)
    intro _ w₂ h₂
    have hended := (hR.trans h₁ h₂).ends hs reason
    rw [Action.ensures_bind, Action.ensures_modify]
    exact hR.after hended (hR.bind (callsBack.destroyView binding.view) fun _ =>
      hR.bind (callsBack.log_stays _) fun _ => release_byPieces id)

/-- Notifying a session happens piece by piece. -/
theorem notify_byPieces (id : SessionId) (event : Notice) :
    (notify host id event).Stays World.ByPieces := by
  have hR := World.passage_byPieces (H := H) (C := C)
  refine hR.bind (hR.find id) fun s => ?_
  split
  · cases event with
    | commit => exact refresh_byPieces callsBack id
    | destroy => exact finish_byPieces callsBack id .sourceDestroyed .sourceDestroyed
  · exact hR.bind (hR.title callsBack id) fun _ => callsBack.log_stays _

/-- Enabling a session happens piece by piece. -/
theorem enable_byPieces (id : SessionId) : (enable host id).Stays World.ByPieces := by
  have hR := World.passage_byPieces (H := H) (C := C)
  intro w
  cases hs : w.sessions[id]? with
  | none =>
    unfold enable find
    simp only [Action.ensures_bind, Action.ensures_get, hs, Action.ensures_throw]
    exact hR.refl w
  | some s =>
    unfold enable
    rw [Action.ensures_bind, ensures_find hs]
    split
    · exact hR.refl w
    · refine (hR.title callsBack id w).bind ?_ (fun _ _ h => h)
      intro title w₁ h₁
      refine (callsBack.createView _ w₁).bind ?_ (fun _ _ h => hR.trans h₁ h)
      intro view w₂ h₂
      have h := hR.trans h₁ h₂
      obtain ⟨s₂, hs₂, -, hoptions⟩ := h.knows hs
      refine ((hR.bindView callsBack id title view w₂).and (bindView_lines hs₂ title view)).bind
        ?_ (fun _ _ h₃ => hR.trans h h₃.1)
      rintro binding w₃ ⟨h₃, tree, rendered⟩
      rw [hoptions] at rendered
      have hbound := (hR.trans h h₃).binds hs rendered
      rw [Action.ensures_bind, Action.ensures_modify]
      exact hR.after hbound (callsBack.log_stays _)

end

end Session

section

variable (callsBack : host.Stays World.ByPieces)

include callsBack

/-- Enabling a view of a source happens piece by piece. -/
theorem Registry.enable_byPieces (source : SourceId) (settings : Settings) :
    (Registry.enable host source settings).Stays World.ByPieces := by
  have hR := World.passage_byPieces (H := H) (C := C)
  intro w
  unfold Registry.enable
  rw [Action.ensures_bind, Action.ensures_get]
  cases w.sessionFor? source with
  | some existing =>
    exact (hR.bind (hR.find existing) fun _ =>
      hR.bind (hR.title callsBack existing) fun _ => hR.throw _) w
  | none =>
    have hrecord : ∀ id, (modify fun w => { w with registry := record source id w.registry } :
        Action H C PUnit).Stays World.ByPieces :=
      fun _ _ => Action.ensures_modify.2 (World.byPieces_of_sessions rfl)
    exact (hR.bind (Session.create_byPieces source settings.resolve true) fun id =>
      hR.bind (Session.enable_byPieces callsBack id) fun _ =>
        hR.bind (hrecord id) fun _ => hR.pure id) w

/-- What a deed does to the sessions on a host that calls back, it does piece by piece, if the calls
of the host do. -/
theorem Deed.run_byPieces (d : Deed) : (d.run host).Stays World.ByPieces := by
  have hR := World.passage_byPieces (H := H) (C := C)
  cases d with
  | create source options =>
    exact hR.bind (Session.create_byPieces source options false) fun _ => hR.pure ()
  | enableSession id => exact Session.enable_byPieces callsBack id
  | call c =>
    cases c with
    | enable source settings =>
      exact hR.bind (Registry.enable_byPieces callsBack source settings) fun _ => hR.pure ()
    | disable id => exact Session.finish_byPieces callsBack id .disable .disabled
    | navigate id index =>
      exact hR.bind (hR.logged callsBack id (hR.navigate callsBack id index)) fun _ =>
        hR.pure ()
    | jump id target =>
      exact hR.bind (hR.logged callsBack id (hR.jump callsBack id target)) fun _ =>
        hR.pure ()
    | disableSession id => exact Session.finish_byPieces callsBack id .disable .disabled
    | refresh id => exact Session.refresh_byPieces callsBack id
    | sourceDestroyed id =>
      exact Session.finish_byPieces callsBack id .sourceDestroyed .sourceDestroyed
    | notify id event => exact Session.notify_byPieces callsBack id event

/-- Every step happens piece by piece. -/
theorem Step.run_byPieces (step : Step) : (step.run host).Stays World.ByPieces := by
  have hR := World.passage_byPieces (H := H) (C := C)
  cases step with
  | call c => exact Deed.run_byPieces callsBack (.call c)
  | announce event listeners =>
    exact hR.forM (fun id => Session.notify_byPieces callsBack id event) listeners
  | dispose =>
    intro w
    unfold Step.run Registry.dispose
    rw [Action.ensures_bind, Action.ensures_get]
    exact hR.forM (fun id => Session.finish_byPieces callsBack id .disable .disabled) _ w

end

/-! ## Hosts that call back to any depth -/

/-- What visits do happens piece by piece. -/
theorem World.Visits.byPieces {may : Host H C → Step → World H C → Prop}
    (hmay : ∀ {host step} {w : World H C}, may host step w → host.Stays World.ByPieces)
    (visits : w.Visits may w') : w.ByPieces w' := by
  induction visits with
  | refl => exact World.passage_byPieces.refl w
  | tail _ visit ih =>
    refine World.passage_byPieces.trans ih ?_
    cases visit with
    | aside => exact World.byPieces_of_sessions rfl
    | @step host step allowed => exact Action.stays_iff.1 (step.run_byPieces (hmay allowed)) _

/-- A host that calls back to any depth does to sessions only what happens piece by piece. -/
theorem Host.Nests.byPieces {allowed : Host H C → Step → World H C → Prop} (n : Nat) :
    ∀ {host : Host H C}, host.Nests allowed n → host.Stays World.ByPieces := by
  induction n with
  | zero =>
    exact fun h => Host.Stays.mono h fun _ _ visits => visits.byPieces fun hnever => hnever.elim
  | succ n ih =>
    exact fun h => Host.Stays.mono h fun _ _ visits => visits.byPieces fun hmay => ih hmay.1

end

end TreeInspector
