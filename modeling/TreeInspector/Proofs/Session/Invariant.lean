import Mathlib.Data.Set.Card
import TreeInspector.Proofs.Session.Ownership

/-!
# The invariant of a run

Whatever is called, in whatever order, and however the calls end: the registry, the sessions and the
books of the host keep to what an active session holds. A step is followed through the estate of the
world, and a run through its steps.
-/

set_option autoImplicit false

namespace TreeInspector

section

variable {H C : Type} {T : Terms H} {books : H → Books} {w w' : World H C} {id : SessionId}
  {s : Session}

/-! ## Holdings of changed sessions -/

/-- Showing other lines does not change what a session holds. -/
theorem Session.holding?_showing {b : Nat} {binding : Binding} (hb : s.current = some b)
    (hbinding : s.bindings[b]? = some binding) (lines : List ViewLine) :
    (s.showing b lines).holding? = s.holding? := by
  unfold Session.holding?
  rw [Session.binding?_showing hb hbinding,
    Session.binding?_eq_some_iff.2 ⟨b, hb, hbinding⟩]
  rfl

/-- A bound session holds what its binding says. -/
theorem Session.holding?_of_bound {b : Nat} {binding : Binding} (hb : s.current = some b)
    (hbinding : s.bindings[b]? = some binding) :
    s.holding? = some ⟨s.source, s.registered, binding.view, binding.subscriptions⟩ := by
  unfold Session.holding?
  rw [Session.binding?_eq_some_iff.2 ⟨b, hb, hbinding⟩]
  rfl

/-- A session that is not bound yet holds nothing. -/
theorem World.holding?_freshSession (w : World H C) (source : SourceId) (settings : Settings) :
    (w.withSession (freshSession source settings)).holding? = w.holding? :=
  World.seen_withSession_same rfl w

/-! ## Steps through the estate -/

/-- The estate depends on the holdings, the registry and the books. -/
theorem World.estate_eq {w₁ w₂ : World H C} (hholding : w₁.holding? = w₂.holding?)
    (hregistry : w₁.registry = w₂.registry) (hbooks : books w₁.host = books w₂.host) :
    w₁.estate books = w₂.estate books := by
  unfold World.estate
  rw [hholding, hregistry, hbooks]

/-- The estate is the same on a host with the same books. -/
theorem World.estate_beside {h : H} {c : C} (hbooks : books h = books w.host) :
    (w.beside h c).estate books = w.estate books :=
  World.estate_eq rfl rfl hbooks

/-- In a world without sessions nothing is held. -/
theorem World.estate_fresh (noSessions : w.sessions = []) (noEntries : w.registry = [])
    (nothingKept : books w.host = .empty) : w.estate books = ⟨fun _ => none, [], .empty⟩ := by
  have hnone : w.holding? = fun _ => none := funext fun _ => World.seen_of_empty noSessions
  unfold World.estate
  rw [hnone, noEntries, nothingKept]

/-- Refreshing a session does not change the estate. -/
theorem Session.Refreshes.estate_eq (keeps : T.Keeps books) {b : Nat} {binding : Binding}
    {r : Except Failure Unit} (hs : w.sessions[id]? = some s) (hb : s.current = some b)
    (hbinding : s.bindings[b]? = some binding)
    (does : Session.Refreshes T w id s b binding r w') : w'.estate books = w.estate books := by
  have hholding : ∀ lines, (w.modifySession id (Session.showing b lines)).holding? = w.holding? :=
    fun lines => World.seen_modifySession_same hs (Session.holding?_showing hb hbinding lines)
  cases does with
  | unrendered renders => exact World.estate_beside (keeps.renders renders)
  | unnamed renders name =>
    refine World.estate_eq (hholding _) rfl ?_
    rw [World.beside_host, keeps.sourceName name, keeps.renders renders]
  | done renders name logs =>
    refine World.estate_eq (hholding _) rfl ?_
    rw [World.beside_host, keeps.log logs, keeps.sourceName name, keeps.renders renders]

/-- A session that ends leaves its holding, and the registry lets go of its source. -/
theorem Session.Finishes.shrinks (keeps : T.Keeps books) {b : Nat} {binding : Binding}
    {reason : EndReason} {r : Except Failure Unit} (hsound : (w.estate books).Sound)
    (hs : w.sessions[id]? = some s) (hb : s.current = some b)
    (hbinding : s.bindings[b]? = some binding)
    (does : Session.Finishes T w id s b binding reason r w') :
    (w.estate books).Shrinks (w'.estate books) := by
  have held : w.holding? id =
      some ⟨s.source, s.registered, binding.view, binding.subscriptions⟩ :=
    (World.seen_eq hs).trans (Session.holding?_of_bound hb hbinding)
  cases does with
  | unnamed name =>
    rw [World.estate_beside (keeps.sourceName name)]
    exact .still
  | interrupted name ends => exact (keeps.not_unsubscribesUntil ends).elim
  | viewLeft name ends view => cases (keeps.destroyView view).1
  | @done title message h₁ h₂ h₃ h₄ c name ends view logs =>
    have hregistered : s.registered = true := hsound.registered held
    have hcharge : w.sessionFor? s.source = some id :=
      hsound.lists.sessionFor?_eq ⟨_, held, rfl⟩
    have hended : (((w.modifySession id fun s => (s.keeping b []).ended reason).released id
        s).beside h₄ c).estate books = (w.estate books).without id
          ⟨s.source, s.registered, binding.view, binding.subscriptions⟩ := by
      unfold World.estate Estate.without
      congr 1
      · exact World.seen_modifySession hs _
      · exact if_pos ⟨hregistered, hcharge⟩
      · rw [World.beside_host, keeps.log logs, (keeps.destroyView view).2, keeps.unsubscribes ends,
          keeps.sourceName name]
    rw [hended]
    exact .ends held

/-- Tending to a session leaves the estate or takes one holding from it. -/
theorem Session.Tends.shrinks (keeps : T.Keeps books) {r : Except Failure Unit}
    (hsound : (w.estate books).Sound) (tends : Session.Tends T w r w') :
    (w.estate books).Shrinks (w'.estate books) := by
  cases tends with
  | looks looked =>
    obtain ⟨h, c, rfl, -, hlooks⟩ := looked
    rw [World.estate_beside (keeps.looksAround hlooks)]
    exact .still
  | refreshes session current bound does =>
    rw [does.estate_eq keeps session current bound]
    exact .still
  | finishes session current bound does => exact does.shrinks keeps hsound session current bound

/-- What a failed enabling did has been undone. -/
theorem Session.Enables.estate_eq (keeps : T.Keeps books) {e : Failure}
    (does : Session.Enables T w id s (.error e) w') : w'.estate books = w.estate books := by
  cases does with
  | unnamed name => exact World.estate_beside (keeps.sourceName name)
  | noView name view =>
    refine World.estate_beside ?_
    rw [keeps.notCreated view, keeps.sourceName name]
  | undone name makes binds tidies clears =>
    obtain ⟨hnew, hmade⟩ := keeps.created makes
    refine World.estate_beside ?_
    rw [keeps.clears clears, keeps.binds_tidies binds tidies, hmade,
      Books.closed_opened hnew, keeps.sourceName name]

/-- A call does to the estate what a call can do. -/
theorem Call.Does.moves (keeps : T.Keeps books) {r : Except Failure Unit}
    (hsound : (w.estate books).Sound) (does : Call.Does T w r w') :
    (w.estate books).Moves w.sessions.length (w'.estate books) := by
  cases does with
  | tends tends => exact .shrinks (tends.shrinks keeps hsound)
  | @staysClosed source settings e w' free does =>
    have hsame : (w.withSession (freshSession source settings)).estate books = w.estate books :=
      World.estate_eq (w.holding?_freshSession source settings) rfl rfl
    rw [does.estate_eq keeps, hsame]
    exact .shrinks .still
  | @opens source settings w₁ free does =>
    have hs : (w.withSession (freshSession source settings)).sessions[w.sessions.length]? =
        some (freshSession source settings) := by
      simp [World.withSession]
    cases does with
    | @done _ _ view binding _ _ _ _ _ name makes binds logs =>
      obtain ⟨hnew, hmade⟩ := keeps.created makes
      obtain ⟨commit, destroy, hview, hsubs, hcommit, hdestroy, hbooks⟩ := keeps.binds_ok binds
      rw [hmade, keeps.sourceName name] at hcommit hdestroy hbooks
      rw [keeps.sourceName name] at hnew
      have hidle : w.holding? w.sessions.length = none := w.seen_length Session.holding?
      have hopened := Estate.Moves.opens (e := w.estate books) hidle free hnew hcommit hdestroy
      convert hopened using 1
      unfold World.estate Estate.including
      congr 1
      · refine (World.seen_modifySession hs _).trans ?_
        have hold : ((freshSession source settings).bound binding).holding? =
            some ⟨source, true, view, [destroy, commit]⟩ := by
          unfold Session.holding?
          rw [Session.binding?_bound, Option.map_some, hview, hsubs]
          rfl
        rw [hold]
        exact congrArg (Function.update · _ _) (w.holding?_freshSession source settings)
      · exact (keeps.log logs).trans hbooks

/-! ## Runs -/

/-- Whom a view was made for, after a step: views that appear in it were made for the session that
it opens. -/
def World.madeFor (books : H → Books) (w w' : World H C) (made : ViewId → SessionId → Prop)
    (view : ViewId) (id : SessionId) : Prop :=
  (view ∈ (books w'.host).views \ (books w.host).views → id = w.sessions.length) ∧
    (view ∉ (books w'.host).views \ (books w.host).views → made view id)

/-- The worlds that a run reaches, with whom each view was made for. A run starts without sessions,
and from a host that keeps nothing. Steps may end well or fail, and between them the host and the
client may change in any way that does not touch the books. -/
inductive Reached (host : Host H C) (T : Terms H) (books : H → Books) :
    World H C → (ViewId → SessionId → Prop) → Prop where
  | start {w : World H C} (noSessions : w.sessions = []) (noEntries : w.registry = [])
      (nothingKept : books w.host = .empty) (fits : T.fit w.host) :
      Reached host T books w fun _ _ => False
  | step {w : World H C} {made : ViewId → SessionId → Prop} (before : Reached host T books w made)
      (step : Step) :
      Reached host T books ((step.run host).outcome w).2
        (w.madeFor books ((step.run host).outcome w).2 made)
  | aside {w : World H C} {made : ViewId → SessionId → Prop} {h : H} {c : C}
      (before : Reached host T books w made) (kept : books h = books w.host) (fits : T.fit h) :
      Reached host T books (w.beside h c) made

/-- A session is active. -/
def World.Active (w : World H C) (id : SessionId) (s : Session) : Prop :=
  w.sessions[id]? = some s ∧ s.state = .active

/-- Whether a session is active can be read off its state. -/
theorem World.exists_active_iff {w : World H C} {id : SessionId} :
    (∃ s, w.Active id s) ↔ w.sessions[id]?.map (·.state) = some .active := by
  unfold World.Active
  rw [Option.map_eq_some_iff]

/-- An inactive session is not active. -/
theorem World.not_active {w : World H C} {id : SessionId} {s : Session}
    (hs : w.sessions[id]? = some s) (hidle : s.state = .inactive) (s' : Session) :
    ¬w.Active id s' := by
  rintro ⟨hs', hactive⟩
  rw [hs] at hs'
  cases hs'
  rw [hidle] at hactive
  cases hactive

/-- The registry, the sessions, the views and the listeners agree with each other. -/
structure World.InOrder (books : Books) (made : ViewId → SessionId → Prop) (w : World H C) :
    Prop where
  /-- No source has two sessions in charge. -/
  oneEach : (w.registry.map (·.1)).Nodup
  /-- In charge of a source are the active sessions that are bound to it. -/
  inCharge : ∀ source id, (source, id) ∈ w.registry ↔ ∃ s, w.Active id s ∧ s.source = source
  counted : Registry.count w = {id | ∃ s, w.Active id s}.ncard
  /-- The view of an active session is the one view shown that was made for it. -/
  viewed : ∀ id s, w.Active id s → ∃ view, s.view? = some view ∧
    ∀ v, (v ∈ books.views ∧ made v id) ↔ v = view
  /-- Each event of its source has one listener of an active session. -/
  listens : ∀ id s, w.Active id s → ∀ event,
    ∃! sub, books.subscribers sub = some ⟨s.source, event, .session id event⟩
  noOtherView : ∀ v ∈ books.views, ∃ id s, w.Active id s ∧ s.view? = some v
  noOtherListener : ∀ sub who, books.subscribers sub = some who →
    ∃ id s, w.Active id s ∧ who = ⟨s.source, who.event, .session id who.event⟩

/-- What holds throughout a run. -/
structure World.Settled (T : Terms H) (books : H → Books) (made : ViewId → SessionId → Prop)
    (w : World H C) : Prop where
  fit : T.fit w.host
  sound : (w.estate books).Sound
  ownView : ∀ {id hold}, w.holding? id = some hold → ∀ other, made hold.view other ↔ other = id

/-- Sessions that are tended to keep their holdings or give them up. -/
theorem World.Tended.shrunk (keeps : T.Keeps books) (hsound : (w.estate books).Sound)
    (tended : w.Tended T w') : (w'.estate books).Sound ∧
      ∀ {id hold}, w'.holding? id = some hold → w.holding? id = some hold := by
  induction tended with
  | refl => exact ⟨hsound, fun held => held⟩
  | tail _ tends ih =>
    obtain ⟨r, htends⟩ := tends
    have hshrinks := htends.shrinks keeps ih.1
    exact ⟨ih.1.shrinks hshrinks, fun held => ih.2 (hshrinks.held held)⟩

/-- Views that were held before a step are still made for whom they were made. -/
theorem World.Settled.ownView_of_held {made : ViewId → SessionId → Prop} {hold : Holding}
    (hw : w.Settled T books made) (held : w.holding? id = some hold) (other : SessionId) :
    w.madeFor books w' made hold.view other ↔ other = id := by
  have hshown : hold.view ∈ (books w.host).views := hw.sound.viewHeld.2 ⟨id, hold, held, rfl⟩
  have hold' : hold.view ∉ (books w'.host).views \ (books w.host).views := fun h => h.2 hshown
  rw [← hw.ownView held other]
  exact ⟨fun h => h.2 hold', fun h => ⟨fun h' => (hold' h').elim, fun _ => h⟩⟩

/-- What holds throughout a run holds after one more step. -/
theorem World.Settled.step {made : ViewId → SessionId → Prop} (keeps : T.Keeps books)
    (hw : w.Settled T books made) (hfit : T.fit w'.host) (does : Step.Does T w w') :
    w'.Settled T books (w.madeFor books w' made) := by
  cases does with
  | tended tended =>
    obtain ⟨hsound, hheld⟩ := tended.shrunk keeps hw.sound
    exact ⟨hfit, hsound, fun held other => hw.ownView_of_held (hheld held) other⟩
  | call does =>
    have hmoves := does.moves keeps hw.sound
    refine ⟨hfit, hw.sound.moves hmoves, ?_⟩
    intro id hold held other
    generalize he' : w'.estate books = e' at hmoves
    have hheld : e'.holdings id = some hold := he' ▸ held
    cases hmoves with
    | shrinks shrinks => exact hw.ownView_of_held (shrinks.held hheld) other
    | opens idle free newView newCommit newDestroy =>
      rcases Estate.holdings_including.1 hheld with ⟨rfl, rfl⟩ | ⟨-, old⟩
      · have hnew : ∀ {view}, (w'.estate books).books.views = insert view (books w.host).views →
            view ∉ (books w.host).views →
            view ∈ (books w'.host).views \ (books w.host).views := by
          intro view hviews hnot
          refine ⟨?_, hnot⟩
          show view ∈ (w'.estate books).books.views
          rw [hviews]
          exact Set.mem_insert _ _
        have happeared := hnew (by rw [he']; rfl) newView
        exact ⟨fun h => h.1 happeared, fun h => ⟨fun _ => h, fun h' => (h' happeared).elim⟩⟩
      · exact hw.ownView_of_held old other

/-- What is to hold throughout a run holds in every world that it reaches. -/
theorem Reached.settled {host : Host H C} {made : ViewId → SessionId → Prop}
    (keeps : T.Keeps books) (honours : host.Honours T) (reached : Reached host T books w made) :
    w.Settled T books made := by
  induction reached with
  | @start w noSessions noEntries nothingKept fits =>
    refine ⟨fits, ?_, ?_⟩
    · rw [World.estate_fresh noSessions noEntries nothingKept]
      exact Estate.sound_empty
    · intro id hold held
      rw [show w.holding? id = none from World.seen_of_empty noSessions] at held
      cases held
  | @step w made _ step ih =>
    have hdoes := Action.Ensures.outcome (P := fun _ w' => T.fit w'.host ∧ Step.Does T w w')
      (step.run_does honours ih.fit)
    exact ih.step keeps hdoes.1 hdoes.2
  | aside _ kept fits ih =>
    refine ⟨fits, ?_, ih.ownView⟩
    rw [World.estate_beside kept]
    exact ih.sound

/-! ## The state of a run -/

/-- A session that holds something is active and shows its view. -/
theorem Session.view?_of_holding? {hold : Holding} (h : s.holding? = some hold) :
    s.view? = some hold.view ∧ s.source = hold.source ∧ s.state = .active := by
  unfold Session.holding? at h
  obtain ⟨binding, hbinding, rfl⟩ := Option.map_eq_some_iff.1 h
  refine ⟨?_, rfl, Session.state_eq_active_iff.2 ⟨binding, hbinding⟩⟩
  unfold Session.view?
  rw [hbinding, Option.map_some]

/-- The active sessions are those that hold something. -/
theorem World.active_of_holding? {hold : Holding} (held : w.holding? id = some hold) :
    ∃ s, w.Active id s ∧ s.view? = some hold.view ∧ s.source = hold.source := by
  obtain ⟨s, hs, hhold⟩ := Option.bind_eq_some_iff.1 held
  obtain ⟨hview, hsource, hstate⟩ := Session.view?_of_holding? hhold
  exact ⟨s, ⟨hs, hstate⟩, hview, hsource⟩

/-- An active session holds the view that it shows. -/
theorem World.Active.holding? (hactive : w.Active id s) :
    ∃ hold, w.holding? id = some hold ∧ s.view? = some hold.view ∧ s.source = hold.source := by
  obtain ⟨binding, hbinding⟩ := Session.state_eq_active_iff.1 hactive.2
  have hhold : s.holding? = some ⟨s.source, s.registered, binding.view, binding.subscriptions⟩ := by
    unfold Session.holding?
    rw [hbinding, Option.map_some]
  exact ⟨_, (World.seen_eq hactive.1).trans hhold, (Session.view?_of_holding? hhold).1, rfl⟩

/-- Whoever is called is the session that holds the subscription. -/
theorem Estate.Sound.subscriber_eq {e : Estate} (he : e.Sound) {sub : SubscriptionId}
    {who : Subscriber} (hwho : e.books.subscribers sub = some who) :
    ∃ id hold, e.holdings id = some hold ∧ sub ∈ hold.subscriptions ∧
      who = ⟨hold.source, who.event, .session id who.event⟩ := by
  obtain ⟨id, hold, held, hsub⟩ := he.subHeld hwho
  obtain ⟨commit, destroy, hsubs, hcommit, hdestroy⟩ := he.both held
  refine ⟨id, hold, held, hsub, ?_⟩
  rw [hsubs] at hsub
  rcases List.mem_pair.1 hsub with rfl | rfl
  · rw [hdestroy] at hwho
    cases hwho
    rfl
  · rw [hcommit] at hwho
    cases hwho
    rfl

/-- Each session that holds something has exactly one subscription to each event of its source. -/
theorem Estate.Sound.existsUnique_subscription {e : Estate} (he : e.Sound) {hold : Holding}
    (held : e.holdings id = some hold) (event : Notice) :
    ∃! sub, e.books.subscribers sub = some ⟨hold.source, event, .session id event⟩ := by
  obtain ⟨commit, destroy, hsubs, hcommit, hdestroy⟩ := he.both held
  -- Of the two subscriptions, the one to the other event has another subscriber.
  have hone : ∀ {sub}, e.books.subscribers sub = some ⟨hold.source, event, .session id event⟩ →
      event = .commit ∧ sub = commit ∨ event = .destroy ∧ sub = destroy := by
    intro sub hsub
    obtain ⟨id', hold', held', hmem, hsame⟩ := he.subscriber_eq hsub
    simp only [Subscriber.mk.injEq, Callback.session.injEq] at hsame
    obtain ⟨-, -, rfl, -⟩ := hsame
    rw [held] at held'
    cases held'
    rw [hsubs] at hmem
    rcases List.mem_pair.1 hmem with rfl | rfl
    · rw [hdestroy] at hsub
      cases event with
      | commit => simp at hsub
      | destroy => exact .inr ⟨rfl, rfl⟩
    · rw [hcommit] at hsub
      cases event with
      | commit => exact .inl ⟨rfl, rfl⟩
      | destroy => simp at hsub
  cases event with
  | commit => exact ⟨commit, hcommit, fun _ hsub => by simpa using hone hsub⟩
  | destroy => exact ⟨destroy, hdestroy, fun _ hsub => by simpa using hone hsub⟩

/-- The sessions in charge are as many as the entries of the registry. -/
theorem World.Settled.counted {made : ViewId → SessionId → Prop} (hw : w.Settled T books made) :
    Registry.count w = {id | ∃ s, w.Active id s}.ncard := by
  have hnodup : (w.registry.map (·.2)).Nodup := by
    refine List.Nodup.map_on ?_ (List.Nodup.of_map _ hw.sound.lists.oneEach)
    rintro ⟨source, id⟩ hmem ⟨source', id'⟩ hmem' hsame
    obtain ⟨hold, held, hsource⟩ := hw.sound.lists.listed.1 hmem
    obtain ⟨hold', held', hsource'⟩ := hw.sound.lists.listed.1 hmem'
    have hid : id = id' := hsame
    subst hid
    rw [held] at held'
    cases held'
    rw [← hsource, ← hsource']
  have hset : {id | ∃ s, w.Active id s} = ((w.registry.map (·.2)).toFinset : Set SessionId) := by
    ext id
    simp only [Set.mem_ofPred_eq, List.coe_toFinset, List.mem_map]
    constructor
    · rintro ⟨s, hactive⟩
      obtain ⟨hold, held, -, -⟩ := hactive.holding?
      exact ⟨(hold.source, id), hw.sound.lists.listed.2 ⟨hold, held, rfl⟩, rfl⟩
    · rintro ⟨⟨source, id'⟩, hmem, rfl⟩
      obtain ⟨hold, held, -⟩ := hw.sound.lists.listed.1 hmem
      obtain ⟨s, hactive, -⟩ := World.active_of_holding? held
      exact ⟨s, hactive⟩
  unfold Registry.count
  rw [hset, Set.ncard_coe_finset, List.toFinset_card_of_nodup hnodup, List.length_map]

/-- In every world that a run reaches, also after a step that failed, the registry lists exactly the
active sessions, and each of them has one view and one listener to each event of its source; nothing
else is kept. -/
theorem Reached.inOrder {host : Host H C} {made : ViewId → SessionId → Prop}
    (keeps : T.Keeps books) (honours : host.Honours T) (reached : Reached host T books w made) :
    w.InOrder (books w.host) made := by
  have hw := reached.settled keeps honours
  refine ⟨hw.sound.lists.oneEach, ?_, hw.counted, ?_, ?_, ?_, ?_⟩
  · intro source id
    refine hw.sound.lists.listed.trans ⟨?_, ?_⟩
    · rintro ⟨hold, held, rfl⟩
      obtain ⟨s, hactive, -, hsource⟩ := World.active_of_holding? held
      exact ⟨s, hactive, hsource⟩
    · rintro ⟨s, hactive, rfl⟩
      obtain ⟨hold, held, -, hsource⟩ := hactive.holding?
      exact ⟨hold, held, hsource.symm⟩
  · intro id s hactive
    obtain ⟨hold, held, hview, -⟩ := hactive.holding?
    refine ⟨hold.view, hview, fun v => ⟨?_, ?_⟩⟩
    · rintro ⟨hshown, hmade⟩
      obtain ⟨id', hold', held', rfl⟩ := hw.sound.viewHeld.1 hshown
      have hid := (hw.ownView held' id).1 hmade
      subst hid
      rw [show w.holding? id = some hold' from held'] at held
      cases held
      rfl
    · rintro rfl
      exact ⟨hw.sound.viewHeld.2 ⟨id, hold, held, rfl⟩, (hw.ownView held id).2 rfl⟩
  · intro id s hactive event
    obtain ⟨hold, held, -, hsource⟩ := hactive.holding?
    rw [hsource]
    exact hw.sound.existsUnique_subscription held event
  · intro v hshown
    obtain ⟨id, hold, held, rfl⟩ := hw.sound.viewHeld.1 hshown
    obtain ⟨s, hactive, hview, -⟩ := World.active_of_holding? held
    exact ⟨id, s, hactive, hview⟩
  · intro sub who hwho
    obtain ⟨id, hold, held, -, hsame⟩ := hw.sound.subscriber_eq hwho
    obtain ⟨s, hactive, -, hsource⟩ := World.active_of_holding? held
    exact ⟨id, s, hactive, hsource ▸ hsame⟩

end

end TreeInspector
