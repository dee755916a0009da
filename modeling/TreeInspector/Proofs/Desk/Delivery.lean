import TreeInspector.Proofs.Desk.InTouch
import TreeInspector.Proofs.Desk.Listeners

/-!
# Deliveries

Whoever listens to a source when it announces something is called, one after the other, until one of
them fails. Listeners of clients may do what they like with the desk as long as the sessions stay in
touch. If they only keep something to themselves, each session that is called of a commit shows the
text of its source afterwards, and each session that is called of an end has ended.
-/

set_option autoImplicit false

namespace TreeInspector

/-! ## Who is called for a subscription -/

/-- Whom each subscription that was ever made calls. -/
def Gist.callbacks (g : Gist) : List Callback := g.subscriptions.map (·.callback)

/-- Ending a subscription does not change whom it called. -/
theorem Gist.callbacks_unsubscribed (sub : SubscriptionId) (s : Subscription) (g : Gist) :
    (g.unsubscribed sub s).callbacks = g.callbacks := by
  unfold callbacks unsubscribed
  apply List.ext_getElem?
  intro i
  rw [List.getElem?_map, List.getElem?_map, List.getElem?_modify]
  cases g.subscriptions[i]? with
  | none => rfl
  | some s => by_cases hi : sub = i <;> simp [hi]

namespace Desk

/-- The desk is reliable, and the subscriptions that were made before call whom they called. -/
def callTerms (before : List Callback) : Terms Desk where
  fit d := d.Reliable ∧ before <+: d.gist.callbacks
  tree _ _ _ _ := True
  subscribe _ _ _ _ _ _ := True
  unsubscribe _ _ _ _ := True
  isAvailable _ _ _ _ := True
  sourceName _ _ _ _ := True
  createView _ _ _ _ := True
  showLines _ _ _ _ _ := True
  destroyView _ _ _ _ := True
  focus _ _ _ _ _ _ := True
  log _ _ _ := True

section

variable {C α : Type} {before : List Callback}

/-- A call of a reliable desk that only adds to those who are called. -/
theorem obeys_callTerms {a : Action Desk C α} {R R' : Desk → Except Failure α → Desk → Prop}
    (ha : a.Obeys terms.fit R)
    (hR : ∀ {d r d'}, R d r d' → d.gist.callbacks <+: d'.gist.callbacks ∧ R' d r d') :
    a.Obeys (callTerms before).fit R' := by
  rintro w ⟨hreliable, hbefore⟩
  refine (ha w hreliable).mono ?_ ?_
  · rintro _ _ ⟨d, c, rfl, hd, hcall⟩
    exact ⟨d, c, rfl, ⟨hd, hbefore.trans (hR hcall).1⟩, (hR hcall).2⟩
  · rintro _ _ ⟨d, c, rfl, hd, hcall⟩
    exact ⟨d, c, rfl, ⟨hd, hbefore.trans (hR hcall).1⟩, (hR hcall).2⟩

/-- Where a gist with the same callbacks is reached, those made before still call whom they called.
-/
theorem prefix_of_callbacks {d d' : Desk} {g : Gist} (hgist : d'.gist = g)
    (hcallbacks : g.callbacks = d.gist.callbacks) :
    d.gist.callbacks <+: d'.gist.callbacks := by
  rw [hgist, hcallbacks]

/-- No call of the host changes whom the subscriptions made before it call. -/
theorem host_honours_calls (before : List Callback) :
    (host : Host Desk C).Honours (callTerms before) where
  tree source := obeys_callTerms (host_honours.tree source) fun h =>
    ⟨prefix_of_callbacks h.1 rfl, trivial⟩
  subscribe source event callback :=
    obeys_callTerms (host_honours.subscribe source event callback) fun {d r d'} h => by
      refine ⟨?_, trivial⟩
      have hadded : d'.gist.callbacks = d.gist.callbacks ++ [callback] :=
        (congrArg Gist.callbacks h.2).trans (by simp [Gist.subscribed, Gist.callbacks])
      rw [hadded]
      exact List.prefix_append _ _
  unsubscribe sub := obeys_callTerms (host_honours.unsubscribe sub) fun h => by
    refine ⟨?_, trivial⟩
    obtain ⟨-, ⟨s, hs, hended, hgist⟩ | ⟨-, hgist⟩⟩ := h
    · exact prefix_of_callbacks hgist (Gist.callbacks_unsubscribed _ _ _)
    · exact prefix_of_callbacks hgist rfl
  isAvailable source := obeys_callTerms (host_honours.isAvailable source) fun h =>
    ⟨prefix_of_callbacks h rfl, trivial⟩
  sourceName source := obeys_callTerms (host_honours.sourceName source) fun h =>
    ⟨prefix_of_callbacks h.1 rfl, trivial⟩
  createView title := obeys_callTerms (host_honours.createView title) fun h =>
    ⟨prefix_of_callbacks h.2 rfl, trivial⟩
  showLines view lines := obeys_callTerms (host_honours.showLines view lines) fun h =>
    ⟨prefix_of_callbacks h.2 rfl, trivial⟩
  destroyView view := obeys_callTerms (host_honours.destroyView view) fun h =>
    ⟨prefix_of_callbacks h.2 rfl, trivial⟩
  focus source span highlight := obeys_callTerms (host_honours.focus source span highlight)
    fun h => ⟨prefix_of_callbacks h rfl, trivial⟩
  log message := obeys_callTerms (host_honours.log message) fun h =>
    ⟨prefix_of_callbacks h.2 rfl, h.1, trivial⟩

end

end Desk

/-! ## Staying in touch -/

section

variable {C α β : Type} {w w' : World Desk C} {source : SourceId}
  {deliver : Callback → Action Desk C Unit}

/-- A source is shut iff its page says that it is closed. -/
theorem Desk.shut_iff_page {d : Desk} :
    d.Shut source ↔ ∃ page, d.gist.page? source = some page ∧ page.closed = true := by
  unfold Shut Gist.page? gist
  cases hs : d.sources[source]? with
  | none => simp [hs]
  | some s => simp [hs, SourceFile.gist]

/-- The sessions have stayed in touch, the subscriptions that were made before call whom they
called, and no source has opened again. -/
structure World.StillInTouch (w w' : World Desk C) : Prop where
  inTouch : w'.InTouch
  callbacks : w.host.gist.callbacks <+: w'.host.gist.callbacks
  shut : ∀ {source}, w.host.Shut source → w'.host.Shut source

/-- Sessions in touch stay so while nothing happens. -/
theorem World.StillInTouch.refl (hw : w.InTouch) : w.StillInTouch w :=
  ⟨hw, List.prefix_rfl, fun h => h⟩

/-- Sessions stay in touch through one stretch after another. -/
theorem World.StillInTouch.trans {w₁ w₂ w₃ : World Desk C} (first : w₁.StillInTouch w₂)
    (second : w₂.StillInTouch w₃) : w₁.StillInTouch w₃ :=
  ⟨second.inTouch, first.callbacks.trans second.callbacks, fun h => second.shut (first.shut h)⟩

/-- A subscription stays there and calls whom it called. -/
theorem World.StillInTouch.exists_subscription (h : w.StillInTouch w') {sub : SubscriptionId}
    {s : Subscription} (hs : w.host.subscriptions[sub]? = some s) :
    ∃ s', w'.host.subscriptions[sub]? = some s' ∧ s'.callback = s.callback := by
  obtain ⟨added, hadded⟩ := h.callbacks
  have hbefore : w.host.gist.callbacks[sub]? = some s.callback := by
    unfold Gist.callbacks Desk.gist
    rw [List.getElem?_map, hs, Option.map_some]
  have hafter : w'.host.gist.callbacks[sub]? = some s.callback := by
    rw [← hadded, List.getElem?_append_left (List.getElem?_eq_some_iff.1 hbefore).1, hbefore]
  unfold Gist.callbacks at hafter
  rw [List.getElem?_map] at hafter
  exact Option.map_eq_some_iff.1 hafter

/-- Nothing has happened that matters to the sessions. -/
theorem World.StillInTouch.beside (hw : w.InTouch) {d : Desk} {c : C} (hreliable : d.Reliable)
    (hgist : d.gist = w.host.gist) : w.StillInTouch (w.beside d c) :=
  ⟨hw.beside hreliable hgist, Desk.prefix_of_callbacks hgist rfl, fun h =>
    Desk.shut_iff_page.2 (hgist ▸ Desk.shut_iff_page.1 h)⟩

/-- However the action ends, the sessions stay in touch. -/
def Action.StaysInTouch (a : Action Desk C α) (w : World Desk C) : Prop :=
  a.Ensures w (fun _ w' => w.StillInTouch w') (fun _ w' => w.StillInTouch w')

namespace Action.StaysInTouch

/-- Sessions stay in touch through one action after another. -/
theorem bind {a : Action Desk C α} {f : α → Action Desk C β} (ha : a.StaysInTouch w)
    (hf : ∀ x w₁, w.StillInTouch w₁ → (f x).StaysInTouch w₁) : (a >>= f).StaysInTouch w := by
  refine Action.Ensures.bind ha ?_ (fun _ _ h => h)
  intro x w₁ h₁
  exact (hf x w₁ h₁).mono (fun _ _ h => h₁.trans h) (fun _ _ h => h₁.trans h)

/-- Sessions stay in touch through an action for each item of a list. -/
theorem forM {γ : Type} {f : γ → Action Desk C Unit} (xs : List γ) (hw : w.InTouch)
    (hf : ∀ x ∈ xs, ∀ w', w.StillInTouch w' → (f x).StaysInTouch w') :
    (xs.forM f : Action Desk C Unit).StaysInTouch w := by
  refine Action.ensures_forM (I := w.StillInTouch) xs ?_ w (.refl hw)
  intro x hx w₁ h₁
  exact (hf x hx w₁ h₁).mono (fun _ _ h => h₁.trans h) (fun _ _ h => h₁.trans h)

/-- Sessions stay in touch through an attempt. -/
theorem attempt {a : Action Desk C α} (ha : a.StaysInTouch w) : a.attempt.StaysInTouch w :=
  Action.ensures_attempt.2 ha

end Action.StaysInTouch

/-- What holds of the outcome holds however the action ends. -/
theorem Action.ensures_of_outcome {a : Action Desk C α} {P : World Desk C → Prop}
    (h : P (a.outcome w).2) : a.Ensures w (fun _ w' => P w') (fun _ w' => P w') := by
  unfold Action.outcome at h
  unfold Action.Ensures
  cases hr : a w with
  | ok x w' => rwa [hr] at h
  | error e w' => rwa [hr] at h

/-- Whatever is done to sessions, they stay in touch. -/
theorem Move.run_staysInTouch (hw : w.InTouch) (m : Move) :
    (m.run Desk.host).StaysInTouch w := by
  have hcalls := m.run_fits (Desk.host_honours_calls w.host.gist.callbacks)
    ⟨hw.reliable, List.prefix_rfl⟩
  have hground := Desk.move_sameGround hw.reliable.2 m
  have hkept : (m.run Desk.host).Ensures w
      (fun _ w' => w.host.gist.callbacks <+: w'.host.gist.callbacks ∧ Desk.SameGround w w')
      (fun _ w' => w.host.gist.callbacks <+: w'.host.gist.callbacks ∧ Desk.SameGround w w') :=
    Action.ensures_of_outcome
      (P := fun w' => w.host.gist.callbacks <+: w'.host.gist.callbacks ∧ Desk.SameGround w w')
      ⟨hcalls.2, hground⟩
  exact ((m.run_inTouch hw).and hkept).mono
    (fun _ _ h => ⟨h.1, h.2.1, (Desk.Shut.of_ground h.2.2 _).2⟩)
    (fun _ _ h => ⟨h.1, h.2.1, (Desk.Shut.of_ground h.2.2 _).2⟩)

namespace Desk

/-- Whatever a listener of a client does, the sessions stay in touch. -/
def Tactful (deliver : Callback → Action Desk C Unit) : Prop :=
  ∀ listener w, w.InTouch → (deliver (.client listener)).StaysInTouch w

/-- Sessions stay in touch whoever is called, if the listeners of clients see to it. -/
theorem deliver_staysInTouch (hrelays : Relays deliver) (htactful : Tactful deliver)
    (hw : w.InTouch) (callback : Callback) : (deliver callback).StaysInTouch w := by
  cases callback with
  | session id event =>
    rw [hrelays]
    exact Move.run_staysInTouch hw (.step (.call (.notify id event)))
  | client listener => exact htactful listener w hw

/-! ## Announcements -/

/-- Something that calls the listener of each subscription calls those there are at first, each
once, whatever those before them do. -/
theorem forM_calls (hrelays : Relays deliver) (htactful : Tactful deliver)
    {call : SubscriptionId → Action Desk C Unit}
    (hcall : ∀ {sub s} {w' : World Desk C}, w'.host.subscriptions[sub]? = some s →
      call sub w' = deliver s.callback w') :
    ∀ (subs : List SubscriptionId) {w' : World Desk C}, w.StillInTouch w' →
      (∀ sub ∈ subs, sub < w.host.subscriptions.length) →
      (subs.forM call : Action Desk C Unit) w' =
        ((subs.filterMap fun sub => w.host.subscriptions[sub]?.map (·.callback)).forM deliver :
          Action Desk C Unit) w' := by
  intro subs
  induction subs with
  | nil => exact fun _ _ => rfl
  | cons sub subs ih =>
    intro w' hw' hmade
    have hlt := hmade sub List.mem_cons_self
    have hthere : w.host.subscriptions[sub]? = some w.host.subscriptions[sub] :=
      List.getElem?_eq_getElem hlt
    obtain ⟨s', hs', hsame⟩ := hw'.exists_subscription hthere
    rw [List.filterMap_cons, hthere, Option.map_some, ← hsame]
    refine (Action.bind_of_eq (hcall hs') _).trans ?_
    have hstays := deliver_staysInTouch hrelays htactful hw'.inTouch s'.callback
    unfold Action.StaysInTouch Action.Ensures at hstays
    show (deliver s'.callback >>= fun _ => _) w' = (deliver s'.callback >>= fun _ => _) w'
    cases hr : deliver s'.callback w' with
    | error e w₁ => rw [Action.bind_of_error hr, Action.bind_of_error hr]
    | ok _ w₁ =>
      rw [hr] at hstays
      rw [Action.bind_of_ok hr, Action.bind_of_ok hr]
      exact ih (hw'.trans hstays) fun other hother => hmade other (List.mem_cons_of_mem sub hother)

/-- Those who listen when an announcement begins are called, each once, whatever those before them
do. -/
theorem announce_eq_forM (hrelays : Relays deliver) (htactful : Tactful deliver) (hw : w.InTouch)
    {s : SourceFile} (hs : w.host.sources[source]? = some s) {event : Notice}
    (hmade : ∀ sub ∈ s.listeners event, sub < w.host.subscriptions.length) :
    announce deliver source event w =
      ((w.host.callees s event).forM deliver : Action Desk C Unit) w := by
  unfold announce callees
  rw [Action.bind_of_ok (findSource_eq hs)]
  refine forM_calls hrelays htactful (fun hthere => ?_) _ (.refl hw) hmade
  rw [Action.bind_host]
  simp only [hthere]

/-- Those called of an event are those whom the subscriptions to it call. -/
theorem mem_callees {d : Desk} {s : SourceFile} {event : Notice} {callback : Callback} :
    callback ∈ d.callees s event ↔
      ∃ sub ∈ s.listeners event, (d.subscriptions[sub]?).map (·.callback) = some callback :=
  List.mem_filterMap

end Desk

namespace World.InTouch

variable {s : SourceFile}

/-- A source in use lists the subscriptions to its events that are in force, each once. -/
theorem listeners (hw : w.InTouch) (hs : w.host.sources[source]? = some s)
    (hopen : s.closed = false) (event : Notice) :
    (s.listeners event).Nodup ∧
      ∀ sub, sub ∈ s.listeners event ↔ w.host.gist.Serves source event sub := by
  have hgist : w.host.gist.source? source = some s.gist := by
    unfold Desk.gist
    simp only [hs, Option.map_some]
  exact hw.orderly.listening source s.gist event (Gist.source?_inUse.2 ⟨hgist, hopen⟩)

/-- The subscriptions listed by an open source have been made. -/
theorem made (hw : w.InTouch) (hs : w.host.sources[source]? = some s) (hopen : s.closed = false)
    (event : Notice) : ∀ sub ∈ s.listeners event, sub < w.host.subscriptions.length := by
  intro sub hsub
  obtain ⟨callback, hserving⟩ := ((hw.listeners hs hopen event).2 sub).1 hsub
  obtain ⟨t, ht, -⟩ := Option.bind_eq_some_iff.1 hserving
  exact (List.getElem?_eq_some_iff.1 ht).1

/-- A session that is called is one of the source, and is called of the event. -/
theorem called (hw : w.InTouch) (hs : w.host.sources[source]? = some s) (hopen : s.closed = false)
    {event event' : Notice} {id : SessionId}
    (hcallee : .session id event' ∈ w.host.callees s event) :
    event' = event ∧ w.Bound id source := by
  obtain ⟨sub, hsub, hcallback⟩ := Desk.mem_callees.1 hcallee
  obtain ⟨callback, hserving⟩ := ((hw.listeners hs hopen event).2 sub).1 hsub
  obtain ⟨t, ht, hforce⟩ := Option.bind_eq_some_iff.1 hserving
  obtain ⟨t', ht', hsame⟩ := Option.map_eq_some_iff.1 hcallback
  have hunique : t' = t := Option.some.inj (ht'.symm.trans ht)
  have hcalls : callback = .session id event' := by
    split at hforce
    · cases hforce
    · simp only [Option.some.injEq, Subscriber.mk.injEq] at hforce
      rw [← hforce.2.2, ← hunique, hsame]
  rw [hcalls] at hserving
  exact hw.holds.genuine hserving

/-- An active session of the source is called of every event. -/
theorem calls (hw : w.InTouch) (hs : w.host.sources[source]? = some s) (hopen : s.closed = false)
    {id : SessionId} {hold : Holding} (held : w.holding? id = some hold)
    (hsource : hold.source = source) (event : Notice) :
    .session id event ∈ w.host.callees s event := by
  obtain ⟨commit, destroy, -, hcommit, hdestroy⟩ := hw.holds.both held
  have hserved : ∃ sub, Books.serving w.host.gist.subscriptions sub =
      some ⟨source, event, .session id event⟩ := by
    rw [← hsource]
    cases event with
    | commit => exact ⟨commit, hcommit⟩
    | destroy => exact ⟨destroy, hdestroy⟩
  obtain ⟨sub, hserving⟩ := hserved
  obtain ⟨t, ht, hforce⟩ := Option.bind_eq_some_iff.1 hserving
  refine Desk.mem_callees.2 ⟨sub, ((hw.listeners hs hopen event).2 sub).2 ⟨_, hserving⟩, ?_⟩
  split at hforce
  · cases hforce
  · simp only [Option.some.injEq, Subscriber.mk.injEq] at hforce
    exact Option.map_eq_some_iff.2 ⟨t, ht, hforce.2.2⟩

end World.InTouch

/-! ## What a session does when it is called -/

/-- The session, if it is active, and its pane show the text. -/
def World.Displays (w : World Desk C) (id : SessionId) (text : String) : Prop :=
  ∀ face, w.face? id = some face → face.Shows w.host.gist.panes text

/-- What is displayed is shown by the session and its pane. -/
theorem World.InTouch.showsText (hw : w.InTouch) {id : SessionId} {s : Session} {text : String}
    (hactive : w.Active id s) (hdisplays : w.Displays id text) : w.ShowsText s text := by
  obtain ⟨view, hview, hface⟩ := hactive.face?
  obtain ⟨hlines, hpane⟩ := hdisplays _ hface
  obtain ⟨pane, hthere, hrows⟩ := Option.map_eq_some_iff.1 hpane
  obtain ⟨hold, held, hheld, -⟩ := World.holding?_of_face? hface
  obtain ⟨shown, hshown, hdisposed⟩ := hw.holds.shown held
  have hsame : shown = pane := by
    rw [hheld] at hshown
    exact Option.some.inj (hshown.symm.trans hthere)
  exact ⟨hlines, view, pane, hview, hthere, hsame ▸ hdisposed, hrows⟩

section

variable {id i : SessionId} {s : Session} {b : Nat} {binding : Binding}
  {r : Except Failure Unit}

/-- A session keeps its source. -/
theorem Session.Refreshes.bound (does : Session.Refreshes Desk.terms w id s b binding r w')
    (h : w.Bound i source) : w'.Bound i source := by
  cases does with
  | unrendered renders => exact h
  | unnamed renders name => exact (World.bound_modifySession (by exact fun _ => rfl) id).2 h
  | done renders name logs => exact (World.bound_modifySession (by exact fun _ => rfl) id).2 h

/-- Ending a session does not change what sessions are bound to. -/
theorem Session.Finishes.bound {reason : EndReason}
    (does : Session.Finishes Desk.terms w id s b binding reason r w') (h : w.Bound i source) :
    w'.Bound i source := by
  cases does with
  | unnamed name => exact h
  | interrupted name ends => exact (World.bound_modifySession (by exact fun _ => rfl) id).2 h
  | viewLeft name ends view => exact (World.bound_modifySession (by exact fun _ => rfl) id).2 h
  | done name ends view logs => exact (World.bound_modifySession (by exact fun _ => rfl) id).2 h

end

namespace Session

variable {id : SessionId} {page : Page}

/-- A session that is not bound any more only looks up the name of its source. -/
theorem notify_of_idle (hreliable : w.host.Reliable) {s : Session} (hs : w.sessions[id]? = some s)
    (hnone : s.binding? = none) (hpage : w.host.gist.page? s.source = some page)
    (event : Notice) :
    (notify Desk.host id event).EndsWell w fun _ w' => w.Looked Desk.terms w' := by
  unfold notify
  refine Action.ensures_bind.2 ((ensures_find hs).2 ?_)
  simp only [hnone, Option.isSome_none, Bool.false_eq_true, if_false]
  refine Action.Ensures.bind (title_obeys Desk.host_honours hs hreliable) ?_ ?_
  · rintro title _ ⟨d, c, rfl, hd, hname⟩
    refine (Desk.host_honours.log _ (w.beside d c) hd).mono ?_ ?_
    · rintro _ _ ⟨d', c', rfl, hd', -, hlogs⟩
      exact ⟨d', c', rfl, hd', .sourceName hname (.log hlogs (.done _))⟩
    · rintro _ _ ⟨d', c', rfl, hd', hok, -⟩
      cases hok
  · rintro e _ ⟨d, c, rfl, hd, hname⟩
    have hnever := hname.2
    rw [hpage] at hnever
    cases hnever

/-- A session that is called of a commit shows the text that its source has then, and the other
sessions show what they showed. -/
theorem notify_commit (hw : w.InTouch) (hbound : w.Bound id source)
    (hpage : w.host.gist.page? source = some page) (hopen : page.closed = false) :
    (notify Desk.host id .commit).EndsWell w fun _ w' =>
      (w'.holding? = w.holding? ∧ w'.Displays id page.text ∧
        ∀ {i text}, i ≠ id → w.Displays i text → w'.Displays i text) ∧
        ∀ {i source}, w.Bound i source → w'.Bound i source := by
  obtain ⟨s, hs, rfl⟩ := hbound
  cases hbinding? : s.binding? with
  | none =>
    refine (notify_of_idle hw.reliable hs hbinding? hpage .commit).mono ?_
    rintro _ _ ⟨d, c, rfl, -, hlooks⟩
    have hgist := Desk.looksAround_gist hlooks
    refine ⟨⟨rfl, ?_, ?_⟩, fun h => h⟩
    · intro face hface
      have hnever : w.face? id = some face := hface
      rw [show w.face? id = s.face? from World.seen_eq hs, Session.face?, hbinding?] at hnever
      cases hnever
    · intro i text _ hdisplays face hface
      rw [World.beside_host, hgist]
      exact hdisplays face hface
  | some binding =>
    obtain ⟨b, hb, hbinding⟩ := binding?_eq_some_iff.1 hbinding?
    refine (notify_of_active hs hbinding? .commit).2 ?_
    refine (refresh_refreshes Desk.host_honours hw.reliable hs hb hbinding).mono ?_ ?_
    · rintro _ w' ⟨hreliable, does⟩
      have hholding := (does.inTouch hw hs hb hbinding hreliable).2
      refine ⟨⟨hholding, ?_⟩, fun h => does.bound h⟩
      cases does with
      | @done lines title message d₁ d₂ d₃ c renders name logs =>
        obtain ⟨page', hpage', hlines, hgist⟩ := Desk.renders_ok hw.orderly.parsed renders
        rw [hpage] at hpage'
        cases hpage'
        have hpanes : d₃.gist.panes = (w.host.gist.showing binding.view lines).panes := by
          rw [show d₃.gist = d₂.gist from logs, name.1, hgist]
        have hfaces : (w.modifySession id (showing b lines)).face? =
            Function.update w.face? id
              (some ⟨s.source, s.options.navigation, binding.view, lines⟩) := by
          refine (World.seen_modifySession hs _).trans ?_
          rw [face?_showing hb hbinding]
          rfl
        have held : w.holding? id =
            some ⟨s.source, s.registered, binding.view, binding.subscriptions⟩ :=
          (World.seen_eq hs).trans (holding?_of_bound hb hbinding)
        obtain ⟨pane, hpane, -⟩ := hw.holds.shown held
        refine ⟨?_, ?_⟩
        · intro face hface
          have hown := (congrFun hfaces id).symm.trans hface
          rw [Function.update_self] at hown
          cases hown
          refine ⟨hlines, ?_⟩
          rw [World.beside_host, hpanes]
          exact Desk.lines_showing hpane lines
        · intro i text hne hdisplays face hface
          have hother := (congrFun hfaces i).symm.trans hface
          rw [Function.update_of_ne hne] at hother
          obtain ⟨hshown, hrows⟩ := hdisplays face hother
          -- The pane that was filled belongs to the session that was called.
          obtain ⟨hold, hheld, hview, -⟩ := World.holding?_of_face? hother
          have hapart : binding.view ≠ face.view := fun h =>
            hne (hw.holds.apart hheld held (hview.trans h.symm))
          refine ⟨hshown, ?_⟩
          rw [World.beside_host, hpanes]
          exact (congrArg _ (List.getElem?_modify_ne _ _ hapart)).trans hrows
    · rintro e w' ⟨hreliable, does⟩
      cases does with
      | unrendered renders =>
        exact Desk.currentTree?_of_open hw.orderly.parsed hpage hopen
          (Desk.renders_error renders).2
      | unnamed renders name =>
        obtain ⟨page', hpage', -, hgist⟩ := Desk.renders_ok hw.orderly.parsed renders
        have hnever := name.2
        rw [hgist] at hnever
        have hthere : (w.host.gist.page? s.source).isSome = false := hnever.symm
        rw [hpage] at hthere
        cases hthere

/-- A session that is called of the end of its source ends, and the other sessions go on. -/
theorem notify_destroy (hw : w.InTouch) (hbound : w.Bound id source)
    (hpage : w.host.gist.page? source = some page) :
    (notify Desk.host id .destroy).EndsWell w fun _ w' =>
      w'.holding? = Function.update w.holding? id none ∧
        ∀ {i source}, w.Bound i source → w'.Bound i source := by
  obtain ⟨s, hs, rfl⟩ := hbound
  cases hbinding? : s.binding? with
  | none =>
    refine (notify_of_idle hw.reliable hs hbinding? hpage .destroy).mono ?_
    rintro _ _ ⟨d, c, rfl, -, hlooks⟩
    have hidle : w.holding? id = none := by
      refine (World.seen_eq hs).trans ?_
      unfold Session.holding?
      rw [hbinding?, Option.map_none]
    refine ⟨?_, fun h => h⟩
    rw [← hidle, Function.update_eq_self]
    rfl
  | some binding =>
    obtain ⟨b, hb, hbinding⟩ := binding?_eq_some_iff.1 hbinding?
    refine (notify_of_active hs hbinding? .destroy).2 ?_
    refine (finish_finishes Desk.host_honours hw.reliable hs hb hbinding .sourceDestroyed
      .sourceDestroyed).mono ?_ ?_
    · rintro _ w' ⟨hreliable, does⟩
      rcases (does.inTouch hw hs hb hbinding hreliable).2 with ⟨-, hheld⟩ | ⟨hnone, -⟩
      · exact ⟨hheld, fun h => does.bound h⟩
      · rw [hpage] at hnone
        cases hnone
    · rintro e w' ⟨hreliable, does⟩
      rcases (does.inTouch hw hs hb hbinding hreliable).2 with ⟨hok, -⟩ | ⟨hnone, -⟩
      · cases hok
      · rw [hpage] at hnone
        cases hnone

end Session

/-! ## Rounds of calls -/

namespace Desk

/-- The pages belong to the ground of the desk. -/
theorem page?_of_ground {d d' : Desk} (hground : d'.ground = d.ground) :
    d'.gist.page? = d.gist.page? := by
  funext source
  have hsame := congrArg (Option.map fun s : SourceFile => s.gist.toPage)
    (source_of_ground hground source)
  rw [Option.map_map, Option.map_map] at hsame
  unfold Gist.page? gist
  rw [Option.map_map, Option.map_map]
  exact hsame

/-- Listeners of clients only write, log, or keep something to themselves, and leave the output and
the log in order. -/
structure Careful (deliver : Callback → Action Desk C Unit) : Prop where
  discreet : Discreet deliver
  reliable : ∀ listener w, w.host.Reliable → (deliver (.client listener)).Ensures w
    (fun _ w' => w'.host.Reliable) (fun _ w' => w'.host.Reliable)

/-- The first of those called that failed is a listener of a client; those behind it are not
called. -/
def Raises (deliver : Callback → Action Desk C Unit) (callees : List Callback) (w : World Desk C)
    (e : Failure) (w' : World Desk C) : Prop :=
  ∃ before listener after w₁, callees = before ++ .client listener :: after ∧
    (before.forM deliver : Action Desk C Unit) w = .ok () w₁ ∧
    deliver (.client listener) w₁ = .error e w'

/-- What each call adds to those made before, a whole round adds; only listeners of clients
fail. -/
theorem round_ensures {I : List Callback → World Desk C → Prop} {E : World Desk C → Prop}
    {callees : List Callback}
    (hcall : ∀ callback ∈ callees, ∀ called w', I called w' → (deliver callback).Ensures w'
      (fun _ w'' => I (called ++ [callback]) w'')
      (fun _ w'' => (∃ listener, callback = .client listener) ∧ E w''))
    (called : List Callback) (w' : World Desk C) (h : I called w') :
    (callees.forM deliver : Action Desk C Unit).Ensures w'
      (fun _ w'' => I (called ++ callees) w'')
      (fun e w'' => Raises deliver callees w' e w'' ∧ E w'') := by
  induction callees generalizing called w' with
  | nil =>
    rw [List.append_nil]
    exact h
  | cons callback callees ih =>
    refine Action.Ensures.bind_eq (hcall callback List.mem_cons_self called w' h) ?_ ?_
    · intro _ w₁ hfirst h₁
      rw [List.append_cons]
      refine (ih (fun other hother => hcall other (List.mem_cons_of_mem callback hother)) _ w₁
        h₁).mono (fun _ _ h => h) ?_
      rintro e w₂ ⟨⟨before, listener, after, w₃, rfl, hbefore, hraised⟩, hE⟩
      exact ⟨⟨callback :: before, listener, after, w₃, rfl,
        (Action.bind_of_ok hfirst _).trans hbefore, hraised⟩, hE⟩
    · rintro e w₁ hraised ⟨⟨listener, rfl⟩, hE⟩
      exact ⟨⟨[], listener, callees, w', rfl, rfl, hraised⟩, hE⟩

end Desk

/-- Listeners were called: the sessions stayed in touch, and the ground of the desk did not
change. -/
structure World.Calls (w w' : World Desk C) : Prop where
  stillInTouch : w.StillInTouch w'
  ground : Desk.SameGround w w'
  bound : ∀ {id source}, w.Bound id source → w'.Bound id source

/-- Nobody needs to be called. -/
theorem World.Calls.refl (hw : w.InTouch) : w.Calls w := ⟨.refl hw, rfl, fun h => h⟩

/-- Listeners are called in one stretch after another. -/
theorem World.Calls.trans {w₁ w₂ w₃ : World Desk C} (first : w₁.Calls w₂)
    (second : w₂.Calls w₃) : w₁.Calls w₃ :=
  ⟨first.stillInTouch.trans second.stillInTouch, Eq.trans second.ground first.ground,
    fun h => second.bound (first.bound h)⟩

/-- What is seen of sessions depends on nothing else. -/
theorem World.seen_of_sessions {γ : Type} {look : Session → Option γ}
    (hsessions : w'.sessions = w.sessions) : w'.seen look = w.seen look := by
  unfold World.seen
  rw [hsessions]

/-- A careful listener of a client changes nothing that matters. -/
theorem Desk.Careful.calls (hcareful : Careful deliver) (hw : w.InTouch) (listener : Nat) :
    (deliver (.client listener)).Ensures w
      (fun _ w' => w.Calls w' ∧ w'.sessions = w.sessions ∧ w'.host.gist = w.host.gist)
      (fun _ w' => w.Calls w' ∧ w'.sessions = w.sessions ∧ w'.host.gist = w.host.gist) := by
  have hkept : ∀ {w' : World Desk C}, Aside w w' → w'.host.Reliable →
      w.Calls w' ∧ w'.sessions = w.sessions ∧ w'.host.gist = w.host.gist := by
    rintro w' ⟨output, messages, trace, c, rfl⟩ hreliable
    exact ⟨⟨.beside hw hreliable rfl, rfl, fun h => h⟩, rfl, rfl⟩
  exact ((hcareful.discreet listener w).and (hcareful.reliable listener w hw.reliable)).mono
    (fun _ _ h => hkept h.1 h.2) (fun _ _ h => hkept h.1 h.2)

/-- Sessions stay in touch through what careful listeners do. -/
theorem Desk.Careful.tactful (hcareful : Careful deliver) : Tactful deliver :=
  fun listener _ hw => (hcareful.calls hw listener).mono (fun _ _ h => h.1.stillInTouch)
    (fun _ _ h => h.1.stillInTouch)

/-- What a session does when it is called keeps the sessions in touch, and the ground. -/
theorem Session.notify_calls (hw : w.InTouch) {id : SessionId} {event : Notice}
    {P : World Desk C → Prop}
    (hends : (Session.notify Desk.host id event).EndsWell w fun _ w' =>
      P w' ∧ ∀ {i source}, w.Bound i source → w'.Bound i source) :
    (Session.notify Desk.host id event).EndsWell w fun _ w' => w.Calls w' ∧ P w' := by
  have hstays := Move.run_staysInTouch hw (.step (.call (.notify id event)))
  have hground := (Session.notify_tendsTo (Desk.host_honours_ground w.host.ground)
    ⟨rfl, hw.reliable.2⟩ id event)
  refine ((hends.and hstays).and hground).mono ?_ ?_
  · rintro _ w' ⟨⟨⟨hP, hbound⟩, hstill⟩, hsame, -⟩
    exact ⟨⟨hstill, hsame.1, hbound⟩, hP⟩
  · rintro _ w' ⟨⟨hnever, -⟩, -⟩
    exact hnever

/-- Listeners were called of a commit, and the sessions among them show the text. -/
structure World.Refilled (text : String) (called : List Callback) (w w' : World Desk C) : Prop
    extends w.Calls w' where
  holding : w'.holding? = w.holding?
  displays : ∀ {id}, .session id .commit ∈ called → w'.Displays id text

/-- Listeners were called of the end of a source, and the sessions among them have ended. -/
structure World.Emptied (called : List Callback) (w w' : World Desk C) : Prop
    extends w.Calls w' where
  wanes : w.Wanes w'
  ended : ∀ {id}, .session id .destroy ∈ called → w'.holding? id = none

/-- It may be left out who was called of a commit. -/
theorem World.Refilled.forget {text : String} {called : List Callback}
    (h : w.Refilled text called w') : w.Refilled text [] w' :=
  ⟨h.toCalls, h.holding, fun hnone => by cases hnone⟩

/-- It may be left out who was called of the end of a source. -/
theorem World.Emptied.forget {called : List Callback} (h : w.Emptied called w') :
    w.Emptied [] w' :=
  ⟨h.toCalls, h.wanes, fun hnone => by cases hnone⟩

namespace Desk

variable {page : Page} {callees : List Callback}

/-- The page of a source stays as it is while listeners are called. -/
theorem page_of_calls (h : w.Calls w') (hpage : w.host.gist.page? source = some page) :
    w'.host.gist.page? source = some page := by
  rw [page?_of_ground h.ground]
  exact hpage

/-- A round of calls about a commit. -/
theorem round_commit (hrelays : Relays deliver) (hcareful : Careful deliver) (hw : w.InTouch)
    (hpage : w.host.gist.page? source = some page) (hopen : page.closed = false)
    (hcallees : ∀ {id event}, .session id event ∈ callees →
      event = .commit ∧ w.Bound id source) :
    (callees.forM deliver : Action Desk C Unit).Ensures w
      (fun _ w' => w.Refilled page.text callees w')
      (fun e w' => Raises deliver callees w e w' ∧ w.Refilled page.text [] w') := by
  refine round_ensures (I := fun called w' => w.Refilled page.text called w')
    (E := fun w' => w.Refilled page.text [] w') ?_ [] w
    ⟨.refl hw, rfl, fun hnone => by cases hnone⟩
  intro callback hmem called w₁ h₁
  have hw₁ := h₁.stillInTouch.inTouch
  cases callback with
  | session id event =>
    obtain ⟨rfl, hbound⟩ := hcallees hmem
    have hends := Session.notify_commit hw₁ (h₁.bound hbound) (page_of_calls h₁.toCalls hpage) hopen
    rw [hrelays]
    refine Action.Ensures.mono (Session.notify_calls hw₁ hends) ?_ (fun _ _ h => h.elim)
    rintro _ w₂ ⟨hcalls, hholding, hown, hothers⟩
    refine ⟨h₁.toCalls.trans hcalls, hholding.trans h₁.holding, ?_⟩
    intro id' hcalled
    by_cases hid : id' = id
    · rw [hid]
      exact hown
    · refine hothers hid (h₁.displays ?_)
      simpa [hid] using hcalled
  | client listener =>
    have hkept : ∀ {w₂ : World Desk C}, w₁.Calls w₂ ∧ w₂.sessions = w₁.sessions ∧
        w₂.host.gist = w₁.host.gist → w.Refilled page.text called w₂ := by
      rintro w₂ ⟨hcalls, hsessions, hgist⟩
      have hfaces : w₂.face? = w₁.face? := World.seen_of_sessions hsessions
      refine ⟨h₁.toCalls.trans hcalls, (World.seen_of_sessions hsessions).trans h₁.holding, ?_⟩
      intro id hcalled face hface
      rw [hgist]
      exact h₁.displays hcalled face (hfaces ▸ hface)
    refine (hcareful.calls hw₁ listener).mono ?_ ?_
    · intro _ w₂ h₂
      refine ⟨(hkept h₂).toCalls, (hkept h₂).holding, fun hcalled => (hkept h₂).displays ?_⟩
      simpa using hcalled
    · exact fun _ w₂ h₂ => ⟨⟨listener, rfl⟩, (hkept h₂).forget⟩

/-- A round of calls about the end of a source. -/
theorem round_destroy (hrelays : Relays deliver) (hcareful : Careful deliver) (hw : w.InTouch)
    (hpage : w.host.gist.page? source = some page)
    (hcallees : ∀ {id event}, .session id event ∈ callees →
      event = .destroy ∧ w.Bound id source) :
    (callees.forM deliver : Action Desk C Unit).Ensures w
      (fun _ w' => w.Emptied callees w')
      (fun e w' => Raises deliver callees w e w' ∧ w.Emptied [] w') := by
  refine round_ensures (I := fun called w' => w.Emptied called w')
    (E := fun w' => w.Emptied [] w') ?_ [] w
    ⟨.refl hw, fun held => held, fun hnone => by cases hnone⟩
  intro callback hmem called w₁ h₁
  have hw₁ := h₁.stillInTouch.inTouch
  cases callback with
  | session id event =>
    obtain ⟨rfl, hbound⟩ := hcallees hmem
    have hends := Session.notify_destroy hw₁ (h₁.bound hbound) (page_of_calls h₁.toCalls hpage)
    rw [hrelays]
    refine Action.Ensures.mono (Session.notify_calls hw₁ hends) ?_ (fun _ _ h => h.elim)
    rintro _ w₂ ⟨hcalls, hholding⟩
    refine ⟨h₁.toCalls.trans hcalls, ?_, ?_⟩
    · intro id' hold held
      rw [hholding, Function.update_apply] at held
      split at held
      · cases held
      · exact h₁.wanes held
    · intro id' hcalled
      rw [hholding, Function.update_apply]
      split
      · rfl
      · next hid => exact h₁.ended (by simpa [hid] using hcalled)
  | client listener =>
    have hkept : ∀ {w₂ : World Desk C}, w₁.Calls w₂ ∧ w₂.sessions = w₁.sessions ∧
        w₂.host.gist = w₁.host.gist → w.Emptied called w₂ := by
      rintro w₂ ⟨hcalls, hsessions, -⟩
      have hholding : w₂.holding? = w₁.holding? := World.seen_of_sessions hsessions
      refine ⟨h₁.toCalls.trans hcalls, ?_, ?_⟩
      · intro id hold held
        exact h₁.wanes (hholding ▸ held)
      · intro id hcalled
        rw [hholding]
        exact h₁.ended hcalled
    refine (hcareful.calls hw₁ listener).mono ?_ ?_
    · intro _ w₂ h₂
      refine ⟨(hkept h₂).toCalls, (hkept h₂).wanes, fun hcalled => (hkept h₂).ended ?_⟩
      simpa using hcalled
    · exact fun _ w₂ h₂ => ⟨⟨listener, rfl⟩, (hkept h₂).forget⟩

end Desk

/-- Once all who listen have been called of a commit, the active sessions of the source show the
text. -/
theorem World.Refilled.shows {s : SourceFile} {text : String} (hw : w.InTouch)
    (hs : w.host.sources[source]? = some s) (hopen : s.closed = false)
    (h : w.Refilled text (w.host.callees s .commit) w') {id : SessionId} {t : Session}
    (hactive : w'.Active id t) (hsource : t.source = source) : w'.ShowsText t text := by
  obtain ⟨view, -, hface⟩ := hactive.face?
  obtain ⟨hold, held, -, hheld⟩ := World.holding?_of_face? hface
  rw [h.holding] at held
  exact h.stillInTouch.inTouch.showsText hactive
    (h.displays (hw.calls hs hopen held (hheld.trans hsource) .commit))

/-- Once all who view the source have been called of its end, no session views it. -/
theorem World.Emptied.unviewed {called : List Callback} (h : w.Emptied called w')
    (hcalled : ∀ {id hold}, w.holding? id = some hold → hold.source = source →
      .session id .destroy ∈ called)
    {id : SessionId} {hold : Holding} (held : w'.holding? id = some hold) :
    hold.source ≠ source := by
  intro hsource
  rw [h.ended (hcalled (h.wanes held) hsource)] at held
  cases held

end

end TreeInspector
