import TreeInspector.Proofs.Desk.Ground

/-!
# Who listens to a source

The roll of a desk is who listens to each source, with the subscriptions that were made. It is
attended by the sessions that hold something if each of them is the only listener to both events of
its source, and if nobody else listens. Every call of the desk as a host is described by what it
does to the roll, whether or not the output takes what is written.
-/

set_option autoImplicit false

namespace TreeInspector

/-- The listeners to each source, and the subscriptions that were made. -/
structure Roll where
  listeners : List (Notice → List SubscriptionId)
  subscriptions : List Subscription

namespace Roll

/-- The roll with other listeners to an event of a source. -/
def changed (source : SourceId) (event : Notice)
    (change : List SubscriptionId → List SubscriptionId) (r : Roll) : Roll :=
  { r with
    listeners := r.listeners.modify source fun listeners =>
      Function.update listeners event (change (listeners event)) }

/-- The roll after someone has subscribed to an event of a source. -/
def subscribed (source : SourceId) (event : Notice) (callback : Callback) (r : Roll) : Roll :=
  { r.changed source event (· ++ [r.subscriptions.length]) with
    subscriptions := r.subscriptions ++ [{ source, event, callback }] }

/-- The roll after a subscription in force has been ended. -/
def unsubscribed (sub : SubscriptionId) (s : Subscription) (r : Roll) : Roll :=
  { r.changed s.source s.event (·.filter (· ≠ sub)) with
    subscriptions := r.subscriptions.modify sub ({ · with ended := true }) }

/-- The subscription through which a session listens to an event of its source. -/
def sessionSub (source : SourceId) (event : Notice) (id : SessionId) : Subscription :=
  { source, event, callback := .session id event }

/-- The session is the only listener to the event of the source. -/
structure HeardBy (r : Roll) (source : SourceId) (event : Notice) (id : SessionId)
    (sub : SubscriptionId) : Prop where
  only : r.listeners[source]?.map (· event) = some [sub]
  called : r.subscriptions[sub]? = some (sessionSub source event id)

/-- Those who hold something listen to their sources, and nobody else listens. -/
structure Attended (r : Roll) (holdings : SessionId → Option Holding) : Prop where
  held : ∀ {id hold}, holdings id = some hold → ∃ commit destroy,
    hold.subscriptions = [destroy, commit] ∧ r.HeardBy hold.source .commit id commit ∧
      r.HeardBy hold.source .destroy id destroy
  unheard : ∀ {source : SourceId} {listeners}, r.listeners[source]? = some listeners →
    (∀ {id hold}, holdings id = some hold → hold.source ≠ source) →
      ∀ event, listeners event = []

section

variable {r : Roll} {holdings : SessionId → Option Holding} {source : SourceId} {event : Notice}
  {id : SessionId} {sub commit destroy : SubscriptionId} {hold : Holding}

/-- Changing the listeners to an event of a source changes no other listeners. -/
theorem listeners_changed (source other : SourceId) (event : Notice)
    (change : List SubscriptionId → List SubscriptionId) (r : Roll) :
    (r.changed source event change).listeners[other]? =
      if source = other then r.listeners[other]?.map fun listeners =>
        Function.update listeners event (change (listeners event))
      else r.listeners[other]? := by
  unfold changed
  rw [List.getElem?_modify]
  by_cases hother : source = other
  · simp [hother]
  · simp [hother]

/-- Who listens once a session has subscribed to both events of a source that had no listeners. -/
theorem listeners_subscribed_both (id : SessionId) {listeners : Notice → List SubscriptionId}
    (hthere : r.listeners[source]? = some listeners) (hnone : ∀ event, listeners event = [])
    (other : SourceId) :
    ((r.subscribed source .commit (.session id .commit)).subscribed source .destroy
      (.session id .destroy)).listeners[other]? =
        if source = other then some (Function.update (Function.update listeners .commit
          [r.subscriptions.length]) .destroy [r.subscriptions.length + 1])
        else r.listeners[other]? := by
  unfold subscribed
  rw [listeners_changed]
  simp only
  rw [listeners_changed]
  by_cases hother : source = other
  · subst hother
    simp [hthere, hnone]
  · simp [hother]

/-- A session that listens is left alone by what happens to another source. -/
theorem HeardBy.changed_of_ne (h : r.HeardBy source event id sub) {r' : Roll} {other : SourceId}
    (hne : other ≠ source) (event' : Notice)
    (change : List SubscriptionId → List SubscriptionId)
    (hlisteners : r'.listeners = (r.changed other event' change).listeners)
    (hcalled : r'.subscriptions[sub]? = r.subscriptions[sub]?) :
    r'.HeardBy source event id sub where
  only := by
    rw [hlisteners, listeners_changed, if_neg hne]
    exact h.only
  called := hcalled.trans h.called

/-- A session stays the only listener when someone subscribes to another source. -/
theorem HeardBy.subscribed_of_ne (h : r.HeardBy source event id sub) {other : SourceId}
    (hne : other ≠ source) (event' : Notice) (callback : Callback) :
    (r.subscribed other event' callback).HeardBy source event id sub := by
  refine h.changed_of_ne hne event' (· ++ [r.subscriptions.length]) rfl ?_
  have hlt := (List.getElem?_eq_some_iff.1 h.called).1
  exact List.getElem?_append_left hlt

/-- A session stays the only listener when a subscription to another source is ended. -/
theorem HeardBy.unsubscribed_of_ne (h : r.HeardBy source event id sub) {other : SubscriptionId}
    {s : Subscription} (hs : r.subscriptions[other]? = some s) (hne : s.source ≠ source) :
    (r.unsubscribed other s).HeardBy source event id sub := by
  refine h.changed_of_ne hne s.event (·.filter (· ≠ other)) rfl (List.getElem?_modify_ne _ _ ?_)
  rintro rfl
  rw [h.called] at hs
  cases hs
  exact hne rfl

/-- Ending the subscription to one event leaves the one to the other. -/
theorem HeardBy.called_unsubscribed (hcommit : r.HeardBy source .commit id commit)
    (hdestroy : r.HeardBy source .destroy id destroy) :
    (r.unsubscribed destroy (sessionSub source .destroy id)).subscriptions[commit]? =
      some (sessionSub source .commit id) := by
  refine (List.getElem?_modify_ne _ _ ?_).trans hcommit.called
  rintro rfl
  have hcalled := hcommit.called
  rw [hdestroy.called] at hcalled
  cases hcalled

namespace Attended

/-- A source has one session at most. -/
theorem id_eq (hr : r.Attended holdings) {id' : SessionId} {hold' : Holding}
    (held : holdings id = some hold) (held' : holdings id' = some hold')
    (hsource : hold'.source = hold.source) : id' = id := by
  obtain ⟨-, destroy, -, -, hdestroy⟩ := hr.held held
  obtain ⟨-, destroy', -, -, hdestroy'⟩ := hr.held held'
  have hsame := hdestroy'.only
  rw [hsource, hdestroy.only] at hsame
  cases hsame
  have hcalled := hdestroy'.called
  rw [hdestroy.called] at hcalled
  have hcallback := congrArg Subscription.callback (Option.some.inj hcalled)
  cases hcallback
  rfl

/-- A session that gives up its holding leaves its source without listeners. -/
theorem ended (hr : r.Attended holdings) (held : holdings id = some hold)
    (hcommit : r.HeardBy hold.source .commit id commit)
    (hdestroy : r.HeardBy hold.source .destroy id destroy) :
    ((r.unsubscribed destroy (sessionSub hold.source .destroy id)).unsubscribed commit
      (sessionSub hold.source .commit id)).Attended (Function.update holdings id none) := by
  have hcommit' := hcommit.called_unsubscribed hdestroy
  have hold' : ∀ {id' hold'}, Function.update holdings id none id' = some hold' →
      holdings id' = some hold' ∧ id' ≠ id := by
    intro id' hold' held'
    by_cases hid : id' = id
    · rw [hid, Function.update_self] at held'
      cases held'
    · rw [Function.update_of_ne hid] at held'
      exact ⟨held', hid⟩
  refine ⟨?_, ?_⟩
  · intro id' hold₁ held₁
    obtain ⟨held₁, hid⟩ := hold' held₁
    have hne : hold.source ≠ hold₁.source := fun h => hid (hr.id_eq held held₁ h.symm)
    obtain ⟨commit₁, destroy₁, hsubs, hcommit₁, hdestroy₁⟩ := hr.held held₁
    refine ⟨commit₁, destroy₁, hsubs, ?_, ?_⟩
    · exact (hcommit₁.unsubscribed_of_ne hdestroy.called hne).unsubscribed_of_ne hcommit' hne
    · exact (hdestroy₁.unsubscribed_of_ne hdestroy.called hne).unsubscribed_of_ne hcommit' hne
  · intro source listeners hlisteners hunseen event
    have hafter : (((r.changed hold.source .destroy (·.filter (· ≠ destroy))).changed hold.source
        .commit (·.filter (· ≠ commit))).listeners)[source]? = some listeners := hlisteners
    rw [listeners_changed, listeners_changed] at hafter
    by_cases hsource : hold.source = source
    · subst hsource
      simp only [if_true] at hafter
      obtain ⟨l, hl, rfl⟩ := Option.map_eq_some_iff.1 hafter
      obtain ⟨l₀, hl₀, rfl⟩ := Option.map_eq_some_iff.1 hl
      have honly := hcommit.only
      have honly' := hdestroy.only
      rw [hl₀, Option.map_some] at honly honly'
      have hc : l₀ .commit = [commit] := Option.some.inj honly
      have hd : l₀ .destroy = [destroy] := Option.some.inj honly'
      cases event with
      | commit => simp [hc]
      | destroy => simp [hd]
    · simp only [hsource, if_false] at hafter
      refine hr.unheard hafter ?_ event
      intro id' hold₁ held₁
      by_cases hid : id' = id
      · subst hid
        rw [held] at held₁
        cases held₁
        exact hsource
      · exact hunseen (by rw [Function.update_of_ne hid]; exact held₁)

/-- A session that begins to view a source that nobody viewed is the only listener to it. -/
theorem begun (hr : r.Attended holdings) (idle : holdings id = none)
    (hunseen : ∀ {id hold}, holdings id = some hold → hold.source ≠ source)
    {listeners : Notice → List SubscriptionId} (hthere : r.listeners[source]? = some listeners)
    (registered : Bool) (view : ViewId) :
    ((r.subscribed source .commit (.session id .commit)).subscribed source .destroy
      (.session id .destroy)).Attended (Function.update holdings id (some
        ⟨source, registered, view, [r.subscriptions.length + 1, r.subscriptions.length]⟩)) := by
  have hnow := listeners_subscribed_both id hthere (hr.unheard hthere hunseen)
  refine ⟨?_, ?_⟩
  · intro id' hold' held'
    by_cases hid : id' = id
    · subst hid
      rw [Function.update_self] at held'
      cases held'
      refine ⟨_, _, rfl, ⟨?_, ?_⟩, ⟨?_, ?_⟩⟩
      · rw [hnow, if_pos rfl]
        simp
      · simp [subscribed, changed, sessionSub]
      · rw [hnow, if_pos rfl]
        simp
      · simp [subscribed, changed, sessionSub]
    · rw [Function.update_of_ne hid] at held'
      obtain ⟨commit, destroy, hsubs, hcommit, hdestroy⟩ := hr.held held'
      have hne := Ne.symm (hunseen held')
      refine ⟨commit, destroy, hsubs, ?_, ?_⟩
      · exact (hcommit.subscribed_of_ne hne _ _).subscribed_of_ne hne _ _
      · exact (hdestroy.subscribed_of_ne hne _ _).subscribed_of_ne hne _ _
  · intro source' listeners' hlisteners hunseen' event
    have hne : source ≠ source' := by
      rintro rfl
      exact hunseen' (Function.update_self _ _ _) rfl
    rw [hnow, if_neg hne] at hlisteners
    refine hr.unheard hlisteners ?_ event
    intro id' hold' held'
    by_cases hid : id' = id
    · rw [hid, idle] at held'
      cases held'
    · exact hunseen' (by rw [Function.update_of_ne hid]; exact held')

end Attended

end

end Roll

/-! ## The roll of a desk -/

namespace Desk

/-- The roll of the desk. -/
def roll (d : Desk) : Roll := ⟨d.sources.map SourceFile.listeners, d.subscriptions⟩

/-- The source has been closed. -/
def Shut (d : Desk) (source : SourceId) : Prop :=
  ∃ s, d.sources[source]? = some s ∧ s.closed = true

/-- Changing the listeners of a source changes the same in the roll. -/
theorem roll_modifyListeners (source : SourceId) (event : Notice)
    (change : List SubscriptionId → List SubscriptionId) (d : Desk) :
    ({ d with sources := d.sources.modify source (·.modifyListeners event change) } : Desk).roll =
      d.roll.changed source event change := by
  have hone : ∀ s : SourceFile, (s.modifyListeners event change).listeners =
      Function.update s.listeners event (change (s.listeners event)) := by
    intro s
    funext event'
    cases event <;> cases event' <;> rfl
  unfold roll Roll.changed
  congr 1
  apply List.ext_getElem?
  intro i
  rw [List.getElem?_map, List.getElem?_modify, List.getElem?_modify, List.getElem?_map]
  cases d.sources[i]? with
  | none => rfl
  | some s =>
    by_cases hi : source = i
    · simp [hi, hone]
    · simp [hi]

/-- A change of a source that keeps its listeners keeps the roll. -/
theorem roll_modifySource {f : SourceFile → SourceFile} (source : SourceId) {d : Desk}
    (hf : ∀ s, d.sources[source]? = some s → (f s).listeners = s.listeners) :
    ({ d with sources := d.sources.modify source f } : Desk).roll = d.roll := by
  unfold roll
  congr 1
  apply List.ext_getElem?
  intro i
  rw [List.getElem?_map, List.getElem?_map, List.getElem?_modify]
  by_cases hi : source = i
  · subst hi
    cases hs : d.sources[source]? with
    | none => rfl
    | some s => simp [hf s hs]
  · simp [hi]

/-- Whether a source is shut can be told from the ground. -/
theorem shut_ground (source : SourceId) (d : Desk) : d.ground.Shut source ↔ d.Shut source := by
  unfold Shut ground
  simp only [List.getElem?_map, Option.map_eq_some_iff]
  constructor
  · rintro ⟨_, ⟨s, hs, rfl⟩, hclosed⟩
    exact ⟨s, hs, hclosed⟩
  · rintro ⟨s, hs, hclosed⟩
    exact ⟨s.ground, ⟨s, hs, rfl⟩, hclosed⟩

/-- Whether a source is shut belongs to the ground. -/
theorem Shut.of_ground {d d' : Desk} (hground : d'.ground = d.ground) (source : SourceId) :
    d'.Shut source ↔ d.Shut source := by
  rw [← shut_ground, hground, shut_ground]

/-- What each call does to the roll of a desk with the given ground. A tree is only given of a
source that is open. -/
def rollTerms (g : Desk) : Terms Desk where
  fit d := d.ground = g ∧ d.Talks
  tree source h r h' := h'.roll = h.roll ∧ ∀ tree, r = .ok tree → ¬ g.Shut source
  subscribe source event callback h r h' := r = .ok h.roll.subscriptions.length ∧
    h'.roll = h.roll.subscribed source event callback
  unsubscribe sub h r h' := r = .ok () ∧ ∀ s, h.roll.subscriptions[sub]? = some s →
    s.ended = false → h'.roll = h.roll.unsubscribed sub s
  isAvailable _ h _ h' := h'.roll = h.roll
  sourceName source h r h' := h'.roll = h.roll ∧
    r.toOption.isSome = (h.roll.listeners[source]?).isSome
  createView _ h _ h' := h'.roll = h.roll
  showLines _ _ h _ h' := h'.roll = h.roll
  destroyView _ h _ h' := h'.roll = h.roll
  focus _ _ _ h _ h' := h'.roll = h.roll
  log _ h h' := h'.roll = h.roll

section

variable {C α : Type} {g : Desk}

/-- A call that leaves the ground does to the roll what it ensures. -/
theorem obeys_roll {a : Action Desk C α} {R : Desk → Except Failure α → Desk → Prop}
    (hground : Leaves ground a)
    (hroll : ∀ w : World Desk C, w.host.ground = g → a.Ensures w
      (fun x w' => R w.host (.ok x) w'.host) (fun e w' => R w.host (.error e) w'.host)) :
    a.Obeys (rollTerms g).fit R := by
  rintro w ⟨hg, htalks⟩
  refine ((hground w).and (hroll w hg)).mono ?_ ?_
  · rintro _ _ ⟨⟨d, c, rfl, hd⟩, hR⟩
    exact ⟨d, c, rfl, ⟨hd.trans hg, htalks.of_ground hd⟩, hR⟩
  · rintro _ _ ⟨⟨d, c, rfl, hd⟩, hR⟩
    exact ⟨d, c, rfl, ⟨hd.trans hg, htalks.of_ground hd⟩, hR⟩

/-- An action that leaves the ground and the roll keeps to the terms of the roll. -/
theorem Leaves.obeys_roll {a : Action Desk C α} (hground : Leaves ground a)
    (hroll : Leaves roll a) : a.Obeys (rollTerms g).fit fun h _ h' => h'.roll = h.roll := by
  refine Desk.obeys_roll hground fun w _ => (hroll w).mono ?_ ?_
  · rintro _ _ ⟨d, c, rfl, hd⟩
    exact hd
  · rintro _ _ ⟨d, c, rfl, hd⟩
    exact hd

/-- Moving the focus leaves the roll. -/
theorem focus_leaves_roll (source : SourceId) (span : Span) (highlight : Bool) :
    Leaves roll (focus source span highlight : Action Desk C Unit) := by
  intro w
  unfold focus
  rw [Action.ensures_bind]
  refine requireOpen_ensures (fun _ _ => .refl roll w) fun s hs hopen => ?_
  have hselected : Leaves roll (do
      modifySource source ({ · with selection := some span, highlighted := highlight })
      let rows ← Action.ofExcept (focusReport s.name (Text.units s.text) span highlight)
      write (String.join (rows.map (· ++ "\n"))) : Action Desk C Unit) :=
    (leaves_modifyHost fun _ => roll_modifySource source (by exact fun _ _ => rfl)).bind fun _ =>
      (leaves_ofExcept _).bind fun _ => leaves_write (fun _ _ => rfl) _
  exact hselected w

/-- Ending a subscription does to the roll what the terms say. -/
theorem unsubscribe_obeys_roll (sub : SubscriptionId) :
    (unsubscribe sub : Action Desk C Unit).Obeys (rollTerms g).fit
      ((rollTerms g).unsubscribe sub) := by
  refine obeys_roll (grazes_unsubscribe sub) fun w _ => ?_
  unfold unsubscribe
  rw [Action.ensures_bind, Action.ensures_host]
  cases hs : w.host.subscriptions[sub]? with
  | none =>
    refine ⟨rfl, fun s hs' => ?_⟩
    have hsome : w.host.subscriptions[sub]? = some s := hs'
    rw [hs] at hsome
    cases hsome
  | some s =>
    by_cases hended : s.ended = true
    · simp only [hended, if_true]
      refine ⟨rfl, fun s' hs' hopen => ?_⟩
      have hsome : w.host.subscriptions[sub]? = some s' := hs'
      rw [hs] at hsome
      cases hsome
      rw [hended] at hopen
      cases hopen
    · simp only [hended, Bool.false_eq_true, if_false]
      refine ⟨rfl, fun s' hs' _ => ?_⟩
      have hsome : w.host.subscriptions[sub]? = some s' := hs'
      rw [hs] at hsome
      cases hsome
      exact roll_modifyListeners s.source s.event _
        { w.host with
          subscriptions := w.host.subscriptions.modify sub ({ · with ended := true }) }

/-- All calls of the host do to the roll what the terms say. -/
theorem host_honours_roll (g : Desk) : (host : Host Desk C).Honours (rollTerms g) where
  tree source := by
    refine obeys_roll (leaves_findSource.bind fun _ => leaves_ofExcept _) fun w hg => ?_
    refine Action.ensures_bind.2 (findSource_settled (fun s hs => ?_)
      (fun e => ⟨rfl, fun _ h => by cases h⟩))
    rw [ofExcept_ensures]
    cases htree : s.currentTree with
    | error e => exact ⟨rfl, fun _ h => by cases h⟩
    | ok tree =>
      refine ⟨rfl, fun _ _ hshut => ?_⟩
      rw [← hg, shut_ground] at hshut
      obtain ⟨s', hs', hclosed⟩ := hshut
      rw [hs] at hs'
      cases hs'
      unfold SourceFile.currentTree at htree
      rw [hclosed] at htree
      cases htree
  subscribe source event callback := by
    refine obeys_roll (grazes_subscribe event callback) fun w _ => ⟨rfl, ?_⟩
    exact roll_modifyListeners source event _
      { w.host with subscriptions := w.host.subscriptions ++ [{ source, event, callback }] }
  unsubscribe := unsubscribe_obeys_roll
  isAvailable _ := (leaves_findSource.bind fun _ => leaves_pure _).obeys_roll
    (leaves_findSource.bind fun _ => leaves_pure _)
  sourceName source := by
    refine obeys_roll (leaves_findSource.bind fun _ => leaves_pure _) fun w _ => ?_
    refine Action.ensures_bind.2 ?_
    cases hs : w.host.sources[source]? with
    | none => exact (findSource_of_none hs).2 ⟨rfl, by simp [roll, hs, Except.toOption]⟩
    | some s => exact (findSource_ensures hs).2 ⟨rfl, by simp [roll, hs, Except.toOption]⟩
  createView title := by
    refine Leaves.obeys_roll ?_ ?_
    · exact leaves_host.bind fun _ => (leaves_modifyHost (by exact fun _ => rfl)).bind fun _ =>
        leaves_pure _
    · exact leaves_host.bind fun _ => (leaves_modifyHost (by exact fun _ => rfl)).bind fun _ =>
        leaves_pure _
  showLines view lines := by
    refine Leaves.obeys_roll ?_ ?_
    · exact (leaves_modifyHost (by exact fun _ => rfl)).bind fun _ =>
        (leaves_host.bind fun _ => leaves_pure _).bind fun _ => grazes_write _
    · exact (leaves_modifyHost (by exact fun _ => rfl)).bind fun _ =>
        (leaves_host.bind fun _ => leaves_pure _).bind fun _ => leaves_write (fun _ _ => rfl) _
  destroyView view := by
    refine Leaves.obeys_roll ?_ ?_
    · exact (leaves_modifyHost (by exact fun _ => rfl)).bind fun _ =>
        (leaves_host.bind fun _ => leaves_pure _).bind fun _ => grazes_write _
    · exact (leaves_modifyHost (by exact fun _ => rfl)).bind fun _ =>
        (leaves_host.bind fun _ => leaves_pure _).bind fun _ => leaves_write (fun _ _ => rfl) _
  focus source span highlight :=
    (grazes_focus span highlight).obeys_roll (focus_leaves_roll source span highlight)
  log message := by
    rintro w ⟨hg, htalks⟩
    refine log_of_talks htalks message fun messages => ?_
    exact ⟨_, w.client, rfl, ⟨hg, htalks⟩, rfl, rfl⟩

end

end Desk

end TreeInspector
