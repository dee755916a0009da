import TreeInspector.Proofs.Desk.Gist
import TreeInspector.Proofs.Session.Confinement

/-!
# The sources of a desk keep apart

A desk keeps the sources, their watchers and subscriptions, and the panes in lists of its own. Still
it is a confined host, and each of its operations keeps to the source that it is about: the
listeners of a source are subscriptions to that source, and the watcher of a source watches that
source. So neither an edit, a save or the end of a source, nor what a watcher reports about it,
nor anything that is done to its views reaches another source.
-/

set_option autoImplicit false

namespace TreeInspector

/-- Who is called for a subscription. -/
def Subscription.subscriber (s : Subscription) : Subscriber := ⟨s.source, s.event, s.callback⟩

/-- What a desk keeps for a source. -/
structure SourceRecord where
  file : Option SourceFile
  watchers : WatcherId → Option Watcher
  subscriptions : SubscriptionId → Option Subscription

namespace Desk

/-- The watcher was made for the source. -/
def Watches (d : Desk) (source : SourceId) (watcher : WatcherId) : Prop :=
  ∃ t, d.watchers[watcher]? = some t ∧ t.source = source

/-- The subscription was made to the source. -/
def Subscribed (d : Desk) (source : SourceId) (sub : SubscriptionId) : Prop :=
  ∃ s, d.subscriptions[sub]? = some s ∧ s.source = source

/-- Each source lists subscriptions to itself, and has a watcher of itself. -/
structure Wired (d : Desk) : Prop where
  listeners : ∀ {source : SourceId} {f event sub}, d.sources[source]? = some f →
    sub ∈ f.listeners event → d.Subscribed source sub
  watcher : ∀ {source : SourceId} {f watcher}, d.sources[source]? = some f →
    f.watcher = some watcher → d.Watches source watcher

/-- The record of each source, the panes, and who is called for each subscription. -/
def parts : Parts Desk SourceRecord Pane where
  sound := Wired
  source d source :=
    { file := d.sources[source]?
      watchers := fun watcher => d.watchers[watcher]?.filter (·.source = source)
      subscriptions := fun sub => d.subscriptions[sub]?.filter (·.source = source) }
  view d view := d.panes[view]?
  subscriber d sub := d.subscriptions[sub]?.map Subscription.subscriber

/-! ## Changes of a desk -/

/-- What is added to a list is not seen by those it is not for. -/
theorem filter_concat {α : Type} {p : α → Bool} {x : α} (hx : p x = false) (xs : List α)
    (i : Nat) : (xs ++ [x])[i]?.filter p = xs[i]?.filter p := by
  rw [World.getElem?_concat]
  by_cases hi : i = xs.length
  · simp [hi, Option.filter_some, hx]
  · rw [if_neg hi]

/-- Nor is a change of a member that is not for them. -/
theorem filter_modify {α : Type} {p : α → Bool} {xs : List α} {j : Nat} {f : α → α}
    (hf : ∀ x, xs[j]? = some x → p x = false ∧ p (f x) = false) (i : Nat) :
    (xs.modify j f)[i]?.filter p = xs[i]?.filter p := by
  rw [List.getElem?_modify]
  by_cases hij : j = i
  · subst hij
    cases hx : xs[j]? with
    | none => simp
    | some x => simp [Option.filter_some, hf x hx]
  · simp [hij]

section

variable {source : SourceId} {d : Desk}

/-- What a desk keeps beside the sources, the watchers, the subscriptions and the panes is nobody's
part. -/
theorem within_aside {sources : Set SourceId} {views : Set ViewId} {callers : Set Subscriber}
    {d' : Desk} (hsources : d'.sources = d.sources)
    (hwatchers : d'.watchers = d.watchers) (hsubscriptions : d'.subscriptions = d.subscriptions)
    (hpanes : d'.panes = d.panes) : parts.Within sources views callers d d' where
  source := by
    intro i _
    simp only [parts, hsources, hwatchers, hsubscriptions]
  view := by
    intro v _ _
    simp only [parts, hpanes]
  made := by
    intro v hmade
    simpa only [parts, hpanes] using hmade
  subscriber := by
    intro sub who hwho
    simpa only [parts, hsubscriptions] using hwho
  newcomer := by
    intro sub who hwho
    exact .inl (by simpa only [parts, hsubscriptions] using hwho)

/-- The wiring of a desk is made of its sources, watchers and subscriptions. -/
theorem Wired.aside {d' : Desk} (hd : d.Wired) (hsources : d'.sources = d.sources)
    (hwatchers : d'.watchers = d.watchers) (hsubscriptions : d'.subscriptions = d.subscriptions) :
    d'.Wired where
  listeners := by
    intro i f event sub hf hsub
    rw [hsources] at hf
    unfold Subscribed
    rw [hsubscriptions]
    exact hd.listeners hf hsub
  watcher := by
    intro i f k hf hk
    rw [hsources] at hf
    unfold Watches
    rw [hwatchers]
    exact hd.watcher hf hk

/-- Changing a source changes nothing of others. -/
theorem within_modifySource (f : SourceFile → SourceFile) :
    parts.Within {source} ∅ ∅ d { d with sources := d.sources.modify source f } where
  source := by
    intro i hi
    simp only [parts, List.getElem?_modify_ne f d.sources (Ne.symm hi)]
  view _ _ := rfl
  made h := h
  subscriber h := h
  newcomer h := .inl h

/-- A change of a source keeps the wiring if the source still lists its own subscriptions and its
own watcher. -/
theorem Wired.modifySource (hd : d.Wired) {f : SourceFile → SourceFile}
    (hf : ∀ s, d.sources[source]? = some s →
      (∀ event, ∀ sub ∈ (f s).listeners event, d.Subscribed source sub) ∧
      ∀ k, (f s).watcher = some k → d.Watches source k) :
    Wired { d with sources := d.sources.modify source f } := by
  have hcases : ∀ {i : SourceId} {t}, (d.sources.modify source f)[i]? = some t →
      (i = source ∧ ∃ s, d.sources[source]? = some s ∧ t = f s) ∨ d.sources[i]? = some t := by
    intro i t ht
    rw [List.getElem?_modify] at ht
    obtain ⟨s, hs, hsame⟩ := Option.map_eq_some_iff.1 ht
    by_cases hi : source = i
    · subst hi
      exact .inl ⟨rfl, s, hs, by simpa using hsame.symm⟩
    · have hkept : s = t := by simpa [hi] using hsame
      exact .inr (hkept ▸ hs)
  constructor
  · intro i t event sub ht hsub
    rcases hcases ht with ⟨rfl, s, hs, rfl⟩ | hold
    · exact (hf s hs).1 event sub hsub
    · exact hd.listeners hold hsub
  · intro i t k ht hk
    rcases hcases ht with ⟨rfl, s, hs, rfl⟩ | hold
    · exact (hf s hs).2 k hk
    · exact hd.watcher hold hk

/-- Texts, marks and selections do not matter to the wiring. -/
theorem Wired.modifySource_same (hd : d.Wired) {f : SourceFile → SourceFile}
    (hcommit : ∀ s, (f s).commitListeners = s.commitListeners)
    (hdestroy : ∀ s, (f s).destroyListeners = s.destroyListeners)
    (hwatcher : ∀ s, (f s).watcher = s.watcher) :
    Wired { d with sources := d.sources.modify source f } := by
  refine hd.modifySource fun s hs => ⟨?_, ?_⟩
  · intro event sub hsub
    have hsame : (f s).listeners event = s.listeners event := by
      cases event with
      | commit => exact hcommit s
      | destroy => exact hdestroy s
    rw [hsame] at hsub
    exact hd.listeners hs hsub
  · intro k hk
    rw [hwatcher] at hk
    exact hd.watcher hs hk

/-- A new source changes nothing of others. -/
theorem within_addSource (f : SourceFile) :
    parts.Within {d.sources.length} ∅ ∅ d { d with sources := d.sources ++ [f] } where
  source := by
    intro i hi
    have hsame : (d.sources ++ [f])[i]? = d.sources[i]? :=
      (World.getElem?_concat d.sources f i).trans (if_neg hi)
    simp only [parts, hsame]
  view _ _ := rfl
  made h := h
  subscriber h := h
  newcomer h := .inl h

/-- A new source keeps the wiring. -/
theorem Wired.addSource (hd : d.Wired) (path : String) :
    Wired { d with sources := d.sources ++ [{ path := path }] } := by
  have hcases : ∀ {i : SourceId} {t}, (d.sources ++ [{ path := path }])[i]? = some t →
      t = { path := path } ∨ d.sources[i]? = some t := by
    intro i t ht
    rw [World.getElem?_concat] at ht
    by_cases hi : i = d.sources.length
    · rw [if_pos hi] at ht
      exact .inl (Option.some.inj ht).symm
    · rw [if_neg hi] at ht
      exact .inr ht
  constructor
  · intro i t event sub ht hsub
    rcases hcases ht with rfl | hold
    · cases event <;> cases hsub
    · exact hd.listeners hold hsub
  · intro i t k ht hk
    rcases hcases ht with rfl | hold
    · cases hk
    · exact hd.watcher hold hk

/-- A new watcher of a source changes nothing of others. -/
theorem within_addWatcher (path : Path) :
    parts.Within {source} ∅ ∅ d { d with watchers := d.watchers ++ [{ path, source }] } where
  source := by
    intro i hi
    have hother : decide (source = i) = false := decide_eq_false (Ne.symm hi)
    simp only [parts]
    congr 1
    funext k
    exact filter_concat (p := fun t : Watcher => decide (t.source = i)) hother d.watchers k
  view _ _ := rfl
  made h := h
  subscriber h := h
  newcomer h := .inl h

/-- Stopping a watcher of a source changes nothing of others. -/
theorem within_stopWatcher {watcher : WatcherId} (hwatches : d.Watches source watcher) :
    parts.Within {source} ∅ ∅ d
      { d with watchers := d.watchers.modify watcher ({ · with isOpen := false }) } where
  source := by
    intro i hi
    obtain ⟨t, ht, rfl⟩ := hwatches
    simp only [parts]
    congr 1
    funext k
    refine filter_modify ?_ k
    intro t' ht'
    rw [ht] at ht'
    cases ht'
    exact ⟨decide_eq_false (Ne.symm hi), decide_eq_false (Ne.symm hi)⟩
  view _ _ := rfl
  made h := h
  subscriber h := h
  newcomer h := .inl h

/-- Watchers are added and stopped, but none is given to another source. -/
theorem Wired.withWatchers (hd : d.Wired) {watchers : List Watcher}
    (hkept : ∀ {i k}, d.Watches i k → Watches { d with watchers := watchers } i k) :
    Wired { d with watchers := watchers } where
  listeners := hd.listeners
  watcher hf hk := hkept (hd.watcher hf hk)

/-- A watcher still watches its source when there is one more. -/
theorem Watches.added (t : Watcher) {k : WatcherId} (h : d.Watches source k) :
    Watches { d with watchers := d.watchers ++ [t] } source k := by
  obtain ⟨t', ht', hsource⟩ := h
  have hlt := (List.getElem?_eq_some_iff.1 ht').1
  exact ⟨t', (List.getElem?_append_left hlt).trans ht', hsource⟩

/-- A watcher belongs to its source also once it has been stopped. -/
theorem Watches.stopped (watcher : WatcherId) {k : WatcherId} (h : d.Watches source k) :
    Watches { d with watchers := d.watchers.modify watcher ({ · with isOpen := false }) }
      source k := by
  obtain ⟨t, ht, rfl⟩ := h
  by_cases hk : watcher = k
  · subst hk
    refine ⟨{ t with isOpen := false }, ?_, rfl⟩
    show (d.watchers.modify watcher _)[watcher]? = _
    rw [List.getElem?_modify_eq, ht]
    rfl
  · refine ⟨t, ?_, rfl⟩
    show (d.watchers.modify watcher _)[k]? = _
    rw [List.getElem?_modify_ne _ _ hk, ht]

/-- A new subscription calls one more, and changes nothing of other sources. -/
theorem within_addSubscription (s : Subscription) :
    parts.Within {s.source} ∅ {s.subscriber} d
      { d with subscriptions := d.subscriptions ++ [s] } where
  source := by
    intro i hi
    have hother : decide (s.source = i) = false := decide_eq_false (Ne.symm hi)
    simp only [parts]
    congr 1
    funext k
    exact filter_concat (p := fun s : Subscription => decide (s.source = i)) hother
      d.subscriptions k
  view _ _ := rfl
  made h := h
  subscriber := by
    intro sub who hwho
    obtain ⟨s', hs', rfl⟩ := Option.map_eq_some_iff.1 hwho
    have hlt := (List.getElem?_eq_some_iff.1 hs').1
    exact Option.map_eq_some_iff.2 ⟨s', (List.getElem?_append_left hlt).trans hs', rfl⟩
  newcomer := by
    intro sub who hwho
    obtain ⟨s', hs', rfl⟩ := Option.map_eq_some_iff.1 hwho
    rw [World.getElem?_concat] at hs'
    by_cases hsub : sub = d.subscriptions.length
    · rw [if_pos hsub] at hs'
      cases hs'
      exact .inr rfl
    · rw [if_neg hsub] at hs'
      exact .inl (Option.map_eq_some_iff.2 ⟨s', hs', rfl⟩)

/-- Ending a subscription to a source changes nothing of others. -/
theorem within_endSubscription {sub : SubscriptionId} (hsub : d.Subscribed source sub) :
    parts.Within {source} ∅ ∅ d
      { d with subscriptions := d.subscriptions.modify sub ({ · with ended := true }) } := by
  -- Ending a subscription does not change who was to be called.
  have hcalled : ∀ k : SubscriptionId,
      (d.subscriptions.modify sub ({ · with ended := true }))[k]?.map Subscription.subscriber =
        d.subscriptions[k]?.map Subscription.subscriber := by
    intro k
    rw [List.getElem?_modify]
    by_cases hk : sub = k
    · subst hk
      cases d.subscriptions[sub]? <;> simp [Subscription.subscriber]
    · simp [hk]
  refine ⟨?_, fun _ _ => rfl, fun h => h, fun {k who} h => (hcalled k).trans h,
    fun {k who} h => .inl ((hcalled k).symm.trans h)⟩
  intro i hi
  obtain ⟨s, hs, rfl⟩ := hsub
  simp only [parts]
  congr 1
  funext k
  refine filter_modify ?_ k
  intro s' hs'
  rw [hs] at hs'
  cases hs'
  exact ⟨decide_eq_false (Ne.symm hi), decide_eq_false (Ne.symm hi)⟩

/-- Subscriptions are added and ended, but none is given to another source. -/
theorem Wired.withSubscriptions (hd : d.Wired) {subscriptions : List Subscription}
    (hkept : ∀ {i sub}, d.Subscribed i sub →
      Subscribed { d with subscriptions := subscriptions } i sub) :
    Wired { d with subscriptions := subscriptions } where
  listeners hf hsub := hkept (hd.listeners hf hsub)
  watcher := hd.watcher

/-- A subscription is still to its source when there is one more. -/
theorem Subscribed.added (s : Subscription) {sub : SubscriptionId} (h : d.Subscribed source sub) :
    Subscribed { d with subscriptions := d.subscriptions ++ [s] } source sub := by
  obtain ⟨s', hs', hsource⟩ := h
  have hlt := (List.getElem?_eq_some_iff.1 hs').1
  exact ⟨s', (List.getElem?_append_left hlt).trans hs', hsource⟩

/-- A subscription is to its source also once it has been ended. -/
theorem Subscribed.ended (other : SubscriptionId) {sub : SubscriptionId}
    (h : d.Subscribed source sub) :
    Subscribed { d with subscriptions := d.subscriptions.modify other ({ · with ended := true }) }
      source sub := by
  obtain ⟨s, hs, rfl⟩ := h
  by_cases hsub : other = sub
  · subst hsub
    refine ⟨{ s with ended := true }, ?_, rfl⟩
    show (d.subscriptions.modify other _)[other]? = _
    rw [List.getElem?_modify_eq, hs]
    rfl
  · refine ⟨s, ?_, rfl⟩
    show (d.subscriptions.modify other _)[sub]? = _
    rw [List.getElem?_modify_ne _ _ hsub, hs]

/-- The subscriptions that a source lists after a change of its listeners. -/
theorem listeners_modifyListeners (event other : Notice)
    (f : List SubscriptionId → List SubscriptionId) (s : SourceFile) :
    (s.modifyListeners event f).listeners other =
      if other = event then f (s.listeners other) else s.listeners other := by
  cases event <;> cases other <;> rfl

/-- Changing the listeners of a source keeps its watcher. -/
theorem watcher_modifyListeners (event : Notice) (f : List SubscriptionId → List SubscriptionId)
    (s : SourceFile) : (s.modifyListeners event f).watcher = s.watcher := by
  cases event <;> rfl

/-- A source lists other subscriptions to itself. -/
theorem Wired.modifyListeners (hd : d.Wired) {event : Notice}
    {f : List SubscriptionId → List SubscriptionId}
    (hf : ∀ subs, ∀ sub ∈ f subs, sub ∈ subs ∨ d.Subscribed source sub) :
    Wired { d with sources := d.sources.modify source (·.modifyListeners event f) } := by
  refine hd.modifySource fun s hs => ⟨?_, ?_⟩
  · intro other sub hsub
    rw [listeners_modifyListeners] at hsub
    by_cases hother : other = event
    · rw [if_pos hother] at hsub
      exact (hf _ sub hsub).elim (hd.listeners hs) fun h => h
    · rw [if_neg hother] at hsub
      exact hd.listeners hs hsub
  · intro k hk
    rw [watcher_modifyListeners] at hk
    exact hd.watcher hs hk

/-- Changing a pane changes nothing but that pane. -/
theorem within_modifyPane (view : ViewId) (f : Pane → Pane) :
    parts.Within ∅ {view} ∅ d { d with panes := d.panes.modify view f } where
  source _ := rfl
  view := by
    intro v hv _
    exact List.getElem?_modify_ne f d.panes (Ne.symm hv)
  made := by
    intro v hmade
    show ((d.panes.modify view f)[v]?).isSome
    obtain ⟨pane, hpane⟩ := Option.isSome_iff_exists.1 hmade
    rw [List.getElem?_modify, show d.panes[v]? = some pane from hpane]
    rfl
  subscriber h := h
  newcomer h := .inl h

/-- A new pane changes nothing that was there. -/
theorem within_addPane (pane : Pane) :
    parts.Within ∅ ∅ ∅ d { d with panes := d.panes ++ [pane] } := by
  have hkept : ∀ {v : ViewId}, (d.panes[v]?).isSome → (d.panes ++ [pane])[v]? = d.panes[v]? := by
    intro v hmade
    obtain ⟨old, hold⟩ := Option.isSome_iff_exists.1 hmade
    exact List.getElem?_append_left (List.getElem?_eq_some_iff.1 hold).1
  refine ⟨fun _ => rfl, fun _ hmade => hkept hmade, ?_, fun h => h, fun h => .inl h⟩
  intro v hmade
  show ((d.panes ++ [pane])[v]?).isSome
  rw [hkept hmade]
  exact hmade

end

/-! ## The desk as a host -/

section

variable {C : Type} {w : World Desk C} {source : SourceId}

/-- Something is written behind a change. -/
theorem write_behind {sources : Set SourceId} {views : Set ViewId} {d : Desk} (hd : d.Wired)
    (hwithin : parts.Within sources views ∅ w.host d) (text : String) :
    (write text).Ensures (w.beside d w.client)
      (fun _ w' => ∃ d' c, w' = w.beside d' c ∧ d'.Wired ∧ parts.Within sources views ∅ w.host d')
      (fun _ w' => ∃ d' c, w' = w.beside d' c ∧ d'.Wired ∧
        parts.Within sources views ∅ w.host d') := by
  have hwritten : ∀ output, parts.Within sources views ∅ w.host { d with output := output } :=
    fun output => hwithin.trans (within_aside rfl rfl rfl rfl)
  unfold write
  simp only [Action.ensures_bind, Action.ensures_host, Action.ensures_modifyHost,
    ofExcept_ensures]
  split <;> exact ⟨_, w.client, rfl, hd.aside rfl rfl rfl, hwritten _⟩

/-- A message touches nothing. -/
theorem log_obeys (message : String) :
    (log message : Action Desk C Unit).Obeys Wired fun d _ d' => parts.Within ∅ ∅ ∅ d d' := by
  intro w hd
  unfold log
  rw [Action.ensures_bind, Action.ensures_host]
  split <;> exact ⟨_, w.client, rfl, hd.aside rfl rfl rfl, within_aside rfl rfl rfl rfl⟩

/-- Subscribing to a source changes nothing of others, and calls only whom it says. -/
theorem subscribe_obeys (source : SourceId) (event : Notice) (callback : Callback) :
    (subscribe source event callback : Action Desk C SubscriptionId).Obeys Wired fun d r d' =>
      parts.Within {source} ∅ {⟨source, event, callback⟩} d d' ∧
        ∀ sub, r = .ok sub → parts.subscriber d' sub = some ⟨source, event, callback⟩ := by
  intro w hd
  have hadded : Subscribed { w.host with
      subscriptions := w.host.subscriptions ++ [{ source, event, callback }] } source
      w.host.subscriptions.length := ⟨_, List.getElem?_concat_length, rfl⟩
  refine ⟨_, w.client, rfl, ?_, ?_, ?_⟩
  · refine (hd.withSubscriptions fun h => h.added _).modifyListeners ?_
    intro subs sub hsub
    rcases List.mem_append.1 hsub with hold | hnew
    · exact .inl hold
    · rw [List.mem_singleton.1 hnew]
      exact .inr hadded
  · refine (within_addSubscription { source, event, callback }).trans ?_
    exact (within_modifySource _).mono subset_rfl subset_rfl (Set.empty_subset _)
  · rintro _ ⟨⟩
    exact Option.map_eq_some_iff.2 ⟨_, List.getElem?_concat_length, rfl⟩

/-- Ending a subscription changes nothing but the source that it was made to. -/
theorem unsubscribe_confined (sub : SubscriptionId) :
    (unsubscribe sub : Action Desk C Unit).Obeys Wired fun d _ d' =>
      parts.Within {i | parts.Belongs i d sub} ∅ ∅ d d' := by
  intro w hd
  have hsame : parts.Within {i | parts.Belongs i w.host sub} ∅ ∅ w.host w.host :=
    within_aside rfl rfl rfl rfl
  unfold unsubscribe
  rw [Action.ensures_bind, Action.ensures_host]
  cases hs : w.host.subscriptions[sub]? with
  | none => exact ⟨w.host, w.client, rfl, hd, hsame⟩
  | some s =>
    dsimp only
    split
    · exact ⟨w.host, w.client, rfl, hd, hsame⟩
    refine ⟨_, w.client, rfl, ?_, ?_⟩
    · refine (hd.withSubscriptions fun h => h.ended sub).modifyListeners ?_
      intro subs other hother
      exact .inl (List.mem_filter.1 hother).1
    · have hbelongs : ({s.source} : Set SourceId) ⊆ {i | parts.Belongs i w.host sub} := by
        rintro _ rfl
        exact ⟨s.subscriber, Option.map_eq_some_iff.2 ⟨s, hs, rfl⟩, rfl⟩
      exact ((within_endSubscription ⟨s, hs, rfl⟩).trans (within_modifySource _)).mono hbelongs
        subset_rfl subset_rfl

/-- A look at a source changes nothing. -/
theorem look_obeys {α : Type} (source : SourceId) (look : SourceFile → Except Failure α) :
    (do Action.ofExcept (look (← findSource source)) : Action Desk C α).Obeys Wired
      fun d _ d' => parts.Within {source} ∅ ∅ d d' := by
  intro w hd
  have hsame : parts.Within {source} ∅ ∅ w.host w.host :=
    within_aside rfl rfl rfl rfl
  rw [Action.ensures_bind]
  cases hs : w.host.sources[source]? with
  | none =>
    rw [findSource_of_none hs]
    exact ⟨w.host, w.client, rfl, hd, hsame⟩
  | some s =>
    rw [findSource_ensures hs, ofExcept_ensures]
    split <;> exact ⟨w.host, w.client, rfl, hd, hsame⟩

/-- Moving the focus to a source changes nothing of others. -/
theorem focus_confined (source : SourceId) (span : Span) (highlight : Bool) :
    (focus source span highlight : Action Desk C Unit).Obeys Wired
      fun d _ d' => parts.Within {source} ∅ ∅ d d' := by
  intro w hd
  unfold focus
  rw [Action.ensures_bind]
  refine requireOpen_ensures ?_ ?_
  · intro _ _
    exact ⟨w.host, w.client, rfl, hd, within_aside rfl rfl rfl rfl⟩
  intro s _ _
  have hselected : Wired { w.host with
      sources := w.host.sources.modify source
        ({ · with selection := some span, highlighted := highlight }) } :=
    hd.modifySource_same (fun _ => rfl) (fun _ => rfl) (fun _ => rfl)
  have hwithin : parts.Within {source} ∅ ∅ w.host { w.host with
      sources := w.host.sources.modify source
        ({ · with selection := some span, highlighted := highlight }) } :=
    within_modifySource _
  unfold modifySource
  rw [Action.ensures_bind, Action.ensures_modifyHost, Action.ensures_bind, ofExcept_ensures]
  cases focusReport s.name (Text.units s.text) span highlight with
  | error e => exact ⟨_, w.client, rfl, hselected, hwithin⟩
  | ok rows => exact write_behind hselected hwithin _

/-- A pane is changed, and something is written. -/
theorem modifyPane_obeys (view : ViewId) (f : Pane → Pane) (text : Pane → String) :
    (do
      modifyPane view f
      write (text (← findPane view)) : Action Desk C Unit).Obeys Wired
        fun d _ d' => parts.Within ∅ {view} ∅ d d' := by
  intro w hd
  have hwired : Wired { w.host with panes := w.host.panes.modify view f } := hd.aside rfl rfl rfl
  have hwithin := within_modifyPane (d := w.host) view f
  unfold modifyPane findPane
  simp only [Action.ensures_bind, Action.ensures_modifyHost, Action.ensures_host,
    Action.ensures_pure]
  exact write_behind hwired hwithin _

/-- A desk is a confined host. -/
theorem host_confined : (host : Host Desk C).Confined parts where
  tree source := look_obeys source SourceFile.currentTree
  subscribe := subscribe_obeys
  unsubscribe := unsubscribe_confined
  isAvailable source := look_obeys source fun s => .ok !s.closed
  sourceName source := look_obeys source fun s => .ok s.name
  createView title := by
    intro w hd
    refine ⟨_, w.client, rfl, hd.aside rfl rfl rfl, within_addPane _, ?_⟩
    rintro _ ⟨⟩
    refine ⟨List.getElem?_eq_none (Nat.le_refl _), ?_⟩
    exact Option.isSome_iff_exists.2 ⟨_, List.getElem?_concat_length⟩
  showLines view lines := modifyPane_obeys view ({ · with lines := paneRows lines }) paneText
  destroyView view := modifyPane_obeys view ({ · with disposed := true })
    fun pane => "=== closed: " ++ pane.title ++ " ===\n"
  focus := focus_confined
  log := log_obeys

end

end Desk

end TreeInspector
