import TreeInspector.Proofs.Desk.Sync
import TreeInspector.Proofs.Session.Confinement

/-!
# Sessions in touch with their sources

A source may have any number of sessions, of the registry or past it, and clients may listen to it
as well. Each active session then still has a pane of its own and is called for both events of its
source, as long as the source is in use: a source that has been closed forgets who listened to it.
Whatever is done to a session keeps all sessions in touch.
-/

set_option autoImplicit false

namespace TreeInspector

namespace Gist

/-! ## Sources in use -/

/-- The gist without the sources that are closed. -/
def inUse (g : Gist) : Gist :=
  { g with source? := fun id => (g.source? id).filter fun f => !f.closed }

/-- The trees are those of the texts, each source in use lists the subscriptions to its events that
are in force, and there are no subscriptions to sources that do not exist. -/
structure Orderly (g : Gist) : Prop where
  parsed : g.Parsed
  listening : g.inUse.Listening
  placed : ∀ {source event sub}, g.Serves source event sub → (g.source? source).isSome

section

variable {g g' : Gist} {source : SourceId} {event : Notice} {callback : Callback}
  {sub : SubscriptionId} {s : Subscription} {change : SourceGist → SourceGist}

/-- The sources in use are those that are not closed. -/
theorem source?_inUse {f : SourceGist} :
    g.inUse.source? source = some f ↔ g.source? source = some f ∧ f.closed = false := by
  simp [inUse, Option.filter_eq_some_iff]

/-- Changing a source does not change which sources there are. -/
theorem isSome_modifySource (id other : SourceId) :
    ((g.modifySource id change).source? other).isSome = (g.source? other).isSome := by
  rw [source?_modifySource]
  split
  · exact Option.isSome_map
  · rfl

/-- A change that closes no source and opens none concerns the sources in use alone. -/
theorem inUse_modifySource (hclosed : ∀ f, (change f).closed = f.closed) (source : SourceId)
    (g : Gist) : (g.modifySource source change).inUse = g.inUse.modifySource source change := by
  unfold inUse modifySource
  congr 1
  funext other
  simp only [Function.update_apply]
  by_cases hother : other = source
  · rw [if_pos hother, if_pos hother]
    cases g.source? source with
    | none => rfl
    | some f =>
      rw [Option.map_some, Option.filter_some, Option.filter_some, hclosed]
      split <;> rfl
  · rw [if_neg hother, if_neg hother]

/-- Who listens to a source does not matter to whether it is in use. -/
theorem inUse_listening (source : SourceId) (event : Notice)
    (change : List SubscriptionId → List SubscriptionId) (g : Gist) :
    (g.modifySource source (·.listening event change)).inUse =
      g.inUse.modifySource source (·.listening event change) := by
  have hclosed : ∀ f : SourceGist, (f.listening event change).closed = f.closed := fun _ => rfl
  exact inUse_modifySource hclosed source g

/-- Subscribing does the same to the sources in use. -/
theorem inUse_subscribed (source : SourceId) (event : Notice) (callback : Callback) (g : Gist) :
    (g.subscribed source event callback).inUse = g.inUse.subscribed source event callback :=
  congrArg (fun g' : Gist =>
    Gist.mk g'.disk g'.source?
      (g.subscriptions ++ [({ source, event, callback } : Subscription)]) g'.panes)
    (inUse_listening source event (· ++ [g.subscriptions.length]) g)

/-- Ending a subscription does the same to the sources in use. -/
theorem inUse_unsubscribed (sub : SubscriptionId) (s : Subscription) (g : Gist) :
    (g.unsubscribed sub s).inUse = g.inUse.unsubscribed sub s :=
  congrArg (fun g' : Gist =>
    Gist.mk g'.disk g'.source? (g.subscriptions.modify sub ({ · with ended := true })) g'.panes)
    (inUse_listening s.source s.event (·.filter (· ≠ sub)) g)

namespace Orderly

/-- Neither the disk nor the panes matter. -/
theorem congr (hg : g.Orderly) (hsource : g'.source? = g.source?)
    (hsubs : g'.subscriptions = g.subscriptions) : g'.Orderly := by
  obtain ⟨disk, sources, subs, panes⟩ := g
  obtain ⟨disk', sources', subs', panes'⟩ := g'
  cases hsource
  cases hsubs
  exact ⟨hg.parsed, hg.listening, hg.placed⟩

/-- A gist in order is so after subscribing to a source that is there. -/
theorem subscribed (hg : g.Orderly) (hthere : (g.source? source).isSome) (event : Notice)
    (callback : Callback) : (g.subscribed source event callback).Orderly where
  parsed := by
    unfold Parsed
    rw [page?_subscribed]
    exact hg.parsed
  listening := by
    rw [inUse_subscribed]
    exact hg.listening.subscribed
  placed := by
    intro source' event' sub hserves
    refine (isSome_modifySource source source').trans ?_
    rcases (serves_subscribed source' event').1 hserves with hold | ⟨-, rfl, -⟩
    · exact hg.placed hold
    · exact hthere

/-- A gist in order is so after a subscription in force has been ended. -/
theorem unsubscribed (hg : g.Orderly) (hs : g.subscriptions[sub]? = some s)
    (hended : s.ended = false) : (g.unsubscribed sub s).Orderly where
  parsed := by
    unfold Parsed
    rw [page?_unsubscribed]
    exact hg.parsed
  listening := by
    rw [inUse_unsubscribed]
    exact hg.listening.unsubscribed (by exact hs) hended
  placed := by
    intro source' event' other hserves
    refine (isSome_modifySource s.source source').trans ?_
    exact hg.placed ((serves_unsubscribed source' event' other).1 hserves).2

/-- A source may change as long as its tree is that of its text, and its listeners may change once
it is closed. No source opens again. -/
theorem modified (hg : g.Orderly)
    (hparsed : ∀ f, g.source? source = some f → f.toPage.Parsed → (change f).toPage.Parsed)
    (hkept : ∀ f, g.source? source = some f → (change f).closed = false →
      f.closed = false ∧ (change f).listeners = f.listeners) :
    (g.modifySource source change).Orderly where
  parsed := by
    intro other page hpage
    obtain ⟨f', hf', rfl⟩ := Option.map_eq_some_iff.1 hpage
    have hold : ∀ {id f}, g.source? id = some f → f.toPage.Parsed := by
      intro id f hf
      exact hg.parsed id _ (by rw [page?, hf, Option.map_some])
    rw [source?_modifySource] at hf'
    split at hf'
    · next hother =>
      obtain ⟨f, hf, rfl⟩ := Option.map_eq_some_iff.1 hf'
      subst hother
      exact hparsed f hf (hold hf)
    · exact hold hf'
  listening := by
    intro other f' event hf'
    obtain ⟨hthere, hopen⟩ := source?_inUse.1 hf'
    rw [source?_modifySource] at hthere
    split at hthere
    · next hother =>
      obtain ⟨f, hf, rfl⟩ := Option.map_eq_some_iff.1 hthere
      subst hother
      obtain ⟨hused, hsame⟩ := hkept f hf hopen
      rw [hsame]
      exact hg.listening other f event (source?_inUse.2 ⟨hf, hused⟩)
    · exact hg.listening other f' event (source?_inUse.2 ⟨hthere, hopen⟩)
  placed := by
    intro other event sub hserves
    rw [isSome_modifySource]
    exact hg.placed hserves

/-- A new source has no listeners yet. -/
theorem added (hg : g.Orderly) {f : SourceGist} (hnew : g.source? source = none)
    (hlisteners : ∀ event, f.listeners event = []) (hparsed : f.toPage.Parsed) :
    (g.added source f).Orderly where
  parsed := by
    intro other page hpage
    rw [page?_added, Function.update_apply] at hpage
    split at hpage
    · cases hpage
      exact hparsed
    · exact hg.parsed other page hpage
  listening := by
    intro other f' event hf'
    obtain ⟨hthere, hopen⟩ := source?_inUse.1 hf'
    have hcases : Function.update g.source? source (some f) other = some f' := hthere
    rw [Function.update_apply] at hcases
    split at hcases
    · next hother =>
      cases hcases
      rw [hlisteners, hother]
      refine ⟨List.nodup_nil, fun sub => iff_of_false List.not_mem_nil ?_⟩
      intro hserves
      have hthere := hg.placed hserves
      rw [hnew] at hthere
      cases hthere
    · exact hg.listening other f' event (source?_inUse.2 ⟨hcases, hopen⟩)
  placed := by
    intro other event sub hserves
    show (Function.update g.source? source (some f) other).isSome
    rw [Function.update_apply]
    split
    · rfl
    · exact hg.placed hserves

end Orderly

end

end Gist

/-! ## Sessions and those who are called -/

/-- What the sessions hold and the books agree: each active session has a pane of its own and is
called for both events of its source, and no session is called for an event of a source that it is
not bound to. -/
structure Holds (holdings : SessionId → Option Holding) (bound : SessionId → SourceId → Prop)
    (k : Books) : Prop where
  shown : ∀ {id hold}, holdings id = some hold → hold.view ∈ k.views
  apart : ∀ {id hold id' hold'}, holdings id = some hold → holdings id' = some hold' →
    hold.view = hold'.view → id = id'
  both : ∀ {id hold}, holdings id = some hold → ∃ commit destroy,
    hold.subscriptions = [destroy, commit] ∧
    k.subscribers commit = some ⟨hold.source, .commit, .session id .commit⟩ ∧
    k.subscribers destroy = some ⟨hold.source, .destroy, .session id .destroy⟩
  genuine : ∀ {sub source event id event'},
    k.subscribers sub = some ⟨source, event, .session id event'⟩ → event' = event ∧ bound id source

namespace Holds

variable {holdings : SessionId → Option Holding} {bound bound' : SessionId → SourceId → Prop}
  {k : Books} {id : SessionId} {hold : Holding} {source : SourceId} {view : ViewId}
  {sub commit destroy : SubscriptionId}

/-- What sessions hold agrees with the books also if more of them are bound. -/
theorem mono (h : Holds holdings bound k)
    (hbound : ∀ {id source}, bound id source → bound' id source) : Holds holdings bound' k where
  shown := h.shown
  apart := h.apart
  both := h.both
  genuine hsub := ⟨(h.genuine hsub).1, hbound (h.genuine hsub).2⟩

/-- A session that ends gives its pane and its subscriptions back. -/
theorem without (h : Holds holdings bound k) (held : holdings id = some hold) :
    Holds (Function.update holdings id none) bound
      ((hold.subscriptions.foldl (fun k sub => k.unsubscribed sub) k).closed hold.view) := by
  obtain ⟨commit, destroy, hsubs, hcommit, hdestroy⟩ := h.both held
  have hothers : ∀ {id' hold'}, Function.update holdings id none id' = some hold' →
      id' ≠ id ∧ holdings id' = some hold' := by
    intro id' hold' held'
    by_cases hid : id' = id
    · rw [hid, Function.update_self] at held'
      cases held'
    · rw [Function.update_of_ne hid] at held'
      exact ⟨hid, held'⟩
  have hserved : ∀ sub, (Estate.without id hold ⟨holdings, [], k⟩).books.subscribers sub =
      if sub = commit ∨ sub = destroy then none else k.subscribers sub :=
    Estate.subscribers_without hsubs
  have hviews : ∀ view, view ∈ (Estate.without id hold ⟨holdings, [], k⟩).books.views ↔
      view ∈ k.views ∧ view ≠ hold.view := Estate.views_without
  -- Subscriptions of different sessions call different sessions, so they are different.
  have hkept : ∀ {id' sub source event}, id' ≠ id →
      k.subscribers sub = some ⟨source, event, .session id' event⟩ →
      ((hold.subscriptions.foldl (fun k sub => k.unsubscribed sub) k).closed
        hold.view).subscribers sub = some ⟨source, event, .session id' event⟩ := by
    intro id' sub source event hne hsub
    refine (hserved sub).trans ?_
    rw [if_neg, hsub]
    rintro (rfl | rfl)
    · rw [hcommit] at hsub
      simp only [Option.some.injEq, Subscriber.mk.injEq, Callback.session.injEq] at hsub
      exact hne hsub.2.2.1.symm
    · rw [hdestroy] at hsub
      simp only [Option.some.injEq, Subscriber.mk.injEq, Callback.session.injEq] at hsub
      exact hne hsub.2.2.1.symm
  refine ⟨?_, ?_, ?_, ?_⟩
  · intro id' hold' held'
    obtain ⟨hne, hold⟩ := hothers held'
    refine (hviews _).2 ⟨h.shown hold, ?_⟩
    exact fun hview => hne (h.apart hold held hview)
  · intro id₁ hold₁ id₂ hold₂ held₁ held₂ hview
    exact h.apart (hothers held₁).2 (hothers held₂).2 hview
  · intro id' hold' held'
    obtain ⟨hne, hold⟩ := hothers held'
    obtain ⟨commit', destroy', hsubs', hcommit', hdestroy'⟩ := h.both hold
    exact ⟨commit', destroy', hsubs', hkept hne hcommit', hkept hne hdestroy'⟩
  · intro sub source event id' event' hsub
    have hold := (hserved sub).symm.trans hsub
    split at hold
    · cases hold
    · exact h.genuine hold

/-- A session that begins gets a new pane and two new subscriptions. -/
theorem including (h : Holds holdings bound k) (idle : holdings id = none)
    (hbound : bound id source) (newView : view ∉ k.views)
    (newCommit : k.subscribers commit = none)
    (newDestroy : (k.subscribed commit
      ⟨source, .commit, .session id .commit⟩).subscribers destroy = none) (registered : Bool) :
    Holds (Function.update holdings id (some ⟨source, registered, view, [destroy, commit]⟩)) bound
      (((k.opened view).subscribed commit ⟨source, .commit, .session id .commit⟩).subscribed
        destroy ⟨source, .destroy, .session id .destroy⟩) := by
  have hserved : ∀ sub, (((k.opened view).subscribed commit
      ⟨source, .commit, .session id .commit⟩).subscribed destroy
        ⟨source, .destroy, .session id .destroy⟩).subscribers sub =
      if sub = destroy then some ⟨source, .destroy, .session id .destroy⟩
      else if sub = commit then some ⟨source, .commit, .session id .commit⟩
      else k.subscribers sub := by
    intro sub
    simp only [Books.subscribed, Books.opened, Function.update_apply]
  have hne : commit ≠ destroy := by
    rintro rfl
    simp [Books.subscribed] at newDestroy
  have hkept : ∀ {sub who}, k.subscribers sub = some who →
      (((k.opened view).subscribed commit ⟨source, .commit, .session id .commit⟩).subscribed
        destroy ⟨source, .destroy, .session id .destroy⟩).subscribers sub = some who := by
    intro sub who hsub
    have hcommit : sub ≠ commit := by
      rintro rfl
      rw [newCommit] at hsub
      cases hsub
    have hdestroy : sub ≠ destroy := by
      rintro rfl
      simp [Books.subscribed, Function.update_of_ne hne.symm, hsub] at newDestroy
    rw [hserved, if_neg hdestroy, if_neg hcommit, hsub]
  have hcases : ∀ {id' hold'}, Function.update holdings id
      (some ⟨source, registered, view, [destroy, commit]⟩) id' = some hold' →
      id' = id ∧ hold' = ⟨source, registered, view, [destroy, commit]⟩ ∨
        id' ≠ id ∧ holdings id' = some hold' := by
    intro id' hold' held'
    by_cases hid : id' = id
    · rw [hid, Function.update_self] at held'
      exact .inl ⟨hid, (Option.some.inj held').symm⟩
    · rw [Function.update_of_ne hid] at held'
      exact .inr ⟨hid, held'⟩
  have hnew : ∀ {id' hold'}, holdings id' = some hold' → hold'.view ≠ view := by
    rintro id' hold' held' rfl
    exact newView (h.shown held')
  refine ⟨?_, ?_, ?_, ?_⟩
  · intro id' hold' held'
    rcases hcases held' with ⟨-, rfl⟩ | ⟨-, old⟩
    · exact Set.mem_insert view k.views
    · exact Set.mem_insert_of_mem view (h.shown old)
  · intro id₁ hold₁ id₂ hold₂ held₁ held₂ hview
    rcases hcases held₁ with ⟨hid₁, rfl⟩ | ⟨-, old₁⟩
    · rcases hcases held₂ with ⟨hid₂, rfl⟩ | ⟨-, old₂⟩
      · rw [hid₁, hid₂]
      · exact absurd hview.symm (hnew old₂)
    · rcases hcases held₂ with ⟨hid₂, rfl⟩ | ⟨-, old₂⟩
      · exact absurd hview (hnew old₁)
      · exact h.apart old₁ old₂ hview
  · intro id' hold' held'
    rcases hcases held' with ⟨rfl, rfl⟩ | ⟨-, old⟩
    · refine ⟨commit, destroy, rfl, ?_, ?_⟩
      · rw [hserved, if_neg hne, if_pos rfl]
      · rw [hserved, if_pos rfl]
    · obtain ⟨commit', destroy', hsubs', hcommit', hdestroy'⟩ := h.both old
      exact ⟨commit', destroy', hsubs', hkept hcommit', hkept hdestroy'⟩
  · intro sub source' event id' event' hsub
    rw [hserved] at hsub
    split at hsub
    · simp only [Option.some.injEq, Subscriber.mk.injEq, Callback.session.injEq] at hsub
      obtain ⟨rfl, rfl, rfl, rfl⟩ := hsub
      exact ⟨rfl, hbound⟩
    · split at hsub
      · simp only [Option.some.injEq, Subscriber.mk.injEq, Callback.session.injEq] at hsub
        obtain ⟨rfl, rfl, rfl, rfl⟩ := hsub
        exact ⟨rfl, hbound⟩
      · exact h.genuine hsub

/-- A client may begin to listen. -/
theorem joined (h : Holds holdings bound k) (hnew : k.subscribers sub = none) (event : Notice)
    (listener : Nat) :
    Holds holdings bound (k.subscribed sub ⟨source, event, .client listener⟩) := by
  have hkept : ∀ {other who}, k.subscribers other = some who →
      (k.subscribed sub ⟨source, event, .client listener⟩).subscribers other = some who := by
    intro other who hother
    have hne : other ≠ sub := by
      rintro rfl
      rw [hnew] at hother
      cases hother
    exact (Function.update_of_ne hne _ _).trans hother
  refine ⟨h.shown, h.apart, ?_, ?_⟩
  · intro id hold held
    obtain ⟨commit, destroy, hsubs, hcommit, hdestroy⟩ := h.both held
    exact ⟨commit, destroy, hsubs, hkept hcommit, hkept hdestroy⟩
  · intro other source' event' id event'' hother
    have hcases : Function.update k.subscribers sub (some ⟨source, event, .client listener⟩) other =
        some ⟨source', event', .session id event''⟩ := hother
    rw [Function.update_apply] at hcases
    split at hcases
    · simp at hcases
    · exact h.genuine hcases

/-- A client may stop listening. -/
theorem left (h : Holds holdings bound k)
    (hclient : ∀ {source event id event'},
      k.subscribers sub ≠ some ⟨source, event, .session id event'⟩) :
    Holds holdings bound (k.unsubscribed sub) := by
  have hkept : ∀ {other source event id event'},
      k.subscribers other = some ⟨source, event, .session id event'⟩ →
      (k.unsubscribed sub).subscribers other = some ⟨source, event, .session id event'⟩ := by
    intro other source event id event' hother
    have hne : other ≠ sub := by
      rintro rfl
      exact hclient hother
    exact (Function.update_of_ne hne _ _).trans hother
  refine ⟨h.shown, h.apart, ?_, ?_⟩
  · intro id hold held
    obtain ⟨commit, destroy, hsubs, hcommit, hdestroy⟩ := h.both held
    exact ⟨commit, destroy, hsubs, hkept hcommit, hkept hdestroy⟩
  · intro other source event id event' hother
    have hcases : Function.update k.subscribers sub none other =
        some ⟨source, event, .session id event'⟩ := hother
    rw [Function.update_apply] at hcases
    split at hcases
    · cases hcases
    · exact h.genuine hcases

end Holds

/-! ## Operations on sessions -/

section

variable {H C : Type} {w : World H C} {i : SessionId} {source : SourceId}

/-- Changing a session does not change what is bound to a source, if it keeps its source. -/
theorem World.bound_modifySession {f : Session → Session} (hf : ∀ s, (f s).source = s.source)
    (id : SessionId) : (w.modifySession id f).Bound i source ↔ w.Bound i source := by
  unfold World.Bound
  rw [World.getElem?_modifySession]
  cases w.sessions[i]? with
  | none => simp
  | some s =>
    split
    · simp [hf]
    · simp

/-- A session stays bound when another one is made. -/
theorem World.Bound.withSession (h : w.Bound i source) (s : Session) :
    (w.withSession s).Bound i source := by
  obtain ⟨t, ht, rfl⟩ := h
  have hlt : i < w.sessions.length := (List.getElem?_eq_some_iff.1 ht).1
  exact ⟨t, (List.getElem?_append_left hlt).trans ht, rfl⟩

end

section

variable {C : Type} {w w' : World Desk C} {id : SessionId} {s : Session}
  {r : Except Failure Unit}

/-- The desk is in order, and all active sessions are in touch with their sources. -/
structure World.InTouch (w : World Desk C) : Prop where
  reliable : w.host.Reliable
  orderly : w.host.gist.Orderly
  holds : Holds w.holding? w.Bound w.host.gist.books

/-- Nothing that matters to the sessions has happened on the desk. -/
theorem World.InTouch.beside (hw : w.InTouch) {d : Desk} {c : C} (hreliable : d.Reliable)
    (hgist : d.gist = w.host.gist) : (w.beside d c).InTouch := by
  refine ⟨hreliable, ?_, ?_⟩
  · rw [World.beside_host, hgist]
    exact hw.orderly
  · rw [World.beside_host, hgist]
    exact hw.holds

/-- Sessions stay in touch while someone only looks around. -/
theorem World.InTouch.looked (hw : w.InTouch) (looked : w.Looked Desk.terms w') : w'.InTouch := by
  obtain ⟨d, c, rfl, hreliable, hlooks⟩ := looked
  exact hw.beside hreliable (Desk.looksAround_gist hlooks)

/-- What the sessions hold is as before, and so are the books. -/
theorem World.InTouch.same (hw : w.InTouch) (hreliable : w'.host.Reliable)
    (horderly : w'.host.gist.Orderly)
    (hestate : w'.estate (fun d => d.gist.books) = w.estate fun d => d.gist.books)
    (hbound : ∀ {i source}, w.Bound i source → w'.Bound i source) : w'.InTouch := by
  have hholding : w'.holding? = w.holding? := congrArg Estate.holdings hestate
  have hkept : w'.host.gist.books = w.host.gist.books := congrArg Estate.books hestate
  refine ⟨hreliable, horderly, ?_⟩
  rw [hholding, hkept]
  exact hw.holds.mono hbound

/-- Refreshing a session changes the lines of its pane at most. -/
theorem Session.Refreshes.inTouch {b : Nat} {binding : Binding} (hw : w.InTouch)
    (hs : w.sessions[id]? = some s) (hb : s.current = some b)
    (hbinding : s.bindings[b]? = some binding) (hreliable : w'.host.Reliable)
    (does : Session.Refreshes Desk.terms w id s b binding r w') :
    w'.InTouch ∧ w'.holding? = w.holding? := by
  have hestate := does.estate_eq Desk.terms_keep_books hs hb hbinding
  refine ⟨?_, congrArg Estate.holdings hestate⟩
  have hshown : ∀ {lines : List ViewLine} {d₁ d₂ : Desk},
      Desk.terms.Renders s.source s.options.navigation binding.view w.host (.ok lines) d₁ →
      d₂.gist = d₁.gist → d₂.gist.Orderly := by
    intro lines d₁ d₂ renders hsame
    obtain ⟨page, -, -, hgist⟩ := Desk.renders_ok hw.orderly.parsed renders
    rw [hsame, hgist]
    exact hw.orderly.congr rfl rfl
  cases does with
  | unrendered renders => exact hw.beside hreliable (Desk.renders_error renders).1
  | unnamed renders name =>
    refine hw.same hreliable (hshown renders name.1) hestate ?_
    exact fun h => (World.bound_modifySession (by exact fun _ => rfl) id).2 h
  | done renders name logs =>
    refine hw.same hreliable (hshown renders (Eq.trans logs name.1)) hestate ?_
    exact fun h => (World.bound_modifySession (by exact fun _ => rfl) id).2 h

namespace Desk

/-- A desk in order is so after ending subscriptions one after another. -/
theorem unsubscribes_orderly {subs : List SubscriptionId} {d d' : Desk}
    (ends : terms.Unsubscribes subs d d') (hd : d.gist.Orderly) : d'.gist.Orderly := by
  induction ends with
  | nil d => exact hd
  | cons first _ ih =>
    refine ih ?_
    obtain ⟨-, ⟨s, hs, hended, hgist⟩ | ⟨-, hgist⟩⟩ := first
    · rw [hgist]
      exact hd.unsubscribed hs hended
    · rw [hgist]
      exact hd

end Desk

/-- A session ends unless its source does not exist, and then nothing happens. -/
theorem Session.Finishes.inTouch {b : Nat} {binding : Binding} {reason : EndReason}
    (hw : w.InTouch) (hs : w.sessions[id]? = some s) (hb : s.current = some b)
    (hbinding : s.bindings[b]? = some binding) (hreliable : w'.host.Reliable)
    (does : Session.Finishes Desk.terms w id s b binding reason r w') :
    w'.InTouch ∧ (r = .ok () ∧ w'.holding? = Function.update w.holding? id none ∨
      w.host.gist.page? s.source = none ∧ w'.holding? = w.holding?) := by
  have held : w.holding? id =
      some ⟨s.source, s.registered, binding.view, binding.subscriptions⟩ :=
    (World.seen_eq hs).trans (Session.holding?_of_bound hb hbinding)
  cases does with
  | unnamed name =>
    refine ⟨hw.beside hreliable name.1, .inr ⟨?_, rfl⟩⟩
    exact Option.isNone_iff_eq_none.1 (by rw [← Option.not_isSome, ← name.2]; rfl)
  | interrupted name ends => exact (Desk.terms_keep_books.not_unsubscribesUntil ends).elim
  | viewLeft name ends view => cases view.1
  | @done title message d₁ d₂ d₃ d₄ c name ends view logs =>
    have hholding : (w.modifySession id fun s => (s.keeping b []).ended reason).holding? =
        Function.update w.holding? id none := World.seen_modifySession hs _
    have hgist : d₄.gist = d₂.gist.closed binding.view := Eq.trans logs view.2
    have hbooks : d₄.gist.books = (binding.subscriptions.foldl (fun k sub => k.unsubscribed sub)
        w.host.gist.books).closed binding.view := by
      rw [show d₄.gist = d₃.gist from logs,
        (Desk.terms_keep_books.destroyView view).2, Desk.terms_keep_books.unsubscribes ends,
        name.1]
    refine ⟨⟨hreliable, ?_, ?_⟩, .inl ⟨rfl, hholding⟩⟩
    · rw [World.beside_host, hgist]
      refine (Desk.unsubscribes_orderly ends ?_).congr rfl rfl
      rw [name.1]
      exact hw.orderly
    · rw [World.beside_host, hbooks]
      refine Eq.mpr (congrArg (Holds · _ _) hholding) ((hw.holds.without held).mono fun h => ?_)
      exact (World.bound_modifySession (by exact fun _ => rfl) id).2 h

/-- What a failed enabling leaves behind is a pane that nobody shows. A session that has been
enabled has a pane of its own and is called by its source. -/
theorem Session.Enables.inTouch (hw : w.InTouch) (hs : w.sessions[id]? = some s)
    (hnone : s.binding? = none) (hreliable : w'.host.Reliable)
    (does : Session.Enables Desk.terms w id s r w') : w'.InTouch := by
  have hidle : w.holding? id = none := by
    refine (World.seen_eq hs).trans ?_
    unfold Session.holding?
    rw [hnone, Option.map_none]
  cases r with
  | error e =>
    have hestate := does.estate_eq Desk.terms_keep_books
    cases does with
    | unnamed name => exact hw.beside hreliable name.1
    | noView name view => cases view.1
    | @undone title view e made d₁ d₂ d₃ d₄ d₅ c name makes binds tidies clears =>
      refine hw.same hreliable ?_ hestate (fun h => h)
      have hbound : d₃.gist.Orderly := by
        cases binds with
        | unrendered renders =>
          rw [(Desk.renders_error renders).1, makes.2, name.1]
          exact hw.orderly.congr rfl rfl
        | noCommit renders fails => cases fails.1
        | noDestroy renders first fails => cases fails.1
      have htidied : d₄.gist.Orderly := by
        cases tidies with
        | done all => exact Desk.unsubscribes_orderly all hbound
        | failed some logs => exact (Desk.terms_keep_books.not_unsubscribesUntil some).elim
      show d₅.gist.Orderly
      cases clears with
      | done call =>
        rw [call.2]
        exact htidied.congr rfl rfl
      | failed call logs => cases call.1
  | ok _ =>
    cases does with
    | @done title message view binding d₁ d₂ d₃ d₄ c name makes binds logs =>
      obtain ⟨hnew, hmade⟩ := Desk.terms_keep_books.created makes
      obtain ⟨commit, destroy, hview, hsubs, hcommit, hdestroy, hbooks⟩ :=
        Desk.terms_keep_books.binds_ok binds
      rw [hmade, name.1] at hcommit hdestroy hbooks
      rw [name.1] at hnew
      have hholding : (w.modifySession id (Session.bound binding)).holding? =
          Function.update w.holding? id
            (some ⟨s.source, s.registered, view, [destroy, commit]⟩) := by
        refine (World.seen_modifySession hs _).trans ?_
        have hold : (s.bound binding).holding? =
            some ⟨s.source, s.registered, view, [destroy, commit]⟩ := by
          unfold Session.holding?
          rw [Session.binding?_bound, Option.map_some, hview, hsubs]
          rfl
        rw [hold]
        rfl
      have horderly : d₃.gist.Orderly := by
        have hopened : d₂.gist.Orderly := by
          rw [makes.2, name.1]
          exact hw.orderly.congr rfl rfl
        cases binds with
        | @bound lines commit destroy d₅ d₆ _ renders first second =>
          obtain ⟨page, hpage, -, hgist⟩ := Desk.renders_ok hopened.parsed renders
          have hthere : (d₅.gist.source? s.source).isSome := by
            rw [hgist]
            exact Option.isSome_map.symm.trans (congrArg Option.isSome hpage)
          rw [second.2, first.2]
          refine Gist.Orderly.subscribed (Gist.Orderly.subscribed ?_ hthere _ _) ?_ _ _
          · rw [hgist]
            exact hopened.congr rfl rfl
          · exact (Gist.isSome_modifySource _ _).trans hthere
      refine ⟨hreliable, ?_, ?_⟩
      · rw [World.beside_host, show d₄.gist = d₃.gist from logs]
        exact horderly
      · rw [World.beside_host, show d₄.gist.books = d₃.gist.books from congrArg Gist.books logs,
          hbooks]
        refine Eq.mpr (congrArg (Holds · _ _) hholding) ?_
        refine (hw.holds.including hidle ⟨s, hs, rfl⟩ hnew hcommit hdestroy _).mono fun h => ?_
        exact (World.bound_modifySession (by exact fun _ => rfl) id).2 h

/-! ## Deeds and moves -/

/-- Sessions are in touch also with a new one that is not bound yet. -/
theorem World.InTouch.withSession (hw : w.InTouch) {s : Session} (hnone : s.binding? = none) :
    (w.withSession s).InTouch := by
  have hholding : (w.withSession s).holding? = w.holding? := by
    refine World.seen_withSession_same ?_ w
    unfold Session.holding?
    rw [hnone, Option.map_none]
  refine ⟨hw.reliable, hw.orderly, ?_⟩
  rw [hholding]
  exact hw.holds.mono fun h => h.withSession s

/-- Sessions stay in touch through whatever one of them does when called on. -/
theorem Session.TendsTo.inTouch (hw : w.InTouch) (hreliable : w'.host.Reliable)
    (tends : Session.TendsTo Desk.terms w id r w') : w'.InTouch := by
  cases tends with
  | looks looked => exact hw.looked looked
  | refreshes session current bound does =>
    exact (does.inTouch hw session current bound hreliable).1
  | finishes session current bound does =>
    exact (does.inTouch hw session current bound hreliable).1

/-- Sessions stay in touch through every deed. -/
theorem Deed.Does.inTouch {d : Deed} (hw : w.InTouch) (hreliable : w'.host.Reliable)
    (does : Deed.Does Desk.terms w d r w') : w'.InTouch := by
  cases does with
  | tends tends => exact tends.inTouch hw hreliable
  | creates => exact hw.withSession rfl
  | enables session idle does => exact does.inTouch hw session idle hreliable
  | @opens source settings r w₁ registry does =>
    have hs : (w.withSession (freshSession source settings)).sessions[w.sessions.length]? =
        some (freshSession source settings) := by
      simp [World.withSession]
    have hopened : w₁.InTouch := does.inTouch (hw.withSession rfl) hs rfl (by exact hreliable)
    exact ⟨hreliable, hopened.orderly, hopened.holds⟩

/-- Whatever is done to sessions, and however it ends, they stay in touch. -/
theorem Move.run_inTouch (hw : w.InTouch) (m : Move) :
    (m.run Desk.host).Ensures w (fun _ w' => w'.InTouch) (fun _ w' => w'.InTouch) := by
  unfold Action.Ensures
  rw [m.run_eq]
  refine Action.ensures_forM (I := fun w' => w'.InTouch) (m.deeds w) ?_ w hw
  intro d _ w₁ hw₁
  exact (d.run_does Desk.host_honours hw₁.reliable).mono
    (fun _ _ h => h.2.inTouch hw₁ h.1) (fun _ _ h => h.2.inTouch hw₁ h.1)

end

end TreeInspector
