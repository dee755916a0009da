import TreeInspector.Proofs.Desk.Gist
import TreeInspector.Proofs.Session.Invariant

/-!
# Views as mirrors of a text

A view of a source on a desk shows the tree of some text: the one that the source had when they were
last brought together. Here that text is a parameter, one for each session, and the operations on
sessions are followed through what they do to it: opening and refreshing a view take the text that
the source has by then, everything else leaves the texts as they are.
-/

set_option autoImplicit false

namespace TreeInspector

/-- What an active session shows, and of what source. -/
structure Face where
  source : SourceId
  navigation : Bool
  view : ViewId
  lines : List ViewLine

/-- What the session shows, if it is active. -/
def Session.face? (s : Session) : Option Face :=
  s.binding?.map fun b => ⟨s.source, s.options.navigation, b.view, b.lines⟩

/-- What a session shows, by its number. -/
def World.face? {H C : Type} (w : World H C) : SessionId → Option Face := w.seen Session.face?

/-- Who shows something holds it, and the other way round. -/
theorem World.holding?_of_face? {H C : Type} {w : World H C} {id : SessionId} {face : Face}
    (h : w.face? id = some face) :
    ∃ hold, w.holding? id = some hold ∧ hold.view = face.view ∧ hold.source = face.source := by
  obtain ⟨s, hs, hface⟩ := Option.bind_eq_some_iff.1 h
  obtain ⟨binding, hbinding, rfl⟩ := Option.map_eq_some_iff.1 hface
  refine ⟨⟨s.source, s.registered, binding.view, binding.subscriptions⟩, ?_, rfl, rfl⟩
  refine (World.seen_eq hs).trans ?_
  unfold Session.holding?
  rw [hbinding, Option.map_some]

/-- A session that holds a view shows something in it of the source that it holds. -/
theorem World.face?_of_holding? {H C : Type} {w : World H C} {id : SessionId} {hold : Holding}
    (h : w.holding? id = some hold) :
    ∃ face, w.face? id = some face ∧ face.view = hold.view ∧ face.source = hold.source := by
  obtain ⟨s, hs, hhold⟩ := Option.bind_eq_some_iff.1 h
  obtain ⟨binding, hbinding, rfl⟩ := Option.map_eq_some_iff.1 hhold
  refine ⟨⟨s.source, s.options.navigation, binding.view, binding.lines⟩, ?_, rfl, rfl⟩
  refine (World.seen_eq hs).trans ?_
  unfold Session.face?
  rw [hbinding, Option.map_some]

/-- The tree is the one of the text. -/
def Page.Parsed (p : Page) : Prop :=
  p.tree = some (Document.analyze Document.lenient p.text).root

namespace Gist

/-! ## Listeners -/

/-- Someone is to be called for a subscription when the source announces the event. -/
def Serves (g : Gist) (source : SourceId) (event : Notice) (sub : SubscriptionId) : Prop :=
  ∃ callback, Books.serving g.subscriptions sub = some ⟨source, event, callback⟩

/-- Each source lists the subscriptions to its events that are in force. -/
def Listening (g : Gist) : Prop :=
  ∀ source f event, g.source? source = some f →
    (f.listeners event).Nodup ∧ ∀ sub, sub ∈ f.listeners event ↔ g.Serves source event sub

/-- The tree of each source is the one of its text. -/
def Parsed (g : Gist) : Prop := ∀ source page, g.page? source = some page → page.Parsed

section

variable {g : Gist} {source : SourceId} {event : Notice} {callback : Callback}
  {sub : SubscriptionId} {s : Subscription}

/-- After subscribing, one more subscription serves the event of that source. -/
theorem serves_subscribed (source' : SourceId) (event' : Notice) :
    (g.subscribed source event callback).Serves source' event' sub ↔
      g.Serves source' event' sub ∨
        sub = g.subscriptions.length ∧ source' = source ∧ event' = event := by
  unfold Serves subscribed
  rw [Books.serving_append rfl, Function.update_apply]
  by_cases hsub : sub = g.subscriptions.length
  · rw [if_pos hsub, hsub, Books.serving_length]
    simp [eq_comm]
  · rw [if_neg hsub]
    simp [hsub]

/-- A subscription that has been ended serves nothing, and the others serve what they did. -/
theorem serves_unsubscribed (source' : SourceId) (event' : Notice) (other : SubscriptionId) :
    (g.unsubscribed sub s).Serves source' event' other ↔
      other ≠ sub ∧ g.Serves source' event' other := by
  unfold Serves unsubscribed
  rw [Books.serving_ended, Function.update_apply]
  by_cases hother : other = sub
  · rw [if_pos hother]
    simp [hother]
  · rw [if_neg hother]
    simp [hother]

/-- Sources still list the subscriptions in force after a new one. -/
theorem Listening.subscribed (hg : g.Listening) :
    (g.subscribed source event callback).Listening := by
  have hnew : ∀ {source' f event'}, g.source? source' = some f →
      g.subscriptions.length ∉ f.listeners event' := by
    intro source' f event' hf hmem
    obtain ⟨callback', hserving⟩ := ((hg source' f event' hf).2 _).1 hmem
    rw [Books.serving_length] at hserving
    cases hserving
  intro source' f' event' hf'
  have hsource := source?_modifySource source source'
    (·.listening event (· ++ [g.subscriptions.length])) g
  rw [show (g.subscribed source event callback).source? source' = _ from hsource] at hf'
  simp only [serves_subscribed]
  by_cases hsame : source' = source
  · rw [if_pos hsame] at hf'
    obtain ⟨f, hf, rfl⟩ := Option.map_eq_some_iff.1 hf'
    obtain ⟨hnodup, hmem⟩ := hg source' f event' hf
    rw [SourceGist.listeners_listening]
    by_cases hevent : event' = event
    · rw [if_pos hevent]
      refine ⟨?_, fun sub => ?_⟩
      · rw [← List.concat_eq_append]
        exact hnodup.concat (hnew hf)
      · rw [List.mem_append, List.mem_singleton, hmem]
        simp [hsame, hevent]
    · rw [if_neg hevent]
      refine ⟨hnodup, fun sub => ?_⟩
      rw [hmem]
      simp [hevent]
  · rw [if_neg hsame] at hf'
    obtain ⟨hnodup, hmem⟩ := hg source' f' event' hf'
    refine ⟨hnodup, fun sub => ?_⟩
    rw [hmem]
    simp [hsame]

/-- Sources still list the subscriptions in force after one of them has been ended. -/
theorem Listening.unsubscribed (hg : g.Listening) (hs : g.subscriptions[sub]? = some s)
    (hended : s.ended = false) : (g.unsubscribed sub s).Listening := by
  have hserving : Books.serving g.subscriptions sub = some ⟨s.source, s.event, s.callback⟩ := by
    simp [Books.serving, hs, hended]
  intro source' f' event' hf'
  have hsource := source?_modifySource s.source source'
    (·.listening s.event (·.filter (· ≠ sub))) g
  rw [show (g.unsubscribed sub s).source? source' = _ from hsource] at hf'
  simp only [serves_unsubscribed]
  -- Listeners to another event, or of another source, do not include this subscription.
  have hother : ∀ {f}, g.source? source' = some f → ¬ (source' = s.source ∧ event' = s.event) →
      ∀ other, other ∈ f.listeners event' ↔ other ≠ sub ∧ g.Serves source' event' other := by
    intro f hf hne other
    rw [(hg source' f event' hf).2 other]
    refine ⟨fun hserves => ⟨?_, hserves⟩, fun h => h.2⟩
    rintro rfl
    obtain ⟨callback, hcallback⟩ := hserves
    rw [hserving] at hcallback
    simp only [Option.some.injEq, Subscriber.mk.injEq] at hcallback
    exact hne ⟨hcallback.1.symm, hcallback.2.1.symm⟩
  by_cases hsame : source' = s.source
  · rw [if_pos hsame] at hf'
    obtain ⟨f, hf, rfl⟩ := Option.map_eq_some_iff.1 hf'
    obtain ⟨hnodup, hmem⟩ := hg source' f event' hf
    rw [SourceGist.listeners_listening]
    by_cases hevent : event' = s.event
    · rw [if_pos hevent]
      refine ⟨hnodup.filter _, fun other => ?_⟩
      rw [List.mem_filter, hmem, decide_eq_true_eq, and_comm]
    · rw [if_neg hevent]
      exact ⟨hnodup, hother hf fun h => hevent h.2⟩
  · rw [if_neg hsame] at hf'
    exact ⟨(hg source' f' event' hf').1, hother hf' fun h => hsame h.1⟩

/-- A source to which nobody listens has no listeners to forget. -/
theorem Listening.forgetting (hg : g.Listening)
    (hunheard : ∀ event sub, ¬ g.Serves source event sub) :
    g.modifySource source ({ · with listeners := fun _ => [] }) = g := by
  refine modifySource_same fun f hf => ?_
  have hnone : f.listeners = fun _ => [] := by
    funext event
    refine List.eq_nil_iff_forall_not_mem.2 fun sub hsub => ?_
    exact hunheard event sub (((hg source f event hf).2 sub).1 hsub)
  rw [← hnone]

end

end Gist

/-! ## Reflections -/

/-- A session and its pane show the tree of a text. -/
structure Face.Shows (face : Face) (panes : List Pane) (text : String) : Prop where
  lines : face.lines = (Document.analyze Document.lenient text).root.render face.navigation
  pane : (panes[face.view]?).map Pane.lines = some (Desk.paneRows face.lines)

namespace Gist

/-- The view of each session shows the text given for it. -/
structure Reflects (g : Gist) (faces : SessionId → Option Face) (sync : SessionId → String) :
    Prop where
  listening : g.Listening
  parsed : g.Parsed
  present : ∀ {id face}, faces id = some face → ∃ page, g.page? face.source = some page
  shows : ∀ {id face}, faces id = some face → face.Shows g.panes (sync id)

namespace Reflects

variable {g g' : Gist} {faces : SessionId → Option Face} {sync : SessionId → String}
  {id : SessionId} {face : Face} {page : Page}

/-- Subscriptions do not matter to what is shown. -/
theorem of_subscriptions (hg : g.Reflects faces sync) (hlistening : g'.Listening)
    (hpage : g'.page? = g.page?) (hpanes : g'.panes = g.panes) : g'.Reflects faces sync where
  listening := hlistening
  parsed := by
    intro source page hp
    rw [hpage] at hp
    exact hg.parsed source page hp
  present hface := by
    rw [hpage]
    exact hg.present hface
  shows hface := by
    refine ⟨(hg.shows hface).lines, ?_⟩
    rw [hpanes]
    exact (hg.shows hface).pane

/-- Views do not look at the disk. -/
theorem onDisk (hg : g.Reflects faces sync) {disk : Disk} :
    Reflects { g with disk := disk } faces sync :=
  ⟨hg.listening, hg.parsed, hg.present, hg.shows⟩

/-- Panes may change as long as the lines of those in use do not. -/
theorem of_panes (hg : g.Reflects faces sync) {panes : List Pane}
    (hpanes : ∀ {id face}, faces id = some face →
      (panes[face.view]?).map Pane.lines = (g.panes[face.view]?).map Pane.lines) :
    Reflects { g with panes := panes } faces sync where
  listening := hg.listening
  parsed := hg.parsed
  present := hg.present
  shows hface := ⟨(hg.shows hface).lines, (hpanes hface).trans (hg.shows hface).pane⟩

/-- Subscribing changes no view. -/
theorem subscribed (hg : g.Reflects faces sync) (source : SourceId) (event : Notice)
    (callback : Callback) : (g.subscribed source event callback).Reflects faces sync :=
  hg.of_subscriptions hg.listening.subscribed (page?_subscribed source event callback g) rfl

/-- Ending a subscription changes no view. -/
theorem unsubscribed (hg : g.Reflects faces sync) {sub : SubscriptionId} {s : Subscription}
    (hs : g.subscriptions[sub]? = some s) (hended : s.ended = false) :
    (g.unsubscribed sub s).Reflects faces sync :=
  hg.of_subscriptions (hg.listening.unsubscribed hs hended) (page?_unsubscribed sub s g) rfl

/-- Views do not follow their sources by themselves. -/
theorem paged (hg : g.Reflects faces sync) {change : Page → Page}
    (hparsed : ∀ p : Page, p.Parsed → (change p).Parsed) (source : SourceId) :
    (g.modifySource source (·.paged change)).Reflects faces sync := by
  have hpage := page?_paged change source g
  refine ⟨?_, ?_, ?_, ?_⟩
  · intro source' f' event hf'
    rw [source?_modifySource] at hf'
    by_cases hsource : source' = source
    · rw [if_pos hsource] at hf'
      obtain ⟨f, hf, rfl⟩ := Option.map_eq_some_iff.1 hf'
      exact hg.listening source' f event hf
    · rw [if_neg hsource] at hf'
      exact hg.listening source' f' event hf'
  · intro source' page' hpage'
    rw [hpage, Function.update_apply] at hpage'
    by_cases hsource : source' = source
    · rw [if_pos hsource] at hpage'
      obtain ⟨page, hp, rfl⟩ := Option.map_eq_some_iff.1 hpage'
      exact hparsed page (hg.parsed source page hp)
    · rw [if_neg hsource] at hpage'
      exact hg.parsed source' page' hpage'
  · intro id face hface
    obtain ⟨page, hp⟩ := hg.present hface
    rw [hpage, Function.update_apply]
    by_cases hsource : face.source = source
    · exact ⟨change page, by rw [if_pos hsource, ← hsource, hp, Option.map_some]⟩
    · exact ⟨page, by rw [if_neg hsource, hp]⟩
  · exact hg.shows

/-- A new source has no view. -/
theorem added (hg : g.Reflects faces sync) {source : SourceId} {f : SourceGist}
    (hnew : g.source? source = none) (hunheard : ∀ event sub, ¬ g.Serves source event sub)
    (hlisteners : ∀ event, f.listeners event = []) (hparsed : f.toPage.Parsed) :
    (g.added source f).Reflects faces sync := by
  have hpage := page?_added source f g
  refine ⟨?_, ?_, ?_, ?_⟩
  · intro source' f' event hf'
    have hf'' : Function.update g.source? source (some f) source' = some f' := hf'
    rw [Function.update_apply] at hf''
    by_cases hsource : source' = source
    · rw [if_pos hsource] at hf''
      cases hf''
      rw [hlisteners event]
      refine ⟨List.nodup_nil, fun sub => ?_⟩
      rw [hsource]
      exact iff_of_false List.not_mem_nil (hunheard event sub)
    · rw [if_neg hsource] at hf''
      exact hg.listening source' f' event hf''
  · intro source' page' hpage'
    rw [hpage, Function.update_apply] at hpage'
    by_cases hsource : source' = source
    · rw [if_pos hsource] at hpage'
      cases hpage'
      exact hparsed
    · rw [if_neg hsource] at hpage'
      exact hg.parsed source' page' hpage'
  · intro id face hface
    obtain ⟨page, hp⟩ := hg.present hface
    have hold : face.source ≠ source := by
      intro hsource
      unfold page? at hp
      rw [hsource, hnew] at hp
      cases hp
    rw [hpage, Function.update_of_ne hold]
    exact ⟨page, hp⟩
  · exact hg.shows

/-- The views of the other sessions do not depend on a session that has ended. -/
theorem without (hg : g.Reflects faces sync) (id : SessionId) :
    g.Reflects (Function.update faces id none) sync := by
  have hkept : ∀ {id' face}, Function.update faces id none id' = some face →
      faces id' = some face := by
    intro id' face hface
    by_cases hid : id' = id
    · rw [hid, Function.update_self] at hface
      cases hface
    · rwa [Function.update_of_ne hid] at hface
  exact ⟨hg.listening, hg.parsed, fun hface => hg.present (hkept hface),
    fun hface => hg.shows (hkept hface)⟩

/-- One more view shows the text of its source, or an old one shows it anew. -/
theorem including (hg : g.Reflects faces sync) (hpage : g.page? face.source = some page)
    (hlines : face.lines =
      (Document.analyze Document.lenient page.text).root.render face.navigation)
    (hpane : (g.panes[face.view]?).map Pane.lines = some (Desk.paneRows face.lines)) :
    g.Reflects (Function.update faces id (some face)) (Function.update sync id page.text) where
  listening := hg.listening
  parsed := hg.parsed
  present := by
    intro id' face' hface'
    by_cases hid : id' = id
    · rw [hid, Function.update_self] at hface'
      cases hface'
      exact ⟨page, hpage⟩
    · rw [Function.update_of_ne hid] at hface'
      exact hg.present hface'
  shows := by
    intro id' face' hface'
    by_cases hid : id' = id
    · rw [hid, Function.update_self] at hface'
      cases hface'
      rw [hid, Function.update_self]
      exact ⟨hlines, hpane⟩
    · rw [Function.update_of_ne hid] at hface'
      rw [Function.update_of_ne hid]
      exact hg.shows hface'

/-- A new view changes none of those before it. -/
theorem opened (hg : g.Reflects faces sync) (title : String) :
    (g.opened title).Reflects faces sync := by
  refine hg.of_panes ?_
  intro id face hface
  obtain ⟨pane, hpane, -⟩ := Option.map_eq_some_iff.1 (hg.shows hface).pane
  have hlt : face.view < g.panes.length := (List.getElem?_eq_some_iff.1 hpane).1
  rw [List.getElem?_append_left hlt]

/-- Ending a view leaves what the others show. -/
theorem closed (hg : g.Reflects faces sync) (view : ViewId) :
    (g.closed view).Reflects faces sync := by
  refine hg.of_panes ?_
  intro id face hface
  rw [List.getElem?_modify]
  cases g.panes[face.view]? with
  | none => rfl
  | some pane => by_cases hview : view = face.view <;> simp [hview]

/-- Filling a view does not touch the views of others. -/
theorem showing (hg : g.Reflects faces sync) (view : ViewId) (lines : List ViewLine)
    (hview : ∀ {id face}, faces id = some face → face.view ≠ view) :
    (g.showing view lines).Reflects faces sync := by
  refine hg.of_panes ?_
  intro id face hface
  rw [List.getElem?_modify_ne _ _ (Ne.symm (hview hface))]

end Reflects

end Gist

end TreeInspector
