import TreeInspector.Proofs.Desk.Mirror

/-!
# Sessions on a desk

What enabling, refreshing and ending a session do to the views on a desk. A session that is enabled
or refreshed is brought together with its source: its view shows the text that the source has by
then. A session that ends leaves the others as they are.
-/

set_option autoImplicit false

namespace TreeInspector

section

variable {C : Type} {w w' : World Desk C} {sync : SessionId → String} {id : SessionId} {s : Session}

/-- The desk is in order, and the view of each session shows the text given for it. -/
structure World.Mirrors (w : World Desk C) (sync : SessionId → String) : Prop where
  reliable : w.host.Reliable
  sound : (w.estate fun d => d.gist.books).Sound
  reflects : w.host.gist.Reflects w.face? sync

/-! ## Calls that look around -/

namespace Desk

/-- Looking around does not change the gist. -/
theorem looksAround_gist {d d' : Desk} (looks : terms.LooksAround d d') : d'.gist = d.gist := by
  induction looks with
  | done d => rfl
  | isAvailable call _ ih => exact ih.trans call
  | sourceName call _ ih => exact ih.trans call.1
  | focus call _ ih => exact ih.trans call
  | log call _ ih => exact ih.trans call

end Desk

namespace World.Mirrors

/-- The desk may change as long as the views still show what they are to show. -/
theorem aside (hw : w.Mirrors sync) {d : Desk} {c : C} (hreliable : d.Reliable)
    (hbooks : d.gist.books = w.host.gist.books) (hreflects : d.gist.Reflects w.face? sync) :
    (w.beside d c).Mirrors sync where
  reliable := hreliable
  sound := by
    have hsame : (fun d : Desk => d.gist.books) d = (fun d : Desk => d.gist.books) w.host := hbooks
    rw [World.estate_beside hsame]
    exact hw.sound
  reflects := hreflects

/-- Views mirror the same texts on a desk with the same gist. -/
theorem beside (hw : w.Mirrors sync) {d : Desk} {c : C} (hreliable : d.Reliable)
    (hgist : d.gist = w.host.gist) : (w.beside d c).Mirrors sync :=
  hw.aside hreliable (congrArg Gist.books hgist) (hgist ▸ hw.reflects)

/-- The texts of sessions that show nothing do not matter. -/
theorem congr (hw : w.Mirrors sync) {sync' : SessionId → String}
    (hsame : ∀ {id face}, w.face? id = some face → sync' id = sync id) : w.Mirrors sync' where
  reliable := hw.reliable
  sound := hw.sound
  reflects := by
    refine ⟨hw.reflects.listening, hw.reflects.parsed, hw.reflects.present, fun hface => ?_⟩
    rw [hsame hface]
    exact hw.reflects.shows hface

end World.Mirrors

/-! ## Faces of changed sessions -/

/-- A bound session shows what its binding says. -/
theorem Session.face?_of_bound {b : Nat} {binding : Binding} (hb : s.current = some b)
    (hbinding : s.bindings[b]? = some binding) :
    s.face? = some ⟨s.source, s.options.navigation, binding.view, binding.lines⟩ := by
  unfold Session.face?
  rw [Session.binding?_eq_some_iff.2 ⟨b, hb, hbinding⟩]
  rfl

/-- A session that is given other lines shows those. -/
theorem Session.face?_showing {b : Nat} {binding : Binding} (hb : s.current = some b)
    (hbinding : s.bindings[b]? = some binding) (lines : List ViewLine) :
    (s.showing b lines).face? =
      some ⟨s.source, s.options.navigation, binding.view, lines⟩ := by
  unfold Session.face?
  rw [Session.binding?_showing hb hbinding]
  rfl

/-- A session that shows something is bound. -/
theorem World.bound_of_face? {face : Face} (hface : w.face? id = some face) :
    ∃ s b binding, w.sessions[id]? = some s ∧ s.current = some b ∧
      s.bindings[b]? = some binding ∧
      face = ⟨s.source, s.options.navigation, binding.view, binding.lines⟩ := by
  obtain ⟨s, hs, hshown⟩ := Option.bind_eq_some_iff.1 hface
  obtain ⟨binding, hbound, rfl⟩ := Option.map_eq_some_iff.1 hshown
  obtain ⟨b, hb, hbinding⟩ := Session.binding?_eq_some_iff.1 hbound
  exact ⟨s, b, binding, hs, hb, hbinding, rfl⟩

/-- No two sessions share a view. -/
theorem World.Mirrors.view_ne (hw : w.Mirrors sync) {id' : SessionId} {face face' : Face}
    (hface : w.face? id = some face) (hface' : w.face? id' = some face') (hid : id' ≠ id) :
    face'.view ≠ face.view := by
  obtain ⟨hold, held, hview, -⟩ := World.holding?_of_face? hface
  obtain ⟨hold', held', hview', -⟩ := World.holding?_of_face? hface'
  intro hsame
  rw [← hview, ← hview'] at hsame
  exact hid (hw.sound.apart held' held hsame)

/-! ## Refreshing -/

/-- One session shows the text that its source has now; the others are as they were. -/
structure World.Syncs (sync : SessionId → String) (id : SessionId) (face : Face) (page : Page)
    (w w' : World Desk C) : Prop where
  hasPage : w'.host.gist.page? face.source = some page
  faces : w'.face? = Function.update w.face? id (some face)
  mirrors : w'.Mirrors (Function.update sync id page.text)

namespace Desk

section

variable {source : SourceId} {navigation : Bool} {view : ViewId} {d d' : Desk}

/-- What is rendered is the text of the source. -/
theorem renders_ok {lines : List ViewLine} (hparsed : d.gist.Parsed)
    (renders : terms.Renders source navigation view d (.ok lines) d') :
    ∃ page, d.gist.page? source = some page ∧
      lines = (Document.analyze Document.lenient page.text).root.render navigation ∧
      d'.gist = d.gist.showing view lines := by
  cases renders with
  | @shown tree d₁ _ call shows =>
    obtain ⟨page, hpage, hcurrent⟩ := Option.bind_eq_some_iff.1 call.2.symm
    have htree : page.tree = some tree := by
      unfold Page.currentTree? at hcurrent
      split at hcurrent
      · cases hcurrent
      · exact hcurrent
    have hsame : tree = (Document.analyze Document.lenient page.text).root := by
      have hroot : page.tree = _ := hparsed source page hpage
      rw [htree] at hroot
      exact Option.some.inj hroot
    refine ⟨page, hpage, by rw [hsame], ?_⟩
    rw [shows.2, call.1]

/-- Only a source that is closed, or not there, cannot be rendered. -/
theorem renders_error {e : Failure}
    (renders : terms.Renders source navigation view d (.error e) d') :
    d'.gist = d.gist ∧ (d.gist.page? source).bind Page.currentTree? = none := by
  cases renders with
  | noTree call => exact ⟨call.1, call.2.symm⟩
  | notShown call fails => cases fails.1

/-- An open source gives a tree. -/
theorem currentTree?_of_open {page : Page} (hparsed : d.gist.Parsed)
    (hpage : d.gist.page? source = some page) (hopen : page.closed = false) :
    (d.gist.page? source).bind Page.currentTree? ≠ none := by
  have hroot : page.tree = _ := hparsed source page hpage
  rw [hpage, Option.bind_some]
  unfold Page.currentTree?
  rw [hopen, hroot]
  simp

/-- A pane that is filled shows the rows of the lines. -/
theorem lines_showing {g : Gist} {pane : Pane} (hpane : g.panes[view]? = some pane)
    (lines : List ViewLine) :
    ((g.showing view lines).panes[view]?).map Pane.lines = some (paneRows lines) := by
  unfold Gist.showing
  rw [List.getElem?_modify_eq, hpane]
  rfl

end

end Desk

/-- A session whose source is open is refreshed without fail. -/
theorem Session.Refreshes.syncs {b : Nat} {binding : Binding} {r : Except Failure Unit}
    {page : Page} (hw : w.Mirrors sync) (hs : w.sessions[id]? = some s) (hb : s.current = some b)
    (hbinding : s.bindings[b]? = some binding) (hpage : w.host.gist.page? s.source = some page)
    (hopen : page.closed = false) (hreliable : w'.host.Reliable)
    (does : Session.Refreshes Desk.terms w id s b binding r w') :
    r = .ok () ∧ ∃ lines, w.Syncs sync id
      ⟨s.source, s.options.navigation, binding.view, lines⟩ page w' := by
  have hface : w.face? id = some ⟨s.source, s.options.navigation, binding.view, binding.lines⟩ :=
    (World.seen_eq hs).trans (Session.face?_of_bound hb hbinding)
  have hsound : (w'.estate fun d => d.gist.books).Sound := by
    rw [does.estate_eq Desk.terms_keep_books hs hb hbinding]
    exact hw.sound
  cases does with
  | unrendered renders =>
    exact absurd (Desk.renders_error renders).2
      (Desk.currentTree?_of_open hw.reflects.parsed hpage hopen)
  | unnamed renders name =>
    obtain ⟨page', hpage', -, hgist⟩ := Desk.renders_ok hw.reflects.parsed renders
    have hnone := name.2
    rw [hgist] at hnone
    have hthere : (w.host.gist.page? s.source).isSome = false := hnone.symm
    rw [hpage'] at hthere
    cases hthere
  | @done lines title message d₁ d₂ d₃ c renders name logs =>
    obtain ⟨page', hpage', hlines, hgist⟩ := Desk.renders_ok hw.reflects.parsed renders
    rw [hpage] at hpage'
    cases hpage'
    have hgist₃ : d₃.gist = w.host.gist.showing binding.view lines := by
      rw [show d₃.gist = d₂.gist from logs, name.1, hgist]
    have hfaces : (w.modifySession id (Session.showing b lines)).face? =
        Function.update w.face? id
          (some ⟨s.source, s.options.navigation, binding.view, lines⟩) := by
      refine (World.seen_modifySession hs _).trans ?_
      rw [Session.face?_showing hb hbinding]
      rfl
    obtain ⟨pane, hpane, -⟩ := Option.map_eq_some_iff.1 (hw.reflects.shows hface).pane
    -- The view of the session is filled while nobody shows it, and then shown again.
    have hothers : (w.host.gist.showing binding.view lines).Reflects
        (Function.update w.face? id none) sync := by
      refine (hw.reflects.without id).showing binding.view lines ?_
      intro id' face' hface'
      by_cases hid : id' = id
      · rw [hid, Function.update_self] at hface'
        cases hface'
      · rw [Function.update_of_ne hid] at hface'
        exact hw.view_ne hface hface' hid
    have hshown : (w.host.gist.showing binding.view lines).Reflects
        (Function.update (Function.update w.face? id none) id
          (some ⟨s.source, s.options.navigation, binding.view, lines⟩))
        (Function.update sync id page.text) :=
      hothers.including hpage hlines (Desk.lines_showing hpane lines)
    rw [Function.update_idem] at hshown
    refine ⟨rfl, lines, ?_, hfaces, hreliable, hsound, ?_⟩
    · show d₃.gist.page? s.source = some page
      rw [hgist₃]
      exact hpage
    · show d₃.gist.Reflects (w.modifySession id (Session.showing b lines)).face? _
      rw [hgist₃, hfaces]
      exact hshown

/-! ## Ending -/

namespace Desk

/-- Ending subscriptions changes no view. -/
theorem unsubscribes_reflects {subs : List SubscriptionId} {d d' : Desk}
    {faces : SessionId → Option Face} (ends : terms.Unsubscribes subs d d')
    (hd : d.gist.Reflects faces sync) : d'.gist.Reflects faces sync := by
  induction ends with
  | nil d => exact hd
  | cons first _ ih =>
    refine ih ?_
    obtain ⟨-, ⟨s, hs, hended, hgist⟩ | ⟨-, hgist⟩⟩ := first
    · rw [hgist]
      exact hd.unsubscribed hs hended
    · rw [hgist]
      exact hd

end Desk

/-- An active session ends without fail, and only its own view goes. -/
theorem Session.Finishes.mirrors {b : Nat} {binding : Binding} {reason : EndReason}
    {r : Except Failure Unit} (hw : w.Mirrors sync) (hs : w.sessions[id]? = some s)
    (hb : s.current = some b) (hbinding : s.bindings[b]? = some binding)
    (hreliable : w'.host.Reliable)
    (does : Session.Finishes Desk.terms w id s b binding reason r w') :
    r = .ok () ∧ w'.Mirrors sync ∧ w'.face? = Function.update w.face? id none := by
  have hface : w.face? id = some ⟨s.source, s.options.navigation, binding.view, binding.lines⟩ :=
    (World.seen_eq hs).trans (Session.face?_of_bound hb hbinding)
  have hsound : (w'.estate fun d => d.gist.books).Sound :=
    hw.sound.shrinks (does.shrinks Desk.terms_keep_books hw.sound hs hb hbinding)
  cases does with
  | unnamed name =>
    obtain ⟨page, hpage⟩ := hw.reflects.present hface
    have hthere : (w.host.gist.page? s.source).isSome = false := name.2.symm
    rw [hpage] at hthere
    cases hthere
  | interrupted name ends => exact (Desk.terms_keep_books.not_unsubscribesUntil ends).elim
  | viewLeft name ends view => cases view.1
  | @done title message d₁ d₂ d₃ d₄ c name ends view logs =>
    have hfaces : (w.modifySession id fun s => (s.keeping b []).ended reason).face? =
        Function.update w.face? id none := World.seen_modifySession hs _
    have hreflects : d₂.gist.Reflects w.face? sync := by
      refine Desk.unsubscribes_reflects ends ?_
      rw [name.1]
      exact hw.reflects
    refine ⟨rfl, ⟨hreliable, hsound, ?_⟩, hfaces⟩
    show d₄.gist.Reflects (w.modifySession id fun s => (s.keeping b []).ended reason).face? sync
    rw [hfaces, show d₄.gist = d₃.gist from logs, view.2]
    exact (hreflects.closed binding.view).without id

/-! ## Enabling -/

/-- What a failed enabling leaves behind is a pane that nobody shows. -/
theorem Session.Enables.mirrors_of_error {e : Failure} (hw : w.Mirrors sync)
    (hreliable : w'.host.Reliable)
    (does : Session.Enables Desk.terms w id s (.error e) w') :
    w'.Mirrors sync ∧ w'.face? = w.face? := by
  have hsound : (w'.estate fun d => d.gist.books).Sound := by
    rw [does.estate_eq Desk.terms_keep_books]
    exact hw.sound
  cases does with
  | unnamed name => exact ⟨hw.beside hreliable name.1, rfl⟩
  | noView name view => cases view.1
  | @undone title view e made d₁ d₂ d₃ d₄ d₅ c name makes binds tidies clears =>
    refine ⟨⟨hreliable, hsound, ?_⟩, rfl⟩
    have hopened : d₂.gist.Reflects w.face? sync := by
      rw [makes.2, name.1]
      exact hw.reflects.opened _
    have hbound : d₃.gist.Reflects w.face? sync := by
      cases binds with
      | unrendered renders =>
        rw [(Desk.renders_error renders).1]
        exact hopened
      | noCommit renders fails => cases fails.1
      | noDestroy renders first fails => cases fails.1
    have htidied : d₄.gist.Reflects w.face? sync := by
      cases tidies with
      | done all => exact Desk.unsubscribes_reflects all hbound
      | failed some logs => exact (Desk.terms_keep_books.not_unsubscribesUntil some).elim
    show d₅.gist.Reflects w.face? sync
    cases clears with
    | done call =>
      rw [call.2]
      exact htidied.closed view
    | failed call logs => cases call.1

/-- A binding shows the text of the source in the pane made for it. -/
theorem Desk.binds_ok {source : SourceId} {navigation : Bool} {binding : Binding} {d d' : Desk}
    {faces : SessionId → Option Face} {title : String} (hd : d.gist.Reflects faces sync)
    {d₁ : Desk} (hopened : d₁.gist = d.gist.opened title)
    (binds : terms.Binds source navigation id d.gist.panes.length d₁ (.ok binding) d') :
    ∃ page, d'.gist.page? source = some page ∧ binding.view = d.gist.panes.length ∧
      d'.gist.Reflects
        (Function.update faces id (some ⟨source, navigation, binding.view, binding.lines⟩))
        (Function.update sync id page.text) := by
  have hbefore : d₁.gist.Reflects faces sync := by
    rw [hopened]
    exact hd.opened title
  cases binds with
  | @bound lines commit destroy d₂ d₃ _ renders first second =>
    obtain ⟨page, hpage, hlines, hgist⟩ := renders_ok hbefore.parsed renders
    have hnew : ∀ {id face}, faces id = some face → face.view ≠ d.gist.panes.length := by
      intro id face hface
      obtain ⟨pane, hpane, -⟩ := Option.map_eq_some_iff.1 (hd.shows hface).pane
      exact Nat.ne_of_lt (List.getElem?_eq_some_iff.1 hpane).1
    have hlast : d₁.gist.panes[d.gist.panes.length]? = some { title := title } := by
      rw [hopened]
      exact List.getElem?_concat_length
    have hfilled : d₂.gist.Reflects faces sync := by
      rw [hgist]
      exact hbefore.showing _ _ hnew
    have hafter : d'.gist.Reflects faces sync := by
      rw [second.2, first.2]
      exact (hfilled.subscribed _ _ _).subscribed _ _ _
    have hpage' : d'.gist.page? source = some page := by
      rw [second.2, Gist.page?_subscribed, first.2, Gist.page?_subscribed, hgist]
      exact hpage
    have hpane : (d'.gist.panes[d.gist.panes.length]?).map Pane.lines =
        some (paneRows lines) := by
      rw [second.2, first.2, hgist]
      exact lines_showing hlast lines
    exact ⟨page, hpage', rfl, hafter.including hpage' hlines hpane⟩

/-- A source that has no session gets one that shows its text. -/
theorem Session.Enables.syncs {source : SourceId} {settings : Settings} {w₁ : World Desk C}
    (hw : w.Mirrors sync) (free : ∀ other, (source, other) ∉ w.registry)
    (hreliable : w₁.host.Reliable)
    (does : Session.Enables Desk.terms (w.withSession (freshSession source settings))
      w.sessions.length (freshSession source settings) (.ok ()) w₁) :
    ∃ face page, w.Syncs sync w.sessions.length face page
      { w₁ with registry := w₁.registry ++ [(source, w.sessions.length)] } := by
  have hsound := hw.sound.moves ((Call.Does.opens free does).moves Desk.terms_keep_books hw.sound)
  have hs : (w.withSession (freshSession source settings)).sessions[w.sessions.length]? =
      some (freshSession source settings) := by
    simp [World.withSession]
  cases does with
  | @done title message view binding d₁ d₂ d₃ d₄ c name makes binds logs =>
    obtain ⟨hview, hopened⟩ := makes
    cases hview
    have hbefore : d₁.gist.Reflects w.face? sync := by
      rw [name.1]
      exact hw.reflects
    obtain ⟨page, hpage, -, hreflects⟩ := Desk.binds_ok hbefore hopened binds
    rw [← show d₄.gist = d₃.gist from logs] at hpage hreflects
    have hfaces : ((w.withSession (freshSession source settings)).modifySession w.sessions.length
        (Session.bound binding)).face? = Function.update w.face? w.sessions.length
          (some ⟨source, settings.resolve.navigation, binding.view, binding.lines⟩) := by
      refine (World.seen_modifySession hs _).trans ?_
      have hunseen : (w.withSession (freshSession source settings)).seen Session.face? = w.face? :=
        World.seen_withSession_same rfl w
      rw [hunseen, show ((freshSession source settings).bound binding).face? = _ from
        congrArg (Option.map _) (Session.binding?_bound binding _)]
      rfl
    refine ⟨⟨source, settings.resolve.navigation, binding.view, binding.lines⟩, page, hpage, hfaces,
      hreliable, hsound, ?_⟩
    show d₄.gist.Reflects ((w.withSession _).modifySession _ _).face? _
    rw [hfaces]
    exact hreflects

/-! ## Steps -/

/-- What a step does to the views, given the source that it commits. -/
inductive World.Follows (sync : SessionId → String) (w : World Desk C) :
    Option SourceId → World Desk C → Prop where
  /-- Nothing new is shown. No view is there for what is committed. -/
  | quiet {committed : Option SourceId} {w' : World Desk C} (mirrors : w'.Mirrors sync)
      (faces : ∀ {id face}, w'.face? id = some face → w.face? id = some face)
      (unseen : ∀ {id face}, w.face? id = some face → committed ≠ some face.source) :
      w.Follows sync committed w'
  | opens {id : SessionId} {face : Face} {page : Page} {w' : World Desk C}
      (idle : w.face? id = none) (syncs : w.Syncs sync id face page w') : w.Follows sync none w'
  | renews {id : SessionId} {face : Face} {lines : List ViewLine} {page : Page}
      {w' : World Desk C} (before : w.face? id = some face)
      (alone : ∀ {id' face'}, w.face? id' = some face' → face'.source = face.source → id' = id)
      (syncs : w.Syncs sync id { face with lines := lines } page w') :
      w.Follows sync (some face.source) w'

namespace World.Follows

/-- A step that commits nothing and shows nothing new. -/
theorem silent (mirrors : w'.Mirrors sync)
    (faces : ∀ {id face}, w'.face? id = some face → w.face? id = some face) :
    w.Follows sync none w' :=
  .quiet mirrors faces (by simp)

/-- Nothing needs to happen to the views. -/
theorem refl (hw : w.Mirrors sync) : w.Follows sync none w := silent hw fun hface => hface

/-- What happens to the views depends only on what sessions showed before it. -/
theorem of_faces {committed : Option SourceId} {w₁ : World Desk C}
    (h : w₁.Follows sync committed w') (hfaces : w₁.face? = w.face?) :
    w.Follows sync committed w' := by
  cases h with
  | quiet mirrors faces unseen =>
    rw [hfaces] at unseen
    refine .quiet mirrors (fun hface => ?_) unseen
    rw [← hfaces]
    exact faces hface
  | opens idle syncs =>
    rw [hfaces] at idle
    exact .opens idle ⟨syncs.hasPage, hfaces ▸ syncs.faces, syncs.mirrors⟩
  | renews before alone syncs =>
    rw [hfaces] at before alone
    exact .renews before alone ⟨syncs.hasPage, hfaces ▸ syncs.faces, syncs.mirrors⟩

end World.Follows

/-- Nothing happened that matters to the views. -/
theorem World.Mirrors.looked (hw : w.Mirrors sync) (looked : w.Looked Desk.terms w') :
    w'.Mirrors sync ∧ w'.face? = w.face? ∧ w'.host.gist = w.host.gist := by
  obtain ⟨d, c, rfl, hreliable, hlooks⟩ := looked
  have hgist := Desk.looksAround_gist hlooks
  exact ⟨hw.beside hreliable hgist, rfl, hgist⟩

/-- Nothing happens to the views while someone only looks around. -/
theorem World.Looked.follows (looked : w.Looked Desk.terms w') (hw : w.Mirrors sync) :
    w.Follows sync none w' := by
  obtain ⟨hw', hfaces, -⟩ := hw.looked looked
  exact .silent hw' fun hface => hfaces ▸ hface

/-- However the action ends, it does to the views what the commit says. -/
def Action.Follows {α : Type} (a : Action Desk C α) (sync : SessionId → String)
    (committed : Option SourceId) (w : World Desk C) : Prop :=
  a.Ensures w (fun _ w' => w.Follows sync committed w') (fun _ w' => w.Follows sync committed w')

/-- An action that follows from a world does so from any other in which sessions show the same. -/
theorem Action.Follows.of_faces {α : Type} {committed : Option SourceId} {a : Action Desk C α}
    {w₁ : World Desk C} (ha : a.Follows sync committed w₁) (hfaces : w₁.face? = w.face?) :
    a.Ensures w₁ (fun _ w' => w.Follows sync committed w')
      (fun _ w' => w.Follows sync committed w') :=
  ha.mono (fun _ _ hfollows => hfollows.of_faces hfaces)
    (fun _ _ hfollows => hfollows.of_faces hfaces)

/-- An action that changes no view goes before. -/
theorem Action.Follows.bind {α β : Type} {committed : Option SourceId} {a : Action Desk C α}
    {f : α → Action Desk C β} {P : α → World Desk C → Prop}
    (ha : a.Ensures w (fun x w₁ => w₁.Mirrors sync ∧ w₁.face? = w.face? ∧ P x w₁)
      (fun _ _ => False))
    (hf : ∀ x w₁, w₁.Mirrors sync → P x w₁ → (f x).Follows sync committed w₁) :
    (a >>= f).Follows sync committed w := by
  refine Action.Ensures.bind ha ?_ (fun _ _ h => h.elim)
  rintro x w₁ ⟨hw₁, hfaces₁, hP⟩
  exact (hf x w₁ hw₁ hP).of_faces hfaces₁

/-- Ending a session that shows something leaves the views of the others. -/
theorem Session.finish_of_face {face : Face} (hw : w.Mirrors sync)
    (hface : w.face? id = some face) (operation : SessionOperation) (reason : EndReason) :
    (finish Desk.host id operation reason).Ensures w
      (fun _ w' => w'.Mirrors sync ∧ w'.face? = Function.update w.face? id none)
      (fun _ _ => False) := by
  obtain ⟨s, b, binding, hs, hb, hbinding, -⟩ := World.bound_of_face? hface
  refine (finish_finishes Desk.host_honours hw.reliable hs hb hbinding operation reason).mono ?_ ?_
  · rintro _ w' ⟨hreliable, hdoes⟩
    exact (hdoes.mirrors hw hs hb hbinding hreliable).2
  · rintro e w' ⟨hreliable, hdoes⟩
    cases (hdoes.mirrors hw hs hb hbinding hreliable).1

/-- Ending a session shows nothing new, whether or not the session is active. -/
theorem Session.finish_mirrors (hw : w.Mirrors sync) (id : SessionId)
    (operation : SessionOperation) (reason : EndReason) :
    (finish Desk.host id operation reason).Ensures w
      (fun _ w' => w'.Mirrors sync ∧
        ∀ {id' face}, w'.face? id' = some face → w.face? id' = some face)
      (fun _ w' => w'.Mirrors sync ∧
        ∀ {id' face}, w'.face? id' = some face → w.face? id' = some face) := by
  cases hface : w.face? id with
  | some face =>
    refine (finish_of_face hw hface operation reason).mono ?_ (fun _ _ h => h.elim)
    rintro _ w' ⟨hw', hfaces⟩
    refine ⟨hw', ?_⟩
    intro id' face' hface'
    rw [hfaces, Function.update_apply] at hface'
    split at hface'
    · cases hface'
    · exact hface'
  | none =>
    cases hs : w.sessions[id]? with
    | none =>
      unfold finish
      rw [Action.ensures_bind, activeBinding_of_none hs]
      exact ⟨hw, fun hface' => hface'⟩
    | some s =>
      have hnone : s.binding? = none :=
        Option.map_eq_none_iff.1 ((World.seen_eq hs).symm.trans hface)
      rw [finish_of_inactive hs hnone]
      exact ⟨hw, fun hface' => hface'⟩

/-- Ending a session commits nothing. -/
theorem Session.finish_follows (hw : w.Mirrors sync) (id : SessionId)
    (operation : SessionOperation) (reason : EndReason) :
    (finish Desk.host id operation reason).Follows sync none w := by
  refine (finish_mirrors hw id operation reason).mono ?_ ?_
  · rintro _ w' ⟨hw', hfaces⟩
    exact .silent hw' hfaces
  · rintro _ w' ⟨hw', hfaces⟩
    exact .silent hw' hfaces

/-- Disposing of the registry commits nothing. -/
theorem Registry.dispose_follows (hw : w.Mirrors sync) :
    (Registry.dispose Desk.host).Follows sync none w := by
  unfold Registry.dispose Action.Follows
  rw [Action.ensures_bind, Action.ensures_get]
  -- What is shown only gets less from one session to the next.
  refine (Action.ensures_forM (w.registry.map (·.2)) (I := fun w' => w'.Mirrors sync ∧
    ∀ {id face}, w'.face? id = some face → w.face? id = some face) ?_ w
    ⟨hw, fun hface => hface⟩).mono ?_ ?_
  · rintro id - w₁ ⟨hw₁, hfaces₁⟩
    refine (Session.finish_mirrors hw₁ id .disable .disabled).mono ?_ ?_
    · rintro _ w₂ ⟨hw₂, hfaces₂⟩
      exact ⟨hw₂, fun hface => hfaces₁ (hfaces₂ hface)⟩
    · rintro e w₂ ⟨hw₂, hfaces₂⟩
      exact ⟨hw₂, fun hface => hfaces₁ (hfaces₂ hface)⟩
  · rintro _ w' ⟨hw', hfaces⟩
    exact .silent hw' hfaces
  · rintro e w' ⟨hw', hfaces⟩
    exact .silent hw' hfaces

/-- Enabling a view commits nothing. -/
theorem Registry.enable_follows (hw : w.Mirrors sync) (source : SourceId) (settings : Settings) :
    (Registry.enable Desk.host source settings).Follows sync none w := by
  cases hfor : w.sessionFor? source with
  | some existing =>
    refine (enable_of_taken Desk.host_honours hw.reliable hfor).mono (fun _ _ h => h.elim) ?_
    intro e w' hlooked
    exact hlooked.follows hw
  | none =>
    have hfree := World.sessionFor?_eq_none_iff.1 hfor
    refine (enable_of_free Desk.host_honours hw.reliable hfree).mono ?_ ?_
    · rintro id _ ⟨-, hreliable, w₁, rfl, hdoes⟩
      obtain ⟨face, page, hsyncs⟩ := hdoes.syncs hw hfree (by exact hreliable)
      exact .opens (w.seen_length Session.face?) hsyncs
    · rintro e w' ⟨hreliable, hdoes⟩
      have hunseen : (w.withSession (freshSession source settings)).face? = w.face? :=
        World.seen_withSession_same rfl w
      have hfresh : (w.withSession (freshSession source settings)).Mirrors sync := by
        refine ⟨hw.reliable, ?_, hunseen ▸ hw.reflects⟩
        rw [World.estate_eq (w.holding?_freshSession source settings) rfl rfl]
        exact hw.sound
      obtain ⟨hw', hfaces⟩ := hdoes.mirrors_of_error hfresh hreliable
      exact .silent hw' fun hface => hunseen ▸ hfaces ▸ hface

end

end TreeInspector
