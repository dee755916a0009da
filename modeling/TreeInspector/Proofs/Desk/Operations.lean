import TreeInspector.Proofs.Desk.Sync

/-!
# The operations of a desk and the views

Each operation of a desk is followed to its end, well or not. Most of what a desk does is idle: it
logs, notes and watches, and the views do not mind. A text that is edited is not shown until it is
committed. A commit is announced to the one session that the source has, if it has one, and that
session is refreshed; the end of a source is announced in the same way, and ends the session.
-/

set_option autoImplicit false

namespace TreeInspector

section

variable {C : Type} {w w' : World Desk C} {sync : SessionId → String} {source : SourceId}
  {page : Page}

/-! ## Who listens -/

namespace World.Mirrors

/-- A source has one session at most. -/
theorem id_eq (hw : w.Mirrors sync) {id id' : SessionId} {face face' : Face}
    (hface : w.face? id = some face) (hface' : w.face? id' = some face')
    (hsource : face'.source = face.source) : id' = id := by
  obtain ⟨hold, held, -, hheld⟩ := World.holding?_of_face? hface
  obtain ⟨hold', held', -, hheld'⟩ := World.holding?_of_face? hface'
  exact hw.sound.lists.id_eq ⟨hold, held, hheld⟩ ⟨hold', held', hheld'.trans hsource⟩

/-- Who listens to a source is a session that shows it. -/
theorem serves_iff (hw : w.Mirrors sync) {event : Notice} {sub : SubscriptionId} :
    w.host.gist.Serves source event sub ↔
      ∃ id face, w.face? id = some face ∧ face.source = source ∧
        Books.serving w.host.gist.subscriptions sub = some ⟨source, event, .session id event⟩ := by
  refine ⟨?_, ?_⟩
  · rintro ⟨callback, hserving⟩
    obtain ⟨id, hold, held, -, hwho⟩ := hw.sound.subscriber_eq hserving
    obtain ⟨face, hface, -, hsource⟩ := World.face?_of_holding? held
    simp only [Subscriber.mk.injEq, true_and] at hwho
    refine ⟨id, face, hface, hsource.trans hwho.1.symm, ?_⟩
    rw [hserving, hwho.2]
  · rintro ⟨id, face, -, -, hserving⟩
    exact ⟨_, hserving⟩

/-- The listener to a source that is shown is the session that shows it. -/
theorem listeners_eq (hw : w.Mirrors sync) {id : SessionId} {face : Face} {f : SourceGist}
    (hface : w.face? id = some face) (hf : w.host.gist.source? face.source = some f)
    (event : Notice) :
    ∃ sub, f.listeners event = [sub] ∧
      Books.serving w.host.gist.subscriptions sub =
        some ⟨face.source, event, .session id event⟩ := by
  obtain ⟨hold, held, -, hsource⟩ := World.holding?_of_face? hface
  obtain ⟨sub, hsub, hunique⟩ := hw.sound.existsUnique_subscription held event
  obtain ⟨hnodup, hmem⟩ := hw.reflects.listening face.source f event hf
  -- The list has no duplicates, so it is enough to know its members.
  have hone : ∀ other, other ∈ f.listeners event ↔ other ∈ [sub] := by
    intro other
    rw [hmem, hw.serves_iff, List.mem_singleton]
    constructor
    · rintro ⟨id', face', hface', hsource', hserving⟩
      have hid := hw.id_eq hface hface' hsource'
      subst hid
      exact hunique other (by rw [hsource]; exact hserving)
    · rintro rfl
      exact ⟨id, face, hface, rfl, hsource ▸ hsub⟩
  have hperm : (f.listeners event).Perm [sub] :=
    (List.perm_ext_iff_of_nodup hnodup (List.nodup_singleton sub)).2 hone
  exact ⟨sub, List.perm_singleton.1 hperm, hsource ▸ hsub⟩

/-- Nobody listens to a source that is not shown. -/
theorem unheard (hw : w.Mirrors sync)
    (hunseen : ∀ {id face}, w.face? id = some face → face.source ≠ source) (event : Notice)
    (sub : SubscriptionId) : ¬ w.host.gist.Serves source event sub := by
  intro hserves
  obtain ⟨id, face, hface, hsource, -⟩ := hw.serves_iff.1 hserves
  exact hunseen hface hsource

end World.Mirrors

/-! ## Idle actions -/

/-- The action ends well, and nothing happens that matters to the views. -/
def Action.Idles {α : Type} (a : Action Desk C α) (w : World Desk C) : Prop :=
  a.Ensures w (fun _ w' => w.Looked Desk.terms w') (fun _ _ => False)

namespace Action.Idles

variable {α β : Type}

/-- Two actions idle if the second one does after the first. -/
theorem bind {a : Action Desk C α} {f : α → Action Desk C β} (ha : a.Idles w)
    (hf : ∀ x w', w.Looked Desk.terms w' → (f x).Idles w') : (a >>= f).Idles w := by
  refine Action.Ensures.bind ha ?_ (fun _ _ h => h)
  intro x w₁ hlooked₁
  refine (hf x w₁ hlooked₁).mono ?_ (fun _ _ h => h)
  intro _ w₂ hlooked₂
  exact hlooked₁.trans hlooked₂

/-- An action for each item of a list idles if each one does. -/
theorem forM {γ : Type} {f : γ → Action Desk C Unit} (xs : List γ) (hreliable : w.host.Reliable)
    (hf : ∀ x w', w.Looked Desk.terms w' → (f x).Idles w') :
    (xs.forM f : Action Desk C Unit).Idles w := by
  induction xs generalizing w with
  | nil => exact World.Looked.refl hreliable
  | cons x xs ih =>
    refine bind (hf x w (.refl hreliable)) ?_
    intro _ w₁ hlooked₁
    exact ih hlooked₁.fit fun y w₂ hlooked₂ => hf y w₂ (hlooked₁.trans hlooked₂)

/-- A change of the desk that matters to nobody idles. -/
theorem modifyHost {change : Desk → Desk} (hreliable : (change w.host).Reliable)
    (hgist : (change w.host).gist = w.host.gist) :
    (Action.modifyHost change : Action Desk C Unit).Idles w :=
  ⟨change w.host, w.client, rfl, hreliable,
    .log (show Desk.terms.log "" w.host (change w.host) from hgist) (.done _)⟩

/-- A change of a source that does not show in its gist idles. -/
theorem modifySource {change : SourceFile → SourceFile} (hreliable : w.host.Reliable)
    (hchange : ∀ s, (change s).gist = s.gist) (source : SourceId) :
    (Desk.modifySource source change : Action Desk C Unit).Idles w :=
  modifyHost hreliable (Desk.gist_modifySource_same hchange source w.host)

/-- Logging idles. -/
theorem log (hreliable : w.host.Reliable) (message : String) :
    (Desk.log message : Action Desk C Unit).Idles w := by
  refine Desk.log_ensures hreliable message fun messages => ?_
  exact ⟨_, w.client, rfl, hreliable,
    .log (show Desk.terms.log "" w.host { w.host with messages := messages } from rfl) (.done _)⟩

/-- Taking a note idles. -/
theorem note (hreliable : w.host.Reliable) (happening : String) :
    (Desk.note happening : Action Desk C Unit).Idles w :=
  modifyHost hreliable rfl

/-- Stopping a watcher idles. -/
theorem stopWatcher (hreliable : w.host.Reliable) (id : WatcherId) :
    (Desk.stopWatcher id : Action Desk C Unit).Idles w := by
  refine bind (a := Action.host) (World.Looked.refl hreliable) ?_
  intro d w₁ hlooked₁
  cases d.watchers[id]? with
  | none => exact World.Looked.refl hlooked₁.fit
  | some watcher =>
    refine bind (modifyHost hlooked₁.fit rfl) ?_
    intro _ w₂ hlooked₂
    exact note hlooked₂.fit _

/-- What happens after an idle action happens to the same views. -/
theorem andThen {committed : Option SourceId} {a : Action Desk C α} {f : α → Action Desk C β}
    (ha : a.Idles w) (hw : w.Mirrors sync)
    (hf : ∀ x w₁, w₁.Mirrors sync → w₁.host.gist = w.host.gist → (f x).Follows sync committed w₁) :
    (a >>= f).Follows sync committed w := by
  have hstill : a.Ensures w (fun _ w₁ => w₁.Mirrors sync ∧ w₁.face? = w.face? ∧
      w₁.host.gist = w.host.gist) (fun _ _ => False) :=
    Action.Ensures.mono ha (fun _ _ hlooked => hw.looked hlooked) (fun _ _ h => h)
  exact Action.Follows.bind hstill hf

/-- An action that idles does to the views what happens without a commit: nothing. -/
theorem follows {a : Action Desk C α} (ha : a.Idles w) (hw : w.Mirrors sync) :
    a.Follows sync none w :=
  Action.Ensures.mono ha (fun _ _ hlooked => hlooked.follows hw) (fun _ _ h => h.elim)

end Action.Idles

/-! ## Sources on the desk -/

namespace Desk

/-- A page is that of a source. -/
theorem source_of_page {d : Desk} (hpage : d.gist.page? source = some page) :
    ∃ s, d.sources[source]? = some s ∧ s.gist.toPage = page := by
  obtain ⟨f, hf, rfl⟩ := Option.map_eq_some_iff.1 hpage
  obtain ⟨s, hs, rfl⟩ := Option.map_eq_some_iff.1 hf
  exact ⟨s, hs, rfl⟩

/-- A source has a page. -/
theorem page_of_source {d : Desk} {s : SourceFile} (hs : d.sources[source]? = some s) :
    d.gist.page? source = some s.gist.toPage := by
  unfold Gist.page? gist
  simp only [hs, Option.map_some]

/-- A source that is there stays there as long as nothing happens. -/
theorem page_of_looked (hpage : w.host.gist.page? source = some page)
    (looked : w.Looked terms w') : w'.host.gist.page? source = some page := by
  obtain ⟨d, c, rfl, -, hlooks⟩ := looked
  rw [World.beside_host, looksAround_gist hlooks]
  exact hpage

/-- A source that has a page is found. -/
theorem findSource_of_page (hpage : w.host.gist.page? source = some page)
    {Q : SourceFile → World Desk C → Prop} {E : Failure → World Desk C → Prop}
    (hQ : ∀ s, w.host.sources[source]? = some s → s.gist.toPage = page → Q s w) :
    (findSource source).Ensures w Q E := by
  obtain ⟨s, hs, hsame⟩ := source_of_page hpage
  exact (findSource_ensures hs).2 (hQ s hs hsame)

/-- Replacing the watcher of a source idles. -/
theorem replaceWatcher_idles (hreliable : w.host.Reliable)
    (hpage : w.host.gist.page? source = some page) (watcher : Option WatcherId) :
    (replaceWatcher source watcher : Action Desk C Unit).Idles w := by
  have hreplaced : ∀ w', w.Looked terms w' →
      (modifySource source ({ · with watcher := watcher }) : Action Desk C Unit).Idles w' :=
    fun w' hlooked => .modifySource hlooked.fit (by exact fun _ => rfl) source
  refine Action.Idles.bind (findSource_of_page hpage fun _ _ _ => .refl hreliable) ?_
  intro s w₁ hlooked₁
  cases s.watcher with
  | none => exact hreplaced w₁ hlooked₁
  | some old =>
    refine Action.Idles.bind (.stopWatcher hlooked₁.fit old) ?_
    intro _ w₂ hlooked₂
    exact hreplaced w₂ (hlooked₁.trans hlooked₂)

/-- Reporting the faults of a source idles. -/
theorem reportFaults_idles (hreliable : w.host.Reliable)
    (hpage : w.host.gist.page? source = some page) :
    (reportFaults source : Action Desk C Unit).Idles w := by
  refine Action.Idles.bind (findSource_of_page hpage fun _ _ _ => .refl hreliable) ?_
  intro s w₁ hlooked₁
  exact .forM _ hlooked₁.fit fun text w₂ hlooked₂ => .log hlooked₂.fit _

/-- A path that can be watched is watched, and nothing else happens. -/
theorem watchSource_ensures (hreliable : w.host.Reliable)
    (hpage : w.host.gist.page? source = some page) :
    (watchSource source).Ensures w
      (fun _ w' => (w.host.disk.checkWatch (w.host.disk.resolve page.path)).isOk = true ∧
        w.Looked terms w')
      (fun _ w' => (w.host.disk.checkWatch (w.host.disk.resolve page.path)).isOk = false ∧
        w' = w) := by
  unfold watchSource
  simp only [Action.ensures_bind, Action.ensures_host]
  refine findSource_of_page hpage fun s hs hsame => ?_
  have hpath : s.path = page.path := congrArg Page.path hsame
  rw [hpath, ofExcept_ensures]
  cases w.host.disk.checkWatch (w.host.disk.resolve page.path) with
  | error e => exact ⟨rfl, rfl⟩
  | ok _ =>
    have hwatched : Action.Idles (do
        Action.modifyHost fun d => { d with
          watchers := d.watchers ++ [{ path := w.host.disk.resolve page.path, source }] }
        note ("watch " ++ (w.host.disk.resolve page.path).text)
        replaceWatcher source (some w.host.watchers.length) : Action Desk C Unit) w := by
      refine Action.Idles.bind (.modifyHost hreliable rfl) ?_
      intro _ w₁ hlooked₁
      refine Action.Idles.bind (.note hlooked₁.fit _) ?_
      intro _ w₂ hlooked₂
      have hlooked := hlooked₁.trans hlooked₂
      exact replaceWatcher_idles hlooked.fit (page_of_looked hpage hlooked) _
    exact hwatched.mono (fun _ _ hlooked => ⟨rfl, hlooked⟩) (fun _ _ h => h.elim)

end Desk

/-! ## Announcements -/

namespace Desk

/-- Callbacks of sessions reach them. -/
def Relays (deliver : Callback → Action Desk C Unit) : Prop :=
  ∀ id event, deliver (.session id event) = Session.notify host id event

variable {deliver : Callback → Action Desk C Unit}

/-- What is announced reaches the session that shows the source, and nobody else. -/
theorem announce_of_face (hrelays : Relays deliver) (hw : w.Mirrors sync) {id : SessionId}
    {face : Face} (hface : w.face? id = some face) {event : Notice}
    {Q : Unit → World Desk C → Prop} {E : Failure → World Desk C → Prop}
    (hnotified : (Session.notify host id event).Ensures w Q E) :
    (announce deliver face.source event).Ensures w Q E := by
  obtain ⟨page, hpage⟩ := hw.reflects.present hface
  obtain ⟨s, hs, -⟩ := source_of_page hpage
  have hf : w.host.gist.source? face.source = some s.gist := by
    unfold gist
    simp only [hs, Option.map_some]
  obtain ⟨sub, hlisteners, hserving⟩ := hw.listeners_eq hface hf event
  obtain ⟨subscription, hsub, hcalled⟩ := Option.bind_eq_some_iff.1 hserving
  have hcallback : subscription.callback = .session id event := by
    split at hcalled
    · cases hcalled
    · simp only [Option.some.injEq, Subscriber.mk.injEq] at hcalled
      exact hcalled.2.2
  have hsub' : w.host.subscriptions[sub]? = some subscription := hsub
  unfold announce
  rw [Action.ensures_bind, findSource_ensures hs, show s.listeners event = [sub] from hlisteners]
  refine Action.Ensures.bind (P := Q) (D := E) ?_ (fun _ _ h => h) (fun _ _ h => h)
  rw [Action.ensures_bind, Action.ensures_host]
  simp only [hsub', hcallback, hrelays id event]
  exact hnotified

/-- Nobody is called of an event of a source that nobody views. -/
theorem announce_of_unseen (hw : w.Mirrors sync) (hpage : w.host.gist.page? source = some page)
    (hunseen : ∀ {id face}, w.face? id = some face → face.source ≠ source) {event : Notice}
    {Q : Unit → World Desk C → Prop} {E : Failure → World Desk C → Prop} (hQ : Q () w) :
    (announce deliver source event).Ensures w Q E := by
  obtain ⟨s, hs, -⟩ := source_of_page hpage
  have hf : w.host.gist.source? source = some s.gist := by
    unfold gist
    simp only [hs, Option.map_some]
  have hnone : s.listeners event = [] := by
    refine List.eq_nil_iff_forall_not_mem.2 fun sub hsub => ?_
    exact hw.unheard hunseen event sub (((hw.reflects.listening source _ event hf).2 sub).1 hsub)
  unfold announce
  rw [Action.ensures_bind, findSource_ensures hs, hnone]
  exact hQ

/-- A commit refreshes the session that shows the source. -/
theorem announce_commit_follows (hrelays : Relays deliver) (hw : w.Mirrors sync)
    (hpage : w.host.gist.page? source = some page) (hopen : page.closed = false) :
    (announce deliver source .commit).Follows sync (some source) w := by
  by_cases hshown : ∃ id face, w.face? id = some face ∧ face.source = source
  · obtain ⟨id, face, hface, rfl⟩ := hshown
    obtain ⟨s, b, binding, hs, hb, hbinding, rfl⟩ := World.bound_of_face? hface
    have hbound := Session.binding?_eq_some_iff.2 ⟨b, hb, hbinding⟩
    refine announce_of_face hrelays hw hface ?_
    refine (Session.notify_of_active hs hbound .commit).2 ?_
    refine (Session.refresh_refreshes host_honours hw.reliable hs hb hbinding).mono ?_ ?_
    · rintro _ w' ⟨hreliable, hdoes⟩
      obtain ⟨-, lines, hsyncs⟩ := hdoes.syncs hw hs hb hbinding hpage hopen hreliable
      exact .renews hface (fun hface' hsource => hw.id_eq hface hface' hsource) hsyncs
    · rintro e w' ⟨hreliable, hdoes⟩
      cases (hdoes.syncs hw hs hb hbinding hpage hopen hreliable).1
  · have hunseen : ∀ {id face}, w.face? id = some face → face.source ≠ source :=
      fun hface hsource => hshown ⟨_, _, hface, hsource⟩
    refine announce_of_unseen hw hpage hunseen ?_
    refine .quiet hw (fun hface => hface) fun hface hcommitted => ?_
    exact hunseen hface (Option.some.inj hcommitted).symm

/-- After its end has been announced, nobody shows a source. -/
theorem announce_destroy_mirrors (hrelays : Relays deliver) (hw : w.Mirrors sync)
    (hpage : w.host.gist.page? source = some page) :
    (announce deliver source .destroy).Ensures w
      (fun _ w' => w'.Mirrors sync ∧ ∀ {id face}, w'.face? id = some face →
        w.face? id = some face ∧ face.source ≠ source)
      (fun _ _ => False) := by
  by_cases hshown : ∃ id face, w.face? id = some face ∧ face.source = source
  · obtain ⟨id, face, hface, rfl⟩ := hshown
    obtain ⟨s, b, binding, hs, hb, hbinding, -⟩ := World.bound_of_face? hface
    have hbound := Session.binding?_eq_some_iff.2 ⟨b, hb, hbinding⟩
    refine announce_of_face hrelays hw hface ?_
    refine (Session.notify_of_active hs hbound .destroy).2 ?_
    refine (Session.finish_of_face hw hface .sourceDestroyed .sourceDestroyed).mono ?_
      (fun _ _ h => h)
    rintro _ w' ⟨hw', hfaces⟩
    refine ⟨hw', ?_⟩
    intro id' face' hface'
    rw [hfaces, Function.update_apply] at hface'
    split at hface'
    · cases hface'
    · next hid => exact ⟨hface', fun hsource => hid (hw.id_eq hface hface' hsource)⟩
  · have hunseen : ∀ {id face}, w.face? id = some face → face.source ≠ source :=
      fun hface hsource => hshown ⟨_, _, hface, hsource⟩
    refine announce_of_unseen hw hpage hunseen ?_
    exact ⟨hw, fun hface => ⟨hface, hunseen hface⟩⟩

/-! ## Texts -/

/-- A page may change as long as its tree is the one of its text. -/
theorem modifySource_mirrors (hw : w.Mirrors sync) {change : SourceFile → SourceFile}
    {change' : Page → Page} (hgist : ∀ s, (change s).gist = s.gist.paged change')
    (hparsed : ∀ p : Page, p.Parsed → (change' p).Parsed)
    (hpage : w.host.gist.page? source = some page) :
    (modifySource source change).Ensures w
      (fun _ w' => w'.Mirrors sync ∧ w'.face? = w.face? ∧ w'.host.disk = w.host.disk ∧
        w'.host.gist.page? source = some (change' page))
      (fun _ _ => False) := by
  have hchanged := gist_modifySource hgist source w.host
  refine ⟨?_, rfl, rfl, ?_⟩
  · refine hw.aside (c := w.client) hw.reliable ?_ ?_
    · rw [hchanged]
      rfl
    · rw [hchanged]
      exact hw.reflects.paged hparsed source
  · rw [hchanged, Gist.page?_paged, Function.update_self, hpage, Option.map_some]

/-- Taking up a text changes the page of the source, and what sessions show stays. -/
theorem update_mirrors (hw : w.Mirrors sync) (hpage : w.host.gist.page? source = some page)
    (text : String) (saved : Bool) :
    (modifySource source (·.update text saved)).Ensures w
      (fun _ w' => w'.Mirrors sync ∧ w'.face? = w.face? ∧ w'.host.disk = w.host.disk ∧
        w'.host.gist.page? source = some (page.retexted text saved))
      (fun _ _ => False) :=
  modifySource_mirrors hw (SourceFile.gist_update text saved) (fun _ _ => rfl) hpage

/-- A text that is taken over is shown once it has been announced. -/
theorem commit_follows (hrelays : Relays deliver) (hw : w.Mirrors sync)
    (hpage : w.host.gist.page? source = some page) (hopen : page.closed = false)
    (text message : String) :
    Action.Follows (do
      modifySource source (·.update text true)
      reportFaults source
      log message
      announce deliver source .commit) sync (some source) w := by
  refine .bind (update_mirrors hw hpage text true) ?_
  rintro _ w₁ hw₁ ⟨-, hpage₁⟩
  refine (reportFaults_idles hw₁.reliable hpage₁).andThen hw₁ ?_
  intro _ w₂ hw₂ hgist₂
  refine (Action.Idles.log hw₂.reliable message).andThen hw₂ ?_
  intro _ w₃ hw₃ hgist₃
  have hpage₃ : w₃.host.gist.page? source = some (page.retexted text true) := by
    rw [hgist₃, hgist₂]
    exact hpage₁
  exact announce_commit_follows hrelays hw₃ hpage₃ hopen

/-- A source that is open and whose text the disk takes can be saved. -/
def canSave (source : SourceId) (text : Option String) (d : Desk) : Bool :=
  match d.sources[source]? with
  | some s =>
    !s.closed && (d.disk.writeText (d.disk.resolve s.path) (text.getD s.text)).1.isOk
  | none => false

/-- A source that is closed cannot be saved. -/
theorem canSave_of_closed {d : Desk} {text : Option String}
    (hclosed : ∀ s, d.sources[source]? = some s → s.closed = true) :
    d.canSave source text = false := by
  unfold canSave
  cases hs : d.sources[source]? with
  | none => rfl
  | some s =>
    simp only
    rw [hclosed s hs, Bool.not_true, Bool.false_and]

/-- An open source can be saved iff the disk takes the text. -/
theorem canSave_of_open {d : Desk} {text : Option String} {s : SourceFile}
    (hs : d.sources[source]? = some s) (hopen : s.closed = false) :
    d.canSave source text =
      (d.disk.writeText (d.disk.resolve s.path) (text.getD s.text)).1.isOk := by
  unfold canSave
  rw [hs]
  simp only
  rw [hopen, Bool.not_false, Bool.true_and]

/-- The part of saving that comes after the edit. -/
def store (deliver : Callback → Action Desk C Unit) (source : SourceId) : Action Desk C Unit := do
  let s ← findSource source
  writeFile s.path s.text
  modifySource source (·.update s.text true)
  reportFaults source
  log ("Saved " ++ s.name ++ ".")
  announce deliver source .commit

/-- Storing the text of a source commits the source if the disk takes the text, and nothing
otherwise. -/
theorem store_follows (hrelays : Relays deliver) (hw : w.Mirrors sync)
    (hpage : w.host.gist.page? source = some page) (hopen : page.closed = false)
    {stored : Option SourceId} (hstored : stored =
      if (w.host.disk.writeText (w.host.disk.resolve page.path) page.text).1.isOk then some source
      else none) :
    (store deliver source).Follows sync stored w := by
  unfold store Action.Follows
  rw [Action.ensures_bind]
  refine findSource_of_page hpage fun s hs hsame => ?_
  have hpath : s.path = page.path := congrArg Page.path hsame
  have htext : s.text = page.text := congrArg Page.text hsame
  rw [← hpath, ← htext] at hstored
  have hwritten : ∀ disk, (w.onDisk disk).Mirrors sync := fun disk =>
    hw.aside hw.reliable rfl hw.reflects.onDisk
  rw [Action.ensures_bind, writeFile_ensures, hstored]
  obtain ⟨result, disk⟩ := w.host.disk.writeText (w.host.disk.resolve s.path) s.text
  cases result with
  | error e => exact .silent (hwritten disk) id
  | ok => exact (commit_follows hrelays (hwritten disk) hpage hopen s.text _).of_faces rfl

/-- Saving commits what the disk takes; otherwise no view changes. -/
theorem save_follows (hrelays : Relays deliver) (hw : w.Mirrors sync) (source : SourceId)
    (text : Option String) :
    (save deliver source text).Follows sync
      (if w.host.canSave source text then some source else none) w := by
  unfold save Action.Follows
  rw [Action.ensures_bind]
  refine requireOpen_ensures ?_ ?_
  · intro hclosed e
    rw [canSave_of_closed hclosed, if_neg Bool.false_ne_true]
    exact .refl hw
  · intro s hs hclosed
    have hpage := page_of_source hs
    rw [canSave_of_open hs hclosed]
    cases text with
    | none => exact store_follows hrelays hw hpage hclosed rfl
    | some text =>
      -- The text stays edited in if the disk does not take it.
      refine Action.Follows.bind (update_mirrors hw hpage text false) ?_
      rintro _ w₁ hw₁ ⟨hdisk₁, hpage₁⟩
      exact store_follows hrelays hw₁ hpage₁ hclosed (by rw [hdisk₁]; rfl)

/-- An edit commits nothing. -/
theorem edit_follows (hw : w.Mirrors sync) (source : SourceId) (text : String) :
    (edit source text).Follows sync none w := by
  unfold edit Action.Follows
  rw [Action.ensures_bind]
  refine requireOpen_ensures (fun _ _ => .refl hw) fun s hs _ => ?_
  refine (update_mirrors hw (page_of_source hs) text false).mono ?_ (fun _ _ h => h.elim)
  rintro _ w₁ ⟨hw₁, hfaces₁, -, -⟩
  exact .silent hw₁ fun hface => hfaces₁ ▸ hface

/-! ## The end of a source -/

/-- Marking a source as closed shows on its page, and what sessions show stays. -/
theorem shut_mirrors (hw : w.Mirrors sync) (hpage : w.host.gist.page? source = some page) :
    (shut source).Ensures w
      (fun _ w' => w'.Mirrors sync ∧ w'.face? = w.face? ∧
        w'.host.gist.page? source = some page.shut)
      (fun _ _ => False) := by
  have hshut : ∀ s : SourceFile, ({ s with closed := true } : SourceFile).gist =
      s.gist.paged Page.shut := fun _ => rfl
  unfold shut
  refine (modifySource_mirrors hw hshut (fun _ h => h) hpage).bind ?_ (fun _ _ h => h)
  rintro _ w₁ ⟨hw₁, hfaces₁, -, hpage₁⟩
  have hidle : Action.Idles (do
      replaceWatcher source none
      modifySource source ({ · with selection := none }) : Action Desk C Unit) w₁ := by
    refine Action.Idles.bind (replaceWatcher_idles hw₁.reliable hpage₁ none) ?_
    intro _ w₂ hlooked₂
    exact .modifySource hlooked₂.fit (by exact fun _ => rfl) source
  refine hidle.mono ?_ (fun _ _ h => h)
  intro _ w₂ hlooked₂
  obtain ⟨hw₂, hfaces₂, -⟩ := hw₁.looked hlooked₂
  exact ⟨hw₂, hfaces₂.trans hfaces₁, page_of_looked hpage₁ hlooked₂⟩

/-- There is nobody to forget at a source that is not shown. -/
theorem forgetListeners_mirrors (hw : w.Mirrors sync)
    (hunseen : ∀ {id face}, w.face? id = some face → face.source ≠ source) :
    (forgetListeners source).Ensures w (fun _ w' => w'.Mirrors sync ∧ w'.face? = w.face?)
      (fun _ _ => False) := by
  have hgist := (gist_modifySource SourceFile.gist_forgetting source w.host).trans
    (hw.reflects.listening.forgetting (hw.unheard hunseen))
  exact ⟨hw.beside (c := w.client) hw.reliable hgist, rfl⟩

/-- Closing a source ends its session, and no other view changes. -/
theorem close_follows (hrelays : Relays deliver) (hw : w.Mirrors sync) (source : SourceId) :
    (close deliver source).Follows sync none w := by
  unfold close Action.Follows
  rw [Action.ensures_bind]
  cases hs : w.host.sources[source]? with
  | none =>
    rw [findSource_of_none hs]
    exact .refl hw
  | some s =>
    rw [findSource_ensures hs]
    cases s.closed with
    | true => exact .refl hw
    | false =>
      refine Action.Follows.bind (shut_mirrors hw (page_of_source hs)) ?_
      intro _ w₁ hw₁ hpage₁
      refine (Action.Idles.log hw₁.reliable _).andThen hw₁ ?_
      intro _ w₂ hw₂ hgist₂
      rw [← hgist₂] at hpage₁
      -- The session is gone before the listeners are forgotten, so none is left to forget.
      refine Action.Ensures.bind (announce_destroy_mirrors hrelays hw₂ hpage₁) ?_
        (fun _ _ h => h.elim)
      rintro _ w₃ ⟨hw₃, hfaces₃⟩
      refine (forgetListeners_mirrors hw₃ fun hface => (hfaces₃ hface).2).mono ?_
        (fun _ _ h => h.elim)
      rintro _ w₄ ⟨hw₄, hfaces₄⟩
      exact .silent hw₄ fun hface => (hfaces₃ (hfaces₄ ▸ hface)).1

/-! ## Reports about files -/

/-- The disk has another text for a source than the one last saved. -/
def hasChanged (path saved : String) (disk : Disk) : Bool :=
  match disk.readText (disk.resolve path) with
  | .ok text => text ≠ saved
  | .error _ => false

/-- Reading a file again commits its source if the disk has another text than the one saved. -/
theorem reload_follows (hrelays : Relays deliver) (hw : w.Mirrors sync)
    (hpage : w.host.gist.page? source = some page) (hopen : page.closed = false)
    {taken : Option SourceId} (htaken : taken =
      if hasChanged page.path page.saved w.host.disk then some source else none) :
    (reload deliver source).Follows sync taken w := by
  unfold reload Action.Follows
  rw [Action.ensures_bind]
  refine findSource_of_page hpage fun s hs hsame => ?_
  have hpath : s.path = page.path := congrArg Page.path hsame
  have hsaved : s.saved = page.saved := congrArg Page.saved hsame
  rw [← hpath, ← hsaved] at htaken
  unfold hasChanged at htaken
  rw [Action.ensures_bind, Action.ensures_host]
  cases hread : w.host.disk.readText (w.host.disk.resolve s.path) with
  | error e =>
    simp only [hread, Bool.false_eq_true, if_false] at htaken ⊢
    rw [htaken]
    cases e.isMissingFile with
    | true => exact close_follows hrelays hw source
    | false => exact (Action.Idles.log hw.reliable _).follows hw
  | ok text =>
    simp only [hread, decide_eq_true_eq] at htaken ⊢
    by_cases htext : text = s.saved
    · rw [if_neg (not_not_intro htext)] at htaken
      rw [if_pos htext, htaken]
      exact .refl hw
    · rw [if_pos htext] at htaken
      rw [if_neg htext, htaken]
      exact commit_follows hrelays hw hpage hopen text _

/-- A report about the file of a source makes it take over another text. -/
def takesOver (source : SourceId) (renamed : Bool) (d : Desk) : Bool :=
  match d.sources[source]? with
  | some s =>
    !s.closed && (!renamed || (d.disk.checkWatch (d.disk.resolve s.path)).isOk) &&
      hasChanged s.path s.saved d.disk
  | none => false

/-- A renamed file is watched anew before it is read; one that cannot be watched is given up. -/
theorem rewatch_follows (hrelays : Relays deliver) (hw : w.Mirrors sync)
    (hpage : w.host.gist.page? source = some page) (hopen : page.closed = false) (name : String)
    {taken : Option SourceId} (htaken : taken =
      if (w.host.disk.checkWatch (w.host.disk.resolve page.path)).isOk &&
        hasChanged page.path page.saved w.host.disk then some source else none) :
    Action.Follows (do
      match ← (watchSource source).attempt with
      | .ok _ => reload deliver source
      | .error e =>
        log ("Stopped watching " ++ name ++ ": " ++ e.message)
        close deliver source) sync taken w := by
  -- What the attempt comes to decides about the rest, so it is kept with the views as they were.
  have hattempt : (watchSource source).attempt.Ensures w
      (fun r w₁ => w₁.Mirrors sync ∧ w₁.face? = w.face? ∧ w₁.host.gist = w.host.gist ∧
        (w.host.disk.checkWatch (w.host.disk.resolve page.path)).isOk = r.isOk)
      (fun _ _ => False) := by
    rw [Action.ensures_attempt]
    refine (watchSource_ensures hw.reliable hpage).mono ?_ ?_
    · rintro _ w₁ ⟨hwatched, hlooked₁⟩
      obtain ⟨hw₁, hfaces₁, hgist₁⟩ := hw.looked hlooked₁
      exact ⟨hw₁, hfaces₁, hgist₁, hwatched⟩
    · rintro e w₁ ⟨hunwatched, rfl⟩
      exact ⟨hw, rfl, rfl, hunwatched⟩
  refine .bind hattempt ?_
  rintro r w₁ hw₁ ⟨hgist₁, hr⟩
  have hdisk₁ : w₁.host.disk = w.host.disk := congrArg Gist.disk hgist₁
  rw [hr] at htaken
  cases r with
  | ok _ =>
    rw [show Except.isOk (Except.ok _ : Except Failure Unit) = true from rfl, Bool.true_and,
      ← hdisk₁] at htaken
    rw [← hgist₁] at hpage
    exact reload_follows hrelays hw₁ hpage hopen htaken
  | error e =>
    rw [show Except.isOk (Except.error e : Except Failure Unit) = false from rfl, Bool.false_and,
      if_neg Bool.false_ne_true] at htaken
    rw [htaken]
    exact (Action.Idles.log hw₁.reliable _).andThen hw₁ fun _ w₂ hw₂ _ =>
      close_follows hrelays hw₂ source

/-- A report about a file commits its source if the source takes over another text. -/
theorem fileEvent_follows (hrelays : Relays deliver) (hw : w.Mirrors sync) (source : SourceId)
    (renamed : Bool) :
    (fileEvent deliver source renamed).Follows sync
      (if w.host.takesOver source renamed then some source else none) w := by
  unfold fileEvent takesOver Action.Follows
  rw [Action.ensures_bind]
  cases hs : w.host.sources[source]? with
  | none =>
    rw [findSource_of_none hs]
    exact .refl hw
  | some s =>
    rw [findSource_ensures hs]
    have hpage := page_of_source hs
    cases hclosed : s.closed with
    | true =>
      simp only [hclosed, Bool.not_true, Bool.false_and, Bool.false_eq_true, if_true, if_false]
      exact .refl hw
    | false =>
      cases renamed with
      | false =>
        simp only [hclosed, Bool.not_false, Bool.true_or, Bool.true_and, Bool.false_eq_true,
          if_false]
        exact reload_follows hrelays hw hpage hclosed rfl
      | true =>
        simp only [hclosed, Bool.not_false, Bool.not_true, Bool.false_or, Bool.true_and,
          Bool.false_eq_true, if_false, if_true]
        exact rewatch_follows hrelays hw hpage hclosed s.name rfl

/-- A watcher that fails commits nothing. -/
theorem watcherFailed_follows (hrelays : Relays deliver) (hw : w.Mirrors sync) (source : SourceId)
    (message : String) : (watcherFailed deliver source message).Follows sync none w := by
  unfold watcherFailed Action.Follows
  rw [Action.ensures_bind]
  cases hs : w.host.sources[source]? with
  | none =>
    rw [findSource_of_none hs]
    exact .refl hw
  | some s =>
    rw [findSource_ensures hs]
    refine (Action.Idles.log hw.reliable _).andThen hw ?_
    intro _ w₁ hw₁ _
    exact close_follows hrelays hw₁ source

/-! ## Opening a file -/

/-- A source with its first text has no view. -/
theorem addSource_mirrors (hw : w.Mirrors sync) (path text : String) :
    (addSource path).Ensures w
      (fun id w₁ => (modifySource id (·.update text true)).Ensures w₁
        (fun _ w' => w'.Mirrors sync ∧ w'.face? = w.face? ∧
          ∃ page, w'.host.gist.page? id = some page)
        (fun _ _ => False))
      (fun _ _ => False) := by
  -- Between the two steps the source has no tree yet, so they are taken together.
  have hgist := gist_addSource_update path text w.host
  have hnew := gist_source?_length w.host
  have hunseen : ∀ {id face}, w.face? id = some face → face.source ≠ w.host.sources.length := by
    intro id face hface hsource
    obtain ⟨page, hpage⟩ := hw.reflects.present hface
    unfold Gist.page? at hpage
    rw [hsource, hnew] at hpage
    cases hpage
  refine ⟨?_, rfl, (SourceGist.first path text).toPage, ?_⟩
  · refine hw.aside (c := w.client) hw.reliable ?_ ?_
    · rw [hgist]
      rfl
    · rw [hgist]
      exact hw.reflects.added hnew (hw.unheard hunseen) (fun _ => rfl) rfl
  · show Gist.page? (Desk.gist _) w.host.sources.length = _
    rw [hgist, Gist.page?_added, Function.update_self]

/-- Opening a file shows nothing, whether or not it can be read and watched. -/
theorem openFile_follows (hw : w.Mirrors sync) (name : String) :
    (openFile name).Follows sync none w := by
  have hreported : ∀ {id : SourceId} {page : Page} {w₁ : World Desk C}, w₁.Mirrors sync →
      w₁.host.gist.page? id = some page →
      Action.Follows (do
        log ("Opened " ++ (← findSource id).name ++ ".")
        return id : Action Desk C SourceId) sync none w₁ := by
    intro id page w₁ hw₁ hpage₁
    unfold Action.Follows
    rw [Action.ensures_bind]
    refine findSource_of_page hpage₁ fun s hs hsame => ?_
    exact (Action.Idles.log hw₁.reliable _).andThen hw₁ fun _ w₂ hw₂ _ => .refl hw₂
  unfold openFile Action.Follows
  rw [Action.ensures_bind, Action.ensures_host]
  cases w.host.pattern.isTooLong with
  | true => exact .refl hw
  | false =>
    cases haccepts : w.host.pattern.accepts (w.host.disk.resolve name) with
    | false =>
      simp only [haccepts, Bool.not_false, Bool.false_eq_true, if_true, if_false]
      exact .refl hw
    | true =>
      cases hread : w.host.disk.readText (w.host.disk.resolve name) with
      | error e =>
        simp only [haccepts, hread, Bool.not_true, Bool.false_eq_true, if_false]
        exact .refl hw
      | ok text =>
        simp only [haccepts, hread, Bool.not_true, Bool.false_eq_true, if_false]
        refine Action.Ensures.bind (addSource_mirrors hw (w.host.disk.resolve name).text text) ?_
          (fun _ _ h => h.elim)
        intro id w₁ hadded
        refine Action.Ensures.bind hadded ?_ (fun _ _ h => h.elim)
        rintro _ w₂ ⟨hw₂, hfaces₂, page, hpage₂⟩
        refine Action.Follows.of_faces ?_ hfaces₂
        refine (reportFaults_idles hw₂.reliable hpage₂).andThen hw₂ ?_
        intro _ w₃ hw₃ hgist₃
        rw [← hgist₃] at hpage₂
        cases w.host.watching with
        | false => exact hreported hw₃ hpage₂
        | true =>
          refine Action.Ensures.bind (watchSource_ensures hw₃.reliable hpage₂) ?_ ?_
          · rintro _ w₄ ⟨-, hlooked₄⟩
            obtain ⟨hw₄, hfaces₄, -⟩ := hw₃.looked hlooked₄
            exact (hreported hw₄ (page_of_looked hpage₂ hlooked₄)).of_faces hfaces₄
          · rintro e w₄ ⟨-, rfl⟩
            exact .refl hw₃

end Desk

end

end TreeInspector
