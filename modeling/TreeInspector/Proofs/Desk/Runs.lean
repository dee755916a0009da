import TreeInspector.Proofs.Desk.Operations

/-!
# Runs of a desk

Files are opened, edited, saved and closed, others change the disk, watchers report what they see
or fail, and views are turned on and off, in any order and on any number of sources. Beside each
world that such a run reaches stands, for each session, the text that its source had at the last
point at which the two were brought together: when the session was enabled, or when the source was
last committed. That text is what the view shows.
-/

set_option autoImplicit false

namespace TreeInspector

/-- What happens at a desk. A report about a file may come at any time, and also if the source is
no longer watched. -/
inductive DeskStep where
  | openFile (name : String)
  | edit (source : SourceId) (text : String)
  | save (source : SourceId) (text : Option String)
  | close (source : SourceId)
  | writeFile (path : String) (bytes : List UInt8)
  | removeFile (path : String)
  | setObstacles (obstacles : List (String × Obstacles))
  | setShortages (shortages : List (String × Shortage))
  | fileEvent (source : SourceId) (renamed : Bool)
  | watcherFailed (source : SourceId) (message : String)
  | enable (source : SourceId) (settings : Settings)
  | disable (id : SessionId)
  | navigate (id : SessionId) (index : Number)
  | dispose

section

variable {C : Type} {deliver : Callback → Action Desk C Unit} {w w' : World Desk C}
  {sync : SessionId → String} {id : SessionId} {committed : Option SourceId}

namespace DeskStep

/-- Carries out a step. -/
def run (deliver : Callback → Action Desk C Unit) : DeskStep → Action Desk C Unit
  | .openFile name => do
    let _ ← Desk.openFile name
  | .edit source text => Desk.edit source text
  | .save source text => Desk.save deliver source text
  | .close source => Desk.close deliver source
  | .writeFile path bytes => Desk.diskStep deliver (.write path bytes)
  | .removeFile path => Desk.diskStep deliver (.remove path)
  | .setObstacles obstacles => Desk.diskStep deliver (.setObstacles obstacles)
  | .setShortages shortages => Desk.diskStep deliver (.setShortages shortages)
  | .fileEvent source renamed => Desk.fileEvent deliver source renamed
  | .watcherFailed source message => Desk.watcherFailed deliver source message
  | .enable source settings => do
    let _ ← Registry.enable Desk.host source settings
  | .disable id => Registry.disable Desk.host id
  | .navigate id index => do
    let _ ← Registry.navigate Desk.host id index
  | .dispose => Registry.dispose Desk.host

/-- The world after a step, however it ended. -/
def after (deliver : Callback → Action Desk C Unit) (step : DeskStep) (w : World Desk C) :
    World Desk C :=
  ((step.run deliver).outcome w).2

/-- The source that a step commits: one that is saved, or one whose file has another text. -/
def committed? (d : Desk) : DeskStep → Option SourceId
  | .save source text => if d.canSave source text then some source else none
  | .fileEvent source renamed => if d.takesOver source renamed then some source else none
  | _ => none

/-- Each step does to the views what its commit says. -/
theorem follows (hrelays : Desk.Relays deliver) (hw : w.Mirrors sync) (step : DeskStep) :
    w.Follows sync (step.committed? w.host) (step.after deliver w) := by
  have hdisk : ∀ disk : Disk,
      w.Follows sync none (w.beside { w.host with disk := disk } w.client) := by
    intro disk
    exact .silent (hw.aside hw.reliable rfl hw.reflects.onDisk) fun hface => hface
  refine Action.Ensures.outcome (P := fun _ w' => w.Follows sync (step.committed? w.host) w') ?_
  cases step with
  | openFile name => exact Action.ensures_bind.2 (Desk.openFile_follows hw name)
  | edit source text => exact Desk.edit_follows hw source text
  | save source text => exact Desk.save_follows hrelays hw source text
  | close source => exact Desk.close_follows hrelays hw source
  | writeFile path bytes => exact hdisk _
  | removeFile path => exact hdisk _
  | setObstacles obstacles => exact hdisk _
  | setShortages shortages => exact hdisk _
  | fileEvent source renamed => exact Desk.fileEvent_follows hrelays hw source renamed
  | watcherFailed source message => exact Desk.watcherFailed_follows hrelays hw source message
  | enable source settings =>
    exact Action.ensures_bind.2 (Registry.enable_follows hw source settings)
  | disable id => exact Session.finish_follows hw id .disable .disabled
  | navigate id index =>
    have hlooks : Action.OnlyLooks Desk.terms
        (Registry.navigate Desk.host id index : Action Desk C Session.Jump) :=
      .logged Desk.host_honours id (.navigate Desk.host_honours id index)
    refine Action.ensures_bind.2 ((hlooks w hw.reliable).mono ?_ ?_)
    · intro _ w' hlooked
      exact hlooked.follows hw
    · intro _ w' hlooked
      exact hlooked.follows hw
  | dispose => exact Registry.dispose_follows hw

end DeskStep

/-! ## The last sync point -/

/-- The text that the source of a session had at their last sync point, after a step: the one it has
now if the step enabled the session or committed the source, the one from before otherwise. -/
def World.lastSync (committed : Option SourceId) (w w' : World Desk C)
    (sync : SessionId → String) (id : SessionId) : String :=
  match w'.sessions[id]? with
  | none => sync id
  | some s =>
    if (w.face? id).isNone ∨ committed = some s.source then
      ((w'.host.sources[s.source]?).map SourceFile.text).getD (sync id)
    else sync id

/-- The text of the last sync stays for a session that goes on while its source is not committed. -/
theorem World.lastSync_of_kept {old face : Face} (hold : w.face? id = some old)
    (hface : w'.face? id = some face) (hcommitted : committed ≠ some face.source) :
    World.lastSync committed w w' sync id = sync id := by
  obtain ⟨s, b, binding, hs, -, -, rfl⟩ := World.bound_of_face? hface
  unfold World.lastSync
  rw [hs]
  refine if_neg ?_
  rintro (hnone | hsame)
  · rw [hold] at hnone
    cases hnone
  · exact hcommitted hsame

/-- The text of the last sync is the one that the source has now if the session was enabled or its
source committed. -/
theorem World.lastSync_of_synced {face : Face} {page : Page} (hface : w'.face? id = some face)
    (hsynced : w.face? id = none ∨ committed = some face.source)
    (hpage : w'.host.gist.page? face.source = some page) :
    World.lastSync committed w w' sync id = page.text := by
  obtain ⟨s, b, binding, hs, -, -, rfl⟩ := World.bound_of_face? hface
  obtain ⟨f, hf, hsame⟩ := Desk.source_of_page hpage
  have hf' : w'.host.sources[s.source]? = some f := hf
  unfold World.lastSync
  rw [hs]
  refine (if_pos (hsynced.imp_left Option.isNone_iff_eq_none.2)).trans ?_
  rw [hf', Option.map_some, Option.getD_some]
  exact congrArg Page.text hsame

/-- The session that was synced shows the text of its source, the others what they showed. -/
theorem World.Syncs.mirrors_lastSync {face : Face} {page : Page}
    (syncs : w.Syncs sync id face page w')
    (hsynced : w.face? id = none ∨ committed = some face.source)
    (hothers : ∀ {id' face'}, w.face? id' = some face' → id' ≠ id →
      committed ≠ some face'.source) : w'.Mirrors (World.lastSync committed w w' sync) := by
  refine syncs.mirrors.congr ?_
  intro id' face' hface'
  by_cases hid : id' = id
  · subst hid
    have hface := syncs.faces ▸ hface'
    rw [Function.update_self] at hface ⊢
    cases hface
    exact World.lastSync_of_synced hface' hsynced syncs.hasPage
  · have hold : w.face? id' = some face' := by
      rw [syncs.faces, Function.update_of_ne hid] at hface'
      exact hface'
    rw [Function.update_of_ne hid]
    exact World.lastSync_of_kept hold hface' (hothers hold hid)

namespace World.Follows

/-- After a step the views show the texts of the last sync points. -/
theorem mirrors_lastSync (h : w.Follows sync committed w') :
    w'.Mirrors (World.lastSync committed w w' sync) := by
  cases h with
  | quiet mirrors faces unseen =>
    refine mirrors.congr fun hface => ?_
    exact World.lastSync_of_kept (faces hface) hface (unseen (faces hface))
  | opens idle syncs => exact syncs.mirrors_lastSync (.inl idle) (by simp)
  | renews before alone syncs =>
    refine syncs.mirrors_lastSync (.inr rfl) fun hface' hid hsame => ?_
    exact hid (alone hface' (Option.some.inj hsame).symm)

/-- A view is left alone unless its source is committed. -/
theorem face_eq {old face : Face} (h : w.Follows sync committed w')
    (hold : w.face? id = some old) (hface : w'.face? id = some face)
    (hcommitted : committed ≠ some old.source) : face = old := by
  have hsame : ∀ {id' face' page}, w.Syncs sync id' face' page w' → id ≠ id' → face = old := by
    intro id' face' page syncs hid
    rw [syncs.faces, Function.update_of_ne hid, hold] at hface
    exact (Option.some.inj hface).symm
  cases h with
  | quiet mirrors faces unseen => exact Option.some.inj ((faces hface).symm.trans hold)
  | opens idle syncs =>
    refine hsame syncs ?_
    rintro rfl
    rw [idle] at hold
    cases hold
  | renews before alone syncs =>
    refine hsame syncs ?_
    rintro rfl
    rw [before] at hold
    cases hold
    exact hcommitted rfl

/-- A view whose source is committed stays, with other lines. -/
theorem face_of_committed {old : Face} (h : w.Follows sync committed w')
    (hold : w.face? id = some old) (hcommitted : committed = some old.source) :
    ∃ lines page, w'.face? id = some { old with lines := lines } ∧
      w'.host.gist.page? old.source = some page := by
  cases h with
  | quiet mirrors faces unseen => exact (unseen hold hcommitted).elim
  | opens idle syncs => cases hcommitted
  | @renews id' face lines page _ before alone syncs =>
    have hid : id = id' := alone hold (Option.some.inj hcommitted).symm
    subst hid
    rw [before] at hold
    cases hold
    refine ⟨lines, page, ?_, syncs.hasPage⟩
    rw [syncs.faces, Function.update_self]

end World.Follows

/-! ## What a view shows -/

/-- A session and its pane show the tree of a text. -/
structure World.ShowsText (w : World Desk C) (s : Session) (text : String) : Prop where
  lines : s.lines = (Document.analyze Document.lenient text).root.render s.options.navigation
  pane : ∃ view pane, s.view? = some view ∧ w.host.panes[view]? = some pane ∧
    pane.disposed = false ∧ pane.lines = Desk.paneRows s.lines

/-- An active session shows its lines in a view. -/
theorem World.Active.face? {s : Session} (hactive : w.Active id s) :
    ∃ view, s.view? = some view ∧
      w.face? id = some ⟨s.source, s.options.navigation, view, s.lines⟩ := by
  obtain ⟨binding, hbinding⟩ := Session.state_eq_active_iff.1 hactive.2
  refine ⟨binding.view, ?_, (World.seen_eq hactive.1).trans ?_⟩
  · unfold Session.view?
    rw [hbinding, Option.map_some]
  · unfold Session.face? Session.lines
    rw [hbinding]
    rfl

/-- A session that shows something is active. -/
theorem World.active_of_face? {face : Face} (hface : w.face? id = some face) :
    ∃ s, w.Active id s ∧ s.source = face.source := by
  obtain ⟨s, b, binding, hs, hb, hbinding, rfl⟩ := World.bound_of_face? hface
  have hbound := Session.binding?_eq_some_iff.2 ⟨b, hb, hbinding⟩
  exact ⟨s, ⟨hs, Session.state_eq_active_iff.2 ⟨binding, hbound⟩⟩, rfl⟩

/-- An active session and its pane show the text of the last sync. -/
theorem World.Mirrors.showsText {s : Session} (hw : w.Mirrors sync) (hactive : w.Active id s) :
    w.ShowsText s (sync id) := by
  obtain ⟨view, hview, hface⟩ := hactive.face?
  obtain ⟨hlines, hpane⟩ := hw.reflects.shows hface
  obtain ⟨pane, hthere, hrows⟩ := Option.map_eq_some_iff.1 hpane
  obtain ⟨hold, held, hheld, -⟩ := World.holding?_of_face? hface
  obtain ⟨shown, hshown, hdisposed⟩ := hw.sound.viewHeld.2 ⟨id, hold, held, hheld⟩
  have hsame : shown = pane := Option.some.inj (hshown.symm.trans hthere)
  exact ⟨hlines, view, pane, hview, hthere, hsame ▸ hdisposed, hrows⟩

/-! ## Texts that are not committed -/

/-- No session and no pane has changed. -/
def World.Undisturbed (w w' : World Desk C) : Prop :=
  w'.sessions = w.sessions ∧ w'.host.panes = w.host.panes

/-- What is only edited disturbs nobody. -/
theorem Desk.edit_undisturbed (source : SourceId) (text : String) :
    (edit source text).Ensures w (fun _ w' => w.Undisturbed w') (fun _ w' => w.Undisturbed w') := by
  unfold edit
  rw [Action.ensures_bind]
  exact requireOpen_ensures (fun _ _ => ⟨rfl, rfl⟩) fun _ _ _ => ⟨rfl, rfl⟩

/-- Of a text that the disk refuses nobody but the disk is told. -/
theorem Desk.store_of_refused {source : SourceId} {s : SourceFile}
    (hs : w.host.sources[source]? = some s)
    (hrefused : (w.host.disk.writeText (w.host.disk.resolve s.path) s.text).1.isOk = false) :
    (store deliver source).Ensures w (fun _ _ => False) (fun _ w' => ∃ disk, w' = w.onDisk disk) := by
  unfold store
  rw [Action.ensures_bind, findSource_ensures hs, Action.ensures_bind, writeFile_ensures]
  revert hrefused
  obtain ⟨result, disk⟩ := w.host.disk.writeText (w.host.disk.resolve s.path) s.text
  intro hrefused
  cases result with
  | error e => exact ⟨disk, rfl⟩
  | ok => cases hrefused

/-- What cannot be saved disturbs nobody. -/
theorem Desk.save_undisturbed {source : SourceId} {text : Option String}
    (hrefused : w.host.canSave source text = false) :
    (save deliver source text).Ensures w (fun _ w' => w.Undisturbed w')
      (fun _ w' => w.Undisturbed w') := by
  unfold save
  rw [Action.ensures_bind]
  refine requireOpen_ensures (fun _ _ => ⟨rfl, rfl⟩) fun s hs hclosed => ?_
  rw [canSave_of_open hs hclosed] at hrefused
  cases text with
  | none =>
    refine (store_of_refused hs hrefused).mono (fun _ _ h => h.elim) ?_
    rintro e _ ⟨disk, rfl⟩
    exact ⟨rfl, rfl⟩
  | some text =>
    have hedited : (w.host.sources.modify source (·.update text false))[source]? =
        some (s.update text false) := by
      rw [List.getElem?_modify_eq, hs]
      rfl
    refine Action.ensures_bind.2 ((store_of_refused hedited hrefused).mono
      (fun _ _ h => h.elim) ?_)
    rintro e _ ⟨disk, rfl⟩
    exact ⟨rfl, rfl⟩

/-! ## Runs -/

/-- The worlds that a run reaches, with the texts of the last sync points. A run starts from a fresh
desk whose output and journal do not fail. -/
inductive DeskRun (deliver : Callback → Action Desk C Unit) :
    World Desk C → (SessionId → String) → Prop where
  | start {w : World Desk C} {sync : SessionId → String} (noSessions : w.sessions = [])
      (noEntries : w.registry = []) (noSources : w.host.sources = [])
      (noSubscriptions : w.host.subscriptions = []) (noPanes : w.host.panes = [])
      (reliable : w.host.Reliable) : DeskRun deliver w sync
  | step {w : World Desk C} {sync : SessionId → String} (before : DeskRun deliver w sync)
      (step : DeskStep) :
      DeskRun deliver (step.after deliver w)
        (World.lastSync (step.committed? w.host) w (step.after deliver w) sync)

/-- The views of a world mirror the texts given for them, and no step changes them but a commit. -/
structure World.Faithful (deliver : Callback → Action Desk C Unit) (w : World Desk C)
    (sync : SessionId → String) : Prop where
  /-- Each active session shows the text of its last sync point. -/
  shows : ∀ id s, w.Active id s → w.ShowsText s (sync id)
  /-- Edits and saves that do not commit leave all sessions and panes as they are. -/
  edited : ∀ source text, w.Undisturbed ((DeskStep.edit source text).after deliver w)
  notSaved : ∀ source text, w.host.canSave source text = false →
    w.Undisturbed ((DeskStep.save source text).after deliver w)
  /-- No step that does not commit the source changes what an active session shows. -/
  unchanged : ∀ (step : DeskStep) id s s', w.Active id s → (step.after deliver w).Active id s' →
    step.committed? w.host ≠ some s.source →
    s'.lines = s.lines ∧ s'.view? = s.view? ∧ ∀ view, s.view? = some view →
      ((step.after deliver w).host.panes[view]?).map Pane.lines =
        (w.host.panes[view]?).map Pane.lines
  /-- A step that commits a source brings every active session of the source up to date. -/
  updated : ∀ (step : DeskStep) id s, w.Active id s → step.committed? w.host = some s.source →
    ∃ s' file, (step.after deliver w).Active id s' ∧ s'.source = s.source ∧
      (step.after deliver w).host.sources[s.source]? = some file ∧
      (step.after deliver w).ShowsText s' file.text

/-- All through a run the views mirror the texts of the last sync points. -/
theorem DeskRun.mirrors (hrelays : Desk.Relays deliver) (run : DeskRun deliver w sync) :
    w.Mirrors sync := by
  induction run with
  | @start w sync noSessions noEntries noSources noSubscriptions noPanes reliable =>
    have hnoFace : ∀ id, w.face? id = none := fun id => World.seen_of_empty noSessions
    have hnoSource : ∀ source, w.host.gist.source? source = none := by
      intro source
      simp [Desk.gist, noSources]
    have hnoView : Books.shownOf Pane.disposed ([] : List Pane) = ∅ := by
      ext view
      simp [Books.shownOf]
    have hbooks : w.host.gist.books = .empty := by
      show Books.mk (Books.shownOf Pane.disposed w.host.panes)
        (Books.serving w.host.subscriptions) = .empty
      rw [noPanes, noSubscriptions, hnoView]
      rfl
    refine ⟨reliable, ?_, ?_, ?_, ?_, ?_⟩
    · rw [World.estate_fresh noSessions noEntries hbooks]
      exact Estate.sound_empty
    · intro source f event hf
      rw [hnoSource] at hf
      cases hf
    · intro source page hpage
      unfold Gist.page? at hpage
      rw [hnoSource] at hpage
      cases hpage
    · intro id face hface
      rw [hnoFace] at hface
      cases hface
    · intro id face hface
      rw [hnoFace] at hface
      cases hface
  | step _ step ih => exact (step.follows hrelays ih).mirrors_lastSync

/-- In every world that a run reaches, the view of each active session mirrors the text that its
source had when the session was enabled or, if that was later, when the source was last committed;
edits do not change it, and every commit does. -/
theorem DeskRun.faithful (hrelays : Desk.Relays deliver) (run : DeskRun deliver w sync) :
    w.Faithful deliver sync := by
  have hw := run.mirrors hrelays
  refine ⟨fun id s hactive => hw.showsText hactive, ?_, ?_, ?_, ?_⟩
  · intro source text
    exact Action.Ensures.outcome (P := fun _ w' => w.Undisturbed w')
      (Desk.edit_undisturbed source text)
  · intro source text hrefused
    exact Action.Ensures.outcome (P := fun _ w' => w.Undisturbed w')
      (Desk.save_undisturbed hrefused)
  · intro step id s s' hactive hactive' hcommitted
    have hfollows := step.follows hrelays hw
    obtain ⟨view, hview, hface⟩ := hactive.face?
    obtain ⟨view', hview', hface'⟩ := hactive'.face?
    have hsame := hfollows.face_eq hface hface' hcommitted
    simp only [Face.mk.injEq] at hsame
    obtain ⟨-, -, hviews, hlines⟩ := hsame
    refine ⟨hlines, by rw [hview, hview', hviews], ?_⟩
    intro shown hshown
    have hsameView : shown = view := Option.some.inj (hshown.symm.trans hview)
    have hpane := (hw.reflects.shows hface).pane
    have hpane' := (hfollows.mirrors_lastSync.reflects.shows hface').pane
    rw [hviews, hlines] at hpane'
    rw [hsameView]
    exact hpane'.trans hpane.symm
  · intro step id s hactive hcommitted
    have hfollows := step.follows hrelays hw
    obtain ⟨view, hview, hface⟩ := hactive.face?
    obtain ⟨lines, page, hface', hpage⟩ := hfollows.face_of_committed hface hcommitted
    obtain ⟨s', hactive', hsource⟩ := World.active_of_face? hface'
    obtain ⟨file, hfile, htext⟩ := Desk.source_of_page hpage
    refine ⟨s', file, hactive', hsource, hfile, ?_⟩
    have hsync : World.lastSync (step.committed? w.host) w (step.after deliver w) sync id =
        page.text := World.lastSync_of_synced hface' (.inr hcommitted) hpage
    have hshows := hfollows.mirrors_lastSync.showsText hactive'
    rw [hsync] at hshows
    rw [show file.text = page.text from congrArg Page.text htext]
    exact hshows

end

/-! ## A run with an edit that is not saved -/

namespace DeskRun

/-- Only sessions are called. -/
def relay : Callback → Action Desk Unit Unit
  | .session id event => Session.notify Desk.host id event
  | .client _ => pure ()

/-- A desk with one file on its disk. -/
def oneFile : World Desk Unit where
  host :=
    { disk :=
        { workingDirectory := ⟨[]⟩
          entries := [(⟨["a.json"]⟩, .file [49]), (⟨[]⟩, .directory)] } }
  client := ()

/-- The file is opened and shown, saved with one text, and edited. -/
def edited : World Desk Unit :=
  [DeskStep.openFile "a.json", .enable 0 {}, .save 0 (some "true"), .edit 0 "[]"].foldl
    (fun w step => step.after relay w) oneFile

/-- After an edit the session still shows the text that was saved, and all that is said of runs
holds there. -/
theorem edited_faithful :
    edited.host.sources.map (·.text) = ["[]"] ∧ ∃ sync, DeskRun relay edited sync ∧
      sync 0 = "true" ∧ (∃ s, edited.Active 0 s) ∧ edited.Faithful relay sync := by
  have hstart : DeskRun relay oneFile fun _ => "" :=
    .start rfl rfl rfl rfl rfl ⟨rfl, fun _ => ⟨none, rfl⟩⟩
  have hopened := hstart.step (.openFile "a.json")
  have henabled := hopened.step (.enable 0 {})
  have hsaved := henabled.step (.save 0 (some "true"))
  have hedited := hsaved.step (.edit 0 "[]")
  have hactive : edited.sessions[0]?.map (·.state) = some .active := by decide +kernel
  obtain ⟨s, hs, hstate⟩ := Option.map_eq_some_iff.1 hactive
  exact ⟨by decide +kernel, _, hedited, by decide +kernel, ⟨s, hs, hstate⟩,
    DeskRun.faithful (fun _ _ => rfl) hedited⟩

end DeskRun

end TreeInspector
