import TreeInspector.Proofs.Desk.Runs
import TreeInspector.Proofs.Desk.Separation

/-!
# Moves at a desk

Files are opened, edited, saved and closed, others change the disk, watchers report or break down,
also after they have been stopped, clients listen, and sessions are made, enabled and ended, by the
registry or past it. Every move about a source keeps to that source, whether it ends well or not,
so that along every run a source and its views are out of reach of what is done to the others.
-/

set_option autoImplicit false

namespace TreeInspector

namespace Desk

section

variable {C : Type} {w : World Desk C} {source : SourceId}

/-! ## Operations of a desk -/

/-- Looking for a source keeps to it, and gives what is there. -/
theorem findSource_keeps (hw : w.Apart parts) (source : SourceId) :
    (findSource source : Action Desk C SourceFile).Keeps parts source w fun s w' =>
      w = w' ∧ w.host.sources[source]? = some s := by
  cases hs : w.host.sources[source]? with
  | none => exact (findSource_of_none hs).2 (.refl hw)
  | some s => exact (findSource_ensures hs).2 ⟨.refl hw, rfl, rfl⟩

/-- Asking for an open source keeps to it. -/
theorem requireOpen_keeps (hw : w.Apart parts) (source : SourceId) :
    (requireOpen source : Action Desk C SourceFile).Keeps parts source w fun _ w' => w = w' :=
  requireOpen_ensures (fun _ _ => .refl hw) fun _ _ _ => ⟨.refl hw, rfl⟩

/-- Logging keeps to any source. -/
theorem log_keeps (hw : w.Apart parts) (message : String) :
    (log message : Action Desk C Unit).Keeps parts source w fun _ _ => True :=
  (log_obeys message).keeps_all hw

/-- Something of the source is changed. -/
theorem modifyHost_keeps (hw : w.Apart parts) {f : Desk → Desk} (hwired : (f w.host).Wired)
    (hwithin : parts.Within {source} ∅ ∅ w.host (f w.host)) :
    (Action.modifyHost f : Action Desk C Unit).Keeps parts source w
      fun _ w' => w'.host = f w.host :=
  ⟨hw.beside hwired (hwithin.mono subset_rfl (Set.empty_subset _) (Set.empty_subset _)) w.client,
    rfl⟩

/-- The text of the source, its marks or its selection are changed. -/
theorem modifySource_keeps (hw : w.Apart parts) {f : SourceFile → SourceFile}
    (hcommit : ∀ s, (f s).commitListeners = s.commitListeners)
    (hdestroy : ∀ s, (f s).destroyListeners = s.destroyListeners)
    (hwatcher : ∀ s, (f s).watcher = s.watcher) :
    (modifySource source f : Action Desk C Unit).Keeps parts source w fun _ _ => True :=
  (modifyHost_keeps hw (hw.sound.modifySource_same hcommit hdestroy hwatcher)
    (within_modifySource f)).mono fun _ _ _ _ => trivial

/-- Taking up a text keeps to its source. -/
theorem update_keeps (hw : w.Apart parts) (text : String) (saved : Bool) :
    (modifySource source (·.update text saved) : Action Desk C Unit).Keeps parts source w
      fun _ _ => True :=
  modifySource_keeps hw (fun _ => rfl) (fun _ => rfl) (fun _ => rfl)

/-- Forgetting the listeners of a source keeps to it. -/
theorem forgetListeners_keeps (hw : w.Apart parts) :
    (forgetListeners source : Action Desk C Unit).Keeps parts source w fun _ _ => True := by
  unfold forgetListeners modifySource
  refine Action.Keeps.mono (modifyHost_keeps hw (hw.sound.modifySource fun s hs => ⟨?_, ?_⟩)
    (within_modifySource _)) fun _ _ _ _ => trivial
  · intro event sub hsub
    cases event <;> cases hsub
  · intro k hk
    exact hw.sound.watcher hs hk

/-- A note keeps to any source and changes no watcher. -/
theorem note_keeps (hw : w.Apart parts) (happening : String) :
    (note happening : Action Desk C Unit).Keeps parts source w
      fun _ w' => w'.host.watchers = w.host.watchers := by
  refine Action.Keeps.mono (modifyHost_keeps hw (hw.sound.aside rfl rfl rfl)
    (within_aside rfl rfl rfl rfl)) ?_
  intro _ w₁ _ hhost
  rw [hhost]

/-- A watcher of the source is stopped; the watchers of the source remain its own. -/
theorem stopWatcher_keeps (hw : w.Apart parts) {watcher : WatcherId}
    (hwatches : w.host.Watches source watcher) :
    (stopWatcher watcher : Action Desk C Unit).Keeps parts source w fun _ w' =>
      ∀ k, w.host.Watches source k → w'.host.Watches source k := by
  unfold stopWatcher Action.Keeps
  rw [Action.ensures_bind, Action.ensures_host]
  obtain ⟨t, ht, -⟩ := id hwatches
  simp only [ht]
  have hstopped : (Action.modifyHost fun d =>
      { d with watchers := d.watchers.modify watcher ({ · with isOpen := false }) } :
      Action Desk C Unit).Keeps parts source w fun _ w' =>
        ∀ k, w.host.Watches source k → w'.host.Watches source k := by
    refine (modifyHost_keeps hw (hw.sound.withWatchers fun h => h.stopped watcher)
      (within_stopWatcher hwatches)).mono ?_
    intro _ w₁ _ hhost k hk
    rw [hhost]
    exact hk.stopped watcher
  refine hstopped.bind ?_
  intro _ w₁ hkept₁ hwatches₁
  refine (note_keeps hkept₁.apart _).mono ?_
  intro _ w₂ _ hsame k hk
  unfold Watches
  rw [hsame]
  exact hwatches₁ k hk

/-- Replacing the watcher of a source by one made for it keeps to the source. -/
theorem replaceWatcher_keeps (hw : w.Apart parts) {watcher : Option WatcherId}
    (hnew : ∀ k, watcher = some k → w.host.Watches source k) :
    (replaceWatcher source watcher : Action Desk C Unit).Keeps parts source w
      fun _ _ => True := by
  refine (findSource_keeps hw source).bind ?_
  rintro s _ - ⟨rfl, hs⟩
  -- Once the old watcher is stopped, the new one is still one of the source.
  have hset : ∀ w' : World Desk C, w'.Apart parts →
      (∀ k, w.host.Watches source k → w'.host.Watches source k) →
      (modifySource source ({ · with watcher := watcher }) : Action Desk C Unit).Keeps parts source
        w' fun _ _ => True := by
    intro w' hw' hwatches
    unfold modifySource
    refine Action.Keeps.mono (modifyHost_keeps hw'
      (hw'.sound.modifySource fun s' hs' => ⟨?_, ?_⟩) (within_modifySource _))
      fun _ _ _ _ => trivial
    · intro event sub hsub
      have hold : sub ∈ s'.listeners event := by cases event <;> exact hsub
      exact hw'.sound.listeners hs' hold
    · intro k hk
      exact hwatches k (hnew k hk)
  cases hold : s.watcher with
  | none => exact hset w hw fun _ h => h
  | some old =>
    refine (stopWatcher_keeps hw (hw.sound.watcher hs hold)).bind ?_
    intro _ w₁ hkept₁ hwatches₁
    exact hset w₁ hkept₁.apart hwatches₁

/-- Marking a source as closed keeps to it. -/
theorem shut_keeps (hw : w.Apart parts) :
    (shut source : Action Desk C Unit).Keeps parts source w fun _ _ => True := by
  refine Action.Keeps.bind (modifySource_keeps hw ?_ ?_ ?_) ?_
  iterate 3 exact fun _ => rfl
  intro _ w₁ hkept₁ _
  refine (replaceWatcher_keeps hkept₁.apart (fun _ h => by cases h)).bind ?_
  intro _ w₂ hkept₂ _
  exact modifySource_keeps hkept₂.apart (fun _ => rfl) (fun _ => rfl) (fun _ => rfl)

/-- Watching a source keeps to it. -/
theorem watchSource_keeps (hw : w.Apart parts) (source : SourceId) :
    (watchSource source : Action Desk C Unit).Keeps parts source w fun _ _ => True := by
  unfold watchSource Action.Keeps
  rw [Action.ensures_bind, Action.ensures_host]
  refine (findSource_keeps hw source).bind ?_
  rintro s _ - ⟨rfl, -⟩
  have hchecked : (Action.ofExcept (w.host.disk.checkWatch (w.host.disk.resolve s.path)) :
      Action Desk C Unit).Keeps parts source w fun _ w' => w = w' := by
    refine (ofExcept_ensures _).2 ?_
    split
    · exact ⟨.refl hw, rfl⟩
    · exact .refl hw
  refine hchecked.bind ?_
  rintro _ _ - rfl
  have hadded : (Action.modifyHost fun d => { d with
      watchers := d.watchers ++ [{ path := w.host.disk.resolve s.path, source }] } :
      Action Desk C Unit).Keeps parts source w fun _ w' =>
        w'.host.Watches source w.host.watchers.length := by
    refine (modifyHost_keeps hw (hw.sound.withWatchers fun h => h.added _)
      (within_addWatcher _)).mono ?_
    intro _ w₁ _ hhost
    rw [hhost]
    exact ⟨_, List.getElem?_concat_length, rfl⟩
  refine hadded.bind ?_
  intro _ w₁ hkept₁ hwatches₁
  refine (note_keeps hkept₁.apart _).bind ?_
  intro _ w₂ hkept₂ hsame
  refine replaceWatcher_keeps hkept₂.apart ?_
  rintro _ ⟨⟩
  unfold Watches
  rw [hsame]
  exact hwatches₁

/-- Reporting the faults of a source keeps to it. -/
theorem reportFaults_keeps (hw : w.Apart parts) (source : SourceId) :
    (reportFaults source : Action Desk C Unit).Keeps parts source w fun _ _ => True := by
  refine (findSource_keeps hw source).bind ?_
  rintro s _ - ⟨rfl, -⟩
  exact Action.keeps_forM hw _ fun _ _ w' hkept => log_keeps hkept.apart _

/-! ## Announcements -/

/-- Nothing has happened but that something was written, logged or noted, or that the client has
changed. -/
def Aside (w w' : World Desk C) : Prop :=
  ∃ output messages trace c,
    w' = w.beside { w.host with output := output, messages := messages, trace := trace } c

/-- Whoever listens beside the sessions only writes, logs, or keeps something to itself. -/
def Discreet (deliver : Callback → Action Desk C Unit) : Prop :=
  ∀ listener w, (deliver (.client listener)).Ensures w (fun _ w' => Aside w w')
    (fun _ w' => Aside w w')

/-- What happens aside keeps to any source. -/
theorem Aside.kept {w' : World Desk C} (h : Aside w w') (hw : w.Apart parts) :
    w.KeptTo parts source w' := by
  obtain ⟨output, messages, trace, c, rfl⟩ := h
  refine hw.beside ?_ ?_ c
  · exact hw.sound.aside rfl rfl rfl
  · exact within_aside rfl rfl rfl rfl

variable {deliver : Callback → Action Desk C Unit}

/-- A callback of a subscription to the source is about the source. -/
theorem deliver_keeps (hrelays : Relays deliver) (hdiscreet : Discreet deliver)
    (hw : w.Apart parts) {s : Subscription} {sub : SubscriptionId}
    (hs : w.host.subscriptions[sub]? = some s) (hsource : s.source = source) :
    (deliver s.callback).Keeps parts source w fun _ _ => True := by
  cases hcallback : s.callback with
  | client listener =>
    exact (hdiscreet listener w).mono (fun _ _ h => ⟨h.kept hw, trivial⟩) (fun _ _ h => h.kept hw)
  | session id event =>
    have hcalled : parts.subscriber w.host sub = some s.subscriber :=
      Option.map_eq_some_iff.2 ⟨s, hs, rfl⟩
    have hbound : w.Bound id s.source := hw.called hcalled id event hcallback
    rw [hrelays]
    exact Session.notify_keeps host_confined hw (hsource ▸ hbound.tied) event

/-- Announcing an event of a source keeps to it, if clients are discreet. -/
theorem announce_keeps (hrelays : Relays deliver) (hdiscreet : Discreet deliver)
    (hw : w.Apart parts) (source : SourceId) (event : Notice) :
    (announce deliver source event).Keeps parts source w fun _ _ => True := by
  refine (findSource_keeps hw source).bind ?_
  rintro f _ - ⟨rfl, hf⟩
  refine Action.keeps_forM hw _ ?_
  intro sub hsub w' hkept
  -- A listener stays a subscription to the source whatever the ones before it have done.
  obtain ⟨s₀, hs₀, hsource₀⟩ := hw.sound.listeners hf hsub
  have hcalled : parts.subscriber w'.host sub = some s₀.subscriber :=
    hkept.subscriber (Option.map_eq_some_iff.2 ⟨s₀, hs₀, rfl⟩)
  obtain ⟨s, hs, hsame⟩ := Option.map_eq_some_iff.1 hcalled
  have hsource : s.source = source := (congrArg Subscriber.source hsame).trans hsource₀
  unfold Action.Keeps
  rw [Action.ensures_bind, Action.ensures_host]
  simp only [hs]
  exact deliver_keeps hrelays hdiscreet hkept.apart hs hsource

/-! ## Operations -/

/-- Editing a source keeps to it. -/
theorem edit_keeps (hw : w.Apart parts) (source : SourceId) (text : String) :
    (edit source text : Action Desk C Unit).Keeps parts source w fun _ _ => True := by
  refine (requireOpen_keeps hw source).bind ?_
  rintro _ _ - rfl
  exact update_keeps hw text false

/-- Closing a source keeps to it, if clients are discreet. -/
theorem close_keeps (hrelays : Relays deliver) (hdiscreet : Discreet deliver)
    (hw : w.Apart parts) (source : SourceId) :
    (close deliver source).Keeps parts source w fun _ _ => True := by
  refine (findSource_keeps hw source).bind ?_
  rintro s _ - ⟨rfl, -⟩
  split
  · exact Action.keeps_pure hw trivial
  refine (shut_keeps hw).bind ?_
  intro _ w₁ hkept₁ _
  refine (log_keeps hkept₁.apart _).bind ?_
  intro _ w₂ hkept₂ _
  refine (announce_keeps hrelays hdiscreet hkept₂.apart source .destroy).bind ?_
  intro _ w₃ hkept₃ _
  exact forgetListeners_keeps hkept₃.apart

/-- The text of a source is taken as saved, and the commit announced. -/
theorem commit_keeps (hrelays : Relays deliver) (hdiscreet : Discreet deliver)
    (hw : w.Apart parts) (source : SourceId) (text message : String) :
    (do
      modifySource source (·.update text true)
      reportFaults source
      log message
      announce deliver source .commit : Action Desk C Unit).Keeps parts source w
        fun _ _ => True := by
  refine (update_keeps hw text true).bind ?_
  intro _ w₁ hkept₁ _
  refine (reportFaults_keeps hkept₁.apart source).bind ?_
  intro _ w₂ hkept₂ _
  refine (log_keeps hkept₂.apart message).bind ?_
  intro _ w₃ hkept₃ _
  exact announce_keeps hrelays hdiscreet hkept₃.apart source .commit

/-- Writing a file changes the disk, whose files no session holds. -/
theorem writeFile_keeps (hw : w.Apart parts) (path text : String) :
    (writeFile path text).Keeps parts source w fun _ _ => True := by
  have hdisk : ∀ disk : Disk, (Action.modifyHost fun d => { d with disk := disk } :
      Action Desk C Unit).Keeps parts source w fun _ _ => True := fun disk =>
    (modifyHost_keeps hw (hw.sound.aside rfl rfl rfl) (within_aside rfl rfl rfl rfl)).mono
      fun _ _ _ _ => trivial
  unfold Action.Keeps
  rw [writeFile_ensures]
  obtain ⟨result, disk⟩ := w.host.disk.writeText (w.host.disk.resolve path) text
  cases result with
  | ok => exact hdisk disk
  | error e => exact (hdisk disk).1

/-- Storing the text of a source keeps to it, if clients are discreet. -/
theorem store_keeps (hrelays : Relays deliver) (hdiscreet : Discreet deliver)
    (hw : w.Apart parts) (source : SourceId) :
    (store deliver source).Keeps parts source w fun _ _ => True := by
  refine (findSource_keeps hw source).bind ?_
  rintro s _ - ⟨rfl, -⟩
  refine (writeFile_keeps hw s.path s.text).bind ?_
  intro _ w₁ hkept₁ _
  exact commit_keeps hrelays hdiscreet hkept₁.apart source s.text _

/-- Saving a source keeps to it, if clients are discreet. -/
theorem save_keeps (hrelays : Relays deliver) (hdiscreet : Discreet deliver)
    (hw : w.Apart parts) (source : SourceId) (text : Option String) :
    (save deliver source text).Keeps parts source w fun _ _ => True := by
  refine (requireOpen_keeps hw source).bind ?_
  rintro _ _ - rfl
  cases text with
  | none => exact store_keeps hrelays hdiscreet hw source
  | some text =>
    refine (update_keeps hw text false).bind ?_
    intro _ w₁ hkept₁ _
    exact store_keeps hrelays hdiscreet hkept₁.apart source

/-- Reading the file of a source again keeps to it, if clients are discreet. -/
theorem reload_keeps (hrelays : Relays deliver) (hdiscreet : Discreet deliver)
    (hw : w.Apart parts) (source : SourceId) :
    (reload deliver source).Keeps parts source w fun _ _ => True := by
  refine (findSource_keeps hw source).bind ?_
  rintro s _ - ⟨rfl, -⟩
  unfold Action.Keeps
  rw [Action.ensures_bind, Action.ensures_host]
  dsimp only
  cases w.host.disk.readText (w.host.disk.resolve s.path) with
  | error e =>
    dsimp only
    split
    · exact close_keeps hrelays hdiscreet hw source
    · exact log_keeps hw _
  | ok text =>
    dsimp only
    split
    · exact Action.keeps_pure hw trivial
    · exact commit_keeps hrelays hdiscreet hw source text _

/-- A report about the file of a source keeps to it, if clients are discreet. -/
theorem fileEvent_keeps (hrelays : Relays deliver) (hdiscreet : Discreet deliver)
    (hw : w.Apart parts) (source : SourceId) (renamed : Bool) :
    (fileEvent deliver source renamed).Keeps parts source w fun _ _ => True := by
  refine (findSource_keeps hw source).bind ?_
  rintro s _ - ⟨rfl, -⟩
  split
  · exact Action.keeps_pure hw trivial
  split
  · refine (watchSource_keeps hw source).attempt.bind ?_
    intro watched w₁ hkept₁ _
    cases watched with
    | ok _ => exact reload_keeps hrelays hdiscreet hkept₁.apart source
    | error e =>
      refine (log_keeps hkept₁.apart _).bind ?_
      intro _ w₂ hkept₂ _
      exact close_keeps hrelays hdiscreet hkept₂.apart source
  · exact reload_keeps hrelays hdiscreet hw source

/-- A watcher of a source that fails keeps to it, if clients are discreet. -/
theorem watcherFailed_keeps (hrelays : Relays deliver) (hdiscreet : Discreet deliver)
    (hw : w.Apart parts) (source : SourceId) (message : String) :
    (watcherFailed deliver source message).Keeps parts source w fun _ _ => True := by
  refine (findSource_keeps hw source).bind ?_
  rintro s _ - ⟨rfl, -⟩
  refine (log_keeps hw _).bind ?_
  intro _ w₁ hkept₁ _
  exact close_keeps hrelays hdiscreet hkept₁.apart source

/-- Takes in a text as a new source. -/
def takeIn (path text : String) (watching : Bool) : Action Desk C SourceId := do
  let id ← addSource path
  modifySource id (·.update text true)
  reportFaults id
  if watching then watchSource id
  log ("Opened " ++ (← findSource id).name ++ ".")
  return id

/-- Opening a file is refused before anything happens, or takes in what the disk has. -/
theorem openFile_ensures (name : String) {Q : SourceId → World Desk C → Prop}
    {E : Failure → World Desk C → Prop} (hrefused : ∀ e, E e w)
    (htaken : ∀ text, w.host.disk.readText (w.host.disk.resolve name) = .ok text →
      (takeIn (w.host.disk.resolve name).text text w.host.watching).Ensures w Q E) :
    (openFile name).Ensures w Q E := by
  unfold openFile
  rw [Action.ensures_bind, Action.ensures_host]
  cases w.host.pattern.isTooLong with
  | true => exact hrefused _
  | false =>
    cases haccepts : w.host.pattern.accepts (w.host.disk.resolve name) with
    | false =>
      simp only [haccepts, Bool.not_false, Bool.false_eq_true, if_true, if_false]
      exact hrefused _
    | true =>
      cases hread : w.host.disk.readText (w.host.disk.resolve name) with
      | error e =>
        simp only [haccepts, hread, Bool.not_true, Bool.false_eq_true, if_false]
        exact hrefused _
      | ok text =>
        simp only [haccepts, hread, Bool.not_true, Bool.false_eq_true, if_false]
        exact htaken text hread

/-- Opening a file is about the source that it makes. -/
theorem openFile_keeps (hw : w.Apart parts) (name : String) :
    (openFile name : Action Desk C SourceId).Keeps parts w.host.sources.length w
      fun _ _ => True := by
  refine openFile_ensures name (fun _ => .refl hw) fun text _ => ?_
  have hadded : (addSource (w.host.disk.resolve name).text : Action Desk C SourceId).Keeps parts
      w.host.sources.length w fun id _ => w.host.sources.length = id :=
    ⟨hw.beside (hw.sound.addSource _) ((within_addSource _).mono subset_rfl (Set.empty_subset _)
      (Set.empty_subset _)) w.client, rfl⟩
  refine hadded.bind ?_
  rintro _ w₁ hkept₁ rfl
  refine (update_keeps hkept₁.apart text true).bind ?_
  intro _ w₂ hkept₂ _
  refine (reportFaults_keeps hkept₂.apart _).bind ?_
  intro _ w₃ hkept₃ _
  have hlogged : ∀ {w₄ : World Desk C}, w₄.Apart parts → (do
      log ("Opened " ++ (← findSource w.host.sources.length).name ++ ".")
      return w.host.sources.length : Action Desk C SourceId).Keeps parts w.host.sources.length w₄
        fun _ _ => True := by
    intro w₄ hw₄
    refine (findSource_keeps hw₄ _).bind ?_
    rintro s _ - ⟨rfl, -⟩
    refine (log_keeps hw₄ _).bind ?_
    intro _ w₅ hkept₅ _
    exact Action.keeps_pure hkept₅.apart trivial
  cases w.host.watching with
  | false => exact hlogged hkept₃.apart
  | true =>
    refine (watchSource_keeps hkept₃.apart _).bind ?_
    intro _ w₄ hkept₄ _
    exact hlogged hkept₄.apart

end

end Desk

/-! ## Moves -/

/-- What happens at a desk. What a watcher has to say may come at any time, also after it has been
stopped. -/
inductive DeskMove where
  | openFile (name : String)
  | edit (source : SourceId) (text : String)
  | save (source : SourceId) (text : Option String)
  | close (source : SourceId)
  | writeFile (path : String) (bytes : List UInt8)
  | removeFile (path : String)
  | setObstacles (obstacles : List (String × Obstacles))
  | setShortages (shortages : List (String × Shortage))
  | report (watcher : WatcherId) (renamed : Bool)
  | breakDown (watcher : WatcherId) (message : String)
  | listen (source : SourceId) (event : Notice) (listener : Nat)
  | unlisten (sub : SubscriptionId)
  | session (m : Move)

section

variable {C : Type} {deliver : Callback → Action Desk C Unit} {w : World Desk C}
  {source : SourceId}

namespace DeskMove

/-- Lets a watcher say something about its source. -/
def fromWatcher (watcher : WatcherId) (say : SourceId → Action Desk C Unit) :
    Action Desk C Unit := do
  match (← Action.host).watchers[watcher]? with
  | some t => say t.source
  | none => return

/-- Carries out a move. -/
def run (deliver : Callback → Action Desk C Unit) : DeskMove → Action Desk C Unit
  | .openFile name => do
    let _ ← Desk.openFile name
  | .edit source text => Desk.edit source text
  | .save source text => Desk.save deliver source text
  | .close source => Desk.close deliver source
  | .writeFile path bytes => Desk.diskStep deliver (.write path bytes)
  | .removeFile path => Desk.diskStep deliver (.remove path)
  | .setObstacles obstacles => Desk.diskStep deliver (.setObstacles obstacles)
  | .setShortages shortages => Desk.diskStep deliver (.setShortages shortages)
  | .report watcher renamed => fromWatcher watcher (Desk.fileEvent deliver · renamed)
  | .breakDown watcher message => fromWatcher watcher (Desk.watcherFailed deliver · message)
  | .listen source event listener => do
    let _ ← Desk.subscribe source event (.client listener)
  | .unlisten sub => Desk.unsubscribe sub
  | .session m => m.run Desk.host

/-- The world after a move, however it ended. -/
def after (deliver : Callback → Action Desk C Unit) (m : DeskMove) (w : World Desk C) :
    World Desk C :=
  ((m.run deliver).outcome w).2

/-- The move is one on the source, on a session bound to it, or by one of its watchers. Changes of
the disk are about no source, and so are about any. -/
def About (source : SourceId) (w : World Desk C) : DeskMove → Prop
  | .openFile _ => source = w.host.sources.length
  | .edit source' _ | .save source' _ | .close source' | .listen source' .. => source' = source
  | .writeFile .. | .removeFile _ | .setObstacles _ | .setShortages _ => True
  | .report watcher _ | .breakDown watcher _ =>
    ∀ t, w.host.watchers[watcher]? = some t → t.source = source
  | .unlisten sub => ∀ s, w.host.subscriptions[sub]? = some s → s.source = source
  | .session m => m.About source w

/-- What a watcher says keeps to the source that it was made for. -/
theorem fromWatcher_keeps (hw : w.Apart Desk.parts) {watcher : WatcherId}
    (habout : ∀ t, w.host.watchers[watcher]? = some t → t.source = source)
    (say : SourceId → Action Desk C Unit)
    (hsay : (say source).Keeps Desk.parts source w fun _ _ => True) :
    (fromWatcher watcher say).Keeps Desk.parts source w fun _ _ => True := by
  unfold fromWatcher Action.Keeps
  rw [Action.ensures_bind, Action.ensures_host]
  cases ht : w.host.watchers[watcher]? with
  | none => exact Action.keeps_pure hw trivial
  | some t =>
    simp only [habout t ht]
    exact hsay

/-- A move keeps to the source that it is about. -/
theorem run_keeps (hrelays : Desk.Relays deliver) (hdiscreet : Desk.Discreet deliver)
    (hw : w.Apart Desk.parts) {m : DeskMove} (habout : m.About source w) :
    (m.run deliver).Keeps Desk.parts source w fun _ _ => True := by
  have hdisk : ∀ disk : Disk,
      w.KeptTo Desk.parts source (w.beside { w.host with disk := disk } w.client) :=
    fun disk => hw.beside (h := { w.host with disk := disk }) (hw.sound.aside rfl rfl rfl)
      (Desk.within_aside rfl rfl rfl rfl) w.client
  cases m with
  | openFile name =>
    cases habout
    refine (Desk.openFile_keeps hw name).bind ?_
    intro _ w₁ hkept₁ _
    exact Action.keeps_pure hkept₁.apart trivial
  | edit source' text =>
    cases habout
    exact Desk.edit_keeps hw source text
  | save source' text =>
    cases habout
    exact Desk.save_keeps hrelays hdiscreet hw source text
  | close source' =>
    cases habout
    exact Desk.close_keeps hrelays hdiscreet hw source
  | writeFile path bytes => exact ⟨hdisk _, trivial⟩
  | removeFile path => exact ⟨hdisk _, trivial⟩
  | setObstacles obstacles => exact ⟨hdisk _, trivial⟩
  | setShortages shortages => exact ⟨hdisk _, trivial⟩
  | report watcher renamed =>
    refine fromWatcher_keeps hw habout (Desk.fileEvent deliver · renamed) ?_
    exact Desk.fileEvent_keeps hrelays hdiscreet hw source renamed
  | breakDown watcher message =>
    refine fromWatcher_keeps hw habout (Desk.watcherFailed deliver · message) ?_
    exact Desk.watcherFailed_keeps hrelays hdiscreet hw source message
  | listen source' event listener =>
    cases habout
    refine ((Desk.subscribe_obeys source event (.client listener)).keeps hw ?_).bind ?_
    · rintro r d ⟨within, -⟩
      refine within.mono subset_rfl (Set.empty_subset _) (Set.singleton_subset_iff.2 ?_)
      intro _ _ hnever
      cases hnever
    · intro _ w₁ hkept₁ _
      exact Action.keeps_pure hkept₁.apart trivial
  | unlisten sub =>
    refine ((Desk.unsubscribe_confined sub).keeps hw ?_).mono fun _ _ _ _ => trivial
    intro r d within
    refine within.mono ?_ (Set.empty_subset _) (Set.empty_subset _)
    rintro i ⟨who, hwho, rfl⟩
    obtain ⟨s, hs, rfl⟩ := Option.map_eq_some_iff.1 hwho
    exact habout s hs
  | session m => exact m.run_keeps Desk.host_confined hw habout

/-- A move leaves the sources apart, whatever it is about. -/
theorem after_apart (hrelays : Desk.Relays deliver) (hdiscreet : Desk.Discreet deliver)
    (hw : w.Apart Desk.parts) (m : DeskMove) : (m.after deliver w).Apart Desk.parts := by
  have hof : ∀ source, m.About source w → (m.after deliver w).Apart Desk.parts := by
    intro source habout
    exact Action.Ensures.outcome (P := fun _ w' => w'.Apart Desk.parts)
      (Action.Ensures.mono (run_keeps hrelays hdiscreet hw habout) (fun _ _ h => h.1.apart)
        (fun _ _ h => h.apart))
  cases m with
  | openFile name => exact hof _ rfl
  | edit source text => exact hof source rfl
  | save source text => exact hof source rfl
  | close source => exact hof source rfl
  | writeFile path bytes => exact hof 0 trivial
  | removeFile path => exact hof 0 trivial
  | setObstacles obstacles => exact hof 0 trivial
  | setShortages shortages => exact hof 0 trivial
  | report watcher renamed =>
    refine hof ((w.host.watchers[watcher]?.map (·.source)).getD 0) fun t ht => ?_
    rw [ht]
    rfl
  | breakDown watcher message =>
    refine hof ((w.host.watchers[watcher]?.map (·.source)).getD 0) fun t ht => ?_
    rw [ht]
    rfl
  | listen source event listener => exact hof source rfl
  | unlisten sub =>
    refine hof ((w.host.subscriptions[sub]?.map (·.source)).getD 0) fun s hs => ?_
    rw [hs]
    rfl
  | session m => exact m.run_apart Desk.host_confined hw

end DeskMove

/-! ## Runs -/

/-- Nothing has been made yet on the desk or by the registry. -/
structure World.Untouched (w : World Desk C) : Prop where
  sessions : w.sessions = []
  registry : w.registry = []
  sources : w.host.sources = []
  subscriptions : w.host.subscriptions = []
  panes : w.host.panes = []
  watchers : w.host.watchers = []

/-- The worlds that moves lead to. -/
inductive Desk.Reaches (deliver : Callback → Action Desk C Unit) :
    World Desk C → World Desk C → Prop where
  | start (w : World Desk C) : Desk.Reaches deliver w w
  | move {w w' : World Desk C} (before : Desk.Reaches deliver w w') (m : DeskMove) :
      Desk.Reaches deliver w (m.after deliver w')

/-- Before anything has been made, no two sources have anything in common. -/
theorem World.Untouched.apart (hw : w.Untouched) : w.Apart Desk.parts := by
  have hnone : ∀ {i : SessionId} {s}, w.sessions[i]? ≠ some s := by
    intro i s
    simp [hw.sessions]
  refine ⟨⟨?_, ?_⟩, ?_, ?_, ?_, ?_, ?_⟩
  · intro source f event sub hf
    simp [hw.sources] at hf
  · intro source f watcher hf
    simp [hw.sources] at hf
  · rintro _ _ ⟨i, s, hs, -⟩
    exact (hnone hs).elim
  · rintro _ _ _ ⟨i, s, hs, -⟩
    exact (hnone hs).elim
  · rintro _ _ ⟨i, s, hs, -⟩
    exact (hnone hs).elim
  · intro sub who hwho
    simp [Desk.parts, hw.subscriptions] at hwho
  · intro source id hentry
    rw [hw.registry] at hentry
    cases hentry

/-- The sources of a desk are apart in every world that a run reaches. -/
theorem Desk.Reaches.apart {w' : World Desk C} (hrelays : Desk.Relays deliver)
    (hdiscreet : Desk.Discreet deliver) (reaches : Desk.Reaches deliver w w')
    (hw : w.Untouched) : w'.Apart Desk.parts := by
  induction reaches with
  | start => exact hw.apart
  | move _ m ih => exact m.after_apart hrelays hdiscreet ih

end

/-- Sources do not interfere, on any confined host and on a desk: in every world that a run reaches,
a move about one source, whether it ends well or fails, spares what the host keeps for every other
source, the sessions bound to them, the views of these sessions and their entries in the
registry. -/
theorem sources_do_not_interfere :
    (∀ {H C A B : Type} {P : Parts H A B} {host : Host H C} {w : World H C} {source : SourceId}
      {m : Move}, host.Confined P → SeparateRun P host w → m.About source w →
        w.Spares P source ((m.run host).outcome w).2) ∧
    ∀ {C : Type} {deliver : Callback → Action Desk C Unit} {start w : World Desk C}
      {source : SourceId} {m : DeskMove}, Desk.Relays deliver → Desk.Discreet deliver →
        start.Untouched → Desk.Reaches deliver start w → m.About source w →
          w.Spares Desk.parts source (m.after deliver w) := by
  constructor
  · intro H C A B P host w source m hhost run habout
    exact run.spares hhost habout
  · intro C deliver start w source m hrelays hdiscreet hstart reaches habout
    have hkeeps := DeskMove.run_keeps hrelays hdiscreet (reaches.apart hrelays hdiscreet hstart)
      habout
    exact Action.Ensures.outcome (P := fun _ w' => w.Spares Desk.parts source w')
      (Action.Ensures.mono hkeeps (fun _ _ h => h.1.spares) (fun _ _ h => h.spares))

/-! ## One file, opened twice -/

namespace DeskRun

/-- A file is opened twice. -/
def openedTwice : World Desk Unit :=
  [DeskMove.openFile "a.json", .openFile "a.json"].foldl (fun w m => m.after relay w) oneFile

/-- Both sources are shown. -/
def shownTwice : World Desk Unit :=
  [Move.step (.call (.enable 0 {})), .step (.call (.enable 1 {}))].foldl
    (fun w m => (DeskMove.session m).after relay w) openedTwice

/-- Where only sessions are called, clients are discreet. -/
theorem relay_discreet : Desk.Discreet relay := fun _ w =>
  ⟨w.host.output, w.host.messages, w.host.trace, w.client, rfl⟩

/-- Moves lead to two sources that are both shown. -/
theorem shownTwice_reached : Desk.Reaches relay oneFile shownTwice :=
  ((((Desk.Reaches.start oneFile).move (.openFile "a.json")).move (.openFile "a.json")).move
    (.session (.step (.call (.enable 0 {}))))).move (.session (.step (.call (.enable 1 {}))))

/-- Nothing has been made yet on the desk with one file. -/
theorem oneFile_untouched : oneFile.Untouched := ⟨rfl, rfl, rfl, rfl, rfl, rfl⟩

/-- The first source is saved with another text, and then its session is told of the commit once
more; the second source still has the old text, and the pane of its session shows it. -/
theorem shownTwice_spared :
    (((DeskMove.save 0 (some "true")).after relay shownTwice).host.sources.map (·.text) =
      ["true", "1"]) ∧
    shownTwice.Spares Desk.parts 0 ((DeskMove.save 0 (some "true")).after relay shownTwice) ∧
    shownTwice.Spares Desk.parts 0
      (((Move.step (.call (.notify 0 .commit))).run Desk.host).outcome shownTwice).2 := by
  have hrelays : Desk.Relays relay := fun _ _ => rfl
  have hsound : openedTwice.Apart Desk.parts :=
    (((Desk.Reaches.start oneFile).move (.openFile "a.json")).move (.openFile "a.json")).apart
      hrelays relay_discreet oneFile_untouched
  have hrun : SeparateRun Desk.parts Desk.host openedTwice := by
    refine .start (by decide +kernel) (by decide +kernel) hsound.sound ?_
    intro sub who hwho
    have hnone : openedTwice.host.subscriptions = [] := by decide +kernel
    simp [Desk.parts, hnone] at hwho
  have hshown : SeparateRun Desk.parts Desk.host shownTwice :=
    (hrun.move (.step (.call (.enable 0 {})))).move (.step (.call (.enable 1 {})))
  have hsource : shownTwice.sessions[0]?.map (·.source) = some 0 := by decide +kernel
  refine ⟨by decide +kernel, ?_, ?_⟩
  · exact sources_do_not_interfere.2 hrelays relay_discreet oneFile_untouched shownTwice_reached rfl
  · refine sources_do_not_interfere.1 Desk.host_confined hshown ?_
    intro d hd
    rw [List.mem_singleton.1 hd]
    intro s hs
    rw [hs] at hsource
    exact Option.some.inj hsource

end DeskRun

end TreeInspector
