import TreeInspector.Proofs.Desk.Delivery

/-!
# Runs with clients who listen

Clients may listen to sources beside the sessions, and what they do when they are called is up to
them: they may edit, save or close sources, turn views on and off, and fail. Whatever happens at a
desk, and however it ends, each active session keeps a pane of its own and is called for both events
of its source as long as that is open.
-/

set_option autoImplicit false

namespace TreeInspector

section

variable {C : Type} {w w' : World Desk C} {source : SourceId}
  {deliver : Callback → Action Desk C Unit}

/-- Something has changed that neither subscriptions nor panes show. -/
theorem World.InTouch.aside (hw : w.InTouch) {d : Desk} {c : C} (hreliable : d.Reliable)
    (horderly : d.gist.Orderly) (hsubs : d.subscriptions = w.host.subscriptions)
    (hpanes : d.panes = w.host.panes) (hshut : ∀ {source}, w.host.Shut source → d.Shut source) :
    w.StillInTouch (w.beside d c) := by
  have hbooks : d.gist.books = w.host.gist.books := by
    unfold Gist.books Desk.gist
    rw [hsubs, hpanes]
  have hsame : (fun d : Desk => d.gist.books) d = (fun d : Desk => d.gist.books) w.host := hbooks
  refine ⟨hw.same hreliable horderly (World.estate_beside hsame) fun h => h, ?_, hshut⟩
  unfold Gist.callbacks Desk.gist
  rw [World.beside_host, hsubs]

namespace Desk

/-! ## What does not matter to sessions -/

/-- What sessions rely on. -/
def standing (d : Desk) : Gist × JournalKind × Option Nat := (d.gist, d.journal, d.output.failing)

/-- Sessions stay in touch through whatever leaves what they rely on. -/
theorem Leaves.staysInTouch {α : Type} {a : Action Desk C α} (ha : Leaves standing a)
    (hw : w.InTouch) : a.StaysInTouch w := by
  have hkept : ∀ {w' : World Desk C}, Left standing w w' → w.StillInTouch w' := by
    rintro w' ⟨d, c, rfl, hd⟩
    have hgist : d.gist = w.host.gist := congrArg Prod.fst hd
    have hjournal : d.journal = w.host.journal := congrArg (·.2.1) hd
    have hfailing : d.output.failing = w.host.output.failing := congrArg (·.2.2) hd
    refine .beside hw ⟨hfailing.trans hw.reliable.1, ?_⟩ hgist
    rw [hjournal]
    exact hw.reliable.2
  exact (ha w).mono (fun _ _ h => hkept h) (fun _ _ h => hkept h)

/-- Logging leaves what sessions rely on. -/
theorem log_leaves_standing (message : String) :
    Leaves standing (log message : Action Desk C Unit) :=
  leaves_log (fun _ _ => rfl) message

/-- Reporting faults leaves what sessions rely on. -/
theorem reportFaults_leaves_standing :
    Leaves standing (reportFaults source : Action Desk C Unit) :=
  leaves_reportFaults fun _ _ => rfl

/-- What sessions rely on does not depend on what is watched. -/
theorem standing_unwatched : Unwatched standing where
  watchers _ _ := rfl
  trace _ _ := rfl
  watcher d source _ := by
    unfold standing
    rw [gist_modifySource_same (by exact fun _ => rfl)]

/-- Watching leaves what sessions rely on. -/
theorem watchSource_leaves_standing :
    Leaves standing (watchSource source : Action Desk C Unit) :=
  leaves_watchSource standing_unwatched

/-- Asking for an open source leaves what sessions rely on. -/
theorem requireOpen_leaves_standing :
    Leaves standing (requireOpen source : Action Desk C SourceFile) :=
  fun w => requireOpen_ensures (fun _ _ => .refl standing w) fun _ _ _ => .refl standing w

/-! ## Changes of sources -/

/-- A source may change as long as its tree is that of its text, and its listeners may change once
it is closed. -/
theorem modifySource_staysInTouch (hw : w.InTouch) {change : SourceFile → SourceFile}
    {change' : SourceGist → SourceGist} (hgist : ∀ s, (change s).gist = change' s.gist)
    (hparsed : ∀ f, w.host.gist.source? source = some f → f.toPage.Parsed →
      (change' f).toPage.Parsed)
    (hkept : ∀ f, w.host.gist.source? source = some f → (change' f).closed = false →
      f.closed = false ∧ (change' f).listeners = f.listeners)
    (hclosed : ∀ f : SourceGist, f.closed = true → (change' f).closed = true) :
    (modifySource source change : Action Desk C Unit).StaysInTouch w := by
  have hchanged := gist_modifySource hgist source w.host
  refine hw.aside (d := { w.host with sources := w.host.sources.modify source change })
    hw.reliable ?_ rfl rfl ?_
  · rw [hchanged]
    exact hw.orderly.modified hparsed hkept
  · rintro other hshut
    obtain ⟨s, hs, hclosed'⟩ := hshut
    show Shut _ other
    unfold Shut
    rw [List.getElem?_modify, hs]
    by_cases hother : source = other
    · refine ⟨change s, by simp [hother], ?_⟩
      have hpage : (change s).gist.closed = true := by
        rw [hgist]
        exact hclosed s.gist hclosed'
      exact hpage
    · exact ⟨s, by simp [hother], hclosed'⟩

/-- Sessions stay in touch with a source that takes up a text. -/
theorem update_staysInTouch (hw : w.InTouch) (text : String) (saved : Bool) :
    (modifySource source (·.update text saved) : Action Desk C Unit).StaysInTouch w :=
  modifySource_staysInTouch hw (SourceFile.gist_update text saved) (fun _ _ _ => rfl)
    (fun _ _ hopen => ⟨hopen, rfl⟩) (fun _ hclosed => hclosed)

/-- Marking a source as closed does not disturb the sessions. -/
theorem shut_staysInTouch (hw : w.InTouch) :
    (shut source : Action Desk C Unit).StaysInTouch w := by
  have hmarked : ∀ s : SourceFile, ({ s with closed := true } : SourceFile).gist =
      s.gist.paged Page.shut := fun _ => rfl
  unfold shut
  refine (modifySource_staysInTouch hw hmarked (fun _ _ h => h) ?_ fun _ _ => rfl).bind ?_
  · intro f _ hopen
    cases hopen
  intro _ w₁ h₁
  refine ((leaves_replaceWatcher standing_unwatched none).staysInTouch h₁.inTouch).bind ?_
  intro _ w₂ h₂
  refine (leaves_modifyHost fun d => ?_ : Leaves standing _).staysInTouch h₂.inTouch
  unfold standing
  rw [gist_modifySource_same (by exact fun _ => rfl)]

/-- The source with nobody who listens. -/
def unheard (f : SourceGist) : SourceGist := { f with listeners := fun _ => [] }

/-- A closed source may forget who listens to it. -/
theorem forgetListeners_staysInTouch (hw : w.InTouch) (hshut : w.host.Shut source) :
    (forgetListeners source : Action Desk C Unit).StaysInTouch w := by
  have hforgets : ∀ s : SourceFile,
      ({ s with commitListeners := [], destroyListeners := [] } : SourceFile).gist =
        unheard s.gist := SourceFile.gist_forgetting
  refine modifySource_staysInTouch hw hforgets (fun _ _ h => h) ?_ fun _ h => h
  intro f hf hopen
  obtain ⟨s, hs, hclosed⟩ := hshut
  have hthere : w.host.gist.source? source = some s.gist := by
    unfold gist
    simp only [hs, Option.map_some]
  rw [hthere] at hf
  cases hf
  exact absurd hclosed (by rw [show s.closed = false from hopen]; simp)

/-! ## Announcements -/

/-- Sessions stay in touch while a source is looked for. -/
theorem findSource_staysInTouch (hw : w.InTouch) :
    (findSource source : Action Desk C SourceFile).StaysInTouch w :=
  Leaves.staysInTouch leaves_findSource hw

/-- Sessions stay in touch through an announcement, if the listeners of clients see to it. -/
theorem announce_staysInTouch (hrelays : Relays deliver) (htactful : Tactful deliver)
    (hw : w.InTouch) (source : SourceId) (event : Notice) :
    (announce deliver source event).StaysInTouch w := by
  refine (findSource_staysInTouch hw).bind ?_
  intro s w₁ h₁
  refine Action.StaysInTouch.forM _ h₁.inTouch ?_
  intro sub _ w₂ h₂
  refine Action.StaysInTouch.bind (World.StillInTouch.refl h₂.inTouch) ?_
  intro d w₃ h₃
  cases d.subscriptions[sub]? with
  | none => exact .refl h₃.inTouch
  | some s => exact deliver_staysInTouch hrelays htactful h₃.inTouch s.callback

/-! ## Operations -/

/-- Sessions stay in touch through an edit. -/
theorem edit_staysInTouch (hw : w.InTouch) (source : SourceId) (text : String) :
    (edit source text : Action Desk C Unit).StaysInTouch w :=
  (requireOpen_leaves_standing.staysInTouch hw).bind fun _ _ h₁ =>
    update_staysInTouch h₁.inTouch text false

/-- Sessions stay in touch through a commit. -/
theorem commit_staysInTouch (hrelays : Relays deliver) (htactful : Tactful deliver)
    (hw : w.InTouch) (source : SourceId) (text message : String) :
    (do
      modifySource source (·.update text true)
      reportFaults source
      log message
      announce deliver source .commit : Action Desk C Unit).StaysInTouch w := by
  refine (update_staysInTouch hw text true).bind fun _ w₁ h₁ => ?_
  refine (reportFaults_leaves_standing.staysInTouch h₁.inTouch).bind fun _ w₂ h₂ => ?_
  refine ((log_leaves_standing message).staysInTouch h₂.inTouch).bind fun _ w₃ h₃ => ?_
  exact announce_staysInTouch hrelays htactful h₃.inTouch source .commit

/-- The disk may change. -/
theorem disk_stillInTouch (hw : w.InTouch) (disk : Disk) :
    w.StillInTouch (w.onDisk disk) :=
  hw.aside hw.reliable (hw.orderly.congr rfl rfl) rfl rfl fun h => h

/-- Sessions stay in touch while a file is written. -/
theorem writeFile_staysInTouch (hw : w.InTouch) (path text : String) :
    (writeFile path text).StaysInTouch w := by
  unfold Action.StaysInTouch
  rw [writeFile_ensures]
  obtain ⟨result, disk⟩ := w.host.disk.writeText (w.host.disk.resolve path) text
  cases result with
  | ok => exact disk_stillInTouch hw disk
  | error e => exact disk_stillInTouch hw disk

/-- Sessions stay in touch while a text is stored. -/
theorem store_staysInTouch (hrelays : Relays deliver) (htactful : Tactful deliver)
    (hw : w.InTouch) (source : SourceId) : (store deliver source).StaysInTouch w := by
  refine (findSource_staysInTouch hw).bind fun s w₁ h₁ => ?_
  refine (writeFile_staysInTouch h₁.inTouch s.path s.text).bind fun _ w₂ h₂ => ?_
  exact commit_staysInTouch hrelays htactful h₂.inTouch source s.text _

/-- Sessions stay in touch through a save. -/
theorem save_staysInTouch (hrelays : Relays deliver) (htactful : Tactful deliver)
    (hw : w.InTouch) (source : SourceId) (text : Option String) :
    (save deliver source text).StaysInTouch w := by
  refine (requireOpen_leaves_standing.staysInTouch hw).bind fun _ w₁ h₁ => ?_
  cases text with
  | none => exact store_staysInTouch hrelays htactful h₁.inTouch source
  | some text =>
    refine (update_staysInTouch h₁.inTouch text false).bind fun _ w₂ h₂ => ?_
    exact store_staysInTouch hrelays htactful h₂.inTouch source

/-- Closing forgets who listens only once the source counts as closed. -/
theorem close_staysInTouch (hrelays : Relays deliver) (htactful : Tactful deliver)
    (hw : w.InTouch) (source : SourceId) : (close deliver source).StaysInTouch w := by
  unfold close Action.StaysInTouch
  rw [Action.ensures_bind]
  refine findSource_settled (fun s hs => ?_) fun _ => .refl hw
  cases hclosed : s.closed with
  | true =>
    rw [if_pos rfl]
    exact .refl hw
  | false =>
    rw [if_neg Bool.false_ne_true]
    have hmarked : (shut source : Action Desk C Unit).Ensures w
        (fun _ w₁ => w.StillInTouch w₁ ∧ w₁.host.Shut source)
        (fun _ w₁ => w.StillInTouch w₁) := by
      refine ((shut_staysInTouch hw).and (shut_ensures (E := fun _ _ => True) hs fun trace => ?_
        )).mono (fun _ _ h => h) (fun _ _ h => h.1)
      exact ⟨s.shut, by simp [hs], rfl⟩
    refine Action.Ensures.bind hmarked ?_ (fun _ _ h => h)
    rintro _ w₁ ⟨h₁, hshut₁⟩
    have hrest : (do
        log ("Closed " ++ s.name ++ ".")
        announce deliver source .destroy
        forgetListeners source : Action Desk C Unit).StaysInTouch w₁ := by
      refine ((log_leaves_standing _).staysInTouch h₁.inTouch).bind fun _ w₂ h₂ => ?_
      refine (announce_staysInTouch hrelays htactful h₂.inTouch source .destroy).bind
        fun _ w₃ h₃ => ?_
      exact forgetListeners_staysInTouch h₃.inTouch (h₃.shut (h₂.shut hshut₁))
    exact hrest.mono (fun _ _ h => h₁.trans h) (fun _ _ h => h₁.trans h)

/-- Sessions stay in touch while a file is read again. -/
theorem reload_staysInTouch (hrelays : Relays deliver) (htactful : Tactful deliver)
    (hw : w.InTouch) (source : SourceId) : (reload deliver source).StaysInTouch w := by
  refine (findSource_staysInTouch hw).bind fun s w₁ h₁ => ?_
  refine Action.StaysInTouch.bind (World.StillInTouch.refl h₁.inTouch) fun d w₂ h₂ => ?_
  dsimp only
  cases d.disk.readText (d.disk.resolve s.path) with
  | error e =>
    dsimp only
    split
    · exact close_staysInTouch hrelays htactful h₂.inTouch source
    · exact (log_leaves_standing _).staysInTouch h₂.inTouch
  | ok text =>
    dsimp only
    split
    · exact .refl h₂.inTouch
    · exact commit_staysInTouch hrelays htactful h₂.inTouch source text _

/-- Sessions stay in touch through a report about a file. -/
theorem fileEvent_staysInTouch (hrelays : Relays deliver) (htactful : Tactful deliver)
    (hw : w.InTouch) (source : SourceId) (renamed : Bool) :
    (fileEvent deliver source renamed).StaysInTouch w := by
  refine (findSource_staysInTouch hw).bind fun s w₁ h₁ => ?_
  split
  · exact .refl h₁.inTouch
  split
  · refine (watchSource_leaves_standing.staysInTouch h₁.inTouch).attempt.bind fun r w₂ h₂ => ?_
    cases r with
    | ok _ => exact reload_staysInTouch hrelays htactful h₂.inTouch source
    | error e =>
      refine ((log_leaves_standing _).staysInTouch h₂.inTouch).bind fun _ w₃ h₃ => ?_
      exact close_staysInTouch hrelays htactful h₃.inTouch source
  · exact reload_staysInTouch hrelays htactful h₁.inTouch source

/-- Sessions stay in touch through the failure of a watcher. -/
theorem watcherFailed_staysInTouch (hrelays : Relays deliver) (htactful : Tactful deliver)
    (hw : w.InTouch) (source : SourceId) (message : String) :
    (watcherFailed deliver source message).StaysInTouch w := by
  refine (findSource_staysInTouch hw).bind fun s w₁ h₁ => ?_
  refine ((log_leaves_standing _).staysInTouch h₁.inTouch).bind fun _ w₂ h₂ => ?_
  exact close_staysInTouch hrelays htactful h₂.inTouch source

/-- A source with its first text has no listeners yet. -/
theorem addSource_stillInTouch (hw : w.InTouch) (path text : String) :
    w.StillInTouch (w.beside { w.host with
      sources := (w.host.sources ++ [({ path := path } : SourceFile)]).modify w.host.sources.length
        (·.update text true) } w.client) := by
  refine hw.aside hw.reliable ?_ rfl rfl ?_
  · rw [gist_addSource_update]
    exact hw.orderly.added (gist_source?_length w.host) (fun _ => rfl) rfl
  · rintro other ⟨s, hs, hclosed⟩
    have hlt : other < w.host.sources.length := (List.getElem?_eq_some_iff.1 hs).1
    refine ⟨s, ?_, hclosed⟩
    rw [List.getElem?_modify_ne _ _ (Nat.ne_of_gt hlt), List.getElem?_append_left hlt, hs]

/-- Sessions stay in touch while a file is opened. -/
theorem openFile_staysInTouch (hw : w.InTouch) (name : String) :
    (openFile name : Action Desk C SourceId).StaysInTouch w := by
  refine openFile_ensures name (fun _ => .refl hw) fun text _ => ?_
  have hrest : ∀ id : SourceId, Leaves standing (do
      reportFaults id
      if w.host.watching then watchSource id
      log ("Opened " ++ (← findSource id).name ++ ".")
      return id : Action Desk C SourceId) := by
    intro id
    have hlog : Leaves standing (do
        log ("Opened " ++ (← findSource id).name ++ ".")
        return id : Action Desk C SourceId) :=
      leaves_findSource.bind fun _ => (log_leaves_standing _).bind fun _ => leaves_pure _
    refine reportFaults_leaves_standing.bind fun _ => ?_
    cases w.host.watching with
    | false => exact hlog
    | true => exact watchSource_leaves_standing.bind fun _ => hlog
  have hadded := addSource_stillInTouch hw (w.host.disk.resolve name).text text
  exact ((hrest w.host.sources.length).staysInTouch hadded.inTouch).mono
    (fun _ _ h => hadded.trans h) (fun _ _ h => hadded.trans h)

/-! ## Clients who listen -/

/-- A client begins to listen to a source. -/
theorem subscribe_staysInTouch (hw : w.InTouch) (hthere : (w.host.sources[source]?).isSome)
    (event : Notice) (listener : Nat) :
    (subscribe source event (.client listener) : Action Desk C SubscriptionId).StaysInTouch w := by
  refine (host_honours.subscribe source event (.client listener) w hw.reliable).mono ?_ ?_
  · rintro sub _ ⟨d, c, rfl, hreliable, hcall⟩
    obtain ⟨hnew, hbooks⟩ := terms_keep_books.subscribed hcall
    have hgist : d.gist = w.host.gist.subscribed source event (.client listener) := hcall.2
    have hsource : (w.host.gist.source? source).isSome := by
      unfold gist
      rw [Option.isSome_map]
      exact hthere
    refine ⟨⟨hreliable, ?_, ?_⟩, ?_, fun h => ?_⟩
    · rw [World.beside_host, hgist]
      exact hw.orderly.subscribed hsource event _
    · rw [World.beside_host, show d.gist.books = _ from hbooks]
      exact hw.holds.joined hnew event listener
    · have hadded : d.gist.callbacks = w.host.gist.callbacks ++ [.client listener] := by
        rw [hgist]
        simp [Gist.subscribed, Gist.callbacks]
      rw [World.beside_host, hadded]
      exact List.prefix_append _ _
    · rw [World.beside_host, shut_iff_page, hgist, Gist.page?_subscribed]
      exact shut_iff_page.1 h
  · rintro e _ ⟨d, c, rfl, -, hnever, -⟩
    cases hnever

/-- A client stops listening. -/
theorem unsubscribe_staysInTouch (hw : w.InTouch) {sub : SubscriptionId}
    (hclient : ∀ s, w.host.subscriptions[sub]? = some s →
      ∃ listener, s.callback = .client listener) :
    (unsubscribe sub : Action Desk C Unit).StaysInTouch w := by
  have hnever : ∀ {source event id event'}, w.host.gist.books.subscribers sub ≠
      some ⟨source, event, .session id event'⟩ := by
    intro source event id event' hserving
    obtain ⟨s, hs, hforce⟩ := Option.bind_eq_some_iff.1 hserving
    obtain ⟨listener, hcallback⟩ := hclient s hs
    split at hforce
    · cases hforce
    · simp [hcallback] at hforce
  have hafter : ∀ {r d c}, d.Reliable → terms.unsubscribe sub w.host r d →
      w.StillInTouch (w.beside d c) := by
    intro r d c hreliable hcall
    have hbooks := (terms_keep_books.unsubscribe hcall).2
    have hholds : Holds w.holding? w.Bound d.gist.books := by
      rw [show d.gist.books = _ from hbooks]
      exact hw.holds.left hnever
    obtain ⟨-, ⟨s, hs, hended, hgist⟩ | ⟨-, hgist⟩⟩ := hcall
    · refine ⟨⟨hreliable, ?_, hholds⟩, ?_, fun h => ?_⟩
      · rw [World.beside_host, hgist]
        exact hw.orderly.unsubscribed hs hended
      · exact prefix_of_callbacks hgist (Gist.callbacks_unsubscribed _ _ _)
      · rw [World.beside_host, shut_iff_page, hgist, Gist.page?_unsubscribed]
        exact shut_iff_page.1 h
    · exact .beside hw hreliable hgist
  refine (host_honours.unsubscribe sub w hw.reliable).mono ?_ ?_
  · rintro _ _ ⟨d, c, rfl, hreliable, hcall⟩
    exact hafter hreliable hcall
  · rintro e _ ⟨d, c, rfl, hreliable, hcall⟩
    exact hafter hreliable hcall

end Desk

/-! ## Moves -/

namespace DeskMove

/-- Clients listen to sources that exist, and do not end subscriptions of sessions. -/
def Fair (w : World Desk C) : DeskMove → Prop
  | .listen source _ _ => (w.host.sources[source]?).isSome
  | .unlisten sub =>
    ∀ s, w.host.subscriptions[sub]? = some s → ∃ listener, s.callback = .client listener
  | _ => True

/-- Sessions stay in touch through what a watcher says. -/
theorem fromWatcher_staysInTouch (hw : w.InTouch) (watcher : WatcherId)
    {say : SourceId → Action Desk C Unit} (hsay : ∀ source, (say source).StaysInTouch w) :
    (fromWatcher watcher say).StaysInTouch w := by
  unfold fromWatcher Action.StaysInTouch
  rw [Action.ensures_bind, Action.ensures_host]
  cases w.host.watchers[watcher]? with
  | none => exact .refl hw
  | some t => exact hsay t.source

/-- Whatever happens, and however it ends, the sessions stay in touch. -/
theorem run_staysInTouch (hrelays : Desk.Relays deliver) (htactful : Desk.Tactful deliver)
    (hw : w.InTouch) {m : DeskMove} (hfair : m.Fair w) : (m.run deliver).StaysInTouch w := by
  cases m with
  | openFile name => exact (Desk.openFile_staysInTouch hw name).bind fun _ _ h₁ => .refl h₁.inTouch
  | edit source text => exact Desk.edit_staysInTouch hw source text
  | save source text => exact Desk.save_staysInTouch hrelays htactful hw source text
  | close source => exact Desk.close_staysInTouch hrelays htactful hw source
  | writeFile path bytes => exact Desk.disk_stillInTouch hw _
  | removeFile path => exact Desk.disk_stillInTouch hw _
  | setObstacles obstacles => exact Desk.disk_stillInTouch hw _
  | setShortages shortages => exact Desk.disk_stillInTouch hw _
  | report watcher renamed =>
    exact fromWatcher_staysInTouch hw watcher fun source =>
      Desk.fileEvent_staysInTouch hrelays htactful hw source renamed
  | breakDown watcher message =>
    exact fromWatcher_staysInTouch hw watcher fun source =>
      Desk.watcherFailed_staysInTouch hrelays htactful hw source message
  | listen source event listener =>
    exact (Desk.subscribe_staysInTouch hw hfair event listener).bind
      fun _ _ h₁ => .refl h₁.inTouch
  | unlisten sub => exact Desk.unsubscribe_staysInTouch hw hfair
  | session m => exact m.run_staysInTouch hw

end DeskMove

/-! ## Runs -/

/-- The worlds that fair moves lead to, also while something is announced. -/
inductive Desk.Ventures (deliver : Callback → Action Desk C Unit) :
    World Desk C → World Desk C → Prop where
  | start (w : World Desk C) : Desk.Ventures deliver w w
  | move {w w' : World Desk C} (before : Desk.Ventures deliver w w') (m : DeskMove)
      (fair : m.Fair w') : Desk.Ventures deliver w (m.after deliver w')
  | client {w w' : World Desk C} (before : Desk.Ventures deliver w w') (c : C) :
      Desk.Ventures deliver w (w'.beside w'.host c)

/-- A run keeps the sessions in touch. -/
theorem Desk.Ventures.stillInTouch (hrelays : Relays deliver) (htactful : Tactful deliver)
    (hw : w.InTouch) (ventures : Ventures deliver w w') : w.StillInTouch w' := by
  induction ventures with
  | start => exact .refl hw
  | move _ m fair ih =>
    exact ih.trans (Action.Ensures.outcome (P := fun _ w' => World.StillInTouch _ w')
      (m.run_staysInTouch hrelays htactful ih.inTouch fair))
  | client _ c ih => exact ih.trans (.beside ih.inTouch ih.inTouch.reliable rfl)

/-- Listeners of clients that do what clients may do, and then return or fail, are tactful. -/
theorem Desk.Tactful.of_ventures {inner : Callback → Action Desk C Unit} (hrelays : Relays inner)
    (htactful : Tactful inner) (hventures : ∀ listener w, (deliver (.client listener)).Ensures w
      (fun _ w' => Ventures inner w w') (fun _ w' => Ventures inner w w')) : Tactful deliver :=
  fun listener w hw => (hventures listener w).mono
    (fun _ _ h => h.stillInTouch hrelays htactful hw)
    (fun _ _ h => h.stillInTouch hrelays htactful hw)

/-- On a desk where nothing has been made yet, no session is out of touch. -/
theorem World.Untouched.inTouch (hw : w.Untouched) (hreliable : w.host.Reliable) :
    w.InTouch := by
  have hnone : ∀ source, w.host.gist.source? source = none := by
    intro source
    unfold Desk.gist
    simp [hw.sources]
  have hunheard : ∀ sub, Books.serving w.host.gist.subscriptions sub = none := by
    intro sub
    have hsubs : w.host.gist.subscriptions = [] := hw.subscriptions
    simp [Books.serving, hsubs]
  have hidle : ∀ id, w.holding? id = none := fun _ => World.seen_of_empty hw.sessions
  refine ⟨hreliable, ⟨?_, ?_, ?_⟩, ⟨?_, ?_, ?_, ?_⟩⟩
  · intro source page hpage
    rw [Gist.page?, hnone] at hpage
    cases hpage
  · intro source f event hf
    have hthere := (Gist.source?_inUse.1 hf).1
    rw [hnone] at hthere
    cases hthere
  · rintro source event sub ⟨callback, hserving⟩
    rw [hunheard] at hserving
    cases hserving
  · intro id hold held
    rw [hidle] at held
    cases held
  · intro id hold id' hold' held
    rw [hidle] at held
    cases held
  · intro id hold held
    rw [hidle] at held
    cases held
  · intro sub source event id event' hserving
    have hnever : Books.serving w.host.gist.subscriptions sub = _ := hserving
    rw [hunheard] at hnever
    cases hnever

/-- A run leads to the world, from a desk where nothing has been made yet. Neither the output nor
the journal fails. -/
def World.Ventured (w : World Desk C) : Prop :=
  ∃ (deliver : Callback → Action Desk C Unit) (start : World Desk C), Desk.Relays deliver ∧
    Desk.Tactful deliver ∧ start.Untouched ∧ start.host.Reliable ∧ Desk.Ventures deliver start w

/-- In every world that a run leads to, sessions are in touch. -/
theorem World.Ventured.inTouch (hw : w.Ventured) : w.InTouch := by
  obtain ⟨deliver, start, hrelays, htactful, hstart, hreliable, hventures⟩ := hw
  exact (hventures.stillInTouch hrelays htactful (hstart.inTouch hreliable)).inTouch

end

end TreeInspector
