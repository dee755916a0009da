import TreeInspector.Proofs.Desk.Saving

/-!
# What a file event comes to

When a watcher reports that the file of an open source was changed or replaced, the desk looks at
the disk and one of four things happens. The source is closed, if its file is gone or cannot be
watched any more; a message is logged, if the file cannot be read; nothing happens, if the file
holds the text that was saved last; and otherwise the source takes up the text of the file, as it
does when it is saved.
-/

set_option autoImplicit false

namespace TreeInspector

/-- What the disk has to say of a source when its file was changed or replaced. -/
inductive News where
  /-- The file is gone, or it was replaced and cannot be watched anew. -/
  | gone
  /-- The file cannot be read. -/
  | unreadable (e : Failure)
  /-- The file holds the text that was saved last. -/
  | same
  /-- The file holds another text. -/
  | changed (text : String)
  deriving DecidableEq

/-- What the desk finds on the disk. -/
def Desk.news (s : SourceFile) (renamed : Bool) (d : Desk) : News :=
  if renamed && !(d.disk.checkWatch (d.disk.resolve s.path)).isOk then .gone
  else match d.disk.readText (d.disk.resolve s.path) with
    | .error e => if e.isMissingFile then .gone else .unreadable e
    | .ok text => if text = s.saved then .same else .changed text

section

variable {C : Type} {w w' v w₁ : World Desk C} {source : SourceId} {s : SourceFile}

/-- The world after a source that was replaced has got a new watcher. -/
def World.rewatched (source : SourceId) (renamed : Bool) (w : World Desk C) : World Desk C :=
  if renamed then w.beside (w.host.rewatch source) w.client else w

/-- The world with one more message in its log, if the journal makes an entry of it. -/
def World.saying (entry : Option String) (w : World Desk C) : World Desk C :=
  w.beside { w.host with messages := w.host.messages ++ entry.toList } w.client

/-- What the action comes to in `w`: the source is marked as closed, which leads to `w₁`, and then
its end is announced. -/
structure World.Concludes (source : SourceId) (s : SourceFile) (w w₁ : World Desk C)
    (a : (Callback → Action Desk C Unit) → Action Desk C Unit) : Prop where
  shuts : w.Shuts source s w₁
  /-- The subscriptions to the end of the source that are in force are listed, each once. -/
  listens : (s.listeners .destroy).Nodup ∧
    ∀ sub, sub ∈ s.listeners .destroy ↔ w.host.gist.Serves source .destroy sub
  /-- Those who listen are called, each once, until one fails. If none fails, all are then
  forgotten. -/
  calls : ∀ {deliver : Callback → Action Desk C Unit}, Desk.Relays deliver → Desk.Tactful deliver →
    a deliver w = (do
      (w.host.callees s .destroy).forM deliver
      Desk.forgetListeners source : Action Desk C Unit) w₁
  /-- If listeners of clients are careful, only they fail. If none does, no session views the
  source. -/
  settles : ∀ {deliver : Callback → Action Desk C Unit}, Desk.Relays deliver →
    Desk.Careful deliver → (a deliver).Ensures w
      (fun _ w' => w'.host.Shut source ∧
        ∀ {id hold}, w'.holding? id = some hold → hold.source ≠ source)
      (fun e w' => w'.host.Shut source ∧
        Desk.Raises deliver (w.host.callees s .destroy) w₁ e w')

namespace Desk

/-! ## Closing -/

/-- What an action that comes to closing a source does. Nothing that matters to those who listen
has happened before. -/
theorem concludes_of_eq {s' : SourceFile} {a : (Callback → Action Desk C Unit) → Action Desk C Unit}
    (hw : w.InTouch) (hs : w.host.sources[source]? = some s) (hopen : s.closed = false)
    (hv : v.InTouch) (hleft : Left bearing w v) (hs' : v.host.sources[source]? = some s')
    (hsame : s'.shut = s.shut) (hopen' : s'.closed = false)
    (ha : ∀ deliver, a deliver w = close deliver source v) : ∃ w₁, w.Concludes source s w₁ a := by
  obtain ⟨_, w₁, hshut, shuts'⟩ :=
    (shut_log hs' hv.reliable.2 ("Closed " ++ s'.name ++ ".")).exists_ok
  have shuts : w.Shuts source s w₁ := shuts'.of_left hleft hsame
  have hcallees : w.host.callees s .destroy = v.host.callees s' .destroy := by
    rw [← shuts.callees_eq, ← shuts'.callees_eq, hsame]
  have hw₁ : w₁.InTouch := by
    have hstays : (do
        shut source
        log ("Closed " ++ s'.name ++ ".") : Action Desk C Unit).StaysInTouch v :=
      (shut_staysInTouch hv).bind fun _ _ h => (log_leaves_standing _).staysInTouch h.inTouch
    exact ((Action.ensures_of_ok hshut).1 hstays).inTouch
  have hmade : ∀ sub ∈ s'.shut.listeners .destroy, sub < w₁.host.subscriptions.length := by
    have hsubscriptions : w₁.host.subscriptions = v.host.subscriptions :=
      congrArg Roll.subscriptions shuts'.roll
    rw [hsubscriptions]
    exact hv.made hs' hopen' .destroy
  have hcalls : ∀ {deliver : Callback → Action Desk C Unit}, Relays deliver → Tactful deliver →
      a deliver w = (do
        (w.host.callees s .destroy).forM deliver
        forgetListeners source : Action Desk C Unit) w₁ := by
    intro deliver hrelays htactful
    rw [ha, close_of_shut hs' hopen' hshut]
    refine Action.bind_of_eq ?_ _
    rw [announce_eq_forM hrelays htactful hw₁ shuts'.marked hmade, shuts'.callees_eq, hcallees]
  refine ⟨w₁, shuts, hw.listeners hs hopen .destroy, hcalls, ?_⟩
  intro deliver hrelays hcareful
  have hholding : w₁.holding? = w.holding? := World.seen_of_sessions shuts.sessions
  have hcallees₁ : ∀ {id event}, .session id event ∈ w.host.callees s .destroy →
      event = .destroy ∧ w₁.Bound id source := by
    intro id event hcallee
    obtain ⟨hevent, t, ht, hsource⟩ := hw.called hs hopen hcallee
    exact ⟨hevent, t, by rwa [shuts.sessions], hsource⟩
  have hclosed : ∀ {w₂ : World Desk C}, SameGround w₁ w₂ → w₂.host.Shut source := fun hground =>
    (Shut.of_ground hground source).2 ⟨_, shuts.marked, rfl⟩
  have hround := round_destroy hrelays hcareful hw₁ (page_of_source shuts.marked) hcallees₁
  unfold Action.Ensures
  rw [hcalls hrelays hcareful.tactful]
  refine Action.Ensures.bind hround ?_ ?_
  · rintro _ w₂ h₂
    obtain ⟨s₂, hs₂, hclosed₂⟩ := hclosed h₂.ground
    refine ⟨⟨{ s₂ with commitListeners := [], destroyListeners := [] }, ?_, hclosed₂⟩, ?_⟩
    · show (w₂.host.sources.modify source _)[source]? = _
      rw [List.getElem?_modify_eq, hs₂]
      rfl
    · refine fun held => h₂.unviewed (fun held₁ hsource => ?_) held
      exact hw.calls hs hopen (hholding ▸ held₁) hsource .destroy
  · rintro e w₂ ⟨hraises, h₂⟩
    exact ⟨hclosed h₂.ground, hraises⟩

/-! ## Watching and reading -/

/-- A source that was rewatched differs in its watcher at most. -/
theorem source_rewatched (hs : w.host.sources[source]? = some s) (renamed : Bool) :
    ∃ watcher, (w.rewatched source renamed).host.sources[source]? =
      some { s with watcher := watcher } := by
  cases renamed with
  | false => exact ⟨s.watcher, hs⟩
  | true => exact source_rewatch hs

/-- Rewatching changes nothing but what is watched. -/
theorem unwatched_rewatched (renamed : Bool) :
    (w.rewatched source renamed).host.unwatched source = w.host.unwatched source := by
  cases renamed with
  | false => rfl
  | true => exact rewatch_unwatched source w.host

/-- Rewatching does not change the disk. -/
theorem disk_rewatched (renamed : Bool) :
    (w.rewatched source renamed).host.disk = w.host.disk := by
  have hsame : _ = (w.host.unwatched source).disk :=
    congrArg Desk.disk (unwatched_rewatched renamed)
  exact hsame

/-- Rewatching does not change how the journal takes messages. -/
theorem journal_rewatched (renamed : Bool) :
    (w.rewatched source renamed).host.journal = w.host.journal := by
  have hsame : _ = (w.host.unwatched source).journal :=
    congrArg Desk.journal (unwatched_rewatched renamed)
  exact hsame

/-- Watching an open source whose file can be watched renews its watcher. -/
theorem watchSource_eq (hs : w.host.sources[source]? = some s) (hopen : s.closed = false)
    (hcheck : (w.host.disk.checkWatch (w.host.disk.resolve s.path)).isOk = true) :
    (watchSource source : Action Desk C Unit) w = .ok () (w.rewatched source true) := by
  have hends : (watchSource source : Action Desk C Unit).EndsWell w
      fun _ w' => w' = w.rewatched source true := by
    refine watchSource_renews hs (fun _ hrefused => ?_) fun _ => ?_
    · rw [hcheck] at hrefused
      cases hrefused
    · show _ = w.beside (w.host.rewatch source) w.client
      rw [rewatch_of_open hs hopen]
  obtain ⟨_, _, hr, rfl⟩ := Action.Ensures.exists_ok hends
  exact hr

/-- A file that was replaced and cannot be watched anew makes the desk give its source up. -/
theorem fileEvent_of_unwatchable (hs : w.host.sources[source]? = some s) (hopen : s.closed = false)
    (hcheck : (w.host.disk.checkWatch (w.host.disk.resolve s.path)).isOk = false) :
    ∃ message, ∀ deliver : Callback → Action Desk C Unit, fileEvent deliver source true w = (do
      log message
      close deliver source : Action Desk C Unit) w := by
  have hrefused : (watchSource source : Action Desk C Unit).Ensures w (fun _ _ => False)
      fun _ w' => w' = w := by
    refine watchSource_renews hs (fun _ _ => rfl) fun hok => ?_
    rw [hcheck] at hok
    cases hok
  obtain ⟨e, _, hr⟩ := hrefused.exists_error
  obtain rfl := (Action.ensures_of_error hr).1 hrefused
  refine ⟨"Stopped watching " ++ s.name ++ ": " ++ e.message, fun deliver => ?_⟩
  unfold fileEvent
  rw [Action.bind_of_ok (findSource_eq hs), hopen]
  exact Action.bind_of_ok (Action.attempt_of_error hr) _

/-- In all other cases the file is read. -/
theorem fileEvent_of_watchable (hs : w.host.sources[source]? = some s) (hopen : s.closed = false)
    {renamed : Bool} (hcheck : renamed = true →
      (w.host.disk.checkWatch (w.host.disk.resolve s.path)).isOk = true)
    (deliver : Callback → Action Desk C Unit) :
    fileEvent deliver source renamed w = reload deliver source (w.rewatched source renamed) := by
  unfold fileEvent
  rw [Action.bind_of_ok (findSource_eq hs), hopen]
  cases renamed with
  | false => rfl
  | true => exact Action.bind_of_ok (Action.attempt_of_ok (watchSource_eq hs hopen (hcheck rfl))) _

/-- A watcher that is renewed does not matter to those who listen. -/
theorem rewatched_spares (hw : w.InTouch) (hs : w.host.sources[source]? = some s)
    (hopen : s.closed = false) {renamed : Bool} (hcheck : renamed = true →
      (w.host.disk.checkWatch (w.host.disk.resolve s.path)).isOk = true) :
    Left bearing w (w.rewatched source renamed) ∧ (w.rewatched source renamed).InTouch := by
  cases renamed with
  | false => exact ⟨.refl bearing w, hw⟩
  | true =>
    have hwatched := watchSource_eq hs hopen (hcheck rfl)
    exact ⟨(Action.ensures_of_ok hwatched).1 (watchSource_leaves w),
      ((Action.ensures_of_ok hwatched).1 (watchSource_leaves_standing.staysInTouch hw)).inTouch⟩

/-- If the file can be watched anew, the report makes the desk read it. -/
theorem fileEvent_reads (hs : w.host.sources[source]? = some s) (hopen : s.closed = false)
    {renamed : Bool} (hcheck : renamed = true →
      (w.host.disk.checkWatch (w.host.disk.resolve s.path)).isOk = true)
    (deliver : Callback → Action Desk C Unit) :
    fileEvent deliver source renamed w =
      (match w.host.disk.readText (w.host.disk.resolve s.path) with
      | .error e =>
        if e.isMissingFile then close deliver source
        else log ("Unable to reload " ++ s.name ++ ": " ++ e.message)
      | .ok text => do
        if text = s.saved then return
        modifySource source (·.update text true)
        reportFaults source
        log (s.name ++ " changed on disk.")
        announce deliver source .commit : Action Desk C Unit) (w.rewatched source renamed) := by
  obtain ⟨watcher, hs'⟩ := source_rewatched hs renamed
  rw [fileEvent_of_watchable hs hopen hcheck, reload_eq hs', disk_rewatched]
  rfl

/-- A message in the log adds the entry that the journal makes of it, and nothing else. -/
theorem log_eq {message : String} {entry : Option String}
    (hentry : w.host.journal.entry? message = .ok entry) :
    (log message : Action Desk C Unit) w = .ok () (w.saying entry) := by
  unfold log
  rw [Action.bind_host, hentry]
  cases entry with
  | none =>
    unfold World.saying
    rw [Option.toList_none, List.append_nil]
    rfl
  | some entry => rfl

/-! ## The outcome -/

/-- A report that the file was replaced by one that cannot be watched concludes the source. -/
theorem concludes_of_unwatchable (hw : w.InTouch) (hs : w.host.sources[source]? = some s)
    (hopen : s.closed = false)
    (hcheck : (w.host.disk.checkWatch (w.host.disk.resolve s.path)).isOk = false) :
    ∃ w₁, w.Concludes source s w₁ fun deliver => fileEvent deliver source true := by
  obtain ⟨message, hcloses⟩ := fileEvent_of_unwatchable hs hopen hcheck
  obtain ⟨entry, hentry⟩ := hw.reliable.2 message
  have hlog := log_eq hentry
  have hstays := (log_leaves_standing message).staysInTouch hw
  refine concludes_of_eq hw hs hopen ((Action.ensures_of_ok hlog).1 hstays).inTouch
    ((Action.ensures_of_ok hlog).1 (log_leaves message w)) hs rfl hopen fun deliver => ?_
  exact (hcloses deliver).trans (Action.bind_of_ok hlog _)

/-- A report about a file that is gone concludes the source. -/
theorem concludes_of_missing (hw : w.InTouch) (hs : w.host.sources[source]? = some s)
    (hopen : s.closed = false) {renamed : Bool} (hcheck : renamed = true →
      (w.host.disk.checkWatch (w.host.disk.resolve s.path)).isOk = true) {e : Failure}
    (hread : w.host.disk.readText (w.host.disk.resolve s.path) = .error e)
    (hmissing : e.isMissingFile = true) :
    ∃ w₁, w.Concludes source s w₁ fun deliver => fileEvent deliver source renamed := by
  obtain ⟨hleft, hv⟩ := rewatched_spares hw hs hopen hcheck
  obtain ⟨watcher, hs'⟩ := source_rewatched hs renamed
  refine concludes_of_eq hw hs hopen hv hleft hs' rfl hopen fun deliver => ?_
  show fileEvent deliver source renamed w = _
  rw [fileEvent_reads hs hopen hcheck, hread]
  dsimp only
  rw [if_pos hmissing]

/-- One of four things comes of a file event, according to what the disk has to say. In all but the
first the source is as it was but for its watcher, or takes up the text of the file. What is
announced is announced to all who listen, in every world that a run reaches. -/
theorem fileEvent_outcome (hs : w.host.sources[source]? = some s) (hopen : s.closed = false)
    (renamed : Bool) :
    (w.rewatched source renamed).host.unwatched source = w.host.unwatched source ∧
    match w.host.news s renamed with
    | .gone =>
      w.Ventured → ∃ w₁, w.Concludes source s w₁ fun deliver => fileEvent deliver source renamed
    | .unreadable e =>
      w.host.Talks → ∃ entry,
        w.host.journal.entry? ("Unable to reload " ++ s.name ++ ": " ++ e.message) = .ok entry ∧
        ∀ deliver, fileEvent deliver source renamed w =
          .ok () ((w.rewatched source renamed).saying entry)
    | .same =>
      w.host.disk.readText (w.host.disk.resolve s.path) = .ok s.saved ∧
      ∀ deliver, fileEvent deliver source renamed w = .ok () (w.rewatched source renamed)
    | .changed text =>
      w.host.disk.readText (w.host.disk.resolve s.path) = .ok text ∧
      (∀ deliver, fileEvent deliver source renamed w = (do
        reportFaults source
        log (s.name ++ " changed on disk.")
        announce deliver source .commit : Action Desk C Unit)
          ((w.rewatched source renamed).takingUp source text
            (w.rewatched source renamed).host.messages)) ∧
      (w.Ventured → ∃ w₁, w.Commits source s text (w.rewatched source renamed) w₁
        fun deliver => fileEvent deliver source renamed) := by
  refine ⟨unwatched_rewatched renamed, ?_⟩
  cases hrefused : renamed && !(w.host.disk.checkWatch (w.host.disk.resolve s.path)).isOk with
  | true =>
    have hnews : w.host.news s renamed = .gone := by
      unfold news
      rw [hrefused, if_pos rfl]
    rw [hnews]
    rw [Bool.and_eq_true, Bool.not_eq_true'] at hrefused
    obtain ⟨rfl, hcheck⟩ := hrefused
    exact fun hw => concludes_of_unwatchable hw.inTouch hs hopen hcheck
  | false =>
    have hcheck : renamed = true →
        (w.host.disk.checkWatch (w.host.disk.resolve s.path)).isOk = true := by
      rintro rfl
      simpa using hrefused
    have hnews : w.host.news s renamed =
        match w.host.disk.readText (w.host.disk.resolve s.path) with
        | .error e => if e.isMissingFile then .gone else .unreadable e
        | .ok text => if text = s.saved then .same else .changed text := by
      unfold news
      rw [hrefused, if_neg Bool.false_ne_true]
    rw [hnews]
    have hreads := fileEvent_reads hs hopen hcheck
    cases hread : w.host.disk.readText (w.host.disk.resolve s.path) with
    | error e =>
      simp only [hread] at hreads
      by_cases hmissing : e.isMissingFile = true
      · simp only [hmissing, if_true]
        exact fun hw => concludes_of_missing hw.inTouch hs hopen hcheck hread hmissing
      · simp only [hmissing, Bool.false_eq_true, if_false] at hreads ⊢
        intro htalks
        obtain ⟨entry, hentry⟩ := htalks ("Unable to reload " ++ s.name ++ ": " ++ e.message)
        refine ⟨entry, hentry, fun deliver => (hreads deliver).trans (log_eq ?_)⟩
        rw [journal_rewatched]
        exact hentry
    | ok text =>
      simp only [hread] at hreads
      by_cases htext : text = s.saved
      · simp only [htext, if_true] at hreads ⊢
        exact ⟨trivial, hreads⟩
      · simp only [htext, if_false] at hreads ⊢
        obtain ⟨watcher, hs'⟩ := source_rewatched hs renamed
        refine ⟨trivial, hreads, fun hw => ?_⟩
        obtain ⟨w₁, h⟩ := commits_of_eq (rewatched_spares hw.inTouch hs hopen hcheck).2 hs' hopen
          hreads
        exact ⟨w₁, h.takesUp, h.listens, h.calls, h.settles⟩

end Desk

end

/-! ## A file replaced, removed and changed -/

namespace DeskRun

/-- A client listens to commits of the file, which is watched and shown; one write to the output may
be set to fail. Then something happens to the disk. -/
def watchedBy (listener : Nat) (failing : Option Nat) (m : DeskMove) : World Desk Unit :=
  [DeskMove.openFile "a.json", .listen 0 .commit listener,
    .session (.step (.call (.enable 0 {}))), m].foldl (fun w m => m.after unruly w)
    { watchedFile with host := { watchedFile.host with output := { failing := failing } } }

/-- A fair move on the desk with the watched and shown file is reached by a run. -/
theorem watchedBy_ventured (listener : Nat) {m : DeskMove}
    (hfair : ∀ w : World Desk Unit, m.Fair w) : (watchedBy listener none m).Ventured := by
  have hopened :
      (((DeskMove.openFile "a.json").after unruly watchedFile).host.sources[0]?).isSome := by
    decide +kernel
  have hventures := ((((Desk.Ventures.start watchedFile).move (.openFile "a.json") trivial).move
    (.listen 0 .commit listener) hopened).move (.session (.step (.call (.enable 0 {}))))
      trivial).move m (hfair _)
  exact ⟨unruly, watchedFile, fun _ _ => rfl, unruly_tactful, ⟨rfl, rfl, rfl, rfl, rfl, rfl⟩,
    ⟨rfl, fun _ => ⟨none, rfl⟩⟩, hventures⟩

/-- What is computed of the one source is what the disk has to say of it. -/
theorem exists_news {w : World Desk Unit} {renamed : Bool} {news : News}
    (h : w.host.sources.map (fun s => (s.closed, w.host.news s renamed)) = [(false, news)]) :
    ∃ s, w.host.sources[0]? = some s ∧ s.closed = false ∧ w.host.news s renamed = news := by
  obtain ⟨s, hs, hpair⟩ := List.map_eq_singleton_iff.1 h
  obtain ⟨hopen, hnews⟩ := Prod.mk.inj hpair
  exact ⟨s, by rw [hs]; rfl, hopen, hnews⟩

/-- The file is replaced by one with another text, or removed. -/
theorem replaced_or_removed :
    (∃ s w₁, (watchedBy 1 none (.writeFile "a.json" (Text.Utf8.encode "true"))).Commits 0 s "true"
      ((watchedBy 1 none (.writeFile "a.json" (Text.Utf8.encode "true"))).rewatched 0 true) w₁
        fun deliver => Desk.fileEvent deliver 0 true) ∧
    ∃ s w₁, (watchedBy 1 none (.removeFile "a.json")).Concludes 0 s w₁
      fun deliver => Desk.fileEvent deliver 0 false := by
  constructor
  · generalize hw : watchedBy 1 none (.writeFile "a.json" (Text.Utf8.encode "true")) = w
    have hventured : w.Ventured := hw ▸ watchedBy_ventured 1 fun _ => trivial
    obtain ⟨s, hs, hopen, hnews⟩ : ∃ s, w.host.sources[0]? = some s ∧ s.closed = false ∧
        w.host.news s true = .changed "true" := exists_news (by rw [← hw]; decide +kernel)
    have houtcome := Desk.fileEvent_outcome hs hopen true
    rw [hnews] at houtcome
    obtain ⟨w₁, hcommits⟩ := houtcome.2.2.2 hventured
    exact ⟨s, w₁, hcommits⟩
  · generalize hw : watchedBy 1 none (.removeFile "a.json") = w
    have hventured : w.Ventured := hw ▸ watchedBy_ventured 1 fun _ => trivial
    obtain ⟨s, hs, hopen, hnews⟩ : ∃ s, w.host.sources[0]? = some s ∧ s.closed = false ∧
        w.host.news s false = .gone := exists_news (by rw [← hw]; decide +kernel)
    have houtcome := Desk.fileEvent_outcome hs hopen false
    rw [hnews] at houtcome
    obtain ⟨w₁, hconcludes⟩ := houtcome.2 hventured
    exact ⟨s, w₁, hconcludes⟩

/-- How the report ends that the file has got another text. -/
def reportedTo (listener : Nat) (failing : Option Nat) : Except Failure Unit × World Desk Unit :=
  (Desk.fileEvent unruly 0 false).outcome
    (watchedBy listener failing (.writeFile "a.json" (Text.Utf8.encode "true")))

/-- A listener that fails makes the report fail, and the session behind it keeps what it shows; so
does an output that fails. A listener that edits the source leaves it with another text than the
saved one. -/
theorem changed_and_not_shown :
    ((reportedTo 1 none).1 = .error (.raised "no") ∧
      (reportedTo 1 none).2.host.sources.map (fun s => (s.text, s.saved)) = [("true", "true")] ∧
      shown (reportedTo 1 none).2 = [(.active, ["number:"])]) ∧
    ((reportedTo 2 (some 2)).1 = .error (.raised "write EPIPE") ∧
      shown (reportedTo 2 (some 2)).2 = [(.active, ["number:"])]) ∧
    (reportedTo 0 none).2.host.sources.map (fun s => (s.saved, s.isUnsaved)) =
      [("true", true)] := by
  decide +kernel

end DeskRun

end TreeInspector
