import TreeInspector.Proofs.Desk.Patrol

/-!
# Watchers

A desk that watches has one open watcher for each source that it has handed out and that is open:
the one that it made last for the source. A rename puts a new watcher in the place of the old one,
closing a source stops its watcher, and what is reported by watchers that have been stopped makes no
difference to this. A desk that does not watch never has a watcher.
-/

set_option autoImplicit false

namespace TreeInspector

namespace Desk

section

variable {C α β : Type} {w : World Desk C} {source : SourceId}

/-! ## Actions that watchers do not notice -/

/-- Nothing that matters to the watchers has changed. -/
def SamePatrol (w w' : World Desk C) : Prop :=
  w'.host.patrol = w.host.patrol ∧ w'.host.journal = w.host.journal

/-- Watchers do not notice the action, however it ends. -/
def Unnoticed (a : Action Desk C α) : Prop :=
  ∀ w, w.host.Talks → a.Ensures w (fun _ w' => SamePatrol w w') (fun _ w' => SamePatrol w w')

/-- Nothing that matters to the watchers changes while the ground does not. -/
theorem SamePatrol.of_ground {w' : World Desk C} (h : SameGround w w') : SamePatrol w w' := by
  have hjournal : w'.host.ground.journal = w.host.ground.journal := by rw [h]
  exact ⟨patrol_of_ground h, hjournal⟩

/-- The journal takes all messages as long as nothing that matters to the watchers changes. -/
theorem SamePatrol.talks {w' : World Desk C} (h : SamePatrol w w') (htalks : w.host.Talks) :
    w'.host.Talks := by
  unfold Talks
  rw [h.2]
  exact htalks

/-- Nothing changes for the watchers in one stretch after another. -/
theorem SamePatrol.trans {w₁ w₂ w₃ : World Desk C} (first : SamePatrol w₁ w₂)
    (second : SamePatrol w₂ w₃) : SamePatrol w₁ w₃ :=
  ⟨second.1.trans first.1, second.2.trans first.2⟩

/-- Watchers do not notice two actions if they notice neither. -/
theorem Unnoticed.bind {a : Action Desk C α} {f : α → Action Desk C β} (ha : Unnoticed a)
    (hf : ∀ x, Unnoticed (f x)) : Unnoticed (a >>= f) := by
  intro w htalks
  refine (ha w htalks).bind ?_ (fun _ _ h => h)
  intro x w₁ hsame
  exact (hf x w₁ (hsame.talks htalks)).mono (fun _ _ h => hsame.trans h)
    (fun _ _ h => hsame.trans h)

/-- Watchers do not notice what leaves the ground. -/
theorem Leaves.unnoticed {a : Action Desk C α} (ha : Leaves ground a) : Unnoticed a := by
  intro w _
  refine (ha w).mono ?_ ?_
  · rintro _ _ ⟨d, c, rfl, hd⟩
    exact .of_ground hd
  · rintro _ _ ⟨d, c, rfl, hd⟩
    exact .of_ground hd

/-- Watchers do not notice that a source takes up a text. -/
theorem unnoticed_update (text : String) (saved : Bool) :
    Unnoticed (modifySource source (·.update text saved) : Action Desk C Unit) :=
  fun _ _ => ⟨patrol_modifySource_same (fun _ => rfl) (fun _ => rfl), rfl⟩

/-- Watchers do not notice that listeners are forgotten. -/
theorem unnoticed_forgetListeners :
    Unnoticed (forgetListeners source : Action Desk C Unit) :=
  (grazes_modifySource (by exact fun _ => rfl)).unnoticed

/-- Watchers do not notice that faults are reported. -/
theorem unnoticed_reportFaults : Unnoticed (reportFaults source : Action Desk C Unit) :=
  grazes_reportFaults.unnoticed

/-- Watchers do not notice that an open source is asked for. -/
theorem requireOpen_unnoticed : Unnoticed (requireOpen source : Action Desk C SourceFile) := by
  intro w _
  exact requireOpen_ensures (fun _ _ => ⟨rfl, rfl⟩) fun _ _ _ => ⟨rfl, rfl⟩

variable {deliver : Callback → Action Desk C Unit}

/-- Watchers do not notice an announcement. -/
theorem unnoticed_announce (hrelays : Relays deliver) (hdiscreet : Discreet deliver)
    (event : Notice) : Unnoticed (announce deliver source event) := by
  intro w htalks
  exact (announce_sameGround hrelays hdiscreet htalks source event).mono
    (fun _ _ h => .of_ground h) (fun _ _ h => .of_ground h)

/-- Watchers do not notice an edit. -/
theorem unnoticed_edit (text : String) : Unnoticed (edit source text : Action Desk C Unit) :=
  requireOpen_unnoticed.bind fun _ => unnoticed_update text false

/-- Watchers do not notice a commit. -/
theorem unnoticed_commit (hrelays : Relays deliver) (hdiscreet : Discreet deliver)
    (text message : String) : Unnoticed (do
      modifySource source (·.update text true)
      reportFaults source
      log message
      announce deliver source .commit : Action Desk C Unit) :=
  (unnoticed_update text true).bind fun _ => unnoticed_reportFaults.bind fun _ =>
    (grazes_log message).unnoticed.bind fun _ => unnoticed_announce hrelays hdiscreet .commit

/-- Watchers do not notice that a file is written; what they say of it comes later. -/
theorem unnoticed_writeFile (path text : String) :
    Unnoticed (writeFile path text : Action Desk C Unit) := by
  intro w htalks
  rw [writeFile_ensures]
  obtain ⟨result, disk⟩ := w.host.disk.writeText (w.host.disk.resolve path) text
  cases result with
  | ok => exact ⟨rfl, rfl⟩
  | error e => exact ⟨rfl, rfl⟩

/-- Watchers do not notice that a text is stored. -/
theorem unnoticed_store (hrelays : Relays deliver) (hdiscreet : Discreet deliver) :
    Unnoticed (store deliver source) := by
  refine leaves_findSource.unnoticed.bind fun s => ?_
  refine (unnoticed_writeFile s.path s.text).bind fun _ => ?_
  exact unnoticed_commit hrelays hdiscreet s.text _

/-- Watchers do not notice a save. -/
theorem unnoticed_save (hrelays : Relays deliver) (hdiscreet : Discreet deliver)
    (text : Option String) : Unnoticed (save deliver source text) := by
  refine requireOpen_unnoticed.bind fun _ => ?_
  cases text with
  | none => exact unnoticed_store hrelays hdiscreet
  | some text =>
    exact (unnoticed_update text false).bind fun _ => unnoticed_store hrelays hdiscreet

/-! ## Actions that watchers notice -/

/-- The desk talks, and its watchers guard the sources that were handed out. -/
structure Posted (handed : Set SourceId) (w : World Desk C) : Prop where
  talks : w.host.Talks
  guarded : w.host.patrol.Guarded handed

variable {handed : Set SourceId}

/-- However the action ends, the watchers still guard the sources. -/
def Guards (handed : Set SourceId) (a : Action Desk C α) (w : World Desk C) : Prop :=
  a.Ensures w (fun _ => Posted handed) (fun _ => Posted handed)

/-- Watchers guard the sources as long as nothing that matters to them changes. -/
theorem Posted.same {w' : World Desk C} (hw : Posted handed w) (h : SamePatrol w w') :
    Posted handed w' where
  talks := h.talks hw.talks
  guarded := by
    rw [h.1]
    exact hw.guarded

/-- Watchers still guard the sources after what they do not notice. -/
theorem Unnoticed.guards {a : Action Desk C α} (ha : Unnoticed a) (hw : Posted handed w) :
    Guards handed a w :=
  (ha w hw.talks).mono (fun _ _ h => hw.same h) (fun _ _ h => hw.same h)

/-- Watchers guard the sources through two actions if they do through each. -/
theorem Guards.bind {a : Action Desk C α} {f : α → Action Desk C β} (ha : Guards handed a w)
    (hf : ∀ x w', Posted handed w' → Guards handed (f x) w') : Guards handed (a >>= f) w :=
  Action.Ensures.bind ha (fun x w' hw' => hf x w' hw') (fun _ _ h => h)

/-- Watchers still guard the sources when one is marked as closed. -/
theorem shut_guards (hw : Posted handed w) {s : SourceFile}
    (hs : w.host.sources[source]? = some s) :
    Guards handed (shut source : Action Desk C Unit) w := by
  refine shut_ensures hs fun trace => ⟨hw.talks, ?_⟩
  have hpost : w.host.patrol.post? source = some ⟨s.closed, s.watcher⟩ := by
    simp [patrol, hs]
  have hpatrol : ({ w.host with
      watchers := stopped w.host.watchers s.watcher
      sources := w.host.sources.modify source SourceFile.shut
      trace := trace } : Desk).patrol =
      w.host.patrol.closing source ⟨s.closed, s.watcher⟩ :=
    patrol_modifySource (d := { w.host with watchers := stopped w.host.watchers s.watcher }) hs rfl
  have hguarded := hw.guarded.closing hpost
  rw [← hpatrol] at hguarded
  exact hguarded

/-- An open source that is watched anew is among those that are guarded. -/
theorem watchSource_guards (hw : Posted handed w) {s : SourceFile}
    (hs : w.host.sources[source]? = some s) (hopen : s.closed = false)
    (hwatching : w.host.watching = true) :
    (watchSource source).Ensures w (fun _ => Posted (insert source handed))
      (fun _ w' => w' = w) := by
  refine watchSource_cases hs (fun _ _ => rfl) fun path trace _ => ⟨hw.talks, ?_⟩
  have hpost : w.host.patrol.post? source = some ⟨s.closed, s.watcher⟩ := by
    simp [patrol, hs]
  have hpatrol : ({ w.host with
      watchers := stopped (w.host.watchers ++ [{ path, source }]) s.watcher
      sources := w.host.sources.modify source
        ({ · with watcher := some w.host.watchers.length })
      trace := trace } : Desk).patrol =
      w.host.patrol.renewing source path ⟨s.closed, s.watcher⟩ :=
    patrol_modifySource (d := { w.host with
      watchers := stopped (w.host.watchers ++ [{ path, source }]) s.watcher }) hs rfl
  have hguarded := hw.guarded.renewing hpost hopen hwatching path
  rw [← hpatrol] at hguarded
  exact hguarded

/-- Watchers still guard the sources when one is closed. -/
theorem close_guards (hrelays : Relays deliver) (hdiscreet : Discreet deliver)
    (hw : Posted handed w) (source : SourceId) : Guards handed (close deliver source) w := by
  unfold close Guards
  rw [Action.ensures_bind]
  refine findSource_settled (fun s hs => ?_) (fun _ => hw)
  split
  · exact hw
  refine (shut_guards hw hs).bind ?_
  intro _ w₁ hw₁
  have hrest : Unnoticed (do
      log ("Closed " ++ s.name ++ ".")
      announce deliver source .destroy
      forgetListeners source : Action Desk C Unit) :=
    (grazes_log _).unnoticed.bind fun _ =>
      (unnoticed_announce hrelays hdiscreet .destroy).bind fun _ => unnoticed_forgetListeners
  exact hrest.guards hw₁

/-- Watchers still guard the sources when a file is read again. -/
theorem reload_guards (hrelays : Relays deliver) (hdiscreet : Discreet deliver)
    (hw : Posted handed w) (source : SourceId) : Guards handed (reload deliver source) w := by
  unfold reload Guards
  rw [Action.ensures_bind]
  refine findSource_settled (fun s hs => ?_) (fun _ => hw)
  rw [Action.ensures_bind, Action.ensures_host]
  dsimp only
  cases w.host.disk.readText (w.host.disk.resolve s.path) with
  | error e =>
    dsimp only
    split
    · exact close_guards hrelays hdiscreet hw source
    · exact (grazes_log _).unnoticed.guards hw
  | ok text =>
    dsimp only
    split
    · exact hw
    · exact (unnoticed_commit hrelays hdiscreet text _).guards hw

/-- Watchers still guard the sources after a report about the file of one that was handed out. -/
theorem fileEvent_guards (hrelays : Relays deliver) (hdiscreet : Discreet deliver)
    (hw : Posted handed w) (hmem : source ∈ handed) (hwatching : w.host.watching = true)
    (renamed : Bool) : Guards handed (fileEvent deliver source renamed) w := by
  unfold fileEvent Guards
  rw [Action.ensures_bind]
  refine findSource_settled (fun s hs => ?_) (fun _ => hw)
  cases hclosed : s.closed with
  | true =>
    simp only [if_true]
    exact hw
  | false =>
    simp only [Bool.false_eq_true, if_false]
    split
    · rw [Action.ensures_bind, Action.ensures_attempt]
      refine (watchSource_guards hw hs hclosed hwatching).mono ?_ ?_
      · intro _ w₁ hw₁
        rw [Set.insert_eq_of_mem hmem] at hw₁
        exact reload_guards hrelays hdiscreet hw₁ source
      · rintro e _ rfl
        refine ((grazes_log _).unnoticed.guards hw).bind ?_
        intro _ w₁ hw₁
        exact close_guards hrelays hdiscreet hw₁ source
    · exact reload_guards hrelays hdiscreet hw source

/-- Watchers still guard the sources after one of them has failed. -/
theorem watcherFailed_guards (hrelays : Relays deliver) (hdiscreet : Discreet deliver)
    (hw : Posted handed w) (source : SourceId) (message : String) :
    Guards handed (watcherFailed deliver source message) w := by
  refine (leaves_findSource.unnoticed.guards hw).bind ?_
  intro s w₁ hw₁
  refine ((grazes_log _).unnoticed.guards hw₁).bind ?_
  intro _ w₂ hw₂
  exact close_guards hrelays hdiscreet hw₂ source

/-- A source that is guarded is there, and saying that it was opened does not fail. -/
theorem sayOpened_guards (hw : Posted handed w) (hmem : source ∈ handed)
    {E : Failure → World Desk C → Prop} :
    (do
      log ("Opened " ++ (← findSource source).name ++ ".")
      return source : Action Desk C SourceId).Ensures w
        (fun id w' => id = source ∧ Posted handed w') E := by
  obtain ⟨post, hpost⟩ := hw.guarded.present hmem
  obtain ⟨s, hs, -⟩ := Option.map_eq_some_iff.1 hpost
  rw [Action.ensures_bind, findSource_ensures hs, Action.ensures_bind]
  refine log_of_talks hw.talks _ fun messages => ⟨rfl, hw.same ?_⟩
  exact ⟨rfl, rfl⟩

/-- The desk with a source taken in. -/
def withSource (path text : String) (d : Desk) : Desk :=
  { d with
    sources := (d.sources ++ [({ path := path } : SourceFile)]).modify d.sources.length
      (·.update text true) }

/-- A source that is taken in comes last and has its text. -/
theorem getElem?_withSource (path text : String) (d : Desk) :
    (d.withSource path text).sources[d.sources.length]? =
      some (SourceFile.update text true { path := path }) := by
  unfold withSource
  rw [List.getElem?_modify_eq, List.getElem?_concat_length]
  rfl

/-- A source that is taken in is not watched yet. -/
theorem patrol_withSource (path text : String) (d : Desk) :
    (d.withSource path text).patrol = d.patrol.joining d.sources.length := by
  rw [← patrol_addSource path d]
  exact patrol_modifySource_same
    (d := { d with sources := d.sources ++ [({ path := path } : SourceFile)] })
    (fun _ => rfl) (fun _ => rfl)

/-- A file that is opened is guarded; one that cannot be opened leaves no watcher. -/
theorem openFile_guards (hw : Posted handed w) (name : String) :
    (openFile name).Ensures w (fun id => Posted (insert id handed))
      (fun _ w' => Posted handed w' ∧ w'.host.watchers = w.host.watchers) := by
  refine openFile_ensures name (fun _ => ⟨hw, rfl⟩) fun text _ => ?_
  generalize (w.host.disk.resolve name).text = path
  have hnew : w.host.patrol.post? w.host.sources.length = none := by simp [patrol]
  have hjoined := hw.guarded.joining hnew
  rw [← patrol_withSource path text] at hjoined
  unfold takeIn addSource modifySource
  simp only [Action.ensures_bind, Action.ensures_host, Action.ensures_modifyHost,
    Action.ensures_pure]
  refine reportFaults_ensures (w := w.beside (w.host.withSource path text) w.client)
    (getElem?_withSource path text w.host) hw.talks fun messages => ?_
  have hw₁ : Posted handed
      (w.beside { w.host.withSource path text with messages := messages } w.client) :=
    ⟨hw.talks, hjoined⟩
  -- What is returned is the number that the source got when it was added.
  have hopened : ∀ {w' : World Desk C}, Posted (insert w.host.sources.length handed) w' →
      (do
        log ("Opened " ++ (← findSource w.host.sources.length).name ++ ".")
        return w.host.sources.length : Action Desk C SourceId).Ensures w'
          (fun id => Posted (insert id handed))
          (fun _ w' => Posted handed w' ∧ w'.host.watchers = w.host.watchers) := by
    intro w' hw'
    refine (sayOpened_guards hw' (Set.mem_insert _ _)).mono ?_ (fun _ _ h => h)
    rintro _ w'' ⟨rfl, hw''⟩
    exact hw''
  cases hwatching : w.host.watching with
  | false =>
    have hpost : (w.host.withSource path text).patrol.post? w.host.sources.length =
        some ⟨false, none⟩ := by
      rw [patrol_withSource]
      exact Function.update_self _ _ _
    exact hopened ⟨hw₁.talks, hw₁.guarded.handing hpost hwatching⟩
  | true =>
    refine Action.Ensures.bind (watchSource_guards hw₁ (getElem?_withSource path text w.host) rfl
      hwatching) ?_ ?_
    · intro _ w₂ hw₂
      exact hopened hw₂
    · rintro e _ rfl
      exact ⟨hw₁, rfl⟩

end

end Desk

/-! ## Runs -/

section

variable {C : Type} {deliver : Callback → Action Desk C Unit} {w start : World Desk C}

/-- The source that a move hands out. -/
def DeskMove.handsOut? (w : World Desk C) : DeskMove → Option SourceId
  | .openFile name => ((Desk.openFile name).outcome w).1.toOption
  | _ => none

/-- The worlds that moves lead to, with the sources that were handed out on the way. -/
inductive Desk.HandsOut (deliver : Callback → Action Desk C Unit) (start : World Desk C) :
    World Desk C → Set SourceId → Prop where
  | start : Desk.HandsOut deliver start start ∅
  | move {w : World Desk C} {handed : Set SourceId} (before : Desk.HandsOut deliver start w handed)
      (m : DeskMove) :
      Desk.HandsOut deliver start (m.after deliver w) (handed ∪ {i | m.handsOut? w = some i})

/-- Opening a file hands out the source that is then guarded, or none. -/
theorem DeskMove.openFile_posted {handed : Set SourceId} (hw : Desk.Posted handed w)
    (name : String) :
    Desk.Posted (handed ∪ {i | (DeskMove.openFile name).handsOut? w = some i})
      ((DeskMove.openFile name).after deliver w) := by
  have hopened := Desk.openFile_guards hw name
  unfold Action.Ensures at hopened
  cases hr : Desk.openFile name w with
  | ok id w' =>
    have hhands : (DeskMove.openFile name).handsOut? w = some id := by
      simp only [DeskMove.handsOut?, Action.outcome, hr, Except.toOption]
    have hafter : (DeskMove.openFile name).after deliver w = w' := by
      simp only [DeskMove.after, DeskMove.run, Action.outcome, bind, EStateM.bind, hr]
      rfl
    have hset : handed ∪ {i | some id = some i} = insert id handed := by
      ext i
      simp [eq_comm]
    rw [hhands, hafter, hset]
    simpa only [hr] using hopened
  | error e w' =>
    have hhands : (DeskMove.openFile name).handsOut? w = none := by
      simp only [DeskMove.handsOut?, Action.outcome, hr, Except.toOption]
    have hafter : (DeskMove.openFile name).after deliver w = w' := by
      simp only [DeskMove.after, DeskMove.run, Action.outcome, bind, EStateM.bind, hr]
    have hset : handed ∪ {i | none = some i} = handed := by simp
    rw [hr] at hopened
    rw [hhands, hafter, hset]
    exact hopened.1

/-- A move leaves the sources guarded, with one more if it hands one out. -/
theorem DeskMove.after_posted (hrelays : Desk.Relays deliver) (hdiscreet : Desk.Discreet deliver)
    {handed : Set SourceId} (hw : Desk.Posted handed w) (m : DeskMove) :
    Desk.Posted (handed ∪ {i | m.handsOut? w = some i}) (m.after deliver w) := by
  have hnone : m.handsOut? w = none → Desk.Posted handed (m.after deliver w) →
      Desk.Posted (handed ∪ {i | m.handsOut? w = some i}) (m.after deliver w) := by
    intro hnone hposted
    have hsame : handed ∪ {i | m.handsOut? w = some i} = handed := by simp [hnone]
    rw [hsame]
    exact hposted
  have hguards : m.handsOut? w = none → Desk.Guards handed (m.run deliver) w →
      Desk.Posted (handed ∪ {i | m.handsOut? w = some i}) (m.after deliver w) := by
    intro hno hguards
    exact hnone hno (Action.Ensures.outcome (P := fun _ w' => Desk.Posted handed w') hguards)
  cases m with
  | openFile name => exact DeskMove.openFile_posted hw name
  | edit source text => exact hguards rfl ((Desk.unnoticed_edit text).guards hw)
  | save source text => exact hguards rfl ((Desk.unnoticed_save hrelays hdiscreet text).guards hw)
  | close source => exact hguards rfl (Desk.close_guards hrelays hdiscreet hw source)
  | writeFile path bytes => exact hguards rfl (hw.same ⟨rfl, rfl⟩)
  | removeFile path => exact hguards rfl (hw.same ⟨rfl, rfl⟩)
  | setObstacles obstacles => exact hguards rfl (hw.same ⟨rfl, rfl⟩)
  | setShortages shortages => exact hguards rfl (hw.same ⟨rfl, rfl⟩)
  | report watcher renamed =>
    refine hguards rfl ?_
    unfold DeskMove.run DeskMove.fromWatcher Desk.Guards
    rw [Action.ensures_bind, Action.ensures_host]
    cases ht : w.host.watchers[watcher]? with
    | none => exact hw
    | some t =>
      obtain ⟨hmem, hwatching⟩ := hw.guarded.owned ⟨t, ht, rfl⟩
      exact Desk.fileEvent_guards hrelays hdiscreet hw hmem hwatching renamed
  | breakDown watcher message =>
    refine hguards rfl ?_
    unfold DeskMove.run DeskMove.fromWatcher Desk.Guards
    rw [Action.ensures_bind, Action.ensures_host]
    cases w.host.watchers[watcher]? with
    | none => exact hw
    | some t => exact Desk.watcherFailed_guards hrelays hdiscreet hw t.source message
  | listen source event listener =>
    exact hguards rfl (((Desk.grazes_subscribe event (.client listener)).bind fun _ =>
      Desk.leaves_pure _).unnoticed.guards hw)
  | unlisten sub => exact hguards rfl ((Desk.grazes_unsubscribe sub).unnoticed.guards hw)
  | session m => exact hnone rfl (hw.same (.of_ground (Desk.move_sameGround hw.talks m)))

/-- Nothing is guarded before anything has been made. -/
theorem World.Untouched.posted (hw : w.Untouched) (htalks : w.host.Talks) :
    Desk.Posted ∅ w := by
  have hnoPost : ∀ {source post}, w.host.patrol.post? source ≠ some post := by
    intro source post
    simp [Desk.patrol, hw.sources]
  refine ⟨htalks, ?_, ?_, ?_, ?_, ?_, ?_, ?_⟩
  · intro source hmem
    cases hmem
  · rintro source watcher ⟨t, ht, -⟩
    simp [Desk.patrol, hw.watchers] at ht
  · intro source post watcher hpost
    exact (hnoPost hpost).elim
  · intro source post watcher other hpost
    exact (hnoPost hpost).elim
  · intro source post other hpost
    exact (hnoPost hpost).elim
  · intro source post hpost
    exact (hnoPost hpost).elim
  · intro source post hpost
    exact (hnoPost hpost).elim

/-- All along a run, watchers guard the sources that were handed out. -/
theorem Desk.HandsOut.posted {handed : Set SourceId} (hrelays : Desk.Relays deliver)
    (hdiscreet : Desk.Discreet deliver) (hstart : start.Untouched) (htalks : start.host.Talks)
    (run : Desk.HandsOut deliver start w handed) : Desk.Posted handed w := by
  induction run with
  | start => exact hstart.posted htalks
  | move _ m ih => exact m.after_posted hrelays hdiscreet ih

/-- The watchers of a desk match the sources that it has handed out. -/
structure Desk.Accounted (d : Desk) (handed : Set SourceId) : Prop where
  /-- An open source of a desk that watches has one open watcher, the last one made for it. -/
  one : d.watching = true → ∀ i ∈ handed, ∃ s, d.sources[i]? = some s ∧ (s.closed = false →
    ∃ watcher, s.watcher = some watcher ∧ (∀ k, OpenFor d.watchers i k ↔ k = watcher) ∧
      ∀ k, MadeFor d.watchers i k → k ≤ watcher)
  /-- A closed source has no open watcher. -/
  closed : ∀ {i : SourceId} {s}, d.sources[i]? = some s → s.closed = true →
    s.watcher = none ∧ ∀ k, ¬ OpenFor d.watchers i k
  /-- A desk that does not watch never has a watcher. -/
  idle : d.watching = false → d.watchers = []
  /-- All watchers that there are were made for sources that were handed out. -/
  handedOut : ∀ t ∈ d.watchers, t.source ∈ handed

/-- In every world that a run reaches, the watchers match the sources that were handed out, and
opening a file that fails leaves the watchers as they were. -/
theorem Desk.HandsOut.accounted {handed : Set SourceId} (hrelays : Desk.Relays deliver)
    (hdiscreet : Desk.Discreet deliver) (hstart : start.Untouched) (htalks : start.host.Talks)
    (run : Desk.HandsOut deliver start w handed) :
    w.host.Accounted handed ∧ ∀ name e w', Desk.openFile name w = .error e w' →
      w'.host.watchers = w.host.watchers := by
  have hw := run.posted hrelays hdiscreet hstart htalks
  have hmade : ∀ {t}, t ∈ w.host.watchers → t.source ∈ handed ∧ w.host.watching = true := by
    intro t ht
    obtain ⟨k, hk⟩ := List.mem_iff_getElem?.1 ht
    exact hw.guarded.owned ⟨t, hk, rfl⟩
  have hpost : ∀ {i : SourceId} {s}, w.host.sources[i]? = some s →
      w.host.patrol.post? i = some ⟨s.closed, s.watcher⟩ := by
    intro i s hs
    simp [Desk.patrol, hs]
  refine ⟨⟨?_, ?_, ?_, fun t ht => (hmade ht).1⟩, ?_⟩
  · intro hwatching i hi
    obtain ⟨post, hi'⟩ := hw.guarded.present hi
    obtain ⟨s, hs, rfl⟩ := Option.map_eq_some_iff.1 hi'
    refine ⟨s, hs, fun hopen => ?_⟩
    obtain ⟨watcher, hwatcher⟩ := hw.guarded.watched (hpost hs) hi hwatching hopen
    refine ⟨watcher, hwatcher, fun k => ⟨fun hk => ?_, ?_⟩, fun k hk =>
      hw.guarded.last (hpost hs) hwatcher hk⟩
    · exact Option.some.inj ((hw.guarded.only (hpost hs) hk).symm.trans hwatcher)
    · rintro rfl
      exact hw.guarded.held (hpost hs) hwatcher
  · intro i s hs hclosed
    have hnone := hw.guarded.shut (hpost hs) hclosed
    refine ⟨hnone, fun k hk => ?_⟩
    have hsome := hw.guarded.only (hpost hs) hk
    rw [hnone] at hsome
    cases hsome
  · intro hidle
    refine List.eq_nil_iff_forall_not_mem.2 fun t ht => ?_
    have hwatching := (hmade ht).2
    rw [hidle] at hwatching
    cases hwatching
  · intro name e w' hfails
    have hopened := Desk.openFile_guards hw name
    unfold Action.Ensures at hopened
    rw [hfails] at hopened
    exact hopened.2

end

/-! ## A file that is replaced twice -/

namespace DeskRun

/-- A desk with one file on its disk that watches what is opened. -/
def watchedFile : World Desk Unit := { oneFile with host := { oneFile.host with watching := true } }

/-- The file is opened, and the first watcher reports twice that it was replaced. -/
def replacedTwice : World Desk Unit :=
  [DeskMove.openFile "a.json", .report 0 true, .report 0 true].foldl
    (fun w m => m.after relay w) watchedFile

/-- After two reports of a replaced file, of three watchers the last one is open, and all that is
said of watchers holds there. -/
theorem replacedTwice_accounted :
    replacedTwice.host.watchers.map (fun t => (t.source, t.isOpen)) =
      [(0, false), (0, false), (0, true)] ∧
    ∃ handed, 0 ∈ handed ∧ Desk.HandsOut relay watchedFile replacedTwice handed ∧
      replacedTwice.host.Accounted handed := by
  have hstart : Desk.HandsOut relay watchedFile watchedFile ∅ := .start
  have hopened := hstart.move (.openFile "a.json")
  have hhands : (DeskMove.openFile "a.json").handsOut? watchedFile = some 0 := by decide +kernel
  have hreplaced := (hopened.move (.report 0 true)).move (.report 0 true)
  refine ⟨by decide +kernel, _, ?_, hreplaced, ?_⟩
  · exact .inl (.inl (.inr hhands))
  · exact (hreplaced.accounted (fun _ _ => rfl) relay_discreet ⟨rfl, rfl, rfl, rfl, rfl, rfl⟩
      fun _ => ⟨none, rfl⟩).1

end DeskRun

end TreeInspector
