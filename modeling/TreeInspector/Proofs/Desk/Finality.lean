import TreeInspector.Proofs.Desk.Closing
import TreeInspector.Proofs.Desk.Watchers

/-!
# Closing is final

A run in which only sessions of the registry listen keeps its desk in force: nobody views a closed
source, and no closed source has a selection. A source is closed by the moves that close it and by
no others. From then on its record never changes again, and whatever is asked of it is refused.
-/

set_option autoImplicit false

namespace TreeInspector

/-- A source that nobody has listened to yet joins those that are attended to. -/
theorem Roll.Attended.joined {r : Roll} {holdings : SessionId → Option Holding}
    (hr : r.Attended holdings) :
    Roll.Attended { r with listeners := r.listeners ++ [fun _ => []] } holdings := by
  have hold : ∀ {source event id sub}, r.HeardBy source event id sub →
      Roll.HeardBy { r with listeners := r.listeners ++ [fun _ => []] } source event id sub := by
    intro source event id sub h
    obtain ⟨listeners, hthere, hone⟩ := Option.map_eq_some_iff.1 h.only
    have hlt := (List.getElem?_eq_some_iff.1 hthere).1
    refine ⟨?_, h.called⟩
    rw [List.getElem?_append_left hlt]
    exact h.only
  refine ⟨fun held => ?_, ?_⟩
  · obtain ⟨commit, destroy, hsubs, hcommit, hdestroy⟩ := hr.held held
    exact ⟨commit, destroy, hsubs, hold hcommit, hold hdestroy⟩
  · intro source listeners hthere hunseen event
    have h : (r.listeners ++ [fun _ => []])[source]? = some listeners := hthere
    rw [World.getElem?_concat] at h
    split at h
    · cases h
      rfl
    · exact hr.unheard h hunseen event

section

variable {C : Type} {w w' : World Desk C} {source : SourceId} {closing : Option SourceId}
  {deliver : Callback → Action Desk C Unit}

/-! ## Opening a file -/

/-- The desk went on, perhaps with one source more, which is open. -/
structure World.Broadens (w w' : World Desk C) : Prop where
  attended : w'.Attended
  talks : w'.host.Talks
  wanes : w.Wanes w'
  shutters : w'.host.shutters = w.host.shutters ∨ w'.host.shutters = w.host.shutters ++ [none]

namespace Desk

/-- A new source, which nobody listens to, does not change who attends to what. -/
theorem addSource_attended (hw : w.Attended) (path : String) :
    (w.beside { w.host with sources := w.host.sources ++ [{ path := path }] }
      w.client).Attended where
  listens := by
    have hroll : ({ w.host with
        sources := w.host.sources ++ [({ path := path } : SourceFile)] } : Desk).roll =
        { w.host.roll with listeners := w.host.roll.listeners ++ [fun _ => []] } := by
      have hnone : SourceFile.listeners { path := path } = fun _ => [] := by
        funext event
        cases event <;> rfl
      unfold roll
      rw [List.map_append, List.map_singleton, hnone]
    rw [World.beside_host, hroll]
    exact hw.listens.joined
  inCharge := hw.inCharge

/-- Opening a file goes on with one source more at most. -/
theorem openFile_broadens (hw : w.Attended) (htalks : w.host.Talks) (name : String) :
    (openFile name).Ensures w (fun _ w' => w.Broadens w') (fun _ w' => w.Broadens w') := by
  refine openFile_ensures name (fun _ => ⟨hw, htalks, fun held => held, .inl rfl⟩) fun text _ => ?_
  have hadded := addSource_attended hw (w.host.disk.resolve name).text
  have hopen : ∀ path, ({ w.host with
      sources := w.host.sources ++ [({ path := path } : SourceFile)] } : Desk).shutters =
      w.host.shutters ++ [none] := by
    intro path
    unfold shutters
    rw [List.map_append]
    rfl
  -- Once the source is there, the rest does not matter to those who listen.
  have hrest : ∀ id : SourceId, Leaves bearing (do
      modifySource id (·.update text true)
      reportFaults id
      if w.host.watching then watchSource id
      log ("Opened " ++ (← findSource id).name ++ ".")
      return id : Action Desk C SourceId) := by
    intro id
    refine (update_leaves text true).bind fun _ => reportFaults_leaves.bind fun _ => ?_
    have hlog : Leaves bearing (do
        log ("Opened " ++ (← findSource id).name ++ ".")
        return id : Action Desk C SourceId) :=
      leaves_findSource.bind fun _ => (log_leaves _).bind fun _ => leaves_pure _
    cases w.host.watching with
    | false => exact hlog
    | true => exact watchSource_leaves.bind fun _ => hlog
  have hgrown : ∀ {w'}, Left bearing (w.beside { w.host with
      sources := w.host.sources ++ [{ path := (w.host.disk.resolve name).text }] } w.client) w' →
      w.Broadens w' := by
    intro w' h
    have hon := h.goesOn hadded htalks
    exact ⟨hon.attended, hon.talks, hon.wanes, .inr (Eq.trans hon.shutters (hopen _))⟩
  unfold takeIn
  rw [Action.ensures_bind]
  unfold addSource
  rw [Action.ensures_bind, Action.ensures_host, Action.ensures_bind, Action.ensures_modifyHost,
    Action.ensures_pure]
  exact (hrest _ _).mono (fun _ _ h => hgrown h) (fun _ _ h => hgrown h)

end Desk

/-! ## What holds in every world of a run -/

/-- Those who listen are in order, nobody views a closed source, and no closed source has a
selection. -/
structure World.InForce (w : World Desk C) : Prop where
  attended : w.Attended
  talks : w.host.Talks
  viewed : ∀ {id hold}, w.holding? id = some hold → ¬ w.host.Shut hold.source
  bare : ∀ {source : SourceId} {selection}, w.host.shutters[source]? = some (some selection) →
    selection = none

/-- As the desk goes on, the source that it closes counts as closed without a selection, and nothing
else about closed sources changes. -/
theorem World.GoesOn.shutter (h : w.GoesOn closing w') (source : SourceId) :
    w'.host.shutters[source]? = if closing = some source then
      w.host.shutters[source]?.map fun _ => some none else w.host.shutters[source]? := by
  rw [h.shutters]
  cases closing with
  | none => simp
  | some i =>
    rw [Option.elim_some, List.getElem?_modify]
    by_cases hi : i = source
    · simp [hi]
    · simp [hi]

/-- No source is closed but the one that was to be. -/
theorem World.GoesOn.shut_iff (h : w.GoesOn closing w')
    (hthere : closing = some source → (w.host.sources[source]?).isSome) :
    w'.host.Shut source ↔ w.host.Shut source ∨ closing = some source := by
  rw [Desk.shut_iff_shutters, Desk.shut_iff_shutters, h.shutter]
  by_cases hi : closing = some source
  · obtain ⟨s, hs⟩ := Option.isSome_iff_exists.1 (hthere hi)
    simp [hi, Desk.shutters, hs]
  · simp [hi]

/-- What holds of closed sources and listeners holds on as the desk goes on. -/
theorem World.GoesOn.inForce (h : w.GoesOn closing w') (hw : w.InForce) : w'.InForce where
  attended := h.attended
  talks := h.talks
  viewed := by
    intro id hold held hshut
    refine hw.viewed (h.wanes held) ?_
    rw [Desk.shut_iff_shutters] at hshut ⊢
    rw [h.shutter, if_neg fun hi => h.left hi held rfl] at hshut
    exact hshut
  bare := by
    intro source selection hshutter
    rw [h.shutter] at hshutter
    split at hshutter
    · obtain ⟨_, -, hnone⟩ := Option.map_eq_some_iff.1 hshutter
      exact (Option.some.inj hnone).symm
    · exact hw.bare hshutter

/-- Taking in a source does not change which sources are shut. -/
theorem World.Broadens.shut_iff (h : w.Broadens w') (source : SourceId) :
    w'.host.Shut source ↔ w.host.Shut source := by
  rw [Desk.shut_iff_shutters, Desk.shut_iff_shutters]
  rcases h.shutters with hsame | hmore
  · rw [hsame]
  · rw [hmore, World.getElem?_concat]
    by_cases hlast : source = w.host.shutters.length
    · simp [hlast]
    · simp [hlast]

/-- What holds of closed sources and listeners holds on when a source is taken in. -/
theorem World.Broadens.inForce (h : w.Broadens w') (hw : w.InForce) : w'.InForce where
  attended := h.attended
  talks := h.talks
  viewed held hshut := hw.viewed (h.wanes held) ((h.shut_iff _).1 hshut)
  bare := by
    intro source selection hshutter
    rcases h.shutters with hsame | hmore
    · rw [hsame] at hshutter
      exact hw.bare hshutter
    · rw [hmore, World.getElem?_concat] at hshutter
      split at hshutter
      · cases hshutter
      · exact hw.bare hshutter

namespace DeskMove

/-- The move is one that adds no listener but sessions that the registry enables. -/
def Regular : DeskMove → Prop
  | .listen .. | .unlisten _ | .session (.create ..) | .session (.enableSession _) => False
  | _ => True

/-- The source that a move closes. -/
def closes? (d : Desk) : DeskMove → Option SourceId
  | .close source => if d.isOpen source then some source else none
  | .report watcher renamed => (d.watchers[watcher]?).bind fun t =>
    if d.givesUp t.source renamed then some t.source else none
  | .breakDown watcher _ => (d.watchers[watcher]?).bind fun t =>
    if d.isOpen t.source then some t.source else none
  | _ => none

/-- A watcher speaks of the source that it was made for, if there is such a watcher. -/
theorem fromWatcher_eq (watcher : WatcherId) (say : SourceId → Action Desk C Unit) :
    fromWatcher watcher say w = match w.host.watchers[watcher]? with
      | some t => say t.source w
      | none => .ok () w := by
  unfold fromWatcher
  refine (Action.bind_host _ w).trans ?_
  cases w.host.watchers[watcher]? <;> rfl

/-- What a watcher has to say closes the source that it closes when it is told of the source. -/
theorem fromWatcher_carries (hw : w.Attended) (htalks : w.host.Talks) (watcher : WatcherId)
    {gone : SourceId → Bool}
    {say : (Callback → Action Desk C Unit) → SourceId → Action Desk C Unit}
    (hsay : ∀ source, w.Carries (if gone source then some source else none)
      fun deliver => say deliver source) :
    w.Carries ((w.host.watchers[watcher]?).bind fun t =>
      if gone t.source then some t.source else none)
        fun deliver => fromWatcher watcher (say deliver) := by
  cases ht : w.host.watchers[watcher]? with
  | none =>
    have hnone : w.Carries none fun _ => (pure () : Action Desk C Unit) :=
      .of_goesOn fun _ => World.GoesOn.refl hw htalks
    refine hnone.congr (fun deliver => ?_) hw htalks
    rw [fromWatcher_eq, ht]
    rfl
  | some t =>
    refine (hsay t.source).congr (fun deliver => ?_) hw htalks
    rw [fromWatcher_eq, ht]

/-- The moves of the desk itself, but for opening, close what they are said to close. -/
theorem carries (hw : w.Attended) (htalks : w.host.Talks) {m : DeskMove} (hregular : m.Regular)
    (hopen : ∀ name, m ≠ .openFile name) (hsession : ∀ move, m ≠ .session move) :
    w.Carries (m.closes? w.host) fun deliver => m.run deliver := by
  have hdisk : ∀ change : Disk → Disk, w.Carries none fun _ =>
      (Action.modifyHost fun d => { d with disk := change d.disk } : Action Desk C Unit) :=
    fun change => .of_goesOn fun _ =>
      (Desk.leaves_modifyHost (by exact fun _ => rfl) : Desk.Leaves Desk.bearing _).goesOn hw htalks
  cases m with
  | openFile name => exact (hopen name rfl).elim
  | edit source text => exact .of_goesOn fun _ => Desk.edit_goesOn hw htalks source text
  | save source text =>
    exact .of_goesOn fun hrelays => Desk.save_goesOn hrelays hw htalks source text
  | close source => exact Desk.close_carries hw htalks source
  | writeFile path bytes => exact hdisk fun disk => disk.putFile (disk.resolve path) bytes
  | removeFile path => exact hdisk fun disk => disk.remove (disk.resolve path)
  | setObstacles obstacles => exact hdisk fun disk =>
      { disk with obstacles := obstacles.map fun o => (disk.resolve o.1, o.2) }
  | setShortages shortages => exact hdisk fun disk =>
      { disk with shortages := shortages.map fun s => (disk.resolve s.1, s.2) }
  | report watcher renamed =>
    exact fromWatcher_carries hw htalks watcher fun source =>
      Desk.fileEvent_carries hw htalks source renamed
  | breakDown watcher message =>
    exact fromWatcher_carries hw htalks watcher fun source =>
      Desk.watcherFailed_carries hw htalks source message
  | listen source event listener => exact hregular.elim
  | unlisten sub => exact hregular.elim
  | session move => exact (hsession move rfl).elim

/-- Opening a file leaves the desk in force. -/
theorem openFile_after_broadens (hw : w.InForce) (name : String) :
    w.Broadens ((DeskMove.openFile name).after deliver w) := by
  refine Action.Ensures.outcome (P := fun _ w' => w.Broadens w') ?_
  refine Action.Ensures.bind (Desk.openFile_broadens hw.attended hw.talks name) ?_ (fun _ _ h => h)
  exact fun _ _ h => h

/-- A step of the registry leaves the desk in force, and all sources as open as they were. -/
theorem session_after_inForce (deliver : Callback → Action Desk C Unit) (hw : w.InForce)
    (step : Step) :
    ((DeskMove.session (.step step)).after deliver w).InForce ∧
      ((DeskMove.session (.step step)).after deliver w).host.ground = w.host.ground := by
  have hground : ((DeskMove.session (.step step)).after deliver w).host.ground = w.host.ground :=
    Desk.move_sameGround hw.talks (.step step)
  obtain ⟨hattended, hheld⟩ := Step.after_attended hw.attended hw.talks step
  refine ⟨⟨hattended, hw.talks.of_ground hground, ?_, ?_⟩, hground⟩
  · intro id hold held hshut
    rw [Desk.Shut.of_ground hground] at hshut
    rcases hheld held with hbefore | hopen
    · exact hw.viewed hbefore hshut
    · exact hopen hshut
  · intro source selection hshutter
    rw [Desk.shutters_of_ground hground] at hshutter
    exact hw.bare hshutter

/-- A move leaves the desk in force, and closes what it is said to close and nothing else. -/
theorem after_inForce (hrelays : Desk.Relays deliver) (hw : w.InForce) {m : DeskMove}
    (hregular : m.Regular) :
    (m.after deliver w).InForce ∧ ∀ source,
      (m.after deliver w).host.Shut source ↔
        w.host.Shut source ∨ m.closes? w.host = some source := by
  have hcarried : w.Carries (m.closes? w.host) (fun deliver => m.run deliver) →
      (m.after deliver w).InForce ∧ ∀ source, (m.after deliver w).host.Shut source ↔
        w.host.Shut source ∨ m.closes? w.host = some source := by
    intro carries
    have hon : w.GoesOn (m.closes? w.host) (m.after deliver w) :=
      Action.Ensures.outcome (P := fun _ w' => w.GoesOn (m.closes? w.host) w')
        (carries.goesOn hrelays)
    refine ⟨hon.inForce hw, fun source => hon.shut_iff fun hi => ?_⟩
    obtain ⟨s, hs, -⟩ := carries.ends hi
    rw [hs]
    rfl
  cases m with
  | openFile name =>
    have hbroadens : w.Broadens ((DeskMove.openFile name).after deliver w) :=
      openFile_after_broadens hw name
    exact ⟨hbroadens.inForce hw, fun source => by simp [hbroadens.shut_iff, closes?]⟩
  | session move =>
    cases move with
    | step step =>
      obtain ⟨hforce, hground⟩ := session_after_inForce deliver hw step
      exact ⟨hforce, fun source => by simp [Desk.Shut.of_ground hground, closes?]⟩
    | create source options => exact hregular.elim
    | enableSession id => exact hregular.elim
  | _ => exact hcarried (carries hw.attended hw.talks hregular (fun _ h => by cases h)
      (fun _ h => by cases h))

/-- Whatever closes a source marks it as closed and then tells those who listen to its end. -/
theorem ends_of_closes? (hw : w.InForce) {m : DeskMove} (hregular : m.Regular)
    (hcloses : m.closes? w.host = some source) :
    ∃ f, w.host.sources[source]? = some f ∧ f.closed = false ∧
      w.Ends source f fun deliver => m.run deliver := by
  refine (carries hw.attended hw.talks hregular ?_ ?_).ends hcloses
  · rintro name rfl
    cases hcloses
  · rintro move rfl
    cases hcloses

end DeskMove

/-! ## What is refused -/

/-- The source is over: its record says that it is closed, selects nothing and is not listened to,
no active session is bound to it, and whatever is asked of it is refused or does nothing. -/
structure World.Over (source : SourceId) (f : SourceFile) (w : World Desk C) : Prop where
  file : w.host.sources[source]? = some f
  closed : f.closed = true
  selection : f.selection = none
  listeners : ∀ event, f.listeners event = []
  unseen : ∀ {id : SessionId} {s}, w.sessions[id]? = some s → s.state = .active → s.source ≠ source
  edit : ∀ text, Desk.edit source text w = .error f.closedError w
  save : ∀ deliver text, Desk.save deliver source text w = .error f.closedError w
  tree : Desk.host.tree source w = .error f.closedError w
  enable : ∀ settings, ∃ e w', Registry.enable Desk.host source settings w = .error e w'
  enableSession : ∀ {id : SessionId} {s}, w.sessions[id]? = some s → s.source = source →
    ∃ e w', Session.enable Desk.host id w = .error e w'
  close : ∀ deliver, Desk.close deliver source w = .ok () w
  fileEvent : ∀ deliver renamed, Desk.fileEvent deliver source renamed w = .ok () w
  watcherFailed : ∀ deliver message, Desk.watcherFailed deliver source message w =
    Desk.log ("Watcher for " ++ f.name ++ " failed: " ++ message) w
  announce : ∀ deliver event, Desk.announce deliver source event w = .ok () w

namespace Desk

variable {f : SourceFile}

/-- What needs an open source is refused for a closed one. -/
theorem requireOpen_of_closed (hf : w.host.sources[source]? = some f) (hclosed : f.closed = true) :
    (requireOpen source : Action Desk C SourceFile) w = .error f.closedError w := by
  unfold requireOpen
  rw [Action.bind_of_ok (findSource_eq hf)]
  simp only [hclosed, if_true]
  rfl

/-- Closing a closed source does nothing. -/
theorem close_of_closed (hf : w.host.sources[source]? = some f) (hclosed : f.closed = true)
    (deliver : Callback → Action Desk C Unit) : close deliver source w = .ok () w := by
  unfold close
  rw [Action.bind_of_ok (findSource_eq hf)]
  simp only [hclosed, if_true]
  rfl

/-- A report about the file of a closed source does nothing. -/
theorem fileEvent_of_closed (hf : w.host.sources[source]? = some f) (hclosed : f.closed = true)
    (deliver : Callback → Action Desk C Unit) (renamed : Bool) :
    fileEvent deliver source renamed w = .ok () w := by
  unfold fileEvent
  rw [Action.bind_of_ok (findSource_eq hf)]
  simp only [hclosed, if_true]
  rfl

/-- The failure of a watcher of a closed source is logged, and that is all. -/
theorem watcherFailed_of_closed (htalks : w.host.Talks) (hf : w.host.sources[source]? = some f)
    (hclosed : f.closed = true) (deliver : Callback → Action Desk C Unit) (message : String) :
    watcherFailed deliver source message w =
      log ("Watcher for " ++ f.name ++ " failed: " ++ message) w := by
  unfold watcherFailed
  rw [Action.bind_of_ok (findSource_eq hf)]
  have hlog := log_of_talks htalks ("Watcher for " ++ f.name ++ " failed: " ++ message)
    (Q := fun _ w' => w'.host.sources = w.host.sources) (E := fun _ _ => False) fun _ => rfl
  obtain ⟨_, w₁, hr, hsources⟩ := hlog.exists_ok
  rw [Action.bind_of_ok hr, hr]
  exact close_of_closed (hsources ▸ hf) hclosed deliver

/-- A closed source gives no tree. -/
theorem tree_of_closed (hf : w.host.sources[source]? = some f) (hclosed : f.closed = true) :
    (host : Host Desk C).tree source w = .error f.closedError w := by
  show (findSource source >>= fun s => Action.ofExcept s.currentTree :
    Action Desk C ParseTree) w = _
  rw [Action.bind_of_ok (findSource_eq hf)]
  unfold SourceFile.currentTree
  rw [hclosed]
  rfl

/-- A session is not bound to a closed source. -/
theorem not_enables_of_shut {id : SessionId} {s : Session} {w₁ : World Desk C}
    (hshut : w.host.Shut s.source) :
    ¬ Session.Enables (rollTerms w.host.ground) w₁ id s (.ok ()) w' := by
  intro does
  cases does with
  | done name makes binds logs =>
    exact (binds_roll binds).1 ((shut_ground _ _).2 hshut)

/-- The registry enables no view of a shut source. -/
theorem enable_of_shut (htalks : w.host.Talks) (hshut : w.host.Shut source) (settings : Settings) :
    ∃ e w', Registry.enable host source settings w = .error e w' := by
  have honours := host_honours_roll (C := C) w.host.ground
  cases hfor : w.sessionFor? source with
  | some existing => exact (Registry.enable_of_taken honours ⟨rfl, htalks⟩ hfor).exists_error
  | none =>
    have hfree := World.sessionFor?_eq_none_iff.1 hfor
    refine Action.Ensures.exists_error (Action.Ensures.mono
      (Registry.enable_of_free honours ⟨rfl, htalks⟩ hfree) ?_ (fun _ _ h => h))
    rintro id w' ⟨-, -, w₁, -, does⟩
    exact not_enables_of_shut (s := freshSession source settings) hshut does

/-- No session enables a view of a shut source. -/
theorem enableSession_of_shut (htalks : w.host.Talks) {id : SessionId} {s : Session}
    (hs : w.sessions[id]? = some s) (hnone : s.binding? = none) (hshut : w.host.Shut s.source) :
    ∃ e w', Session.enable host id w = .error e w' := by
  have honours := host_honours_roll (C := C) w.host.ground
  refine Action.Ensures.exists_error ((Session.enable_enables honours ⟨rfl, htalks⟩ hs hnone).mono
    ?_ (fun _ _ h => h))
  rintro _ w' ⟨-, does⟩
  exact not_enables_of_shut hshut does

end Desk

/-- In a world in force, a source that is closed is over. -/
theorem World.InForce.isOver (hw : w.InForce) {f : SourceFile}
    (hf : w.host.sources[source]? = some f) (hclosed : f.closed = true) : w.Over source f := by
  have hshut : w.host.Shut source := ⟨f, hf, hclosed⟩
  have hunseen : ∀ {id hold}, w.holding? id = some hold → hold.source ≠ source := by
    rintro id hold held rfl
    exact hw.viewed held hshut
  have hnone : ∀ event, f.listeners event = [] :=
    hw.attended.listens.unheard (by simp [Desk.roll, hf]) hunseen
  have hidle : ∀ {id : SessionId} {s}, w.sessions[id]? = some s → s.source = source →
      s.binding? = none := by
    rintro id s hs rfl
    cases hbound : s.binding? with
    | none => rfl
    | some binding =>
      obtain ⟨b, hb, hbinding⟩ := Session.binding?_eq_some_iff.1 hbound
      exact (hunseen ((World.seen_eq hs).trans (Session.holding?_of_bound hb hbinding)) rfl).elim
  have hrequire := Desk.requireOpen_of_closed hf hclosed
  refine ⟨hf, hclosed, ?_, hnone, ?_, ?_, ?_, Desk.tree_of_closed hf hclosed, ?_, ?_, ?_, ?_, ?_,
    ?_⟩
  · have hshutter : w.host.shutters[source]? = some (some f.selection) := by
      simp [Desk.shutters, hf, SourceFile.shutter, hclosed]
    exact hw.bare hshutter
  · intro id s hs hactive hsource
    unfold Session.state at hactive
    rw [hidle hs hsource] at hactive
    cases hactive
  · exact fun text => Action.bind_of_error hrequire _
  · exact fun deliver text => Action.bind_of_error hrequire _
  · exact fun settings => Desk.enable_of_shut hw.talks hshut settings
  · rintro id s hs rfl
    exact Desk.enableSession_of_shut hw.talks hs (hidle hs rfl) hshut
  · exact fun deliver => Desk.close_of_closed hf hclosed deliver
  · exact fun deliver renamed => Desk.fileEvent_of_closed hf hclosed deliver renamed
  · exact fun deliver message => Desk.watcherFailed_of_closed hw.talks hf hclosed deliver message
  · intro deliver event
    rw [Desk.announce_eq hw.attended hf]
    unfold Desk.callees
    rw [hnone]
    rfl

/-! ## The record of a closed source -/

/-- Sessions can only change a closed source by listening to it. -/
theorem SourceFile.eq_of_ground {f f' : SourceFile} (hground : f'.ground = f.ground)
    (hclosed : f.closed = true) (hlisteners : f'.listeners = f.listeners) : f' = f := by
  have hcommit : f'.commitListeners = f.commitListeners := congrFun hlisteners .commit
  have hdestroy : f'.destroyListeners = f.destroyListeners := congrFun hlisteners .destroy
  have hclosed' : f'.closed = true := (congrArg SourceFile.closed hground).trans hclosed
  obtain ⟨path, text, saved, tree, faults, closed, watcher, selection, highlighted, commit,
    destroy⟩ := f
  obtain ⟨path', text', saved', tree', faults', closed', watcher', selection', highlighted',
    commit', destroy'⟩ := f'
  cases hclosed
  cases hclosed'
  cases hcommit
  cases hdestroy
  simpa [SourceFile.ground] using hground

namespace DeskMove

/-- A move about another source leaves the record of a source alone. -/
theorem sources_after_of_about (hrelays : Desk.Relays deliver) (hdiscreet : Desk.Discreet deliver)
    (hw : w.Apart Desk.parts) {m : DeskMove} {other : SourceId} (habout : m.About other w)
    (hne : source ≠ other) :
    (m.after deliver w).host.sources[source]? = w.host.sources[source]? := by
  have hspares : w.Spares Desk.parts other (m.after deliver w) :=
    Action.Ensures.outcome (P := fun _ w' => w.Spares Desk.parts other w')
      (Action.Ensures.mono (run_keeps hrelays hdiscreet hw habout) (fun _ _ h => h.1.spares)
        (fun _ _ h => h.spares))
  exact congrArg SourceRecord.file (hspares.sources hne)

/-- A move about some source leaves the record of a closed one alone, if it does so in case it is
about this one. -/
theorem record_of_about (hrelays : Desk.Relays deliver) (hdiscreet : Desk.Discreet deliver)
    (hapart : w.Apart Desk.parts) {m : DeskMove} {f : SourceFile} (hover : w.Over source f)
    (other : SourceId) (habout : m.About other w)
    (hown : source = other → (m.after deliver w).host.sources[source]? = some f) :
    (m.after deliver w).host.sources[source]? = some f := by
  by_cases hother : source = other
  · exact hown hother
  · rw [sources_after_of_about hrelays hdiscreet hapart habout hother]
    exact hover.file

/-- What a watcher says leaves the record of a closed source alone, if it does so in case the
watcher is of this source. -/
theorem record_of_watcher (hrelays : Desk.Relays deliver) (hdiscreet : Desk.Discreet deliver)
    (hapart : w.Apart Desk.parts) {m : DeskMove} {f : SourceFile} (hover : w.Over source f)
    {watcher : WatcherId} (say : SourceId → Action Desk C Unit)
    (hrun : m.run deliver = fromWatcher watcher say)
    (habout : ∀ other, (∀ t, w.host.watchers[watcher]? = some t → t.source = other) →
      m.About other w)
    (hsay : ((say source).outcome w).2.host.sources[source]? = some f) :
    (m.after deliver w).host.sources[source]? = some f := by
  have heq := fromWatcher_eq (w := w) watcher say
  rw [← hrun] at heq
  cases ht : w.host.watchers[watcher]? with
  | none =>
    rw [ht] at heq
    have hafter : m.after deliver w = w := congrArg Prod.snd (Action.outcome_of_ok heq)
    rw [hafter]
    exact hover.file
  | some t =>
    rw [ht] at heq
    have hmade : ∀ t', w.host.watchers[watcher]? = some t' → t'.source = t.source := by
      intro t' ht'
      rw [ht] at ht'
      cases ht'
      rfl
    refine record_of_about hrelays hdiscreet hapart hover t.source (habout t.source hmade) ?_
    rintro rfl
    unfold after Action.outcome
    rw [heq]
    exact hsay

/-- A step of a session leaves the record of a closed source alone. -/
theorem session_record (hw : w.InForce) {f : SourceFile} (hover : w.Over source f) (step : Step) :
    ((DeskMove.session (.step step)).after deliver w).host.sources[source]? = some f := by
  obtain ⟨hforce, hground⟩ := session_after_inForce deliver hw step
  have hsource := Desk.source_of_ground hground source
  rw [hover.file, Option.map_some] at hsource
  obtain ⟨f', hf', hsame⟩ := Option.map_eq_some_iff.1 hsource
  have hclosed' : f'.closed = true := (congrArg SourceFile.closed hsame).trans hover.closed
  have hover' := hforce.isOver hf' hclosed'
  rw [hf', SourceFile.eq_of_ground hsame hover.closed]
  funext event
  rw [hover'.listeners, hover.listeners]

/-- No move changes the record of a closed source. -/
theorem after_record (hrelays : Desk.Relays deliver) (hdiscreet : Desk.Discreet deliver)
    (hw : w.InForce) (hapart : w.Apart Desk.parts) {m : DeskMove} (hregular : m.Regular)
    {f : SourceFile} (hover : w.Over source f) :
    (m.after deliver w).host.sources[source]? = some f := by
  have hkept : ∀ {r : Except Failure Unit}, (m.run deliver).outcome w = (r, w) →
      (m.after deliver w).host.sources[source]? = some f := by
    intro r hr
    unfold after
    rw [hr]
    exact hover.file
  cases m with
  | openFile name =>
    refine record_of_about hrelays hdiscreet hapart hover _ rfl fun hnew => ?_
    exact (Nat.ne_of_lt (List.getElem?_eq_some_iff.1 hover.file).1 hnew).elim
  | edit other text =>
    refine record_of_about hrelays hdiscreet hapart hover other rfl ?_
    rintro rfl
    exact hkept (Action.outcome_of_error (hover.edit text))
  | save other text =>
    refine record_of_about hrelays hdiscreet hapart hover other rfl ?_
    rintro rfl
    exact hkept (Action.outcome_of_error (hover.save deliver text))
  | close other =>
    refine record_of_about hrelays hdiscreet hapart hover other rfl ?_
    rintro rfl
    exact hkept (Action.outcome_of_ok (hover.close deliver))
  | writeFile path bytes => exact hover.file
  | removeFile path => exact hover.file
  | setObstacles obstacles => exact hover.file
  | setShortages shortages => exact hover.file
  | report watcher renamed =>
    refine record_of_watcher hrelays hdiscreet hapart hover (Desk.fileEvent deliver · renamed) rfl
      (fun _ h => h) ?_
    rw [Action.outcome_of_ok (hover.fileEvent deliver renamed)]
    exact hover.file
  | breakDown watcher message =>
    refine record_of_watcher hrelays hdiscreet hapart hover
      (Desk.watcherFailed deliver · message) rfl (fun _ h => h) ?_
    refine Action.Ensures.outcome (P := fun _ (w' : World Desk C) =>
      w'.host.sources[source]? = some f) ?_
    unfold Action.Ensures
    rw [hover.watcherFailed]
    exact Desk.log_of_talks hw.talks _ fun _ => hover.file
  | listen other event listener => exact hregular.elim
  | unlisten sub => exact hregular.elim
  | session move =>
    cases move with
    | create other options => exact hregular.elim
    | enableSession id => exact hregular.elim
    | step step => exact session_record hw hover step

end DeskMove

/-! ## Runs -/

/-- The worlds that moves lead to if only sessions that the registry enables listen. -/
inductive Desk.Proceeds (deliver : Callback → Action Desk C Unit) :
    World Desk C → World Desk C → Prop where
  | start (w : World Desk C) : Desk.Proceeds deliver w w
  | move {w w' : World Desk C} (before : Desk.Proceeds deliver w w') (m : DeskMove)
      (regular : m.Regular) : Desk.Proceeds deliver w (m.after deliver w')

/-- Nothing is wrong with listeners and closed sources before anything has been made. -/
theorem World.Untouched.inForce (hw : w.Untouched) (htalks : w.host.Talks) : w.InForce := by
  have hnone : ∀ id, w.holding? id = none := by
    intro id
    unfold World.holding? World.seen
    rw [hw.sessions]
    rfl
  refine ⟨⟨⟨?_, ?_⟩, ?_⟩, htalks, ?_, ?_⟩
  · intro id hold held
    rw [hnone] at held
    cases held
  · intro source listeners hthere
    simp [Desk.roll, hw.sources] at hthere
  · intro id hold held
    rw [hnone] at held
    cases held
  · intro id hold held
    rw [hnone] at held
    cases held
  · intro source selection hshutter
    simp [Desk.shutters, hw.sources] at hshutter

/-- What holds of closed sources and listeners holds on along a run. -/
theorem Desk.Proceeds.inForce (hrelays : Desk.Relays deliver) (hdiscreet : Desk.Discreet deliver)
    (run : Desk.Proceeds deliver w w') (hw : w.InForce) (hapart : w.Apart Desk.parts) :
    w'.InForce ∧ w'.Apart Desk.parts := by
  induction run with
  | start => exact ⟨hw, hapart⟩
  | move _ m regular ih =>
    exact ⟨(m.after_inForce hrelays ih.1 regular).1, m.after_apart hrelays hdiscreet ih.2⟩

/-- Once a source is over it stays over, with the same record. -/
theorem Desk.Proceeds.isOver (hrelays : Desk.Relays deliver) (hdiscreet : Desk.Discreet deliver)
    (run : Desk.Proceeds deliver w w') (hw : w.InForce) (hapart : w.Apart Desk.parts)
    {f : SourceFile} (hover : w.Over source f) : w'.Over source f := by
  induction run with
  | start => exact hover
  | move before m regular ih =>
    obtain ⟨hw₁, hapart₁⟩ := before.inForce hrelays hdiscreet hw hapart
    have hrecord := m.after_record hrelays hdiscreet hw₁ hapart₁ regular ih
    exact (m.after_inForce hrelays hw₁ regular).1.isOver hrecord hover.closed

/-- The listeners to the end of a source: one at most, and each is called. -/
theorem World.Attended.callees_destroy (hw : w.Attended) {f : SourceFile}
    (hf : w.host.sources[source]? = some f) :
    f.destroyListeners.length ≤ 1 ∧ (w.host.callees f .destroy).map some =
      f.destroyListeners.map fun sub => w.host.subscriptions[sub]?.map (·.callback) := by
  have hlisteners : f.destroyListeners = f.listeners .destroy := rfl
  unfold Desk.callees
  rw [hlisteners]
  rcases Desk.listeners_cases hw hf with ⟨hnone, -⟩ | ⟨id, hold, -, -, hone⟩
  · simp [hnone]
  · obtain ⟨sub, honly, hsub⟩ := hone .destroy
    simp [honly, hsub]

/-- Closing a source is final. In every world that a run reaches,
* a move closes the source that it is said to close and no other, and what it does is to mark the
  source as closed and to call each listener to its end once;
* a closed source stays as it is, whatever comes, and all that is asked of it is refused;
* the source of every active session is open. -/
theorem Desk.Proceeds.closing_is_final {start : World Desk C} (hrelays : Desk.Relays deliver)
    (hdiscreet : Desk.Discreet deliver) (hstart : start.Untouched) (htalks : start.host.Talks)
    (run : Desk.Proceeds deliver start w) :
    (∀ m : DeskMove, m.Regular →
      (∀ i, (m.after deliver w).host.Shut i ↔ w.host.Shut i ∨ m.closes? w.host = some i) ∧
      ∀ i, m.closes? w.host = some i → ∃ f, w.host.sources[i]? = some f ∧ f.closed = false ∧
        f.destroyListeners.length ≤ 1 ∧
        ((w.host.callees f .destroy).map some =
          f.destroyListeners.map fun sub => w.host.subscriptions[sub]?.map (·.callback)) ∧
        w.Ends i f fun deliver => m.run deliver) ∧
    (∀ (i : SourceId) (f : SourceFile), w.host.sources[i]? = some f → f.closed = true →
      ∀ w', Desk.Proceeds deliver w w' → w'.Over i f) ∧
    ∀ (id : SessionId) (s : Session), w.sessions[id]? = some s → s.state = .active →
      w.host.isOpen s.source = true := by
  obtain ⟨hw, hapart⟩ := run.inForce hrelays hdiscreet (hstart.inForce htalks) hstart.apart
  refine ⟨fun m regular => ⟨(m.after_inForce hrelays hw regular).2, fun i hi => ?_⟩, ?_, ?_⟩
  · obtain ⟨f, hf, hopen, ends⟩ := DeskMove.ends_of_closes? hw regular hi
    obtain ⟨hone, hcalled⟩ := hw.attended.callees_destroy hf
    exact ⟨f, hf, hopen, hone, hcalled, ends⟩
  · intro i f hf hclosed w' later
    exact later.isOver hrelays hdiscreet hw hapart (hw.isOver hf hclosed)
  · intro id s hs hactive
    obtain ⟨binding, hbound⟩ : ∃ binding, s.binding? = some binding := by
      unfold Session.state at hactive
      cases hbound : s.binding? with
      | none =>
        rw [hbound] at hactive
        cases hactive
      | some binding => exact ⟨binding, rfl⟩
    obtain ⟨b, hb, hbinding⟩ := Session.binding?_eq_some_iff.1 hbound
    have held := (World.seen_eq hs).trans (Session.holding?_of_bound hb hbinding)
    -- The session listens to its source, so the source is there.
    obtain ⟨commit, destroy, -, hcommit, -⟩ := hw.attended.listens.held held
    obtain ⟨listeners, hthere, -⟩ := Option.map_eq_some_iff.1 hcommit.only
    have hthere' : (w.host.sources.map SourceFile.listeners)[s.source]? = some listeners := hthere
    rw [List.getElem?_map] at hthere'
    obtain ⟨f, hf, -⟩ := Option.map_eq_some_iff.1 hthere'
    rw [Desk.isOpen_of_some hf]
    cases hclosed : f.closed with
    | false => rfl
    | true => exact (hw.viewed held ⟨f, hf, hclosed⟩).elim

end

/-! ## A file that goes away -/

namespace DeskRun

/-- The file is opened and shown. -/
def watchedAndShown : World Desk Unit :=
  [DeskMove.openFile "a.json", .session (.step (.call (.enable 0 {})))].foldl
    (fun w m => m.after relay w) watchedFile

/-- The file is removed, which its watcher reports. -/
def removedAndReported : World Desk Unit :=
  [DeskMove.removeFile "a.json", .report 0 false].foldl (fun w m => m.after relay w) watchedAndShown

/-- A run leads to the file being opened and shown. -/
theorem watchedAndShown_proceeds : Desk.Proceeds relay watchedFile watchedAndShown :=
  ((Desk.Proceeds.start watchedFile).move (.openFile "a.json") trivial).move
    (.session (.step (.call (.enable 0 {})))) trivial

/-- A run leads to the file being removed and reported. -/
theorem removedAndReported_proceeds : Desk.Proceeds relay watchedFile removedAndReported :=
  (watchedAndShown_proceeds.move (.removeFile "a.json") trivial).move (.report 0 false) trivial

/-- The session ends when the file is gone. That the file is back later, as the stopped watcher
reports, and that this watcher breaks down make no difference. -/
theorem removedAndReported_final :
    watchedAndShown.sessions.map (·.state) = [.active] ∧
    watchedAndShown.host.isOpen 0 = true ∧
    removedAndReported.sessions.map (·.state) = [.inactive] ∧
    ∃ f, f.closed = true ∧ removedAndReported.Over 0 f ∧
      ((DeskMove.breakDown 0 "EIO").after relay ((DeskMove.report 0 true).after relay
        ((DeskMove.writeFile "a.json" [50]).after relay removedAndReported))).Over 0 f := by
  have htalks : watchedFile.host.Talks := fun _ => ⟨none, rfl⟩
  have huntouched : watchedFile.Untouched := ⟨rfl, rfl, rfl, rfl, rfl, rfl⟩
  have hsession : watchedAndShown.sessions.map (fun s => (s.source, s.state)) = [(0, .active)] := by
    decide +kernel
  have hclosed : removedAndReported.host.sources.map (·.closed) = [true] := by decide +kernel
  have hfile : ∃ f, removedAndReported.host.sources[0]? = some f ∧ f.closed = true := by
    have hfirst := congrArg (·[0]?) hclosed
    rw [List.getElem?_map] at hfirst
    exact Option.map_eq_some_iff.1 hfirst
  obtain ⟨f, hf, hfclosed⟩ := hfile
  have hfinal := (removedAndReported_proceeds.closing_is_final (fun _ _ => rfl) relay_discreet
    huntouched htalks).2.1 0 f hf hfclosed
  refine ⟨by decide +kernel, ?_, by decide +kernel, f, hfclosed, hfinal _ (.start _), ?_⟩
  · obtain ⟨s, hs, hpair⟩ := List.map_eq_singleton_iff.1 hsession
    obtain ⟨hsource, hactive⟩ := Prod.mk.inj hpair
    have hopen := (watchedAndShown_proceeds.closing_is_final (fun _ _ => rfl) relay_discreet
      huntouched htalks).2.2 0 s (by rw [hs]; rfl) hactive
    rw [hsource] at hopen
    exact hopen
  · exact hfinal _ ((((Desk.Proceeds.start _).move (.writeFile "a.json" [50]) trivial).move
      (.report 0 true) trivial).move (.breakDown 0 "EIO") trivial)

end DeskRun

end TreeInspector
