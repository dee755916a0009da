import TreeInspector.Proofs.Desk.Attendance

/-!
# What those who listen go through

An operation of the desk that closes no source leaves all sessions with what they held, or with
less, and leaves closed sources closed. An announcement reaches those who listen when it begins,
each once. If it is the end of a source that is announced, nobody views the source afterwards.
-/

set_option autoImplicit false

namespace TreeInspector

/-- What a closed source has selected. -/
def SourceFile.shutter (s : SourceFile) : Option (Option Span) :=
  if s.closed then some s.selection else none

namespace Desk

/-- What the closed sources have selected. -/
def shutters (d : Desk) : List (Option (Option Span)) := d.sources.map SourceFile.shutter

/-- What does not change but by opening and closing sources and by those who listen. -/
def bearing (d : Desk) : Roll × List (Option (Option Span)) × JournalKind :=
  (d.roll, d.shutters, d.journal)

section

variable {d d' : Desk} {source : SourceId}

/-- A source is shut iff it is listed among the closed ones. -/
theorem shut_iff_shutters : d.Shut source ↔ ∃ selection, d.shutters[source]? =
    some (some selection) := by
  unfold Shut shutters SourceFile.shutter
  rw [List.getElem?_map]
  cases d.sources[source]? with
  | none => simp
  | some s => cases hclosed : s.closed <;> simp [hclosed]

/-- What the closed sources have selected belongs to the ground. -/
theorem shutters_of_ground (hground : d'.ground = d.ground) : d'.shutters = d.shutters := by
  have hsame : ∀ s : SourceFile, s.ground.shutter = s.shutter := by
    intro s
    unfold SourceFile.ground SourceFile.shutter
    cases s.closed <;> rfl
  apply List.ext_getElem?
  intro i
  have hsource := congrArg (Option.map SourceFile.shutter) (source_of_ground hground i)
  simpa only [shutters, List.getElem?_map, Option.map_map, Function.comp_def, hsame] using hsource

/-- A change of a source that keeps what it has selected when closed keeps all such selections. -/
theorem shutters_modifySource {f : SourceFile → SourceFile}
    (hf : ∀ s : SourceFile, (f s).shutter = s.shutter) :
    ({ d with sources := d.sources.modify source f } : Desk).shutters = d.shutters := by
  apply List.ext_getElem?
  intro i
  simp only [shutters, List.getElem?_map, List.getElem?_modify]
  by_cases hi : source = i
  · simp [hi, Function.comp_def, hf]
  · simp [hi]

/-- Closing a source takes its selection away. -/
theorem shutters_shut :
    ({ d with sources := d.sources.modify source SourceFile.shut } : Desk).shutters =
      d.shutters.modify source fun _ => some none := by
  apply List.ext_getElem?
  intro i
  simp only [shutters, List.getElem?_map, List.getElem?_modify]
  by_cases hi : source = i
  · simp [hi, Function.comp_def, SourceFile.shut, SourceFile.shutter]
  · simp [hi]

end

end Desk

section

variable {C α β : Type} {w w' : World Desk C} {source : SourceId} {closing : Option SourceId}

/-! ## What an operation leaves behind -/

/-- The desk went on from one world to the other: the listeners are in order, no session has begun
to view a source, and no source has been closed but the one given, which nobody views then. -/
structure World.GoesOn (closing : Option SourceId) (w w' : World Desk C) : Prop where
  attended : w'.Attended
  talks : w'.host.Talks
  wanes : w.Wanes w'
  shutters : w'.host.shutters = closing.elim w.host.shutters
    fun i => w.host.shutters.modify i fun _ => some none
  left : ∀ {i}, closing = some i → ∀ {id hold}, w'.holding? id = some hold → hold.source ≠ i

/-- However the action ends, the desk went on. -/
def Action.GoesOn (closing : Option SourceId) (a : Action Desk C α) (w : World Desk C) : Prop :=
  a.Ensures w (fun _ w' => w.GoesOn closing w') (fun _ w' => w.GoesOn closing w')

/-- The desk may go on without anything happening. -/
theorem World.GoesOn.refl (hw : w.Attended) (htalks : w.host.Talks) : w.GoesOn none w :=
  ⟨hw, htalks, fun held => held, rfl, fun h => by cases h⟩

/-- The desk goes on in two stretches, of which the second may close a source. -/
theorem World.GoesOn.trans {w₁ w₂ w₃ : World Desk C} (first : w₁.GoesOn none w₂)
    (second : w₂.GoesOn closing w₃) : w₁.GoesOn closing w₃ where
  attended := second.attended
  talks := second.talks
  wanes held := first.wanes (second.wanes held)
  shutters := by
    have hfirst : w₂.host.shutters = w₁.host.shutters := first.shutters
    rw [← hfirst]
    exact second.shutters
  left := second.left

/-- Two actions go on if the second one does after the first. -/
theorem Action.GoesOn.bind {a : Action Desk C α} {f : α → Action Desk C β}
    (ha : a.GoesOn none w) (hf : ∀ x w₁, w.GoesOn none w₁ → (f x).GoesOn none w₁) :
    (a >>= f).GoesOn none w := by
  refine Action.Ensures.bind ha ?_ (fun _ _ h => h)
  intro x w₁ h₁
  exact (hf x w₁ h₁).mono (fun _ _ h => h₁.trans h) (fun _ _ h => h₁.trans h)

namespace Desk

/-- The desk goes on where no source and no listener changes. -/
theorem Left.goesOn (h : Left bearing w w') (hw : w.Attended) (htalks : w.host.Talks) :
    w.GoesOn none w' := by
  obtain ⟨d, c, rfl, hbearing⟩ := h
  have hroll : d.roll = w.host.roll := congrArg Prod.fst hbearing
  have hshutters : d.shutters = w.host.shutters := congrArg (·.2.1) hbearing
  have hjournal : d.journal = w.host.journal := congrArg (·.2.2) hbearing
  refine ⟨hw.beside hroll c, ?_, fun held => held, hshutters, fun h => by cases h⟩
  unfold Talks
  rw [World.beside_host, hjournal]
  exact htalks

/-- An action that changes no source and no listener goes on. -/
theorem Leaves.goesOn {a : Action Desk C α} (ha : Leaves bearing a) (hw : w.Attended)
    (htalks : w.host.Talks) : a.GoesOn none w :=
  (ha w).mono (fun _ _ h => h.goesOn hw htalks) (fun _ _ h => h.goesOn hw htalks)

/-! ## What does not matter to those who listen -/

/-- A change of a source that keeps its listeners and what it has selected when closed bears on
nobody. -/
theorem modifySource_leaves {f : SourceFile → SourceFile}
    (hlisteners : ∀ s : SourceFile, (f s).listeners = s.listeners)
    (hshutter : ∀ s : SourceFile, (f s).shutter = s.shutter) :
    Leaves bearing (modifySource source f : Action Desk C Unit) :=
  leaves_modifyHost fun d => by
    unfold bearing
    rw [roll_modifySource source fun s _ => hlisteners s, shutters_modifySource hshutter]

/-- Taking up a text bears on no listener and no closed source. -/
theorem update_leaves (text : String) (saved : Bool) :
    Leaves bearing (modifySource source (·.update text saved) : Action Desk C Unit) :=
  modifySource_leaves (fun _ => rfl) (fun _ => rfl)

/-- Logging bears on no listener and no closed source. -/
theorem log_leaves (message : String) : Leaves bearing (log message : Action Desk C Unit) :=
  leaves_log (fun _ _ => rfl) message

/-- Reporting faults bears on no listener and no closed source. -/
theorem reportFaults_leaves : Leaves bearing (reportFaults source : Action Desk C Unit) :=
  leaves_reportFaults (fun _ _ => rfl)

/-- What listeners and closed sources are does not depend on what is watched. -/
theorem bearing_unwatched : Unwatched bearing where
  watchers _ _ := rfl
  trace _ _ := rfl
  watcher d source _ := by
    unfold bearing
    rw [roll_modifySource source (by exact fun _ _ => rfl), shutters_modifySource
      (by exact fun _ => rfl)]

/-- Watching bears on no listener and no closed source. -/
theorem watchSource_leaves : Leaves bearing (watchSource source : Action Desk C Unit) :=
  leaves_watchSource bearing_unwatched

/-- Asking for an open source bears on nothing. -/
theorem requireOpen_leaves : Leaves bearing (requireOpen source : Action Desk C SourceFile) :=
  fun w => requireOpen_ensures (fun _ _ => .refl bearing w) fun _ _ _ => .refl bearing w

/-! ## Announcements -/

/-- Those who are called when the source announces the event. -/
def callees (d : Desk) (s : SourceFile) (event : Notice) : List Callback :=
  (s.listeners event).filterMap fun sub => d.subscriptions[sub]?.map (·.callback)

/-- A source has no listeners and is viewed by nobody, or has one to each event, which is the
session that views it. -/
theorem listeners_cases (hw : w.Attended) {s : SourceFile}
    (hs : w.host.sources[source]? = some s) :
    ((∀ event, s.listeners event = []) ∧
      ∀ {id hold}, w.holding? id = some hold → hold.source ≠ source) ∨
    ∃ id hold, w.holding? id = some hold ∧ hold.source = source ∧ ∀ event, ∃ sub,
      s.listeners event = [sub] ∧
        w.host.subscriptions[sub]? = some (Roll.sessionSub source event id) := by
  have hthere : w.host.roll.listeners[source]? = some s.listeners := by simp [roll, hs]
  by_cases hviewed : ∃ id hold, w.holding? id = some hold ∧ hold.source = source
  · right
    obtain ⟨id, hold, held, rfl⟩ := hviewed
    refine ⟨id, hold, held, rfl, fun event => ?_⟩
    obtain ⟨commit, destroy, -, hcommit, hdestroy⟩ := hw.listens.held held
    have honly := hcommit.only
    have honly' := hdestroy.only
    rw [hthere] at honly honly'
    cases event with
    | commit => exact ⟨commit, Option.some.inj honly, hcommit.called⟩
    | destroy => exact ⟨destroy, Option.some.inj honly', hdestroy.called⟩
  · left
    have hunseen : ∀ {id hold}, w.holding? id = some hold → hold.source ≠ source :=
      fun held hsource => hviewed ⟨_, _, held, hsource⟩
    exact ⟨hw.listens.unheard hthere hunseen, hunseen⟩

/-- Those who listen when an announcement begins are called, each once. -/
theorem announce_eq (hw : w.Attended) {s : SourceFile} (hs : w.host.sources[source]? = some s)
    (deliver : Callback → Action Desk C Unit) (event : Notice) :
    announce deliver source event w =
      ((w.host.callees s event).forM deliver : Action Desk C Unit) w := by
  unfold announce callees
  rw [Action.bind_of_ok (findSource_eq hs)]
  rcases listeners_cases hw hs with ⟨hnone, -⟩ | ⟨id, hold, -, -, hone⟩
  · rw [hnone]
    rfl
  · obtain ⟨sub, honly, hsub⟩ := hone event
    rw [honly]
    simp only [List.filterMap_cons, hsub, Option.map_some, List.filterMap_nil]
    refine Action.bind_of_eq ((Action.bind_host _ w).trans ?_) _
    simp only [hsub]

variable {deliver : Callback → Action Desk C Unit}

/-- A session that takes in an event of its source attends to it, or has let go of it if that was
its end. -/
theorem notify_goesOn (hw : w.Attended) (htalks : w.host.Talks) {id : SessionId} {hold : Holding}
    (held : w.holding? id = some hold) (event : Notice) :
    (Session.notify host id event).Ensures w
      (fun _ w' => w.GoesOn none w' ∧ (event = .destroy →
        ∀ {id' hold'}, w'.holding? id' = some hold' → hold'.source ≠ hold.source))
      (fun _ w' => w.GoesOn none w' ∧ (event = .destroy →
        ∀ {id' hold'}, w'.holding? id' = some hold' → hold'.source ≠ hold.source)) := by
  have honours := host_honours_roll (C := C) w.host.ground
  obtain ⟨s, hs, hhold⟩ := Option.bind_eq_some_iff.1 held
  obtain ⟨binding, hbound, rfl⟩ := Option.map_eq_some_iff.1 hhold
  obtain ⟨b, hb, hbinding⟩ := Session.binding?_eq_some_iff.1 hbound
  have hon : ∀ {w' : World Desk C}, (rollTerms w.host.ground).fit w'.host → w'.Attended →
      w.Wanes w' → w.GoesOn none w' := fun hfit hw' hwanes =>
    ⟨hw', hfit.2, hwanes, shutters_of_ground hfit.1, fun h => by cases h⟩
  refine (Session.notify_of_active hs hbound event).2 ?_
  cases event with
  | commit =>
    refine (Session.refresh_refreshes honours ⟨rfl, htalks⟩ hs hb hbinding).mono ?_ ?_
    · rintro _ w' ⟨hfit, hdoes⟩
      obtain ⟨hw', hwanes⟩ := hdoes.attended hw hs hb hbinding
      exact ⟨hon hfit hw' hwanes, fun h => by cases h⟩
    · rintro _ w' ⟨hfit, hdoes⟩
      obtain ⟨hw', hwanes⟩ := hdoes.attended hw hs hb hbinding
      exact ⟨hon hfit hw' hwanes, fun h => by cases h⟩
  | destroy =>
    refine (Session.finish_finishes honours ⟨rfl, htalks⟩ hs hb hbinding _ _).mono ?_ ?_
    · rintro _ w' ⟨hfit, hdoes⟩
      obtain ⟨hw', hheld⟩ := hdoes.attended hw hs hb hbinding
      exact ⟨hon hfit hw' fun held' => (hheld held').1, fun _ _ _ held' => (hheld held').2⟩
    · rintro _ w' ⟨hfit, hdoes⟩
      obtain ⟨hw', hheld⟩ := hdoes.attended hw hs hb hbinding
      exact ⟨hon hfit hw' fun held' => (hheld held').1, fun _ _ _ held' => (hheld held').2⟩

/-- After its end has been announced, nobody views a source, even if the session that did could
not end its view. -/
theorem announce_goesOn (hrelays : Relays deliver) (hw : w.Attended) (htalks : w.host.Talks)
    (source : SourceId) (event : Notice) :
    (announce deliver source event).Ensures w
      (fun _ w' => w.GoesOn none w' ∧ (event = .destroy →
        ∀ {id hold}, w'.holding? id = some hold → hold.source ≠ source))
      (fun _ w' => w.GoesOn none w' ∧ ((w.host.sources[source]?).isSome → event = .destroy →
        ∀ {id hold}, w'.holding? id = some hold → hold.source ≠ source)) := by
  unfold announce
  rw [Action.ensures_bind]
  cases hs : w.host.sources[source]? with
  | none =>
    rw [findSource_of_none hs]
    exact ⟨.refl hw htalks, fun h => by cases h⟩
  | some s =>
    rw [findSource_ensures hs]
    rcases listeners_cases hw hs with ⟨hnone, hunseen⟩ | ⟨id, hold, held, rfl, hone⟩
    · rw [hnone]
      exact ⟨.refl hw htalks, fun _ => hunseen⟩
    · obtain ⟨sub, honly, hsub⟩ := hone event
      rw [honly]
      refine Action.Ensures.bind (P := fun _ w' => w.GoesOn none w' ∧ (event = .destroy →
          ∀ {id' hold'}, w'.holding? id' = some hold' → hold'.source ≠ hold.source)) ?_
        (fun _ _ h => h) (fun _ _ h => h)
      rw [Action.ensures_bind, Action.ensures_host]
      simp only [hsub, Roll.sessionSub, hrelays id event]
      exact (notify_goesOn hw htalks held event).mono (fun _ _ h => h)
        (fun _ _ h => ⟨h.1, fun _ => h.2⟩)

/-! ## Operations -/

/-- A commit goes on without ending a source. -/
theorem commit_goesOn (hrelays : Relays deliver) (hw : w.Attended) (htalks : w.host.Talks)
    (source : SourceId) (text message : String) :
    Action.GoesOn none (do
      modifySource source (·.update text true)
      reportFaults source
      log message
      announce deliver source .commit) w := by
  refine ((update_leaves text true).goesOn hw htalks).bind fun _ w₁ h₁ => ?_
  refine (reportFaults_leaves.goesOn h₁.attended h₁.talks).bind fun _ w₂ h₂ => ?_
  refine ((log_leaves message).goesOn h₂.attended h₂.talks).bind fun _ w₃ h₃ => ?_
  exact (announce_goesOn hrelays h₃.attended h₃.talks source .commit).mono (fun _ _ h => h.1)
    (fun _ _ h => h.1)

/-- An edit goes on without ending a source. -/
theorem edit_goesOn (hw : w.Attended) (htalks : w.host.Talks) (source : SourceId) (text : String) :
    (edit source text).GoesOn none w :=
  (requireOpen_leaves.bind fun _ => update_leaves text false).goesOn hw htalks

/-- Storing a text goes on without ending a source. -/
theorem store_goesOn (hrelays : Relays deliver) (hw : w.Attended) (htalks : w.host.Talks)
    (source : SourceId) : (store deliver source).GoesOn none w := by
  refine (leaves_findSource.goesOn hw htalks).bind fun s w₁ h₁ => ?_
  have hwrite : Leaves bearing (writeFile s.path s.text : Action Desk C Unit) :=
    leaves_writeFile (fun _ _ => rfl) _ _
  refine (hwrite.goesOn h₁.attended h₁.talks).bind fun _ w₂ h₂ => ?_
  exact commit_goesOn hrelays h₂.attended h₂.talks source s.text _

/-- Saving goes on without ending a source. -/
theorem save_goesOn (hrelays : Relays deliver) (hw : w.Attended) (htalks : w.host.Talks)
    (source : SourceId) (text : Option String) : (save deliver source text).GoesOn none w := by
  refine (requireOpen_leaves.goesOn hw htalks).bind fun _ w₁ h₁ => ?_
  cases text with
  | none => exact store_goesOn hrelays h₁.attended h₁.talks source
  | some text =>
    refine ((update_leaves text false).goesOn h₁.attended h₁.talks).bind fun _ w₂ h₂ => ?_
    exact store_goesOn hrelays h₂.attended h₂.talks source

/-- A source that nobody views has no listeners to forget. -/
theorem forgetListeners_goesOn (hw : w.Attended) (htalks : w.host.Talks)
    (hunseen : ∀ {id hold}, w.holding? id = some hold → hold.source ≠ source) :
    (forgetListeners source).Ensures w (fun _ w' => w.GoesOn none w') (fun _ _ => False) := by
  refine Left.goesOn ⟨_, w.client, rfl, ?_⟩ hw htalks
  have hroll : ({ w.host with
      sources := w.host.sources.modify source
        ({ · with commitListeners := [], destroyListeners := [] }) } : Desk).roll =
      w.host.roll := by
    refine roll_modifySource source fun s hs => ?_
    have hthere : w.host.roll.listeners[source]? = some s.listeners := by simp [roll, hs]
    have hnone := hw.listens.unheard hthere hunseen
    funext event
    rw [hnone]
    cases event <;> rfl
  unfold bearing
  rw [hroll, shutters_modifySource (by exact fun _ => rfl)]

end Desk

end

end TreeInspector
