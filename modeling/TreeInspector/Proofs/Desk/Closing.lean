import TreeInspector.Proofs.Desk.Listeners

/-!
# Closing a source

A source is closed on request, when its file is gone, when the file was replaced and cannot be
watched anew, or when its watcher fails. Whichever way it is, the source is marked as closed, and
then its end is announced, once, to those who listen to it. No other operation closes a source.
-/

set_option autoImplicit false

namespace TreeInspector

namespace Desk

/-- The source is there and has not been closed. -/
def isOpen (source : SourceId) (d : Desk) : Bool :=
  match d.sources[source]? with
  | some s => !s.closed
  | none => false

/-- There is no file at the path. -/
def isMissing (path : String) (d : Desk) : Bool :=
  match d.disk.readText (d.disk.resolve path) with
  | .error e => e.isMissingFile
  | .ok _ => false

/-- A report about the file of a source, which was changed or replaced, makes the desk give it
up. -/
def givesUp (source : SourceId) (renamed : Bool) (d : Desk) : Bool :=
  match d.sources[source]? with
  | some s =>
    !s.closed && (renamed && !(d.disk.checkWatch (d.disk.resolve s.path)).isOk ||
      d.isMissing s.path)
  | none => false

end Desk

section

variable {C : Type} {w w' : World Desk C} {source : SourceId} {closing : Option SourceId}

/-! ## The end of a source -/

/-- The source has been marked as closed, and nobody has been told of it. -/
structure World.Shuts (source : SourceId) (s : SourceFile) (w w₁ : World Desk C) : Prop where
  sessions : w₁.sessions = w.sessions
  registry : w₁.registry = w.registry
  marked : w₁.host.sources[source]? = some s.shut
  roll : w₁.host.roll = w.host.roll
  shutters : w₁.host.shutters = w.host.shutters.modify source fun _ => some none
  talks : w₁.host.Talks

/-- The source is marked as closed. Then those who listen to its end are told, each once, and all
who listen are forgotten. -/
def World.Ends (source : SourceId) (s : SourceFile) (w : World Desk C)
    (a : (Callback → Action Desk C Unit) → Action Desk C Unit) : Prop :=
  ∃ w₁, w.Shuts source s w₁ ∧ ∀ deliver, a deliver w = (do
    (w.host.callees s .destroy).forM deliver
    Desk.forgetListeners source : Action Desk C Unit) w₁

variable {s : SourceFile} {a : (Callback → Action Desk C Unit) → Action Desk C Unit}
  {deliver : Callback → Action Desk C Unit}

/-- What happened before does not matter to those who listen. -/
theorem World.Shuts.of_left {s' : SourceFile} {w₁ : World Desk C} (h : Desk.Left Desk.bearing w w')
    (shuts : w'.Shuts source s' w₁) (hsame : s'.shut = s.shut) : w.Shuts source s w₁ := by
  obtain ⟨d, c, rfl, hbearing⟩ := h
  have hroll : d.roll = w.host.roll := congrArg Prod.fst hbearing
  have hshutters : d.shutters = w.host.shutters := congrArg (·.2.1) hbearing
  refine ⟨shuts.sessions, shuts.registry, hsame ▸ shuts.marked, shuts.roll.trans hroll, ?_,
    shuts.talks⟩
  rw [← hshutters]
  exact shuts.shutters

/-- Marking a source as closed does not change who is called of its end. -/
theorem World.Shuts.callees_eq {w₁ : World Desk C} (shuts : w.Shuts source s w₁) :
    w₁.host.callees s.shut .destroy = w.host.callees s .destroy := by
  have hsubscriptions : w₁.host.subscriptions = w.host.subscriptions :=
    congrArg Roll.subscriptions shuts.roll
  unfold Desk.callees
  rw [hsubscriptions]
  rfl

/-- Marking a source as closed keeps what sessions hold, and attendance. -/
theorem World.Shuts.attended {w₁ : World Desk C} (shuts : w.Shuts source s w₁) (hw : w.Attended) :
    w₁.holding? = w.holding? ∧ w₁.Attended := by
  have hholding : w₁.holding? = w.holding? := by
    unfold World.holding? World.seen
    rw [shuts.sessions]
  exact ⟨hholding, hw.same shuts.roll hholding shuts.registry⟩

/-- What ends a source goes on with nobody who views it. -/
theorem World.Ends.goesOn (ends : w.Ends source s a) (hrelays : Desk.Relays deliver)
    (hw : w.Attended) : (a deliver).GoesOn (some source) w := by
  obtain ⟨w₁, shuts, heq⟩ := ends
  obtain ⟨hholding, hw₁⟩ := shuts.attended hw
  -- From here on the source counts as closed, and nothing closes another one.
  have hend : ∀ {w'}, w₁.GoesOn none w' →
      (∀ {id hold}, w'.holding? id = some hold → hold.source ≠ source) →
      w.GoesOn (some source) w' := by
    intro w' h hunseen
    refine ⟨h.attended, h.talks, ?_, Eq.trans h.shutters shuts.shutters, ?_⟩
    · intro id hold held
      rw [← hholding]
      exact h.wanes held
    · rintro i ⟨⟩
      exact hunseen
  have hannounced : ((w.host.callees s .destroy).forM deliver : Action Desk C Unit) w₁ =
      Desk.announce deliver source .destroy w₁ := by
    rw [Desk.announce_eq hw₁ shuts.marked, shuts.callees_eq]
  unfold Action.GoesOn Action.Ensures
  rw [heq deliver, Action.bind_of_eq hannounced]
  refine Action.Ensures.bind (Desk.announce_goesOn hrelays hw₁ shuts.talks source .destroy) ?_ ?_
  · rintro _ w₂ ⟨h₂, hunseen⟩
    refine (Desk.forgetListeners_goesOn h₂.attended h₂.talks (hunseen rfl)).mono ?_
      (fun _ _ h => h.elim)
    intro _ w₃ h₃
    exact hend (h₂.trans h₃) fun held => hunseen rfl (h₃.wanes held)
  · rintro _ w₂ ⟨h₂, hunseen⟩
    exact hend h₂ (hunseen (by rw [shuts.marked]; rfl) rfl)

namespace Desk

/-- Marking a source as closed and logging it does only that. -/
theorem shut_log (hs : w.host.sources[source]? = some s) (htalks : w.host.Talks)
    (message : String) :
    (do
      shut source
      log message : Action Desk C Unit).Ensures w (fun _ w₁ => w.Shuts source s w₁)
        (fun _ _ => False) := by
  rw [Action.ensures_bind]
  refine shut_ensures hs fun trace => ?_
  generalize hd : ({ w.host with
    watchers := stopped w.host.watchers s.watcher
    sources := w.host.sources.modify source SourceFile.shut
    trace := trace } : Desk) = d
  have htalks' : d.Talks := by
    rw [← hd]
    exact htalks
  refine log_of_talks (w := w.beside d w.client) htalks' message fun messages => ?_
  refine ⟨rfl, rfl, ?_, ?_, ?_, htalks'⟩
  · show d.sources[source]? = _
    rw [← hd, List.getElem?_modify_eq, hs]
    rfl
  · show d.roll = _
    rw [← hd]
    exact roll_modifySource (d := { w.host with watchers := stopped w.host.watchers s.watcher })
      source (fun _ _ => rfl)
  · show d.shutters = _
    rw [← hd]
    exact shutters_shut (d := { w.host with watchers := stopped w.host.watchers s.watcher })

/-- What closing comes to once the source is marked as closed. -/
theorem close_of_shut (hs : w.host.sources[source]? = some s) (hopen : s.closed = false)
    {w₁ : World Desk C} (hshut : (do
      shut source
      log ("Closed " ++ s.name ++ ".") : Action Desk C Unit) w = .ok () w₁)
    (deliver : Callback → Action Desk C Unit) :
    close deliver source w = (do
      announce deliver source .destroy
      forgetListeners source : Action Desk C Unit) w₁ := by
  have hsplit : close deliver source w = (do
      shut source
      log ("Closed " ++ s.name ++ ".")
      announce deliver source .destroy
      forgetListeners source : Action Desk C Unit) w := by
    unfold close
    rw [Action.bind_of_ok (findSource_eq hs)]
    simp only [hopen, Bool.false_eq_true, if_false]
  have hassoc : (do
      shut source
      log ("Closed " ++ s.name ++ ".")
      announce deliver source .destroy
      forgetListeners source : Action Desk C Unit) = ((do
        shut source
        log ("Closed " ++ s.name ++ ".")) >>= fun _ => do
          announce deliver source .destroy
          forgetListeners source) := by
    rw [bind_assoc]
  rw [hsplit, hassoc, Action.bind_of_ok hshut]

/-- Closing an open source ends it. -/
theorem close_ends (hw : w.Attended) (htalks : w.host.Talks)
    (hs : w.host.sources[source]? = some s) (hopen : s.closed = false) :
    w.Ends source s fun deliver => close deliver source := by
  obtain ⟨_, w₁, hshut, shuts⟩ := (shut_log hs htalks ("Closed " ++ s.name ++ ".")).exists_ok
  refine ⟨w₁, shuts, fun deliver => ?_⟩
  have hw₁ := (shuts.attended hw).2
  show close deliver source w = _
  rw [close_of_shut hs hopen hshut]
  refine Action.bind_of_eq ?_ _
  rw [announce_eq hw₁ shuts.marked, shuts.callees_eq]

end Desk

/-- An operation that calls those who listen goes on, and ends the source given, if one is. -/
structure World.Carries (closing : Option SourceId) (w : World Desk C)
    (a : (Callback → Action Desk C Unit) → Action Desk C Unit) : Prop where
  goesOn : ∀ {deliver}, Desk.Relays deliver → (a deliver).GoesOn closing w
  ends : ∀ {i}, closing = some i → ∃ s, w.host.sources[i]? = some s ∧ s.closed = false ∧
    w.Ends i s a

/-- An operation that goes on without ending a source carries none. -/
theorem World.Carries.of_goesOn (h : ∀ {deliver}, Desk.Relays deliver → (a deliver).GoesOn none w) :
    w.Carries none a :=
  ⟨h, fun h => by cases h⟩

/-- An operation that ends an open source carries it. -/
theorem World.Ends.carries (ends : w.Ends source s a) (hw : w.Attended)
    (hs : w.host.sources[source]? = some s) (hopen : s.closed = false) :
    w.Carries (some source) a := by
  refine ⟨fun hrelays => ends.goesOn hrelays hw, ?_⟩
  rintro i ⟨⟩
  exact ⟨s, hs, hopen, ends⟩

/-- What happens after something that does not matter to those who listen. -/
theorem World.Carries.of_left {a' : (Callback → Action Desk C Unit) → Action Desk C Unit}
    (carries : w'.Carries closing a') (heq : ∀ deliver, a deliver w = a' deliver w')
    (h : Desk.Left Desk.bearing w w') (hw : w.Attended) (htalks : w.host.Talks)
    (hsame : ∀ i s', closing = some i → w'.host.sources[i]? = some s' →
      ∃ s, w.host.sources[i]? = some s ∧ s.closed = s'.closed ∧ s.shut = s'.shut) :
    w.Carries closing a := by
  have hon := h.goesOn hw htalks
  refine ⟨fun hrelays => ?_, fun {i} hi => ?_⟩
  · unfold Action.GoesOn Action.Ensures
    rw [heq]
    exact (carries.goesOn hrelays).mono (fun _ _ h => hon.trans h) (fun _ _ h => hon.trans h)
  · obtain ⟨s', hs', hopen, w₁, shuts, hends⟩ := carries.ends hi
    obtain ⟨s, hs, hclosed, hshut⟩ := hsame i s' hi hs'
    have shuts' : w.Shuts i s w₁ := shuts.of_left h hshut.symm
    refine ⟨s, hs, hclosed.trans hopen, w₁, shuts', fun deliver => ?_⟩
    rw [heq, hends, ← shuts'.callees_eq, ← shuts.callees_eq, hshut]

/-- Operations that do the same from a world carry the same. -/
theorem World.Carries.congr {a' : (Callback → Action Desk C Unit) → Action Desk C Unit}
    (carries : w.Carries closing a') (heq : ∀ deliver, a deliver w = a' deliver w)
    (hw : w.Attended) (htalks : w.host.Talks) : w.Carries closing a :=
  carries.of_left heq (.refl _ w) hw htalks fun _ s _ hs => ⟨s, hs, rfl, rfl⟩

namespace Desk

/-- A source that is there is open iff it has not been closed. -/
theorem isOpen_of_some (hs : w.host.sources[source]? = some s) :
    w.host.isOpen source = !s.closed := by
  unfold isOpen
  rw [hs]

/-- Closing ends the source if it is open. -/
theorem close_carries (hw : w.Attended) (htalks : w.host.Talks) (source : SourceId) :
    w.Carries (if w.host.isOpen source then some source else none)
      fun deliver => close deliver source := by
  cases hs : w.host.sources[source]? with
  | none =>
    have hnot : w.host.isOpen source = false := by
      unfold isOpen
      rw [hs]
    rw [hnot, if_neg Bool.false_ne_true]
    refine .of_goesOn fun {deliver} _ => ?_
    unfold close Action.GoesOn
    rw [Action.ensures_bind, findSource_of_none hs]
    exact .refl hw htalks
  | some s =>
    rw [isOpen_of_some hs]
    cases hclosed : s.closed with
    | true =>
      refine .of_goesOn fun {deliver} _ => ?_
      unfold close Action.GoesOn
      rw [Action.ensures_bind, findSource_ensures hs]
      simp only [hclosed, if_true]
      exact .refl hw htalks
    | false => exact (close_ends hw htalks hs hclosed).carries hw hs hclosed

/-- Closing after a message in the log ends the source if it is open. -/
theorem log_close_carries (hw : w.Attended) (htalks : w.host.Talks) (source : SourceId)
    (message : String) :
    w.Carries (if w.host.isOpen source then some source else none) (fun deliver => do
      log message
      close deliver source) := by
  have hlog : (log message).Ensures w
      (fun _ w' => Left bearing w w' ∧ w'.host.sources = w.host.sources) (fun _ _ => False) :=
    log_of_talks htalks message fun messages => ⟨⟨_, w.client, rfl, rfl⟩, rfl⟩
  obtain ⟨_, w₁, hr, hleft, hsources⟩ := hlog.exists_ok
  have hon := hleft.goesOn hw htalks
  have hopen : w₁.host.isOpen source = w.host.isOpen source := by
    unfold isOpen
    rw [hsources]
  have hclose := close_carries hon.attended hon.talks source
  rw [hopen] at hclose
  refine hclose.of_left (fun deliver => Action.bind_of_ok hr _) hleft hw htalks ?_
  intro i s _ hs
  rw [hsources] at hs
  exact ⟨s, hs, rfl, rfl⟩

/-- Reading a file again closes the source if the file is gone, logs another failure, and takes over
another text. -/
theorem reload_eq (hs : w.host.sources[source]? = some s)
    (deliver : Callback → Action Desk C Unit) :
    reload deliver source w = (match w.host.disk.readText (w.host.disk.resolve s.path) with
      | .error e =>
        if e.isMissingFile then close deliver source
        else log ("Unable to reload " ++ s.name ++ ": " ++ e.message)
      | .ok text => do
        if text = s.saved then return
        modifySource source (·.update text true)
        reportFaults source
        log (s.name ++ " changed on disk.")
        announce deliver source .commit : Action Desk C Unit) w := by
  unfold reload
  rw [Action.bind_of_ok (findSource_eq hs)]
  exact Action.bind_host _ w

/-- Taking over what is on disk ends the source exactly if its file is missing. -/
theorem reload_carries (hw : w.Attended) (htalks : w.host.Talks)
    (hs : w.host.sources[source]? = some s) (hopen : s.closed = false) :
    w.Carries (if w.host.isMissing s.path then some source else none)
      fun deliver => reload deliver source := by
  refine World.Carries.congr ?_ (reload_eq hs) hw htalks
  unfold isMissing
  cases w.host.disk.readText (w.host.disk.resolve s.path) with
  | error e =>
    by_cases hmissing : e.isMissingFile = true
    · simp only [hmissing, if_true]
      exact (close_ends hw htalks hs hopen).carries hw hs hopen
    · simp only [hmissing, Bool.false_eq_true, if_false]
      exact .of_goesOn fun _ => (log_leaves _).goesOn hw htalks
  | ok text =>
    refine .of_goesOn fun hrelays => ?_
    dsimp only
    split
    · exact World.GoesOn.refl hw htalks
    · exact commit_goesOn hrelays hw htalks source text _

/-- A source that is open is given up if its file is gone, or has been replaced and cannot be
watched. -/
theorem givesUp_of_open (hs : w.host.sources[source]? = some s) (hopen : s.closed = false)
    (renamed : Bool) : w.host.givesUp source renamed =
      (renamed && !(w.host.disk.checkWatch (w.host.disk.resolve s.path)).isOk ||
        w.host.isMissing s.path) := by
  unfold givesUp
  rw [hs]
  simp only [hopen, Bool.not_false, Bool.true_and]

/-- Watching a source anew does not matter to those who listen. -/
theorem watchSource_left (hs : w.host.sources[source]? = some s) :
    (watchSource source).Ensures w
      (fun _ w' => (w.host.disk.checkWatch (w.host.disk.resolve s.path)).isOk = true ∧
        Left bearing w w' ∧ w'.host.disk = w.host.disk ∧
        ∃ watcher, w'.host.sources[source]? = some { s with watcher := watcher })
      (fun _ w' => (w.host.disk.checkWatch (w.host.disk.resolve s.path)).isOk = false ∧
        w' = w) := by
  refine ((watchSource_leaves w).and (watchSource_cases (Q := fun _ w' =>
    (w.host.disk.checkWatch (w.host.disk.resolve s.path)).isOk = true ∧
      w'.host.disk = w.host.disk ∧
      ∃ watcher, w'.host.sources[source]? = some { s with watcher := watcher })
    (E := fun _ w' => (w.host.disk.checkWatch (w.host.disk.resolve s.path)).isOk = false ∧
        w' = w) hs (fun _ hno => ⟨hno, rfl⟩) fun path trace hok => ⟨hok, rfl, ?_⟩)).mono ?_ ?_
  · refine ⟨some w.host.watchers.length, ?_⟩
    show (w.host.sources.modify source _)[source]? = _
    rw [List.getElem?_modify_eq, hs]
    rfl
  · rintro _ w' ⟨hleft, hok, hdisk, hs'⟩
    exact ⟨hok, hleft, hdisk, hs'⟩
  · rintro _ w' ⟨-, h⟩
    exact h

/-- A renamed file is watched anew before it is read; one that cannot be watched is given up. -/
theorem rewatch_carries (hw : w.Attended) (htalks : w.host.Talks)
    (hs : w.host.sources[source]? = some s) (hopen : s.closed = false) (name : String) :
    w.Carries (if w.host.givesUp source true then some source else none) (fun deliver => do
      match ← (watchSource source).attempt with
      | .ok _ => reload deliver source
      | .error e =>
        log ("Stopped watching " ++ name ++ ": " ++ e.message)
        close deliver source) := by
  rw [givesUp_of_open hs hopen, Bool.true_and]
  have hwatch := watchSource_left hs
  unfold Action.Ensures at hwatch
  cases hr : watchSource source w with
  | ok x w₁ =>
    rw [hr] at hwatch
    obtain ⟨hok, hleft, hdisk, watcher, hs₁⟩ := hwatch
    have hon := hleft.goesOn hw htalks
    have hmissing : w₁.host.isMissing s.path = w.host.isMissing s.path := by
      unfold isMissing
      rw [hdisk]
    have hattempt := Action.attempt_of_ok hr
    rw [hok, Bool.not_true, Bool.false_or, ← hmissing]
    have hreload := reload_carries hon.attended hon.talks hs₁ hopen
    refine World.Carries.of_left hreload (fun deliver => Action.bind_of_ok hattempt _) hleft hw
      htalks ?_
    intro i s' hi hs'
    obtain ⟨-, rfl⟩ : _ ∧ source = i := by simpa using hi
    rw [hs₁] at hs'
    cases hs'
    exact ⟨s, hs, rfl, rfl⟩
  | error e w₁ =>
    rw [hr] at hwatch
    obtain ⟨hok, rfl⟩ := hwatch
    have hattempt := Action.attempt_of_error hr
    rw [hok, Bool.not_false, Bool.true_or, if_pos rfl]
    refine World.Carries.congr ?_ (fun deliver => Action.bind_of_ok hattempt _) hw htalks
    have hclose := log_close_carries hw htalks source
      ("Stopped watching " ++ name ++ ": " ++ e.message)
    rw [isOpen_of_some hs, hopen] at hclose
    exact hclose

/-- A report about a file ends the source if it makes the desk give it up. -/
theorem fileEvent_carries (hw : w.Attended) (htalks : w.host.Talks) (source : SourceId)
    (renamed : Bool) :
    w.Carries (if w.host.givesUp source renamed then some source else none)
      fun deliver => fileEvent deliver source renamed := by
  cases hs : w.host.sources[source]? with
  | none =>
    have hnot : w.host.givesUp source renamed = false := by
      unfold givesUp
      rw [hs]
    rw [hnot, if_neg Bool.false_ne_true]
    refine .of_goesOn fun {deliver} _ => ?_
    unfold fileEvent Action.GoesOn
    rw [Action.ensures_bind, findSource_of_none hs]
    exact .refl hw htalks
  | some s =>
    have heq : ∀ deliver : Callback → Action Desk C Unit, fileEvent deliver source renamed w =
        (if s.closed then pure () else if renamed then do
          match ← (watchSource source).attempt with
          | .ok _ => reload deliver source
          | .error e =>
            log ("Stopped watching " ++ s.name ++ ": " ++ e.message)
            close deliver source
        else reload deliver source : Action Desk C Unit) w :=
      fun deliver => Action.bind_of_ok (findSource_eq hs) _
    refine World.Carries.congr ?_ heq hw htalks
    cases hclosed : s.closed with
    | true =>
      have hnot : w.host.givesUp source renamed = false := by
        unfold givesUp
        rw [hs]
        simp only [hclosed, Bool.not_true, Bool.false_and]
      rw [hnot, if_neg Bool.false_ne_true]
      exact .of_goesOn fun _ => World.GoesOn.refl hw htalks
    | false =>
      simp only [Bool.false_eq_true, if_false]
      cases renamed with
      | true => exact rewatch_carries hw htalks hs hclosed s.name
      | false =>
        rw [givesUp_of_open hs hclosed, Bool.false_and, Bool.false_or]
        exact reload_carries hw htalks hs hclosed

/-- A watcher that fails ends the source if it is open. -/
theorem watcherFailed_carries (hw : w.Attended) (htalks : w.host.Talks) (source : SourceId)
    (message : String) :
    w.Carries (if w.host.isOpen source then some source else none)
      fun deliver => watcherFailed deliver source message := by
  cases hs : w.host.sources[source]? with
  | none =>
    have hnot : w.host.isOpen source = false := by
      unfold isOpen
      rw [hs]
    rw [hnot, if_neg Bool.false_ne_true]
    refine .of_goesOn fun {deliver} _ => ?_
    unfold watcherFailed Action.GoesOn
    rw [Action.ensures_bind, findSource_of_none hs]
    exact .refl hw htalks
  | some s =>
    refine World.Carries.congr ?_ (fun deliver => Action.bind_of_ok (findSource_eq hs) _) hw htalks
    exact log_close_carries hw htalks source _

end Desk

end

end TreeInspector
