import TreeInspector.Proofs.Desk.Finality
import TreeInspector.Proofs.Text.Utf8

/-!
# A save has no echo

Saving writes the file of a source, and the watchers of that file report it. By then the file holds
the text that the source last saved, and reading it back yields that text, so there is nothing to
take over: a change does nothing at all, and a rename does nothing but put another watcher in the
place of the one that the source had. This holds of whatever a watcher of the source hands on, be it
the one that the source has or one that has been stopped.
-/

set_option autoImplicit false

namespace TreeInspector

/-! ## Files that are written and read back -/

namespace Disk

variable {d d' : Disk} {p : Path}

/-- What was put at a path is found there. -/
theorem entry?_setEntry (e : Entry) (d : Disk) : Disk.entry? (d.setEntry p e) p = some e := by
  unfold entry? setEntry
  simp

/-- The last thing put at a path is all that counts. -/
theorem setEntry_setEntry (first second : Entry) (d : Disk) :
    (d.setEntry p first).setEntry p second = d.setEntry p second := by
  unfold setEntry
  simp [List.filter_filter]

/-- What a device has room for does not depend on the entries. -/
theorem shortageAt?_setEntry (e : Entry) (d : Disk) (p' : Path) :
    (d.setEntry p e).shortageAt? p' = d.shortageAt? p' := rfl

/-- A file that can be opened is empty then, and nothing else has happened to the disk. One that
cannot be opened names its path. -/
theorem openForWriting_cases (d : Disk) (p : Path) :
    d.openForWriting p = .ok (d.setEntry p (.file [])) ∨
      ∃ cause : AccessError, d.openForWriting p = .error (cause.failure "open" (some p)) := by
  unfold openForWriting
  dsimp only
  split
  · exact .inr ⟨_, rfl⟩
  split
  · exact .inl rfl
  · exact .inr ⟨_, rfl⟩
  split_ifs
  · exact .inr ⟨_, rfl⟩
  · exact .inr ⟨_, rfl⟩
  · exact .inl rfl

/-- How a text can fail to get to its file, and what is left of the disk: all of it if the file
cannot be opened, and all but the file if its device gives out. The file then holds the first bytes
of the text, as many as the device took. -/
inductive WriteFails (d : Disk) (p : Path) (text : String) : Failure → Disk → Prop where
  | unopened (cause : AccessError)
      (refused : d.openForWriting p = .error (cause.failure "open" (some p))) :
      WriteFails d p text (cause.failure "open" (some p)) d
  | cutOff (shortage : Shortage) (short : d.shortageAt? p = some shortage)
      (more : shortage.room < (Text.Utf8.encode text).length) :
      WriteFails d p text (shortage.cause.failure "write" none)
        (d.setEntry p (.file ((Text.Utf8.encode text).take shortage.room)))

/-- A text gets to its file whole, and nothing else happens to the disk, or the write fails. -/
theorem writeText_cases (d : Disk) (p : Path) (text : String) :
    d.writeText p text = (.ok (), d.setEntry p (.file (Text.Utf8.encode text))) ∨
      ∃ e d', d.writeText p text = (.error e, d') ∧ d.WriteFails p text e d' := by
  unfold writeText
  obtain hopened | ⟨cause, hrefused⟩ := d.openForWriting_cases p
  · rw [hopened]
    dsimp only
    unfold fill
    rw [shortageAt?_setEntry, setEntry_setEntry]
    cases hshort : d.shortageAt? p with
    | none => exact .inl rfl
    | some shortage =>
      dsimp only
      split_ifs with hroom
      · exact .inl rfl
      · rw [setEntry_setEntry]
        exact .inr ⟨_, _, rfl, .cutOff shortage hshort (by omega)⟩
  · rw [hrefused]
    exact .inr ⟨_, _, rfl, .unopened cause hrefused⟩

/-- A text that the disk takes is put at its path as bytes, and nothing else happens to the disk. -/
theorem eq_of_writeText {text : String} (hwrite : d.writeText p text = (.ok (), d')) :
    d' = d.setEntry p (.file (Text.Utf8.encode text)) := by
  obtain htaken | ⟨e, d'', hrefused, -⟩ := d.writeText_cases p text
  · rw [htaken] at hwrite
    exact (Prod.mk.inj hwrite).2.symm
  · rw [hrefused] at hwrite
    cases hwrite

/-- A file that can be read at all is read as the text that was written to it. -/
theorem readText_of_encode {text : String}
    (hentry : d.entry? p = some (.file (Text.Utf8.encode text)))
    (hreadable : (d.readText p).isOk = true) : d.readText p = .ok text := by
  unfold readText readBytes at *
  cases hread : (d.obstaclesAt p).read with
  | some e =>
    rw [hread] at hreadable
    cases hreadable
  | none =>
    rw [hentry]
    exact congrArg Except.ok (Text.Utf8.decode_encode text)

end Disk

namespace Desk

section

variable {C : Type} {d d' : Desk} {w w' : World Desk C} {source : SourceId} {text : String}
  {s : SourceFile}

/-! ## Texts that are stored -/

/-- The source has last saved the text, and its file holds the bytes of the text unless the source
is closed. -/
def Stored (source : SourceId) (text : String) (d : Desk) : Prop :=
  ∃ s, d.sources[source]? = some s ∧ s.saved = text ∧
    (s.closed = false →
      d.disk.entry? (d.disk.resolve s.path) = some (.file (Text.Utf8.encode text)))

/-- Whoever is told of an event leaves the file and the saved text of the source as they are, and the
journal as one that takes all messages. It may do anything else, and it may close the source. -/
def Spares (deliver : Callback → Action Desk C Unit) (source : SourceId) (text : String) : Prop :=
  ∀ callback (w : World Desk C), w.host.Talks → w.host.Stored source text →
    (deliver callback).Ensures w (fun _ w' => w'.host.Talks ∧ w'.host.Stored source text)
      (fun _ _ => True)

/-- What is stored belongs to the ground of the desk. -/
theorem Stored.of_ground (hstored : d.Stored source text) (hground : d'.ground = d.ground) :
    d'.Stored source text := by
  obtain ⟨s, hs, hsaved, hfile⟩ := hstored
  have hsame := source_of_ground hground source
  rw [hs, Option.map_some] at hsame
  obtain ⟨s', hs', hground'⟩ := Option.map_eq_some_iff.1 hsame
  have hdisk : d'.ground.disk = d.ground.disk := by rw [hground]
  have hsaved' : s'.ground.saved = s.ground.saved := by rw [hground']
  have hclosed : s'.ground.closed = s.ground.closed := by rw [hground']
  have hpath : s'.ground.path = s.ground.path := by rw [hground']
  refine ⟨s', hs', Eq.trans hsaved' hsaved, fun hopen => ?_⟩
  rw [show d'.disk = d.disk from hdisk, show s'.path = s.path from hpath]
  exact hfile (Eq.trans (Eq.symm hclosed) hopen)

/-- Sessions, and clients that keep to themselves, do not write files. -/
theorem spares_of_discreet {deliver : Callback → Action Desk C Unit} (hrelays : Relays deliver)
    (hdiscreet : Discreet deliver) : Spares deliver source text := by
  intro callback w htalks hstored
  refine (deliver_sameGround hrelays hdiscreet htalks callback).mono ?_ (fun _ _ _ => trivial)
  intro _ w' hsame
  exact ⟨htalks.of_ground hsame, hstored.of_ground hsame⟩

/-! ## Saving -/

/-- A journal takes all messages if it takes one. -/
theorem talks_of_entry {message : String} {entry : Option String}
    (hentry : d.journal.entry? message = .ok entry) : d.Talks := by
  intro other
  cases hjournal : d.journal with
  | silent => exact ⟨none, rfl⟩
  | plain => exact ⟨some other, rfl⟩
  | stamped clock =>
    simp only [hjournal, JournalKind.entry?, stampedEntry] at hentry ⊢
    cases htime : Timestamp.text? clock with
    | none =>
      rw [htime] at hentry
      cases hentry
    | some time => exact ⟨_, rfl⟩

/-- A message in the log leaves a journal that takes all messages so. -/
theorem log_talks (message : String) :
    (log message : Action Desk C Unit).Ensures w (fun _ w' => w'.host.Talks)
      (fun _ _ => True) := by
  unfold log
  rw [Action.ensures_bind, Action.ensures_host]
  cases hentry : w.host.journal.entry? message with
  | error e => trivial
  | ok entry =>
    have htalks := talks_of_entry hentry
    cases entry <;> exact htalks

/-- Whatever leaves the ground of the desk leaves a stored text. -/
theorem Leaves.stored {α : Type} {a : Action Desk C α} (ha : Leaves ground a)
    (hstored : w.host.Stored source text) :
    a.Ensures w (fun _ w' => w'.host.Stored source text) (fun _ _ => True) := by
  refine (ha w).mono ?_ (fun _ _ _ => trivial)
  rintro _ _ ⟨d, c, rfl, hground⟩
  exact hstored.of_ground hground

/-- A text stays stored while an event is announced to those who spare it. -/
theorem announce_stored {deliver : Callback → Action Desk C Unit}
    (hspares : Spares deliver source text) (htalks : w.host.Talks)
    (hstored : w.host.Stored source text) (event : Notice) :
    (announce deliver source event).Ensures w (fun _ w' => w'.host.Stored source text)
      (fun _ _ => True) := by
  unfold announce
  rw [Action.ensures_bind]
  refine findSource_settled (fun s _ => ?_) (fun _ => trivial)
  -- A listener that fails makes the save fail, of which nothing is claimed.
  refine Action.Ensures.mono (Action.Ensures.forM
    (I := fun w' => w'.host.Talks ∧ w'.host.Stored source text) (E := fun _ _ => True) _ ?_ w
    ⟨htalks, hstored⟩) (fun _ _ h => h.2) (fun _ _ h => h)
  rintro sub - w' ⟨htalks', hstored'⟩
  rw [Action.ensures_bind, Action.ensures_host]
  cases w'.host.subscriptions[sub]? with
  | none => exact ⟨htalks', hstored'⟩
  | some listening => exact hspares listening.callback w' htalks' hstored'

/-- The text of the source is put into its file and marked as saved before anybody is told. -/
theorem store_stored {deliver : Callback → Action Desk C Unit}
    (hspares : Spares deliver source s.text) (hs : w.host.sources[source]? = some s) :
    (store deliver source).Ensures w (fun _ w' => w'.host.Stored source s.text)
      (fun _ _ => True) := by
  unfold store
  rw [Action.ensures_bind, findSource_ensures hs, Action.ensures_bind, writeFile_ensures]
  obtain htaken | ⟨e, disk, hrefused, -⟩ :=
    w.host.disk.writeText_cases (w.host.disk.resolve s.path) s.text
  case inr =>
    rw [hrefused]
    trivial
  rw [htaken]
  dsimp only
  unfold modifySource
  rw [Action.ensures_bind, Action.ensures_modifyHost]
  have hstored : Stored source s.text { w.host with
      disk := w.host.disk.setEntry (w.host.disk.resolve s.path)
        (.file (Text.Utf8.encode s.text))
      sources := w.host.sources.modify source (·.update s.text true) } := by
    refine ⟨s.update s.text true, ?_, rfl, fun _ => Disk.entry?_setEntry _ _⟩
    rw [List.getElem?_modify_eq, hs]
    rfl
  refine Action.Ensures.bind (grazes_reportFaults.stored hstored) ?_ (fun _ _ h => h)
  intro _ w₁ hstored₁
  refine ((grazes_log _).stored hstored₁ |>.and (log_talks _)).bind ?_ (fun _ _ _ => trivial)
  rintro _ w₂ ⟨hstored₂, htalks₂⟩
  exact announce_stored hspares htalks₂ hstored₂ .commit

/-- A save that succeeds leaves its text stored, if those who are told spare it. -/
theorem save_stored {deliver : Callback → Action Desk C Unit} {text : Option String}
    (hs : w.host.sources[source]? = some s) (hspares : Spares deliver source (text.getD s.text)) :
    (save deliver source text).Ensures w (fun _ w' => w'.host.Stored source (text.getD s.text))
      (fun _ _ => True) := by
  unfold save
  rw [Action.ensures_bind]
  refine requireOpen_ensures (fun _ _ => trivial) fun _ _ _ => ?_
  cases text with
  | none => exact store_stored hspares hs
  | some text =>
    rw [Action.ensures_bind]
    unfold modifySource
    rw [Action.ensures_modifyHost]
    have hedited : (w.host.sources.modify source (·.update text false))[source]? =
        some (s.update text false) := by
      rw [List.getElem?_modify_eq, hs]
      rfl
    exact store_stored (s := s.update text false)
      (w := { w with host := { w.host with
        sources := w.host.sources.modify source (·.update text false) } }) hspares hedited

/-! ## Reports -/

/-- The desk after the watcher of a source has been renewed, if the source is open. -/
def rewatch (source : SourceId) (d : Desk) : Desk :=
  match d.sources[source]? with
  | some s => if s.closed then d else d.renewed source s
  | none => d

/-- The desk without what is different once the watcher of a source has been renewed. -/
def unwatched (source : SourceId) (d : Desk) : Desk :=
  { d with
    watchers := []
    sources := d.sources.modify source ({ · with watcher := none })
    trace := [] }

/-- The watcher of an open source is renewed. -/
theorem rewatch_of_open (hs : d.sources[source]? = some s) (hopen : s.closed = false) :
    d.rewatch source = d.renewed source s := by
  simp [rewatch, hs, hopen]

/-- A closed source does not get another watcher. -/
theorem rewatch_of_closed (hs : d.sources[source]? = some s) (hclosed : s.closed = true) :
    d.rewatch source = d := by
  simp [rewatch, hs, hclosed]

/-- Renewing a watcher changes nothing but what is watched. -/
theorem rewatch_unwatched (source : SourceId) (d : Desk) :
    (d.rewatch source).unwatched source = d.unwatched source := by
  cases hs : d.sources[source]? with
  | none => simp [rewatch, hs]
  | some s =>
    cases hclosed : s.closed with
    | true => rw [rewatch_of_closed hs hclosed]
    | false =>
      rw [rewatch_of_open hs hclosed]
      simp [unwatched, renewed, List.modify_modify_eq, Function.comp_def]

/-- Renewing a watcher any number of times changes nothing but what is watched. -/
theorem iterate_rewatch_unwatched (source : SourceId) (n : ℕ) (d : Desk) :
    ((rewatch source)^[n] d).unwatched source = d.unwatched source := by
  induction n generalizing d with
  | zero => rfl
  | succ n ih => rw [Function.iterate_succ_apply, ih, rewatch_unwatched]

/-- The file of the source can be read and watched, unless the source is closed. -/
def Accessible (source : SourceId) (d : Desk) : Prop :=
  ∀ s, d.sources[source]? = some s → s.closed = false →
    (d.disk.readText (d.disk.resolve s.path)).isOk = true ∧
      (d.disk.checkWatch (d.disk.resolve s.path)).isOk = true

/-- Renewing the watcher of a source leaves its path, its saved text and the disk as they are. -/
theorem source_rewatch (hs : d.sources[source]? = some s) :
    ∃ watcher, (d.rewatch source).sources[source]? = some { s with watcher := watcher } := by
  by_cases hclosed : s.closed
  · exact ⟨s.watcher, by rw [rewatch_of_closed hs hclosed, hs]⟩
  · refine ⟨some d.watchers.length, ?_⟩
    rw [rewatch_of_open hs (by simpa using hclosed)]
    simp [renewed, hs]

/-- Renewing a watcher does not change the disk. -/
theorem disk_rewatch (source : SourceId) (d : Desk) : (d.rewatch source).disk = d.disk := by
  have hsame : ((d.rewatch source).unwatched source).disk = (d.unwatched source).disk := by
    rw [rewatch_unwatched]
  exact hsame

/-- A text stays stored when a watcher is renewed. -/
theorem Stored.rewatch (hstored : d.Stored source text) :
    (d.rewatch source).Stored source text := by
  obtain ⟨s, hs, hsaved, hfile⟩ := hstored
  obtain ⟨watcher, hs'⟩ := source_rewatch hs
  refine ⟨_, hs', hsaved, ?_⟩
  rw [disk_rewatch]
  exact hfile

/-- A file whose text is stored stays accessible when a watcher is renewed. -/
theorem Accessible.rewatch (hstored : d.Stored source text) (haccess : d.Accessible source) :
    (d.rewatch source).Accessible source := by
  obtain ⟨s, hs, -⟩ := hstored
  obtain ⟨watcher, hs'⟩ := source_rewatch hs
  intro s' hsome hopen
  rw [hs', Option.some.injEq] at hsome
  subst hsome
  rw [disk_rewatch]
  exact haccess s hs hopen

section

variable {deliver : Callback → Action Desk C Unit}

/-- There is nothing to take over from a file that holds the text last saved. -/
theorem reload_of_stored (hs : w.host.sources[source]? = some s)
    (hread : w.host.disk.readText (w.host.disk.resolve s.path) = .ok s.saved)
    {Q : Unit → World Desk C → Prop} {E : Failure → World Desk C → Prop} (hQ : Q () w) :
    (reload deliver source).Ensures w Q E := by
  unfold reload
  rw [Action.ensures_bind, findSource_ensures hs, Action.ensures_bind, Action.ensures_host]
  simp only [hread, if_true]
  exact hQ

/-- What is reported of a file that holds the text last saved comes to nothing, but that a rename
renews the watcher. -/
theorem fileEvent_of_stored (hstored : w.host.Stored source text)
    (haccess : w.host.Accessible source) (renamed : Bool) :
    fileEvent deliver source renamed w =
      .ok () (if renamed then w.beside (w.host.rewatch source) w.client else w) := by
  have hquiet : (fileEvent deliver source renamed).EndsWell w fun _ w' =>
      w' = if renamed then w.beside (w.host.rewatch source) w.client else w := by
    obtain ⟨s, hs, rfl, hfile⟩ := hstored
    unfold fileEvent Action.EndsWell
    rw [Action.ensures_bind, findSource_ensures hs]
    cases hclosed : s.closed with
    | true =>
      rw [rewatch_of_closed hs hclosed]
      cases renamed <;> rfl
    | false =>
      obtain ⟨hreadable, hwatchable⟩ := haccess s hs hclosed
      have hread := Disk.readText_of_encode (hfile hclosed) hreadable
      cases renamed with
      | false =>
        simp only [Bool.false_eq_true, if_false]
        exact reload_of_stored hs hread rfl
      | true =>
        simp only [Bool.false_eq_true, if_false, if_true]
        rw [Action.ensures_bind, Action.ensures_attempt, rewatch_of_open hs hclosed]
        refine watchSource_renews hs (fun _ hrefused => ?_) fun _ => ?_
        · rw [hwatchable] at hrefused
          cases hrefused
        · have hs' : (w.host.renewed source s).sources[source]? =
              some { s with watcher := some w.host.watchers.length } := by
            simp [renewed, hs]
          exact reload_of_stored (w := w.beside (w.host.renewed source s) w.client) hs' hread rfl
  obtain ⟨_, w', hr, rfl⟩ := hquiet.exists_ok
  exact hr

/-- However many reports come, each rename renews the watcher, and nothing else happens. -/
theorem fileEvents_of_stored (hstored : w.host.Stored source text)
    (haccess : w.host.Accessible source) (renames : List Bool) :
    renames.forM (fileEvent deliver source) w =
      .ok () (w.beside ((rewatch source)^[renames.count true] w.host) w.client) := by
  -- What the first report leaves is stored and accessible again, so the others find it as it was.
  induction renames generalizing w with
  | nil => rfl
  | cons renamed renames ih =>
    have hone : fileEvent deliver source renamed w = _ :=
      fileEvent_of_stored hstored haccess renamed
    refine (Action.bind_of_ok hone fun _ => renames.forM (fileEvent deliver source)).trans ?_
    cases renamed with
    | false =>
      rw [List.count_cons_of_ne (by decide)]
      exact ih hstored haccess
    | true =>
      rw [List.count_cons_self, Function.iterate_succ_apply]
      exact ih (w := w.beside (w.host.rewatch source) w.client) hstored.rewatch
        (haccess.rewatch hstored)

/-- Once a text has been saved, its file holds the bytes of the text, which are read back as that
text, and no report of the file is of any consequence, in whatever number and order they come and
whoever would be told of a commit: none fails, a rename renews the watcher of the source, and
everything else stays as the save left it. -/
theorem save_without_echo {text : Option String} (hs : w.host.sources[source]? = some s)
    (hspares : Spares deliver source (text.getD s.text))
    (hsaved : save deliver source text w = .ok () w') (haccess : w'.host.Accessible source) :
    w'.host.Stored source (text.getD s.text) ∧
    (∀ t : String, Text.Utf8.decode (Text.Utf8.encode t) = t) ∧
    ∀ (deliver' : Callback → Action Desk C Unit) (renames : List Bool),
      renames.forM (fileEvent deliver' source) w' =
        .ok () (w'.beside ((rewatch source)^[renames.count true] w'.host) w'.client) ∧
      ((rewatch source)^[renames.count true] w'.host).unwatched source =
        w'.host.unwatched source := by
  have hstored : w'.host.Stored source (text.getD s.text) :=
    (Action.ensures_of_ok hsaved).1 (save_stored hs hspares)
  refine ⟨hstored, Text.Utf8.decode_encode, fun deliver' renames => ⟨?_, ?_⟩⟩
  · exact fileEvents_of_stored hstored haccess renames
  · exact iterate_rewatch_unwatched source _ w'.host

end

end

end Desk

/-! ## A text with a byte order mark -/

namespace DeskRun

/-- A text that starts with a byte order mark and has a character of four bytes. -/
def marked : String := "\uFEFF[\"😀\"]"

/-- The text is saved while the file is shown, and then reported as changed and replaced. -/
theorem marked_without_echo :
    ∃ w', Desk.save relay 0 (some marked) watchedAndShown = .ok () w' ∧
      w'.sessions.map (·.state) = [.active] ∧ w'.host.Stored 0 marked ∧
      [false, true, true, false].forM (Desk.fileEvent relay 0) w' =
        .ok () (w'.beside ((Desk.rewatch 0)^[2] w'.host) w'.client) := by
  obtain ⟨s, hs⟩ : ∃ s, watchedAndShown.host.sources[0]? = some s :=
    Option.isSome_iff_exists.1 (by decide +kernel)
  cases hsaved : Desk.save relay 0 (some marked) watchedAndShown with
  | error e w' =>
    have hok : ((Desk.save relay 0 (some marked)).outcome watchedAndShown).1.toOption =
        some () := by decide +kernel
    rw [Action.outcome_of_error hsaved] at hok
    cases hok
  | ok _ w' =>
    have hafter : ((Desk.save relay 0 (some marked)).outcome watchedAndShown).2 = w' := by
      rw [Action.outcome_of_ok hsaved]
    have haccess : w'.host.Accessible 0 := by
      have hall : (w'.host.sources[0]?.all fun s =>
          (w'.host.disk.readText (w'.host.disk.resolve s.path)).isOk &&
            (w'.host.disk.checkWatch (w'.host.disk.resolve s.path)).isOk) = true := by
        rw [← hafter]
        decide +kernel
      intro s' hs' _
      rw [hs', Option.all_some, Bool.and_eq_true] at hall
      exact hall
    have hquiet := Desk.save_without_echo hs
      (Desk.spares_of_discreet (fun _ _ => rfl) relay_discreet) hsaved haccess
    refine ⟨w', rfl, ?_, hquiet.1, (hquiet.2.2 relay [false, true, true, false]).1⟩
    rw [← hafter]
    decide +kernel

end DeskRun

end TreeInspector
