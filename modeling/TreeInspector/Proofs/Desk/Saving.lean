import TreeInspector.Proofs.Desk.Echo
import TreeInspector.Proofs.Desk.Ventures

/-!
# Saving is all or nothing

A save that the disk refuses comes to no more than the edit: whoever listens is not called, and
saving again, once the disk takes the text, comes to what the first save would have come to. Only
the file itself may suffer: if its device gives out after the file has been opened, which empties
it, the file is left with the first bytes of the text. A save that the disk takes makes the text the
saved one, and then all who listen to commits are called, one after the other, until one of them
fails. Sessions do not fail; they show the text that was saved.
-/

set_option autoImplicit false

namespace TreeInspector

/-- The source is open, has the text, with the tree and the faults of it, and has saved it. -/
structure SourceFile.IsAt (s : SourceFile) (text : String) : Prop where
  now : s.text = text
  saved : s.saved = text
  clean : s.isUnsaved = false
  tree : s.tree = some (Document.analyze Document.lenient text).root
  faults : s.faults = (Document.analyze Document.lenient text).faults
  isOpen : s.closed = false

section

variable {C : Type} {w w' v w₁ : World Desk C} {source : SourceId} {s : SourceFile}
  {text : String}

/-! ## Commits -/

/-- The world once a source has taken up a text as its saved one, with these messages in the log. -/
def World.takingUp (source : SourceId) (text : String) (messages : List String)
    (w : World Desk C) : World Desk C :=
  w.beside
    { w.host with
      sources := w.host.sources.modify source (·.update text true)
      messages := messages } w.client

/-- The source has taken up the text. The disk is as before, and so are the panes and the
subscriptions that each session holds. -/
structure World.Settles (source : SourceId) (text : String) (v w' : World Desk C) : Prop where
  source : ∃ s, w'.host.sources[source]? = some s ∧ s.IsAt text
  disk : w'.host.disk = v.host.disk
  holding : w'.holding? = v.holding?

/-- What the action comes to in `w`: from `v`, a source takes up a text, which leads to `w₁`, and
then its commit is announced. -/
structure World.Commits (source : SourceId) (s : SourceFile) (text : String)
    (w v w₁ : World Desk C) (a : (Callback → Action Desk C Unit) → Action Desk C Unit) : Prop where
  takesUp : ∃ messages, w₁ = v.takingUp source text messages
  /-- The subscriptions to commits that are in force are listed, each once. -/
  listens : (s.listeners .commit).Nodup ∧
    ∀ sub, sub ∈ s.listeners .commit ↔ v.host.gist.Serves source .commit sub
  /-- Those who listen are called, each once, until one fails. -/
  calls : ∀ {deliver : Callback → Action Desk C Unit}, Desk.Relays deliver → Desk.Tactful deliver →
    a deliver w = ((v.host.callees s .commit).forM deliver : Action Desk C Unit) w₁
  /-- If listeners of clients are careful, only they fail. If none does, all sessions show the
  text. -/
  settles : ∀ {deliver : Callback → Action Desk C Unit}, Desk.Relays deliver →
    Desk.Careful deliver → (a deliver).Ensures w
      (fun _ w' => v.Settles source text w' ∧
        ∀ id t, w'.Active id t → t.source = source → w'.ShowsText t text)
      (fun e w' => v.Settles source text w' ∧
        Desk.Raises deliver (v.host.callees s .commit) w₁ e w')

/-- An open source that takes up a text as its saved one is at that text. -/
theorem SourceFile.isAt_update (hopen : s.closed = false) : (s.update text true).IsAt text where
  now := rfl
  saved := rfl
  clean := by simp [isUnsaved, update]
  tree := rfl
  faults := rfl
  isOpen := hopen

/-- Whether a source is at a text depends on its ground only. -/
theorem SourceFile.IsAt.of_ground {s' : SourceFile} (hat : s.IsAt text)
    (hground : s'.ground = s.ground) : s'.IsAt text := by
  have htext : s'.ground.text = s.ground.text := congrArg _ hground
  have hsaved : s'.ground.saved = s.ground.saved := congrArg _ hground
  have htree : s'.ground.tree = s.ground.tree := congrArg _ hground
  have hfaults : s'.ground.faults = s.ground.faults := congrArg _ hground
  have hclosed : s'.ground.closed = s.ground.closed := congrArg _ hground
  have hclean : s'.isUnsaved = s.isUnsaved := by
    unfold SourceFile.isUnsaved
    rw [show s'.text = s.text from htext, show s'.saved = s.saved from hsaved]
  exact ⟨Eq.trans htext hat.now, Eq.trans hsaved hat.saved, hclean.trans hat.clean,
    Eq.trans htree hat.tree, Eq.trans hfaults hat.faults, Eq.trans hclosed hat.isOpen⟩

/-- Those who are called do not change what a source has taken up. -/
theorem World.Settles.of_ground (hs : w₁.host.sources[source]? = some s) (hat : s.IsAt text)
    (hdisk : w₁.host.disk = v.host.disk) (hground : Desk.SameGround w₁ w')
    (hholding : w'.holding? = v.holding?) : v.Settles source text w' := by
  have hsame := Desk.source_of_ground hground source
  rw [hs, Option.map_some] at hsame
  obtain ⟨s', hs', hgrounds⟩ := Option.map_eq_some_iff.1 hsame
  have hkept : w'.host.ground.disk = w₁.host.ground.disk := congrArg _ hground
  exact ⟨⟨s', hs', hat.of_ground hgrounds⟩, Eq.trans hkept hdisk, hholding⟩

namespace Desk

/-- A source that has taken up a text differs in that only. -/
theorem source_takingUp (hs : v.host.sources[source]? = some s) (text : String)
    (messages : List String) :
    (v.takingUp source text messages).host.sources[source]? = some (s.update text true) := by
  show (v.host.sources.modify source _)[source]? = _
  rw [List.getElem?_modify_eq, hs]
  rfl

/-- A source that has taken up a text logs what there is to log. -/
theorem takingUp_logs (hs : v.host.sources[source]? = some s) (htalks : v.host.Talks)
    (text message : String) : ∃ messages, (do
      reportFaults source
      log message : Action Desk C Unit) (v.takingUp source text v.host.messages) =
        .ok () (v.takingUp source text messages) := by
  have hends : (do
      reportFaults source
      log message : Action Desk C Unit).EndsWell (v.takingUp source text v.host.messages)
        fun _ w' => ∃ messages, w' = v.takingUp source text messages := by
    refine Action.ensures_bind.2 (reportFaults_ensures (source_takingUp hs text _) htalks
      fun messages => ?_)
    exact log_of_talks (w := v.takingUp source text messages) htalks message
      fun messages' => ⟨messages', rfl⟩
  obtain ⟨_, w', hw', messages, rfl⟩ := Action.Ensures.exists_ok hends
  exact ⟨messages, hw'⟩

/-- Sessions stay in touch with a source that takes up a text. -/
theorem takingUp_inTouch (hv : v.InTouch) (source : SourceId) (text : String)
    (messages : List String) : (v.takingUp source text messages).InTouch := by
  have hupdated : (v.beside { v.host with
      sources := v.host.sources.modify source (·.update text true) } v.client).InTouch :=
    (update_staysInTouch hv text true : v.StillInTouch _).inTouch
  exact hupdated.beside (d := (v.takingUp source text messages).host) hv.reliable rfl

/-- What an action that takes up a text and announces it comes to. -/
theorem commits_of_eq {a : (Callback → Action Desk C Unit) → Action Desk C Unit} (hv : v.InTouch)
    (hs : v.host.sources[source]? = some s) (hopen : s.closed = false) {message : String}
    (ha : ∀ deliver, a deliver w = (do
      reportFaults source
      log message
      announce deliver source .commit : Action Desk C Unit)
        (v.takingUp source text v.host.messages)) :
    ∃ w₁, w.Commits source s text v w₁ a := by
  obtain ⟨messages, hlogs⟩ := takingUp_logs hs hv.reliable.2 text message
  have hw₁ := takingUp_inTouch hv source text messages
  have hs₁ := source_takingUp hs text messages
  have hannounced : ∀ deliver, a deliver w =
      announce deliver source .commit (v.takingUp source text messages) := by
    intro deliver
    have hsplit := Action.bind_of_ok hlogs fun _ => announce deliver source .commit
    rw [ha]
    simpa only [bind_assoc] using hsplit
  have hcalls : ∀ {deliver : Callback → Action Desk C Unit}, Relays deliver → Tactful deliver →
      a deliver w = ((v.host.callees s .commit).forM deliver : Action Desk C Unit)
        (v.takingUp source text messages) := fun hrelays htactful =>
    (hannounced _).trans (announce_eq_forM hrelays htactful hw₁ hs₁
      (hw₁.made hs₁ hopen .commit))
  refine ⟨v.takingUp source text messages, ⟨messages, rfl⟩, hv.listeners hs hopen .commit,
    hcalls, ?_⟩
  intro deliver hrelays hcareful
  have hpage := page_of_source hs₁
  have hcallees : ∀ {id event}, .session id event ∈ v.host.callees s .commit →
      event = .commit ∧ (v.takingUp source text messages).Bound id source :=
    fun hcallee => hw₁.called hs₁ hopen hcallee
  have hround := round_commit hrelays hcareful hw₁ hpage hopen hcallees
  unfold Action.Ensures
  rw [hcalls hrelays hcareful.tactful]
  refine Action.Ensures.mono hround ?_ ?_
  · intro _ w' h
    exact ⟨.of_ground hs₁ (SourceFile.isAt_update hopen) rfl h.ground h.holding,
      fun id t hactive => World.Refilled.shows hw₁ hs₁ hopen h hactive⟩
  · rintro e w' ⟨hraises, h⟩
    exact ⟨.of_ground hs₁ (SourceFile.isAt_update hopen) rfl h.ground h.holding, hraises⟩

/-! ## Saving -/

/-- What is stored is the text that the source has, if the disk takes it. -/
theorem store_eq (hs : w.host.sources[source]? = some s)
    (deliver : Callback → Action Desk C Unit) :
    store deliver source w =
      match w.host.disk.writeText (w.host.disk.resolve s.path) s.text with
      | (.error e, disk) => .error e (w.onDisk disk)
      | (.ok _, disk) => (do
          modifySource source (·.update s.text true)
          reportFaults source
          log ("Saved " ++ s.name ++ ".")
          announce deliver source .commit : Action Desk C Unit) (w.onDisk disk) := by
  have hwrite := writeFile_eq s.path s.text w
  unfold store
  rw [Action.bind_of_ok (findSource_eq hs)]
  revert hwrite
  obtain ⟨result, disk⟩ := w.host.disk.writeText (w.host.disk.resolve s.path) s.text
  intro hwrite
  cases result with
  | error e => exact Action.bind_of_error hwrite _
  | ok => exact Action.bind_of_ok hwrite _

end Desk

/-- The world once a text, if there is one, has been edited in: the text of the source, its tree and
its faults are others. -/
def World.edited (source : SourceId) (text : Option String) (w : World Desk C) : World Desk C :=
  match text with
  | none => w
  | some text =>
    w.beside { w.host with sources := w.host.sources.modify source (·.update text false) } w.client

/-- The source without its text, its tree and its faults. -/
def SourceFile.untexted (s : SourceFile) : SourceFile :=
  { s with text := "", tree := none, faults := [] }

/-- Saving fails and leaves the disk as given. Beside that it comes to no more than the edit, which
touches nothing but the text of the source. -/
structure World.Refuses (source : SourceId) (s : SourceFile) (text : Option String) (e : Failure)
    (disk : Disk) (w : World Desk C) : Prop where
  /-- Whoever listens, the save fails and leaves what the edit leaves, the disk apart. -/
  fails : ∀ deliver : Callback → Action Desk C Unit,
    Desk.save deliver source text w = .error e ((w.edited source text).onDisk disk)
  /-- The disk is as it was if the file could not be opened. Otherwise only the file has changed. -/
  spoils : w.host.disk.WriteFails (w.host.disk.resolve s.path) (text.getD s.text) e disk
  edits : ∀ t, text = some t → Desk.edit source t w = .ok () (w.edited source text)
  spares : (w.edited source text).beside
      { (w.edited source text).host with sources := w.host.sources } w.client = w ∧
    (w.edited source text).host.sources.map SourceFile.untexted =
      w.host.sources.map SourceFile.untexted
  /-- Saving again without a text, on whatever disk there is then, comes to what saving the text on
  that disk would have come to at first. -/
  retries : ∀ (deliver : Callback → Action Desk C Unit) (disk' : Disk),
    Desk.save deliver source none (((w.edited source text).onDisk disk).onDisk disk') =
      Desk.save deliver source text (w.onDisk disk')

namespace Desk

/-- The source once a text, if there is one, has been edited in. -/
theorem source_edited (hs : w.host.sources[source]? = some s) (text : Option String) :
    ∃ s', (w.edited source text).host.sources[source]? = some s' ∧ s'.closed = s.closed ∧
      s'.path = s.path ∧ s'.text = text.getD s.text ∧
      ∀ t, s'.update t true = s.update t true := by
  cases text with
  | none => exact ⟨s, hs, rfl, rfl, rfl, fun _ => rfl⟩
  | some text =>
    refine ⟨s.update text false, ?_, rfl, rfl, rfl, fun _ => rfl⟩
    show (w.host.sources.modify source _)[source]? = _
    rw [List.getElem?_modify_eq, hs]
    rfl

/-- Saving an open source is an edit, if there is one, and then storing the text. -/
theorem save_eq (hs : w.host.sources[source]? = some s) (hopen : s.closed = false)
    (deliver : Callback → Action Desk C Unit) (text : Option String) :
    save deliver source text w = store deliver source (w.edited source text) := by
  unfold save
  rw [Action.bind_of_ok (requireOpen_eq hs hopen)]
  cases text with
  | none => rfl
  | some text => rfl

/-- Editing in one text and taking up another comes to taking up the other. -/
theorem takingUp_edited (text : Option String) (t : String) (v : World Desk C) :
    (modifySource source (·.update t true) : Action Desk C Unit) (v.edited source text) =
      (modifySource source (·.update t true) : Action Desk C Unit) v := by
  cases text with
  | none => rfl
  | some text =>
    have hsame : (v.host.sources.modify source (·.update text false)).modify source
        (·.update t true) = v.host.sources.modify source (·.update t true) := by
      rw [List.modify_modify_eq]
      rfl
    have hdesk := congrArg (fun sources => { v.host with sources := sources }) hsame
    exact congrArg (fun d => EStateM.Result.ok () { v with host := d }) hdesk

/-- A text that the disk refuses is only edited in. -/
theorem refuses_of_error (hs : w.host.sources[source]? = some s) (hopen : s.closed = false)
    {text : Option String} {e : Failure} {disk : Disk} (hwrite :
      w.host.disk.writeText (w.host.disk.resolve s.path) (text.getD s.text) = (.error e, disk)) :
    w.Refuses source s text e disk := by
  obtain ⟨s', hs', hclosed, hpath, htext, -⟩ := source_edited hs text
  have hopen' : s'.closed = false := hclosed.trans hopen
  have hdisk : (w.edited source text).host.disk = w.host.disk := by cases text <;> rfl
  refine ⟨fun deliver => ?_, ?_, ?_, ?_, fun deliver disk' => ?_⟩
  · rw [save_eq hs hopen, store_eq hs', hdisk, hpath, htext, hwrite]
  · obtain htaken | ⟨e', disk', hrefused, hfails⟩ :=
      w.host.disk.writeText_cases (w.host.disk.resolve s.path) (text.getD s.text)
    · rw [hwrite] at htaken
      cases htaken
    · rw [hwrite] at hrefused
      cases hrefused
      exact hfails
  · rintro t rfl
    unfold edit
    rw [Action.bind_of_ok (requireOpen_eq hs hopen)]
    rfl
  · cases text with
    | none => exact ⟨rfl, rfl⟩
    | some text =>
      refine ⟨rfl, ?_⟩
      apply List.ext_getElem?
      intro i
      show ((w.host.sources.modify source _).map _)[i]? = _
      rw [List.getElem?_map, List.getElem?_map, List.getElem?_modify]
      cases w.host.sources[i]? with
      | none => rfl
      | some s => by_cases hi : source = i <;> simp [hi, SourceFile.update, SourceFile.untexted]
  · have hs₁ : (((w.edited source text).onDisk disk).onDisk disk').host.sources[source]? =
        some s' := hs'
    have hs₂ : (w.onDisk disk').host.sources[source]? = some s := hs
    rw [save_eq hs₁ hopen', save_eq hs₂ hopen]
    cases text with
    | none => rfl
    | some text => rfl

/-- A text that the disk takes is taken up, whatever comes after. -/
theorem save_of_ok (hs : w.host.sources[source]? = some s) (hopen : s.closed = false)
    {text : Option String} {disk : Disk}
    (hwrite : w.host.disk.writeText (w.host.disk.resolve s.path) (text.getD s.text) = (.ok (), disk))
    (deliver : Callback → Action Desk C Unit) :
    save deliver source text w = (do
      reportFaults source
      log ("Saved " ++ s.name ++ ".")
      announce deliver source .commit : Action Desk C Unit)
        ((w.onDisk disk).takingUp source (text.getD s.text) w.host.messages) := by
  obtain ⟨s', hs', -, hpath, htext, -⟩ := source_edited hs text
  have hdisk : (w.edited source text).host.disk = w.host.disk := by cases text <;> rfl
  have hname : s'.name = s.name := by
    unfold SourceFile.name
    rw [hpath]
  have honDisk : (w.edited source text).onDisk disk = (w.onDisk disk).edited source text := by
    cases text <;> rfl
  rw [save_eq hs hopen, store_eq hs', hdisk, hpath, htext, hwrite, hname]
  dsimp only
  rw [honDisk]
  exact Action.bind_of_same (takingUp_edited text _ _) _

/-- Saving is all or nothing, but for the file. If the disk refuses the text, only the edit is left,
and the file as far as the disk took it. If it takes the text, the file holds the bytes of it and
the source takes it up, with nothing else on the disk changed; in every world that a run reaches,
the commit is then announced to all who listen. -/
theorem save_all_or_nothing (hs : w.host.sources[source]? = some s) (hopen : s.closed = false)
    (text : Option String) :
    match w.host.disk.writeText (w.host.disk.resolve s.path) (text.getD s.text) with
    | (.error e, disk) => w.Refuses source s text e disk
    | (.ok _, disk) =>
      disk.entry? (w.host.disk.resolve s.path) =
          some (.file (Text.Utf8.encode (text.getD s.text))) ∧
        (∃ entry, disk = w.host.disk.setEntry (w.host.disk.resolve s.path) entry) ∧
        (∀ deliver, save deliver source text w = (do
          reportFaults source
          log ("Saved " ++ s.name ++ ".")
          announce deliver source .commit : Action Desk C Unit)
            ((w.onDisk disk).takingUp source (text.getD s.text) w.host.messages)) ∧
        (w.Ventured → ∃ w₁, w.Commits source s (text.getD s.text) (w.onDisk disk) w₁
          fun deliver => save deliver source text) := by
  cases hwrite : w.host.disk.writeText (w.host.disk.resolve s.path) (text.getD s.text) with
  | mk result disk =>
    cases result with
    | error e => exact refuses_of_error hs hopen hwrite
    | ok =>
      have hwritten := Disk.eq_of_writeText hwrite
      refine ⟨?_, ⟨_, hwritten⟩, save_of_ok hs hopen hwrite, fun hw => ?_⟩
      · rw [hwritten]
        exact Disk.entry?_setEntry _ _
      exact commits_of_eq (disk_stillInTouch hw.inTouch disk).inTouch hs hopen
        (save_of_ok hs hopen hwrite)

end Desk

end

/-! ## Listeners that fail, or edit -/

namespace DeskRun

/-- Sessions are called, one listener edits the source, and another fails. -/
def unruly : Callback → Action Desk Unit Unit
  | .session id event => Session.notify Desk.host id event
  | .client 0 => Desk.edit 0 "[3]"
  | .client 1 => throw (.raised "no")
  | .client _ => pure ()

/-- Where only sessions are called, sessions stay in touch. -/
theorem relay_tactful : Desk.Tactful relay :=
  Desk.Careful.tactful ⟨relay_discreet, fun _ _ h => h⟩

/-- A client that edits the source does what clients may do, and so does one that fails. -/
theorem unruly_tactful : Desk.Tactful unruly := by
  refine Desk.Tactful.of_ventures (fun _ _ => rfl) relay_tactful fun listener w => ?_
  match listener with
  | 0 => exact Action.ensures_of_outcome ((Desk.Ventures.start w).move (.edit 0 "[3]") trivial)
  | 1 | _ + 2 => exact Desk.Ventures.start w

/-- A client listens to commits of the file, and then the file is shown; one write to the output may
be set to fail. -/
def heard (listener : Nat) (failing : Option Nat) : World Desk Unit :=
  [DeskMove.openFile "a.json", .listen 0 .commit listener,
    .session (.step (.call (.enable 0 {})))].foldl (fun w m => m.after unruly w)
    { oneFile with host := { oneFile.host with output := { failing := failing } } }

/-- The file may not be written any more. -/
def locked : World Desk Unit :=
  (DeskMove.setObstacles [("a.json", { write := some .denied })]).after unruly (heard 1 none)

/-- The device of the file takes two bytes and no more. -/
def cramped : World Desk Unit :=
  (DeskMove.setShortages [("a.json", { room := 2, cause := .noSpace })]).after unruly (heard 1 none)

/-- A run leads to the desk with a client who listens to commits. -/
theorem heard_ventured (listener : Nat) : (heard listener none).Ventured := by
  have hopened : (((DeskMove.openFile "a.json").after unruly oneFile).host.sources[0]?).isSome := by
    decide +kernel
  have hventures := (((Desk.Ventures.start oneFile).move (.openFile "a.json") trivial).move
    (.listen 0 .commit listener) hopened).move (.session (.step (.call (.enable 0 {})))) trivial
  exact ⟨unruly, oneFile, fun _ _ => rfl, unruly_tactful, oneFile_untouched,
    ⟨rfl, fun _ => ⟨none, rfl⟩⟩, hventures⟩

/-- One text is saved over another although a listener fails, and not where the disk refuses it: the
file is then as it was, or it holds the first bytes of the text. -/
theorem heard_saved_or_refused :
    (∃ s disk w₁, (heard 1 none).Commits 0 s "true" ((heard 1 none).onDisk disk) w₁
      fun deliver => Desk.save deliver 0 (some "true")) ∧
    (∃ s e disk, locked.Refuses 0 s (some "true") e disk ∧
      disk.entry? ⟨["a.json"]⟩ = some (.file [49])) ∧
    ∃ s e disk, cramped.Refuses 0 s (some "true") e disk ∧
      disk.entry? ⟨["a.json"]⟩ = some (.file [116, 114]) := by
  have hrefused : ∀ (w : World Desk Unit) (entry : Entry), (w.host.sources[0]?.any fun s =>
      !s.closed && !(w.host.disk.writeText (w.host.disk.resolve s.path) "true").1.isOk &&
        Disk.entry? (w.host.disk.writeText (w.host.disk.resolve s.path) "true").2 ⟨["a.json"]⟩ =
          some entry) = true →
      ∃ s e disk, w.Refuses 0 s (some "true") e disk ∧ disk.entry? ⟨["a.json"]⟩ = some entry := by
    intro w entry hrefused
    obtain ⟨s, hs, hrefused⟩ := (Option.any_eq_true _ _).1 hrefused
    simp only [Bool.and_eq_true, Bool.not_eq_true', decide_eq_true_eq] at hrefused
    obtain ⟨⟨hopen, hfails⟩, hleft⟩ := hrefused
    have hsaved := Desk.save_all_or_nothing hs hopen (some "true")
    rw [Option.getD_some] at hsaved
    split at hsaved
    · next e disk hwrite =>
      rw [hwrite] at hleft
      exact ⟨s, e, disk, hsaved, hleft⟩
    · next disk hwrite =>
      rw [hwrite] at hfails
      cases hfails
  refine ⟨?_, hrefused locked _ (by decide +kernel), hrefused cramped _ (by decide +kernel)⟩
  obtain ⟨s, hs⟩ : ∃ s, (heard 1 none).host.sources[0]? = some s :=
    Option.isSome_iff_exists.1 (by decide +kernel)
  have haccess : ((heard 1 none).host.sources[0]?.all fun s => !s.closed &&
      ((heard 1 none).host.disk.writeText ((heard 1 none).host.disk.resolve s.path)
        "true").1.isOk) = true := by decide +kernel
  rw [hs, Option.all_some, Bool.and_eq_true, Bool.not_eq_true'] at haccess
  have hsaved := Desk.save_all_or_nothing hs haccess.1 (some "true")
  rw [Option.getD_some] at hsaved
  split at hsaved
  · next e disk hwrite =>
    rw [hwrite] at haccess
    cases haccess.2
  · next disk hwrite =>
    obtain ⟨w₁, hcommits⟩ := hsaved.2.2.2 (heard_ventured 1)
    exact ⟨s, disk, w₁, hcommits⟩

/-- How saving another text ends. -/
def savedOver (w : World Desk Unit) : Except Failure Unit × World Desk Unit :=
  (Desk.save unruly 0 (some "true")).outcome w

/-- What the sessions show. -/
def shown (w : World Desk Unit) : List (SessionState × List String) :=
  w.sessions.map fun s => (s.state, s.lines.map (·.text))

/-- The text is on the disk and saved in the source, and yet the session does not show it, because a
listener that comes before it fails, or because the output does. A listener that edits the source
leaves it with another text than the saved one. A save that fails halfway leaves the file with the
first bytes of the text, though the source has not saved it. -/
theorem saved_and_not_shown :
    ((savedOver (heard 1 none)).1 = .error (.raised "no") ∧
      (savedOver (heard 1 none)).2.host.disk.entry? ⟨["a.json"]⟩ =
        some (.file (Text.Utf8.encode "true")) ∧
      (savedOver (heard 1 none)).2.host.sources.map (fun s => (s.text, s.saved)) =
        [("true", "true")] ∧
      shown (savedOver (heard 1 none)).2 = [(.active, ["number:"])]) ∧
    ((savedOver (heard 2 (some 2))).1 = .error (.raised "write EPIPE") ∧
      shown (savedOver (heard 2 (some 2))).2 = [(.active, ["number:"])]) ∧
    (savedOver (heard 0 none)).2.host.sources.map (fun s => (s.saved, s.isUnsaved)) =
      [("true", true)] ∧
    ((savedOver cramped).1 =
        .error (.system (some "ENOSPC") "ENOSPC: no space left on device, write") ∧
      (savedOver cramped).2.host.disk.entry? ⟨["a.json"]⟩ =
        some (.file ((Text.Utf8.encode "true").take 2)) ∧
      (savedOver cramped).2.host.sources.map (·.saved) = ["1"]) := by
  decide +kernel

end DeskRun

end TreeInspector
