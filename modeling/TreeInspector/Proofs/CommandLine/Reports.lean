import TreeInspector.Proofs.CommandLine.Shutdown

/-!
# What watchers report to a program

A report about the file leaves the program as it runs, perhaps with the pane printed anew, or ends
it, since the file is gone or can no longer be watched. Several watchers may report at once; those
that report after the program has ended are not heard.
-/

set_option autoImplicit false

namespace TreeInspector.CommandLine

namespace Scene

/-- What has come of a scene while watchers report: the program still runs, and the pane was printed
some times, or it has ended, and the pane was ended after it had been printed some times. -/
inductive Reported (x : Scene) : ProgramWorld → Prop where
  | goesOn {x' : Scene} (panes : List Pane) (running : x'.Running)
      (title : x'.pane.title = x.pane.title) (name : x'.file.name = x.file.name)
      (output : x'.desk.output = x.desk.output.takingAll (panes.map Desk.paneText)) :
      x.Reported x'.world
  | ends {x' : Scene} (panes : List Pane) (released : x'.Released)
      (output : x'.desk.output = x.desk.output.takingAll
        (panes.map Desk.paneText ++ [x.closingLine, x.farewellLine])) : x.Reported x'.world

section

variable {x x' : Scene}

/-- Before any report the scene is as it was. -/
theorem Reported.refl (hx : x.Running) : x.Reported x.world := .goesOn [] hx rfl rfl rfl

/-- What is logged is no more than a report without consequence. -/
theorem Reported.noted (hx : x.Running) (messages : List String) :
    x.Reported (x.noted messages).world :=
  .goesOn [] (hx.noted messages) rfl rfl rfl

/-- What came of a scene that was reached by printing the pane. -/
theorem Reported.after {w : ProgramWorld} (h : x'.Reported w) (panes : List Pane)
    (title : x'.pane.title = x.pane.title) (name : x'.file.name = x.file.name)
    (output : x'.desk.output = x.desk.output.takingAll (panes.map Desk.paneText)) :
    x.Reported w := by
  cases h with
  | goesOn more running title' name' output' =>
    refine .goesOn (panes ++ more) running (title'.trans title) (name'.trans name) ?_
    rw [output', output, List.map_append, Sink.takingAll_append]
  | ends more released output' =>
    refine .ends (panes ++ more) released ?_
    have hclosing : x'.closingLine = x.closingLine := by
      unfold closingLine
      rw [title]
    have hfarewell : x'.farewellLine = x.farewellLine := by
      unfold farewellLine
      rw [name]
    rw [output', output, hclosing, hfarewell, List.map_append, List.append_assoc,
      ← Sink.takingAll_append]

/-- Closing the file is a report that ends the program. -/
theorem close_reported (hx : x.Running) :
    (Desk.close deliver 0).EndsWell x.world fun _ => x.Reported := by
  refine (close_endsWell hx).mono ?_
  rintro _ _ ⟨x', rfl, hx', houtput⟩
  exact .ends [] hx' houtput

/-! ## Another text on disk -/

/-- The file has another text. -/
def updated (text : String) (x : Scene) : Scene := { x with file := x.file.update text true }

/-- Another text of the file leaves the scene running. -/
theorem Running.updated (hx : x.Running) (text : String) : (x.updated text).Running := by
  have hpatrol : ({ x.host with
      sources := x.host.sources.modify 0 (·.update text true) } : Desk).patrol = x.host.patrol :=
    Desk.patrol_modifySource_same (fun _ => rfl) (fun _ => rfl)
  exact
    { hx with
      toSound := ⟨hx.reliable, hx.posted.same ⟨hpatrol, rfl⟩, hx.shown⟩
      parsed := rfl }

/-- A commit is shown in the pane. -/
theorem announce_commit_reported (hx : x.Running) :
    (Desk.announce deliver 0 .commit).EndsWell x.world fun _ => x.Reported := by
  have hlisteners : x.source.listeners .commit = [0] := by
    show (if x.active then [0] else []) = [0]
    rw [active_of_ending hx.active]
    rfl
  refine Action.endsWell_bind_of_ok x.findSource_eq ?_
  rw [hlisteners]
  refine Action.EndsWell.bind (P := fun _ => x.Reported) ?_ (fun _ _ h => h)
  show (Session.notify Desk.host 0 .commit).EndsWell x.world _
  unfold Action.EndsWell Action.Ensures
  rw [notify_eq hx.active]
  refine (refresh_endsWell hx.toSound hx.active hx.isOpen hx.parsed).mono ?_
  rintro _ _ ⟨messages, rfl⟩
  generalize hlines : (Document.analyze Document.lenient x.file.text).root.render
    x.options.navigation = lines
  refine .goesOn [{ x.pane with lines := Desk.paneRows lines }] ?_ rfl rfl rfl
  refine Running.noted { hx with toSound := hx.toSound.showing lines, whole := ?_ } messages
  intro line hline
  have hmem : line ∈ lines := hline
  rw [← hlines] at hmem
  exact Document.render_analyze_whole _ _ _ hmem

/-- Taking over the file from the disk does no more than a report can do. -/
theorem reload_reported (hx : x.Running) :
    (Desk.reload deliver 0).EndsWell x.world fun _ => x.Reported := by
  refine Action.endsWell_bind_of_ok x.findSource_eq ?_
  refine Action.ensures_bind.2 (Action.ensures_host.2 ?_)
  dsimp only
  cases x.world.host.disk.readText (x.world.host.disk.resolve x.source.path) with
  | error e =>
    dsimp only
    split
    · exact close_reported hx
    · refine (log_endsWell hx.toSound _).mono ?_
      rintro _ _ ⟨messages, rfl⟩
      exact .noted hx messages
  | ok text =>
    dsimp only
    split
    · exact .refl hx
    · have hupdated : Desk.modifySource 0 (·.update text true) x.world =
          .ok () (x.updated text).world := rfl
      refine Action.endsWell_bind_of_ok hupdated ?_
      have hx₁ := hx.updated text
      refine Action.EndsWell.bind (Desk.reportFaults_ensures (s := (x.updated text).source)
        (Q := fun _ w => ∃ messages, w = ((x.updated text).noted messages).world) rfl
          hx₁.posted.talks fun messages => ⟨messages, rfl⟩) ?_
      rintro _ _ ⟨messages, rfl⟩
      refine (log_endsWell (hx₁.noted messages).toSound _).bind ?_
      rintro _ _ ⟨messages', rfl⟩
      refine (announce_commit_reported ((hx₁.noted messages).noted messages')).mono ?_
      exact fun _ _ h => h.after [] rfl rfl rfl

/-! ## Reports -/

/-- The file is watched by a new watcher. -/
def rewatched (path : Path) (trace : List String) (x : Scene) : Scene :=
  { x with
    file := { x.file with watcher := some x.desk.watchers.length }
    desk := { x.desk with
      watchers := Desk.stopped (x.desk.watchers ++ [{ path, source := 0 }]) x.file.watcher
      trace := trace } }

/-- The file is watched anew, or nothing has happened. -/
theorem watchSource_ensures (hx : x.Running) (hwatching : x.desk.watching = true) :
    (Desk.watchSource 0).Ensures x.world
      (fun _ w => ∃ path trace, w = (x.rewatched path trace).world ∧
        (x.rewatched path trace).Running)
      (fun _ w => w = x.world) := by
  have hs : x.world.host.sources[0]? = some x.source := rfl
  have hposted := Desk.watchSource_guards hx.posted hs hx.isOpen hwatching
  have hwatched : (Desk.watchSource 0).Ensures x.world
      (fun _ w => ∃ path trace, w = (x.rewatched path trace).world) (fun _ w => w = x.world) :=
    Desk.watchSource_cases hs (fun _ _ => rfl) fun path trace _ => ⟨path, trace, rfl⟩
  refine (hposted.and hwatched).mono ?_ (fun _ _ h => h.1)
  rintro _ _ ⟨hposted, path, trace, rfl⟩
  rw [Set.insert_eq_of_mem (Set.mem_singleton 0)] at hposted
  exact ⟨path, trace, rfl, { hx with toSound := ⟨hx.reliable, hposted, hx.shown⟩ }⟩

/-- A change of the file, or a rename, does no more than a report can do. -/
theorem fileEvent_reported (hx : x.Running) (hwatching : x.desk.watching = true)
    (renamed : Bool) :
    (Desk.fileEvent deliver 0 renamed).EndsWell x.world fun _ => x.Reported := by
  have hopen : x.source.closed = false := hx.isOpen
  refine Action.endsWell_bind_of_ok x.findSource_eq ?_
  rw [hopen, if_neg Bool.false_ne_true]
  cases renamed with
  | false => exact reload_reported hx
  | true =>
    refine Action.ensures_bind.2 (Action.ensures_attempt.2
      ((watchSource_ensures hx hwatching).mono ?_ ?_))
    · rintro _ _ ⟨path, trace, rfl, hx₁⟩
      exact (reload_reported hx₁).mono fun _ _ h => h.after [] rfl rfl rfl
    · rintro e _ rfl
      refine (log_endsWell hx.toSound _).bind ?_
      rintro _ _ ⟨messages, rfl⟩
      exact (close_reported (hx.noted messages)).mono fun _ _ h =>
        h.after [] rfl rfl rfl

/-- The failure of a watcher does no more than a report can do. -/
theorem watcherFailed_reported (hx : x.Running) (message : String) :
    (Desk.watcherFailed deliver 0 message).EndsWell x.world fun _ => x.Reported := by
  refine Action.endsWell_bind_of_ok x.findSource_eq ?_
  refine (log_endsWell hx.toSound _).bind ?_
  rintro _ _ ⟨messages, rfl⟩
  exact (close_reported (hx.noted messages)).mono fun _ _ h => h.after [] rfl rfl rfl

/-! ## Reports after the end -/

/-- After the end, what is logged changes nothing else. -/
theorem Released.noted (hx : x.Released) (messages : List String) : (x.noted messages).Released :=
  { hx with toSound := hx.toSound.noted messages }

/-- After the end, changes of the file are not taken in. -/
theorem fileEvent_of_released (hx : x.Released) (renamed : Bool) :
    Desk.fileEvent deliver 0 renamed x.world = .ok () x.world := by
  have hclosed : x.source.closed = true := hx.closed
  unfold Desk.fileEvent
  rw [Action.bind_of_ok x.findSource_eq, hclosed]
  rfl

/-- After the end, the failure of a watcher is logged and nothing else. -/
theorem watcherFailed_of_released (hx : x.Released) (message : String) :
    (Desk.watcherFailed deliver 0 message).EndsWell x.world fun _ w =>
      ∃ messages, w = (x.noted messages).world := by
  refine Action.endsWell_bind_of_ok x.findSource_eq ?_
  refine (log_endsWell hx.toSound _).bind ?_
  rintro _ _ ⟨messages, rfl⟩
  refine Action.endsWell_bind_of_ok (x.noted messages).findSource_eq ?_
  have hclosed : (x.noted messages).source.closed = true := hx.closed
  rw [hclosed]
  exact ⟨messages, rfl⟩

/-! ## Several reports -/

/-- Watchers report one after another. -/
theorem fromWatchers_reported (hx : x.Running) (path : String) (stale : Bool)
    (report : SourceId → ProgramAct Unit)
    (hrunning : ∀ {x' : Scene}, x'.Running → x'.desk.watching = true →
      (report 0).EndsWell x'.world fun _ => x'.Reported)
    (hreleased : ∀ {x' : Scene}, x'.Released → (report 0).EndsWell x'.world fun _ w =>
      ∃ messages, w = (x'.noted messages).world) :
    (Desk.fromWatchers path stale report).EndsWell x.world fun _ => x.Reported := by
  refine Action.ensures_bind.2 (Action.ensures_host.2 ?_)
  refine Action.endsWell_forM _ ?_ x.world (.refl hx)
  intro k _ w hw
  -- Every watcher was made for the one file that there is.
  have howned : ∀ {x' : Scene} {t}, x'.Sound → x'.world.host.watchers[k]? = some t →
      t.source = 0 ∧ x'.desk.watching = true := by
    intro x' t hx' ht
    obtain ⟨hmem, hwatching⟩ := hx'.posted.guarded.owned ⟨t, ht, rfl⟩
    exact ⟨hmem, hwatching⟩
  refine Action.ensures_bind.2 (Action.ensures_host.2 ?_)
  cases ht : w.host.watchers[k]? with
  | none => exact hw
  | some t =>
    dsimp only
    split
    · cases hw with
      | goesOn panes running title name output =>
        obtain ⟨hsource, hwatching⟩ := howned running.toSound ht
        rw [hsource]
        exact (hrunning running hwatching).mono fun _ _ h => h.after panes title name output
      | ends panes released output =>
        rw [(howned released.toSound ht).1]
        refine (hreleased released).mono ?_
        rintro _ _ ⟨messages, rfl⟩
        exact .ends panes (released.noted messages) output
    · exact hw

/-- What happens to the disk, or is reported of it, does not fail. -/
theorem diskStep_reported (hx : x.Running) (step : Desk.DiskStep) :
    (Desk.diskStep deliver step).EndsWell x.world fun _ => x.Reported := by
  have hdisk : ∀ change : Disk → Disk, (Action.modifyHost fun d =>
      { d with disk := change d.disk } : ProgramAct Unit).EndsWell x.world fun _ => x.Reported := by
    intro change
    have hx' : ({ x with desk := { x.desk with disk := change x.desk.disk } } : Scene).Running :=
      { hx with toSound := ⟨hx.reliable, hx.posted.same ⟨rfl, rfl⟩, hx.shown⟩ }
    have hreported : x.Reported _ := .goesOn [] hx' rfl rfl rfl
    exact hreported
  cases step with
  | write path bytes => exact hdisk fun disk => disk.putFile (disk.resolve path) bytes
  | remove path => exact hdisk fun disk => disk.remove (disk.resolve path)
  | setObstacles obstacles =>
    exact hdisk fun disk =>
      { disk with obstacles := obstacles.map fun o => (disk.resolve o.1, o.2) }
  | setShortages shortages =>
    exact hdisk fun disk =>
      { disk with shortages := shortages.map fun s => (disk.resolve s.1, s.2) }
  | fileEvent path renamed stale =>
    refine fromWatchers_reported hx path stale (Desk.fileEvent deliver · renamed)
      (fun hx' hwatching => fileEvent_reported hx' hwatching renamed) fun {x'} hx' => ?_
    exact Action.endsWell_of_ok (fileEvent_of_released hx' renamed) ⟨x'.desk.messages, rfl⟩
  | watchError path message stale =>
    exact fromWatchers_reported hx path stale (Desk.watcherFailed deliver · message)
      (fun hx' _ => watcherFailed_reported hx' message)
      fun hx' => watcherFailed_of_released hx' message

end

end Scene

end TreeInspector.CommandLine
