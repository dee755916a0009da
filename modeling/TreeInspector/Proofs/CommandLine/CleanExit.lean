import TreeInspector.Proofs.CommandLine.LateLines
import TreeInspector.Proofs.CommandLine.Reports
import TreeInspector.Proofs.CommandLine.Start

/-!
# A program shuts down cleanly, unless it is killed

Whatever lines are typed and whatever happens to the file, no event of a program that has been
started fails. As long as the program is under way its file is shown. It ends in one event, or with
its input; by then everything has been let go of, and the exit code is 0. A program that has ended
takes in nothing more, but for the lines that were read together with the one that ended it. The
interrupt signal is the exception: it kills the process, and nothing is let go of.
-/

set_option autoImplicit false

namespace TreeInspector.CommandLine

/-! ## Worlds of a program -/

/-- No line that is typed makes the command fail. -/
def Obeys (w : ProgramWorld) : Prop :=
  ∀ r line, w.client = some r →
    ∃ outcome w', run writeLine r.session (Command.ofLine line) w = .ok outcome w'

/-- The program shows its file, and no line that is typed makes it fail. -/
structure Underway (w : ProgramWorld) : Prop where
  alive : w.client.map (·.killed) = some false
  unfinished : w.client.map (·.finished) = some none
  session : w.sessions.map (·.state) = [.active]
  source : w.host.sources.map (·.closed) = [false]
  pane : w.host.panes.map (·.disposed) = [false]
  obeys : Obeys w

/-- The program has finished with exit code 0, and has let go of everything. -/
structure ShutDown (w : ProgramWorld) : Prop where
  finished : w.client.map (·.finished) = some (some 0)
  session : w.sessions.map (·.state) = [.inactive]
  registry : w.registry = []
  source : w.host.sources.map (fun s => (s.closed, s.commitListeners, s.destroyListeners)) =
    [(true, [], [])]
  watchers : ∀ t ∈ w.host.watchers, t.isOpen = false
  pane : w.host.panes.map (·.disposed) = [true]
  obeys : Obeys w

/-- The world in which the process has been killed, just so. -/
def kill (w : ProgramWorld) : ProgramWorld :=
  { w with client := w.client.map ({ · with killed := true }) }

/-- The process was killed while the program was under way, and so everything stayed as it was. -/
def WasKilled (w : ProgramWorld) : Prop := ∃ v, Underway v ∧ w = kill v

/-- From the first world to the second the pane has been ended once: it may have been printed some
times before, and perhaps the user was told afterwards that the file is gone, but nothing else has
been written. -/
def EndsPaneOnce (w w' : ProgramWorld) : Prop :=
  ∃ (p : Pane) (s : SourceFile) (panes : List Pane) (last : List String),
    w.host.panes = [p] ∧ w.host.sources = [s] ∧
    (last = [] ∨ last = [s.name ++ " is no longer available." ++ "\n"]) ∧
    w'.host.output = w.host.output.takingAll
      (panes.map Desk.paneText ++ ("=== closed: " ++ p.title ++ " ===\n") :: last)

/-- Of lines that are read together one ends the program. Those before it do not; those after it are
answered. -/
inductive EndsAmid : List String → ProgramWorld → ProgramWorld → Prop where
  | here {line : String} {rest : List String} {w w₁ w' : ProgramWorld} (before : Underway w)
      (ends : handleLine line w = .ok () w₁) (after : ShutDown w₁) (once : EndsPaneOnce w w₁)
      (answers : rest.forM handleLine w₁ = .ok () w') (trails : Trails w₁ w') :
      EndsAmid (line :: rest) w w'
  | later {line : String} {rest : List String} {w w₁ w' : ProgramWorld} (before : Underway w)
      (stays : Command.ofLine line ≠ .quit) (goesOn : handleLine line w = .ok () w₁)
      (ends : EndsAmid rest w₁ w') : EndsAmid (line :: rest) w w'

/-- The user wants the program to end. -/
def Event.Quits : Event → Prop
  | .lines texts => ∃ text ∈ texts, Command.ofLine text = .quit
  | .interrupt => True
  | .signal => True
  | .disk _ => False

/-- What may come of a world when an event is taken in: the program goes on, unless it should quit,
or it ends, at once or amid some lines, or the signal kills it, or it has already ended or been
killed and nothing happens. -/
inductive Advance (e : Event) (w : ProgramWorld) : ProgramWorld → Prop where
  | goesOn {w' : ProgramWorld} (before : Underway w) (after : Underway w') (stays : ¬ e.Quits) :
      Advance e w w'
  | ends {w' : ProgramWorld} (before : Underway w) (heard : e ≠ .signal) (after : ShutDown w')
      (once : EndsPaneOnce w w') : Advance e w w'
  | endsAmid {texts : List String} {w' : ProgramWorld} (read : e = .lines texts)
      (amid : EndsAmid texts w w') (after : ShutDown w') : Advance e w w'
  | killed (unheard : e = .signal) (before : Underway w) : Advance e w (kill w)
  | rests (after : ShutDown w ∨ WasKilled w) : Advance e w w

namespace Scene

/-- The program has ended, and with it the pane. -/
def EndedIn (x : Scene) (w : ProgramWorld) : Prop :=
  ∃ (panes : List Pane) (last : List String), (last = [] ∨ last = [x.farewellLine]) ∧
    x.ReleasedBy (panes.map Desk.paneText ++ x.closingLine :: last) w

section

variable {x : Scene} {w : ProgramWorld}

/-- A scene that runs is one of a program under way. -/
theorem Running.underway (hx : x.Running) : Underway x.world where
  alive := rfl
  unfinished := by rw [← hx.unfinished]; rfl
  session := by
    show [x.session.state] = _
    rw [x.state_eq, active_of_ending hx.active, if_pos rfl]
  source := by rw [← hx.isOpen]; rfl
  pane := by
    show [x.pane.disposed] = _
    rw [hx.shown, active_of_ending hx.active, Bool.not_true]
  obeys := by
    rintro r line ⟨⟩
    by_cases hquit : Command.ofLine line = .quit
    · rw [hquit]
      obtain ⟨outcome, w', hw', -⟩ := (run_quit hx).exists_ok
      exact ⟨outcome, w', hw'⟩
    · obtain ⟨outcome, w', hw', -⟩ := (InProgress.run ⟨x, rfl, hx⟩ hquit).exists_ok
      exact ⟨outcome, w', hw'⟩

/-- A scene that has let go of everything is one of a program that has shut down. -/
theorem Released.shutDown (hx : x.Released) : ShutDown x.world where
  finished := by rw [← hx.finished]; rfl
  session := by
    show [x.session.state] = _
    rw [x.state_eq, hx.inactive, if_neg Bool.false_ne_true]
  registry := by
    show (if x.active then [(0, 0)] else []) = _
    rw [hx.inactive]
    rfl
  source := by
    show [(x.file.closed, x.source.commitListeners, x.source.destroyListeners)] = _
    unfold source
    rw [hx.closed, hx.inactive, hx.deaf]
    rfl
  watchers := by
    intro t ht
    by_contra hopen
    obtain ⟨k, hk⟩ := List.getElem?_of_mem ht
    have hguarded := hx.posted.guarded
    have hsource : t.source = 0 := (hguarded.owned ⟨t, hk, rfl⟩).1
    have hpost : x.world.host.patrol.post? 0 = some ⟨x.file.closed, x.file.watcher⟩ := rfl
    -- An open watcher is held by the file, which holds none once it is closed.
    have hheld := hguarded.only hpost ⟨t, hk, hsource, by simpa using hopen⟩
    have hnone := hguarded.shut hpost hx.closed
    rw [hheld] at hnone
    cases hnone
  pane := by
    show [x.pane.disposed] = _
    rw [hx.shown, hx.inactive]
    rfl
  obeys := by
    rintro r line ⟨⟩
    obtain ⟨outcome, w', hw', -⟩ := (hx.run_trails (Command.ofLine line)).exists_ok
    exact ⟨outcome, w', hw'⟩

/-- What a scene has ended in is a program that has shut down. -/
theorem EndedIn.shutDown (h : x.EndedIn w) : ShutDown w := by
  obtain ⟨panes, last, -, x', rfl, hx', -⟩ := h
  exact hx'.shutDown

/-- From a scene to what it has ended in the pane is ended once. -/
theorem EndedIn.once (h : x.EndedIn w) : EndsPaneOnce x.world w := by
  obtain ⟨panes, last, hlast, x', rfl, hx', houtput⟩ := h
  exact ⟨x.pane, x.source, panes, last, rfl, rfl, hlast, houtput⟩

/-! ## Lines -/

/-- Closing the reader of a program that runs ends it. -/
theorem closeReader_endedIn (hx : x.Running) :
    closeReader.EndsWell x.world fun _ => x.EndedIn := by
  refine (closeReader_endsWell hx.toSound hx.reading hx.listening).mono fun _ w hw => ?_
  rw [active_of_ending hx.active, if_pos rfl] at hw
  exact ⟨[], [], .inl rfl, hw⟩

/-- A line leaves a program that runs in progress, unless the user quits with it, or ends it. -/
theorem handleLine_endsWell (hx : x.Running) (line : String) :
    (handleLine line).EndsWell x.world fun _ w =>
      (Command.ofLine line ≠ .quit ∧ InProgress w) ∨ x.EndedIn w := by
  refine Action.endsWell_bind_of_ok x.client_eq ?_
  refine Action.ensures_bind.2 (Action.ensures_attempt.2 ?_)
  by_cases hquit : Command.ofLine line = .quit
  · rw [hquit]
    refine Action.Ensures.bind (run_quit hx) ?_ (fun _ _ h => h.elim)
    rintro _ _ ⟨rfl, messages, rfl⟩
    -- The session has ended and its pane with it; closing the reader lets go of the rest.
    have hreleased := closeReader_endsWell ((hx.toSound.ended .disabled).noted messages)
      hx.reading hx.listening
    refine Action.Ensures.mono hreleased ?_ (fun _ _ h => h.elim)
    rintro _ _ ⟨x', rfl, hx', houtput⟩
    exact .inr ⟨[], [], .inl rfl, x', rfl, hx', houtput⟩
  · refine Action.Ensures.bind (InProgress.run ⟨x, rfl, hx⟩ hquit) ?_ (fun _ _ h => h.elim)
    rintro _ w' ⟨rfl, hw'⟩
    exact .inl ⟨hquit, hw'⟩

/-- Lines that are read together leave the program in progress, or one of them ends it. The
induction is on the lines; once one has ended the program, the others are answered. -/
theorem handleLines_endsWell (hx : x.Running) (texts : List String) :
    (texts.forM handleLine).EndsWell x.world fun _ w =>
      ((∀ text ∈ texts, Command.ofLine text ≠ .quit) ∧ InProgress w) ∨
        (EndsAmid texts x.world w ∧ ∃ x' : Scene, w = x'.world ∧ x'.Released) := by
  induction texts generalizing x with
  | nil => exact .inl ⟨fun _ h => (List.not_mem_nil h).elim, x, rfl, hx⟩
  | cons line rest ih =>
    obtain ⟨_, w₁, hline, hcases⟩ := (handleLine_endsWell hx line).exists_ok
    refine Action.endsWell_bind_of_ok (f := fun _ => rest.forM handleLine) hline ?_
    obtain ⟨hstays, x₁, rfl, hx₁⟩ | hended := hcases
    · refine (ih hx₁).mono ?_
      rintro _ w (⟨hothers, hw⟩ | ⟨hamid, hreleased⟩)
      · exact .inl ⟨List.forall_mem_cons.2 ⟨hstays, hothers⟩, hw⟩
      · exact .inr ⟨.later hx.underway hstays hline hamid, hreleased⟩
    · obtain ⟨-, -, -, x₁, rfl, hx₁, -⟩ := id hended
      have htrails := Released.forM_trails (f := handleLine) rest
        (fun line _ x' hx' => hx'.handleLine_trails line) hx₁
      obtain ⟨_, w, hrest, htrails⟩ := htrails.exists_ok
      refine Action.endsWell_of_ok hrest (.inr ⟨?_, hx₁.of_trails htrails⟩)
      exact .here hx.underway hline hended.shutDown hended.once hrest htrails

/-! ## Events -/

/-- Where an event leads from a scene: to a scene in progress or to one that has let go of
everything, unless it is the signal, which kills the process. -/
inductive LeadsTo (x : Scene) (e : Event) (w : ProgramWorld) : Prop where
  | goesOn (heard : e ≠ .signal) (inProgress : InProgress w)
  | ended {x' : Scene} (heard : e ≠ .signal) (world : w = x'.world) (released : x'.Released)
  | killed (unheard : e = .signal) (world : w = kill x.world)

/-- An event other than the signal may end the program at once. -/
theorem EndedIn.advance {e : Event} (h : x.EndedIn w) (hx : x.Running) (heard : e ≠ .signal) :
    Advance e x.world w ∧ x.LeadsTo e w := by
  refine ⟨.ends hx.underway heard h.shutDown h.once, ?_⟩
  obtain ⟨-, -, -, x', hw, hx', -⟩ := h
  exact .ended heard hw hx'

/-- An event leaves a program that runs in progress, unless the user quits, or ends it, or kills
it. -/
theorem handleEvent_endsWell (hx : x.Running) (e : Event) :
    (handleEvent e).EndsWell x.world fun _ w => Advance e x.world w ∧ x.LeadsTo e w := by
  refine Action.endsWell_bind_of_ok x.client_eq ?_
  show (do
    if false || x.finished.isSome then return
    match e with
    | .lines texts =>
      if x.readerClosed then return
      texts.forM handleLine
    | .interrupt => closeReader
    | .signal => modifyRun ({ · with killed := true })
    | .disk step => Desk.diskStep deliver step : ProgramAct Unit).EndsWell x.world _
  rw [hx.unfinished, Option.isSome_none, Bool.or_false, if_neg Bool.false_ne_true]
  cases e with
  | lines texts =>
    have hheard : Event.lines texts ≠ .signal := fun h => by cases h
    show (if x.readerClosed then pure () else texts.forM handleLine :
      ProgramAct Unit).EndsWell x.world _
    rw [hx.reading, if_neg Bool.false_ne_true]
    refine (handleLines_endsWell hx texts).mono ?_
    rintro _ w (⟨hstays, x', rfl, hx'⟩ | ⟨hamid, x', rfl, hx'⟩)
    · refine ⟨.goesOn hx.underway hx'.underway ?_, .goesOn hheard ⟨x', rfl, hx'⟩⟩
      rintro ⟨text, hmem, hquit⟩
      exact hstays text hmem hquit
    · exact ⟨.endsAmid rfl hamid hx'.shutDown, .ended hheard rfl hx'⟩
  | interrupt =>
    refine (closeReader_endedIn hx).mono ?_
    exact fun _ _ h => h.advance hx fun h => by cases h
  | signal => exact ⟨.killed rfl hx.underway, .killed rfl rfl⟩
  | disk step =>
    have hheard : Event.disk step ≠ .signal := fun h => by cases h
    refine (diskStep_reported hx step).mono ?_
    intro _ w hw
    cases hw with
    | goesOn panes running title name output =>
      exact ⟨.goesOn hx.underway running.underway id, .goesOn hheard ⟨_, rfl, running⟩⟩
    | ends panes released output =>
      exact EndedIn.advance ⟨panes, [x.farewellLine], .inr rfl, _, rfl, released, output⟩ hx hheard

/-- A program that has ended takes in nothing. -/
theorem Released.handleEvent_eq (hx : x.Released) (e : Event) :
    handleEvent e x.world = .ok () x.world := by
  unfold handleEvent
  rw [Action.bind_of_ok x.client_eq]
  show (if false || x.finished.isSome then pure () else _ : ProgramAct Unit) x.world = _
  rw [hx.finished]
  rfl

/-! ## The end of the input -/

/-- The end of the input ends a program that runs. -/
theorem endOfInput_endsWell (hx : x.Running) :
    endOfInput.EndsWell x.world fun ending w => ending = .exit 0 ∧ x.EndedIn w := by
  refine Action.endsWell_bind_of_ok x.client_eq ?_
  refine (closeReader_endedIn hx).bind ?_
  rintro _ _ ⟨panes, last, hlast, x', rfl, hx', houtput⟩
  refine ⟨?_, panes, last, hlast, x', rfl, hx', houtput⟩
  show Ending.exit (x'.finished.getD 0) = _
  rw [hx'.finished]
  rfl

/-- A program that has ended exits with the code that it had then. -/
theorem Released.endOfInput_eq (hx : x.Released) :
    endOfInput x.world = .ok (.exit 0) x.world := by
  unfold endOfInput
  rw [Action.bind_of_ok x.client_eq]
  show (do
    closeReader
    let r ← Action.client
    return .exit ((r.map fun r => r.finished.getD r.code).getD 0) : ProgramAct Ending) x.world = _
  rw [Action.bind_of_ok hx.closeReader_eq]
  show (.ok (.exit (x.finished.getD 0)) x.world : EStateM.Result Failure ProgramWorld Ending) = _
  rw [hx.finished]
  rfl

end

end Scene

/-! ## Processes that are killed -/

section

variable {w w' : ProgramWorld}

/-- A process that has been killed bears the mark of it. -/
theorem Underway.client_kill (hw : Underway w) :
    ∃ r, r.killed = true ∧ (Action.client : ProgramAct (Option Run)) (kill w) =
      .ok (some r) (kill w) := by
  obtain ⟨r, hr, -⟩ := Option.map_eq_some_iff.1 hw.alive
  refine ⟨{ r with killed := true }, rfl, ?_⟩
  show EStateM.Result.ok (w.client.map ({ · with killed := true })) (kill w) = _
  rw [hr]
  rfl

/-- A process that has been killed takes in nothing. -/
theorem Underway.handleEvent_kill (hw : Underway w) (e : Event) :
    handleEvent e (kill w) = .ok () (kill w) := by
  obtain ⟨r, hkilled, hclient⟩ := hw.client_kill
  unfold handleEvent
  rw [Action.bind_of_ok hclient]
  show (if r.killed || r.finished.isSome then pure () else _ : ProgramAct Unit) (kill w) = _
  rw [hkilled]
  rfl

/-- A process that has been killed does not exit by itself. -/
theorem Underway.endOfInput_kill (hw : Underway w) :
    endOfInput (kill w) = .ok .killed (kill w) := by
  obtain ⟨r, hkilled, hclient⟩ := hw.client_kill
  unfold endOfInput
  rw [Action.bind_of_ok hclient]
  show (if r.killed then pure .killed else _ : ProgramAct Ending) (kill w) = _
  rw [hkilled]
  rfl

/-- A program that is in progress or has ended has not been killed. -/
theorem Scene.not_wasKilled (x : Scene) : ¬ WasKilled x.world := by
  rintro ⟨v, hv, hworld⟩
  obtain ⟨r, hkilled, hclient⟩ := hv.client_kill
  rw [← hworld, x.client_eq] at hclient
  cases hclient
  cases hkilled

end

/-! ## Whole runs -/

/-- The program is in progress, or has ended, or was killed. -/
inductive Settled (w : ProgramWorld) : Prop where
  | runs (inProgress : InProgress w)
  | ended {x : Scene} (world : w = x.world) (released : x.Released)
  | killed (wasKilled : WasKilled w)

section

variable {w w' : ProgramWorld}

/-- One event. -/
theorem Settled.handleEvent (hw : Settled w) (e : Event) :
    (handleEvent e).EndsWell w fun _ w' => Advance e w w' ∧ Settled w' := by
  cases hw with
  | runs inProgress =>
    obtain ⟨x, rfl, hx⟩ := inProgress
    refine (x.handleEvent_endsWell hx e).mono ?_
    rintro _ w' ⟨hadvance, hleads⟩
    cases hleads with
    | goesOn _ inProgress => exact ⟨hadvance, .runs inProgress⟩
    | ended _ world released => exact ⟨hadvance, .ended world released⟩
    | killed _ world => exact ⟨hadvance, .killed ⟨_, hx.underway, world⟩⟩
  | ended world released =>
    subst world
    exact Action.endsWell_of_ok (released.handleEvent_eq e)
      ⟨.rests (.inl released.shutDown), .ended rfl released⟩
  | killed wasKilled =>
    obtain ⟨v, hv, rfl⟩ := id wasKilled
    exact Action.endsWell_of_ok (hv.handleEvent_kill e)
      ⟨.rests (.inr wasKilled), .killed wasKilled⟩

/-- The end of the input. -/
theorem Settled.endOfInput (hw : Settled w) :
    ∃ ending w', endOfInput w = .ok ending w' ∧
      ((ending = .exit 0 ∧ Advance .interrupt w w' ∧ ShutDown w') ∨
        (ending = .killed ∧ w' = w ∧ WasKilled w)) ∧ (ending = .killed ↔ WasKilled w) := by
  cases hw with
  | runs inProgress =>
    obtain ⟨x, rfl, hx⟩ := inProgress
    obtain ⟨_, w', hends, rfl, hended⟩ := (x.endOfInput_endsWell hx).exists_ok
    refine ⟨_, w', hends, .inl ⟨rfl, ?_, hended.shutDown⟩, ?_⟩
    · exact .ends hx.underway (fun h => by cases h) hended.shutDown hended.once
    · exact iff_of_false (fun h => by cases h) x.not_wasKilled
  | ended world released =>
    subst world
    refine ⟨_, _, released.endOfInput_eq, .inl ⟨rfl, ?_, released.shutDown⟩, ?_⟩
    · exact .rests (.inl released.shutDown)
    · exact iff_of_false (fun h => by cases h) (Scene.not_wasKilled _)
  | killed wasKilled =>
    obtain ⟨v, hv, rfl⟩ := id wasKilled
    exact ⟨_, _, hv.endOfInput_kill, .inr ⟨rfl, rfl, wasKilled⟩, iff_of_true rfl wasKilled⟩

end

namespace ProgramRun

/-- The program is to show one file, with navigation. -/
def arguments : List String := ["--navigation", "a.json"]

/-- Before the program starts there is one file on the disk. -/
def disk : Disk where
  workingDirectory := ⟨[]⟩
  entries := [(⟨["a.json"]⟩, .file [49]), (⟨[]⟩, .directory)]

/-- The program has started. -/
def started : ProgramWorld :=
  ((start arguments none).outcome { host := programDesk disk 0 none, client := none }).2

/-- A jump and a line that is no command are read together, and then the file is removed, which its
watcher reports. -/
def events : List Event :=
  [.lines ["0", "1 2"], .disk (.remove "a.json"), .disk (.fileEvent "a.json" true false)]

/-- What is left when the program ends with the given events, and how it ends. -/
def ended (failing : Option Nat) (events : List Event) : Except Failure Ending × ProgramWorld :=
  (program arguments none events).outcome
    { host := programDesk disk 0 failing, client := none }

end ProgramRun

end TreeInspector.CommandLine
