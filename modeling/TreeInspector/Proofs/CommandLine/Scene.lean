import TreeInspector.CommandLine.Program
import TreeInspector.Proofs.Desk.Focus
import TreeInspector.Proofs.Desk.Watchers

/-!
# The scene of a program

Once a program has shown its file there is one source, one session that views it in one pane, and
three subscriptions: two of the session, and one of the program, which wants to know when the file
is gone. A scene says in which state these are, and all that the program does leads from one scene
to another. As long as the output takes what is written, none of it fails.
-/

set_option autoImplicit false

namespace TreeInspector

/-- The sink with one more text, which it has taken. -/
def Sink.taking (s : Sink) (text : String) : Sink :=
  { s with writes := s.writes + 1, written := s.written ++ text }

/-- A sink that does not fail takes what is written. -/
theorem Sink.write_of_reliable {s : Sink} (h : s.failing = none) (text : String) :
    s.write text = (.ok (), s.taking text) := by
  unfold Sink.write taking
  simp [h]

namespace CommandLine

/-- The state of everything that the program has to do with, once it has shown its file. -/
structure Scene where
  /-- The rest of the desk. -/
  desk : Desk
  /-- The file, but for those who listen to it. -/
  file : SourceFile
  options : Options
  lines : List ViewLine
  pane : Pane
  /-- Why the session has ended, if it has. -/
  ending : Option EndReason := none
  /-- The program listens to the end of the file. -/
  listening : Bool := true
  readerClosed : Bool := false
  finished : Option Nat := none

namespace Scene

/-- The session views the file. -/
def active (x : Scene) : Bool := x.ending.isNone

/-- The session that views the file, or has viewed it. -/
def session (x : Scene) : Session where
  source := 0
  options := x.options
  registered := true
  bindings := [{ view := 0, lines := x.lines, subscriptions := if x.active then [1, 0] else [] }]
  current := if x.active then some 0 else none
  endReason := x.ending

/-- The file with those who listen to it. -/
def source (x : Scene) : SourceFile :=
  { x.file with
    commitListeners := if x.active then [0] else []
    destroyListeners := (if x.active then [1] else []) ++ if x.listening then [2] else [] }

/-- The desk with the file, the subscriptions and the pane. -/
def host (x : Scene) : Desk :=
  { x.desk with
    sources := [x.source]
    subscriptions :=
      [{ source := 0, event := .commit, callback := .session 0 .commit, ended := !x.active },
       { source := 0, event := .destroy, callback := .session 0 .destroy, ended := !x.active },
       { source := 0, event := .destroy, callback := .client 0, ended := !x.listening }]
    panes := [x.pane] }

/-- The world in which things are as the scene says. -/
def world (x : Scene) : ProgramWorld where
  sessions := [x.session]
  registry := if x.active then [(0, 0)] else []
  host := x.host
  client := some
    { source := 0
      session := 0
      farewell := 2
      readerClosed := x.readerClosed
      finished := x.finished }

/-- The output takes what is written, the journal takes what is logged, the watchers guard the file,
and the pane is there as long as the session is. -/
structure Sound (x : Scene) : Prop where
  reliable : x.desk.output.failing = none
  posted : Desk.Posted {0} x.world
  shown : x.pane.disposed = !x.active

/-- The file is shown, and commands are taken. -/
structure Running (x : Scene) : Prop extends x.Sound where
  active : x.ending = none
  listening : x.listening = true
  reading : x.readerClosed = false
  unfinished : x.finished = none
  isOpen : x.file.closed = false
  parsed : x.file.tree = some (Document.analyze Document.lenient x.file.text).root
  whole : ∀ line ∈ x.lines, line.Whole

/-! ## From scene to scene -/

/-- The scene after a text has been written. -/
def wrote (text : String) (x : Scene) : Scene :=
  { x with desk := { x.desk with output := x.desk.output.taking text } }

/-- The scene with these messages in the log. -/
def noted (messages : List String) (x : Scene) : Scene :=
  { x with desk := { x.desk with messages := messages } }

/-- What is written when the pane is ended. -/
def closingLine (x : Scene) : String := "=== closed: " ++ x.pane.title ++ " ===\n"

/-- The session has ended, and with it the pane. -/
def ended (reason : EndReason) (x : Scene) : Scene :=
  { x.wrote x.closingLine with ending := some reason, pane := { x.pane with disposed := true } }

/-- The lines are shown. -/
def showing (lines : List ViewLine) (x : Scene) : Scene :=
  { x.wrote (Desk.paneText { x.pane with lines := Desk.paneRows lines }) with
    lines := lines
    pane := { x.pane with lines := Desk.paneRows lines } }

/-- The scene after a span of the file has been selected. -/
def selecting (span : Span) (highlight : Bool) (x : Scene) : Scene :=
  { x with file := { x.file with selection := some span, highlighted := highlight } }

section

variable {x : Scene}

/-- Writing leaves a scene sound. -/
theorem Sound.wrote (hx : x.Sound) (text : String) : (x.wrote text).Sound :=
  ⟨hx.reliable, hx.posted.same (.of_ground rfl), hx.shown⟩

/-- Logging leaves a scene sound. -/
theorem Sound.noted (hx : x.Sound) (messages : List String) : (x.noted messages).Sound :=
  ⟨hx.reliable, hx.posted.same (.of_ground rfl), hx.shown⟩

/-- The end of the session leaves a scene sound. -/
theorem Sound.ended (hx : x.Sound) (reason : EndReason) : (x.ended reason).Sound :=
  ⟨hx.reliable, hx.posted.same (.of_ground rfl), rfl⟩

/-- A session without a reason for its end is active. -/
theorem active_of_ending (h : x.ending = none) : x.active = true := by
  unfold active
  rw [h]
  rfl

/-- The state of the session is the one that the scene says. -/
theorem state_eq (x : Scene) : x.session.state = if x.active then .active else .inactive := by
  unfold session Session.state Session.binding?
  cases x.active <;> rfl

/-- The program knows of its run. -/
theorem client_eq (x : Scene) :
    (Action.client : ProgramAct (Option Run)) x.world = .ok x.world.client x.world := rfl

/-- The file is the first source of the desk. -/
theorem findSource_eq (x : Scene) :
    (Desk.findSource 0 : ProgramAct SourceFile) x.world = .ok x.source x.world := rfl

/-- The title of the session is the name of the file. -/
theorem title_eq (x : Scene) :
    (Session.title Desk.host 0 : ProgramAct String) x.world = .ok x.file.name x.world := rfl

/-- What is written in a sound scene is taken. -/
theorem write_eq (hx : x.Sound) (text : String) :
    Desk.write text x.world = .ok () (x.wrote text).world := by
  have hwrite : x.world.host.output.write text = (.ok (), x.desk.output.taking text) :=
    Sink.write_of_reliable hx.reliable text
  unfold Desk.write
  refine (Action.bind_host _ _).trans ?_
  rw [hwrite]
  rfl

/-- What is logged in a sound scene is taken. -/
theorem log_endsWell (hx : x.Sound) (message : String) :
    (Desk.log message).EndsWell x.world fun _ w => ∃ messages, w = (x.noted messages).world :=
  Desk.log_of_talks hx.posted.talks message fun messages => ⟨messages, rfl⟩

/-- Writing leaves a scene running. -/
theorem Running.wrote (hx : x.Running) (text : String) : (x.wrote text).Running :=
  { hx with toSound := hx.toSound.wrote text }

/-- Logging leaves a scene running. -/
theorem Running.noted (hx : x.Running) (messages : List String) : (x.noted messages).Running :=
  { hx with toSound := hx.toSound.noted messages }

/-! ## Ending the session -/

/-- An active session lets go of its file: it listens no more and has a reason for its end. -/
theorem letGo_eq (hactive : x.ending = none) (operation : SessionOperation) (reason : EndReason) :
    Session.letGo Desk.host 0 operation reason x.world = .ok (x.file.name, 0)
      { ({ x with ending := some reason } : Scene).world with registry := [(0, 0)] } := by
  obtain ⟨desk, file, options, lines, pane, ending, listening, readerClosed, finished⟩ := x
  cases hactive
  cases listening <;> rfl

/-- The pane is ended by writing its closing line. -/
theorem destroyPane_eq (hx : x.Sound) (reason : EndReason) :
    Desk.destroyPane 0
      { ({ x with ending := some reason } : Scene).world with registry := [(0, 0)] } =
      .ok () { (x.ended reason).world with registry := [(0, 0)] } := by
  have hwrite : x.world.host.output.write x.closingLine =
      (.ok (), x.desk.output.taking x.closingLine) := Sink.write_of_reliable hx.reliable _
  show (do
    Action.modifyHost fun d => { d with output := (x.world.host.output.write x.closingLine).2 }
    Action.ofExcept (x.world.host.output.write x.closingLine).1 : ProgramAct Unit)
      { ({ x with ending := some reason, pane := { x.pane with disposed := true } } : Scene).world
        with registry := [(0, 0)] } = _
  rw [hwrite]
  rfl

/-- An active session is ended, and its pane with it. -/
theorem finish_endsWell (hx : x.Sound) (hactive : x.ending = none) (operation : SessionOperation)
    (reason : EndReason) :
    (Session.finish Desk.host 0 operation reason).EndsWell x.world
      fun _ w => ∃ messages, w = ((x.ended reason).noted messages).world := by
  rw [Session.finish_eq]
  refine Action.endsWell_bind_of_ok (letGo_eq hactive operation reason) ?_
  refine Action.endsWell_bind_of_ok (destroyPane_eq hx reason) ?_
  refine Action.ensures_bind.2 (Desk.log_of_talks
    (w := { (x.ended reason).world with registry := [(0, 0)] }) (hx.ended reason).posted.talks _ ?_)
  exact fun messages => ⟨messages, rfl⟩

/-! ## Showing the file -/

/-- The tree of an open file is rendered and shown in the pane. -/
theorem render_eq (hx : x.Sound) (hopen : x.file.closed = false) {tree : ParseTree}
    (htree : x.file.tree = some tree) :
    Session.render Desk.host 0 0 x.world = .ok (tree.render x.options.navigation)
      { (x.showing (tree.render x.options.navigation)).world with sessions := [x.session] } := by
  have hcurrent : x.source.currentTree = .ok tree := by
    have hclosed : x.source.closed = false := hopen
    have hparsed : x.source.tree = some tree := htree
    unfold SourceFile.currentTree
    rw [hclosed, hparsed]
  have hgiven : (Desk.host.tree 0 : ProgramAct ParseTree) x.world = .ok tree x.world := by
    show (Action.ofExcept x.source.currentTree : ProgramAct ParseTree) x.world = _
    rw [hcurrent]
    rfl
  generalize hlines : tree.render x.options.navigation = lines
  have hwrite : x.world.host.output.write
      (Desk.paneText { x.pane with lines := Desk.paneRows lines }) =
      (.ok (), x.desk.output.taking _) := Sink.write_of_reliable hx.reliable _
  have hshow : (Desk.host.showLines 0 lines : ProgramAct Unit) x.world =
      .ok () { (x.showing lines).world with sessions := [x.session] } := by
    show (do
      Action.modifyHost fun d => { d with output := (x.world.host.output.write
        (Desk.paneText { x.pane with lines := Desk.paneRows lines })).2 }
      Action.ofExcept (x.world.host.output.write
        (Desk.paneText { x.pane with lines := Desk.paneRows lines })).1 : ProgramAct Unit)
        ({ x with pane := { x.pane with lines := Desk.paneRows lines } } : Scene).world = _
    rw [hwrite]
    rfl
  show (do
    let tree ← Desk.host.tree 0
    let lines := tree.render x.options.navigation
    Desk.host.showLines 0 lines
    return lines : ProgramAct (List ViewLine)) x.world = _
  rw [Action.bind_of_ok hgiven]
  dsimp only
  rw [hlines, Action.bind_of_ok hshow]
  rfl

/-- Showing lines leaves a scene sound. -/
theorem Sound.showing (hx : x.Sound) (lines : List ViewLine) : (x.showing lines).Sound :=
  ⟨hx.reliable, hx.posted.same (.of_ground rfl), hx.shown⟩

/-- A commit of the file is shown. -/
theorem refresh_endsWell (hx : x.Sound) (hactive : x.ending = none)
    (hopen : x.file.closed = false) {tree : ParseTree} (htree : x.file.tree = some tree) :
    (Session.refresh Desk.host 0).EndsWell x.world fun _ w => ∃ messages,
      w = ((x.showing (tree.render x.options.navigation)).noted messages).world := by
  have hbinding : (Session.activeBinding .sourceChanged 0 : ProgramAct (Nat × Binding)) x.world =
      .ok (0, ⟨0, x.lines, [1, 0]⟩) x.world := by
    obtain ⟨desk, file, options, lines, pane, ending, listening, readerClosed, finished⟩ := x
    cases hactive
    rfl
  refine Action.endsWell_bind_of_ok hbinding ?_
  refine Action.endsWell_bind_of_ok (render_eq hx hopen htree) ?_
  generalize tree.render x.options.navigation = lines
  have hkept : (Session.modifyBinding 0 0 fun binding => { binding with lines := lines } :
      ProgramAct Unit) { (x.showing lines).world with sessions := [x.session] } =
      .ok () (x.showing lines).world := rfl
  refine Action.endsWell_bind_of_ok hkept ?_
  exact log_endsWell (hx.showing lines) _

/-- An active session is refreshed by a commit and ended by the end of its file. -/
theorem notify_eq (hactive : x.ending = none) (event : Notice) :
    Session.notify Desk.host 0 event x.world = (match event with
      | .commit => Session.refresh Desk.host 0 x.world
      | .destroy => Session.finish Desk.host 0 .sourceDestroyed .sourceDestroyed x.world) := by
  obtain ⟨desk, file, options, lines, pane, ending, listening, readerClosed, finished⟩ := x
  cases hactive
  cases event <;> rfl

end

end Scene

end CommandLine

end TreeInspector
