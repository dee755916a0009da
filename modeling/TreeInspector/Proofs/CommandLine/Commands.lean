import TreeInspector.Proofs.CommandLine.Scene

/-!
# Commands do not fail

A command that is typed while the file is shown ends well, whatever the line is: what the inspector
refuses is reported, and nothing else can go wrong, since a jump leads to a span with whole offsets
and these can be shown. All commands but the one to quit leave the program as it runs.
-/

set_option autoImplicit false

namespace TreeInspector.CommandLine

/-- The program shows its file and takes commands. -/
def InProgress (w : ProgramWorld) : Prop := ∃ x : Scene, w = x.world ∧ x.Running

namespace Scene

variable {x : Scene}

/-! ## Jumps -/

/-- A selection in the file leaves the scene running. -/
theorem Running.selecting (hx : x.Running) (span : Span) (highlight : Bool) :
    (x.selecting span highlight).Running := by
  have hground : (x.selecting span highlight).host.ground = x.host.ground := by
    unfold host source Desk.ground SourceFile.ground Scene.selecting
    simp [hx.isOpen]
  exact { hx with toSound := ⟨hx.reliable, hx.posted.same (.of_ground hground), hx.shown⟩ }

/-- A span with whole offsets is selected, and something is written about it. -/
theorem focus_eq (hx : x.Running) {span : Span} (hspan : span.Whole) (highlight : Bool) :
    ∃ text, Desk.focus 0 span highlight x.world =
      .ok () ((x.selecting span highlight).wrote text).world := by
  obtain ⟨rows, hrows⟩ := Desk.focusReport_of_whole x.file.name (Text.units x.file.text) hspan
    highlight
  refine ⟨String.join (rows.map (· ++ "\n")), ?_⟩
  have hopen : (Desk.requireOpen 0 : ProgramAct SourceFile) x.world = .ok x.source x.world := by
    have hclosed : x.source.closed = false := hx.isOpen
    unfold Desk.requireOpen
    rw [Action.bind_of_ok x.findSource_eq, hclosed]
    rfl
  unfold Desk.focus
  rw [Action.bind_of_ok hopen]
  show (do
    let rows ← Action.ofExcept
      (Desk.focusReport x.file.name (Text.units x.file.text) span highlight)
    Desk.write (String.join (rows.map (· ++ "\n"))) : ProgramAct Unit)
      (x.selecting span highlight).world = _
  rw [hrows]
  exact write_eq (hx.selecting span highlight).toSound _

/-- The session of a scene that runs may jump. -/
theorem checkBound_eq (hx : x.Running) :
    (Session.checkBound Desk.host 0 : ProgramAct Unit) x.world = .ok () x.world := by
  have hactive := hx.active
  obtain ⟨desk, file, options, lines, pane, ending, listening, readerClosed, finished⟩ := x
  cases hactive
  rfl

/-- A jump succeeds or is refused by the inspector. -/
theorem jump_ensures (hx : x.Running) {target : Target}
    (htarget : ∀ span, target.span = some span → span.Whole) :
    (Session.jump Desk.host 0 target).Ensures x.world (fun _ => InProgress)
      (fun e w => (∃ error, e = .view error) ∧ InProgress w) := by
  unfold Session.jump
  rw [Action.ensures_bind, Action.ensures_of_ok (checkBound_eq hx)]
  cases hspan : target.span with
  | none => exact ⟨⟨_, rfl⟩, x, rfl, hx⟩
  | some span =>
    have havailable : (Desk.host.isAvailable 0 : ProgramAct Bool) x.world = .ok true x.world := by
      show (.ok (!x.file.closed) x.world : EStateM.Result Failure ProgramWorld Bool) = _
      rw [hx.isOpen]
      rfl
    obtain ⟨text, hfocus⟩ := focus_eq hx (htarget span hspan) x.session.highlights
    have hdone := (hx.selecting span x.session.highlights).wrote text
    rw [Action.ensures_bind, Session.ensures_find (s := x.session) rfl, Action.ensures_bind]
    refine (Action.ensures_of_ok havailable).2 ?_
    rw [if_pos rfl, Action.ensures_bind, Session.ensures_find (s := x.session) rfl,
      Action.ensures_bind]
    exact (Action.ensures_of_ok hfocus).2 ⟨_, rfl, hdone⟩

/-- A jump to a line succeeds or is refused by the inspector. -/
theorem navigate_ensures (hx : x.Running) (index : Number) :
    (Session.navigate Desk.host 0 index).Ensures x.world (fun _ => InProgress)
      (fun e w => (∃ error, e = .view error) ∧ InProgress w) := by
  have hlines : x.session.lines = x.lines := by
    unfold session Session.lines Session.binding?
    rw [active_of_ending hx.active]
    rfl
  unfold Session.navigate
  rw [Action.ensures_bind, Action.ensures_of_ok (checkBound_eq hx), Action.ensures_bind,
    Session.ensures_find (s := x.session) rfl]
  dsimp only
  rw [hlines]
  cases hline : index.toIndex?.bind fun i => x.lines[i]? with
  | none => exact ⟨⟨_, rfl⟩, x, rfl, hx⟩
  | some line =>
    refine jump_ensures hx (hx.whole line ?_)
    obtain ⟨i, -, hi⟩ := Option.bind_eq_some_iff.1 hline
    exact List.mem_of_getElem? hi

end Scene

section

variable {w : ProgramWorld}

/-- Logging leaves a program in progress. -/
theorem InProgress.log (hw : InProgress w) (message : String) :
    (Desk.log message).EndsWell w fun _ => InProgress := by
  obtain ⟨x, rfl, hx⟩ := hw
  refine (x.log_endsWell hx.toSound message).mono ?_
  rintro _ _ ⟨messages, rfl⟩
  exact ⟨_, rfl, hx.noted messages⟩

/-- Writing leaves a program in progress. -/
theorem InProgress.write (hw : InProgress w) (text : String) :
    (Desk.write text).EndsWell w fun _ => InProgress := by
  obtain ⟨x, rfl, hx⟩ := hw
  exact Action.endsWell_of_ok (x.write_eq hx.toSound text) ⟨_, rfl, hx.wrote text⟩

/-- The log of a jump does not change how it ends. -/
theorem InProgress.navigate (hw : InProgress w) (index : Number) :
    (Registry.navigate Desk.host 0 index).Ensures w (fun _ => InProgress)
      (fun e w' => (∃ error, e = .view error) ∧ InProgress w') := by
  unfold Registry.navigate Registry.logged
  rw [Action.ensures_bind, Action.ensures_attempt, Action.ensures_bind]
  obtain ⟨x, rfl, hx⟩ := hw
  refine (x.navigate_ensures hx index).mono ?_ ?_
  · rintro result _ ⟨x', rfl, hx'⟩
    rw [Action.ensures_bind, Action.ensures_of_ok x'.title_eq, Action.ensures_bind]
    exact Action.Ensures.mono (InProgress.log ⟨x', rfl, hx'⟩ _) (fun _ _ h => h)
      (fun _ _ h => h.elim)
  · rintro e w' ⟨herror, hw'⟩
    exact Action.Ensures.bind (hw'.log _) (fun _ _ h => ⟨herror, h⟩) (fun _ _ h => h.elim)

/-! ## Commands -/

/-- A command that does not quit leaves the program in progress. -/
theorem InProgress.run (hw : InProgress w) {command : Command} (hcommand : command ≠ .quit) :
    (run writeLine 0 command).EndsWell w fun outcome w' => outcome = .continue ∧ InProgress w' := by
  have hwrites : ∀ {w'}, InProgress w' → ∀ line, (do
      writeLine line
      return .continue : ProgramAct Outcome).EndsWell w'
        fun outcome w'' => outcome = .continue ∧ InProgress w'' :=
    fun hw' line => (hw'.write (line ++ "\n")).bind fun _ _ h => ⟨rfl, h⟩
  cases command with
  | nothing => exact ⟨rfl, hw⟩
  | quit => exact (hcommand rfl).elim
  | help =>
    refine Action.EndsWell.bind (Action.endsWell_forM commandList ?_ w hw) fun _ _ h => ⟨rfl, h⟩
    exact fun line _ w' hw' => hw'.write (line ++ "\n")
  | render =>
    obtain ⟨x, rfl, hx⟩ := hw
    have hview : x.session.view? = some 0 := by
      unfold Scene.session Session.view? Session.binding?
      rw [Scene.active_of_ending hx.active]
      rfl
    refine Action.ensures_bind.2 ((Session.ensures_find (s := x.session) rfl).2 ?_)
    rw [hview]
    have hpane : (Desk.findPane 0 : ProgramAct Pane) x.world = .ok x.pane x.world := rfl
    refine Action.EndsWell.bind (Action.endsWell_bind_of_ok hpane ?_) fun _ _ h => ⟨rfl, h⟩
    exact InProgress.write ⟨x, rfl, hx⟩ _
  | locate offset =>
    obtain ⟨x, rfl, hx⟩ := hw
    have hshown : (showCoveringLine writeLine 0 offset).EndsWell x.world fun _ => InProgress := by
      have hwrite : ∀ line, (writeLine line).EndsWell x.world fun _ => InProgress :=
        fun line => InProgress.write ⟨x, rfl, hx⟩ (line ++ "\n")
      unfold showCoveringLine
      refine Action.ensures_bind.2 ((Session.ensures_find (s := x.session) rfl).2 ?_)
      split
      · exact hwrite _
      · split
        · exact hwrite _
        · exact hwrite _
    exact hshown.bind fun _ _ h => ⟨rfl, h⟩
  | jump line =>
    refine Action.ensures_bind.2 (Action.ensures_attempt.2 ((hw.navigate line).mono ?_ ?_))
    · exact fun _ _ h => ⟨rfl, h⟩
    · rintro _ w' ⟨⟨error, rfl⟩, hw'⟩
      exact hwrites hw' _
  | unknown text => exact hwrites hw _

/-- Quitting ends the session. -/
theorem run_quit {x : Scene} (hx : x.Running) :
    (run writeLine 0 .quit).EndsWell x.world fun outcome w' => outcome = .quit ∧
      ∃ messages, w' = ((x.ended .disabled).noted messages).world := by
  have hstate : x.session.state = .active := by
    rw [x.state_eq, Scene.active_of_ending hx.active, if_pos rfl]
  refine Action.ensures_bind.2 ((Session.ensures_find (s := x.session) rfl).2 ?_)
  rw [if_pos hstate]
  exact Action.EndsWell.bind (Scene.finish_endsWell hx.toSound hx.active .disable .disabled)
    fun _ _ h => ⟨rfl, h⟩

end

end TreeInspector.CommandLine
