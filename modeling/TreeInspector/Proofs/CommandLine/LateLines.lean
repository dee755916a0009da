import TreeInspector.Proofs.CommandLine.Shutdown

/-!
# Lines after the end

The line that ends a program may have been read together with others. Those that come after it are
still handled, and find nothing left to act upon: each is answered by what is written or logged, and
that is all that comes of it.
-/

set_option autoImplicit false

namespace TreeInspector.CommandLine

/-- The text may answer a line. What is written of a pane, or of its end, starts with a bar. -/
def IsAnswer (text : String) : Prop := text.toList.head? ≠ some '='

/-- From the first world to the second answers were written and something was logged, and nothing
else happened. -/
def Trails (w w' : ProgramWorld) : Prop :=
  ∃ texts messages, (∀ text ∈ texts, IsAnswer text) ∧ w' = { w with
    host := { w.host with output := w.host.output.takingAll texts, messages := messages } }

section

variable {w w' w'' : ProgramWorld}

/-- Nothing may have been written or logged. -/
theorem Trails.refl (w : ProgramWorld) : Trails w w :=
  ⟨[], w.host.messages, List.forall_mem_nil _, rfl⟩

/-- What is written later comes after what was written before. -/
theorem Trails.trans (first : Trails w w') (second : Trails w' w'') : Trails w w'' := by
  obtain ⟨texts, messages, hanswers, rfl⟩ := first
  obtain ⟨texts', messages', hanswers', rfl⟩ := second
  refine ⟨texts ++ texts', messages', List.forall_mem_append.2 ⟨hanswers, hanswers'⟩, ?_⟩
  rw [Sink.takingAll_append]

end

namespace Scene

section

variable {x : Scene} {w : ProgramWorld}

/-- Whatever is written and logged after the end, everything remains let go of. -/
theorem Released.of_trails (hx : x.Released) (h : Trails x.world w) :
    ∃ x' : Scene, w = x'.world ∧ x'.Released := by
  obtain ⟨texts, messages, -, rfl⟩ := h
  have hreliable : ∀ (texts : List String) (s : Sink), s.failing = none →
      (s.takingAll texts).failing = none := by
    intro texts
    induction texts with
    | nil => exact fun _ h => h
    | cons text texts ih => exact fun s h => ih (s.taking text) h
  refine ⟨{ x with desk := { x.desk with
    output := x.desk.output.takingAll texts
    messages := messages } }, rfl, ?_⟩
  exact { hx with toSound :=
    ⟨hreliable texts _ hx.reliable, hx.posted.same (.of_ground rfl), hx.shown⟩ }

/-- An answer that is written after the end trails. -/
theorem Released.writeLine_trails (hx : x.Released) {line : String}
    (hanswer : IsAnswer (line ++ "\n")) :
    (writeLine line).EndsWell x.world fun _ => Trails x.world := by
  refine Action.endsWell_of_ok (x.write_eq hx.toSound (line ++ "\n")) ?_
  exact ⟨[line ++ "\n"], x.desk.messages, List.forall_mem_singleton.2 hanswer, rfl⟩

/-- What is logged after the end trails. -/
theorem Released.log_trails (hx : x.Released) (message : String) :
    (Desk.log message).EndsWell x.world fun _ => Trails x.world := by
  refine (log_endsWell hx.toSound message).mono ?_
  rintro _ _ ⟨messages, rfl⟩
  exact ⟨[], messages, List.forall_mem_nil _, rfl⟩

/-- One after another, actions that trail from wherever the end is trail together. -/
theorem Released.forM_trails {α : Type} {f : α → ProgramAct Unit} (as : List α)
    (hf : ∀ a ∈ as, ∀ x : Scene, x.Released → (f a).EndsWell x.world fun _ => Trails x.world)
    (hx : x.Released) : (as.forM f).EndsWell x.world fun _ => Trails x.world := by
  refine Action.endsWell_forM as ?_ x.world (.refl _)
  intro a ha w hw
  obtain ⟨x', rfl, hx'⟩ := hx.of_trails hw
  exact (hf a ha x' hx').mono fun _ _ h => hw.trans h

/-- A jump after the end is refused by the inspector. -/
theorem Released.navigate_trails (hx : x.Released) (index : Number) :
    (Registry.navigate Desk.host 0 index).Ensures x.world (fun _ _ => False)
      (fun e w => (∃ error, e = .view error) ∧ Trails x.world w) := by
  have hstate : x.session.state = .inactive := by
    rw [x.state_eq, hx.inactive, if_neg Bool.false_ne_true]
  unfold Registry.navigate Registry.logged Session.navigate Session.checkBound
  rw [Action.ensures_bind, Action.ensures_attempt, Action.ensures_bind, Action.ensures_bind,
    Action.ensures_bind, Session.ensures_find (s := x.session) rfl, hstate]
  have hlog : ∀ (e : ViewError), (do
      Desk.host.log ("Navigation failed: " ++ (Failure.view e).message)
      throw (.view e) : ProgramAct Session.Jump).Ensures x.world (fun _ _ => False)
        (fun e w => (∃ error, e = .view error) ∧ Trails x.world w) := by
    intro e
    exact Action.Ensures.bind (hx.log_trails _) (fun _ _ h => ⟨⟨e, rfl⟩, h⟩)
      (fun _ _ h => h.elim)
  dsimp only
  split_ifs
  · rw [Action.ensures_bind, Action.ensures_of_ok x.title_eq]
    exact hlog _
  · exact hlog _

/-- No command fails after the end, and all that comes of it is an answer. -/
theorem Released.run_trails (hx : x.Released) (command : Command) :
    (run writeLine 0 command).EndsWell x.world fun _ => Trails x.world := by
  have hfind : ∀ {α : Type} {f : Session → ProgramAct α} {Q : α → ProgramWorld → Prop},
      (f x.session).EndsWell x.world Q → (Session.find 0 >>= f).EndsWell x.world Q :=
    fun h => Action.ensures_bind.2 ((Session.ensures_find (s := x.session) rfl).2 h)
  have hidle : x.session.binding? = none := by
    unfold session Session.binding?
    rw [hx.inactive]
    rfl
  cases command with
  | nothing => exact Trails.refl _
  | quit =>
    have hstate : x.session.state = .inactive := Session.state_eq_inactive_iff.2 hidle
    refine hfind ?_
    rw [hstate, if_neg (by decide)]
    exact Trails.refl _
  | help =>
    have hanswers : ∀ line ∈ commandList, IsAnswer (line ++ "\n") := by
      simp [IsAnswer, commandList]
    have hwrites := Released.forM_trails (f := writeLine) commandList
      (fun line hline x' hx' => hx'.writeLine_trails (hanswers line hline)) hx
    exact Action.EndsWell.bind hwrites fun _ _ h => h
  | render =>
    have hview : x.session.view? = none := by rw [Session.view?, hidle, Option.map_none]
    refine hfind ?_
    rw [hview]
    exact (hx.writeLine_trails (by simp [IsAnswer])).bind fun _ _ h => h
  | locate offset =>
    have hlines : x.session.lines = [] := by
      unfold Session.lines
      rw [hidle]
      rfl
    refine Action.EndsWell.bind (P := fun _ => Trails x.world) ?_ fun _ _ h => h
    refine hfind ?_
    rw [hlines]
    split
    · exact hx.writeLine_trails (by simp [IsAnswer])
    · exact hx.writeLine_trails (by simp [IsAnswer])
  | jump line =>
    refine Action.ensures_bind.2 (Action.ensures_attempt.2 ((hx.navigate_trails line).mono ?_ ?_))
    · exact fun _ _ h => h.elim
    · rintro _ w ⟨⟨error, rfl⟩, hw⟩
      obtain ⟨x', rfl, hx'⟩ := hx.of_trails hw
      have hanswer : IsAnswer ("Error: " ++ error.message ++ "\n") := by simp [IsAnswer]
      exact Action.EndsWell.bind (hx'.writeLine_trails hanswer) fun _ _ h => hw.trans h
  | unknown text =>
    have hanswer : IsAnswer ("Unknown command \"" ++ text ++
        "\". Type \"help\" for a list of commands." ++ "\n") := by simp [IsAnswer]
    exact (hx.writeLine_trails hanswer).bind fun _ _ h => h

/-- The reader is closed once. -/
theorem Released.closeReader_eq (hx : x.Released) : closeReader x.world = .ok () x.world := by
  unfold closeReader
  rw [Action.bind_of_ok x.client_eq]
  show (if x.readerClosed then pure () else _ : ProgramAct Unit) x.world = _
  rw [hx.readerClosed]
  rfl

/-- A line after the end is answered. If it is to quit once more, there is nothing to close. -/
theorem Released.handleLine_trails (hx : x.Released) (line : String) :
    (handleLine line).EndsWell x.world fun _ => Trails x.world := by
  refine Action.endsWell_bind_of_ok x.client_eq ?_
  refine Action.ensures_bind.2 (Action.ensures_attempt.2 ?_)
  refine Action.Ensures.bind (hx.run_trails (Command.ofLine line)) ?_ (fun _ _ h => h.elim)
  intro outcome w hw
  obtain ⟨x', rfl, hx'⟩ := hx.of_trails hw
  cases outcome with
  | «continue» => exact hw
  | quit => exact (Action.ensures_of_ok hx'.closeReader_eq).2 hw

end

end Scene

end TreeInspector.CommandLine
