import TreeInspector.Proofs.CommandLine.Commands

/-!
# Shutting a program down

A program ends when the user quits, when the input ends or is interrupted, or when its file goes
away. Each of these leads to the same place by another way: the reader is closed once, the session
is ended once and its pane with it, the file is closed and nobody listens to it or watches it any
more, and the exit code is set.
-/

set_option autoImplicit false

namespace TreeInspector

/-- The sink with more texts, which it has taken one after another. -/
def Sink.takingAll (s : Sink) (texts : List String) : Sink := texts.foldl Sink.taking s

/-- Texts taken in two goes are taken as in one. -/
theorem Sink.takingAll_append (s : Sink) (first second : List String) :
    s.takingAll (first ++ second) = (s.takingAll first).takingAll second :=
  List.foldl_append

namespace CommandLine

namespace Scene

/-- Everything has been let go of, and the program has finished. -/
structure Released (x : Scene) : Prop extends x.Sound where
  inactive : x.active = false
  deaf : x.listening = false
  readerClosed : x.readerClosed = true
  finished : x.finished = some 0
  closed : x.file.closed = true

/-- The world is one in which everything has been let go of, and from the scene up to there exactly
the given texts have been written. -/
def ReleasedBy (x : Scene) (texts : List String) (w : ProgramWorld) : Prop :=
  ∃ x' : Scene, w = x'.world ∧ x'.Released ∧ x'.desk.output = x.desk.output.takingAll texts

/-- The file has been marked as closed. -/
def shutting (trace : List String) (x : Scene) : Scene :=
  { x with
    file := x.file.shut
    desk := { x.desk with
      watchers := Desk.stopped x.desk.watchers x.file.watcher
      trace := trace } }

section

variable {x : Scene}

/-! ## Closing the file -/

/-- The file is marked as closed, and is not watched any more. -/
theorem shut_endsWell (hx : x.Sound) :
    (Desk.shut 0).EndsWell x.world fun _ w => ∃ trace, w = (x.shutting trace).world ∧
      (x.shutting trace).Sound := by
  have hs : x.world.host.sources[0]? = some x.source := rfl
  have hposted := Desk.shut_guards hx.posted hs
  have hshut : (Desk.shut 0).EndsWell x.world fun _ w => ∃ trace, w = (x.shutting trace).world :=
    Desk.shut_ensures hs fun trace => ⟨trace, rfl⟩
  refine (Action.Ensures.and hposted hshut).mono ?_ (fun _ _ h => h.2)
  rintro _ _ ⟨hposted, trace, rfl⟩
  exact ⟨trace, rfl, hx.reliable, hposted, hx.shown⟩

/-- Those who listen to the end of a file that nobody listens to. -/
theorem announce_of_deaf (hinactive : x.active = false) (hdeaf : x.listening = false)
    (deliver : Callback → ProgramAct Unit) (event : Notice) :
    Desk.announce deliver 0 event x.world = .ok () x.world := by
  have hnone : x.source.listeners event = [] := by
    unfold source
    rw [hinactive, hdeaf]
    cases event <;> rfl
  unfold Desk.announce
  rw [Action.bind_of_ok x.findSource_eq, hnone]
  rfl

/-- Where nobody listens there is nobody to forget. -/
theorem forgetListeners_of_deaf (hinactive : x.active = false) (hdeaf : x.listening = false) :
    (Desk.forgetListeners 0 : ProgramAct Unit) x.world = .ok () x.world := by
  obtain ⟨desk, file, options, lines, pane, ending, listening, readerClosed, finished⟩ := x
  cases hdeaf
  cases ending with
  | none => cases hinactive
  | some reason => rfl

/-- Closing a file that nobody listens to. -/
theorem close_of_deaf (hx : x.Sound) (hinactive : x.active = false) (hdeaf : x.listening = false)
    (deliver : Callback → ProgramAct Unit) :
    (Desk.close deliver 0).EndsWell x.world fun _ w => ∃ x' : Scene, w = x'.world ∧ x'.Sound ∧
      x'.file.closed = true ∧ x'.ending = x.ending ∧ x'.listening = false ∧
      x'.readerClosed = x.readerClosed ∧ x'.desk.output = x.desk.output := by
  refine Action.endsWell_bind_of_ok x.findSource_eq ?_
  cases hclosed : x.source.closed with
  | true =>
    rw [if_pos rfl]
    exact ⟨x, rfl, hx, hclosed, rfl, hdeaf, rfl, rfl⟩
  | false =>
    rw [if_neg Bool.false_ne_true]
    refine (shut_endsWell hx).bind ?_
    rintro _ _ ⟨trace, rfl, hshut⟩
    refine (log_endsWell hshut _).bind ?_
    rintro _ _ ⟨messages, rfl⟩
    refine Action.endsWell_bind_of_ok (announce_of_deaf (x := (x.shutting trace).noted messages)
      hinactive hdeaf deliver .destroy) ?_
    refine Action.endsWell_of_ok (forgetListeners_of_deaf (x := (x.shutting trace).noted messages)
      hinactive hdeaf) ?_
    exact ⟨_, rfl, hshut.noted messages, rfl, rfl, hdeaf, rfl, rfl⟩

/-! ## Closing the reader -/

/-- The program stops listening to the end of the file. -/
theorem unsubscribe_eq (hlistening : x.listening = true) :
    (Desk.unsubscribe 2 : ProgramAct Unit) x.world =
      .ok () ({ x with listening := false } : Scene).world := by
  obtain ⟨desk, file, options, lines, pane, ending, listening, readerClosed, finished⟩ := x
  cases hlistening
  cases ending <;> rfl

/-- All sessions in charge are ended: the one that there is, if it has not been. -/
theorem dispose_endsWell (hx : x.Sound) :
    (Registry.dispose Desk.host).EndsWell x.world fun _ w => ∃ x' : Scene, w = x'.world ∧ x'.Sound ∧
      x'.active = false ∧ x'.listening = x.listening ∧ x'.readerClosed = x.readerClosed ∧
      x'.desk.output = x.desk.output.takingAll (if x.active then [x.closingLine] else []) := by
  unfold Registry.dispose
  refine Action.ensures_bind.2 (Action.ensures_get.2 ?_)
  cases hending : x.ending with
  | none =>
    have hactive := active_of_ending hending
    have hregistry : x.world.registry.map (·.2) = [0] := by
      show (if x.active then [(0, 0)] else []).map Prod.snd = [0]
      rw [hactive]
      rfl
    rw [hregistry, hactive, if_pos rfl]
    refine (finish_endsWell hx hending .disable .disabled).bind ?_
    rintro _ _ ⟨messages, rfl⟩
    exact ⟨_, rfl, (hx.ended .disabled).noted messages, rfl, rfl, rfl, rfl⟩
  | some reason =>
    have hinactive : x.active = false := by
      unfold active
      rw [hending]
      rfl
    have hregistry : x.world.registry.map (·.2) = [] := by
      show (if x.active then [(0, 0)] else []).map Prod.snd = []
      rw [hinactive]
      rfl
    rw [hregistry, hinactive, if_neg Bool.false_ne_true]
    exact ⟨x, rfl, hx, hinactive, rfl, rfl, rfl⟩

/-- However far the session and the file have come, closing the reader lets go of the rest. -/
theorem closeReader_endsWell (hx : x.Sound) (hreading : x.readerClosed = false)
    (hlistening : x.listening = true) :
    closeReader.EndsWell x.world fun _ =>
      x.ReleasedBy (if x.active then [x.closingLine] else []) := by
  refine Action.endsWell_bind_of_ok x.client_eq ?_
  show (do
    if x.readerClosed then return
    modifyRun ({ · with readerClosed := true })
    Desk.unsubscribe 2
    Registry.dispose Desk.host
    Desk.close deliverAfterClosing 0
    modifyRun fun r => { r with finished := some r.code } : ProgramAct Unit).EndsWell x.world _
  rw [hreading, if_neg Bool.false_ne_true]
  have hclosed : modifyRun ({ · with readerClosed := true }) x.world =
      .ok () ({ x with readerClosed := true } : Scene).world := rfl
  refine Action.endsWell_bind_of_ok hclosed ?_
  refine Action.endsWell_bind_of_ok (unsubscribe_eq (x := { x with readerClosed := true })
    hlistening) ?_
  have hx₁ : ({ x with readerClosed := true, listening := false } : Scene).Sound :=
    ⟨hx.reliable, hx.posted.same (.of_ground rfl), hx.shown⟩
  refine (dispose_endsWell hx₁).bind ?_
  rintro _ _ ⟨x₂, rfl, hx₂, hinactive, hdeaf, hreader, houtput⟩
  refine (close_of_deaf hx₂ hinactive hdeaf deliverAfterClosing).bind ?_
  rintro _ _ ⟨x₃, rfl, hx₃, hclosed₃, hending, hdeaf₃, hreader₃, houtput₃⟩
  have hinactive₃ : x₃.active = false := by
    unfold active
    rw [hending]
    exact hinactive
  refine ⟨{ x₃ with finished := some 0 }, rfl, ?_, houtput₃.trans houtput⟩
  exact ⟨⟨hx₃.reliable, hx₃.posted.same (.of_ground rfl), hx₃.shown⟩, hinactive₃, hdeaf₃,
    hreader₃.trans hreader, rfl, hclosed₃⟩

/-! ## The end of the file -/

/-- What is written when the file is gone. -/
def farewellLine (x : Scene) : String := x.file.name ++ " is no longer available." ++ "\n"

/-- The program is told that the file is gone, after the session has been. -/
theorem deliver_client_endsWell (hx : x.Sound) (hinactive : x.active = false)
    (hreading : x.readerClosed = false) (hlistening : x.listening = true) :
    (deliver (.client 0)).EndsWell x.world fun _ => x.ReleasedBy [x.farewellLine] := by
  refine Action.endsWell_bind_of_ok x.client_eq ?_
  refine Action.EndsWell.bind (P := fun _ w => w = (x.wrote x.farewellLine).world) ?_ ?_
  · refine Action.endsWell_bind_of_ok x.title_eq ?_
    exact Action.endsWell_of_ok (write_eq hx _) rfl
  · rintro _ _ rfl
    have hreleased := closeReader_endsWell (hx.wrote x.farewellLine) hreading hlistening
    have hnone : (x.wrote x.farewellLine).active = false := hinactive
    rw [hnone, if_neg Bool.false_ne_true] at hreleased
    exact hreleased

/-- When the end of the file is announced, the session ends first, and then the program. -/
theorem announce_destroy_endsWell (hx : x.Sound) (hactive : x.ending = none)
    (hreading : x.readerClosed = false) (hlistening : x.listening = true) :
    (Desk.announce deliver 0 .destroy).EndsWell x.world fun _ =>
      x.ReleasedBy [x.closingLine, x.farewellLine] := by
  have hlisteners : x.source.listeners .destroy = [1, 2] := by
    show (if x.active then [1] else []) ++ (if x.listening then [2] else []) = [1, 2]
    rw [active_of_ending hactive, hlistening]
    rfl
  refine Action.endsWell_bind_of_ok x.findSource_eq ?_
  rw [hlisteners]
  refine Action.EndsWell.bind (P := fun _ w => ∃ messages,
    w = ((x.ended .sourceDestroyed).noted messages).world) ?_ ?_
  · show (Session.notify Desk.host 0 .destroy).EndsWell x.world _
    unfold Action.EndsWell Action.Ensures
    rw [notify_eq hactive]
    exact finish_endsWell hx hactive .sourceDestroyed .sourceDestroyed
  · rintro _ _ ⟨messages, rfl⟩
    refine Action.EndsWell.bind (P := fun _ => x.ReleasedBy [x.closingLine, x.farewellLine]) ?_
      (fun _ _ h => h)
    exact deliver_client_endsWell ((hx.ended .sourceDestroyed).noted messages) rfl hreading
      hlistening

/-- Closing the file ends the program. -/
theorem close_endsWell (hx : x.Running) :
    (Desk.close deliver 0).EndsWell x.world fun _ =>
      x.ReleasedBy [x.closingLine, x.farewellLine] := by
  have hopen : x.source.closed = false := hx.isOpen
  refine Action.endsWell_bind_of_ok x.findSource_eq ?_
  rw [hopen, if_neg Bool.false_ne_true]
  refine (shut_endsWell hx.toSound).bind ?_
  rintro _ _ ⟨trace, rfl, hshut⟩
  refine (log_endsWell hshut _).bind ?_
  rintro _ _ ⟨messages, rfl⟩
  refine (announce_destroy_endsWell (hshut.noted messages) hx.active hx.reading
    hx.listening).bind ?_
  rintro _ _ ⟨x', rfl, hx', houtput⟩
  exact Action.endsWell_of_ok (forgetListeners_of_deaf hx'.inactive hx'.deaf)
    ⟨x', rfl, hx', houtput⟩

end

end Scene

end CommandLine

end TreeInspector
