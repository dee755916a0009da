import TreeInspector.CommandLine.Program
import TreeInspector.Proofs.Desk.Jumps

/-!
# What is typed has no side effects

Whatever is typed, and whatever has become of the session meanwhile, the command ends well. Quitting
ends the session. All other commands write, and leave everything else as it is, but for the number
of a line that can be jumped to: then the span of that line is selected in the source.
-/

set_option autoImplicit false

namespace TreeInspector

namespace CommandLine

variable {C : Type} {write : String → Action Desk C Unit} {w w' : World Desk C} {id : SessionId}
  {s : Session} {file : SourceFile} {line : String}

/-! ## Commands -/

/-- The console takes every line, and does no more than to write, log or note it. -/
def Console (write : String → Action Desk C Unit) : Prop :=
  ∀ line w, w.host.Reliable → (write line).EndsWell w fun _ w' => Desk.Calm w w'

/-- Lines may be written to the output, with whatever ends a line. -/
theorem console_write (ending : String) :
    Console (C := C) fun line => Desk.write (line ++ ending) :=
  fun _ _ hw => Desk.write_calm hw _

/-- What comes of a command that is neither to quit nor to jump. -/
theorem run_calm (console : Console write) (hw : w.host.Reliable)
    (hs : w.sessions[id]? = some s) {command : Command} (hquit : command ≠ .quit)
    (hjump : ∀ x, command ≠ .jump x) :
    (run write id command).EndsWell w fun outcome w' => outcome = .continue ∧ Desk.Calm w w' := by
  have hfind : (Session.find id : Action Desk C Session) w = .ok s w := Session.find_eq hs
  have hwrites : ∀ text, (do
      write text
      return .continue : Action Desk C Outcome).EndsWell w
        fun outcome w' => outcome = .continue ∧ Desk.Calm w w' :=
    fun text => (console text w hw).bind fun _ _ hcalm => ⟨rfl, hcalm⟩
  cases command with
  | nothing => exact ⟨rfl, .refl hw⟩
  | quit => exact (hquit rfl).elim
  | jump x => exact (hjump x rfl).elim
  | unknown text => exact hwrites _
  | help =>
    refine Action.EndsWell.bind (P := fun _ w' => Desk.Calm w w') ?_ fun _ _ h => ⟨rfl, h⟩
    refine Action.endsWell_forM commandList (fun text _ w₁ h₁ => ?_) w (.refl hw)
    exact (console text w₁ h₁.reliable).mono fun _ _ h => h₁.trans h
  | render =>
    refine Action.endsWell_bind_of_ok hfind ?_
    cases s.view? with
    | none => exact hwrites _
    | some pane =>
      have hpane : (Desk.findPane pane : Action Desk C Pane) w =
        .ok ((w.host.panes[pane]?).getD { title := "" }) w := rfl
      exact Action.EndsWell.bind (Action.endsWell_bind_of_ok hpane (Desk.write_calm hw _))
        fun _ _ h => ⟨rfl, h⟩
  | locate offset =>
    refine Action.EndsWell.bind (P := fun _ w' => Desk.Calm w w') ?_ fun _ _ h => ⟨rfl, h⟩
    unfold showCoveringLine
    refine Action.endsWell_bind_of_ok hfind ?_
    split
    · exact console _ w hw
    · split
      · exact console _ w hw
      · exact console _ w hw

/-- What comes of a number: the jump to its line arrives, or it is refused and the reason
written. -/
theorem run_jump (console : Console write) (hw : w.Sourced) (hs : w.sessions[id]? = some s)
    (hfile : w.host.sources[s.source]? = some file) (x : Number) :
    (run write id (.jump x)).EndsWell w fun outcome w' => outcome = .continue ∧
      ∃ v, s.Jumps x w ((Registry.navigate Desk.host id x).outcome w).1 v ∧ Desk.Calm v w' := by
  have hjumps := Session.jumps hw hs hfile x
  cases hresult : Registry.navigate Desk.host id x w with
  | ok jump v =>
    rw [Action.outcome_of_ok hresult] at hjumps ⊢
    refine Action.endsWell_bind_of_ok (Action.attempt_of_ok hresult) ⟨rfl, v, hjumps, ?_⟩
    cases hjumps with
    | arrives index isLine leads calm => exact .refl calm.reliable
  | error e v =>
    rw [Action.outcome_of_error hresult] at hjumps ⊢
    refine Action.endsWell_bind_of_ok (Action.attempt_of_error hresult) ?_
    cases hjumps with
    | refused calm =>
      exact (console _ v calm.reliable).bind fun _ _ h => ⟨rfl, v, .refused calm, h⟩

/-- Quitting ends the session, if it has not ended before. -/
theorem run_quit_ends (hw : w.Sourced) (hs : w.sessions[id]? = some s)
    (hfile : w.host.sources[s.source]? = some file) :
    (run write id .quit).EndsWell w fun outcome w' => outcome = .quit ∧ w'.Sourced ∧
      ∃ s', w'.sessions[id]? = some s' ∧ s'.state = .inactive := by
  refine Action.endsWell_bind_of_ok (Session.find_eq hs) ?_
  cases hstate : s.state with
  | active =>
    rw [if_pos rfl]
    have hends : (Registry.disable Desk.host id).EndsWell w fun _ w' => w'.Sourced ∧
        ∃ s', w'.sessions[id]? = some s' ∧ s'.state = .inactive :=
      ((Desk.disable_ends hw.fit.1 hs hstate hfile).and
        (Deed.run_keepsSourced (.call (.disable id)) w)).mono
        (fun _ _ h => ⟨h.2 hw, h.1⟩) fun _ _ h => h.1
    exact hends.bind fun _ _ h => ⟨rfl, h⟩
  | inactive => exact ⟨rfl, hw, s, hs, hstate⟩

/-- Whatever the command is, trees and lines go on being those of texts. -/
theorem run_sourced (console : Console write) (hw : w.Sourced) (hs : w.sessions[id]? = some s)
    (hfile : w.host.sources[s.source]? = some file) (command : Command) :
    (run write id command).EndsWell w fun _ w' => w'.Sourced := by
  by_cases hquit : command = .quit
  · subst hquit
    exact (run_quit_ends hw hs hfile).mono fun _ _ h => h.2.1
  by_cases hjump : ∃ x, command = .jump x
  · obtain ⟨x, rfl⟩ := hjump
    refine (run_jump console hw hs hfile x).mono ?_
    rintro _ w' ⟨-, v, hjumps, hcalm⟩
    exact hcalm.sourced (hjumps.sourced hw)
  · exact (run_calm console hw.fit.1 hs hquit (not_exists.1 hjump)).mono
      fun _ _ h => h.2.sourced hw

/-! ## Lines -/

/-- The line, without the blanks around it, consists of digits, which spell the number. -/
structure Spells (line : String) (x : Number) : Prop where
  nonempty : Text.trim line.toList ≠ []
  digits : ∀ c ∈ Text.trim line.toList, isDigit c = true
  number : x = Number.ofDigits (Text.trim line.toList)

/-- Characters spell a number if they are digits, and at least one; the number is that of the
digits. -/
theorem number?_eq_some_iff {cs : List Char} {x : Number} :
    number? cs = some x ↔ cs ≠ [] ∧ (∀ c ∈ cs, isDigit c = true) ∧ x = Number.ofDigits cs := by
  have hrefused : (cs.isEmpty = true ∨ cs.any (fun c => !isDigit c) = true) ↔
      ¬(cs ≠ [] ∧ ∀ c ∈ cs, isDigit c = true) := by
    rw [List.isEmpty_iff, List.any_eq_true, not_and_or, not_not, not_forall]
    simp
  unfold number?
  split
  case isTrue h =>
    have hnot := hrefused.1 h
    exact ⟨fun hnone => (by cases hnone), fun hspelt => absurd ⟨hspelt.1, hspelt.2.1⟩ hnot⟩
  case isFalse h =>
    obtain ⟨hne, hdigits⟩ := not_not.1 (mt hrefused.2 h)
    rw [Option.some.injEq]
    exact ⟨fun hx => ⟨hne, hdigits, hx.symm⟩, fun hspelt => hspelt.2.2.symm⟩

/-- A line spells one number at most. -/
theorem Spells.unique {x y : Number} (hx : Spells line x) (hy : Spells line y) : x = y :=
  hx.number.trans hy.number.symm

/-- The number that a line spells is the one read from it. -/
theorem Spells.number?_eq {x : Number} (h : Spells line x) :
    number? (Text.trim line.toList) = some x :=
  number?_eq_some_iff.2 ⟨h.nonempty, h.digits, h.number⟩

/-- A number is none of the words. -/
theorem Spells.ne_word {x : Number} (h : Spells line x) {word : String}
    (hword : word.toList.all isDigit = false) :
    String.ofList (Text.trim line.toList) ≠ word := by
  rintro rfl
  rw [String.toList_ofList, List.all_eq_true.2 h.digits] at hword
  cases hword

/-- The command is to quit exactly if the line is one of the two words for it, blanks apart. -/
theorem ofLine_eq_quit_iff :
    Command.ofLine line = .quit ↔ String.ofList (Text.trim line.toList) = "q" ∨
      String.ofList (Text.trim line.toList) = "quit" := by
  unfold Command.ofLine
  dsimp only
  split
  case isTrue hempty =>
    rw [List.isEmpty_iff.1 hempty]
    decide
  case isFalse hsome =>
    split
    case isTrue hword => exact ⟨fun _ => hword, fun _ => rfl⟩
    case isFalse hword =>
      refine ⟨fun h => ?_, fun h => absurd h hword⟩
      split at h
      · cases h
      · split at h
        · cases h
        · split at h <;> cases h

/-- The command is a jump to a number exactly if the line spells that number. -/
theorem ofLine_eq_jump_iff {x : Number} : Command.ofLine line = .jump x ↔ Spells line x := by
  constructor
  · intro h
    unfold Command.ofLine at h
    dsimp only at h
    -- All branches but the last but one give another command.
    repeat' split at h
    all_goals try cases h
    obtain ⟨hne, hdigits, hx⟩ := number?_eq_some_iff.1 ‹number? _ = some _›
    exact ⟨hne, hdigits, hx⟩
  · intro h
    have hoffset : locateOffset? (Text.trim line.toList) = none := by
      have hdigits := h.digits
      unfold locateOffset?
      split
      case h_1 heq =>
        rw [heq] at hdigits
        exact absurd (hdigits 'a' List.mem_cons_self) (by decide)
      case h_2 => rfl
    have hquit : ¬(String.ofList (Text.trim line.toList) = "q" ∨
        String.ofList (Text.trim line.toList) = "quit") :=
      not_or.2 ⟨h.ne_word (by decide), h.ne_word (by decide)⟩
    have hhelp : String.ofList (Text.trim line.toList) ≠ "help" := h.ne_word (by decide)
    have hrender : String.ofList (Text.trim line.toList) ≠ "render" := h.ne_word (by decide)
    unfold Command.ofLine
    dsimp only
    rw [if_neg (by simpa using h.nonempty), if_neg hquit, if_neg hhelp, if_neg hrender, hoffset,
      h.number?_eq]

/-- What a line that does not quit may do: nothing but write, log and note, unless it is the number
of a line to which a jump arrives. Then, beside that, the span of that line is selected in the
source of the session, and highlighted as the options of the session say. -/
inductive Contained (id : SessionId) (s : Session) (line : String) (w : World Desk C) :
    World Desk C → Prop where
  | still {w' : World Desk C}
      (nowhere : ∀ x jump, Spells line x →
        ((Registry.navigate Desk.host id x).outcome w).1 ≠ .ok jump)
      (aside : Desk.Aside w w') : Contained id s line w w'
  | jumps {i : Nat} {shown : ViewLine} {span : Span} {w' : World Desk C} (spells : Spells line i)
      (arrives : ((Registry.navigate Desk.host id i).outcome w).1 =
        .ok ⟨span, s.options.highlight⟩)
      (isLine : s.lines[i]? = some shown) (leads : shown.span = some span)
      (aside : Desk.Aside
        (w.beside (w.host.selecting s.source span s.options.highlight) w.client) w') :
      Contained id s line w w'

/-- What comes of a line that is typed. -/
theorem run_ofLine (console : Console write) (hw : w.Sourced) (hs : w.sessions[id]? = some s)
    (hfile : w.host.sources[s.source]? = some file) (line : String) :
    (run write id (Command.ofLine line)).EndsWell w fun outcome w' =>
      outcome = .quit ∧ Command.ofLine line = .quit ∧
          (∃ s', w'.sessions[id]? = some s' ∧ s'.state = .inactive) ∨
        outcome = .continue ∧ Command.ofLine line ≠ .quit ∧ Contained id s line w w' := by
  by_cases hquit : Command.ofLine line = .quit
  · rw [hquit]
    exact (run_quit_ends hw hs hfile).mono fun _ _ h => .inl ⟨h.1, rfl, h.2.2⟩
  by_cases hjump : ∃ x, Command.ofLine line = .jump x
  · obtain ⟨x, hx⟩ := hjump
    have hspells := ofLine_eq_jump_iff.1 hx
    rw [hx] at hquit ⊢
    refine (run_jump console hw hs hfile x).mono ?_
    rintro outcome w' ⟨hcontinue, v, hjumps, hcalm⟩
    refine .inr ⟨hcontinue, hquit, ?_⟩
    generalize hresult : ((Registry.navigate Desk.host id x).outcome w).1 = r at hjumps
    cases hjumps with
    | refused calm =>
      refine .still (fun y jump hy harrives => ?_) (calm.trans hcalm).aside
      cases hspells.unique hy
      cases hresult.symm.trans harrives
    | arrives index isLine leads calm =>
      subst index
      exact .jumps hspells hresult isLine leads (calm.trans hcalm).aside
  · refine (run_calm console hw.fit.1 hs hquit (not_exists.1 hjump)).mono ?_
    rintro outcome w' ⟨hcontinue, hcalm⟩
    refine .inr ⟨hcontinue, hquit, .still (fun x jump hx _ => ?_) hcalm.aside⟩
    exact hjump ⟨x, ofLine_eq_jump_iff.2 hx⟩

end CommandLine

/-! ## Runs -/

section

variable {C : Type} {start w w' : World Desk C} {deliver : Callback → Action Desk C Unit}

/-- The worlds that moves and typed lines lead to, also while something is announced. -/
inductive Desk.Evolves (deliver : Callback → Action Desk C Unit) :
    World Desk C → World Desk C → Prop where
  | start (w : World Desk C) : Desk.Evolves deliver w w
  | move {w w' : World Desk C} (before : Desk.Evolves deliver w w') (m : DeskMove) :
      Desk.Evolves deliver w (m.after deliver w')
  | typed {w w' : World Desk C} {write : String → Action Desk C Unit} {id : SessionId}
      {s : Session} {file : SourceFile} (before : Desk.Evolves deliver w w')
      (console : CommandLine.Console write) (session : w'.sessions[id]? = some s)
      (source : w'.host.sources[s.source]? = some file) (line : String) :
      Desk.Evolves deliver w
        ((CommandLine.run write id (CommandLine.Command.ofLine line)).outcome w').2
  | aside {w w' w'' : World Desk C} (before : Desk.Evolves deliver w w')
      (aside : Desk.Aside w' w'') (reliable : w'.host.Reliable → w''.host.Reliable) :
      Desk.Evolves deliver w w''

/-- Whoever listens beside the sessions does nothing, or whatever can happen at a desk where those
who listen do the like. -/
inductive Desk.Attends : (Callback → Action Desk C Unit) → Prop where
  | quiet {deliver : Callback → Action Desk C Unit} (relays : Desk.Relays deliver)
      (nothing : ∀ listener w, deliver (.client listener) w = .ok () w) : Desk.Attends deliver
  | nested {deliver inner : Callback → Action Desk C Unit} (relays : Desk.Relays deliver)
      (attends : Desk.Attends inner)
      (listeners : ∀ listener, (deliver (.client listener)).Stays (Desk.Evolves inner)) :
      Desk.Attends deliver

/-- Whoever attends passes on to the sessions what is theirs. -/
theorem Desk.Attends.relays (attends : Desk.Attends deliver) : Desk.Relays deliver := by
  cases attends with
  | quiet relays nothing => exact relays
  | nested relays attends listeners => exact relays

/-- A run leaves all trees and lines those of texts. -/
theorem Desk.Evolves.keepsSourced (hrelays : Desk.Relays deliver) (hhonest : Desk.Honest deliver)
    (evolves : Desk.Evolves deliver start w) : start.KeepsSourced w := by
  induction evolves with
  | start => exact id
  | move before m ih =>
    exact fun hstart =>
      Action.stays_iff.1 (m.run_keepsSourced hrelays hhonest) _ (ih hstart)
  | typed before console session source line ih =>
    intro hstart
    exact Action.Ensures.outcome (P := fun _ w' => w'.Sourced)
      (Action.Ensures.mono (CommandLine.run_sourced console (ih hstart) session source _)
        (fun _ _ h => h) fun _ _ h => h.elim)
  | aside before aside reliable ih =>
    exact fun hstart => Desk.Calm.sourced ⟨aside, reliable (ih hstart).fit.1⟩ (ih hstart)

/-- Whoever attends leaves all trees and lines those of texts. -/
theorem Desk.Attends.honest (attends : Desk.Attends deliver) : Desk.Honest deliver := by
  induction attends with
  | quiet relays nothing => exact fun listener w => (Action.ensures_of_ok (nothing listener w)).2 id
  | nested relays attends listeners ih =>
    exact fun listener => (listeners listener).mono fun _ _ evolves =>
      evolves.keepsSourced attends.relays ih

end

/-- In every world that a run leads to, whatever is typed for a session, active or not, ends well.
The outcome is to quit exactly if the line is one of the two words for it, and then the session is
not active any more. Any other line leaves everything as it is, but for what is written, logged or
noted, unless it is the number of a line to which a jump arrives; then the span of that line is
selected, and highlighted as the session's options say. -/
theorem CommandLine.typed_lines_are_contained {C : Type} {start w : World Desk C}
    {deliver : Callback → Action Desk C Unit} {write : String → Action Desk C Unit}
    {id : SessionId} {s : Session} {file : SourceFile} (hstart : start.Untouched)
    (hreliable : start.host.Reliable) (attends : Desk.Attends deliver)
    (evolves : Desk.Evolves deliver start w) (console : CommandLine.Console write)
    (hs : w.sessions[id]? = some s) (hfile : w.host.sources[s.source]? = some file)
    (line : String) :
    ∃ outcome w', run write id (Command.ofLine line) w = .ok outcome w' ∧
      (outcome = .quit ↔ String.ofList (Text.trim line.toList) = "q" ∨
        String.ofList (Text.trim line.toList) = "quit") ∧
      (outcome = .quit → ∃ s', w'.sessions[id]? = some s' ∧ s'.state = .inactive) ∧
      (outcome = .continue → Contained id s line w w') := by
  have hw : w.Sourced :=
    evolves.keepsSourced attends.relays attends.honest (hstart.sourced hreliable)
  obtain ⟨outcome, w', hresult, hcases⟩ := (run_ofLine console hw hs hfile line).exists_ok
  refine ⟨outcome, w', hresult, ?_⟩
  rw [← ofLine_eq_quit_iff]
  rcases hcases with ⟨rfl, hquit, hended⟩ | ⟨rfl, hother, hcontained⟩
  · exact ⟨⟨fun _ => hquit, fun _ => rfl⟩, fun _ => hended, fun h => by cases h⟩
  · exact ⟨⟨fun h => (by cases h), fun h => absurd h hother⟩, fun h => (by cases h),
      fun _ => hcontained⟩

/-! ## The program's own listener -/

section

variable {C α : Type} {w w' w'' : World Desk C} {inner : Callback → Action Desk C Unit}

/-- One evolution after another is an evolution. -/
theorem Desk.Evolves.trans (first : Desk.Evolves inner w w')
    (second : Desk.Evolves inner w' w'') : Desk.Evolves inner w w'' := by
  induction second with
  | start => exact first
  | move _ m ih => exact .move ih m
  | typed _ console session source line ih => exact .typed ih console session source line
  | aside _ aside reliable ih => exact .aside ih aside reliable

/-- Evolutions can be put together along an action. -/
theorem World.passage_evolves : World.Passage (Desk.Evolves inner) where
  refl := .start
  trans := .trans

/-- What a move does, however it ends, is an evolution. -/
theorem DeskMove.run_evolves (m : DeskMove) : (m.run inner).Stays (Desk.Evolves inner) :=
  Action.stays_iff.2 fun w => .move (.start w) m

/-- Whether a write fails or not, a run may lead to the world after it. -/
theorem Desk.write_evolves (text : String) :
    (Desk.write text : Action Desk C Unit).Stays (Desk.Evolves inner) := by
  refine Action.stays_iff.2 fun w => ?_
  rw [Desk.write_after]
  exact .aside (.start w) ⟨_, _, _, _, rfl⟩ fun h => ⟨(Sink.failing_write text _).trans h.1, h.2⟩

end

namespace CommandLine

section

variable {inner : Callback → ProgramAct Unit}

/-- What is said when the file is gone is an evolution. -/
theorem sayFarewell_evolves (r : Run) : (sayFarewell r).Stays (Desk.Evolves inner) := by
  have hname : ∀ source, (Desk.host.sourceName source : ProgramAct String).Stays
      (Desk.Evolves inner) := by
    intro source w
    exact Action.ensures_bind.2 (Desk.findSource_settled (fun _ _ => .start w) fun _ => .start w)
  refine World.passage_evolves.bind (World.passage_evolves.bind
    (World.passage_evolves.find r.session) fun s => hname s.source) fun title => ?_
  exact Desk.write_evolves _

/-- The program closes the views and the file, which may call those who listen. -/
theorem closeReader_evolves : closeReader.Stays (Desk.Evolves deliverAfterClosing) := by
  have hclient : ∀ f, (modifyRun f).Stays (Desk.Evolves deliverAfterClosing) := fun f w =>
    .aside (.start w) ⟨_, _, _, w.client.map f, rfl⟩ id
  refine World.passage_evolves.bind (fun w => .start w) fun r => ?_
  cases r with
  | none => exact World.passage_evolves.pure _
  | some r =>
    dsimp only
    split
    · exact World.passage_evolves.pure _
    refine World.passage_evolves.bind (hclient _) fun _ => ?_
    refine World.passage_evolves.bind (DeskMove.unlisten r.farewell).run_evolves fun _ => ?_
    refine World.passage_evolves.bind (DeskMove.session (.step .dispose)).run_evolves fun _ => ?_
    refine World.passage_evolves.bind (DeskMove.close r.source).run_evolves fun _ => ?_
    exact hclient _

/-- What the program does when its file is gone is what those who listen may do. -/
theorem deliver_attends : Desk.Attends deliver := by
  have hquiet : Desk.Attends deliverToSessions := .quiet (fun _ _ => rfl) fun _ _ => rfl
  have hclosing : Desk.Attends deliverAfterClosing := by
    refine .nested (fun _ _ => rfl) hquiet fun _ => ?_
    refine World.passage_evolves.bind (fun w => .start w) fun r => ?_
    cases r with
    | none => exact World.passage_evolves.pure _
    | some r => exact sayFarewell_evolves r
  refine .nested (fun _ _ => rfl) hclosing fun _ => ?_
  refine World.passage_evolves.bind (fun w => .start w) fun r => ?_
  cases r with
  | none => exact World.passage_evolves.pure _
  | some r => exact World.passage_evolves.bind (sayFarewell_evolves r) fun _ => closeReader_evolves

end

end CommandLine

/-! ## One file with navigation -/

namespace DeskRun

open CommandLine

/-- The file is opened, and shown with navigation and highlights. -/
def guidedFile : World Desk Unit :=
  [DeskMove.openFile "a.json",
    .session (.step (.call (.enable 0 ⟨.given true, .given true⟩)))].foldl
    (fun w m => m.after relay w) oneFile

/-- The number of the first line, with blanks around it, selects the span of that line. -/
theorem first_line_selected : ∃ s w', guidedFile.sessions[0]? = some s ∧
    run (fun line => Desk.write (line ++ "\n")) 0 (Command.ofLine " 0 ") guidedFile =
      .ok .continue w' ∧ Contained 0 s " 0 " guidedFile w' ∧
    w'.host.sources.map (fun f => (f.selection, f.highlighted)) =
      [(some (.between 0 1), true)] := by
  have hevolves : Desk.Evolves relay oneFile guidedFile :=
    ((Desk.Evolves.start oneFile).move (.openFile "a.json")).move
      (.session (.step (.call (.enable 0 ⟨.given true, .given true⟩))))
  have hattends : Desk.Attends relay := .quiet (fun _ _ => rfl) fun _ _ => rfl
  have hsource : guidedFile.sessions[0]?.map (·.source) = some 0 := by decide +kernel
  obtain ⟨s, hs, hfirst⟩ := Option.map_eq_some_iff.1 hsource
  have hopened : (guidedFile.host.sources[0]?).isSome = true := by decide +kernel
  obtain ⟨file, hfile⟩ := Option.isSome_iff_exists.1 hopened
  rw [← hfirst] at hfile
  obtain ⟨outcome, w', hrun, hquits, -, hcontained⟩ := typed_lines_are_contained
    oneFile_untouched ⟨rfl, fun _ => ⟨none, rfl⟩⟩ hattends hevolves (console_write "\n") hs hfile
    " 0 "
  have hselected : ((run (fun line => Desk.write (line ++ "\n")) 0 (Command.ofLine " 0 ")).outcome
      guidedFile).2.host.sources.map (fun f => (f.selection, f.highlighted)) =
      [(some (.between 0 1), true)] := by decide +kernel
  rw [Action.outcome_of_ok hrun] at hselected
  cases outcome with
  | quit => exact absurd (hquits.1 rfl) (by decide)
  | «continue» => exact ⟨s, w', hs, hrun, hcontained rfl, hselected⟩

end DeskRun

end TreeInspector
