import TreeInspector.Proofs.Scenario.Stage
import TreeInspector.Proofs.Session.Endings
import TreeInspector.Proofs.Tree.Preorder

/-!
# Jumps to lines

A jump to a line is decided step by step: whether the session is active, whether there is such a
line, whether lines lead anywhere, whether the source is available, whether the focus can be moved.
`Session.Navigates` lists the outcomes. Each says which calls the host gets on the way, and there
are no others, so that a jump which is refused asks and logs and does nothing else.

The host may call back. It is only expected to answer, and not to make sessions vanish or change
what they are about.
-/

set_option autoImplicit false

namespace TreeInspector

open Session (Jump)

section

variable {H C : Type} {guide : Host H C} {w w₁ w₂ w₃ w' : World H C} {id : SessionId} {s : Session}
  {last : Option EndReason} {x : Number} {line : ViewLine} {span : Span} {title : String}
  {e : Failure}

/-! ## Hosts that answer -/

/-- As long as the world is as `P` says, the host says whether the source is available and what it
is called, and takes messages; moving the focus may fail. -/
structure Host.Answers (guide : Host H C) (source : SourceId) (P : World H C → Prop) : Prop where
  isAvailable : ∀ w, P w →
    (guide.isAvailable source).EndsWell w fun _ w' => P w' ∧ w.Persists w'
  sourceName : ∀ w, P w →
    (guide.sourceName source).EndsWell w fun _ w' => P w' ∧ w.Persists w'
  focus : ∀ span highlight w, P w → (guide.focus source span highlight).Ensures w
    (fun _ w' => P w' ∧ w.Persists w') (fun _ w' => P w')
  log : ∀ message w, P w → (guide.log message).EndsWell w fun _ _ => True

/-! ## Outcomes -/

/-- The number is the index of a line that the session shows. -/
def Session.LineAt (s : Session) (x : Number) (line : ViewLine) : Prop :=
  ∃ i : Nat, x = i ∧ s.lines[i]? = some line

/-- The host takes note of why a jump has failed. -/
def Host.NotesFailure (guide : Host H C) (e : Failure) (w w' : World H C) : Prop :=
  guide.log ("Navigation failed: " ++ e.message) w = .ok () w'

namespace Session

/-- What comes of jumping to a line of a session that ended last for the given reason, with the
calls of the host on the way. The first condition that is not met decides. -/
inductive Navigates (guide : Host H C) (s : Session) (last : Option EndReason) (x : Number)
    (w : World H C) : Except Failure Jump → World H C → Prop where
  | gone {title : String} {w₁ w' : World H C} (inactive : s.state = .inactive)
      (ended : last = some .sourceDestroyed) (named : guide.sourceName s.source w = .ok title w₁)
      (noted : guide.NotesFailure (.view (.sourceUnavailable title)) w₁ w') :
      Navigates guide s last x w (.error (.view (.sourceUnavailable title))) w'
  | unbound {w' : World H C} (inactive : s.state = .inactive)
      (ended : last ≠ some .sourceDestroyed)
      (noted : guide.NotesFailure (.view .noSourceBound) w w') :
      Navigates guide s last x w (.error (.view .noSourceBound)) w'
  | noLine {w' : World H C} (active : s.state = .active)
      (outside : ∀ i : Nat, i < s.lines.length → x ≠ i)
      (noted : guide.NotesFailure (.view (.noSuchLine x s.lines.length)) w w') :
      Navigates guide s last x w (.error (.view (.noSuchLine x s.lines.length))) w'
  | nowhere {line : ViewLine} {w' : World H C} (active : s.state = .active)
      (isLine : s.LineAt x line) (off : s.options.navigation = false)
      (noted : guide.NotesFailure (.view (.notNavigable line.label)) w w') :
      Navigates guide s last x w (.error (.view (.notNavigable line.label))) w'
  | unavailable {line : ViewLine} {title : String} {w₁ w₂ w' : World H C}
      (active : s.state = .active) (isLine : s.LineAt x line) (on : s.options.navigation = true)
      (asked : guide.isAvailable s.source w = .ok false w₁)
      (named : guide.sourceName s.source w₁ = .ok title w₂)
      (noted : guide.NotesFailure (.view (.sourceUnavailable title)) w₂ w') :
      Navigates guide s last x w (.error (.view (.sourceUnavailable title))) w'
  | unfocused {line : ViewLine} {span : Span} {e : Failure} {w₁ w₂ w' : World H C}
      (active : s.state = .active) (isLine : s.LineAt x line) (on : s.options.navigation = true)
      (leads : line.span = some span) (asked : guide.isAvailable s.source w = .ok true w₁)
      (fails : guide.focus s.source span s.highlights w₁ = .error e w₂)
      (noted : guide.NotesFailure e w₂ w') : Navigates guide s last x w (.error e) w'
  | arrives {line : ViewLine} {span : Span} {title : String} {w₁ w₂ w₃ w' : World H C}
      (active : s.state = .active) (isLine : s.LineAt x line) (on : s.options.navigation = true)
      (leads : line.span = some span) (asked : guide.isAvailable s.source w = .ok true w₁)
      (focused : guide.focus s.source span s.highlights w₁ = .ok () w₂)
      (named : guide.sourceName s.source w₂ = .ok title w₃)
      (noted : guide.log ("Navigated " ++ title ++ " to " ++ span.text ++ ".") w₃ = .ok () w') :
      Navigates guide s last x w (.ok ⟨span, s.highlights⟩) w'

/-- All that a jump to a line needs: an active session with navigation, one of its lines, a source
that is available, and a focus that can be moved to where the line leads. -/
structure Clear (guide : Host H C) (s : Session) (x : Number) (w : World H C) : Prop where
  active : s.state = .active
  isLine : ∃ i : Nat, i < s.lines.length ∧ x = i
  navigation : s.options.navigation = true
  available : ∃ w₁, guide.isAvailable s.source w = .ok true w₁
  focus : ∀ {line span w₁}, s.LineAt x line → line.span = some span →
    guide.isAvailable s.source w = .ok true w₁ →
    ∃ w₂, guide.focus s.source span s.highlights w₁ = .ok () w₂

/-- An index of a line is a whole number below the number of lines. -/
theorem LineAt.lt (h : s.LineAt x line) : ∃ i : Nat, i < s.lines.length ∧ x = i := by
  obtain ⟨i, hx, hi⟩ := h
  exact ⟨i, (List.getElem?_eq_some_iff.1 hi).1, hx⟩

/-- The line is found under its index. -/
theorem LineAt.index (h : s.LineAt x line) :
    (x.toIndex?.bind fun i => s.lines[i]?) = some line := by
  obtain ⟨i, rfl, hi⟩ := h
  rw [Number.toIndex?_ofNat, Option.bind_some, hi]

/-- There is only one line under an index. -/
theorem LineAt.unique {line' : ViewLine} (h : s.LineAt x line) (h' : s.LineAt x line') :
    line = line' :=
  Option.some.inj (h.index.symm.trans h'.index)

/-- The line is one of those that the session shows. -/
theorem LineAt.mem (h : s.LineAt x line) : line ∈ s.lines := by
  obtain ⟨i, -, hi⟩ := h
  exact List.mem_of_getElem? hi

/-- No line is found under any other number. -/
theorem index_of_outside (outside : ∀ i : Nat, i < s.lines.length → x ≠ i) :
    (x.toIndex?.bind fun i => s.lines[i]?) = none := by
  cases hindex : x.toIndex? with
  | none => rfl
  | some i =>
    refine List.getElem?_eq_none (Nat.le_of_not_lt fun hlt => ?_)
    exact outside i hlt ((Number.toIndex?_eq_some_iff x i).1 hindex)

/-- The jump arrives exactly if nothing stands in its way. -/
theorem Navigates.arrives_iff {r : Except Failure Jump}
    (h : s.Navigates guide last x w r w') : (∃ jump, r = .ok jump) ↔ s.Clear guide x w := by
  constructor
  · rintro ⟨jump, rfl⟩
    cases h with
    | arrives active isLine on leads asked focused named noted =>
      refine ⟨active, isLine.lt, on, ⟨_, asked⟩, fun isLine' leads' asked' => ?_⟩
      cases isLine.unique isLine'
      cases leads.symm.trans leads'
      cases asked.symm.trans asked'
      exact ⟨_, focused⟩
  · intro clear
    have hactive := clear.active
    obtain ⟨w₁, hasked⟩ := clear.available
    cases h with
    | gone inactive ended named noted =>
      rw [inactive] at hactive
      cases hactive
    | unbound inactive ended noted =>
      rw [inactive] at hactive
      cases hactive
    | noLine active outside noted =>
      obtain ⟨i, hlt, hx⟩ := clear.isLine
      exact absurd hx (outside i hlt)
    | nowhere active isLine off noted =>
      rw [clear.navigation] at off
      cases off
    | unavailable active isLine on asked named noted =>
      cases asked.symm.trans hasked
    | unfocused active isLine on leads asked fails noted =>
      obtain ⟨w₂, hfocused⟩ := clear.focus isLine leads asked
      cases fails.symm.trans hfocused
    | arrives active isLine on leads asked focused named noted => exact ⟨_, rfl⟩

/-! ## The steps of a jump -/

/-- The title of a session is what the host calls its source. -/
theorem title_eq (hs : w.sessions[id]? = some s) :
    Session.title guide id w = guide.sourceName s.source w :=
  Action.bind_of_ok (find_eq hs) _

/-- The title of a session that is still there is what the host calls its source. -/
theorem title_of_known (known : w.Knows id s) :
    Session.title guide id w = guide.sourceName s.source w := by
  obtain ⟨s', hs', hsource, -⟩ := known
  rw [title_eq hs', hsource]

/-- A session whose source has come to its end says that the source is not available. -/
theorem checkBound_of_gone (hs : w.sessions[id]? = some s) (hinactive : s.state = .inactive)
    (hended : s.endReason = some .sourceDestroyed)
    (named : guide.sourceName s.source w = .ok title w₁) :
    checkBound guide id w = .error (.view (.sourceUnavailable title)) w₁ := by
  unfold checkBound
  rw [Action.bind_of_ok (find_eq hs)]
  simp only [hinactive, hended, if_true]
  exact Action.bind_of_ok ((title_eq hs).trans named) _

/-- A session that is not bound for another reason says so. -/
theorem checkBound_of_unbound (hs : w.sessions[id]? = some s) (hinactive : s.state = .inactive)
    (hended : s.endReason ≠ some .sourceDestroyed) :
    checkBound guide id w = .error (.view .noSourceBound) w := by
  unfold checkBound
  rw [Action.bind_of_ok (find_eq hs)]
  simp only [hinactive, hended, if_false]
  rfl

/-- Navigating to a number that is no index says that there is no such line. -/
theorem navigate_of_outside (hs : w.sessions[id]? = some s) (hactive : s.state = .active)
    (outside : ∀ i : Nat, i < s.lines.length → x ≠ i) :
    navigate guide id x w = .error (.view (.noSuchLine x s.lines.length)) w := by
  unfold navigate
  rw [Action.bind_of_ok (checkBound_eq guide hs hactive), Action.bind_of_ok (find_eq hs)]
  simp only [index_of_outside outside]
  rfl

/-- Navigating to a line is a jump to where it leads. -/
theorem navigate_of_lineAt (hs : w.sessions[id]? = some s) (hactive : s.state = .active)
    (isLine : s.LineAt x line) : navigate guide id x w = jump guide id line.toTarget w := by
  unfold navigate
  rw [Action.bind_of_ok (checkBound_eq guide hs hactive), Action.bind_of_ok (find_eq hs)]
  simp only [isLine.index]

section

variable {target : Target}

/-- A jump to a line that leads nowhere says that it cannot be navigated to. -/
theorem jump_of_nowhere (hs : w.sessions[id]? = some s) (hactive : s.state = .active)
    (hspan : target.span = none) :
    jump guide id target w = .error (.view (.notNavigable target.label)) w := by
  unfold jump
  rw [Action.bind_of_ok (checkBound_eq guide hs hactive)]
  simp only [hspan]
  rfl

/-- A jump to a source that is not available says so. -/
theorem jump_of_unavailable (hs : w.sessions[id]? = some s) (hactive : s.state = .active)
    (hspan : target.span = some span) (asked : guide.isAvailable s.source w = .ok false w₁)
    (known : w₁.Knows id s) (named : guide.sourceName s.source w₁ = .ok title w₂) :
    jump guide id target w = .error (.view (.sourceUnavailable title)) w₂ := by
  unfold jump
  rw [Action.bind_of_ok (checkBound_eq guide hs hactive)]
  simp only [hspan]
  rw [Action.bind_of_ok (find_eq hs), Action.bind_of_ok asked, if_neg Bool.false_ne_true]
  exact Action.bind_of_ok ((title_of_known known).trans named) _

/-- A jump to a source that is available moves the focus. -/
theorem jump_of_available (hs : w.sessions[id]? = some s) (hactive : s.state = .active)
    (hspan : target.span = some span) (asked : guide.isAvailable s.source w = .ok true w₁)
    (known : w₁.Knows id s) :
    jump guide id target w =
      (do guide.focus s.source span s.highlights; return ⟨span, s.highlights⟩ :
        Action H C Jump) w₁ := by
  obtain ⟨s₁, hs₁, -, hoptions⟩ := known
  have hhighlights : s₁.highlights = s.highlights := by
    unfold highlights
    rw [hoptions]
  unfold jump
  rw [Action.bind_of_ok (checkBound_eq guide hs hactive)]
  simp only [hspan]
  rw [Action.bind_of_ok (find_eq hs), Action.bind_of_ok asked, if_pos rfl,
    Action.bind_of_ok (find_eq hs₁), hhighlights]

end

end Session

namespace Registry

variable {attempt : Action H C Jump} {result : Jump}

/-- The failure of a jump is noted and stays the failure. -/
theorem logged_of_error (h : attempt w = .error e w₁) (noted : guide.NotesFailure e w₁ w') :
    logged guide id attempt w = .error e w' :=
  (Action.bind_of_ok (Action.attempt_of_error (Action.bind_of_error h _)) _).trans
    (Action.bind_of_ok noted _)

/-- A jump that succeeds is logged. -/
theorem logged_of_ok (h : attempt w = .ok result w₁) (known : w₁.Knows id s)
    (named : guide.sourceName s.source w₁ = .ok title w₂)
    (noted : guide.log ("Navigated " ++ title ++ " to " ++ result.span.text ++ ".") w₂ =
      .ok () w') : logged guide id attempt w = .ok result w' := by
  refine Action.bind_of_ok (Action.attempt_of_ok ((Action.bind_of_ok h _).trans ?_)) _
  rw [Action.bind_of_ok ((Session.title_of_known known).trans named)]
  exact Action.bind_of_ok noted _

end Registry

/-! ## The decision -/

section

variable {P : World H C → Prop}

/-- A host that answers notes every failure. -/
theorem Host.Answers.notesFailure (answers : guide.Answers s.source P) (hP : P w) (e : Failure) :
    ∃ w', guide.NotesFailure e w w' := by
  obtain ⟨_, w', hlogged, -⟩ := (answers.log _ w hP).exists_ok
  exact ⟨w', hlogged⟩

/-- An attempt that fails is noted and its failure passed on. -/
theorem Host.Answers.refuses (answers : guide.Answers s.source P) (hP : P w₁)
    {attempt : Action H C Jump} (h : attempt w = .error e w₁)
    {R : Except Failure Jump → World H C → Prop}
    (hR : ∀ w', guide.NotesFailure e w₁ w' → R (.error e) w') :
    R ((Registry.logged guide id attempt).outcome w).1
      ((Registry.logged guide id attempt).outcome w).2 := by
  obtain ⟨w', hnoted⟩ := answers.notesFailure hP e
  rw [Action.outcome_of_error (Registry.logged_of_error h hnoted)]
  exact hR w' hnoted

/-- A jump from a line that leads to a span is decided by the host. -/
theorem Session.jump_navigates (hs : w.sessions[id]? = some s)
    (answers : guide.Answers s.source P) (hP : P w) (hactive : s.state = .active)
    (isLine : s.LineAt x line) (on : s.options.navigation = true)
    (leads : line.span = some span) :
    s.Navigates guide last x w ((Registry.navigate guide id x).outcome w).1
      ((Registry.navigate guide id x).outcome w).2 := by
  have hjump : navigate guide id x w = jump guide id line.toTarget w :=
    navigate_of_lineAt hs hactive isLine
  have hspan : line.toTarget.span = some span := leads
  obtain ⟨available, w₁, hasked, hP₁, hpersists₁⟩ := (answers.isAvailable w hP).exists_ok
  have hknown₁ := hpersists₁ hs
  cases available with
  | false =>
    obtain ⟨title, w₂, hnamed, hP₂, -⟩ := (answers.sourceName w₁ hP₁).exists_ok
    exact answers.refuses hP₂
      (hjump.trans (jump_of_unavailable hs hactive hspan hasked hknown₁ hnamed))
      fun w' hnoted => .unavailable hactive isLine on hasked hnamed hnoted
  | true =>
    have hfocus := answers.focus span s.highlights w₁ hP₁
    rw [jump_of_available hs hactive hspan hasked hknown₁] at hjump
    cases hr : guide.focus s.source span s.highlights w₁ with
    | error e w₂ =>
      exact answers.refuses ((Action.ensures_of_error hr).1 hfocus)
        (hjump.trans (Action.bind_of_error hr _))
        fun w' hnoted => .unfocused hactive isLine on leads hasked hr hnoted
    | ok _ w₂ =>
      obtain ⟨hP₂, hpersists₂⟩ := (Action.ensures_of_ok hr).1 hfocus
      obtain ⟨title, w₃, hnamed, hP₃, -⟩ := (answers.sourceName w₂ hP₂).exists_ok
      obtain ⟨_, w', hnoted, -⟩ := (answers.log ("Navigated " ++ title ++ " to " ++ span.text ++
        ".") w₃ hP₃).exists_ok
      have hresult := Registry.logged_of_ok (hjump.trans (Action.bind_of_ok hr _))
        (hknown₁.persists hpersists₂) hnamed hnoted
      unfold Registry.navigate
      rw [Action.outcome_of_ok hresult]
      exact .arrives hactive isLine on leads hasked hr hnamed hnoted

/-- What is remembered of why the session ended last, and the lines that its last rendering has
made, decide with the host what comes of a jump. -/
theorem Session.navigate_navigates (hs : w.sessions[id]? = some s)
    (answers : guide.Answers s.source P) (hP : P w) (lead : s.LinesLead)
    (remembered : s.state = .inactive → s.endReason = last) (x : Number) :
    s.Navigates guide last x w ((Registry.navigate guide id x).outcome w).1
      ((Registry.navigate guide id x).outcome w).2 := by
  cases hstate : s.state with
  | inactive =>
    have hreason := remembered hstate
    by_cases hended : last = some .sourceDestroyed
    · obtain ⟨title, w₁, hnamed, hP₁, -⟩ := (answers.sourceName w hP).exists_ok
      exact answers.refuses hP₁
        (Action.bind_of_error (checkBound_of_gone hs hstate (hreason.trans hended) hnamed) _)
        fun w' hnoted => .gone hstate hended hnamed hnoted
    · exact answers.refuses hP
        (Action.bind_of_error (checkBound_of_unbound hs hstate (hreason ▸ hended)) _)
        fun w' hnoted => .unbound hstate hended hnoted
  | active =>
    by_cases hinside : ∃ i : Nat, i < s.lines.length ∧ x = i
    · obtain ⟨i, hlt, hx⟩ := hinside
      have isLine : s.LineAt x s.lines[i] := ⟨i, hx, List.getElem?_eq_getElem hlt⟩
      have hlead := lead _ isLine.mem
      cases hspan : s.lines[i].span with
      | some span =>
        rw [hspan, Option.isSome_some] at hlead
        exact jump_navigates hs answers hP hstate isLine hlead.symm hspan
      | none =>
        rw [hspan, Option.isSome_none] at hlead
        exact answers.refuses hP
          ((navigate_of_lineAt hs hstate isLine).trans (jump_of_nowhere hs hstate hspan))
          fun w' hnoted => .nowhere hstate isLine hlead.symm hnoted
    · have houtside : ∀ i : Nat, i < s.lines.length → x ≠ i := fun i hlt hx =>
        hinside ⟨i, hlt, hx⟩
      exact answers.refuses hP (navigate_of_outside hs hstate houtside)
        fun w' hnoted => .noLine hstate houtside hnoted

/-- In every world that a run leads to, a jump to a line arrives exactly if nothing stands in its
way, and moves the focus once to where the line leads. Otherwise the first condition that is not met
says why it fails, and the host is only asked what was needed to find that out. A session that is
not active is remembered to have ended with its source, or is just not bound. -/
theorem Registry.navigate_decides {host : Host H C} {T : Terms H}
    {last : SessionId → Option EndReason} (honours : host.Honours T)
    (run : World.Remembers host T w last) (hs : w.sessions[id]? = some s)
    (answers : guide.Answers s.source P) (hP : P w) (x : Number) :
    s.Navigates guide (last id) x w ((Registry.navigate guide id x).outcome w).1
        ((Registry.navigate guide id x).outcome w).2 ∧
      ((∃ jump, ((Registry.navigate guide id x).outcome w).1 = .ok jump) ↔
        s.Clear guide x w) := by
  obtain ⟨hlead, hremembered⟩ := (run.asRemembered honours).2.there hs
  have hnavigates := Session.navigate_navigates hs answers hP hlead hremembered x
  exact ⟨hnavigates, hnavigates.arrives_iff⟩

end

end

/-! ## Jumps on a stage -/

namespace Scenario.Stage

/-- The stage has the source, nothing is hooked to its calls, and none of them fails. -/
structure Willing (source : SourceId) (w : World Stage (Roster StageStep)) : Prop where
  there : source < w.host.sources.length
  hooks : w.host.hooks = []
  failing : w.host.failing = []

section

variable {source : SourceId} {w : World Stage (Roster StageStep)}

/-- On a willing stage a point is passed without an effect. -/
theorem Willing.reach (hw : Willing source w) (run : StageStep → StageAct Unit) (point : Point)
    {Q : Unit → World Stage (Roster StageStep) → Prop} (hQ : Q () w) :
    (Stage.reach run point).EndsWell w Q :=
  reach_ensures hw.hooks point hQ fun e hfails => by
    rw [hw.failing] at hfails
    cases hfails

/-- On a willing stage the source is found. -/
theorem Willing.findSource_eq (hw : Willing source w) :
    ∃ s, findSource source w = .ok s w := by
  have hlt := hw.there
  refine ⟨w.host.sources[source], ?_⟩
  unfold findSource
  rw [Action.bind_host, List.getElem?_eq_getElem hlt]
  rfl

/-- A willing stage answers. -/
theorem quiet_answers (source : SourceId) : quiet.Answers source (Willing source) where
  isAvailable w hw := by
    obtain ⟨s, hs⟩ := hw.findSource_eq
    refine Action.ensures_bind.2 (hw.reach _ .isAvailable ?_)
    exact Action.endsWell_bind_of_ok hs ⟨hw, fun _ _ ht => ⟨_, ht, rfl, rfl⟩⟩
  sourceName w hw := by
    obtain ⟨s, hs⟩ := hw.findSource_eq
    refine Action.ensures_bind.2 (hw.reach _ .sourceName ?_)
    exact Action.endsWell_bind_of_ok hs ⟨hw, fun _ _ ht => ⟨_, ht, rfl, rfl⟩⟩
  focus span highlight w hw := by
    obtain ⟨s, hs⟩ := hw.findSource_eq
    have hw' : ∀ trace, Willing source
        (w.beside { w.host with trace := trace } w.client) := fun _ =>
      ⟨hw.there, hw.hooks, hw.failing⟩
    refine Action.Ensures.mono (Action.endsWell_bind_of_ok hs ?_) (fun _ _ h => h)
      fun _ _ h => h.elim
    refine Action.ensures_bind.2 (Action.ensures_modifyHost.2 ?_)
    exact (hw' _).reach _ .focus ⟨hw' _, fun _ _ ht => ⟨_, ht, rfl, rfl⟩⟩
  log message w hw := trivial

end

/-- The world after a view of the first source has been opened with navigation. -/
def guided : World Stage (Roster StageStep) :=
  ((Deed.run quiet (.call (.enable 0 ⟨.given true, .given true⟩))).outcome
    { host := pair, client := {} }).2

/-- The world after the source has come to its end. -/
def departed : World Stage (Roster StageStep) :=
  ((Deed.run quiet (.call (.sourceDestroyed 0))).outcome guided).2

/-- The quiet stage answers for a session of the first source while it is willing. -/
theorem answers_first {w : World Stage (Roster StageStep)}
    (hsource : w.sessions[0]?.map (·.source) = some 0) :
    ∃ s, w.sessions[0]? = some s ∧ quiet.Answers s.source (Willing 0) := by
  obtain ⟨s, hs, hfirst⟩ := Option.map_eq_some_iff.1 hsource
  refine ⟨s, hs, ?_⟩
  rw [hfirst]
  exact quiet_answers 0

/-- The first line can be jumped to while the source is there, and there is no second line. Once the
source has come to its end, a jump fails because of that. -/
theorem guided_then_departed :
    (∃ s, guided.sessions[0]? = some s ∧ s.Clear quiet 0 guided ∧ ¬s.Clear quiet 1 guided) ∧
      ∃ s, departed.sessions[0]? = some s ∧ s.Navigates quiet (some .sourceDestroyed) 0 departed
        ((Registry.navigate quiet 0 0).outcome departed).1
        ((Registry.navigate quiet 0 0).outcome departed).2 := by
  have honours : quiet.Honours (terms Point.all) := host_honours _ _
  have hstart : World.Remembers quiet (terms Point.all) { host := pair, client := {} }
      fun _ => none := .start ⟨rfl, by decide⟩ rfl
  obtain ⟨before, hguided⟩ : ∃ last, World.Remembers quiet (terms Point.all) guided last :=
    ⟨_, hstart.deed (.call (.enable 0 ⟨.given true, .given true⟩))⟩
  constructor
  · have hwilling : Willing 0 guided :=
      ⟨by decide +kernel, (hguided.asRemembered honours).1.1, by decide +kernel⟩
    obtain ⟨s, hs, hanswers⟩ := answers_first (w := guided) (by decide +kernel)
    have hdecides := Registry.navigate_decides honours hguided hs hanswers hwilling
    refine ⟨s, hs, (hdecides 0).2.1 ?_, fun hclear => ?_⟩
    · have harrives : ((Registry.navigate quiet 0 0).outcome guided).1.isOk = true := by
        decide +kernel
      cases hr : ((Registry.navigate quiet 0 0).outcome guided).1 with
      | ok jump => exact ⟨jump, rfl⟩
      | error e =>
        rw [hr] at harrives
        cases harrives
    · have hfails : ((Registry.navigate quiet 0 1).outcome guided).1.isOk = false := by
        decide +kernel
      obtain ⟨jump, hjump⟩ := (hdecides 1).2.2 hclear
      rw [hjump] at hfails
      cases hfails
  · obtain ⟨last, hlast, hdeparted⟩ : ∃ last, last 0 = some .sourceDestroyed ∧
        World.Remembers quiet (terms Point.all) departed last := by
      refine ⟨_, ?_, hguided.deed (.call (.sourceDestroyed 0))⟩
      have hended : (guided.activeAt 0 && !departed.activeAt 0) = true := by decide +kernel
      exact if_pos hended
    have hwilling : Willing 0 departed :=
      ⟨by decide +kernel, (hdeparted.asRemembered honours).1.1, by decide +kernel⟩
    obtain ⟨s, hs, hanswers⟩ := answers_first (w := departed) (by decide +kernel)
    have hdecides := Registry.navigate_decides honours hdeparted hs hanswers hwilling 0
    rw [hlast] at hdecides
    exact ⟨s, hs, hdecides.1⟩

end Scenario.Stage

end TreeInspector
