import TreeInspector.Proofs.Session.Stranding
import TreeInspector.Scenario.Stage

/-!
# The stage keeps its books

As long as nothing is hooked to its calls, the stage never calls back, and a call that fails does
nothing but fail. So the results about runs apply to it, with any of its calls set to fail. Among
them is a run that ends with a session lost.
-/

set_option autoImplicit false

namespace TreeInspector.Scenario.Stage

/-- The views and subscriptions that have not been ended. -/
def books (d : Stage) : Books where
  views := Books.shownOf StageView.destroyed d.views
  subscribers := Books.serving d.subscriptions

/-- The terms that the stage keeps to while nothing is hooked to its calls and none fails but those
allowed to. -/
def terms (allowed : List Point) : Terms Stage where
  fit d := d.hooks = [] ∧ ∀ p ∈ d.failing, p ∈ allowed
  tree _ h _ h' := books h' = books h
  subscribe source event callback h r h' :=
    match r with
    | .ok sub => (books h).subscribers sub = none ∧
        books h' = (books h).subscribed sub ⟨source, event, callback⟩
    | .error _ => books h' = books h
  unsubscribe sub h r h' :=
    match r with
    | .ok _ => books h' = (books h).unsubscribed sub
    | .error _ => .endCommit ∈ allowed ∨ .endDestroy ∈ allowed
  isAvailable _ h _ h' := books h' = books h
  sourceName _ h _ h' := books h' = books h
  createView _ h r h' :=
    match r with
    | .ok view => view ∉ (books h).views ∧ books h' = (books h).opened view
    | .error _ => books h' = books h
  showLines _ _ h _ h' := books h' = books h
  destroyView view h r h' :=
    match r with
    | .ok _ => books h' = (books h).closed view
    | .error _ => .destroyView ∈ allowed
  focus _ _ _ h _ h' := books h' = books h
  log _ h h' := books h' = books h

section

variable {run : StageStep → StageAct Unit} {allowed : List Point}
  {w : World Stage (Roster StageStep)}

/-- With nothing hooked to it, a point is passed without an effect, or fails if it is set to. -/
theorem reach_ensures (hhooks : w.host.hooks = []) (point : Point)
    {Q : Unit → World Stage (Roster StageStep) → Prop}
    {E : Failure → World Stage (Roster StageStep) → Prop} (hQ : Q () w)
    (hE : ∀ e, point ∈ w.host.failing → E e w) : (reach run point).Ensures w Q E := by
  unfold reach
  simp only [Action.ensures_bind, Action.ensures_host, hhooks, List.find?_nil]
  by_cases hfails : point ∈ w.host.failing
  · simp only [hfails, if_true, Action.ensures_throw]
    exact hE _ hfails
  · simp only [hfails, if_false]
    exact hQ

/-- Looking up a source changes nothing. -/
theorem findSource_ensures (id : SourceId) {Q : StageSource → World Stage (Roster StageStep) → Prop}
    {E : Failure → World Stage (Roster StageStep) → Prop} (hQ : ∀ s, Q s w) (hE : ∀ e, E e w) :
    (findSource id).Ensures w Q E := by
  unfold findSource
  simp only [Action.ensures_bind, Action.ensures_host]
  cases w.host.sources[id]? with
  | none => exact hE _
  | some s => exact hQ s

/-! ## The calls -/

/-- Taking notes changes nothing but the trace. -/
theorem forM_note_ensures {α : Type} (text : α → String) (xs : List α) :
    ∀ {w : World Stage (Roster StageStep)} {Q : Unit → World Stage (Roster StageStep) → Prop}
      {E : Failure → World Stage (Roster StageStep) → Prop},
      (∀ trace, Q () { w with host := { w.host with trace := trace } }) →
      (xs.forM fun x => note (text x) : StageAct Unit).Ensures w Q E := by
  induction xs with
  | nil => exact fun hQ => hQ _
  | cons x rest ih =>
    intro w Q E hQ
    refine Action.ensures_bind.2 (Action.ensures_modifyHost.2 (ih ?_))
    exact fun trace => hQ trace

/-- Ending a subscription keeps to the terms. -/
theorem unsubscribe_obeys (sub : SubscriptionId) :
    (unsubscribe run sub).Obeys (terms allowed).fit ((terms allowed).unsubscribe sub) := by
  intro w hfit
  unfold unsubscribe
  rw [Action.ensures_bind, Action.ensures_host]
  have hunserved : Books.serving w.host.subscriptions sub = none →
      books w.host = (books w.host).unsubscribed sub := by
    intro hnone
    unfold Books.unsubscribed
    rw [← hnone]
    exact congrArg (Books.mk _) (Function.update_eq_self sub (books w.host).subscribers).symm
  cases hs : w.host.subscriptions[sub]? with
  | none => exact ⟨w.host, w.client, rfl, hfit, hunserved (by simp [Books.serving, hs])⟩
  | some s =>
    by_cases hended : s.ended = true
    · simp only [hended, if_true]
      exact ⟨w.host, w.client, rfl, hfit, hunserved (by simp [Books.serving, hs, hended])⟩
    · simp only [hended, Bool.false_eq_true, if_false]
      rw [Action.ensures_bind, Action.ensures_modifyHost]
      unfold note
      rw [Action.ensures_bind, Action.ensures_modifyHost, Action.ensures_bind]
      refine reach_ensures (by exact hfit.1) _ ?_ ?_
      · rw [Action.ensures_bind, Action.ensures_host]
        have hbooks := congrArg (Books.mk (books w.host).views)
          (Books.serving_ended w.host.subscriptions sub)
        by_cases hleaky : w.host.leaky = true
        · simp only [hleaky, Bool.not_true, Bool.false_eq_true, if_false]
          exact ⟨_, w.client, rfl, hfit, hbooks⟩
        · simp only [hleaky, Bool.not_false, if_true]
          exact ⟨_, w.client, rfl, hfit, hbooks⟩
      · intro e hfails
        have hallowed := hfit.2 _ hfails
        refine ⟨_, w.client, rfl, hfit, ?_⟩
        cases hevent : s.event with
        | commit =>
          rw [hevent] at hallowed
          exact .inl hallowed
        | destroy =>
          rw [hevent] at hallowed
          exact .inr hallowed

/-- Making a view keeps to the terms. -/
theorem createView_obeys (title : String) :
    ((host run).createView title).Obeys (terms allowed).fit ((terms allowed).createView title) := by
  intro w hfit
  unfold host note
  simp only [Action.ensures_bind, Action.ensures_modifyHost]
  refine reach_ensures (by exact hfit.1) _ ?_ ?_
  · exact ⟨_, w.client, rfl, hfit, Books.length_notMem_shownOf _,
      congrArg (Books.mk · _) (Books.shownOf_append rfl _)⟩
  · intro e _
    exact ⟨_, w.client, rfl, hfit, rfl⟩

/-- Ending a view keeps to the terms. -/
theorem destroyView_obeys (view : ViewId) :
    ((host run).destroyView view).Obeys (terms allowed).fit
      ((terms allowed).destroyView view) := by
  intro w hfit
  unfold host note
  simp only [Action.ensures_bind, Action.ensures_modifyHost]
  refine reach_ensures (by exact hfit.1) _ ?_ ?_
  · exact ⟨_, w.client, rfl, hfit,
      congrArg (Books.mk · _) (Books.shownOf_ended (fun _ => rfl) _ _)⟩
  · intro e hfails
    exact ⟨_, w.client, rfl, hfit, hfit.2 _ hfails⟩

/-- Subscribing keeps to the terms. -/
theorem subscribe_obeys (source : SourceId) (event : Notice) (callback : Callback) :
    ((host run).subscribe source event callback).Obeys (terms allowed).fit
      ((terms allowed).subscribe source event callback) := by
  intro w hfit
  unfold host note
  simp only [Action.ensures_bind, Action.ensures_modifyHost]
  refine reach_ensures (by exact hfit.1) _ ?_ ?_
  · exact ⟨_, w.client, rfl, hfit, Books.serving_length _,
      congrArg (Books.mk _) (Books.serving_append rfl _)⟩
  · intro e _
    exact ⟨_, w.client, rfl, hfit, rfl⟩

/-- Filling a view keeps to the terms. -/
theorem showLines_obeys (view : ViewId) (lines : List ViewLine) :
    ((host run).showLines view lines).Obeys (terms allowed).fit
      ((terms allowed).showLines view lines) := by
  intro w hfit
  unfold host
  simp only [Action.ensures_bind]
  refine Action.ensures_modifyHost.2 (forM_note_ensures ViewLine.text lines fun trace => ?_)
  refine reach_ensures (by exact hfit.1) _ ?_ ?_
  · have hshown : Books.shownOf StageView.destroyed (w.host.views.modify view fun v =>
        { v with lines := lines, updates := v.updates + 1 }) = (books w.host).views :=
      Books.shownOf_same (by exact fun _ => rfl) _ _
    exact ⟨_, w.client, rfl, hfit, congrArg (Books.mk · _) hshown⟩
  · intro e _
    exact ⟨_, w.client, rfl, hfit, rfl⟩

/-- While nothing is hooked to its calls, the stage honours its terms. -/
theorem host_honours (run : StageStep → StageAct Unit) (allowed : List Point) :
    (host run).Honours (terms allowed) where
  tree source := by
    intro w hfit
    unfold host note
    simp only [Action.ensures_bind, Action.ensures_modifyHost]
    refine reach_ensures (by exact hfit.1) _ ?_ ?_
    · refine findSource_ensures source ?_ ?_
      · exact fun s => ⟨_, w.client, rfl, hfit, rfl⟩
      · exact fun e => ⟨_, w.client, rfl, hfit, rfl⟩
    · exact fun e _ => ⟨_, w.client, rfl, hfit, rfl⟩
  subscribe := subscribe_obeys
  unsubscribe := unsubscribe_obeys
  isAvailable source := by
    intro w hfit
    unfold host
    simp only [Action.ensures_bind]
    refine reach_ensures hfit.1 _ ?_ ?_
    · refine findSource_ensures source ?_ ?_
      · exact fun s => ⟨_, w.client, rfl, hfit, rfl⟩
      · exact fun e => ⟨_, w.client, rfl, hfit, rfl⟩
    · exact fun e _ => ⟨_, w.client, rfl, hfit, rfl⟩
  sourceName source := by
    intro w hfit
    unfold host
    simp only [Action.ensures_bind]
    refine reach_ensures hfit.1 _ ?_ ?_
    · refine findSource_ensures source ?_ ?_
      · exact fun s => ⟨_, w.client, rfl, hfit, rfl⟩
      · exact fun e => ⟨_, w.client, rfl, hfit, rfl⟩
    · exact fun e _ => ⟨_, w.client, rfl, hfit, rfl⟩
  createView := createView_obeys
  showLines := showLines_obeys
  destroyView := destroyView_obeys
  focus source span highlight := by
    intro w hfit
    unfold host note
    simp only [Action.ensures_bind]
    refine findSource_ensures source ?_ ?_
    · intro s
      rw [Action.ensures_modifyHost]
      refine reach_ensures (by exact hfit.1) _ ?_ ?_
      · exact ⟨_, w.client, rfl, hfit, rfl⟩
      · exact fun e _ => ⟨_, w.client, rfl, hfit, rfl⟩
    · exact fun e => ⟨_, w.client, rfl, hfit, rfl⟩
  log message := by
    intro w hfit
    unfold host
    rw [Action.ensures_modifyHost]
    by_cases hsilent : w.host.silent = true
    · simp only [hsilent, if_true]
      exact ⟨_, w.client, rfl, hfit, trivial, rfl⟩
    · simp only [hsilent, Bool.false_eq_true, if_false]
      exact ⟨_, w.client, rfl, hfit, trivial, rfl⟩

/-- A stage that is not allowed to fail at ending anything keeps its books. -/
theorem terms_keep_books (hcommit : .endCommit ∉ allowed) (hdestroy : .endDestroy ∉ allowed)
    (hview : .destroyView ∉ allowed) : (terms allowed).Keeps books where
  tree h := h
  subscribed h := h
  notSubscribed h := h
  unsubscribe {sub h r h'} hcall := by
    cases r with
    | ok _ => exact ⟨rfl, hcall⟩
    | error e => exact (hcall.elim hcommit hdestroy).elim
  isAvailable h := h
  sourceName h := h
  created h := h
  notCreated h := h
  showLines h := h
  destroyView {view h r h'} hcall := by
    cases r with
    | ok _ => exact ⟨rfl, hcall⟩
    | error e => exact (hview hcall).elim
  focus h := h
  log h := h

end

/-! ## Two runs

In the first, the view of a second source fails to open after that of the first has. In the second,
the host fails to end a view.
-/

/-- Two sources of one node each. -/
def pair : Stage where
  sources := [
    { name := "a", tree := .node ⟨"null", .between 0 4⟩ [] },
    { name := "b", tree := .node ⟨"true", .between 0 4⟩ [] }]

/-- The stage of two sources starts with empty books. -/
theorem books_pair : books pair = .empty := by
  unfold books Books.empty
  congr 1
  · ext v
    simp [pair, Books.shownOf]

/-- The stage with nothing hooked to its calls. -/
def quiet : Host Stage (Roster StageStep) := host fun _ => pure ()

/-- The world after a view of the first source has been opened. -/
def opened : World Stage (Roster StageStep) :=
  ((Step.run quiet (.call (.enable 0 {}))).outcome { host := pair, client := {} }).2

/-- The world with some calls set to fail. -/
def failingAt (points : List Point) (w : World Stage (Roster StageStep)) :
    World Stage (Roster StageStep) :=
  w.beside { w.host with failing := points } w.client

/-- The calls that may fail before anything is ended. -/
def opening : List Point :=
  [.sourceName, .createView, .tree, .showLines, .subscribeCommit, .subscribeDestroy]

/-- The world after opening a view of the second source has failed at its last call. -/
def halfway : World Stage (Roster StageStep) :=
  ((Step.run quiet (.call (.enable 1 {}))).outcome (failingAt [.subscribeDestroy] opened)).2

/-- The sessions are in order after the second view has failed at the last step of opening it. -/
theorem halfway_inOrder :
    halfway.sessions.length = 2 ∧ halfway.registry = [(0, 0)] ∧
      ∃ made, Reached quiet (terms opening) books halfway made ∧
        halfway.InOrder (books halfway.host) made := by
  have hkeeps : (terms opening).Keeps books :=
    terms_keep_books (by decide) (by decide) (by decide)
  have hhonours : quiet.Honours (terms opening) := host_honours _ _
  have hstart : Reached quiet (terms opening) books { host := pair, client := {} }
      fun _ _ => False :=
    .start rfl rfl books_pair ⟨rfl, by decide⟩
  have hopened := hstart.step (.call (.enable 0 {}))
  have hhooks : opened.host.hooks = [] := (hopened.settled hkeeps hhonours).fit.1
  have hfailing : Reached quiet (terms opening) books (failingAt [.subscribeDestroy] opened) _ :=
    hopened.aside rfl ⟨hhooks, by decide⟩
  have hhalfway := hfailing.step (.call (.enable 1 {}))
  exact ⟨by decide +kernel, by decide +kernel, _, hhalfway, hhalfway.inOrder hkeeps hhonours⟩

/-- The world after the host has failed to end the view. -/
def stranded : World Stage (Roster StageStep) :=
  ((Step.run quiet (.call (.disable 0))).outcome (failingAt [.destroyView] opened)).2

/-- The session whose view the host failed to end is inactive. -/
theorem stranded_inactive {s : Session} (hs : stranded.sessions[0]? = some s) :
    s.state = .inactive := by
  have hinactive : stranded.sessions[0]?.map (·.state) = some .inactive := by decide +kernel
  rw [hs, Option.map_some, Option.some.injEq] at hinactive
  exact hinactive

/-- A run leads to the world in which the host has failed to end a view. -/
theorem run_stranded : ∃ lost, Run quiet (terms Point.all) stranded lost := by
  have hhonours : quiet.Honours (terms Point.all) := host_honours _ _
  have hstart : Run quiet (terms Point.all) { host := pair, client := {} } fun _ => False :=
    .start rfl rfl ⟨rfl, by decide⟩
  have hopened := hstart.step (.call (.enable 0 {}))
  have hhooks : opened.host.hooks = [] := (hopened.tracked hhonours).1.1
  have hfailing : Run quiet (terms Point.all) (failingAt [.destroyView] opened) _ :=
    hopened.aside ⟨hhooks, by decide⟩
  exact ⟨_, hfailing.step (.call (.disable 0))⟩

/-- There the registry lists a session that is lost, and nothing else is amiss. -/
theorem stranded_accountedFor :
    stranded.registry = [(0, 0)] ∧ ∃ lost, Run quiet (terms Point.all) stranded lost ∧ lost 0 ∧
      stranded.AccountedFor quiet lost := by
  obtain ⟨lost, hrun⟩ := run_stranded
  have haccounted : stranded.AccountedFor quiet lost := Run.accountedFor (host_honours _ _) hrun
  refine ⟨by decide +kernel, lost, hrun, ?_, haccounted⟩
  obtain ⟨s, hs, -, hstate⟩ := (haccounted.listed 0 0).1 (by decide +kernel)
  rw [stranded_inactive hs] at hstate
  exact hstate.resolve_left (by decide)

/-- In charge of the first source is a session that is not active. -/
theorem registered_not_active :
    ¬ ∀ (w : World Stage (Roster StageStep)) (lost : SessionId → Prop),
      Run quiet (terms Point.all) w lost →
        ∀ source id, (source, id) ∈ w.registry ↔ ∃ s, w.Active id s ∧ s.source = source := by
  intro hclaim
  obtain ⟨lost, hrun⟩ := run_stranded
  obtain ⟨s, ⟨hs, hactive⟩, -⟩ := (hclaim stranded lost hrun 0 0).1 (by decide +kernel)
  rw [stranded_inactive hs] at hactive
  cases hactive

end TreeInspector.Scenario.Stage
