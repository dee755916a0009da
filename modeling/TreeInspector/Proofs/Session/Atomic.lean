import TreeInspector.Proofs.Scenario.Stage
import TreeInspector.Proofs.Session.Record

/-!
# Enabling leaves all or nothing

Enabling a view calls the host step by step. If a step fails, what the steps before it made is taken
back, whatever goes wrong while doing so, and the failure of that step is what the caller gets. The
registry and all sessions are then as before, and so are the books of the host if nothing goes wrong
in taking back.
-/

set_option autoImplicit false

namespace TreeInspector

/-! ## Calls of an enabling -/

namespace HostCall

/-- The call is a step of opening a view. -/
@[simp]
def opens : HostCall → Bool
  | .sourceName .. | .createView .. | .tree .. | .showLines .. | .subscribe .. => true
  | _ => false

/-- The call ends something or writes to the log. -/
@[simp]
def closes : HostCall → Bool
  | .unsubscribe .. | .destroyView .. | .log .. => true
  | _ => false

/-- The steps of opening a view for a session, none of which fails. -/
def opening (source : SourceId) (navigation : Bool) (id : SessionId) (title : String)
    (view : ViewId) (tree : ParseTree) (commit destroy : SubscriptionId) : List HostCall :=
  [.sourceName source (.ok title), .createView ("Parse Tree: " ++ title) (.ok view),
    .tree source (.ok tree), .showLines view (tree.render navigation) (.ok ()),
    .subscribe source .commit (.session id .commit) (.ok commit),
    .subscribe source .destroy (.session id .destroy) (.ok destroy)]

/-- Steps that succeed, with the views and the subscriptions they make. -/
structure Succeed (steps : List HostCall) (views : List ViewId) (subs : List SubscriptionId) :
    Prop where
  each : ∀ c ∈ steps, c.opens = true ∧ c.failure? = none
  views : steps.filterMap view? = views
  subs : steps.filterMap subscription? = subs

/-- A step fails for the given reason. -/
def Fails (reason : Failure) (step : HostCall) : Prop :=
  step.opens = true ∧ step.failure? = some reason

/-- Calls that take back what was made: each view and each subscription is tried. -/
structure TakesBack (calls : List HostCall) (views : List ViewId) (subs : List SubscriptionId) :
    Prop where
  each : ∀ c ∈ calls, c.closes = true
  views : ∀ v ∈ views, ∃ r, HostCall.destroyView v r ∈ calls
  subs : ∀ s ∈ subs, ∃ r, HostCall.unsubscribe s r ∈ calls

/-- The calls of an enabling that is called off: steps that succeed, one that fails for the given
reason, and then only calls that take back what the steps before it made. -/
structure CalledOff (reason : Failure) (steps : List HostCall) (last : HostCall)
    (cleanUp : List HostCall) : Prop where
  succeed : ∀ c ∈ steps, c.opens = true ∧ c.failure? = none
  fails : last.Fails reason
  takesBack : TakesBack cleanUp (steps.filterMap view?) (steps.filterMap subscription?)

/-- Two stretches of steps that succeed make what both make. -/
theorem Succeed.append {steps steps' : List HostCall} {views views' : List ViewId}
    {subs subs' : List SubscriptionId} (h : Succeed steps views subs)
    (h' : Succeed steps' views' subs') :
    Succeed (steps ++ steps') (views ++ views') (subs ++ subs') := by
  refine ⟨?_, ?_, ?_⟩
  · exact List.forall_mem_append.2 ⟨h.each, h'.each⟩
  · rw [List.filterMap_append, h.views, h'.views]
  · rw [List.filterMap_append, h.subs, h'.subs]

/-- Taking back the subscriptions and then the view takes back both. -/
theorem TakesBack.append {calls calls' : List HostCall} {views : List ViewId}
    {subs : List SubscriptionId} (h : TakesBack calls [] subs) (h' : TakesBack calls' views []) :
    TakesBack (calls ++ calls') views subs := by
  refine ⟨?_, ?_, ?_⟩
  · exact List.forall_mem_append.2 ⟨h.each, h'.each⟩
  · intro v hv
    obtain ⟨r, hr⟩ := h'.views v hv
    exact ⟨r, List.mem_append_right _ hr⟩
  · intro s hs
    obtain ⟨r, hr⟩ := h.subs s hs
    exact ⟨r, List.mem_append_left _ hr⟩

end HostCall

open HostCall (Succeed Fails TakesBack)

namespace Terms

section

variable {H : Type} {T : Terms H} {record : H → List HostCall} {h h' : H}

/-! ## What is on record -/

/-- Filling a view asks for the tree and shows its lines. -/
theorem Records.rendered (records : T.Records record) {source : SourceId} {navigation : Bool}
    {view : ViewId} {lines : List ViewLine}
    (renders : T.Renders source navigation view h (.ok lines) h') :
    ∃ tree : ParseTree, record h' = record h ++
      [.tree source (.ok tree), .showLines view (tree.render navigation) (.ok ())] := by
  cases renders with
  | @shown tree h₁ _ call shows =>
    refine ⟨tree, ?_⟩
    rw [records.showLines shows, records.tree call, List.append_assoc]
    rfl

/-- If a view cannot be filled, the last step on record is the one that failed. -/
theorem Records.unrendered (records : T.Records record) {source : SourceId} {navigation : Bool}
    {view : ViewId} {e : Failure} (renders : T.Renders source navigation view h (.error e) h') :
    ∃ steps last, record h' = record h ++ (steps ++ [last]) ∧ Succeed steps [] [] ∧
      last.Fails e := by
  cases renders with
  | noTree call =>
    exact ⟨[], .tree source (.error e), records.tree call, ⟨by simp, rfl, rfl⟩, rfl, rfl⟩
  | @notShown tree _ h₁ _ call fails =>
    refine ⟨[.tree source (.ok tree)],
      .showLines view (tree.render navigation) (.error e), ?_, ⟨by simp, rfl, rfl⟩, rfl, rfl⟩
    rw [records.showLines fails, records.tree call, List.append_assoc]

/-- A binding that is made has all of its steps on record. -/
theorem Records.bound (records : T.Records record) {source : SourceId} {navigation : Bool}
    {id : SessionId} {view : ViewId} {binding : Binding}
    (binds : T.Binds source navigation id view h (.ok binding) h') :
    ∃ tree commit destroy, record h' = record h ++
      [.tree source (.ok tree), .showLines view (tree.render navigation) (.ok ()),
        .subscribe source .commit (.session id .commit) (.ok commit),
        .subscribe source .destroy (.session id .destroy) (.ok destroy)] := by
  cases binds with
  | @bound lines commit destroy h₁ h₂ _ renders first second =>
    obtain ⟨tree, hrendered⟩ := records.rendered renders
    refine ⟨tree, commit, destroy, ?_⟩
    rw [records.subscribe second, records.subscribe first, hrendered]
    simp only [List.append_assoc, List.cons_append, List.nil_append]

/-- A binding that failed had made one subscription at most. -/
theorem Records.unbound (records : T.Records record) {source : SourceId} {navigation : Bool}
    {id : SessionId} {view : ViewId} {e : Failure} {made : List SubscriptionId}
    (binds : T.Binds source navigation id view h (.error (e, made)) h') :
    ∃ steps last, record h' = record h ++ (steps ++ [last]) ∧ Succeed steps [] made ∧
      last.Fails e ∧ made.length ≤ 1 := by
  cases binds with
  | unrendered renders =>
    obtain ⟨steps, last, hrecord, hsteps, hlast⟩ := records.unrendered renders
    exact ⟨steps, last, hrecord, hsteps, hlast, by simp⟩
  | @noCommit lines _ h₁ _ renders fails =>
    obtain ⟨tree, hrendered⟩ := records.rendered renders
    refine ⟨[.tree source (.ok tree), .showLines view (tree.render navigation) (.ok ())],
      .subscribe source .commit (.session id .commit) (.error e), ?_, ⟨by simp, rfl, rfl⟩,
      ⟨rfl, rfl⟩, by simp⟩
    rw [records.subscribe fails, hrendered, List.append_assoc]
  | @noDestroy lines commit _ h₁ h₂ _ renders first fails =>
    obtain ⟨tree, hrendered⟩ := records.rendered renders
    refine ⟨[.tree source (.ok tree), .showLines view (tree.render navigation) (.ok ()),
        .subscribe source .commit (.session id .commit) (.ok commit)],
      .subscribe source .destroy (.session id .destroy) (.error e), ?_, ⟨by simp, rfl, rfl⟩,
      ⟨rfl, rfl⟩, by simp⟩
    rw [records.subscribe fails, records.subscribe first, hrendered]
    simp only [List.append_assoc, List.cons_append, List.nil_append]

/-! ## Clean-ups that succeed -/

/-- The terms as far as ending a subscription or a view succeeds. -/
def calm (T : Terms H) : Terms H :=
  { T with
    unsubscribe := fun sub h r h' => r = .ok () ∧ T.unsubscribe sub h r h'
    destroyView := fun view h r h' => r = .ok () ∧ T.destroyView view h r h' }

/-- Filling a view ends no subscription and no view, so it does what calm terms say. -/
theorem Renders.calm {source : SourceId} {navigation : Bool} {view : ViewId}
    {r : Except Failure (List ViewLine)} (renders : T.Renders source navigation view h r h') :
    T.calm.Renders source navigation view h r h' := by
  cases renders with
  | noTree call => exact .noTree call
  | notShown call fails => exact .notShown call fails
  | shown call shows => exact .shown call shows

/-- A binding ends no subscription and no view, so it does what calm terms say. -/
theorem Binds.calm {source : SourceId} {navigation : Bool} {id : SessionId} {view : ViewId}
    {r : Except (Failure × List SubscriptionId) Binding}
    (binds : T.Binds source navigation id view h r h') :
    T.calm.Binds source navigation id view h r h' := by
  cases binds with
  | unrendered renders => exact .unrendered renders.calm
  | noCommit renders fails => exact .noCommit renders.calm fails
  | noDestroy renders first fails => exact .noDestroy renders.calm first fails
  | bound renders first second => exact .bound renders.calm first second

/-- One subscription at most is ended, or at least tried. With more of them, those behind the first
failure would not be tried. -/
theorem Records.tidied (records : T.Records record) {title : String} {subs : List SubscriptionId}
    (hsubs : subs.length ≤ 1) (tidies : T.Tidies title subs h h') :
    ∃ calls, record h' = record h ++ calls ∧ TakesBack calls [] subs ∧
      ((∀ c ∈ calls, c.failure? = none) → T.calm.Tidies title subs h h') := by
  cases tidies with
  | done all =>
    cases all with
    | nil => exact ⟨[], by simp, ⟨by simp, by simp, by simp⟩, fun _ => .done (.nil h)⟩
    | @cons sub rest _ h₂ _ first others =>
      obtain rfl : rest = [] := by
        simpa using hsubs
      cases others
      refine ⟨[.unsubscribe sub (.ok ())], records.unsubscribe first,
        ⟨by simp, by simp, by simp⟩, fun _ => .done (.cons ⟨rfl, first⟩ (.nil h'))⟩
  | @failed left e _ h₂ _ some logs =>
    cases some with
    | @here sub _ _ _ _ fails =>
      obtain rfl : left = [] := by
        simpa using hsubs
      refine ⟨[.unsubscribe sub (.error e),
        .log ("Rollback of tree view for " ++ title ++ " failed: " ++ e.message)], ?_,
        ⟨by simp, by simp, by simp⟩, ?_⟩
      · rw [records.log logs, records.unsubscribe fails, List.append_assoc]
        rfl
      · intro hcalm
        simp at hcalm
    | @later sub rest _ _ _ _ _ first others =>
      obtain rfl : rest = [] := by
        simpa using hsubs
      cases others

/-- A clean-up of a view tries to end it, and is calm if that succeeds. -/
theorem Records.cleared (records : T.Records record) {title : String} {view : ViewId}
    (clears : T.Clears title view h h') :
    ∃ calls, record h' = record h ++ calls ∧ TakesBack calls [view] [] ∧
      ((∀ c ∈ calls, c.failure? = none) → T.calm.Clears title view h h') := by
  cases clears with
  | done call =>
    exact ⟨[.destroyView view (.ok ())], records.destroyView call, ⟨by simp, by simp, by simp⟩,
      fun _ => .done ⟨rfl, call⟩⟩
  | @failed e _ h₂ _ call logs =>
    refine ⟨[.destroyView view (.error e),
      .log ("Rollback of tree view for " ++ title ++ " failed: " ++ e.message)], ?_,
      ⟨by simp, by simp, by simp⟩, ?_⟩
    · rw [records.log logs, records.destroyView call, List.append_assoc]
      rfl
    · intro hcalm
      simp at hcalm

/-! ## Hosts that work -/

/-- No step of opening a view fails. -/
structure Works (T : Terms H) : Prop where
  sourceName : ∀ {source h e h'}, ¬T.sourceName source h (.error e) h'
  createView : ∀ {title h e h'}, ¬T.createView title h (.error e) h'
  tree : ∀ {source h e h'}, ¬T.tree source h (.error e) h'
  showLines : ∀ {view lines h e h'}, ¬T.showLines view lines h (.error e) h'
  subscribe : ∀ {source event callback h e h'}, ¬T.subscribe source event callback h (.error e) h'

/-- If every step works, no binding fails. -/
theorem Works.not_unbound (works : T.Works) {source : SourceId} {navigation : Bool}
    {id : SessionId} {view : ViewId} {x : Failure × List SubscriptionId} :
    ¬T.Binds source navigation id view h (.error x) h' := by
  intro binds
  cases binds with
  | unrendered renders =>
    cases renders with
    | noTree call => exact works.tree call
    | notShown call fails => exact works.showLines fails
  | noCommit renders fails => exact works.subscribe fails
  | noDestroy renders first fails => exact works.subscribe fails

end

end Terms

/-! ## Enabling -/

section

variable {H C : Type} {T : Terms H} {host : Host H C} {record : H → List HostCall}
  {books : H → Books} {w w' : World H C} {source : SourceId} {settings : Settings}

namespace Session

variable {id : SessionId} {s : Session}

/-- If every step works, enabling does not fail. -/
theorem Enables.of_works (works : T.Works) {e : Failure} : ¬Enables T w id s (.error e) w' := by
  intro henables
  cases henables with
  | unnamed name => exact works.sourceName name
  | noView name view => exact works.createView view
  | undone name makes binds tidies clears => exact works.not_unbound binds

/-- A session that is enabled has all of its steps on record, and then the message. -/
theorem Enables.recorded (records : T.Records record) (h : Enables T w id s (.ok ()) w') :
    ∃ title view tree commit destroy message, record w'.host = record w.host ++
      (HostCall.opening s.source s.options.navigation id title view tree commit destroy ++
        [.log message]) := by
  cases h with
  | @done title message view binding h₁ h₂ h₃ h₄ c name makes binds logs =>
    obtain ⟨tree, commit, destroy, hbound⟩ := records.bound binds
    refine ⟨title, view, tree, commit, destroy, message, ?_⟩
    simp only [World.beside_host]
    rw [records.log logs, hbound, records.createView makes, records.sourceName name]
    simp only [HostCall.opening, List.append_assoc, List.cons_append, List.nil_append]

/-- What a failed enabling leaves on record and in the books. -/
theorem Enables.calledOff (records : T.Records record) (keeps : T.calm.Keeps books) {e : Failure}
    (h : Enables T w id s (.error e) w') :
    ∃ steps last cleanUp, record w'.host = record w.host ++ (steps ++ last :: cleanUp) ∧
      HostCall.CalledOff e steps last cleanUp ∧
      ((∀ c ∈ cleanUp, c.failure? = none) → books w'.host = books w.host) := by
  cases h with
  | @unnamed _ h₁ c name =>
    refine ⟨[], .sourceName s.source (.error e), [], records.sourceName name,
      ⟨by simp, ⟨rfl, rfl⟩, by simp, by simp, by simp⟩, ?_⟩
    intro _
    exact keeps.sourceName name
  | @noView title _ h₁ h₂ c name view =>
    refine ⟨[.sourceName s.source (.ok title)],
      .createView ("Parse Tree: " ++ title) (.error e), [], ?_,
      ⟨by simp, ⟨rfl, rfl⟩, by simp, by simp, by simp⟩, ?_⟩
    · simp only [World.beside_host]
      rw [records.createView view, records.sourceName name, List.append_assoc]
    · intro _
      simp only [World.beside_host]
      rw [keeps.notCreated view, keeps.sourceName name]
  | @undone title view _ made h₁ h₂ h₃ h₄ h₅ c name makes binds tidies clears =>
    obtain ⟨steps, last, hsteps, hsucceed, hlast, hmade⟩ := records.unbound binds
    obtain ⟨ends, hends, htakes, hcalmTidies⟩ := records.tidied hmade tidies
    obtain ⟨clear, hclear, htakes', hcalmClears⟩ := records.cleared clears
    have hfirst : Succeed [.sourceName s.source (.ok title),
        .createView ("Parse Tree: " ++ title) (.ok view)] [view] [] :=
      ⟨by simp, rfl, rfl⟩
    have hall := hfirst.append hsucceed
    refine ⟨_, last, ends ++ clear, ?_, ⟨hall.each, hlast, ?_⟩, ?_⟩
    · simp only [World.beside_host]
      rw [hclear, hends, hsteps, records.createView makes, records.sourceName name]
      simp only [List.append_assoc, List.cons_append, List.nil_append]
    · rw [hall.views, hall.subs]
      exact htakes.append htakes'
    · intro hcalm
      rw [List.forall_mem_append] at hcalm
      obtain ⟨hnew, hopened⟩ := keeps.created makes
      simp only [World.beside_host]
      rw [keeps.clears (hcalmClears hcalm.2), keeps.binds_tidies binds.calm (hcalmTidies hcalm.1),
        hopened, Books.closed_opened hnew, keeps.sourceName name]

end Session

namespace Registry

/-- If every step works, the registry enables a view of a source that has none. -/
theorem enable_of_works (honours : host.Honours T) (works : T.Works) (hfit : T.fit w.host)
    (hfree : w.sessionFor? source = none) :
    (Registry.enable host source settings).Ensures w
      (fun id w' => w'.registry = w.registry ++ [(source, id)] ∧
        ∃ s, w'.Active id s ∧ s.source = source)
      (fun _ _ => False) := by
  refine (enable_of_free honours hfit (World.sessionFor?_eq_none_iff.1 hfree)).mono ?_ ?_
  · rintro id _ ⟨rfl, -, w₁, rfl, henables⟩
    cases henables with
    | @done title message view binding h₁ h₂ h₃ h₄ c name makes binds logs =>
      have hfresh : (w.withSession (freshSession source settings)).sessions[w.sessions.length]? =
          some (freshSession source settings) := by
        simp [World.withSession]
      refine ⟨rfl, (freshSession source settings).bound binding, ⟨?_, ?_⟩, rfl⟩
      · exact World.getElem?_modifySession_self hfresh _
      · exact Session.state_eq_active_iff.2 ⟨binding, Session.binding?_bound _ _⟩
  · rintro e w' ⟨-, henables⟩
    exact Session.Enables.of_works works henables

/-- Every step of opening a view was made, and none failed. -/
def AllDone (record : H → List HostCall) (w : World H C) (source : SourceId) (settings : Settings)
    (id : SessionId) (w' : World H C) : Prop :=
  ∃ title view tree commit destroy message, record w'.host = record w.host ++
    (HostCall.opening source settings.resolve.navigation id title view tree commit destroy ++
      [.log message])

/-- What an enabling that failed leaves. -/
structure NothingDone (record : H → List HostCall) (books : H → Books) (w : World H C)
    (source : SourceId) (reason : Failure) (w' : World H C) : Prop where
  registry : w'.registry = w.registry
  /-- The new session is not bound, and it has not ended either. -/
  session : ∃ s, w'.sessions = w.sessions ++ [s] ∧ s.source = source ∧ s.state = .inactive ∧
    s.view? = none ∧ s.endReason = none
  /-- The reason is the failure of the first step that failed. Everything made before is taken back,
  and then the host keeps what it kept before. -/
  calledOff : ∃ steps last cleanUp, record w'.host = record w.host ++ (steps ++ last :: cleanUp) ∧
    HostCall.CalledOff reason steps last cleanUp ∧
    ((∀ c ∈ cleanUp, c.failure? = none) → books w'.host = books w.host)
  /-- As soon as the host works, the source can be enabled. -/
  again : ∀ (T : Terms H) (host : Host H C), host.Honours T → T.Works →
    ∀ (settings : Settings) (h : H) (c : C), T.fit h →
      (Registry.enable host source settings).Ensures (w'.beside h c)
        (fun id w'' => w''.registry = w'.registry ++ [(source, id)] ∧
          ∃ s, w''.Active id s ∧ s.source = source)
        (fun _ _ => False)

/-- Enabling the view of a source that has none makes all its steps, or it fails for the reason of
the first step that failed and leaves nothing done, whatever the clean-up comes to. -/
theorem enable_all_or_nothing (honours : host.Honours T) (records : T.Records record)
    (keeps : T.calm.Keeps books) (hfit : T.fit w.host) (hfree : w.sessionFor? source = none)
    (settings : Settings) :
    (Registry.enable host source settings).Ensures w (AllDone record w source settings)
      (NothingDone record books w source) := by
  refine (enable_of_free honours hfit (World.sessionFor?_eq_none_iff.1 hfree)).mono ?_ ?_
  · rintro id _ ⟨rfl, -, w₁, rfl, henables⟩
    exact henables.recorded records
  · rintro e w' ⟨-, henables⟩
    have hcalls := henables.calledOff records keeps
    have hsame : w'.registry = w.registry ∧
        w'.sessions = w.sessions ++ [freshSession source settings] := by
      cases henables <;> exact ⟨rfl, rfl⟩
    have hfree' : w'.sessionFor? source = none := by
      unfold World.sessionFor? at hfree ⊢
      rw [hsame.1, hfree]
    refine ⟨hsame.1, ⟨_, hsame.2, rfl, rfl, rfl, rfl⟩, hcalls, ?_⟩
    intro T' host' honours' works settings' h c hfit'
    exact enable_of_works (w := w'.beside h c) honours' works hfit' hfree'

end Registry

end

/-! ## A step and the clean-up fail -/

/-- A record of the calls does not change what they do to the books. -/
theorem Terms.Keeps.watched {H : Type} {T : Terms H} {books : H → Books}
    (keeps : T.calm.Keeps books) : T.watched.calm.Keeps fun h => books h.inner where
  tree h := keeps.tree h.1
  subscribed h := keeps.subscribed h.1
  notSubscribed h := keeps.notSubscribed h.1
  unsubscribe h := keeps.unsubscribe ⟨h.1, h.2.1⟩
  isAvailable h := keeps.isAvailable h.1
  sourceName h := keeps.sourceName h.1
  created h := keeps.created h.1
  notCreated h := keeps.notCreated h.1
  showLines h := keeps.showLines h.1
  destroyView h := keeps.destroyView ⟨h.1, h.2.1⟩
  focus h := keeps.focus h.1
  log h := keeps.log h.1

namespace Scenario.Stage

/-- The calm terms of the stage keep its books. -/
theorem terms_calm_keep_books (allowed : List Point) : (terms allowed).calm.Keeps books where
  tree h := h
  subscribed h := h
  notSubscribed h := h
  unsubscribe := by
    rintro sub h r h' ⟨rfl, hcall⟩
    exact ⟨rfl, hcall⟩
  isAvailable h := h
  sourceName h := h
  created h := h
  notCreated h := h
  showLines h := h
  destroyView := by
    rintro view h r h' ⟨rfl, hcall⟩
    exact ⟨rfl, hcall⟩
  focus h := h
  log h := h

/-- The second subscription cannot be made, and then the view cannot be ended. -/
def brittle : World (Watched Stage) (Roster StageStep) where
  host := ⟨{ pair with failing := [.subscribeDestroy, .destroyView] }, []⟩
  client := {}

/-- What comes of enabling the first source there. -/
def brokenOff : Except Failure SessionId × World (Watched Stage) (Roster StageStep) :=
  (Registry.enable quiet.watched 0 {}).outcome brittle

/-- Enabling fails for the first reason, and nothing is left of it although the view could not be
ended. -/
theorem brokenOff_nothing_done :
    brokenOff.1 = .error (.raised "host failure in onDestroy") ∧
      Registry.NothingDone Watched.calls (fun h => books h.inner) brittle 0
        (.raised "host failure in onDestroy") brokenOff.2 := by
  have hfails : brokenOff.1 = .error (.raised "host failure in onDestroy") := by
    decide +kernel
  have hensures : (Registry.enable quiet.watched 0 {}).Ensures brittle
      (Registry.AllDone Watched.calls brittle 0 {})
      (Registry.NothingDone Watched.calls (fun h => books h.inner) brittle 0) :=
    Registry.enable_all_or_nothing (host_honours (fun _ => pure ()) Point.all).watched
      (Terms.watched_records _) (terms_calm_keep_books Point.all).watched ⟨rfl, by decide⟩ rfl {}
  have hnothing : ∀ e, brokenOff.1 = .error e →
      Registry.NothingDone Watched.calls (fun h => books h.inner) brittle 0 e brokenOff.2 := by
    refine Action.Ensures.outcome (P := fun r w' => ∀ e, r = .error e →
      Registry.NothingDone Watched.calls (fun h => books h.inner) brittle 0 e w')
      (hensures.mono ?_ ?_)
    · intro id w' _ e hok
      cases hok
    · intro e w' hw' e' herror
      cases herror
      exact hw'
  exact ⟨hfails, hnothing _ hfails⟩

end Scenario.Stage

end TreeInspector
