import TreeInspector.Proofs.Scenario.Stage
import TreeInspector.Proofs.Session.Deeds
import TreeInspector.Proofs.Session.ViewLife

/-!
# What runs do to views

Sessions may be made and enabled at will, any call of the host may fail, and events may be announced
to sessions long after they have ended. Still every operation takes one of the turns that keep the
views to their lives, and the only views that have not been ended are those that active sessions
show.
-/

set_option autoImplicit false

namespace TreeInspector

/-! ## What an operation puts on record -/

section

variable {H C : Type} {T : Terms H} {host : Host H C} {record : H → List HostCall} {h h₁ h₂ : H}

/-- The record grows by calls that have the given events of views. -/
def Grows (record : H → List HostCall) (h h' : H) (events : List (ViewId × ViewEvent)) : Prop :=
  ∃ calls, record h' = record h ++ calls ∧ calls.filterMap HostCall.viewEvent? = events

namespace Grows

variable {events events' : List (ViewId × ViewEvent)}

/-- A record may stay as it is. -/
theorem refl (h : H) : Grows record h h [] := ⟨[], by simp, rfl⟩

/-- A record grows in two stretches by the events of both. -/
theorem trans (first : Grows record h h₁ events) (second : Grows record h₁ h₂ events') :
    Grows record h h₂ (events ++ events') := by
  obtain ⟨calls, hcalls, rfl⟩ := first
  obtain ⟨calls', hcalls', rfl⟩ := second
  refine ⟨calls ++ calls', ?_, List.filterMap_append⟩
  rw [hcalls', hcalls, List.append_assoc]

/-- One call adds what it does to a view. -/
theorem one {c : HostCall} {x : ViewId × ViewEvent} (hc : record h₁ = record h ++ [c])
    (hx : c.viewEvent? = some x) : Grows record h h₁ [x] :=
  ⟨[c], hc, by simp [hx]⟩

/-- A call that is about no view adds no event. -/
theorem none {c : HostCall} (hc : record h₁ = record h ++ [c]) (hx : c.viewEvent? = .none) :
    Grows record h h₁ [] :=
  ⟨[c], hc, by simp [hx]⟩

/-- A call without an event of a view makes no difference. -/
theorem after {c : HostCall} (first : Grows record h h₁ events)
    (hc : record h₂ = record h₁ ++ [c]) (hx : c.viewEvent? = .none) : Grows record h h₂ events := by
  simpa using first.trans (none hc hx)

/-- A call that is about no view may come first. -/
theorem before {c : HostCall} (hc : record h₁ = record h ++ [c]) (hx : c.viewEvent? = .none)
    (second : Grows record h₁ h₂ events) : Grows record h h₂ events := by
  simpa using (none hc hx).trans second

end Grows

namespace Terms.Records

/-- The call is followed by others, and neither handles views nor subscribes. -/
theorem idle_cons {c : HostCall} (hc : record h₁ = record h ++ [c]) (hhandles : c.handles = false)
    (rest : ∃ calls, record h₂ = record h₁ ++ calls ∧ ∀ c ∈ calls, c.handles = false) :
    ∃ calls, record h₂ = record h ++ calls ∧ ∀ c ∈ calls, c.handles = false := by
  obtain ⟨calls, hcalls, hnone⟩ := rest
  refine ⟨c :: calls, ?_, List.forall_mem_cons.2 ⟨hhandles, hnone⟩⟩
  rw [hcalls, hc, List.append_assoc, List.singleton_append]

/-- Looking around neither handles views nor subscribes. -/
theorem looksAround (records : T.Records record) (looks : T.LooksAround h h₁) :
    ∃ calls, record h₁ = record h ++ calls ∧ ∀ c ∈ calls, c.handles = false := by
  induction looks with
  | done h => exact ⟨[], by simp, by simp⟩
  | isAvailable call _ ih => exact idle_cons (records.isAvailable call) rfl ih
  | sourceName call _ ih => exact idle_cons (records.sourceName call) rfl ih
  | focus call _ ih => exact idle_cons (records.focus call) rfl ih
  | log call _ ih => exact idle_cons (records.log call) rfl ih

/-- Looking around adds no event of a view. -/
theorem looksAround_grows (records : T.Records record) (looks : T.LooksAround h h₁) :
    Grows record h h₁ [] := by
  obtain ⟨calls, hcalls, hnone⟩ := records.looksAround looks
  exact ⟨calls, hcalls,
    List.filterMap_eq_nil_iff.2 fun c hc => HostCall.viewEvent?_of_handles (hnone c hc)⟩

variable {source : SourceId} {navigation : Bool} {id : SessionId} {view : ViewId}

/-- Rendering into a view does nothing to views but fill that one. -/
theorem renders_grows (records : T.Records record) {r : Except Failure (List ViewLine)}
    (renders : T.Renders source navigation view h r h₁) :
    ∃ n, Grows record h h₁ ((List.replicate n ViewEvent.filled).map (view, ·)) := by
  cases renders with
  | noTree call => exact ⟨0, .none (records.tree call) rfl⟩
  | notShown call fails =>
    exact ⟨1, .before (records.tree call) rfl (.one (records.showLines fails) rfl)⟩
  | shown call shows =>
    exact ⟨1, .before (records.tree call) rfl (.one (records.showLines shows) rfl)⟩

/-- Rendering that succeeds fills the view once. -/
theorem rendered_grows (records : T.Records record) {lines : List ViewLine}
    (renders : T.Renders source navigation view h (.ok lines) h₁) :
    Grows record h h₁ [(view, .filled)] := by
  cases renders with
  | shown call shows => exact .before (records.tree call) rfl (.one (records.showLines shows) rfl)

/-- Ending subscriptions adds no event of a view. -/
theorem unsubscribes_grows (records : T.Records record) {subs : List SubscriptionId}
    (ends : T.Unsubscribes subs h h₁) : Grows record h h₁ [] := by
  induction ends with
  | nil h => exact .refl h
  | cons first _ ih => exact .before (records.unsubscribe first) rfl ih

/-- Ending subscriptions until one fails adds no event of a view. -/
theorem unsubscribesUntil_grows (records : T.Records record) {subs left : List SubscriptionId}
    {e : Failure} (ends : T.UnsubscribesUntil subs h e left h₁) : Grows record h h₁ [] := by
  induction ends with
  | here fails => exact .none (records.unsubscribe fails) rfl
  | later first _ ih => exact .before (records.unsubscribe first) rfl ih

/-- A clean-up of subscriptions adds no event of a view. -/
theorem tidies_grows (records : T.Records record) {title : String} {subs : List SubscriptionId}
    (tidies : T.Tidies title subs h h₁) : Grows record h h₁ [] := by
  cases tidies with
  | done all => exact records.unsubscribes_grows all
  | failed some logs => exact (records.unsubscribesUntil_grows some).after (records.log logs) rfl

/-- A clean-up of a view ends it. -/
theorem clears_grows (records : T.Records record) {title : String}
    (clears : T.Clears title view h h₁) : Grows record h h₁ [(view, .ended)] := by
  cases clears with
  | done call => exact .one (records.destroyView call) rfl
  | failed call logs =>
    exact (Grows.one (records.destroyView call) rfl).after (records.log logs) rfl

/-- A binding that is made fills its view once. -/
theorem bound_grows (records : T.Records record) {binding : Binding}
    (binds : T.Binds source navigation id view h (.ok binding) h₁) :
    binding.view = view ∧ Grows record h h₁ [(view, .filled)] := by
  cases binds with
  | bound renders first second =>
    exact ⟨rfl, ((records.rendered_grows renders).after (records.subscribe first) rfl).after
      (records.subscribe second) rfl⟩

/-- A binding that fails does nothing to views but fill the one that it was for. -/
theorem unbound_grows (records : T.Records record) {e : Failure} {made : List SubscriptionId}
    (binds : T.Binds source navigation id view h (.error (e, made)) h₁) :
    ∃ n, Grows record h h₁ ((List.replicate n ViewEvent.filled).map (view, ·)) := by
  cases binds with
  | unrendered renders => exact records.renders_grows renders
  | noCommit renders fails =>
    obtain ⟨n, hgrows⟩ := records.renders_grows renders
    exact ⟨n, hgrows.after (records.subscribe fails) rfl⟩
  | noDestroy renders first fails =>
    obtain ⟨n, hgrows⟩ := records.renders_grows renders
    exact ⟨n, (hgrows.after (records.subscribe first) rfl).after (records.subscribe fails) rfl⟩

end Terms.Records

/-! ## Operations as turns -/

variable {w w' : World H C} {id : SessionId} {s : Session} {r : Except Failure Unit}

/-- The view that each session shows. -/
def World.shown (w : World H C) : SessionId → Option ViewId := w.seen Session.view?

/-- An operation of the session takes one of the turns that there are. -/
def World.Turns (record : H → List HostCall) (id : SessionId) (w : World H C)
    (r : Except Failure Unit) (w' : World H C) : Prop :=
  ∃ events, Grows record w.host w'.host events ∧ Turn id w.shown r events w'.shown

/-- A bound session shows the view of its binding. -/
theorem Session.view?_of_bound {b : Nat} {binding : Binding} (hb : s.current = some b)
    (hbinding : s.bindings[b]? = some binding) : s.view? = some binding.view := by
  unfold Session.view?
  rw [Session.binding?_eq_some_iff.2 ⟨b, hb, hbinding⟩, Option.map_some]

section

variable {b : Nat} {binding : Binding} (hs : w.sessions[id]? = some s) (hb : s.current = some b)
  (hbinding : s.bindings[b]? = some binding)

include hs hb hbinding

/-- A bound session shows that view in its world. -/
theorem World.shown_of_bound : w.shown id = some binding.view :=
  (World.seen_eq hs).trans (Session.view?_of_bound hb hbinding)

/-- Showing other lines does not change which views are shown. -/
theorem World.shown_showing (lines : List ViewLine) :
    (w.modifySession id (Session.showing b lines)).shown = w.shown := by
  refine World.seen_modifySession_same hs ?_
  unfold Session.view?
  rw [Session.binding?_showing hb hbinding, Session.binding?_eq_some_iff.2 ⟨b, hb, hbinding⟩]
  rfl

/-- Keeping other subscriptions does not change which views are shown. -/
theorem World.shown_keeping (subs : List SubscriptionId) :
    (w.modifySession id (Session.keeping b subs)).shown = w.shown := by
  refine World.seen_modifySession_same hs ?_
  unfold Session.view?
  rw [Session.binding?_keeping hb hbinding, Session.binding?_eq_some_iff.2 ⟨b, hb, hbinding⟩]
  rfl

/-- A refresh fills the view of the session, if it gets that far. -/
theorem Session.Refreshes.turns (records : T.Records record)
    (does : Session.Refreshes T w id s b binding r w') : w.Turns record id r w' := by
  have hown := World.shown_of_bound hs hb hbinding
  have hsame : ∀ {lines : List ViewLine} {h : H} {c : C},
      ((w.modifySession id (showing b lines)).beside h c).shown = w.shown :=
    World.shown_showing hs hb hbinding _
  cases does with
  | unrendered renders =>
    obtain ⟨n, hgrows⟩ := records.renders_grows renders
    exact ⟨_, hgrows, .fills hown⟩
  | unnamed renders name =>
    obtain ⟨n, hgrows⟩ := records.renders_grows renders
    refine ⟨_, hgrows.after (records.sourceName name) rfl, ?_⟩
    rw [hsame]
    exact .fills hown
  | done renders name logs =>
    obtain ⟨n, hgrows⟩ := records.renders_grows renders
    refine ⟨_, (hgrows.after (records.sourceName name) rfl).after (records.log logs) rfl, ?_⟩
    rw [hsame]
    exact .fills hown

/-- Ending a session ends its view, if it gets that far. -/
theorem Session.Finishes.turns (records : T.Records record) {reason : EndReason}
    (does : Session.Finishes T w id s b binding reason r w') : w.Turns record id r w' := by
  have hown := World.shown_of_bound hs hb hbinding
  have hsame : ∀ {subs : List SubscriptionId} {h : H} {c : C},
      ((w.modifySession id (keeping b subs)).beside h c).shown = w.shown :=
    World.shown_keeping hs hb hbinding _
  have hgone : (w.modifySession id fun s => (s.keeping b []).ended reason).shown =
      Function.update w.shown id none :=
    World.seen_modifySession hs _
  cases does with
  | unnamed name => exact ⟨_, .none (records.sourceName name) rfl, .idle⟩
  | interrupted name ends =>
    refine ⟨_, .before (records.sourceName name) rfl (records.unsubscribesUntil_grows ends), ?_⟩
    rw [hsame]
    exact .idle
  | viewLeft name ends view =>
    refine ⟨_, .before (records.sourceName name) rfl
      ((records.unsubscribes_grows ends).trans (.one (records.destroyView view) rfl)), ?_⟩
    exact hgone ▸ .ends hown
  | done name ends view logs =>
    refine ⟨_, (Grows.before (records.sourceName name) rfl ((records.unsubscribes_grows ends).trans
      (.one (records.destroyView view) rfl))).after (records.log logs) rfl, ?_⟩
    exact hgone ▸ .ends hown

end

/-- Enabling a session makes a view, which is ended again if enabling fails. -/
theorem Session.Enables.turns (records : T.Records record) (hs : w.sessions[id]? = some s)
    (hidle : s.binding? = none) (does : Session.Enables T w id s r w') :
    w.Turns record id r w' := by
  have hnone : w.shown id = none := by
    refine (World.seen_eq hs).trans ?_
    unfold Session.view?
    rw [hidle, Option.map_none]
  cases does with
  | unnamed name => exact ⟨_, .none (records.sourceName name) rfl, .idle⟩
  | noView name view =>
    exact ⟨_, .before (records.sourceName name) rfl (.none (records.createView view) rfl), .idle⟩
  | @undone _ view _ _ _ _ _ _ _ _ name makes binds tidies clears =>
    obtain ⟨n, hgrows⟩ := records.unbound_grows binds
    have hmade := Grows.before (records.sourceName name) rfl
      (Grows.one (records.createView makes) rfl)
    have hended := (records.tidies_grows tidies).trans (records.clears_grows clears)
    have hevents : [(view, ViewEvent.made)] ++
        ((List.replicate n .filled).map (view, ·) ++ ([] ++ [(view, .ended)])) =
          (ViewEvent.made :: List.replicate n .filled ++ [ViewEvent.ended]).map (view, ·) := by
      simp
    exact ⟨_, hevents ▸ hmade.trans (hgrows.trans hended), .undone hnone⟩
  | @done _ _ view binding _ _ _ _ _ name makes binds logs =>
    obtain ⟨hview, hgrows⟩ := records.bound_grows binds
    have hshown : (w.modifySession id (bound binding)).shown =
        Function.update w.shown id (some view) := by
      refine (World.seen_modifySession hs _).trans ?_
      unfold Session.view?
      rw [Session.binding?_bound, Option.map_some, hview]
      rfl
    refine ⟨_, .before (records.sourceName name) rfl
      (((Grows.one (records.createView makes) rfl).trans hgrows).after (records.log logs) rfl), ?_⟩
    exact hshown ▸ .opens hnone

/-- Every deed takes one of the turns that there are, of the session that it is about. -/
theorem Deed.Does.turns (records : T.Records record) {d : Deed} (does : Deed.Does T w d r w') :
    w.Turns record (d.subject w) r w' := by
  cases does with
  | tends tends =>
    cases tends with
    | looks looked =>
      obtain ⟨h, c, rfl, -, looks⟩ := looked
      exact ⟨_, records.looksAround_grows looks, .idle⟩
    | refreshes session current bound does => exact does.turns session current bound records
    | finishes session current bound does => exact does.turns session current bound records
  | @creates source options =>
    have hsame : (w.withSession (looseSession source options)).shown = w.shown :=
      World.seen_withSession_same rfl w
    refine ⟨[], .refl _, ?_⟩
    rw [hsame]
    exact .idle
  | enables session idle does => exact does.turns records session idle
  | @opens source settings _ w₁ registry does =>
    have hs : (w.withSession (freshSession source settings)).sessions[w.sessions.length]? =
        some (freshSession source settings) := by
      simp [World.withSession]
    have hsame : (w.withSession (freshSession source settings)).shown = w.shown :=
      World.seen_withSession_same rfl w
    obtain ⟨events, hgrows, turn⟩ := does.turns records hs rfl
    exact ⟨events, hgrows, hsame ▸ turn⟩

/-! ## Runs -/

/-- The calls that an operation of a session has added to the record. -/
def World.told (record : H → List HostCall) (id : SessionId) (failed : Bool) (w w' : World H C) :
    History :=
  ((record w'.host).drop (record w.host).length).map (HistoryEntry.mk id failed)

/-- The history after some deeds in a row, of which a failing one is the last. -/
def historyAfter (host : Host H C) (record : H → List HostCall) :
    List Deed → World H C → History → History
  | [], _, history => history
  | d :: deeds, w, history =>
    match d.run host w with
    | .ok _ w' =>
      historyAfter host record deeds w' (history ++ w.told record (d.subject w) false w')
    | .error _ w' => history ++ w.told record (d.subject w) true w'

/-- The worlds that a run reaches, with the history of the calls to the host. A run starts without
sessions. Sessions are made and enabled at will, and events are announced to any of them at any
time; what is done may end well or fail. In between, the host and the client may change on their
own. -/
inductive ViewRun (host : Host H C) (T : Terms H) (record : H → List HostCall) :
    World H C → History → Prop where
  | start {w : World H C} (noSessions : w.sessions = []) (noEntries : w.registry = [])
      (noCalls : record w.host = []) (fits : T.fit w.host) : ViewRun host T record w []
  | move {w : World H C} {history : History} (before : ViewRun host T record w history)
      (m : Move) :
      ViewRun host T record ((m.run host).outcome w).2
        (historyAfter host record (m.deeds w) w history)
  | aside {w : World H C} {history : History} {h : H} {c : C}
      (before : ViewRun host T record w history) (kept : record h = record w.host)
      (fits : T.fit h) : ViewRun host T record (w.beside h c) history

/-- What holds throughout a run. -/
structure World.OnCourse (record : H → List HostCall) (history : History) (w : World H C) :
    Prop where
  complete : history.map (·.call) = record w.host
  lives : ∀ view, Life (fun i => w.shown i = some view) (History.life view history)
  undone : ∀ {e view}, e ∈ history → e.failed = true → e.call.viewEvent? = some (view, .made) →
    (e.session, .ended) ∈ History.life view history

variable {history : History}

/-- What an operation adds to the record is its own, with the events that it has. -/
theorem World.told_spec (id : SessionId) (failed : Bool) {events : List (ViewId × ViewEvent)}
    (grows : Grows record w.host w'.host events) :
    record w'.host = record w.host ++ (w.told record id failed w').map (·.call) ∧
      ∀ view, History.life view (w.told record id failed w') =
        (eventsOf view events).map (id, ·) := by
  obtain ⟨calls, hcalls, rfl⟩ := grows
  have htold : w.told record id failed w' = calls.map (HistoryEntry.mk id failed) := by
    unfold World.told
    rw [hcalls, List.drop_left]
  constructor
  · rw [htold, hcalls, List.map_map]
    exact congrArg _ (List.map_id calls).symm
  · intro view
    rw [htold, History.life_calls]

/-- All that an operation adds names its session and whether it failed. -/
theorem World.eq_of_mem_told {failed : Bool} {e : HistoryEntry}
    (he : e ∈ w.told record id failed w') : e.session = id ∧ e.failed = failed := by
  obtain ⟨c, -, rfl⟩ := List.mem_map.1 he
  exact ⟨rfl, rfl⟩

/-- A view that is made after others, if none is made twice, has not had a life before. -/
theorem World.OnCourse.life_eq_nil (hw : w.OnCourse record history) {more : History}
    (hnodup : (History.makings (history ++ more)).Nodup) {view : ViewId} {id : SessionId}
    (hmade : (id, .made) ∈ History.life view more) : History.life view history = [] := by
  rcases (hw.lives view).single with hnil | ⟨maker, events, hlife⟩
  · exact hnil
  · have hbefore : (maker, ViewEvent.made) ∈ History.life view history := by
      rw [hlife]
      exact List.mem_cons_self
    rw [History.makings, List.filterMap_append] at hnodup
    exact ((List.disjoint_of_nodup_append hnodup) (History.mem_makings_iff.2 ⟨maker, hbefore⟩)
      (History.mem_makings_iff.2 ⟨id, hmade⟩)).elim

/-- One operation keeps the course, if it failed where the history says so. -/
theorem World.OnCourse.turn (hw : w.OnCourse record history) (turns : w.Turns record id r w')
    {failed : Bool} (hfailed : failed = true → ∃ e, r = .error e)
    (hnodup : (History.makings (history ++ w.told record id failed w')).Nodup) :
    w'.OnCourse record (history ++ w.told record id failed w') := by
  obtain ⟨events, hgrows, turn⟩ := turns
  obtain ⟨hrecord, hlife⟩ := World.told_spec id failed hgrows
  refine ⟨?_, ?_, ?_⟩
  · rw [List.map_append, hw.complete, hrecord]
  · intro view
    rw [History.life_append, hlife]
    refine turn.lives hw.lives ?_ view
    intro v hv
    have hmade : (id, .made) ∈ History.life v (w.told record id failed w') := by
      rw [hlife]
      exact List.mem_map_of_mem (mem_eventsOf.2 hv)
    exact hw.life_eq_nil hnodup hmade
  · -- Only an operation that makes a view and fails is new here, and it has ended the view.
    intro e view he hef hmade
    rw [History.life_append]
    rcases List.mem_append.1 he with hold | hnew
    · exact List.mem_append_left _ (hw.undone hold hef hmade)
    · obtain ⟨hid, hsame⟩ := World.eq_of_mem_told hnew
      obtain ⟨f, rfl⟩ := hfailed (hsame.symm.trans hef)
      have hmem : (e.session, .made) ∈ (eventsOf view events).map (id, ·) := by
        rw [← hlife]
        exact History.mem_life_iff.2 ⟨e, hnew, rfl, hmade⟩
      have hevent : (view, .made) ∈ events := by
        obtain ⟨x, hx, hpair⟩ := List.mem_map.1 hmem
        obtain rfl : x = .made := congrArg Prod.snd hpair
        exact mem_eventsOf.1 hx
      have hended : ViewEvent.ended ∈ eventsOf view events :=
        List.count_pos_iff.1 (by rw [turn.count_ended_of_error hevent]; exact Nat.one_pos)
      rw [hlife, hid]
      exact List.mem_append_right _ (List.mem_map_of_mem hended)

/-- The host is fit all along a run. -/
theorem ViewRun.fit (honours : host.Honours T) (run : ViewRun host T record w history) :
    T.fit w.host := by
  induction run with
  | start _ _ _ fits => exact fits
  | move _ m ih => exact m.run_fits honours ih
  | aside _ _ fits _ => exact fits

/-- Deeds only add to a history. -/
theorem historyAfter_extends (host : Host H C) (record : H → List HostCall) (deeds : List Deed) :
    ∀ (w : World H C) (history : History),
      ∃ more, historyAfter host record deeds w history = history ++ more := by
  induction deeds with
  | nil => exact fun _ history => ⟨[], (List.append_nil history).symm⟩
  | cons d deeds ih =>
    intro w history
    unfold historyAfter
    cases d.run host w with
    | ok x w' =>
      obtain ⟨more, hmore⟩ := ih w' (history ++ w.told record (d.subject w) false w')
      exact ⟨_, hmore.trans (List.append_assoc _ _ _)⟩
    | error e w' => exact ⟨_, rfl⟩

/-- Views that are made once in a longer history are so in its beginning. -/
theorem History.nodup_makings_of_append {more : History}
    (h : (History.makings (history ++ more)).Nodup) : (History.makings history).Nodup := by
  rw [History.makings, List.filterMap_append] at h
  exact h.of_append_left

/-- Some deeds in a row keep the course. -/
theorem World.OnCourse.deeds (honours : host.Honours T) (records : T.Records record)
    (deeds : List Deed) : ∀ {w : World H C} {history : History}, T.fit w.host →
      w.OnCourse record history →
      (History.makings (historyAfter host record deeds w history)).Nodup →
      (deeds.forM fun d => d.run host : Action H C Unit).Ensures w
        (fun _ w' => w'.OnCourse record (historyAfter host record deeds w history))
        (fun _ w' => w'.OnCourse record (historyAfter host record deeds w history)) := by
  induction deeds with
  | nil => exact fun _ hw _ => hw
  | cons d deeds ih =>
    intro w history hfit hw hnodup
    refine (d.run_does honours hfit).bind_eq ?_ ?_
    · rintro _ w₁ hrun ⟨hfit₁, hdoes⟩
      simp only [historyAfter, hrun] at hnodup ⊢
      -- No view is made twice in the whole history, so none is in the part up to here.
      obtain ⟨more, hmore⟩ := historyAfter_extends host record deeds w₁
        (history ++ w.told record (d.subject w) false w₁)
      have hfirst := History.nodup_makings_of_append (hmore ▸ hnodup)
      exact ih hfit₁ (hw.turn (hdoes.turns records) (by simp) hfirst) hnodup
    · rintro e w₁ hrun ⟨-, hdoes⟩
      simp only [historyAfter, hrun] at hnodup ⊢
      exact hw.turn (hdoes.turns records) (fun _ => ⟨e, rfl⟩) hnodup

/-- A run keeps the course, if no view is made twice. -/
theorem ViewRun.onCourse (honours : host.Honours T) (records : T.Records record)
    (run : ViewRun host T record w history) (hnodup : (History.makings history).Nodup) :
    w.OnCourse record history := by
  induction run with
  | @start w noSessions noEntries noCalls fits =>
    refine ⟨noCalls.symm, fun view => .unmade fun i => ?_, fun he => by cases he⟩
    rw [show w.shown i = none from World.seen_of_empty noSessions]
    exact (Option.some_ne_none view).symm
  | @move w history before m ih =>
    obtain ⟨more, hmore⟩ := historyAfter_extends host record (m.deeds w) w history
    have hw := ih (History.nodup_makings_of_append (hmore ▸ hnodup))
    refine Action.Ensures.outcome (P := fun _ w' =>
      w'.OnCourse record (historyAfter host record (m.deeds w) w history)) ?_
    unfold Action.Ensures
    rw [m.run_eq]
    exact hw.deeds honours records (m.deeds w) (before.fit honours) hnodup
  | aside _ kept _ ih =>
    have hw := ih hnodup
    exact ⟨hw.complete.trans kept.symm, hw.lives, hw.undone⟩

/-- Nothing has changed but the host, and it was neither asked to make, fill or end a view nor
subscribed to. -/
def World.Ignored (record : H → List HostCall) (w w' : World H C) : Prop :=
  w'.sessions = w.sessions ∧ w'.registry = w.registry ∧
    ∃ calls, record w'.host = record w.host ++ calls ∧ ∀ c ∈ calls, c.handles = false

/-- The views were handled by the rules, and events will be ignored where they should. -/
structure World.KeepsViews (host : Host H C) (record : H → List HostCall) (history : History)
    (w : World H C) : Prop where
  complete : history.map (·.call) = record w.host
  endedOnce : ∀ view, History.endings view history ≤ 1
  /-- A view is not filled once it was to be ended. -/
  notFilledAfter : ∀ {before after e view result}, history = before ++ e :: after →
    e.call = .destroyView view result →
    ∀ e' ∈ after, ∀ lines result', e'.call ≠ .showLines view lines result'
  /-- The session that fills a view, and no other, has made it. -/
  filledByMaker : ∀ {e view lines result}, e ∈ history → e.call = .showLines view lines result →
    ∀ id, (∃ e' ∈ history, e'.session = id ∧ ∃ title, e'.call = .createView title (.ok view)) ↔
      id = e.session
  endedIfFailed : ∀ {e title view}, e ∈ history → e.call = .createView title (.ok view) →
    e.failed = true → History.endings view history = 1
  /-- A session that is not active shows no view. -/
  endedUnlessShown : ∀ {e title view}, e ∈ history → e.call = .createView title (.ok view) →
    History.endings view history = if w.shown e.session = some view then 0 else 1
  ignored : ∀ {id s}, w.sessions[id]? = some s → s.state = .inactive → ∀ event,
    (Session.notify host id event).Ensures w (fun _ w' => w.Ignored record w')
      (fun _ w' => w.Ignored record w')

/-- Looking around asks for nothing about views. -/
theorem World.Looked.ignored (records : T.Records record) (looked : w.Looked T w') :
    w.Ignored record w' := by
  obtain ⟨h, c, rfl, -, looks⟩ := looked
  exact ⟨rfl, rfl, records.looksAround looks⟩

/-- All along a run no view is ended twice. -/
theorem World.OnCourse.endings_le_one (hw : w.OnCourse record history) (view : ViewId) :
    History.endings view history ≤ 1 := by
  rw [History.endings_eq]
  exact (hw.lives view).endings_le_one

/-- All along a run no view is filled after it was to be ended. -/
theorem World.OnCourse.not_filled_after (hw : w.OnCourse record history)
    {before after : History} {e : HistoryEntry} {view : ViewId} {result : Except Failure Unit}
    (hhistory : history = before ++ e :: after) (he : e.call = .destroyView view result)
    {e' : HistoryEntry} (hafter : e' ∈ after) (lines : List ViewLine)
    (result' : Except Failure Unit) : e'.call ≠ .showLines view lines result' := by
  intro hfill
  have hfilled : (e'.session, .filled) ∈ History.life view after :=
    History.mem_life_iff.2 ⟨e', hafter, rfl, by rw [hfill]; rfl⟩
  have hlife := hw.lives view
  have hended : History.life view [e] = [(e.session, .ended)] := by
    simp [History.life, he, HostCall.viewEvent?]
  rw [hhistory, History.life_append, ← List.singleton_append, History.life_append, hended] at hlife
  have hnil : History.life view after = [] := hlife.eq_nil_of_ended
  rw [hnil] at hfilled
  cases hfilled

/-- All along a run a view is filled by the session that made it and by no other. -/
theorem World.OnCourse.maker_eq (hw : w.OnCourse record history) {e : HistoryEntry}
    (he : e ∈ history) {view : ViewId} {lines : List ViewLine} {result : Except Failure Unit}
    (hfill : e.call = .showLines view lines result) (id : SessionId) :
    (∃ e' ∈ history, e'.session = id ∧ ∃ title, e'.call = .createView title (.ok view)) ↔
      id = e.session := by
  have hfilled : (e.session, .filled) ∈ History.life view history :=
    History.mem_life_iff.2 ⟨e, he, rfl, by rw [hfill]; rfl⟩
  simp only [← HostCall.made_iff, ← History.mem_life_iff]
  constructor
  · exact fun hmade => (hw.lives view).session_unique hfilled hmade
  · rintro rfl
    exact (hw.lives view).maker_mem hfilled

/-- All along a run a view that was made has been ended unless its session shows it. -/
theorem World.OnCourse.endings_of_made (hw : w.OnCourse record history) {e : HistoryEntry}
    (he : e ∈ history) {view : ViewId} {title : String}
    (hmake : e.call = .createView title (.ok view)) :
    History.endings view history = if w.shown e.session = some view then 0 else 1 := by
  have hmade : (e.session, .made) ∈ History.life view history :=
    History.mem_life_iff.2 ⟨e, he, rfl, by rw [hmake]; rfl⟩
  rw [History.endings_eq]
  rcases (hw.lives view).endings_eq hmade with ⟨hshown, hcount⟩ | ⟨hnot, hcount⟩
  · rw [if_pos hshown, hcount]
  · rw [if_neg hnot, hcount]

/-- All along a run a view that was made in an operation that failed has been ended. -/
theorem World.OnCourse.endings_of_failed (hw : w.OnCourse record history) {e : HistoryEntry}
    (he : e ∈ history) {view : ViewId} {title : String}
    (hmake : e.call = .createView title (.ok view)) (hfailed : e.failed = true) :
    History.endings view history = 1 := by
  have hended := hw.undone he hfailed (HostCall.made_iff.2 ⟨title, hmake⟩)
  refine Nat.le_antisymm (hw.endings_le_one view) ?_
  rw [History.endings_eq]
  exact List.countP_pos_iff.2 ⟨_, hended, by simp⟩

/-- In every world that a run reaches, each view has been ended once at most, was not filled after
that, and filled only by the session that made it; it has been ended exactly once if the operation
that made it failed or its session does not show it any more. An event that is announced to a
session that is not active is ignored. -/
theorem ViewRun.keepsViews (honours : host.Honours T) (records : T.Records record)
    (run : ViewRun host T record w history) (hnodup : (History.makings history).Nodup) :
    w.KeepsViews host record history := by
  have hw := run.onCourse honours records hnodup
  refine ⟨hw.complete, hw.endings_le_one, ?_, ?_, ?_, ?_, ?_⟩
  · intro before after e view result hhistory he e' hafter
    exact hw.not_filled_after hhistory he hafter
  · exact fun he hfill => hw.maker_eq he hfill
  · exact fun he hmake => hw.endings_of_failed he hmake
  · exact fun he hmake => hw.endings_of_made he hmake
  · intro id s hs hinactive event
    have hnone := Session.state_eq_inactive_iff.1 hinactive
    exact (Session.notify_onlyLooks_of_inactive honours (run.fit honours) hs hnone event).mono
      (fun _ _ looked => looked.ignored records) (fun _ _ looked => looked.ignored records)

end

/-! ## A run in which much fails

A session that is disabled loses a subscription first, and then its view cannot be ended. When it
is enabled again, it gets no further than its last subscription, and the view it made cannot be
ended either. After that an event comes in.
-/

namespace Scenario.Stage

/-- The watched world with some calls set to fail. -/
def watchedFailingAt (points : List Point) (w : World (Watched Stage) (Roster StageStep)) :
    World (Watched Stage) (Roster StageStep) :=
  w.beside ⟨{ w.host.inner with failing := points }, w.host.calls⟩ w.client

/-- The world and the history after a move, with the calls that fail from then on. -/
def after (c : World (Watched Stage) (Roster StageStep) × History) (x : List Point × Move) :
    World (Watched Stage) (Roster StageStep) × History :=
  (((x.2.run quiet.watched).outcome (watchedFailingAt x.1 c.1)).2,
    historyAfter quiet.watched Watched.calls (x.2.deeds (watchedFailingAt x.1 c.1))
      (watchedFailingAt x.1 c.1) c.2)

/-- The world and the history after some moves. -/
def chronicle (moves : List (List Point × Move)) :
    World (Watched Stage) (Roster StageStep) × History :=
  moves.foldl after ({ host := ⟨pair, []⟩, client := {} }, [])

/-- The moves of a chronicle make up a run. -/
theorem viewRun_chronicle (moves : List (List Point × Move)) :
    ViewRun quiet.watched (terms Point.all).watched Watched.calls (chronicle moves).1
      (chronicle moves).2 := by
  induction moves using List.reverseRecOn with
  | nil => exact .start rfl rfl rfl ⟨rfl, by decide⟩
  | append_singleton moves x ih =>
    have hall : ∀ p : Point, p ∈ Point.all := by
      intro p
      cases p <;> decide
    have hhooks := (ih.fit (host_honours _ _).watched).1
    have hfailing : ViewRun quiet.watched (terms Point.all).watched Watched.calls
        (watchedFailingAt x.1 (chronicle moves).1) (chronicle moves).2 :=
      .aside ih rfl ⟨hhooks, fun p _ => hall p⟩
    unfold chronicle
    rw [List.foldl_append]
    exact hfailing.move x.2

/-- A view is opened, two attempts to end it fail at different calls, opening another one fails as
well, and then the session is notified. -/
def troubles : List (List Point × Move) := [
  ([], .step (.call (.enable 0 {}))),
  ([.endDestroy], .step (.call (.disable 0))),
  ([.destroyView], .step (.call (.disable 0))),
  ([.subscribeDestroy, .destroyView], .enableSession 0),
  ([], .step (.announce .commit [0]))]

/-- Through some troubles two views are made, and all that is said of views holds there. -/
theorem troubles_keepViews :
    History.makings (chronicle troubles).2 = [0, 1] ∧
      (chronicle troubles).1.KeepsViews quiet.watched Watched.calls (chronicle troubles).2 := by
  have hmakings : History.makings (chronicle troubles).2 = [0, 1] := by decide +kernel
  have hnodup : (History.makings (chronicle troubles).2).Nodup := by
    rw [hmakings]
    decide
  exact ⟨hmakings, ViewRun.keepsViews (host_honours _ _).watched (Terms.watched_records _)
    (viewRun_chronicle troubles) hnodup⟩

end Scenario.Stage

end TreeInspector
