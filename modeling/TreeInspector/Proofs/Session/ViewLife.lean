import Mathlib.Data.List.Basic
import Mathlib.Data.List.Induction
import Mathlib.Logic.Function.Basic
import TreeInspector.Proofs.Session.Record

/-!
# The life of a view

To a host, the life of a view is a series of calls: it is made, filled any number of times, ended.
`Life` lists the lives that a view can have, and `Turn` what one operation of a session can add to
them. Whoever keeps to such turns fills and ends only views of its own making, and each of them is
ended once and never filled after that.
-/

set_option autoImplicit false

namespace TreeInspector

/-- What becomes of a view. -/
inductive ViewEvent where
  | made
  | filled
  | ended
  deriving DecidableEq

namespace HostCall

/-- The view that a call is about and what becomes of it. Filling or ending a view counts also if
the host fails to do it. -/
def viewEvent? : HostCall → Option (ViewId × ViewEvent)
  | .createView _ (.ok view) => some (view, .made)
  | .showLines view _ _ => some (view, .filled)
  | .destroyView view _ => some (view, .ended)
  | _ => none

/-- The call is to end the view. -/
def ends (view : ViewId) : HostCall → Bool
  | .destroyView v _ => v = view
  | _ => false

/-- The call is to make, fill or end a view, or to subscribe. -/
def handles : HostCall → Bool
  | .createView .. | .showLines .. | .destroyView .. | .subscribe .. => true
  | _ => false

/-- A call that handles no view is not about one. -/
theorem viewEvent?_of_handles {c : HostCall} (h : c.handles = false) : c.viewEvent? = none := by
  cases c with
  | createView | showLines | destroyView => cases h
  | _ => rfl

/-- A call is to end a view iff that becomes of the view. -/
theorem ends_iff {view : ViewId} {c : HostCall} :
    c.ends view = true ↔ c.viewEvent? = some (view, .ended) := by
  cases c with
  | createView title result => cases result <;> simp [ends, viewEvent?]
  | _ => simp [ends, viewEvent?]

/-- A view has been made by a call that gave it. -/
theorem made_iff {view : ViewId} {c : HostCall} :
    c.viewEvent? = some (view, .made) ↔ ∃ title, c = .createView title (.ok view) := by
  cases c with
  | createView title result => cases result <;> simp [viewEvent?]
  | _ => simp [viewEvent?]

/-- The view that a call gives is the one that it makes. -/
theorem view?_eq_some_iff {view : ViewId} {c : HostCall} :
    c.view? = some view ↔ c.viewEvent? = some (view, .made) := by
  cases c with
  | createView title result => cases result <;> simp [viewEvent?]
  | _ => simp [viewEvent?]

end HostCall

/-! ## Lives -/

/-- A call to a host, with the session whose operation made it and whether that operation failed. -/
structure HistoryEntry where
  session : SessionId
  failed : Bool
  call : HostCall

/-- The calls to a host, in order. -/
abbrev History := List HistoryEntry

namespace History

/-- What became of a view, and by which session, in the order in which it happened. -/
def life (view : ViewId) (history : History) : List (SessionId × ViewEvent) :=
  history.filterMap fun e =>
    e.call.viewEvent?.bind fun x => if x.1 = view then some (e.session, x.2) else none

/-- The number of calls to end a view. -/
def endings (view : ViewId) (history : History) : Nat := history.countP fun e => e.call.ends view

/-- The views that were made. -/
def makings (history : History) : List ViewId := history.filterMap fun e => e.call.view?

/-- Lives go on through a longer history. -/
theorem life_append (view : ViewId) (history more : History) :
    life view (history ++ more) = life view history ++ life view more :=
  List.filterMap_append

/-- What became of a view is what the calls about it say. -/
theorem mem_life_iff {view : ViewId} {history : History} {id : SessionId} {event : ViewEvent} :
    (id, event) ∈ life view history ↔
      ∃ e ∈ history, e.session = id ∧ e.call.viewEvent? = some (view, event) := by
  unfold life
  rw [List.mem_filterMap]
  refine exists_congr fun e => and_congr_right fun _ => ?_
  rw [Option.bind_eq_some_iff]
  constructor
  · rintro ⟨⟨v, x⟩, hcall, hsome⟩
    obtain ⟨hv, hpair⟩ := Option.ite_none_right_eq_some.1 hsome
    cases hpair
    exact ⟨rfl, hv ▸ hcall⟩
  · rintro ⟨rfl, hcall⟩
    exact ⟨_, hcall, by simp⟩

/-- The endings of a view are those in its life. -/
theorem endings_eq (view : ViewId) (history : History) :
    endings view history = (life view history).countP fun e => e.2 = .ended := by
  unfold endings life
  rw [List.countP_filterMap]
  refine List.countP_congr fun e _ => ?_
  rw [HostCall.ends_iff]
  cases e.call.viewEvent? with
  | none => simp
  | some x =>
    obtain ⟨v, event⟩ := x
    by_cases hv : v = view
    · simp [hv]
    · simp [hv]

/-- The views that were made are those whose lives say so. -/
theorem mem_makings_iff {view : ViewId} {history : History} :
    view ∈ makings history ↔ ∃ id, (id, .made) ∈ life view history := by
  unfold makings
  simp only [List.mem_filterMap, HostCall.view?_eq_some_iff, mem_life_iff]
  constructor
  · rintro ⟨e, he, hcall⟩
    exact ⟨e.session, e, he, rfl, hcall⟩
  · rintro ⟨id, e, he, -, hcall⟩
    exact ⟨e, he, hcall⟩

end History

/-- The part of some events that is about one view. -/
def eventsOf (view : ViewId) (events : List (ViewId × ViewEvent)) : List ViewEvent :=
  events.filterMap fun x => if x.1 = view then some x.2 else none

/-- All events of one view are about it. -/
theorem eventsOf_same (view : ViewId) (events : List ViewEvent) :
    eventsOf view (events.map (view, ·)) = events := by
  unfold eventsOf
  rw [List.filterMap_map]
  simp

/-- No event of another view is about it. -/
theorem eventsOf_other {view other : ViewId} (h : other ≠ view) (events : List ViewEvent) :
    eventsOf view (events.map (other, ·)) = [] := by
  unfold eventsOf
  rw [List.filterMap_map]
  simp [h]

/-- What is about a view among some events are its own events. -/
theorem mem_eventsOf {view : ViewId} {events : List (ViewId × ViewEvent)} {event : ViewEvent} :
    event ∈ eventsOf view events ↔ (view, event) ∈ events := by
  unfold eventsOf
  rw [List.mem_filterMap]
  constructor
  · rintro ⟨x, hx, hsome⟩
    obtain ⟨rfl, heq⟩ := Option.ite_none_right_eq_some.1 hsome
    cases heq
    exact hx
  · intro h
    exact ⟨_, h, if_pos rfl⟩

/-- Calls of one operation, as they appear in the lives of views. -/
theorem History.life_calls (view : ViewId) (id : SessionId) (failed : Bool)
    (calls : List HostCall) :
    History.life view (calls.map (HistoryEntry.mk id failed)) =
      (eventsOf view (calls.filterMap HostCall.viewEvent?)).map (id, ·) := by
  unfold History.life eventsOf
  rw [List.filterMap_map, List.filterMap_filterMap, List.map_filterMap]
  refine List.filterMap_congr fun c _ => ?_
  rw [Function.comp_apply]
  cases c.viewEvent? with
  | none => rfl
  | some x => by_cases hx : x.1 = view <;> simp [hx]

/-- The lives a view can have, given which sessions show it. It has not been made yet; or it was
made and filled by the session that shows it; or the same session has ended it, and none shows
it. -/
inductive Life (shows : SessionId → Prop) : List (SessionId × ViewEvent) → Prop where
  | unmade (none : ∀ i, ¬ shows i) : Life shows []
  | shown {id : SessionId} {n : Nat} (only : ∀ i, shows i ↔ i = id) :
      Life shows ((.made :: List.replicate n .filled).map (id, ·))
  | finished {id : SessionId} {n : Nat} (none : ∀ i, ¬ shows i) :
      Life shows ((ViewEvent.made :: List.replicate n .filled ++ [ViewEvent.ended]).map (id, ·))

namespace Life

variable {shows shows' : SessionId → Prop} {life : List (SessionId × ViewEvent)} {id : SessionId}

/-- A life does not depend on how it is said who shows the view. -/
theorem congr (h : Life shows life) (hsame : ∀ i, shows' i ↔ shows i) : Life shows' life := by
  have heq : shows' = shows := funext fun i => propext (hsame i)
  rw [heq]
  exact h

/-- The session that shows a view may fill it. -/
theorem fill (h : Life shows life) (hid : shows id) (n : Nat) :
    Life shows (life ++ (List.replicate n .filled).map (id, ·)) := by
  cases h with
  | unmade none => exact (none id hid).elim
  | @shown id' k only =>
    obtain rfl : id = id' := (only id).1 hid
    rw [← List.map_append, List.cons_append, List.replicate_append_replicate]
    exact .shown only
  | finished none => exact (none id hid).elim

/-- The session that shows a view may end it. -/
theorem finish (h : Life shows life) (hid : shows id) (hless : ∀ i, shows' i → shows i ∧ i ≠ id) :
    Life shows' (life ++ [ViewEvent.ended].map (id, ·)) := by
  cases h with
  | unmade none => exact (none id hid).elim
  | @shown id' k only =>
    obtain rfl : id = id' := (only id).1 hid
    rw [← List.map_append]
    exact .finished fun i hi => (hless i hi).2 ((only i).1 (hless i hi).1)
  | finished none => exact (none id hid).elim

/-- A view that has not been made is shown by none. -/
theorem none_of_nil (h : Life shows []) (i : SessionId) : ¬ shows i := by
  generalize hlife : ([] : List (SessionId × ViewEvent)) = life at h
  cases h with
  | unmade none => exact none i
  | shown only => cases hlife
  | finished none => cases hlife

/-- One session does everything to a view, beginning with making it. -/
theorem single (h : Life shows life) :
    life = [] ∨ ∃ id events, life = (ViewEvent.made :: events).map (id, ·) := by
  cases h with
  | unmade none => exact .inl rfl
  | shown only => exact .inr ⟨_, _, rfl⟩
  | finished none => exact .inr ⟨_, _, rfl⟩

/-- Whoever did something to a view had made it. -/
theorem maker_mem (h : Life shows life) {event : ViewEvent} (hmem : (id, event) ∈ life) :
    (id, .made) ∈ life := by
  rcases h.single with rfl | ⟨id', events, rfl⟩
  · cases hmem
  · obtain ⟨_, -, heq⟩ := List.mem_map.1 hmem
    obtain rfl : id' = id := congrArg Prod.fst heq
    exact List.mem_cons_self

/-- Only one session does anything to a view. -/
theorem session_unique (h : Life shows life) {id' : SessionId} {event event' : ViewEvent}
    (hmem : (id, event) ∈ life) (hmem' : (id', event') ∈ life) : id' = id := by
  rcases h.single with rfl | ⟨maker, events, rfl⟩
  · cases hmem
  · obtain ⟨_, -, heq⟩ := List.mem_map.1 hmem
    obtain ⟨_, -, heq'⟩ := List.mem_map.1 hmem'
    exact (congrArg Prod.fst heq').symm.trans (congrArg Prod.fst heq)

/-- The endings in the life of a view are those among its events. -/
theorem countP_ended (id : SessionId) (events : List ViewEvent) :
    (events.map (id, ·)).countP (fun e => e.2 = .ended) = events.count .ended := by
  rw [List.countP_map, List.count]
  exact List.countP_congr fun e _ => by simp

/-- A view that was made has been ended once, unless the session that made it shows it. -/
theorem endings_eq (h : Life shows life) (hmade : (id, .made) ∈ life) :
    shows id ∧ life.countP (fun e => e.2 = .ended) = 0 ∨
      ¬ shows id ∧ life.countP (fun e => e.2 = .ended) = 1 := by
  cases h with
  | unmade none => cases hmade
  | @shown id' n only =>
    obtain ⟨_, -, heq⟩ := List.mem_map.1 hmade
    left
    refine ⟨(only id).2 (congrArg Prod.fst heq).symm, ?_⟩
    rw [countP_ended]
    simp [List.count_replicate]
  | finished none =>
    right
    refine ⟨none id, ?_⟩
    rw [countP_ended]
    simp [List.count_append, List.count_replicate]

/-- No view is ended twice. -/
theorem endings_le_one (h : Life shows life) : life.countP (fun e => e.2 = .ended) ≤ 1 := by
  rcases h.single with rfl | ⟨id, events, rfl⟩
  · simp
  · have hmade : (id, ViewEvent.made) ∈ (ViewEvent.made :: events).map (id, ·) :=
      List.mem_cons_self
    rcases h.endings_eq hmade with ⟨-, hcount⟩ | ⟨-, hcount⟩ <;> omega

/-- Nothing becomes of a view after it has been ended. -/
theorem eq_nil_of_ended {before after : List (SessionId × ViewEvent)}
    (h : Life shows (before ++ (id, .ended) :: after)) : after = [] := by
  generalize hlife : before ++ (id, .ended) :: after = life at h
  have hnot : ∀ (i : SessionId) (n : Nat),
      (id, ViewEvent.ended) ∉ (.made :: List.replicate n .filled).map (i, ·) := by
    intro i n
    simp
  have hmem : (id, ViewEvent.ended) ∈ life := by
    rw [← hlife]
    exact List.mem_append_right _ List.mem_cons_self
  cases h with
  | unmade none => cases hmem
  | shown only => exact (hnot _ _ hmem).elim
  | @finished id' n none =>
    -- If anything came after, the end before it would be among the makings and fillings.
    cases after using List.reverseRecOn with
    | nil => rfl
    | append_singleton after last _ =>
      rw [← List.cons_append, ← List.append_assoc, List.map_append] at hlife
      have hinit := (List.append_inj' hlife rfl).1
      refine (hnot id' n ?_).elim
      rw [← hinit]
      exact List.mem_append_right _ List.mem_cons_self

end Life

/-! ## What an operation does to the views -/

/-- What an operation of a session can do to views, with those that the sessions show before and
after it. It fills the view that it shows, or ends it; or the session showed none, and a view is
made that it shows from then on, or that is ended at once because the operation fails. -/
inductive Turn (id : SessionId) (shown : SessionId → Option ViewId) :
    Except Failure Unit → List (ViewId × ViewEvent) → (SessionId → Option ViewId) → Prop where
  | idle {r : Except Failure Unit} : Turn id shown r [] shown
  | fills {r : Except Failure Unit} {view : ViewId} {n : Nat} (own : shown id = some view) :
      Turn id shown r ((List.replicate n .filled).map (view, ·)) shown
  | ends {r : Except Failure Unit} {view : ViewId} (own : shown id = some view) :
      Turn id shown r ([ViewEvent.ended].map (view, ·)) (Function.update shown id none)
  | undone {e : Failure} {view : ViewId} {n : Nat} (idle : shown id = none) :
      Turn id shown (.error e)
        ((ViewEvent.made :: List.replicate n .filled ++ [ViewEvent.ended]).map (view, ·)) shown
  | opens {view : ViewId} (idle : shown id = none) :
      Turn id shown (.ok ()) ([ViewEvent.made, .filled].map (view, ·))
        (Function.update shown id (some view))

namespace Turn

variable {id : SessionId} {shown shown' : SessionId → Option ViewId} {r : Except Failure Unit}
  {events : List (ViewId × ViewEvent)} {life : ViewId → List (SessionId × ViewEvent)}

/-- A view that the session neither shows nor comes to show is shown by the same sessions. -/
theorem update_eq_some_iff {view : ViewId} {next : Option ViewId} (hid : shown id ≠ some view)
    (hnext : next ≠ some view) (i : SessionId) :
    Function.update shown id next i = some view ↔ shown i = some view := by
  by_cases hi : i = id
  · subst hi
    rw [Function.update_self]
    exact iff_of_false hnext hid
  · rw [Function.update_of_ne hi]

/-- Views keep to one of the lives they can have, if the ones made are new. -/
theorem lives (turn : Turn id shown r events shown')
    (h : ∀ view, Life (fun i => shown i = some view) (life view))
    (hnew : ∀ view, (view, .made) ∈ events → life view = []) (view : ViewId) :
    Life (fun i => shown' i = some view) (life view ++ (eventsOf view events).map (id, ·)) := by
  -- Whatever the turn does, it does to one view; all others stay as they are.
  have hsame : ∀ {v : ViewId} (hv : v ≠ view) (es : List ViewEvent),
      (∀ i, shown' i = some view ↔ shown i = some view) → Life (fun i => shown' i = some view)
        (life view ++ (eventsOf view (es.map (v, ·))).map (id, ·)) := by
    intro v hv es hshown
    rw [eventsOf_other hv, List.map_nil, List.append_nil]
    exact (h view).congr hshown
  cases turn with
  | idle => simpa [eventsOf] using h view
  | @fills _ v n own =>
    by_cases hv : v = view
    · subst hv
      rw [eventsOf_same]
      exact (h v).fill own n
    · exact hsame hv _ fun _ => Iff.rfl
  | @ends _ v own =>
    by_cases hv : v = view
    · subst hv
      rw [eventsOf_same]
      refine (h v).finish own fun i hi => ?_
      by_cases hid : i = id
      · simp [hid] at hi
      · rw [Function.update_of_ne hid] at hi
        exact ⟨hi, hid⟩
    · exact hsame hv _ (update_eq_some_iff (by simp [own, hv]) (by simp))
  | @undone _ v n idle =>
    by_cases hv : v = view
    · subst hv
      have hlife := hnew v List.mem_cons_self
      have hnone := (hlife ▸ h v).none_of_nil
      rw [eventsOf_same, hlife, List.nil_append]
      exact .finished hnone
    · exact hsame hv _ fun _ => Iff.rfl
  | @opens v idle =>
    by_cases hv : v = view
    · subst hv
      have hlife := hnew v List.mem_cons_self
      have hnone := (hlife ▸ h v).none_of_nil
      rw [eventsOf_same, hlife, List.nil_append]
      refine .shown (n := 1) fun i => ?_
      by_cases hid : i = id
      · simp [hid]
      · rw [Function.update_of_ne hid]
        exact iff_of_false (hnone i) hid
    · exact hsame hv _ (update_eq_some_iff (by simp [idle]) (by simpa using hv))

/-- An operation that fails ends every view that it has made, once. -/
theorem count_ended_of_error {e : Failure} (turn : Turn id shown (.error e) events shown')
    {view : ViewId} (hmade : (view, .made) ∈ events) : (eventsOf view events).count .ended = 1 := by
  cases turn with
  | idle => cases hmade
  | fills own => simp at hmade
  | ends own => simp at hmade
  | @undone _ v n idle =>
    obtain ⟨_, -, heq⟩ := List.mem_map.1 hmade
    obtain rfl : v = view := congrArg Prod.fst heq
    rw [eventsOf_same]
    simp [List.count_append, List.count_replicate]

end Turn

end TreeInspector
