import Mathlib.Data.List.Nodup
import Mathlib.Logic.Function.Basic
import TreeInspector.Session.Registry

/-!
# How sessions and the registry change

Operations change the table of sessions one session at a time and the registry one entry at a time.
This module names the changes and says what can be seen of a session, or of the registry, after
each of them.
-/

set_option autoImplicit false

namespace TreeInspector

namespace Session

/-- The session with other subscriptions in one of its bindings. -/
def keeping (b : Nat) (subscriptions : List SubscriptionId) (s : Session) : Session :=
  { s with bindings := s.bindings.modify b ({ · with subscriptions := subscriptions }) }

/-- The session with other lines in one of its bindings. -/
def showing (b : Nat) (lines : List ViewLine) (s : Session) : Session :=
  { s with bindings := s.bindings.modify b ({ · with lines := lines }) }

/-- The session after it has ended for a reason. -/
def ended (reason : EndReason) (s : Session) : Session :=
  { s with current := none, endReason := some reason }

/-- The session after it has been bound. -/
def bound (binding : Binding) (s : Session) : Session :=
  { s with
    bindings := s.bindings ++ [binding]
    current := some s.bindings.length
    endReason := none }

/-- A session is bound by the one of its bindings that is current. -/
theorem binding?_eq_some_iff {s : Session} {binding : Binding} :
    s.binding? = some binding ↔ ∃ b, s.current = some b ∧ s.bindings[b]? = some binding := by
  unfold binding?
  cases s.current with
  | none => simp
  | some b => simp

/-- A bound session that keeps other subscriptions differs in those. -/
theorem binding?_keeping {s : Session} {b : Nat} {binding : Binding} (hb : s.current = some b)
    (hbinding : s.bindings[b]? = some binding) (subscriptions : List SubscriptionId) :
    (s.keeping b subscriptions).binding? = some { binding with subscriptions } := by
  simp [binding?, keeping, hb, hbinding]

/-- A bound session that shows other lines differs in those. -/
theorem binding?_showing {s : Session} {b : Nat} {binding : Binding} (hb : s.current = some b)
    (hbinding : s.bindings[b]? = some binding) (lines : List ViewLine) :
    (s.showing b lines).binding? = some { binding with lines } := by
  simp [binding?, showing, hb, hbinding]

/-- A session that has been bound is bound so. -/
@[simp]
theorem binding?_bound (binding : Binding) (s : Session) :
    (s.bound binding).binding? = some binding := by
  simp [binding?, bound]

/-- The subscriptions that were kept last count. -/
theorem keeping_keeping (b : Nat) (first second : List SubscriptionId) (s : Session) :
    (s.keeping b first).keeping b second = s.keeping b second := by
  simp only [keeping, List.modify_modify_eq]
  rfl

/-- Giving a binding the subscriptions it has changes nothing. -/
theorem keeping_self {s : Session} {b : Nat} {binding : Binding}
    (hbinding : s.bindings[b]? = some binding) : s.keeping b binding.subscriptions = s := by
  have hsame : s.bindings.modify b ({ · with subscriptions := binding.subscriptions }) =
      s.bindings := by
    apply List.ext_getElem?
    intro i
    rw [List.getElem?_modify]
    by_cases hi : b = i
    · subst hi
      simp [hbinding]
    · simp [hi]
  unfold keeping
  rw [hsame]

/-- A session is active iff it is bound. -/
theorem state_eq_active_iff {s : Session} : s.state = .active ↔ ∃ b, s.binding? = some b := by
  unfold state
  cases s.binding? with
  | none => simp
  | some b => simp

/-- A session is inactive iff it is not bound. -/
theorem state_eq_inactive_iff {s : Session} : s.state = .inactive ↔ s.binding? = none := by
  unfold state
  cases s.binding? with
  | none => simp
  | some b => simp

end Session

namespace World

section

variable {H C : Type}

/-- Changing a session changes no other. -/
theorem getElem?_modifySession (id other : SessionId) (f : Session → Session) (w : World H C) :
    (w.modifySession id f).sessions[other]? =
      if id = other then w.sessions[other]?.map f else w.sessions[other]? := by
  unfold modifySession
  rw [List.getElem?_modify]
  by_cases h : id = other
  · simp [h]
  · simp [h]

/-- A session that is changed becomes what it is changed to. -/
theorem getElem?_modifySession_self {id : SessionId} {s : Session} {w : World H C}
    (hs : w.sessions[id]? = some s) (f : Session → Session) :
    (w.modifySession id f).sessions[id]? = some (f s) := by
  rw [getElem?_modifySession, if_pos rfl, hs, Option.map_some]

/-- Two changes of a session are one. -/
theorem modifySession_modifySession (id : SessionId) (f g : Session → Session) (w : World H C) :
    (w.modifySession id f).modifySession id g = w.modifySession id fun s => g (f s) := by
  simp only [modifySession, List.modify_modify_eq]
  rfl

/-- A change that leaves the session as it is leaves the world as it is. -/
theorem modifySession_eq_self {id : SessionId} {s : Session} {w : World H C}
    {f : Session → Session} (hs : w.sessions[id]? = some s) (hf : f s = s) :
    w.modifySession id f = w := by
  have hsame : w.sessions.modify id f = w.sessions := by
    apply List.ext_getElem?
    intro i
    rw [List.getElem?_modify]
    by_cases hi : id = i
    · subst hi
      simp [hs, hf]
    · simp [hi]
  unfold modifySession
  rw [hsame]

/-- What a look at a session shows, if the session exists. -/
def seen {α : Type} (look : Session → Option α) (w : World H C) (id : SessionId) : Option α :=
  w.sessions[id]?.bind look

section

variable {α : Type} {look : Session → Option α} {w : World H C} {id : SessionId} {s : Session}

/-- What is seen of a session is what a look at it shows. -/
theorem seen_eq (hs : w.sessions[id]? = some s) : w.seen look id = look s := by
  unfold seen
  rw [hs, Option.bind_some]

/-- Changing a session shows in it and in no other. -/
theorem seen_modifySession (hs : w.sessions[id]? = some s) (f : Session → Session) :
    (w.modifySession id f).seen look = Function.update (w.seen look) id (look (f s)) := by
  funext other
  unfold seen
  rw [getElem?_modifySession, Function.update_apply]
  by_cases hid : other = id
  · subst hid
    simp [hs]
  · rw [if_neg (Ne.symm hid), if_neg hid]

/-- A change of a session that cannot be seen leaves everything as it was seen. -/
theorem seen_modifySession_same (hs : w.sessions[id]? = some s) {f : Session → Session}
    (hf : look (f s) = look s) : (w.modifySession id f).seen look = w.seen look := by
  have hsame : look s = w.seen look id := (seen_eq hs).symm
  rw [seen_modifySession hs, hf, hsame, Function.update_eq_self]

end

/-- The world after the registry was told that a session has ended. -/
def released (id : SessionId) (s : Session) (w : World H C) : World H C :=
  { w with
    registry :=
      if s.registered = true ∧ w.sessionFor? s.source = some id then
        w.registry.filter fun e => e.1 ≠ s.source
      else w.registry }

/-- The world with one more session. -/
def withSession (s : Session) (w : World H C) : World H C :=
  { w with sessions := w.sessions ++ [s] }

/-- One more session shows, and the others show what they did. -/
theorem seen_withSession {α : Type} (look : Session → Option α) (s : Session) (w : World H C) :
    (w.withSession s).seen look =
      Function.update (w.seen look) w.sessions.length (look s) := by
  funext other
  unfold seen withSession
  rw [List.getElem?_append, Function.update_apply]
  by_cases hlt : other < w.sessions.length
  · rw [if_pos hlt, if_neg (Nat.ne_of_lt hlt)]
  · rw [if_neg hlt, List.getElem?_eq_none (Nat.le_of_not_lt hlt)]
    by_cases heq : other = w.sessions.length
    · simp [heq]
    · have hbeyond : w.sessions.length < other :=
        Nat.lt_of_le_of_ne (Nat.le_of_not_lt hlt) (Ne.symm heq)
      rw [if_neg heq, List.getElem?_eq_none (Nat.sub_pos_of_lt hbeyond)]

/-- The session that comes next cannot be seen yet. -/
theorem seen_length {α : Type} (look : Session → Option α) (w : World H C) :
    w.seen look w.sessions.length = none := by
  unfold seen
  rw [List.getElem?_eq_none (Nat.le_refl _), Option.bind_none]

/-- Without sessions nothing is seen. -/
theorem seen_of_empty {α : Type} {look : Session → Option α} {w : World H C} {id : SessionId}
    (h : w.sessions = []) : w.seen look id = none := by
  unfold seen
  rw [h, List.getElem?_nil, Option.bind_none]

/-- One more session that shows nothing makes no difference. -/
theorem seen_withSession_same {α : Type} {look : Session → Option α} {s : Session}
    (hs : look s = none) (w : World H C) : (w.withSession s).seen look = w.seen look := by
  have hnone : look s = w.seen look w.sessions.length := hs.trans (w.seen_length look).symm
  rw [seen_withSession, hnone, Function.update_eq_self]

/-! ## The session in charge of a source -/

/-- The session that the registry gives for a source is listed for it. -/
theorem mem_of_sessionFor?_eq_some {source : SourceId} {id : SessionId} {w : World H C}
    (h : w.sessionFor? source = some id) : (source, id) ∈ w.registry := by
  unfold sessionFor? at h
  obtain ⟨e, he, rfl⟩ := Option.map_eq_some_iff.1 h
  have hsource : e.1 = source := by simpa using List.find?_some he
  rw [← hsource]
  exact List.mem_of_find?_eq_some he

/-- In a registry with one entry for each source, the session in charge is the one listed. -/
theorem sessionFor?_eq_some_iff {w : World H C} (hnodup : (w.registry.map (·.1)).Nodup)
    {source : SourceId} {id : SessionId} :
    w.sessionFor? source = some id ↔ (source, id) ∈ w.registry := by
  refine ⟨mem_of_sessionFor?_eq_some, ?_⟩
  unfold sessionFor?
  generalize w.registry = registry at hnodup ⊢
  intro hmem
  induction registry with
  | nil => simp at hmem
  | cons e rest ih =>
    rw [List.map_cons, List.nodup_cons] at hnodup
    rcases List.mem_cons.1 hmem with rfl | hrest
    · simp
    · have hne : e.1 ≠ source := by
        intro he
        exact hnodup.1 (he ▸ List.mem_map_of_mem (f := (·.1)) hrest)
      simp only [List.find?_cons, hne, decide_false]
      exact ih hnodup.2 hrest

/-- The registry gives no session for a source iff none is listed for it. -/
theorem sessionFor?_eq_none_iff {source : SourceId} {w : World H C} :
    w.sessionFor? source = none ↔ ∀ id, (source, id) ∉ w.registry := by
  unfold sessionFor?
  rw [Option.map_eq_none_iff, List.find?_eq_none]
  constructor
  · intro h id hmem
    exact absurd (h _ hmem) (by simp)
  · intro h e he
    have hne : e.1 ≠ source := by
      rintro rfl
      exact h e.2 he
    simpa using hne

end

end World

namespace Registry

/-- A source that has no entry gets one behind the others. -/
theorem record_of_free {source : SourceId} {id : SessionId}
    {registry : List (SourceId × SessionId)} (h : ∀ other, (source, other) ∉ registry) :
    record source id registry = registry ++ [(source, id)] := by
  have hany : (registry.any fun e => e.1 = source) = false := by
    rw [List.any_eq_false]
    intro e he
    have hne : e.1 ≠ source := by
      rintro rfl
      exact h e.2 he
    simpa using hne
  unfold record
  rw [hany]
  rfl

/-- The registry lists who claims a source, and for each source one session at most. -/
structure Lists (registry : List (SourceId × SessionId)) (claims : SessionId → SourceId → Prop) :
    Prop where
  oneEach : (registry.map (·.1)).Nodup
  oneSource : ∀ {id source source'}, claims id source → claims id source' → source = source'
  listed : ∀ {source id}, (source, id) ∈ registry ↔ claims id source

namespace Lists

section

variable {registry : List (SourceId × SessionId)} {claims : SessionId → SourceId → Prop}
  {id : SessionId} {source : SourceId}

/-- What the registry lists does not depend on how the claims are said. -/
theorem congr {claims' : SessionId → SourceId → Prop} (h : Lists registry claims)
    (hsame : ∀ i s, claims' i s ↔ claims i s) : Lists registry claims' where
  oneEach := h.oneEach
  oneSource := fun hc hc' => h.oneSource ((hsame _ _).1 hc) ((hsame _ _).1 hc')
  listed := by
    intro source id
    rw [hsame]
    exact h.listed

/-- The registry gives the session that claims the source. -/
theorem sessionFor?_eq {H C : Type} {w : World H C} (h : Lists w.registry claims)
    (hclaim : claims id source) : w.sessionFor? source = some id :=
  (World.sessionFor?_eq_some_iff h.oneEach).2 (h.listed.2 hclaim)

/-- No two sessions claim the same source. -/
theorem id_eq (h : Lists registry claims) {id' : SessionId} (hclaim : claims id source)
    (hclaim' : claims id' source) : id' = id := by
  have hpair : (source, id') = (source, id) :=
    List.inj_on_of_nodup_map h.oneEach (h.listed.2 hclaim') (h.listed.2 hclaim) rfl
  exact congrArg Prod.snd hpair

/-- A session that gives up its claim takes the entry of its source with it. -/
theorem remove (h : Lists registry claims) (hclaim : claims id source) :
    Lists (registry.filter fun e => e.1 ≠ source) fun i s => i ≠ id ∧ claims i s where
  oneEach := h.oneEach.sublist (List.filter_sublist.map _)
  oneSource := fun hc hc' => h.oneSource hc.2 hc'.2
  listed := by
    intro source' id'
    have hmem : (source', id') ∈ registry.filter (fun e => e.1 ≠ source) ↔
        (source', id') ∈ registry ∧ source' ≠ source := by
      simp
    rw [hmem, and_comm]
    refine (and_congr_right' h.listed).trans (and_congr_left fun hclaim' => not_congr ⟨?_, ?_⟩)
    · rintro rfl
      exact h.id_eq hclaim hclaim'
    · rintro rfl
      exact h.oneSource hclaim' hclaim

/-- A session that claims a free source gets an entry. -/
theorem add (h : Lists registry claims) (free : ∀ other, (source, other) ∉ registry)
    (idle : ∀ s, ¬ claims id s) :
    Lists (registry ++ [(source, id)]) fun i s => i = id ∧ s = source ∨ claims i s where
  oneEach := by
    have hfree : source ∉ registry.map (·.1) := by
      intro hmem
      obtain ⟨entry, hentry, rfl⟩ := List.mem_map.1 hmem
      exact free entry.2 hentry
    rw [List.map_append, List.map_cons, List.map_nil, ← List.concat_eq_append]
    exact h.oneEach.concat hfree
  oneSource := by
    rintro id' s s' (⟨rfl, rfl⟩ | hc) (⟨hid, rfl⟩ | hc')
    · rfl
    · exact (idle _ hc').elim
    · exact (idle _ (hid ▸ hc)).elim
    · exact h.oneSource hc hc'
  listed := by
    intro source' id'
    rw [List.mem_append, List.mem_singleton, Prod.mk.injEq, h.listed, or_comm,
      and_comm (a := source' = source)]

end

end Lists

end Registry

end TreeInspector
