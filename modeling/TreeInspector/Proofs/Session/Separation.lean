import Mathlib.Order.SetNotation
import TreeInspector.Proofs.Session.Books
import TreeInspector.Proofs.Session.Changes
import TreeInspector.Proofs.Session.OneEach

/-!
# Keeping to one source

A host keeps something for each source and for each view, and calls someone for each subscription.
It is confined if a call changes only what it keeps for the source or the view that it is given.
`World.KeptTo` says of two worlds that everything between them kept to one source: all other
sources, their sessions, the views of these sessions and the registry are as before. It holds as
long as no two sources share a view or a subscription, which is what `World.Apart` says and what a
change that keeps to one source preserves.
-/

set_option autoImplicit false

namespace TreeInspector

/-- What a host keeps: something for each source, the content of each view that was made, and for
each subscription that was made, ended or not, who is called. -/
structure Parts (H A B : Type) where
  /-- The states that the host can be in. -/
  sound : H → Prop
  source : H → SourceId → A
  view : H → ViewId → Option B
  subscriber : H → SubscriptionId → Option Subscriber

section

variable {H C A B α β : Type} {P : Parts H A B}

namespace Parts

/-- Nothing has changed but the sources and the views given, and only those given are newly
called. -/
structure Within (P : Parts H A B) (sources : Set SourceId) (views : Set ViewId)
    (callers : Set Subscriber) (h h' : H) : Prop where
  source : ∀ {i}, i ∉ sources → P.source h' i = P.source h i
  view : ∀ {v}, v ∉ views → (P.view h v).isSome → P.view h' v = P.view h v
  made : ∀ {v}, (P.view h v).isSome → (P.view h' v).isSome
  subscriber : ∀ {sub who}, P.subscriber h sub = some who → P.subscriber h' sub = some who
  newcomer : ∀ {sub who}, P.subscriber h' sub = some who →
    P.subscriber h sub = some who ∨ who ∈ callers

/-- What keeps within some bounds keeps within wider ones. -/
theorem Within.mono {sources sources' : Set SourceId} {views views' : Set ViewId}
    {callers callers' : Set Subscriber} {h h' : H} (within : P.Within sources views callers h h')
    (hsources : sources ⊆ sources') (hviews : views ⊆ views') (hcallers : callers ⊆ callers') :
    P.Within sources' views' callers' h h' where
  source hi := within.source fun hmem => hi (hsources hmem)
  view hv := within.view fun hmem => hv (hviews hmem)
  made := within.made
  subscriber := within.subscriber
  newcomer hwho := (within.newcomer hwho).imp_right fun hmem => hcallers hmem

/-- What keeps within bounds twice keeps within them. -/
theorem Within.trans {sources : Set SourceId} {views : Set ViewId} {callers : Set Subscriber}
    {h h' h'' : H} (first : P.Within sources views callers h h')
    (second : P.Within sources views callers h' h'') : P.Within sources views callers h h'' where
  source hi := (second.source hi).trans (first.source hi)
  view hv hmade := (second.view hv (first.made hmade)).trans (first.view hv hmade)
  made hmade := second.made (first.made hmade)
  subscriber hwho := second.subscriber (first.subscriber hwho)
  newcomer hwho := (second.newcomer hwho).elim first.newcomer .inr

/-- A subscription was made to the events of a source. -/
def Belongs (P : Parts H A B) (source : SourceId) (h : H) (sub : SubscriptionId) : Prop :=
  ∃ who, P.subscriber h sub = some who ∧ who.source = source

end Parts

/-- Each method of the host touches only the source or the view that it is given. A method that
fails does so as well. -/
structure Host.Confined (P : Parts H A B) (host : Host H C) : Prop where
  tree : ∀ source, (host.tree source).Obeys P.sound fun h _ h' => P.Within {source} ∅ ∅ h h'
  subscribe : ∀ source event callback,
    (host.subscribe source event callback).Obeys P.sound fun h r h' =>
      P.Within {source} ∅ {⟨source, event, callback⟩} h h' ∧
        ∀ sub, r = .ok sub → P.subscriber h' sub = some ⟨source, event, callback⟩
  unsubscribe : ∀ sub, (host.unsubscribe sub).Obeys P.sound fun h _ h' =>
    P.Within {i | P.Belongs i h sub} ∅ ∅ h h'
  isAvailable : ∀ source,
    (host.isAvailable source).Obeys P.sound fun h _ h' => P.Within {source} ∅ ∅ h h'
  sourceName : ∀ source,
    (host.sourceName source).Obeys P.sound fun h _ h' => P.Within {source} ∅ ∅ h h'
  createView : ∀ title, (host.createView title).Obeys P.sound fun h r h' =>
    P.Within ∅ ∅ ∅ h h' ∧ ∀ v, r = .ok v → P.view h v = none ∧ (P.view h' v).isSome
  showLines : ∀ view lines,
    (host.showLines view lines).Obeys P.sound fun h _ h' => P.Within ∅ {view} ∅ h h'
  destroyView : ∀ view,
    (host.destroyView view).Obeys P.sound fun h _ h' => P.Within ∅ {view} ∅ h h'
  focus : ∀ source span highlight,
    (host.focus source span highlight).Obeys P.sound fun h _ h' => P.Within {source} ∅ ∅ h h'
  log : ∀ message, (host.log message).Obeys P.sound fun h _ h' => P.Within ∅ ∅ ∅ h h'

namespace World

/-! ## What belongs to a source -/

/-- The session is bound to the source. -/
def Bound (w : World H C) (id : SessionId) (source : SourceId) : Prop :=
  ∃ s, w.sessions[id]? = some s ∧ s.source = source

/-- The session, if there is one, is bound to the source. -/
def Tied (w : World H C) (id : SessionId) (source : SourceId) : Prop :=
  ∀ s, w.sessions[id]? = some s → s.source = source

/-- The view was made for a session of the source. -/
def Owns (w : World H C) (source : SourceId) (view : ViewId) : Prop :=
  ∃ (id : SessionId) (s : Session), w.sessions[id]? = some s ∧ s.source = source ∧
    ∃ b ∈ s.bindings, b.view = view

/-- A session of the source has the subscription. -/
def Hears (w : World H C) (source : SourceId) (sub : SubscriptionId) : Prop :=
  ∃ (id : SessionId) (s : Session), w.sessions[id]? = some s ∧ s.source = source ∧
    ∃ b ∈ s.bindings, sub ∈ b.subscriptions

/-- The views that are not in the way of other sources. -/
def Free (w : World H C) (source : SourceId) : Set ViewId := {v | ∀ i, w.Owns i v → i = source}

/-- Those who may be called: a session is called only by the source that it is bound to. -/
def Callable (w : World H C) : Set Subscriber :=
  {who | ∀ id event, who.callback = .session id event → w.Bound id who.source}

/-- A session that exists and is tied to a source is bound to it. -/
theorem Tied.bound {w : World H C} {id : SessionId} {source : SourceId} {s : Session}
    (htied : w.Tied id source) (hs : w.sessions[id]? = some s) : w.Bound id source :=
  ⟨s, hs, htied s hs⟩

/-- A session that is bound to a source is tied to it. -/
theorem Bound.tied {w : World H C} {id : SessionId} {source : SourceId}
    (hbound : w.Bound id source) : w.Tied id source := by
  obtain ⟨s, hs, hsource⟩ := hbound
  intro s' hs'
  rw [hs] at hs'
  cases hs'
  exact hsource

/-- No two sources have a view in common, and each subscription of a session and each entry of the
registry is about the source of the session. -/
structure Apart (P : Parts H A B) (w : World H C) : Prop where
  sound : P.sound w.host
  made : ∀ {source view}, w.Owns source view → (P.view w.host view).isSome
  views : ∀ {source source' view}, w.Owns source view → w.Owns source' view → source = source'
  subscribed : ∀ {source sub}, w.Hears source sub → P.Belongs source w.host sub
  called : ∀ {sub who}, P.subscriber w.host sub = some who → who ∈ w.Callable
  entries : ∀ {source id}, (source, id) ∈ w.registry → w.Bound id source

/-- All that belongs to other sources is as before. -/
structure Spares (P : Parts H A B) (source : SourceId) (w w' : World H C) : Prop where
  sources : ∀ {i}, i ≠ source → P.source w'.host i = P.source w.host i
  sessions : ∀ {id : SessionId} {s : Session}, s.source ≠ source →
    (w'.sessions[id]? = some s ↔ w.sessions[id]? = some s)
  views : ∀ {i v}, i ≠ source → w.Owns i v → P.view w'.host v = P.view w.host v
  entries : ∀ {i}, i ≠ source → w'.sessionFor? i = w.sessionFor? i

/-- Everything that happened kept to the source. -/
structure KeptTo (P : Parts H A B) (source : SourceId) (w w' : World H C) : Prop where
  spares : w.Spares P source w'
  apart : w'.Apart P
  bound : ∀ {id i}, w.Bound id i → w'.Bound id i
  made : ∀ {v}, (P.view w.host v).isSome → (P.view w'.host v).isSome
  subscriber : ∀ {sub who}, P.subscriber w.host sub = some who →
    P.subscriber w'.host sub = some who

namespace Spares

variable {source : SourceId} {w w' w'' : World H C}

/-- What belongs to other sources is as it is. -/
theorem refl (P : Parts H A B) (source : SourceId) (w : World H C) : w.Spares P source w where
  sources _ := rfl
  sessions _ := Iff.rfl
  views _ _ := rfl
  entries _ := rfl

/-- Other sources own the views that they owned. -/
theorem owns (h : w.Spares P source w') {i : SourceId} {v : ViewId} (hi : i ≠ source) :
    w'.Owns i v ↔ w.Owns i v := by
  constructor
  · rintro ⟨id, s, hs, rfl, hbinding⟩
    exact ⟨id, s, (h.sessions hi).1 hs, rfl, hbinding⟩
  · rintro ⟨id, s, hs, rfl, hbinding⟩
    exact ⟨id, s, (h.sessions hi).2 hs, rfl, hbinding⟩

/-- What belongs to other sources is as before through two stretches that spare it. -/
theorem trans (first : w.Spares P source w') (second : w'.Spares P source w'') :
    w.Spares P source w'' where
  sources hi := (second.sources hi).trans (first.sources hi)
  sessions hs := (second.sessions hs).trans (first.sessions hs)
  views hi howns := (second.views hi ((first.owns hi).2 howns)).trans (first.views hi howns)
  entries hi := (second.entries hi).trans (first.entries hi)

end Spares

namespace KeptTo

variable {source : SourceId} {w w' w'' : World H C}

/-- Nothing needs to happen. -/
theorem refl (hw : w.Apart P) : w.KeptTo P source w where
  spares := .refl P source w
  apart := hw
  bound h := h
  made h := h
  subscriber h := h

/-- What keeps to a source twice keeps to it. -/
theorem trans (first : w.KeptTo P source w') (second : w'.KeptTo P source w'') :
    w.KeptTo P source w'' where
  spares := first.spares.trans second.spares
  apart := second.apart
  bound h := second.bound (first.bound h)
  made h := second.made (first.made h)
  subscriber h := second.subscriber (first.subscriber h)

/-- A session stays tied to its source. -/
theorem tied (h : w.KeptTo P source w') {id : SessionId} (htied : w.Tied id source) :
    w'.Tied id source := by
  intro s hs
  by_contra hother
  exact hother (htied s ((h.spares.sessions hother).1 hs))

/-- A view that was in nobody's way is still in nobody's way. -/
theorem free (h : w.KeptTo P source w') {view : ViewId} (hfree : view ∈ w.Free source) :
    view ∈ w'.Free source := by
  intro i howns
  by_contra hother
  exact hother (hfree i ((h.spares.owns hother).1 howns))

/-- A subscription belongs to the source that it was made to. -/
theorem belongs (h : w.KeptTo P source w') {sub : SubscriptionId}
    (hbelongs : P.Belongs source w.host sub) : P.Belongs source w'.host sub := by
  obtain ⟨who, hwho, hsource⟩ := hbelongs
  exact ⟨who, h.subscriber hwho, hsource⟩

end KeptTo

/-! ## Changes that keep to a source -/

/-- One more at the end of a list. -/
theorem getElem?_concat {γ : Type} (xs : List γ) (x : γ) (i : Nat) :
    (xs ++ [x])[i]? = if i = xs.length then some x else xs[i]? := by
  by_cases hi : i = xs.length
  · simp [hi]
  · rw [if_neg hi, List.getElem?_append]
    by_cases hlt : i < xs.length
    · rw [if_pos hlt]
    · have hnone : xs[i]? = none := List.getElem?_eq_none (by omega)
      rw [if_neg hlt, hnone]
      exact List.getElem?_eq_none (by simp only [List.length_singleton]; omega)

namespace Apart

variable {source : SourceId} {w : World H C}

/-- A view of a source is in no other source's way. -/
theorem free_of_owns (hw : w.Apart P) {view : ViewId} (howns : w.Owns source view) :
    view ∈ w.Free source := fun _ hother => hw.views hother howns

/-- A view that was not made yet is in nobody's way. -/
theorem free_of_unmade (hw : w.Apart P) {view : ViewId} (hnone : P.view w.host view = none) :
    view ∈ w.Free source := by
  intro i howns
  have hmade := hw.made howns
  rw [hnone] at hmade
  cases hmade

/-- The host changes only what it keeps for the source, and views that are not in the way of
others. -/
theorem beside (hw : w.Apart P) {h : H} (hsound : P.sound h)
    (within : P.Within {source} (w.Free source) w.Callable w.host h) (c : C) :
    w.KeptTo P source (w.beside h c) where
  spares := by
    refine ⟨fun hi => within.source hi, fun _ => Iff.rfl, ?_, fun _ => rfl⟩
    intro i v hi howns
    exact within.view (fun hfree => hi (hfree i howns)) (hw.made howns)
  apart := by
    refine ⟨hsound, fun howns => within.made (hw.made howns), hw.views, ?_, ?_, hw.entries⟩
    · intro i sub hhears
      obtain ⟨who, hwho, hsource⟩ := hw.subscribed hhears
      exact ⟨who, within.subscriber hwho, hsource⟩
    · intro sub who hwho
      exact (within.newcomer hwho).elim hw.called fun hnew => hnew
  bound h := h
  made := within.made
  subscriber := within.subscriber

/-- Sessions of the source change or are added, and have only views and subscriptions that they may
have. -/
theorem withSessions (hw : w.Apart P) {sessions : List Session}
    (hcases : ∀ {i : SessionId} {t}, sessions[i]? = some t → w.sessions[i]? = some t ∨
      t.source = source ∧ ∀ b ∈ t.bindings, (P.view w.host b.view).isSome ∧
        b.view ∈ w.Free source ∧ ∀ sub ∈ b.subscriptions, P.Belongs source w.host sub)
    (hkept : ∀ {i : SessionId} {t}, w.sessions[i]? = some t → sessions[i]? = some t ∨
      t.source = source ∧ ∃ t', sessions[i]? = some t' ∧ t'.source = source) :
    w.KeptTo P source { w with sessions := sessions } := by
  have hbound : ∀ {i j}, w.Bound i j → ({ w with sessions := sessions } : World H C).Bound i j := by
    rintro i _ ⟨t, ht, rfl⟩
    rcases hkept ht with hsame | ⟨hsource, t', ht', hsource'⟩
    · exact ⟨t, hsame, rfl⟩
    · exact ⟨t', ht', hsource'.trans hsource.symm⟩
  have howns : ∀ {i v}, ({ w with sessions := sessions } : World H C).Owns i v →
      w.Owns i v ∨ i = source ∧ (P.view w.host v).isSome ∧ v ∈ w.Free source := by
    rintro i _ ⟨j, t, ht, rfl, b, hb, rfl⟩
    rcases hcases ht with hold | ⟨hsource, hbindings⟩
    · exact .inl ⟨j, t, hold, rfl, b, hb, rfl⟩
    · exact .inr ⟨hsource, (hbindings b hb).1, (hbindings b hb).2.1⟩
  refine ⟨⟨fun _ => rfl, ?_, fun _ _ => rfl, fun _ => rfl⟩,
    ⟨hw.sound, ?_, ?_, ?_, ?_, fun hentry => hbound (hw.entries hentry)⟩, hbound, fun h => h,
    fun h => h⟩
  · intro i t hother
    exact ⟨fun ht => (hcases ht).resolve_right fun h => hother h.1,
      fun ht => (hkept ht).resolve_right fun h => hother h.1⟩
  · intro i v hv
    exact (howns hv).elim hw.made fun h => h.2.1
  · intro i j v hi hj
    rcases howns hi with hi | ⟨rfl, -, hfree⟩
    · rcases howns hj with hj | ⟨rfl, -, hfree⟩
      · exact hw.views hi hj
      · exact hfree i hi
    · rcases howns hj with hj | ⟨rfl, -, -⟩
      · exact (hfree j hj).symm
      · rfl
  · rintro i sub ⟨j, t, ht, rfl, b, hb, hsub⟩
    rcases hcases ht with hold | ⟨hsource, hbindings⟩
    · exact hw.subscribed ⟨j, t, hold, rfl, b, hb, hsub⟩
    · rw [hsource]
      exact (hbindings b hb).2.2 sub hsub
  · intro sub who hwho id event hcallback
    exact hbound (hw.called hwho id event hcallback)

/-- A session of the source changes. -/
theorem modifySession (hw : w.Apart P) {id : SessionId} {s : Session} {f : Session → Session}
    (hs : w.sessions[id]? = some s) (hsource : s.source = source) (hf : (f s).source = source)
    (hbindings : ∀ b ∈ (f s).bindings, (P.view w.host b.view).isSome ∧ b.view ∈ w.Free source ∧
      ∀ sub ∈ b.subscriptions, P.Belongs source w.host sub) :
    w.KeptTo P source (w.modifySession id f) := by
  have hself : (w.modifySession id f).sessions[id]? = some (f s) :=
    World.getElem?_modifySession_self hs f
  have hother : ∀ {i : SessionId}, i ≠ id →
      (w.modifySession id f).sessions[i]? = w.sessions[i]? := by
    intro i hi
    rw [World.getElem?_modifySession, if_neg (Ne.symm hi)]
  refine hw.withSessions ?_ ?_
  · intro i t ht
    by_cases hi : i = id
    · subst hi
      cases hself.symm.trans ht
      exact .inr ⟨hf, hbindings⟩
    · exact .inl ((hother hi).symm.trans ht)
  · intro i t ht
    by_cases hi : i = id
    · subst hi
      cases hs.symm.trans ht
      exact .inr ⟨hsource, f s, hself, hf⟩
    · exact .inl ((hother hi).trans ht)

/-- One more session of the source, which has nothing yet. -/
theorem withSession (hw : w.Apart P) {s : Session} (hsource : s.source = source)
    (hnew : s.bindings = []) : w.KeptTo P source (w.withSession s) := by
  have hget : ∀ i : SessionId, (w.withSession s).sessions[i]? =
      if i = w.sessions.length then some s else w.sessions[i]? := getElem?_concat w.sessions s
  refine hw.withSessions ?_ ?_
  · intro i t ht
    have ht' := (hget i).symm.trans ht
    by_cases hi : i = w.sessions.length
    · rw [if_pos hi] at ht'
      cases ht'
      refine .inr ⟨hsource, fun b hb => ?_⟩
      rw [hnew] at hb
      cases hb
    · rw [if_neg hi] at ht'
      exact .inl ht'
  · intro i t ht
    have hlt := (List.getElem?_eq_some_iff.1 ht).1
    refine .inl ((hget i).trans ?_)
    rw [if_neg (Nat.ne_of_lt hlt), ht]

/-- The registry lets go of the source, or puts one of its sessions in charge. -/
theorem withRegistry (hw : w.Apart P) {registry : List (SourceId × SessionId)}
    (hentries : ∀ {i id}, (i, id) ∈ registry → (i, id) ∈ w.registry ∨ i = source ∧ w.Bound id i)
    (hothers : ∀ {i}, i ≠ source →
      ({ w with registry := registry } : World H C).sessionFor? i = w.sessionFor? i) :
    w.KeptTo P source { w with registry := registry } where
  spares := ⟨fun _ => rfl, fun _ => Iff.rfl, fun _ _ => rfl, hothers⟩
  apart := by
    refine ⟨hw.sound, hw.made, hw.views, hw.subscribed, hw.called, ?_⟩
    intro i id hentry
    exact (hentries hentry).elim hw.entries And.right
  bound h := h
  made h := h
  subscriber h := h

end Apart

end World

/-! ## Actions that keep to a source -/

namespace Action

/-- Whatever comes of the action in this world, it keeps to the source; if it ends well, then as `Q`
says. -/
def Keeps (P : Parts H A B) (source : SourceId) (a : Action H C α) (w : World H C)
    (Q : α → World H C → Prop) : Prop :=
  a.Ensures w (fun x w' => w.KeptTo P source w' ∧ Q x w') (fun _ w' => w.KeptTo P source w')

section

variable {source : SourceId} {w : World H C} {Q : α → World H C → Prop}

/-- An action that does nothing keeps to any source. -/
theorem keeps_pure (hw : w.Apart P) {x : α} (hQ : Q x w) :
    (pure x : Action H C α).Keeps P source w Q := ⟨.refl hw, hQ⟩

/-- An action that only fails keeps to any source. -/
theorem keeps_throw (hw : w.Apart P) (e : Failure) :
    (throw e : Action H C α).Keeps P source w Q := .refl hw

/-- What an action ends with may be weakened. -/
theorem Keeps.mono {a : Action H C α} {R : α → World H C → Prop} (ha : a.Keeps P source w Q)
    (hQ : ∀ x w', w.KeptTo P source w' → Q x w' → R x w') : a.Keeps P source w R :=
  Ensures.mono ha (fun x w' h => ⟨h.1, hQ x w' h.1 h.2⟩) (fun _ _ h => h)

/-- Two actions keep to a source if the second one does after the first. -/
theorem Keeps.bind {a : Action H C α} {f : α → Action H C β} {R : β → World H C → Prop}
    (ha : a.Keeps P source w Q)
    (hf : ∀ x w', w.KeptTo P source w' → Q x w' → (f x).Keeps P source w' R) :
    (a >>= f).Keeps P source w R := by
  refine Ensures.bind ha ?_ (fun _ _ h => h)
  rintro x w' ⟨hkept, hQ⟩
  refine Ensures.mono (hf x w' hkept hQ) ?_ ?_
  · rintro y w'' ⟨hkept', hR⟩
    exact ⟨hkept.trans hkept', hR⟩
  · intro e w'' hkept'
    exact hkept.trans hkept'

/-- An attempt at an action that keeps to a source keeps to it. -/
theorem Keeps.attempt {a : Action H C α} (ha : a.Keeps P source w Q) :
    a.attempt.Keeps P source w fun r w' => ∀ x, r = .ok x → Q x w' := by
  unfold Keeps
  rw [ensures_attempt]
  refine Ensures.mono ha ?_ ?_
  · rintro x w' ⟨hkept, hQ⟩
    refine ⟨hkept, ?_⟩
    rintro _ ⟨⟩
    exact hQ
  · intro e w' hkept
    exact ⟨hkept, fun _ hnever => by cases hnever⟩

/-- Going through a list keeps to the source if each member does, whatever the ones before it did
to the source. -/
theorem keeps_forM {γ : Type} {f : γ → Action H C Unit} (hw : w.Apart P) (xs : List γ)
    (hf : ∀ x ∈ xs, ∀ w', w.KeptTo P source w' → (f x).Keeps P source w' fun _ _ => True) :
    (xs.forM f : Action H C Unit).Keeps P source w fun _ _ => True := by
  refine (ensures_forM (I := w.KeptTo P source) xs ?_ w (.refl hw)).mono
    (fun _ _ h => ⟨h, trivial⟩) (fun _ _ h => h)
  intro x hx w' hkept
  refine Ensures.mono (hf x hx w' hkept) ?_ ?_
  · rintro _ w'' ⟨hkept', -⟩
    exact hkept.trans hkept'
  · intro e w'' hkept'
    exact hkept.trans hkept'

/-- A call that touches only the source, and views that are not in the way of others. -/
theorem Obeys.keeps {a : Action H C α} {R : H → Except Failure α → H → Prop}
    (ha : a.Obeys P.sound R) (hw : w.Apart P)
    (hR : ∀ {r h}, R w.host r h → P.Within {source} (w.Free source) w.Callable w.host h) :
    a.Keeps P source w fun x w' => R w.host (.ok x) w'.host := by
  refine (ha w hw.sound).mono ?_ ?_
  · rintro x _ ⟨h, c, rfl, hsound, hcall⟩
    exact ⟨hw.beside hsound (hR hcall) c, hcall⟩
  · rintro e _ ⟨h, c, rfl, hsound, hcall⟩
    exact hw.beside hsound (hR hcall) c

/-- A call that touches nothing but the source, and calls nobody newly. -/
theorem Obeys.keeps_source {a : Action H C α}
    (ha : a.Obeys P.sound fun h _ h' => P.Within {source} ∅ ∅ h h') (hw : w.Apart P) :
    a.Keeps P source w fun _ _ => True :=
  (ha.keeps hw fun within => within.mono subset_rfl (Set.empty_subset _)
    (Set.empty_subset _)).mono fun _ _ _ _ => trivial

/-- A call that touches nothing but a view which is not in the way of others. -/
theorem Obeys.keeps_view {a : Action H C α} {view : ViewId}
    (ha : a.Obeys P.sound fun h _ h' => P.Within ∅ {view} ∅ h h') (hw : w.Apart P)
    (hfree : view ∈ w.Free source) : a.Keeps P source w fun _ _ => True :=
  (ha.keeps hw fun within => within.mono (Set.empty_subset _) (Set.singleton_subset_iff.2 hfree)
    (Set.empty_subset _)).mono fun _ _ _ _ => trivial

/-- A call that touches nothing. -/
theorem Obeys.keeps_all {a : Action H C α}
    (ha : a.Obeys P.sound fun h _ h' => P.Within ∅ ∅ ∅ h h') (hw : w.Apart P) :
    a.Keeps P source w fun _ _ => True :=
  (ha.keeps hw fun within => within.mono (Set.empty_subset _) (Set.empty_subset _)
    (Set.empty_subset _)).mono fun _ _ _ _ => trivial

end

end Action

end

end TreeInspector
