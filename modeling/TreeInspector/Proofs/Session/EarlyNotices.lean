import Mathlib.Logic.Relation
import TreeInspector.Proofs.Session.Invariant
import TreeInspector.Proofs.Session.Passage

/-!
# Events announced while a session is being enabled

A session subscribes to its source before it is bound, and what is announced to a session that is
not bound is ignored. So whatever a host announces as soon as it has been subscribed to is lost: the
session ends up active, and shows the tree from before the announcements.
-/

set_option autoImplicit false

namespace TreeInspector

/-- What can be told from the state of a host: the tree that a source has, and the events announced,
each with the tree that the source had then. -/
structure Announcer (H : Type) where
  treeOf : SourceId → H → ParseTree
  announced : H → List (Notice × ParseTree)

section

variable {H C α : Type} {A : Announcer H} {host : Host H C} {w w' w₁ w₂ : World H C}
  {id : SessionId} {s : Session} {source : SourceId} {news more : List (Notice × ParseTree)}

namespace Announcer

/-- Nothing but the host and the client has changed, and the given events were announced. -/
def Told (A : Announcer H) (news : List (Notice × ParseTree)) (w w' : World H C) : Prop :=
  ∃ h c, w' = w.beside h c ∧ A.announced h = A.announced w.host ++ news

/-- What is announced in two stretches is announced in turn. -/
theorem Told.trans (h₁ : A.Told news w w₁) (h₂ : A.Told more w₁ w₂) :
    A.Told (news ++ more) w w₂ := by
  obtain ⟨h, c, rfl, hnews⟩ := h₁
  obtain ⟨h', c', rfl, hmore⟩ := h₂
  refine ⟨h', c', rfl, ?_⟩
  rw [hmore, World.beside_host, hnews, List.append_assoc]

/-- Announcements by themselves change no session. -/
theorem Told.sessions (h : A.Told news w w') : w'.sessions = w.sessions := by
  obtain ⟨h, c, rfl, -⟩ := h
  rfl

/-- What announces nothing may be done one after another. -/
theorem passage_told (A : Announcer H) : World.Passage (A.Told (C := C) []) where
  refl w := ⟨w.host, w.client, rfl, (List.append_nil _).symm⟩
  trans h₁ h₂ := h₁.trans h₂

/-- While a session subscribes, the host may change, and it may announce events to the session. The
session asks for its title and logs by a host that is silent about it. -/
inductive Announces (A : Announcer H) (source : SourceId) (id : SessionId) :
    World H C → World H C → Prop where
  | aside {w w' : World H C} (silent : A.Told [] w w') : A.Announces source id w w'
  | announce {w w' : World H C} {inner : Host H C} {event : Notice}
      (told : A.Told [(event, A.treeOf source w.host)] w w')
      (sourceName : ∀ source, (inner.sourceName source).Stays (A.Told []))
      (log : ∀ message, (inner.log message).Stays (A.Told [])) :
      A.Announces source id w ((Session.notify inner id event).outcome w').2

/-- The host announces nothing but while a session subscribes, and then as often as it wants. -/
structure Speaks (A : Announcer H) (host : Host H C) : Prop where
  tree : ∀ source w, (host.tree source).Ensures w
    (fun tree w' => tree = A.treeOf source w.host ∧ A.Told [] w w') (fun _ w' => A.Told [] w w')
  subscribe : ∀ source event id, (host.subscribe source event (.session id event)).Stays
    (Relation.ReflTransGen (A.Announces source id))
  unsubscribe : ∀ sub, (host.unsubscribe sub).Stays (A.Told [])
  sourceName : ∀ source, (host.sourceName source).Stays (A.Told [])
  createView : ∀ title, (host.createView title).Stays (A.Told [])
  showLines : ∀ view lines, (host.showLines view lines).Stays (A.Told [])
  destroyView : ∀ view, (host.destroyView view).Stays (A.Told [])
  log : ∀ message w, ∃ w', host.log message w = .ok () w' ∧ A.Told [] w w'

/-- What the events announced to a session ask for: if its source is gone, it has ended and its view
with it; otherwise it shows the tree of the last commit. -/
structure Heeded (gone : ViewId → H → Prop) (news : List (Notice × ParseTree)) (view : ViewId)
    (s : Session) (h : H) : Prop where
  destroyed : (∃ tree, (.destroy, tree) ∈ news) →
    s.state = .inactive ∧ s.endReason = some .sourceDestroyed ∧ gone view h
  committed : (∀ tree, (.destroy, tree) ∉ news) → ∀ tree, news.getLast? = some (.commit, tree) →
    s.lines = tree.render s.options.navigation

/-- How enabling a session ends to which the given events were announced meanwhile. -/
structure EnabledDespite (A : Announcer H) (gone : ViewId → H → Prop)
    (news : List (Notice × ParseTree)) (id : SessionId) (w w' : World H C) : Prop where
  announced : A.announced w'.host = A.announced w.host ++ news
  session : ∃ s view h, w'.Active id s ∧ s.endReason = none ∧ s.view? = some view ∧
    A.announced h = A.announced w.host ∧
    s.lines = (A.treeOf s.source h).render s.options.navigation ∧
    (Heeded gone news view s w'.host ↔ (∀ tree, (.destroy, tree) ∉ news) ∧
      ∀ tree, news.getLast? = some (.commit, tree) →
        tree.render s.options.navigation = s.lines)

/-- For an active session, events are heeded iff its source is not gone and it shows the tree of the
last commit. -/
theorem heeded_iff_of_active {gone : ViewId → H → Prop} {view : ViewId} {h : H}
    (hactive : s.state = .active) :
    Heeded gone news view s h ↔ (∀ tree, (.destroy, tree) ∉ news) ∧
      ∀ tree, news.getLast? = some (.commit, tree) →
        tree.render s.options.navigation = s.lines := by
  constructor
  · intro heeded
    have hnot : ∀ tree, (.destroy, tree) ∉ news := by
      intro tree hmem
      have hinactive := (heeded.destroyed ⟨tree, hmem⟩).1
      rw [hactive] at hinactive
      cases hinactive
    exact ⟨hnot, fun tree hlast => (heeded.committed hnot tree hlast).symm⟩
  · rintro ⟨hnot, hsame⟩
    exact ⟨fun ⟨tree, hmem⟩ => (hnot tree hmem).elim, fun _ tree hlast => (hsame tree hlast).symm⟩

/-! ## What comes too early is ignored -/

/-- A session that is not bound does nothing when it is notified. -/
theorem notify_told {inner : Host H C}
    (sourceName : ∀ source, (inner.sourceName source).Stays (A.Told []))
    (log : ∀ message, (inner.log message).Stays (A.Told [])) (hs : w.sessions[id]? = some s)
    (hnone : s.binding? = none) (event : Notice) :
    A.Told [] w ((Session.notify inner id event).outcome w).2 := by
  have htold := A.passage_told (C := C)
  refine Action.Ensures.outcome (P := fun _ w' => A.Told [] w w') ?_
  unfold Session.notify
  rw [Action.ensures_bind, Session.ensures_find hs]
  simp only [hnone, Option.isSome_none, Bool.false_eq_true, if_false]
  exact htold.bind (htold.bind (htold.find id) fun s => sourceName s.source) (fun _ => log _) w

/-- Announcing any number of events to a session that is not bound changes no session. -/
theorem told_of_announces (hs : w.sessions[id]? = some s) (hnone : s.binding? = none)
    (announces : Relation.ReflTransGen (A.Announces source id) w w') :
    ∃ news, A.Told news w w' := by
  induction announces with
  | refl => exact ⟨[], A.passage_told.refl w⟩
  | tail _ announces ih =>
    obtain ⟨news, hnews⟩ := ih
    cases announces with
    | aside silent => exact ⟨_, hnews.trans silent⟩
    | announce told sourceName log =>
      -- The sessions are as they were at first, so the one told is still not bound.
      have hfirst := hnews.trans told
      rw [← hfirst.sessions] at hs
      exact ⟨_, hfirst.trans (notify_told sourceName log hs hnone _)⟩

/-! ## Enabling -/

section

variable (speaks : A.Speaks host)

include speaks

/-- Undoing what was made for a session announces nothing. -/
theorem undo_told (title : String) (view : ViewId) (subs : List SubscriptionId)
    (reason : Failure) : (Session.undo host title view subs reason : Action H C α).Ensures w
      (fun _ _ => False) (fun _ w' => A.Told [] w w') := by
  have htold := A.passage_told (C := C)
  have hlog : ∀ message, (host.log message).Stays (A.Told []) := by
    intro message w
    obtain ⟨w', hlog, hw'⟩ := speaks.log message w
    exact (Action.ensures_of_ok hlog).2 hw'
  have hcleanUp : ∀ {part : Action H C Unit}, part.Stays (A.Told []) →
      (Session.cleanUp host title part).Stays (A.Told []) := by
    intro part hpart
    refine htold.bind (World.Passage.attempt hpart) fun result => ?_
    cases result with
    | ok _ => exact htold.pure ()
    | error e => exact hlog _
  refine (hcleanUp (htold.forM speaks.unsubscribe subs) w).bind ?_ (fun _ _ h => h)
  intro _ w₁ h₁
  refine (hcleanUp (speaks.destroyView view) w₁).bind ?_ (fun _ _ h => h₁.trans h)
  intro _ w₂ h₂
  exact h₁.trans h₂

/-- Filling a view announces nothing and gives the lines of the tree. -/
theorem render_told (hs : w.sessions[id]? = some s) (view : ViewId) :
    (Session.render host id view).Ensures w
      (fun lines w' => lines = (A.treeOf s.source w.host).render s.options.navigation ∧
        A.Told [] w w')
      (fun _ w' => A.Told [] w w') := by
  unfold Session.render
  rw [Action.ensures_bind, Session.ensures_find hs]
  refine (speaks.tree s.source w).bind ?_ (fun _ _ h => h)
  rintro tree w₁ ⟨rfl, h₁⟩
  refine (speaks.showLines view _ w₁).bind ?_ (fun _ _ h => h₁.trans h)
  intro _ w₂ h₂
  exact ⟨rfl, h₁.trans h₂⟩

/-- What is announced while a session that is not bound subscribes changes no session. -/
theorem subscribe_told (hs : w.sessions[id]? = some s) (hnone : s.binding? = none)
    (h₁ : A.Told news w w₁) (event : Notice) :
    (host.subscribe s.source event (.session id event)).Ensures w₁
      (fun _ w' => ∃ news, A.Told news w w') (fun _ w' => ∃ news, A.Told news w w') := by
  have hs₁ : w₁.sessions[id]? = some s := by rw [h₁.sessions, hs]
  refine (speaks.subscribe s.source event id w₁).mono ?_ ?_
  · intro _ w' announces
    obtain ⟨more, hmore⟩ := told_of_announces hs₁ hnone announces
    exact ⟨_, h₁.trans hmore⟩
  · intro _ w' announces
    obtain ⟨more, hmore⟩ := told_of_announces hs₁ hnone announces
    exact ⟨_, h₁.trans hmore⟩

/-- The view is filled before the session subscribes. -/
theorem bindView_told (hs : w.sessions[id]? = some s) (hnone : s.binding? = none) (title : String)
    (view : ViewId) :
    (Session.bindView host id title view).Ensures w
      (fun binding w' =>
        binding.lines = (A.treeOf s.source w.host).render s.options.navigation ∧
          ∃ news, A.Told news w w')
      (fun _ w' => ∃ news, A.Told news w w') := by
  have hundo : ∀ {news : List (Notice × ParseTree)} {w₁ : World H C}
      {subs : List SubscriptionId} {reason : Failure} {Q : Binding → World H C → Prop},
      A.Told news w w₁ → (Session.undo host title view subs reason).Ensures w₁ Q
        (fun _ w' => ∃ news, A.Told news w w') :=
    fun h₁ => (undo_told speaks title view _ _).mono (fun _ _ h => h.elim)
      (fun _ _ h => ⟨_, h₁.trans h⟩)
  unfold Session.bindView
  rw [Action.ensures_bind, Session.ensures_find hs, Action.ensures_bind, Action.ensures_attempt]
  refine (render_told speaks hs view).mono ?_ (fun _ _ h => hundo h)
  rintro lines w₁ ⟨rfl, h₁⟩
  dsimp only
  rw [Action.ensures_bind, Action.ensures_attempt]
  refine (subscribe_told speaks hs hnone h₁ .commit).mono ?_ (fun _ _ ⟨_, h⟩ => hundo h)
  rintro commit w₂ ⟨news₂, h₂⟩
  dsimp only
  rw [Action.ensures_bind, Action.ensures_attempt]
  refine (subscribe_told speaks hs hnone h₂ .destroy).mono ?_ (fun _ _ ⟨_, h⟩ => hundo h)
  intro destroy w₃ h₃
  exact ⟨rfl, h₃⟩

/-- Enabling a session that ends well leaves it active with the tree that its source had before
anything was announced. So what was announced meanwhile is heeded exactly if it asks for nothing
else: the source was not announced to be gone, and the tree of the last commit looks the same. -/
theorem enable_heeds_iff (gone : ViewId → H → Prop) (hs : w.sessions[id]? = some s)
    (hidle : s.state = .inactive) :
    (Session.enable host id).Ensures w (fun _ w' => ∃ news, A.EnabledDespite gone news id w w')
      (fun _ w' => w'.sessions = w.sessions) := by
  have hnone := Session.state_eq_inactive_iff.1 hidle
  have htold := A.passage_told (C := C)
  unfold Session.enable
  rw [Action.ensures_bind, Session.ensures_find hs]
  simp only [hnone, Option.isSome_none, Bool.false_eq_true, if_false]
  refine (htold.bind (htold.find id) (fun s => speaks.sourceName s.source) w).bind ?_
    (fun _ _ h => h.sessions)
  intro title w₁ h₁
  refine (speaks.createView _ w₁).bind ?_ (fun _ _ h => (h₁.trans h).sessions)
  intro view w₂ h₂
  -- So far nothing was announced; what follows reads the tree before it subscribes.
  have hfirst : A.Told [] w w₂ := h₁.trans h₂
  have hs₂ : w₂.sessions[id]? = some s := by rw [hfirst.sessions, hs]
  refine (bindView_told speaks hs₂ hnone title view).bind ?_
    (fun _ _ ⟨_, h⟩ => (hfirst.trans h).sessions)
  rintro binding w₃ ⟨hlines, news, h₃⟩
  have hnews : A.Told news w w₃ := hfirst.trans h₃
  have hs₃ : w₃.sessions[id]? = some s := by rw [hnews.sessions, hs]
  rw [Action.ensures_bind, Action.ensures_modify]
  obtain ⟨w₄, hlog, h₄⟩ := speaks.log _ (w₃.modifySession id (Session.bound binding))
  have hs₄ : w₄.sessions[id]? = some (s.bound binding) := by
    rw [h₄.sessions]
    exact World.getElem?_modifySession_self hs₃ _
  have hactive : (s.bound binding).state = .active :=
    Session.state_eq_active_iff.2 ⟨binding, Session.binding?_bound binding s⟩
  have hshown : (s.bound binding).view? = some binding.view ∧
      (s.bound binding).lines = binding.lines := by
    unfold Session.view? Session.lines
    rw [Session.binding?_bound]
    exact ⟨rfl, rfl⟩
  refine (Action.ensures_of_ok hlog).2 ⟨news, ?_, s.bound binding, binding.view, w₂.host,
    ⟨hs₄, hactive⟩, rfl, hshown.1, ?_, hshown.2.trans hlines, heeded_iff_of_active hactive⟩
  · obtain ⟨h, c, rfl, hannounced⟩ := hnews
    obtain ⟨h', c', rfl, hsilent⟩ := h₄
    rw [World.beside_host, hsilent, List.append_nil]
    exact hannounced
  · obtain ⟨h, c, rfl, hsilent⟩ := hfirst
    exact hsilent.trans (List.append_nil _)

end

end Announcer

end

/-! ## A source that changes while a session subscribes -/

/-- A board that shows the tree of one source, with the events announced. -/
structure Board where
  tree : ParseTree
  announced : List (Notice × ParseTree) := []

namespace Board

/-- What the board shows and has announced. -/
def announcer : Announcer Board where
  treeOf _ := Board.tree
  announced := Board.announced

/-- A host that takes the given action once a session has subscribed to the end of the source. -/
def host (act : SessionId → Action Board Unit Unit) : Host Board Unit where
  tree _ := do return (← Action.host).tree
  subscribe _ event callback := do
    match event, callback with
    | .destroy, .session id _ => act id
    | _, _ => pure ()
    return 0
  unsubscribe _ := pure ()
  isAvailable _ := pure true
  sourceName _ := pure "board"
  createView _ := pure 0
  showLines _ _ := pure ()
  destroyView _ := pure ()
  focus _ _ _ := pure ()
  log _ := pure ()

/-- The source changes, and then a commit is announced. -/
def recommit (tree : ParseTree) (id : SessionId) : Action Board Unit Unit := do
  Action.modifyHost fun b => { b with tree := tree }
  Action.modifyHost fun b => { b with announced := b.announced ++ [(.commit, b.tree)] }
  Session.notify (host fun _ => pure ()) id .commit

/-- The change of the source announces events to the session and does nothing else. -/
theorem recommit_stays (tree : ParseTree) (source : SourceId) (id : SessionId) :
    (recommit tree id).Stays (Relation.ReflTransGen (announcer.Announces source id)) := by
  rw [Action.stays_iff]
  intro w
  have hchanged : announcer.Announces source id w
      (w.beside { w.host with tree := tree } w.client) :=
    .aside ⟨_, _, rfl, (List.append_nil _).symm⟩
  refine .tail (.single hchanged) (.announce ⟨_, _, rfl, rfl⟩ ?_ ?_)
  · exact fun _ w => announcer.passage_told.refl w
  · exact fun _ w => announcer.passage_told.refl w

/-- The board announces nothing but while a session subscribes. -/
theorem speaks (tree : ParseTree) : announcer.Speaks (host (recommit tree)) where
  tree _ w := ⟨rfl, announcer.passage_told.refl w⟩
  subscribe source event id := by
    have hR : World.Passage (Relation.ReflTransGen (announcer.Announces (C := Unit) source id)) :=
      ⟨fun _ => .refl, fun h₁ h₂ => h₁.trans h₂⟩
    cases event with
    | commit => exact hR.pure 0
    | destroy => exact hR.bind (recommit_stays tree source id) fun _ => hR.pure 0
  unsubscribe _ := announcer.passage_told.pure ()
  sourceName _ := announcer.passage_told.pure "board"
  createView _ := announcer.passage_told.pure 0
  showLines _ _ := announcer.passage_told.pure ()
  destroyView _ := announcer.passage_told.pure ()
  log _ w := ⟨w, rfl, announcer.passage_told.refl w⟩

/-- The tree of the source at first. -/
def before : ParseTree := .node ⟨"null", .between 0 4⟩ []

/-- The tree of the source after its change. -/
def after : ParseTree := .node ⟨"true", .between 0 4⟩ []

/-- One session that has not been enabled. -/
def start : World Board Unit where
  sessions := [{ source := 0, options := Settings.resolve {}, registered := false }]
  host := { tree := before }
  client := ()

/-- What comes of enabling it while the source changes. -/
def enabled : Except Failure Unit × World Board Unit :=
  (Session.enable (host (recommit after)) 0).outcome start

/-- Enabling the session succeeds although the source changes meanwhile. -/
theorem enabled_despite :
    enabled.1 = .ok () ∧
      ∃ news, announcer.EnabledDespite (fun _ _ => False) news 0 start enabled.2 := by
  have hok : enabled.1 = .ok () := by decide +kernel
  refine ⟨hok, ?_⟩
  have hensures := Announcer.enable_heeds_iff (speaks after) (fun _ _ => False)
    (show start.sessions[0]? = _ from rfl) rfl
  exact Action.Ensures.outcome (P := fun r w' => r = .ok () →
    ∃ news, announcer.EnabledDespite (fun _ _ => False) news 0 start w')
    (hensures.mono (fun _ _ h _ => h) (fun _ _ _ hok => by cases hok)) hok

/-- The commit is announced, and the session shows the tree from before. -/
theorem commit_not_heeded :
    ¬∀ (host : Host Board Unit) (w : World Board Unit) (id : SessionId) (s : Session),
      announcer.Speaks host → w.sessions[id]? = some s → s.state = .inactive →
        (Session.enable host id).Ensures w
          (fun _ w' => ∀ news view s', w'.host.announced = w.host.announced ++ news →
            w'.sessions[id]? = some s' → Announcer.Heeded (fun _ _ => True) news view s' w'.host)
          (fun _ _ => True) := by
  intro hclaim
  have hensures := hclaim (host (recommit after)) start 0 _ (speaks after) rfl rfl
  have hheeded := Action.Ensures.outcome (P := fun r w' => r = .ok () → ∀ news view s',
    w'.host.announced = start.host.announced ++ news → w'.sessions[0]? = some s' →
      Announcer.Heeded (fun _ _ => True) news view s' w'.host)
    (hensures.mono (fun _ _ h _ => h) (fun _ _ _ hok => by cases hok)) (by decide +kernel)
  have hshown : enabled.2.sessions[0]?.map (fun s => (s.lines, s.options.navigation)) =
      some (before.render false, false) := by
    decide +kernel
  obtain ⟨s, hs, hsame⟩ := Option.map_eq_some_iff.1 hshown
  simp only [Prod.mk.injEq] at hsame
  have hlines := (hheeded [(.commit, after)] 0 s rfl hs).committed (by simp) after rfl
  rw [hsame.1, hsame.2] at hlines
  exact absurd hlines (by decide +kernel)

end Board

end TreeInspector
