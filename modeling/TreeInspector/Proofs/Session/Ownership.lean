import TreeInspector.Proofs.Session.Books
import TreeInspector.Proofs.Session.Calls

/-!
# Who owns what

An active session holds its source, a view and two subscriptions. The estate of a world puts
together what the sessions hold, the registry, and the books of the host. An estate is sound when
the three agree; calls either leave it alone, end one holding, or open one, and each of these keeps
it sound.
-/

set_option autoImplicit false

namespace TreeInspector

/-- What an active session holds. -/
structure Holding where
  source : SourceId
  registered : Bool
  view : ViewId
  subscriptions : List SubscriptionId

/-- What the sessions hold, who is in charge of each source, and what the host keeps. -/
structure Estate where
  holdings : SessionId → Option Holding
  registry : List (SourceId × SessionId)
  books : Books

/-- The holding of a session that is bound. -/
def Session.holding? (s : Session) : Option Holding :=
  s.binding?.map fun b => ⟨s.source, s.registered, b.view, b.subscriptions⟩

section

variable {H C : Type}

/-- The holding of a session, by its number. -/
def World.holding? (w : World H C) : SessionId → Option Holding := w.seen Session.holding?

/-- The estate of a world whose host keeps the given books. -/
def World.estate (books : H → Books) (w : World H C) : Estate :=
  ⟨w.holding?, w.registry, books w.host⟩

end

/-! ## Sound estates -/

namespace Estate

/-- The registry lists the sessions that hold something, each for its source. -/
structure InCharge (e : Estate) : Prop where
  lists : Registry.Lists e.registry fun id source =>
    ∃ hold, e.holdings id = some hold ∧ hold.source = source
  registered : ∀ {id hold}, e.holdings id = some hold → hold.registered = true

/-- The views shown are the views held, each by one session. -/
structure Shown (e : Estate) : Prop where
  viewHeld : ∀ {view}, view ∈ e.books.views ↔
    ∃ id hold, e.holdings id = some hold ∧ hold.view = view
  apart : ∀ {id hold id' hold'}, e.holdings id = some hold → e.holdings id' = some hold' →
    hold.view = hold'.view → id = id'

/-- The subscriptions are those held, one to each event for each session. -/
structure Subscribed (e : Estate) : Prop where
  both : ∀ {id hold}, e.holdings id = some hold → ∃ commit destroy,
    hold.subscriptions = [destroy, commit] ∧
    e.books.subscribers commit = some ⟨hold.source, .commit, .session id .commit⟩ ∧
    e.books.subscribers destroy = some ⟨hold.source, .destroy, .session id .destroy⟩
  subHeld : ∀ {sub who}, e.books.subscribers sub = some who →
    ∃ id hold, e.holdings id = some hold ∧ sub ∈ hold.subscriptions

/-- Holdings, registry and books agree. -/
structure Sound (e : Estate) : Prop extends e.InCharge, e.Shown, e.Subscribed

/-- The estate after a holding has been given up. -/
def without (id : SessionId) (hold : Holding) (e : Estate) : Estate where
  holdings := Function.update e.holdings id none
  registry := e.registry.filter fun entry => entry.1 ≠ hold.source
  books := (hold.subscriptions.foldl (fun k sub => k.unsubscribed sub) e.books).closed hold.view

/-- The estate after a holding with two new subscriptions has been taken up. -/
def including (id : SessionId) (source : SourceId) (view : ViewId)
    (commit destroy : SubscriptionId) (e : Estate) : Estate where
  holdings := Function.update e.holdings id (some ⟨source, true, view, [destroy, commit]⟩)
  registry := e.registry ++ [(source, id)]
  books :=
    ((e.books.opened view).subscribed commit ⟨source, .commit, .session id .commit⟩).subscribed
      destroy ⟨source, .destroy, .session id .destroy⟩

/-- What tending to a session can do to an estate. -/
inductive Shrinks (e : Estate) : Estate → Prop where
  | still : e.Shrinks e
  | ends {id : SessionId} {hold : Holding} (held : e.holdings id = some hold) :
      e.Shrinks (e.without id hold)

/-- What a call can do to an estate, given the number that its next session has. -/
inductive Moves (e : Estate) (id : SessionId) : Estate → Prop where
  | shrinks {e' : Estate} (shrinks : e.Shrinks e') : e.Moves id e'
  | opens {source : SourceId} {view : ViewId} {commit destroy : SubscriptionId}
      (idle : e.holdings id = none) (free : ∀ other, (source, other) ∉ e.registry)
      (newView : view ∉ e.books.views) (newCommit : e.books.subscribers commit = none)
      (newDestroy : (e.books.subscribed commit
        ⟨source, .commit, .session id .commit⟩).subscribers destroy = none) :
      e.Moves id (e.including id source view commit destroy)

section

variable {e : Estate} {id id' : SessionId} {hold hold' : Holding} {source : SourceId}
  {view : ViewId} {commit destroy : SubscriptionId}

/-- After a holding has been given up, the others remain. -/
theorem holdings_without :
    (e.without id hold).holdings id' = some hold' ↔ id' ≠ id ∧ e.holdings id' = some hold' := by
  unfold without
  by_cases hid : id' = id
  · simp [hid]
  · simp [hid]

/-- After a holding has been taken up, there is that one and those from before. -/
theorem holdings_including :
    (e.including id source view commit destroy).holdings id' = some hold' ↔
      id' = id ∧ hold' = ⟨source, true, view, [destroy, commit]⟩ ∨
      id' ≠ id ∧ e.holdings id' = some hold' := by
  unfold including
  by_cases hid : id' = id
  · simp [hid, eq_comm]
  · simp [hid]

/-- Who holds something is not the idle session. -/
theorem ne_of_idle (idle : e.holdings id = none) (held : e.holdings id' = some hold') :
    id' ≠ id := by
  rintro rfl
  rw [idle] at held
  cases held

/-! ### The registry -/

/-- The registry lists those who hold something also after one of them has given it up. -/
theorem InCharge.without (he : e.InCharge) (held : e.holdings id = some hold) :
    (e.without id hold).InCharge where
  lists := by
    refine (he.lists.remove ⟨hold, held, rfl⟩).congr ?_
    intro id' source'
    simp only [holdings_without, and_assoc, exists_and_left]
  registered := by
    intro id' hold' held'
    exact he.registered (holdings_without.1 held').2

/-- The registry lists those who hold something also after one more has taken something up. -/
theorem InCharge.including (he : e.InCharge) (idle : e.holdings id = none)
    (free : ∀ other, (source, other) ∉ e.registry) :
    (e.including id source view commit destroy).InCharge where
  lists := by
    have hidle : ∀ source', ¬ ∃ hold, e.holdings id = some hold ∧ hold.source = source' := by
      rintro source' ⟨hold, held, -⟩
      exact ne_of_idle idle held rfl
    refine (he.lists.add free hidle).congr ?_
    intro id' source'
    constructor
    · rintro ⟨hold', held', rfl⟩
      rcases holdings_including.1 held' with ⟨rfl, rfl⟩ | ⟨-, old⟩
      · exact .inl ⟨rfl, rfl⟩
      · exact .inr ⟨hold', old, rfl⟩
    · rintro (⟨rfl, rfl⟩ | ⟨hold', old, rfl⟩)
      · exact ⟨_, holdings_including.2 (.inl ⟨rfl, rfl⟩), rfl⟩
      · exact ⟨hold', holdings_including.2 (.inr ⟨ne_of_idle idle old, old⟩), rfl⟩
  registered := by
    intro id' hold' held'
    rcases holdings_including.1 held' with ⟨-, rfl⟩ | ⟨-, held'⟩
    · rfl
    · exact he.registered held'

/-! ### The views -/

/-- After a holding has been given up, its view is not shown any more. -/
theorem views_without (view : ViewId) :
    view ∈ (e.without id hold).books.views ↔ view ∈ e.books.views ∧ view ≠ hold.view := by
  have hviews : ∀ (subs : List SubscriptionId) (k : Books),
      (subs.foldl (fun k sub => k.unsubscribed sub) k).views = k.views := by
    intro subs
    induction subs with
    | nil => exact fun _ => rfl
    | cons sub subs ih => exact fun k => ih (k.unsubscribed sub)
  unfold without Books.closed
  rw [hviews]
  rfl

/-- Views shown are views held also after a holding has been given up. -/
theorem Shown.without (he : e.Shown) (held : e.holdings id = some hold) :
    (e.without id hold).Shown where
  viewHeld := by
    intro view
    rw [views_without, he.viewHeld]
    constructor
    · rintro ⟨⟨id', hold', held', rfl⟩, hne⟩
      refine ⟨id', hold', holdings_without.2 ⟨?_, held'⟩, rfl⟩
      rintro rfl
      rw [held] at held'
      cases held'
      exact hne rfl
    · rintro ⟨id', hold', held', rfl⟩
      obtain ⟨hne, held'⟩ := holdings_without.1 held'
      exact ⟨⟨id', hold', held', rfl⟩, fun hview => hne (he.apart held' held hview)⟩
  apart := by
    intro id₁ hold₁ id₂ hold₂ held₁ held₂ hview
    exact he.apart (holdings_without.1 held₁).2 (holdings_without.1 held₂).2 hview

/-- Views shown are views held also after a holding with a new view has been taken up. -/
theorem Shown.including (he : e.Shown) (idle : e.holdings id = none)
    (newView : view ∉ e.books.views) :
    (e.including id source view commit destroy).Shown where
  viewHeld := by
    intro view'
    have hviews : view' ∈ (e.including id source view commit destroy).books.views ↔
        view' = view ∨ view' ∈ e.books.views := Iff.rfl
    rw [hviews, he.viewHeld]
    constructor
    · rintro (rfl | ⟨id', hold', held', rfl⟩)
      · exact ⟨id, _, holdings_including.2 (.inl ⟨rfl, rfl⟩), rfl⟩
      · exact ⟨id', hold', holdings_including.2 (.inr ⟨ne_of_idle idle held', held'⟩), rfl⟩
    · rintro ⟨id', hold', held', rfl⟩
      rcases holdings_including.1 held' with ⟨-, rfl⟩ | ⟨-, held'⟩
      · exact .inl rfl
      · exact .inr ⟨id', hold', held', rfl⟩
  apart := by
    have hnew : ∀ {id' hold'}, e.holdings id' = some hold' → hold'.view ≠ view := by
      rintro id' hold' held' rfl
      exact newView (he.viewHeld.2 ⟨id', hold', held', rfl⟩)
    intro id₁ hold₁ id₂ hold₂ held₁ held₂ hview
    rcases holdings_including.1 held₁ with ⟨hid₁, rfl⟩ | ⟨-, old₁⟩
    · rcases holdings_including.1 held₂ with ⟨hid₂, rfl⟩ | ⟨-, old₂⟩
      · rw [hid₁, hid₂]
      · exact absurd hview.symm (hnew old₂)
    · rcases holdings_including.1 held₂ with ⟨hid₂, rfl⟩ | ⟨-, old₂⟩
      · exact absurd hview (hnew old₁)
      · exact he.apart old₁ old₂ hview

/-! ### The subscriptions -/

/-- After a holding has been given up, its subscriptions call nobody. -/
theorem subscribers_without (hsubs : hold.subscriptions = [destroy, commit])
    (sub : SubscriptionId) :
    (e.without id hold).books.subscribers sub =
      if sub = commit ∨ sub = destroy then none else e.books.subscribers sub := by
  simp only [without, hsubs, List.foldl_cons, List.foldl_nil, Books.closed, Books.unsubscribed,
    Function.update_apply]
  by_cases hc : sub = commit
  · simp [hc]
  · simp [hc]

/-- Subscriptions are those held also after a holding has been given up. -/
theorem Subscribed.without (he : e.Subscribed) (held : e.holdings id = some hold) :
    (e.without id hold).Subscribed := by
  obtain ⟨commit, destroy, hsubs, hcommit, hdestroy⟩ := he.both held
  -- Subscriptions of different sessions call different sessions, so they are different.
  have hkept : ∀ {id' sub source event}, id' ≠ id →
      e.books.subscribers sub = some ⟨source, event, .session id' event⟩ →
      (e.without id hold).books.subscribers sub = some ⟨source, event, .session id' event⟩ := by
    intro id' sub source event hne hsub
    rw [subscribers_without hsubs, if_neg, hsub]
    rintro (rfl | rfl)
    · rw [hcommit] at hsub
      simp only [Option.some.injEq, Subscriber.mk.injEq, Callback.session.injEq] at hsub
      exact hne hsub.2.2.1.symm
    · rw [hdestroy] at hsub
      simp only [Option.some.injEq, Subscriber.mk.injEq, Callback.session.injEq] at hsub
      exact hne hsub.2.2.1.symm
  refine ⟨?_, ?_⟩
  · intro id' hold' held'
    obtain ⟨hne, held'⟩ := holdings_without.1 held'
    obtain ⟨commit', destroy', hsubs', hcommit', hdestroy'⟩ := he.both held'
    exact ⟨commit', destroy', hsubs', hkept hne hcommit', hkept hne hdestroy'⟩
  · intro sub who hwho
    rw [subscribers_without hsubs] at hwho
    split at hwho
    · cases hwho
    · next hother =>
      obtain ⟨id', hold', held', hsub⟩ := he.subHeld hwho
      refine ⟨id', hold', holdings_without.2 ⟨?_, held'⟩, hsub⟩
      rintro rfl
      rw [held] at held'
      cases held'
      rw [hsubs] at hsub
      exact hother (by simpa [or_comm] using hsub)

/-- Subscriptions are those held also after a holding with two new ones has been taken up. -/
theorem Subscribed.including (he : e.Subscribed) (idle : e.holdings id = none)
    (newCommit : e.books.subscribers commit = none)
    (newDestroy : (e.books.subscribed commit
      ⟨source, .commit, .session id .commit⟩).subscribers destroy = none) :
    (e.including id source view commit destroy).Subscribed := by
  have hserved : ∀ sub, (e.including id source view commit destroy).books.subscribers sub =
      if sub = destroy then some ⟨source, .destroy, .session id .destroy⟩
      else if sub = commit then some ⟨source, .commit, .session id .commit⟩
      else e.books.subscribers sub := by
    intro sub
    simp only [Estate.including, Books.subscribed, Books.opened, Function.update_apply]
  have hapart : commit ≠ destroy := by
    rintro rfl
    simp [Books.subscribed] at newDestroy
  have hkept : ∀ {sub who}, e.books.subscribers sub = some who →
      (e.including id source view commit destroy).books.subscribers sub = some who := by
    intro sub who hsub
    have hcommit : sub ≠ commit := by
      rintro rfl
      rw [newCommit] at hsub
      cases hsub
    have hdestroy : sub ≠ destroy := by
      rintro rfl
      simp [Books.subscribed, Function.update_of_ne hapart.symm, hsub] at newDestroy
    rw [hserved, if_neg hdestroy, if_neg hcommit, hsub]
  refine ⟨?_, ?_⟩
  · intro id' hold' held'
    rcases holdings_including.1 held' with ⟨rfl, rfl⟩ | ⟨-, old⟩
    · refine ⟨commit, destroy, rfl, ?_, ?_⟩
      · rw [hserved, if_neg hapart, if_pos rfl]
      · rw [hserved, if_pos rfl]
    · obtain ⟨commit', destroy', hsubs', hcommit', hdestroy'⟩ := he.both old
      exact ⟨commit', destroy', hsubs', hkept hcommit', hkept hdestroy'⟩
  · intro sub who hwho
    rw [hserved] at hwho
    split at hwho
    · next hsub => exact ⟨id, _, holdings_including.2 (.inl ⟨rfl, rfl⟩), by simp [hsub]⟩
    · split at hwho
      · next hsub => exact ⟨id, _, holdings_including.2 (.inl ⟨rfl, rfl⟩), by simp [hsub]⟩
      · obtain ⟨id', hold', held', hsub⟩ := he.subHeld hwho
        exact ⟨id', hold', holdings_including.2 (.inr ⟨ne_of_idle idle held', held'⟩), hsub⟩

/-! ### Together -/

/-- An estate without anything is sound. -/
theorem sound_empty : (Estate.mk (fun _ => none) [] .empty).Sound where
  lists := ⟨List.nodup_nil, by simp, by simp⟩
  registered := by simp
  viewHeld := by simp [Books.empty]
  apart := by simp
  both := by simp
  subHeld := by simp [Books.empty]

/-- What is held after an estate has shrunk was held before. -/
theorem Shrinks.held {e' : Estate} (shrinks : e.Shrinks e') (held : e'.holdings id = some hold) :
    e.holdings id = some hold := by
  cases shrinks with
  | still => exact held
  | ends _ => exact (holdings_without.1 held).2

/-- An estate stays sound when it shrinks. -/
theorem Sound.shrinks {e' : Estate} (he : e.Sound) (shrinks : e.Shrinks e') : e'.Sound := by
  cases shrinks with
  | still => exact he
  | ends held =>
    exact ⟨he.toInCharge.without held, he.toShown.without held, he.toSubscribed.without held⟩

/-- An estate stays sound through what a call does to it. -/
theorem Sound.moves {e' : Estate} (he : e.Sound) (moves : e.Moves id e') : e'.Sound := by
  cases moves with
  | shrinks shrinks => exact he.shrinks shrinks
  | opens idle free newView newCommit newDestroy =>
    exact ⟨he.toInCharge.including idle free, he.toShown.including idle newView,
      he.toSubscribed.including idle newCommit newDestroy⟩

end

end Estate

end TreeInspector
