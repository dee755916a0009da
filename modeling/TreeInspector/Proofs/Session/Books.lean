import Mathlib.Logic.Function.Basic
import Mathlib.Order.BooleanAlgebra.Set
import TreeInspector.Proofs.Session.Terms

/-!
# What a host keeps for others

A host keeps views and subscriptions on behalf of those who asked for them. Its books list the views
that are shown and who is called for each subscription. Terms that keep books say what every call
does to them: a call that fails leaves them as they are, and ending a subscription or a view never
fails. Undoing a failed enabling then brings the books back to where they were.
-/

set_option autoImplicit false

namespace TreeInspector

/-- Who is called when a source announces an event. -/
structure Subscriber where
  source : SourceId
  event : Notice
  callback : Callback
  deriving DecidableEq

/-- The views that are shown and the subscriptions that have not been ended. -/
structure Books where
  views : Set ViewId
  subscribers : SubscriptionId → Option Subscriber

namespace Books

/-- Nothing is kept for anyone. -/
def empty : Books := ⟨∅, fun _ => none⟩

/-- The books with one more view. -/
def opened (view : ViewId) (k : Books) : Books := { k with views := insert view k.views }

/-- The books after a view has been ended. -/
def closed (view : ViewId) (k : Books) : Books := { k with views := k.views \ {view} }

/-- The books with one more subscription. -/
def subscribed (sub : SubscriptionId) (who : Subscriber) (k : Books) : Books :=
  { k with subscribers := Function.update k.subscribers sub (some who) }

/-- The books after a subscription has been ended. -/
def unsubscribed (sub : SubscriptionId) (k : Books) : Books :=
  { k with subscribers := Function.update k.subscribers sub none }

/-- Ending a view that was new gives the books from before it. -/
theorem closed_opened {view : ViewId} {k : Books} (hnew : view ∉ k.views) :
    (k.opened view).closed view = k := by
  unfold opened closed
  congr 1
  exact Set.insert_sdiff_self_of_notMem hnew

/-- Ending a subscription that was new gives the books from before it. -/
theorem unsubscribed_subscribed {sub : SubscriptionId} {who : Subscriber} {k : Books}
    (hnew : k.subscribers sub = none) : (k.subscribed sub who).unsubscribed sub = k := by
  unfold subscribed unsubscribed
  congr 1
  rw [Function.update_idem, ← hnew, Function.update_eq_self]

end Books

/-! ## Books kept in lists

A host that numbers views and subscriptions in the order in which they were made keeps them in lists
and marks what has been ended.
-/

namespace Books

/-- Who is called for a subscription in a list. -/
def serving (subs : List Subscription) (sub : SubscriptionId) : Option Subscriber :=
  subs[sub]?.bind fun s => if s.ended then none else some ⟨s.source, s.event, s.callback⟩

/-- The next subscription calls nobody yet. -/
theorem serving_length (subs : List Subscription) : serving subs subs.length = none := by
  simp [serving]

/-- One more subscription calls whom it says, and the others call whom they called. -/
theorem serving_append {s : Subscription} (hs : s.ended = false) (subs : List Subscription) :
    serving (subs ++ [s]) =
      Function.update (serving subs) subs.length (some ⟨s.source, s.event, s.callback⟩) := by
  funext sub
  unfold serving
  rw [Function.update_apply]
  by_cases hsub : sub = subs.length
  · subst hsub
    simp [hs]
  · rw [if_neg hsub]
    rcases Nat.lt_or_gt_of_ne hsub with hlt | hgt
    · rw [List.getElem?_append_left hlt]
    · have hend : subs.length + 1 ≤ sub := hgt
      rw [List.getElem?_eq_none (by simpa using hend), List.getElem?_eq_none (Nat.le_of_lt hgt)]

/-- A subscription that has ended calls nobody, and the others call whom they called. -/
theorem serving_ended (subs : List Subscription) (sub : SubscriptionId) :
    serving (subs.modify sub ({ · with ended := true })) =
      Function.update (serving subs) sub none := by
  funext other
  unfold serving
  rw [List.getElem?_modify, Function.update_apply]
  by_cases hother : other = sub
  · subst hother
    cases subs[other]? <;> simp
  · rw [if_neg hother]
    simp [Ne.symm hother]

section

variable {α : Type} {isGone : α → Bool}

/-- The views of a list that are not gone. -/
def shownOf (isGone : α → Bool) (views : List α) : Set ViewId :=
  {v | ∃ view, views[v]? = some view ∧ isGone view = false}

/-- The next view is not shown yet. -/
theorem length_notMem_shownOf (views : List α) : views.length ∉ shownOf isGone views := by
  simp [shownOf]

/-- One more view is shown, and the others are as before. -/
theorem shownOf_append {view : α} (hview : isGone view = false) (views : List α) :
    shownOf isGone (views ++ [view]) = insert views.length (shownOf isGone views) := by
  ext v
  unfold shownOf
  rw [Set.mem_insert_iff, Set.mem_ofPred_eq, Set.mem_ofPred_eq]
  by_cases hv : v = views.length
  · subst hv
    simp [hview]
  · rcases Nat.lt_or_gt_of_ne hv with hlt | hgt
    · simp [List.getElem?_append_left hlt, hv]
    · have hend : views.length + 1 ≤ v := hgt
      rw [List.getElem?_eq_none (by simpa using hend), List.getElem?_eq_none (Nat.le_of_lt hgt)]
      simp [hv]

/-- A view that has ended is not shown, and the others are as before. -/
theorem shownOf_ended {f : α → α} (hf : ∀ view, isGone (f view) = true) (views : List α)
    (view : ViewId) : shownOf isGone (views.modify view f) = shownOf isGone views \ {view} := by
  ext v
  unfold shownOf
  rw [Set.mem_sdiff, Set.mem_ofPred_eq, Set.mem_ofPred_eq, List.getElem?_modify]
  by_cases hv : v = view
  · subst hv
    simp [hf]
  · simp [hv, Ne.symm hv]

/-- A change of a view that does not end it leaves what is shown. -/
theorem shownOf_same {f : α → α} (hf : ∀ view, isGone (f view) = isGone view) (views : List α)
    (view : ViewId) : shownOf isGone (views.modify view f) = shownOf isGone views := by
  ext v
  unfold shownOf
  rw [Set.mem_ofPred_eq, Set.mem_ofPred_eq, List.getElem?_modify]
  by_cases hv : v = view
  · subst hv
    simp [hf]
  · simp [Ne.symm hv]

end

end Books

/-! ## Terms that keep books -/

namespace Terms

section

variable {H : Type}

/-- The calls change the books of the host as their names say. -/
structure Keeps (T : Terms H) (books : H → Books) : Prop where
  tree : ∀ {source h r h'}, T.tree source h r h' → books h' = books h
  subscribed : ∀ {source event callback h sub h'},
    T.subscribe source event callback h (.ok sub) h' →
      (books h).subscribers sub = none ∧
        books h' = (books h).subscribed sub ⟨source, event, callback⟩
  notSubscribed : ∀ {source event callback h e h'},
    T.subscribe source event callback h (.error e) h' → books h' = books h
  unsubscribe : ∀ {sub h r h'}, T.unsubscribe sub h r h' →
    r = .ok () ∧ books h' = (books h).unsubscribed sub
  isAvailable : ∀ {source h r h'}, T.isAvailable source h r h' → books h' = books h
  sourceName : ∀ {source h r h'}, T.sourceName source h r h' → books h' = books h
  created : ∀ {title h view h'}, T.createView title h (.ok view) h' →
    view ∉ (books h).views ∧ books h' = (books h).opened view
  notCreated : ∀ {title h e h'}, T.createView title h (.error e) h' → books h' = books h
  showLines : ∀ {view lines h r h'}, T.showLines view lines h r h' → books h' = books h
  destroyView : ∀ {view h r h'}, T.destroyView view h r h' →
    r = .ok () ∧ books h' = (books h).closed view
  focus : ∀ {source span highlight h r h'},
    T.focus source span highlight h r h' → books h' = books h
  log : ∀ {message h h'}, T.log message h h' → books h' = books h

namespace Keeps

variable {T : Terms H} {books : H → Books}

/-- Looking around leaves the books. -/
theorem looksAround (keeps : T.Keeps books) {h₁ h₂ : H} (looks : T.LooksAround h₁ h₂) :
    books h₂ = books h₁ := by
  induction looks with
  | done h => rfl
  | isAvailable call _ ih => rw [ih, keeps.isAvailable call]
  | sourceName call _ ih => rw [ih, keeps.sourceName call]
  | focus call _ ih => rw [ih, keeps.focus call]
  | log call _ ih => rw [ih, keeps.log call]

/-- Filling a view leaves the books. -/
theorem renders (keeps : T.Keeps books) {source : SourceId} {navigation : Bool} {view : ViewId}
    {h h' : H} {r : Except Failure (List ViewLine)}
    (renders : T.Renders source navigation view h r h') : books h' = books h := by
  cases renders with
  | noTree call => exact keeps.tree call
  | notShown call fails => rw [keeps.showLines fails, keeps.tree call]
  | shown call shows => rw [keeps.showLines shows, keeps.tree call]

/-- Ending subscriptions takes each of them off the books. -/
theorem unsubscribes (keeps : T.Keeps books) {subs : List SubscriptionId} {h h' : H}
    (ends : T.Unsubscribes subs h h') :
    books h' = subs.foldl (fun k sub => k.unsubscribed sub) (books h) := by
  induction ends with
  | nil h => rfl
  | cons first _ ih => rw [List.foldl_cons, ih, (keeps.unsubscribe first).2]

/-- No subscription fails to be ended. -/
theorem not_unsubscribesUntil (keeps : T.Keeps books) {subs left : List SubscriptionId} {h h' : H}
    {e : Failure} : ¬ T.UnsubscribesUntil subs h e left h' := by
  intro ends
  induction ends with
  | here fails => cases (keeps.unsubscribe fails).1
  | later _ _ ih => exact ih

/-- A clean-up of subscriptions takes each of them off the books. -/
theorem tidies (keeps : T.Keeps books) {title : String} {subs : List SubscriptionId} {h h' : H}
    (tidies : T.Tidies title subs h h') :
    books h' = subs.foldl (fun k sub => k.unsubscribed sub) (books h) := by
  cases tidies with
  | done all => exact keeps.unsubscribes all
  | failed some logs => exact (keeps.not_unsubscribesUntil some).elim

/-- A clean-up of a view takes it off the books. -/
theorem clears (keeps : T.Keeps books) {title : String} {view : ViewId} {h h' : H}
    (clears : T.Clears title view h h') : books h' = (books h).closed view := by
  cases clears with
  | done call => exact (keeps.destroyView call).2
  | failed call logs => cases (keeps.destroyView call).1

/-- What a failed binding had subscribed by then is all that its undoing has to take back. -/
theorem binds_tidies (keeps : T.Keeps books) {source : SourceId} {navigation : Bool}
    {id : SessionId} {view : ViewId} {title : String} {e : Failure} {made : List SubscriptionId}
    {h₁ h₂ h₃ : H} (binds : T.Binds source navigation id view h₁ (.error (e, made)) h₂)
    (tidies : T.Tidies title made h₂ h₃) : books h₃ = books h₁ := by
  rw [keeps.tidies tidies]
  cases binds with
  | unrendered renders => exact keeps.renders renders
  | noCommit renders fails => rw [List.foldl_nil, keeps.notSubscribed fails, keeps.renders renders]
  | noDestroy renders first fails =>
    obtain ⟨hnew, hfirst⟩ := keeps.subscribed first
    rw [List.foldl_cons, List.foldl_nil, keeps.notSubscribed fails, hfirst,
      Books.unsubscribed_subscribed hnew, keeps.renders renders]

/-- The binding of a session has the view it was made for and a subscription to each event. -/
theorem binds_ok (keeps : T.Keeps books) {source : SourceId} {navigation : Bool}
    {id : SessionId} {view : ViewId} {binding : Binding} {h h' : H}
    (binds : T.Binds source navigation id view h (.ok binding) h') :
    ∃ commit destroy, binding.view = view ∧ binding.subscriptions = [destroy, commit] ∧
      (books h).subscribers commit = none ∧
      ((books h).subscribed commit ⟨source, .commit, .session id .commit⟩).subscribers destroy =
        none ∧
      books h' = ((books h).subscribed commit ⟨source, .commit, .session id .commit⟩).subscribed
        destroy ⟨source, .destroy, .session id .destroy⟩ := by
  cases binds with
  | bound renders first second =>
    obtain ⟨hcommit, hfirst⟩ := keeps.subscribed first
    obtain ⟨hdestroy, hsecond⟩ := keeps.subscribed second
    rw [keeps.renders renders] at hcommit hfirst
    rw [hfirst] at hdestroy hsecond
    exact ⟨_, _, rfl, rfl, hcommit, hdestroy, hsecond⟩

end Keeps

end

end Terms

end TreeInspector
