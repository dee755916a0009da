import TreeInspector.Proofs.Session.Deeds
import TreeInspector.Proofs.Session.Separation

/-!
# Operations on sessions keep to their source

On a confined host, every operation on a session keeps to the source that the session is bound to,
and opening a view keeps to the source that it is of, whether the operation ends well or fails. So
the sources stay apart along every run, and each move about one source spares all others.
-/

set_option autoImplicit false

namespace TreeInspector

section

variable {H C A B : Type} {P : Parts H A B} {host : Host H C} {source : SourceId}
  {w : World H C} {id : SessionId}

namespace Session

/-! ## Parts of operations -/

/-- A session that is found is bound to the source to which it is tied. -/
theorem find_keeps (hw : w.Apart P) (htied : w.Tied id source) :
    (find id : Action H C Session).Keeps P source w fun s w' =>
      w' = w ∧ w.sessions[id]? = some s ∧ s.source = source := by
  unfold find Action.Keeps
  rw [Action.ensures_bind, Action.ensures_get]
  cases hs : w.sessions[id]? with
  | none => exact .refl hw
  | some s => exact ⟨.refl hw, rfl, rfl, htied s hs⟩

/-- Asking for the title of a session keeps to its source. -/
theorem title_keeps (hhost : host.Confined P) (hw : w.Apart P) (htied : w.Tied id source) :
    (title host id).Keeps P source w fun _ _ => True := by
  refine (find_keeps hw htied).bind ?_
  rintro s _ - ⟨rfl, -, rfl⟩
  exact (hhost.sourceName s.source).keeps_source hw

/-- Asking for the binding of an active session keeps to its source, and the view is in nobody's
way. -/
theorem activeBinding_keeps (hw : w.Apart P) (htied : w.Tied id source)
    (operation : SessionOperation) :
    (activeBinding operation id : Action H C (Nat × Binding)).Keeps P source w fun x w' =>
      w' = w ∧ x.2.view ∈ w.Free source := by
  refine (find_keeps hw htied).bind ?_
  rintro s _ - ⟨rfl, hs, hsource⟩
  cases hcurrent : s.current with
  | none => exact Action.keeps_throw hw _
  | some b =>
    cases hbinding : s.binding? with
    | none => exact Action.keeps_throw hw _
    | some binding =>
      obtain ⟨b', -, hb'⟩ := binding?_eq_some_iff.1 hbinding
      refine Action.keeps_pure hw ⟨rfl, hw.free_of_owns ?_⟩
      exact ⟨id, s, hs, hsource, binding, List.mem_of_getElem? hb', rfl⟩

/-- Filling a view of a session keeps to its source. -/
theorem render_keeps (hhost : host.Confined P) (hw : w.Apart P) (htied : w.Tied id source)
    {view : ViewId} (hfree : view ∈ w.Free source) :
    (render host id view).Keeps P source w fun _ _ => True := by
  refine (find_keeps hw htied).bind ?_
  rintro s _ - ⟨rfl, -, rfl⟩
  refine ((hhost.tree s.source).keeps_source hw).bind ?_
  intro tree w₁ hkept₁ _
  refine ((hhost.showLines view _).keeps_view hkept₁.apart (hkept₁.free hfree)).bind ?_
  intro _ w₂ hkept₂ _
  exact Action.keeps_pure hkept₂.apart trivial

/-- A session of the source changes, but gets no view and no subscription that it did not have. -/
theorem modify_keeps (hw : w.Apart P) (htied : w.Tied id source) {f : Session → Session}
    (hf : ∀ s, (f s).source = s.source)
    (hbindings : ∀ s, w.sessions[id]? = some s → ∀ b ∈ (f s).bindings, ∃ b' ∈ s.bindings,
      b.view = b'.view ∧ b.subscriptions ⊆ b'.subscriptions) :
    (modify fun w => w.modifySession id f : Action H C PUnit).Keeps P source w
      fun _ _ => True := by
  refine ⟨?_, trivial⟩
  cases hs : w.sessions[id]? with
  | none =>
    have hsame : w.sessions.modify id f = w.sessions :=
      List.modify_eq_self (List.getElem?_eq_none_iff.1 hs)
    show w.KeptTo P source { w with sessions := w.sessions.modify id f }
    rw [hsame]
    exact .refl hw
  | some s =>
    have hsource := htied s hs
    refine hw.modifySession hs hsource ((hf s).trans hsource) ?_
    intro b hb
    obtain ⟨b', hb', hview, hsubs⟩ := hbindings s hs b hb
    have howns : w.Owns source b.view := ⟨id, s, hs, hsource, b', hb', hview.symm⟩
    refine ⟨hw.made howns, hw.free_of_owns howns, ?_⟩
    intro sub hsub
    exact hw.subscribed ⟨id, s, hs, hsource, b', hb', hsubs hsub⟩

/-- A binding after a change is one from before, or comes from one by the change. -/
theorem mem_modify_bindings {bindings : List Binding} {b : Nat} {f : Binding → Binding}
    {binding : Binding} (h : binding ∈ bindings.modify b f) :
    ∃ old, bindings[b]? = some old ∧ binding = f old ∨ binding ∈ bindings := by
  obtain ⟨i, hi⟩ := List.mem_iff_getElem?.1 h
  rw [List.getElem?_modify] at hi
  obtain ⟨old, hold, hsame⟩ := Option.map_eq_some_iff.1 hi
  by_cases hbi : b = i
  · subst hbi
    exact ⟨old, .inl ⟨hold, by simpa using hsame.symm⟩⟩
  · refine ⟨old, .inr ?_⟩
    have hkept : old = binding := by simpa [hbi] using hsame
    exact hkept ▸ List.mem_of_getElem? hold

/-- A binding of a session of the source changes, but keeps its view and gets no subscription. -/
theorem modifyBinding_keeps (hw : w.Apart P) (htied : w.Tied id source) {b : Nat}
    {f : Binding → Binding}
    (hf : ∀ s binding, w.sessions[id]? = some s → s.bindings[b]? = some binding →
      (f binding).view = binding.view ∧ (f binding).subscriptions ⊆ binding.subscriptions) :
    (modifyBinding id b f : Action H C Unit).Keeps P source w fun _ _ => True := by
  refine modify_keeps hw htied (fun _ => rfl) ?_
  intro s hs binding hbinding
  obtain ⟨old, ⟨hold, rfl⟩ | hsame⟩ := mem_modify_bindings hbinding
  · exact ⟨old, List.mem_of_getElem? hold, hf s old hs hold⟩
  · exact ⟨binding, hsame, rfl, List.Subset.refl _⟩

/-- Taking the latest subscription off a session keeps to its source, to which the subscription was
made. -/
theorem popSubscription_keeps (hw : w.Apart P) (htied : w.Tied id source) (b : Nat) :
    (popSubscription id b : Action H C (Option SubscriptionId)).Keeps P source w fun latest w' =>
      ∀ sub, latest = some sub → P.Belongs source w'.host sub := by
  refine (find_keeps hw htied).bind ?_
  rintro s _ - ⟨rfl, hs, hsource⟩
  cases hbinding : s.bindings[b]? with
  | none => exact Action.keeps_pure hw (fun _ h => by cases h)
  | some binding =>
    cases hsubs : binding.subscriptions with
    | nil =>
      simp only [hsubs]
      exact Action.keeps_pure hw (fun _ h => by cases h)
    | cons latest rest =>
      simp only [hsubs]
      refine (modifyBinding_keeps hw htied ?_).bind ?_
      · intro s' binding' hs' hbinding'
        rw [hs] at hs'
        cases hs'
        rw [hbinding] at hbinding'
        cases hbinding'
        exact ⟨rfl, hsubs ▸ List.subset_cons_self latest rest⟩
      · intro _ w₁ hkept₁ _
        refine Action.keeps_pure hkept₁.apart ?_
        rintro _ ⟨⟩
        refine hkept₁.belongs (hw.subscribed ⟨id, s, hs, hsource, binding,
          List.mem_of_getElem? hbinding, ?_⟩)
        rw [hsubs]
        exact List.mem_cons_self

/-- Ending a subscription to a source keeps to it. -/
theorem unsubscribe_keeps (hhost : host.Confined P) (hw : w.Apart P) {sub : SubscriptionId}
    (hbelongs : P.Belongs source w.host sub) :
    (host.unsubscribe sub).Keeps P source w fun _ _ => True := by
  refine ((hhost.unsubscribe sub).keeps hw ?_).mono fun _ _ _ _ => trivial
  intro r h within
  refine within.mono ?_ (Set.empty_subset _) (Set.empty_subset _)
  rintro i ⟨who, hwho, rfl⟩
  obtain ⟨who', hwho', rfl⟩ := hbelongs
  rw [hwho] at hwho'
  cases hwho'
  rfl

/-- Ending the subscriptions of a session keeps to its source. -/
theorem endSubscriptions_keeps (hhost : host.Confined P) (b rounds : Nat) :
    ∀ {w : World H C}, w.Apart P → w.Tied id source →
      (endSubscriptions host id b rounds).Keeps P source w fun _ _ => True := by
  induction rounds with
  | zero =>
    intro w hw _
    exact Action.keeps_pure hw trivial
  | succ rounds ih =>
    intro w hw htied
    refine (popSubscription_keeps hw htied b).bind ?_
    intro latest w₁ hkept₁ hlatest
    cases latest with
    | none => exact Action.keeps_pure hkept₁.apart trivial
    | some sub =>
      refine (unsubscribe_keeps hhost hkept₁.apart (hlatest sub rfl)).bind ?_
      intro _ w₂ hkept₂ _
      exact ih hkept₂.apart (hkept₂.tied (hkept₁.tied htied))

/-- A part of a clean-up keeps to the source, and so does what is logged if it fails. -/
theorem cleanUp_keeps (hhost : host.Confined P) (title : String) {part : Action H C Unit}
    (hpart : part.Keeps P source w fun _ _ => True) :
    (cleanUp host title part).Keeps P source w fun _ _ => True := by
  refine hpart.attempt.bind ?_
  intro r w₁ hkept₁ _
  cases r with
  | ok _ => exact Action.keeps_pure hkept₁.apart trivial
  | error e => exact (hhost.log _).keeps_all hkept₁.apart

/-- Undoing what was made for a session keeps to its source. -/
theorem undo_keeps {α : Type} (hhost : host.Confined P) (hw : w.Apart P) (title : String)
    {view : ViewId} (hfree : view ∈ w.Free source) {subs : List SubscriptionId}
    (hsubs : ∀ sub ∈ subs, P.Belongs source w.host sub) (reason : Failure)
    {Q : α → World H C → Prop} :
    (undo host title view subs reason : Action H C α).Keeps P source w Q := by
  have hends : (subs.forM host.unsubscribe).Keeps P source w fun _ _ => True :=
    Action.keeps_forM hw subs fun sub hsub w' hkept' =>
      unsubscribe_keeps hhost hkept'.apart (hkept'.belongs (hsubs sub hsub))
  refine (cleanUp_keeps hhost title hends).bind ?_
  intro _ w₁ hkept₁ _
  refine (cleanUp_keeps hhost title
    ((hhost.destroyView view).keeps_view hkept₁.apart (hkept₁.free hfree))).bind ?_
  intro _ w₂ hkept₂ _
  exact Action.keeps_throw hkept₂.apart reason

/-- Subscribing a session to its source keeps to it. -/
theorem subscribe_keeps (hhost : host.Confined P) (hw : w.Apart P) (hbound : w.Bound id source)
    (event event' : Notice) :
    (host.subscribe source event (.session id event')).Keeps P source w fun sub w' =>
      P.Belongs source w'.host sub := by
  refine ((hhost.subscribe source event (.session id event')).keeps hw ?_).mono ?_
  · rintro r h ⟨within, -⟩
    refine within.mono subset_rfl (Set.empty_subset _) (Set.singleton_subset_iff.2 ?_)
    rintro _ _ ⟨⟩
    exact hbound
  · rintro sub w₁ - ⟨-, hsub⟩
    exact ⟨_, hsub sub rfl, rfl⟩

/-- A new view is filled and subscribed for a session of the source, or all of it is undone. -/
theorem bindView_keeps (hhost : host.Confined P) (hw : w.Apart P) (htied : w.Tied id source)
    (title : String) {view : ViewId} (hfree : view ∈ w.Free source) :
    (bindView host id title view).Keeps P source w fun binding w' =>
      binding.view = view ∧ ∀ sub ∈ binding.subscriptions, P.Belongs source w'.host sub := by
  refine (find_keeps hw htied).bind ?_
  rintro s _ - ⟨rfl, hs, rfl⟩
  refine (render_keeps hhost hw htied hfree).attempt.bind ?_
  intro rendered w₁ hkept₁ _
  cases rendered with
  | error e => exact undo_keeps hhost hkept₁.apart title (hkept₁.free hfree) (by simp) e
  | ok lines =>
    have hbound₁ := hkept₁.bound (htied.bound hs)
    refine (subscribe_keeps hhost hkept₁.apart hbound₁ .commit .commit).attempt.bind ?_
    intro first w₂ hkept₂ hfirst
    have hkept := hkept₁.trans hkept₂
    cases first with
    | error e => exact undo_keeps hhost hkept₂.apart title (hkept.free hfree) (by simp) e
    | ok commit =>
      refine (subscribe_keeps hhost hkept₂.apart (hkept₂.bound hbound₁) .destroy
        .destroy).attempt.bind ?_
      intro second w₃ hkept₃ hsecond
      have hcommit := hkept₃.belongs (hfirst commit rfl)
      cases second with
      | error e =>
        refine undo_keeps hhost hkept₃.apart title ((hkept.trans hkept₃).free hfree) ?_ e
        intro sub hsub
        rw [List.mem_singleton.1 hsub]
        exact hcommit
      | ok destroy =>
        refine Action.keeps_pure hkept₃.apart ⟨rfl, ?_⟩
        intro sub hsub
        rcases List.mem_cons.1 hsub with rfl | hsub
        · exact hsecond sub rfl
        · rw [List.mem_singleton.1 hsub]
          exact hcommit

/-! ## Operations on a session -/

/-- Enabling a session keeps to its source. -/
theorem enable_keeps (hhost : host.Confined P) (hw : w.Apart P) (htied : w.Tied id source) :
    (enable host id).Keeps P source w fun _ _ => True := by
  refine (find_keeps hw htied).bind ?_
  rintro s _ - ⟨rfl, hs, -⟩
  dsimp only
  split
  · exact Action.keeps_throw hw _
  refine (title_keeps hhost hw htied).bind ?_
  intro title w₁ hkept₁ _
  refine ((hhost.createView _).keeps hkept₁.apart fun h => h.1.mono (Set.empty_subset _)
    (Set.empty_subset _) (Set.empty_subset _)).bind ?_
  rintro view w₂ hkept₂ ⟨-, hview⟩
  obtain ⟨hnew, hmade⟩ := hview view rfl
  have hfree := hkept₂.free (hkept₁.apart.free_of_unmade hnew)
  have htied₂ := hkept₂.tied (hkept₁.tied htied)
  refine (bindView_keeps hhost hkept₂.apart htied₂ title hfree).bind ?_
  rintro binding w₃ hkept₃ ⟨rfl, hsubs⟩
  obtain ⟨s₃, hs₃, hsource₃⟩ :=
    hkept₃.bound (hkept₂.bound (hkept₁.bound (htied.bound hs)))
  have hbound : (modify fun w => w.modifySession id (bound binding) :
      Action H C PUnit).Keeps P source w₃ fun _ _ => True := by
    refine ⟨hkept₃.apart.modifySession hs₃ hsource₃ hsource₃ ?_, trivial⟩
    intro b hb
    rcases List.mem_append.1 hb with hold | hlast
    · have howns : w₃.Owns source b.view := ⟨id, s₃, hs₃, hsource₃, b, hold, rfl⟩
      refine ⟨hkept₃.apart.made howns, hkept₃.apart.free_of_owns howns, ?_⟩
      intro sub hsub
      exact hkept₃.apart.subscribed ⟨id, s₃, hs₃, hsource₃, b, hold, hsub⟩
    · rw [List.mem_singleton.1 hlast]
      exact ⟨hkept₃.made hmade, hkept₃.free hfree, hsubs⟩
  refine hbound.bind ?_
  intro _ w₄ hkept₄ _
  exact (hhost.log _).keeps_all hkept₄.apart

/-- Refreshing a session keeps to its source. -/
theorem refresh_keeps (hhost : host.Confined P) (hw : w.Apart P) (htied : w.Tied id source) :
    (refresh host id).Keeps P source w fun _ _ => True := by
  refine (activeBinding_keeps hw htied .sourceChanged).bind ?_
  rintro ⟨b, binding⟩ _ - ⟨rfl, hfree⟩
  refine (render_keeps hhost hw htied hfree).bind ?_
  intro lines w₁ hkept₁ _
  refine (modifyBinding_keeps hkept₁.apart (hkept₁.tied htied) ?_).bind ?_
  · intro s binding' _ _
    exact ⟨rfl, List.Subset.refl _⟩
  intro _ w₂ hkept₂ _
  have htied₂ := hkept₂.tied (hkept₁.tied htied)
  refine (title_keeps hhost hkept₂.apart htied₂).bind ?_
  intro title w₃ hkept₃ _
  refine (find_keeps hkept₃.apart (hkept₃.tied htied₂)).bind ?_
  rintro s _ - ⟨rfl, -, -⟩
  exact (hhost.log _).keeps_all hkept₃.apart

/-- Telling the registry that a session has ended keeps to its source. -/
theorem release_keeps (hw : w.Apart P) (htied : w.Tied id source) :
    (release id : Action H C Unit).Keeps P source w fun _ _ => True := by
  refine (find_keeps hw htied).bind ?_
  rintro s _ - ⟨rfl, -, rfl⟩
  split
  · unfold Action.Keeps
    rw [Action.ensures_modify]
    split
    · refine ⟨hw.withRegistry ?_ ?_, trivial⟩
      · intro i id' hentry
        exact .inl (List.mem_filter.1 hentry).1
      · intro i hi
        exact World.sessionFor?_filter_of_ne hi rfl rfl
    · exact ⟨.refl hw, trivial⟩
  · exact Action.keeps_pure hw trivial

/-- Ending a session keeps to its source. -/
theorem finish_keeps (hhost : host.Confined P) (hw : w.Apart P) (htied : w.Tied id source)
    (operation : SessionOperation) (reason : EndReason) :
    (finish host id operation reason).Keeps P source w fun _ _ => True := by
  refine (activeBinding_keeps hw htied operation).bind ?_
  rintro ⟨b, binding⟩ _ - ⟨rfl, hfree⟩
  refine (title_keeps hhost hw htied).bind ?_
  intro title w₁ hkept₁ _
  refine (endSubscriptions_keeps hhost b _ hkept₁.apart (hkept₁.tied htied)).bind ?_
  intro _ w₂ hkept₂ _
  have htied₂ := hkept₂.tied (hkept₁.tied htied)
  refine (modify_keeps hkept₂.apart htied₂ ?_ ?_).bind ?_
  · exact fun _ => rfl
  · intro s _ b' hb'
    exact ⟨b', hb', rfl, List.Subset.refl _⟩
  intro _ w₃ hkept₃ _
  have hfree₃ := hkept₃.free (hkept₂.free (hkept₁.free hfree))
  refine ((hhost.destroyView binding.view).keeps_view hkept₃.apart hfree₃).bind ?_
  intro _ w₄ hkept₄ _
  refine ((hhost.log _).keeps_all hkept₄.apart).bind ?_
  intro _ w₅ hkept₅ _
  exact release_keeps hkept₅.apart (hkept₅.tied (hkept₄.tied (hkept₃.tied htied₂)))

/-- Notifying a session keeps to its source. -/
theorem notify_keeps (hhost : host.Confined P) (hw : w.Apart P) (htied : w.Tied id source)
    (event : Notice) : (notify host id event).Keeps P source w fun _ _ => True := by
  refine (find_keeps hw htied).bind ?_
  rintro s _ - ⟨rfl, -, -⟩
  split
  · cases event with
    | commit => exact refresh_keeps hhost hw htied
    | destroy => exact finish_keeps hhost hw htied .sourceDestroyed .sourceDestroyed
  · refine (title_keeps hhost hw htied).bind ?_
    intro title w₁ hkept₁ _
    exact (hhost.log _).keeps_all hkept₁.apart

/-! ## Navigation -/

/-- Checking that a session is bound keeps to its source. -/
theorem checkBound_keeps (hhost : host.Confined P) (hw : w.Apart P) (htied : w.Tied id source) :
    (checkBound host id).Keeps P source w fun _ _ => True := by
  refine (find_keeps hw htied).bind ?_
  rintro s _ - ⟨rfl, -, -⟩
  cases s.state with
  | active => exact Action.keeps_pure hw trivial
  | inactive =>
    dsimp only
    split
    · refine (title_keeps hhost hw htied).bind ?_
      intro title w₁ hkept₁ _
      exact Action.keeps_throw hkept₁.apart _
    · exact Action.keeps_throw hw _

/-- A jump of a session keeps to its source. -/
theorem jump_keeps (hhost : host.Confined P) (hw : w.Apart P) (htied : w.Tied id source)
    (target : Target) : (jump host id target).Keeps P source w fun _ _ => True := by
  refine (checkBound_keeps hhost hw htied).bind ?_
  intro _ w₁ hkept₁ _
  have htied₁ := hkept₁.tied htied
  cases target.span with
  | none => exact Action.keeps_throw hkept₁.apart _
  | some span =>
    refine (find_keeps hkept₁.apart htied₁).bind ?_
    rintro s _ - ⟨rfl, -, rfl⟩
    refine ((hhost.isAvailable s.source).keeps_source hkept₁.apart).bind ?_
    intro available w₂ hkept₂ _
    have htied₂ := hkept₂.tied htied₁
    cases available with
    | true =>
      refine (find_keeps hkept₂.apart htied₂).bind ?_
      rintro s' _ - ⟨rfl, -, -⟩
      refine ((hhost.focus s.source span _).keeps_source hkept₂.apart).bind ?_
      intro _ w₃ hkept₃ _
      exact Action.keeps_pure hkept₃.apart trivial
    | false =>
      refine (title_keeps hhost hkept₂.apart htied₂).bind ?_
      intro title w₃ hkept₃ _
      exact Action.keeps_throw hkept₃.apart _

/-- Navigating a session keeps to its source. -/
theorem navigate_keeps (hhost : host.Confined P) (hw : w.Apart P) (htied : w.Tied id source)
    (index : Number) : (navigate host id index).Keeps P source w fun _ _ => True := by
  refine (checkBound_keeps hhost hw htied).bind ?_
  intro _ w₁ hkept₁ _
  have htied₁ := hkept₁.tied htied
  refine (find_keeps hkept₁.apart htied₁).bind ?_
  rintro s _ - ⟨rfl, -, -⟩
  dsimp only
  split
  · exact jump_keeps hhost hkept₁.apart htied₁ _
  · exact Action.keeps_throw hkept₁.apart _

end Session

namespace Registry

/-- Logging how a jump ended keeps to the source. -/
theorem logged_keeps (hhost : host.Confined P) (htied : w.Tied id source)
    {jump : Action H C Session.Jump} (hjump : jump.Keeps P source w fun _ _ => True) :
    (logged host id jump).Keeps P source w fun _ _ => True := by
  have hguarded : (do
      let result ← jump
      let title ← Session.title host id
      host.log ("Navigated " ++ title ++ " to " ++ result.span.text ++ ".")
      return result : Action H C Session.Jump).Keeps P source w fun _ _ => True := by
    refine hjump.bind ?_
    intro result w₁ hkept₁ _
    refine (Session.title_keeps hhost hkept₁.apart (hkept₁.tied htied)).bind ?_
    intro title w₂ hkept₂ _
    refine ((hhost.log _).keeps_all hkept₂.apart).bind ?_
    intro _ w₃ hkept₃ _
    exact Action.keeps_pure hkept₃.apart trivial
  refine hguarded.attempt.bind ?_
  intro result w₁ hkept₁ _
  cases result with
  | ok result => exact Action.keeps_pure hkept₁.apart trivial
  | error e =>
    refine ((hhost.log _).keeps_all hkept₁.apart).bind ?_
    intro _ w₂ hkept₂ _
    exact Action.keeps_throw hkept₂.apart e

/-- A session of the source is put in charge of it. -/
theorem recorded_kept (hw : w.Apart P) (hbound : w.Bound id source) :
    w.KeptTo P source (w.recorded source id) := by
  refine hw.withRegistry ?_ ?_
  · intro i id' hentry
    unfold record at hentry
    split at hentry
    · obtain ⟨entry, hmem, hsame⟩ := List.mem_map.1 hentry
      split at hsame
      · cases hsame
        exact .inr ⟨rfl, hbound⟩
      · rw [hsame] at hmem
        exact .inl hmem
    · rcases List.mem_append.1 hentry with hold | hlast
      · exact .inl hold
      · cases List.mem_singleton.1 hlast
        exact .inr ⟨rfl, hbound⟩
  · intro i hi
    exact (World.sessionFor?_recorded source i id w).trans (if_neg hi)

/-- Enabling a view of a source keeps to it. -/
theorem enable_keeps (hhost : host.Confined P) (hw : w.Apart P) (settings : Settings) :
    (enable host source settings).Keeps P source w fun _ _ => True := by
  unfold enable Action.Keeps
  rw [Action.ensures_bind, Action.ensures_get]
  cases hfor : w.sessionFor? source with
  | some existing =>
    -- The session in charge is one of the source, so that asking for its title is about the source.
    have htied := (hw.entries (World.mem_of_sessionFor?_eq_some hfor)).tied
    refine (Session.find_keeps hw htied).bind ?_
    rintro s _ - ⟨rfl, -, -⟩
    refine (Session.title_keeps hhost hw htied).bind ?_
    intro title w₁ hkept₁ _
    exact Action.keeps_throw hkept₁.apart _
  | none =>
    have hcreated : (Session.create source settings.resolve true : Action H C SessionId).Keeps P
        source w fun id w' => w'.Bound id source := by
      refine ⟨hw.withSession (s := freshSession source settings) rfl rfl, ?_⟩
      exact ⟨freshSession source settings, List.getElem?_concat_length, rfl⟩
    refine hcreated.bind ?_
    intro id w₁ hkept₁ hbound
    refine (Session.enable_keeps hhost hkept₁.apart hbound.tied).bind ?_
    intro _ w₂ hkept₂ _
    have hrecorded : (modify fun w => { w with registry := record source id w.registry } :
        Action H C PUnit).Keeps P source w₂ fun _ _ => True :=
      ⟨recorded_kept hkept₂.apart (hkept₂.bound hbound), trivial⟩
    refine hrecorded.bind ?_
    intro _ w₃ hkept₃ _
    exact Action.keeps_pure hkept₃.apart trivial

end Registry

/-! ## Deeds and moves -/

/-- The deed is one on the source, or on a session that is bound to it. -/
def Deed.About (source : SourceId) (w : World H C) : Deed → Prop
  | .call (.enable source' _) | .create source' _ => source' = source
  | .call (.disable id) | .call (.navigate id _) | .call (.jump id _)
  | .call (.disableSession id) | .call (.refresh id) | .call (.sourceDestroyed id)
  | .call (.notify id _) | .enableSession id => w.Tied id source

/-- A deed about a source stays so while everything keeps to it. -/
theorem Deed.About.kept {d : Deed} {w' : World H C} (habout : d.About source w)
    (hkept : w.KeptTo P source w') : d.About source w' := by
  cases d with
  | create source' options => exact habout
  | enableSession id => exact hkept.tied habout
  | call c =>
    cases c with
    | enable source' settings => exact habout
    | _ => exact hkept.tied habout

/-- Every deed is about a source. -/
theorem Deed.exists_about (d : Deed) (w : World H C) : ∃ source, d.About source w := by
  have htied : ∀ id, ∃ source, w.Tied id source := by
    intro id
    cases hs : w.sessions[id]? with
    | none => exact ⟨0, fun s hs' => by rw [hs] at hs'; cases hs'⟩
    | some s => exact ⟨s.source, (World.Bound.tied ⟨s, hs, rfl⟩)⟩
  cases d with
  | create source options => exact ⟨source, rfl⟩
  | enableSession id => exact htied id
  | call c =>
    cases c with
    | enable source settings => exact ⟨source, rfl⟩
    | _ => exact htied _

/-- A deed keeps to the source that it is about. -/
theorem Deed.run_keeps (hhost : host.Confined P) (hw : w.Apart P) {d : Deed}
    (habout : d.About source w) : (d.run host).Keeps P source w fun _ _ => True := by
  -- What a deed returns does not matter.
  have hdropped : ∀ {α : Type} {a : Action H C α}, a.Keeps P source w (fun _ _ => True) →
      (do let _ ← a : Action H C Unit).Keeps P source w fun _ _ => True := by
    intro α a ha
    refine ha.bind ?_
    intro _ w₁ hkept₁ _
    exact Action.keeps_pure hkept₁.apart trivial
  cases d with
  | create source' options =>
    refine hdropped ⟨hw.withSession (s := looseSession source' options) habout rfl, trivial⟩
  | enableSession id => exact Session.enable_keeps hhost hw habout
  | call c =>
    cases c with
    | enable source' settings =>
      cases habout
      exact hdropped (Registry.enable_keeps hhost hw settings)
    | disable id => exact Session.finish_keeps hhost hw habout .disable .disabled
    | navigate id index =>
      exact hdropped (Registry.logged_keeps hhost habout
        (Session.navigate_keeps hhost hw habout index))
    | jump id target =>
      exact hdropped (Registry.logged_keeps hhost habout
        (Session.jump_keeps hhost hw habout target))
    | disableSession id => exact Session.finish_keeps hhost hw habout .disable .disabled
    | refresh id => exact Session.refresh_keeps hhost hw habout
    | sourceDestroyed id =>
      exact Session.finish_keeps hhost hw habout .sourceDestroyed .sourceDestroyed
    | notify id event => exact Session.notify_keeps hhost hw habout event

namespace Move

/-- All that the move does is about the source: an announcement goes to sessions of the source. -/
def About (source : SourceId) (w : World H C) (m : Move) : Prop :=
  ∀ d ∈ m.deeds w, d.About source w

/-- A move about a source keeps to it. -/
theorem run_keeps (hhost : host.Confined P) (hw : w.Apart P) {m : Move}
    (habout : m.About source w) : (m.run host).Keeps P source w fun _ _ => True := by
  unfold Action.Keeps Action.Ensures
  rw [m.run_eq]
  refine Action.keeps_forM hw (m.deeds w) ?_
  intro d hd w' hkept
  exact d.run_keeps hhost hkept.apart ((habout d hd).kept hkept)

/-- Whatever a move is about, it leaves the sources apart. -/
theorem run_apart (hhost : host.Confined P) (hw : w.Apart P) (m : Move) :
    ((m.run host).outcome w).2.Apart P := by
  refine Action.Ensures.outcome (P := fun _ w' => w'.Apart P) ?_
  unfold Action.Ensures
  rw [m.run_eq]
  refine Action.ensures_forM (I := fun w' => w'.Apart P) (m.deeds w) ?_ w hw
  intro d _ w' hw'
  obtain ⟨source, habout⟩ := d.exists_about w'
  exact Action.Ensures.mono (d.run_keeps hhost hw' habout) (fun _ _ h => h.1.apart)
    (fun _ _ h => h.apart)

end Move

/-! ## Runs -/

/-- The worlds that a run on a host can reach. Between moves the host may go on by itself: it may
change anything, but what was made stays made, and no session is newly called. -/
inductive SeparateRun (P : Parts H A B) (host : Host H C) : World H C → Prop where
  | start {w : World H C} (noSessions : w.sessions = []) (noEntries : w.registry = [])
      (sound : P.sound w.host)
      (uncalled : ∀ {sub who}, P.subscriber w.host sub = some who →
        ∀ id event, who.callback ≠ .session id event) : SeparateRun P host w
  | move {w : World H C} (before : SeparateRun P host w) (m : Move) :
      SeparateRun P host ((m.run host).outcome w).2
  | aside {w : World H C} {h : H} {c : C} (before : SeparateRun P host w) (sound : P.sound h)
      (within : P.Within Set.univ Set.univ {who | ∀ id event, who.callback ≠ .session id event}
        w.host h) : SeparateRun P host (w.beside h c)

/-- The sources are apart in every world that a run reaches. -/
theorem SeparateRun.apart (hhost : host.Confined P) (run : SeparateRun P host w) : w.Apart P := by
  induction run with
  | @start w noSessions noEntries sound uncalled =>
    have hnone : ∀ {i : SessionId} {s}, w.sessions[i]? ≠ some s := by
      intro i s
      simp [noSessions]
    refine ⟨sound, ?_, ?_, ?_, ?_, ?_⟩
    · rintro _ _ ⟨i, s, hs, -⟩
      exact (hnone hs).elim
    · rintro _ _ _ ⟨i, s, hs, -⟩
      exact (hnone hs).elim
    · rintro _ _ ⟨i, s, hs, -⟩
      exact (hnone hs).elim
    · intro sub who hwho id event hcallback
      exact (uncalled hwho id event hcallback).elim
    · intro source id hentry
      rw [noEntries] at hentry
      cases hentry
  | move _ m ih => exact m.run_apart hhost ih
  | @aside w h c _ sound within ih =>
    refine ⟨sound, fun howns => within.made (ih.made howns), ih.views, ?_, ?_, ih.entries⟩
    · intro source sub hhears
      obtain ⟨who, hwho, hsource⟩ := ih.subscribed hhears
      exact ⟨who, within.subscriber hwho, hsource⟩
    · intro sub who hwho
      rcases within.newcomer hwho with hold | hclient
      · exact ih.called hold
      · intro id event hcallback
        exact (hclient id event hcallback).elim

/-- In every world that a run reaches, a move about one source spares all others. -/
theorem SeparateRun.spares (hhost : host.Confined P) (run : SeparateRun P host w) {m : Move}
    (habout : m.About source w) : w.Spares P source ((m.run host).outcome w).2 :=
  Action.Ensures.outcome (P := fun _ w' => w.Spares P source w')
    (Action.Ensures.mono (m.run_keeps hhost (run.apart hhost) habout) (fun _ _ h => h.1.spares)
      (fun _ _ h => h.spares))

end

end TreeInspector
