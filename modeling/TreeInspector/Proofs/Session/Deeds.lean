import TreeInspector.Proofs.Session.Stranding

/-!
# Sessions past the registry

A session need not come from the registry: it can be made by itself, and whoever holds one can
enable it, also after it has ended. `Deed` adds these two to the calls of a run. `Deed.run_does`
says what a deed can do and to which session, its subject; a move of a run is one deed after another
until one fails (`Move.run_eq`).
-/

set_option autoImplicit false

namespace TreeInspector

section

variable {H C : Type} {T : Terms H} {host : Host H C} {w w' : World H C}

/-- What may be done in a run: a call, or making or enabling a session past the registry. -/
inductive Deed where
  | call (c : Call)
  | create (source : SourceId) (options : Options)
  | enableSession (id : SessionId)

/-- The session that making one past the registry adds. -/
def looseSession (source : SourceId) (options : Options) : Session :=
  { source, options, registered := false }

namespace Deed

/-- Carries out a deed. -/
def run (host : Host H C) : Deed → Action H C Unit
  | .call c => c.run host
  | .create source options => do
    let _ ← Session.create source options false
  | .enableSession id => Session.enable host id

/-- The session whose operation a deed is. A view of a source is opened by the session that is made
for it. -/
def subject (w : World H C) : Deed → SessionId
  | .call (.enable ..) | .create .. => w.sessions.length
  | .call (.disable id) | .call (.navigate id _) | .call (.jump id _)
  | .call (.disableSession id) | .call (.refresh id) | .call (.sourceDestroyed id)
  | .call (.notify id _) | .enableSession id => id

/-- What a deed can do. -/
inductive Does (T : Terms H) (w : World H C) : Deed → Except Failure Unit → World H C → Prop where
  | tends {d : Deed} {r : Except Failure Unit} {w' : World H C}
      (tends : Session.TendsTo T w (d.subject w) r w') : Does T w d r w'
  | creates {source : SourceId} {options : Options} :
      Does T w (.create source options) (.ok ()) (w.withSession (looseSession source options))
  | enables {id : SessionId} {s : Session} {r : Except Failure Unit} {w' : World H C}
      (session : w.sessions[id]? = some s) (idle : s.binding? = none)
      (does : Session.Enables T w id s r w') : Does T w (.enableSession id) r w'
  | opens {source : SourceId} {settings : Settings} {r : Except Failure Unit} {w₁ : World H C}
      {registry : List (SourceId × SessionId)}
      (does : Session.Enables T (w.withSession (freshSession source settings)) w.sessions.length
        (freshSession source settings) r w₁) :
      Does T w (.call (.enable source settings)) r { w₁ with registry := registry }

/-- Whatever comes of the action in this world, it is something that the deed can do. -/
def Performs (T : Terms H) (d : Deed) (a : Action H C Unit) (w : World H C) : Prop :=
  a.Ensures w (fun _ w' => T.fit w'.host ∧ Does T w d (.ok ()) w')
    (fun e w' => T.fit w'.host ∧ Does T w d (.error e) w')

/-- An action that tends to the subject of a deed performs it. -/
theorem performs_of_tendsTo {d : Deed} {a : Action H C Unit} (ha : a.TendsTo T (d.subject w) w) :
    Performs T d a w :=
  ha.mono (fun _ _ h => ⟨h.1, .tends h.2⟩) (fun _ _ h => ⟨h.1, .tends h.2⟩)

/-- An action that only looks performs any deed. -/
theorem performs_of_onlyLooks {d : Deed} {a : Action H C Unit} (ha : Action.OnlyLooks T a)
    (hfit : T.fit w.host) : Performs T d a w :=
  performs_of_tendsTo (ha.tendsTo hfit _)

/-- Enabling the view of a source only looks, or makes a session and does what enabling that session
can do. -/
theorem enable_ensures (honours : host.Honours T) (hfit : T.fit w.host) (source : SourceId)
    (settings : Settings) {Q : Except Failure Unit → World H C → Prop}
    (looks : ∀ {r w'}, w.Looked T w' → Q r w')
    (opens : ∀ {r w₁ registry},
      Session.Enables T (w.withSession (freshSession source settings)) w.sessions.length
        (freshSession source settings) r w₁ → Q r { w₁ with registry := registry }) :
    (Call.run host (.enable source settings)).Ensures w
      (fun _ w' => T.fit w'.host ∧ Q (.ok ()) w')
      (fun e w' => T.fit w'.host ∧ Q (.error e) w') := by
  unfold Call.run
  rw [Action.ensures_bind]
  cases hfor : w.sessionFor? source with
  | some existing =>
    exact (Registry.enable_of_taken honours hfit hfor).mono (fun _ _ h => h.elim)
      (fun _ _ h => ⟨h.fit, looks h⟩)
  | none =>
    refine (Registry.enable_of_free honours hfit (World.sessionFor?_eq_none_iff.1 hfor)).mono
      ?_ ?_
    · rintro id _ ⟨-, hfit', w₁, rfl, hdoes⟩
      exact ⟨hfit', opens hdoes⟩
    · rintro e w' ⟨hfit', hdoes⟩
      exact ⟨hfit', opens hdoes⟩

/-- Enabling a view of a source performs that deed. -/
theorem enable_performs (honours : host.Honours T) (hfit : T.fit w.host) (source : SourceId)
    (settings : Settings) :
    Performs T (.call (.enable source settings)) (Call.run host (.enable source settings)) w :=
  enable_ensures honours hfit source settings (fun h => .tends (.looks h)) .opens

/-- Enabling a session that is active, or does not exist, only looks. -/
theorem enableSession_ensures (honours : host.Honours T) (hfit : T.fit w.host) (id : SessionId)
    {Q : Except Failure Unit → World H C → Prop} (looks : ∀ {r w'}, w.Looked T w' → Q r w')
    (enables : ∀ {s r w'}, w.sessions[id]? = some s → s.binding? = none →
      Session.Enables T w id s r w' → Q r w') :
    (Session.enable host id).Ensures w (fun _ w' => T.fit w'.host ∧ Q (.ok ()) w')
      (fun e w' => T.fit w'.host ∧ Q (.error e) w') := by
  cases hs : w.sessions[id]? with
  | none =>
    unfold Session.enable Session.find
    simp only [Action.ensures_bind, Action.ensures_get, hs, Action.ensures_throw]
    exact ⟨hfit, looks (.refl hfit)⟩
  | some s =>
    cases hbound : s.binding? with
    | none =>
      exact (Session.enable_enables honours hfit hs hbound).mono
        (fun _ _ h => ⟨h.1, enables hs hbound h.2⟩) (fun _ _ h => ⟨h.1, enables hs hbound h.2⟩)
    | some binding =>
      unfold Session.enable
      rw [Action.ensures_bind, Session.ensures_find hs]
      simp only [hbound, Option.isSome_some, if_true, Action.ensures_bind, Action.ensures_throw]
      exact ⟨hfit, looks (.refl hfit)⟩

/-- Enabling a session past the registry performs that deed. -/
theorem enableSession_performs (honours : host.Honours T) (hfit : T.fit w.host)
    (id : SessionId) : Performs T (.enableSession id) (Session.enable host id) w :=
  enableSession_ensures honours hfit id (fun h => .tends (.looks h)) .enables

/-- Every deed does one of the things that it can do. -/
theorem run_does (honours : host.Honours T) (hfit : T.fit w.host) (d : Deed) :
    Performs T d (d.run host) w := by
  cases d with
  | create source options => exact ⟨hfit, .creates⟩
  | enableSession id => exact enableSession_performs honours hfit id
  | call c =>
    cases c with
    | enable source settings => exact enable_performs honours hfit source settings
    | disable id =>
      exact performs_of_tendsTo (Session.finish_tendsTo honours hfit id .disable .disabled)
    | navigate id index =>
      exact performs_of_onlyLooks ((Action.OnlyLooks.logged honours id
        (.navigate honours id index)).bind fun _ => .pure _) hfit
    | jump id target =>
      exact performs_of_onlyLooks ((Action.OnlyLooks.logged honours id
        (.jump honours id target)).bind fun _ => .pure _) hfit
    | disableSession id =>
      exact performs_of_tendsTo (Session.finish_tendsTo honours hfit id .disable .disabled)
    | refresh id => exact performs_of_tendsTo (Session.refresh_tendsTo honours hfit id)
    | sourceDestroyed id =>
      exact performs_of_tendsTo
        (Session.finish_tendsTo honours hfit id .sourceDestroyed .sourceDestroyed)
    | notify id event => exact performs_of_tendsTo (Session.notify_tendsTo honours hfit id event)

end Deed

/-! ## The other sessions -/

section

variable {id i : SessionId} {s : Session} {b : Nat} {binding : Binding}
  {r : Except Failure Unit}

/-- Refreshing a session does not touch others. -/
theorem Session.Refreshes.others (does : Session.Refreshes T w id s b binding r w')
    (hi : i ≠ id) : w'.sessions[i]? = w.sessions[i]? := by
  have hother : ∀ f, (w.modifySession id f).sessions[i]? = w.sessions[i]? := by
    intro f
    rw [World.getElem?_modifySession, if_neg (Ne.symm hi)]
  cases does with
  | unrendered renders => rfl
  | unnamed renders name => exact hother _
  | done renders name logs => exact hother _

/-- Ending a session does not touch others. -/
theorem Session.Finishes.others {reason : EndReason}
    (does : Session.Finishes T w id s b binding reason r w') (hi : i ≠ id) :
    w'.sessions[i]? = w.sessions[i]? := by
  have hother : ∀ f, (w.modifySession id f).sessions[i]? = w.sessions[i]? := by
    intro f
    rw [World.getElem?_modifySession, if_neg (Ne.symm hi)]
  cases does with
  | unnamed name => rfl
  | interrupted name ends => exact hother _
  | viewLeft name ends view => exact hother _
  | done name ends view logs => exact hother _

/-- Enabling a session does not touch others. -/
theorem Session.Enables.others (does : Session.Enables T w id s r w') (hi : i ≠ id) :
    w'.sessions[i]? = w.sessions[i]? := by
  cases does with
  | unnamed name => rfl
  | noView name view => rfl
  | undone name makes binds tidies clears => rfl
  | done name makes binds logs =>
    exact (World.getElem?_modifySession _ _ _ _).trans (if_neg (Ne.symm hi))

/-- A deed leaves all sessions alone but the one that it is about. -/
theorem Deed.Does.others {d : Deed} (does : Deed.Does T w d r w') (hi : i < w.sessions.length)
    (hne : i ≠ d.subject w) : w'.sessions[i]? = w.sessions[i]? := by
  have hnew : ∀ s, (w.withSession s).sessions[i]? = w.sessions[i]? := fun _ =>
    List.getElem?_append_left hi
  cases does with
  | tends tends =>
    cases tends with
    | looks looked =>
      obtain ⟨h, c, rfl, -, -⟩ := looked
      rfl
    | refreshes session current bound does => exact does.others hne
    | finishes session current bound does => exact does.others hne
  | creates => exact hnew _
  | enables session idle does => exact does.others hne
  | opens does => exact (does.others hne).trans (hnew _)

end

/-! ## Moves of a run -/

/-- A move of a run: a step, or making or enabling a session past the registry. -/
inductive Move where
  | step (s : Step)
  | create (source : SourceId) (options : Options)
  | enableSession (id : SessionId)

namespace Move

/-- Carries out a move. -/
def run (host : Host H C) : Move → Action H C Unit
  | .step s => s.run host
  | .create source options => Deed.run host (.create source options)
  | .enableSession id => Deed.run host (.enableSession id)

/-- The deeds of a move, unless one of them fails. -/
def deeds (w : World H C) : Move → List Deed
  | .step s => (s.calls w).map .call
  | .create source options => [.create source options]
  | .enableSession id => [.enableSession id]

/-- A move is its deeds, one after another. -/
theorem run_eq (host : Host H C) (m : Move) (w : World H C) :
    m.run host w = ((m.deeds w).forM fun d => d.run host : Action H C Unit) w := by
  have hone : ∀ d : Deed, d.run host w =
      (([d] : List Deed).forM fun d => d.run host : Action H C Unit) w :=
    fun d => (congrFun (bind_pure_unit (x := d.run host)) w).symm
  have hcalls : ∀ calls : List Call,
      ((calls.map Deed.call).forM fun d => d.run host : Action H C Unit) =
        calls.forM fun c => c.run host := by
    intro calls
    induction calls with
    | nil => rfl
    | cons c calls ih => exact congrArg (fun rest => c.run host >>= fun _ => rest) ih
  cases m with
  | step s => exact (Step.run_eq host s w).trans (congrFun (hcalls (s.calls w)).symm w)
  | create source options => exact hone (.create source options)
  | enableSession id => exact hone (.enableSession id)

/-- Every move leaves the host fit. -/
theorem run_fits (honours : host.Honours T) (hfit : T.fit w.host) (m : Move) :
    T.fit ((m.run host).outcome w).2.host := by
  refine Action.Ensures.outcome (P := fun _ w' => T.fit w'.host) ?_
  unfold Action.Ensures
  rw [m.run_eq]
  refine Action.ensures_forM (I := fun w' => T.fit w'.host) (m.deeds w) ?_ w hfit
  intro d _ w₁ hfit₁
  exact (d.run_does honours hfit₁).mono (fun _ _ h => h.1) (fun _ _ h => h.1)

end Move

end

end TreeInspector
