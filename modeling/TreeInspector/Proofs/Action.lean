import TreeInspector.Session.Basic

/-!
# What actions ensure

An action either ends well or fails, and in both cases leaves a world behind. `Action.Ensures` says
of an action in a world which of these ends are possible. Its rules follow the way actions are put
together, so that an operation is understood by going through its steps once.
-/

set_option autoImplicit false

namespace TreeInspector

namespace Action

section

variable {H C α β : Type}

/-- In the world `w` the action ends well as `Q` says, or fails as `E` says. -/
def Ensures (a : Action H C α) (w : World H C) (Q : α → World H C → Prop)
    (E : Failure → World H C → Prop) : Prop :=
  match a w with
  | .ok x w' => Q x w'
  | .error e w' => E e w'

/-- What follows from what an action ensures is ensured by it too. -/
theorem Ensures.mono {a : Action H C α} {w : World H C} {P Q : α → World H C → Prop}
    {D E : Failure → World H C → Prop} (h : a.Ensures w P D) (hP : ∀ x w', P x w' → Q x w')
    (hD : ∀ e w', D e w' → E e w') : a.Ensures w Q E := by
  unfold Ensures at *
  cases hr : a w with
  | ok x w' => exact hP x w' (by simpa only [hr] using h)
  | error e w' => exact hD e w' (by simpa only [hr] using h)

/-- An action that ensures two things ensures both at once. -/
theorem Ensures.and {a : Action H C α} {w : World H C} {P Q : α → World H C → Prop}
    {D E : Failure → World H C → Prop} (h₁ : a.Ensures w P D) (h₂ : a.Ensures w Q E) :
    a.Ensures w (fun x w' => P x w' ∧ Q x w') (fun e w' => D e w' ∧ E e w') := by
  unfold Ensures at *
  cases hr : a w with
  | ok x w' =>
    rw [hr] at h₁ h₂
    exact ⟨h₁, h₂⟩
  | error e w' =>
    rw [hr] at h₁ h₂
    exact ⟨h₁, h₂⟩

/-- An action that cannot fail ends well. -/
theorem Ensures.exists_ok {a : Action H C α} {w : World H C} {Q : α → World H C → Prop}
    (h : a.Ensures w Q fun _ _ => False) : ∃ x w', a w = .ok x w' ∧ Q x w' := by
  unfold Ensures at h
  cases hr : a w with
  | ok x w' => exact ⟨x, w', rfl, by simpa only [hr] using h⟩
  | error e w' =>
    rw [hr] at h
    exact h.elim

/-- An action that cannot end well fails. -/
theorem Ensures.exists_error {a : Action H C α} {w : World H C} {E : Failure → World H C → Prop}
    (h : a.Ensures w (fun _ _ => False) E) : ∃ e w', a w = .error e w' := by
  unfold Ensures at h
  cases hr : a w with
  | ok x w' =>
    rw [hr] at h
    exact h.elim
  | error e w' => exact ⟨e, w', rfl⟩

/-- What an action ensures holds of its outcome and of the world after it. -/
theorem Ensures.outcome {a : Action H C α} {w : World H C}
    {P : Except Failure α → World H C → Prop}
    (h : a.Ensures w (fun x w' => P (.ok x) w') (fun e w' => P (.error e) w')) :
    P (a.outcome w).1 (a.outcome w).2 := by
  unfold Ensures at h
  unfold Action.outcome
  cases hr : a w with
  | ok x w' => simpa only [hr] using h
  | error e w' => simpa only [hr] using h

/-- A value that is returned leaves the world as it is. -/
@[simp]
theorem ensures_pure {x : α} {w : World H C} {Q : α → World H C → Prop}
    {E : Failure → World H C → Prop} :
    Ensures (pure x : Action H C α) w Q E ↔ Q x w := Iff.rfl

/-- A failure that is thrown leaves the world as it is. -/
@[simp]
theorem ensures_throw {e : Failure} {w : World H C} {Q : α → World H C → Prop}
    {E : Failure → World H C → Prop} :
    Ensures (throw e : Action H C α) w Q E ↔ E e w := Iff.rfl

/-- Whoever asks for the world is given it. -/
@[simp]
theorem ensures_get {w : World H C} {Q : World H C → World H C → Prop}
    {E : Failure → World H C → Prop} :
    Ensures (get : Action H C (World H C)) w Q E ↔ Q w w := Iff.rfl

/-- The world is the one that it is set to. -/
@[simp]
theorem ensures_set {w v : World H C} {Q : PUnit → World H C → Prop}
    {E : Failure → World H C → Prop} :
    Ensures (set v : Action H C PUnit) w Q E ↔ Q ⟨⟩ v := Iff.rfl

/-- The world is changed as said. -/
@[simp]
theorem ensures_modify {f : World H C → World H C} {w : World H C}
    {Q : PUnit → World H C → Prop} {E : Failure → World H C → Prop} :
    Ensures (modify f : Action H C PUnit) w Q E ↔ Q ⟨⟩ (f w) := Iff.rfl

/-- What two actions in a row ensure is what the first one ensures that the second ensures. -/
@[simp]
theorem ensures_bind {a : Action H C α} {f : α → Action H C β} {w : World H C}
    {Q : β → World H C → Prop} {E : Failure → World H C → Prop} :
    Ensures (a >>= f) w Q E ↔ a.Ensures w (fun x w' => (f x).Ensures w' Q E) E := by
  unfold Ensures
  simp only [bind, EStateM.bind]
  cases a w with
  | ok x w' => rfl
  | error e w' => rfl

/-- An attempt returns the failure of what is attempted. -/
@[simp]
theorem ensures_attempt {a : Action H C α} {w : World H C}
    {Q : Except Failure α → World H C → Prop} {E : Failure → World H C → Prop} :
    Ensures a.attempt w Q E ↔
      a.Ensures w (fun x w' => Q (.ok x) w') (fun e w' => Q (.error e) w') := by
  unfold Ensures Action.attempt
  cases a w with
  | ok x w' => rfl
  | error e w' => rfl

/-- Whoever asks for the state of the host is given it. -/
@[simp]
theorem ensures_host {w : World H C} {Q : H → World H C → Prop}
    {E : Failure → World H C → Prop} :
    Ensures (Action.host : Action H C H) w Q E ↔ Q w.host w := Iff.rfl

/-- Only the state of the host is changed, as said. -/
@[simp]
theorem ensures_modifyHost {f : H → H} {w : World H C} {Q : PUnit → World H C → Prop}
    {E : Failure → World H C → Prop} :
    Ensures (Action.modifyHost f : Action H C Unit) w Q E ↔
      Q ⟨⟩ { w with host := f w.host } := Iff.rfl

/-- An action is followed by another one: what the first ensures is what the second starts from. -/
theorem Ensures.bind {a : Action H C α} {f : α → Action H C β} {w : World H C}
    {P : α → World H C → Prop} {D : Failure → World H C → Prop} {Q : β → World H C → Prop}
    {E : Failure → World H C → Prop} (h : a.Ensures w P D)
    (hP : ∀ x w', P x w' → (f x).Ensures w' Q E) (hD : ∀ e w', D e w' → E e w') :
    Ensures (a >>= f) w Q E :=
  ensures_bind.2 (h.mono hP hD)

/-- An action of which it is known how it ends well ensures what holds of that end. -/
theorem ensures_of_ok {a : Action H C α} {w w' : World H C} {x : α} (h : a w = .ok x w')
    {Q : α → World H C → Prop} {E : Failure → World H C → Prop} : a.Ensures w Q E ↔ Q x w' := by
  unfold Ensures
  rw [h]

/-- An action of which it is known how it fails ensures what holds of that failure. -/
theorem ensures_of_error {a : Action H C α} {w w' : World H C} {e : Failure}
    (h : a w = .error e w') {Q : α → World H C → Prop} {E : Failure → World H C → Prop} :
    a.Ensures w Q E ↔ E e w' := by
  unfold Ensures
  rw [h]

/-- The outcome of an action that ends well is its value. -/
theorem outcome_of_ok {a : Action H C α} {w w' : World H C} {x : α} (h : a w = .ok x w') :
    a.outcome w = (.ok x, w') := by
  unfold Action.outcome
  rw [h]

/-- The outcome of an action that fails is its failure. -/
theorem outcome_of_error {a : Action H C α} {w w' : World H C} {e : Failure}
    (h : a w = .error e w') : a.outcome w = (.error e, w') := by
  unfold Action.outcome
  rw [h]

/-- After an action that ends well the next one begins where it has ended. -/
theorem bind_of_ok {a : Action H C α} {w w' : World H C} {x : α} (h : a w = .ok x w')
    (f : α → Action H C β) : (a >>= f) w = f x w' := by
  simp only [bind, EStateM.bind, h]

/-- After an action that fails nothing else happens. -/
theorem bind_of_error {a : Action H C α} {w w' : World H C} {e : Failure} (h : a w = .error e w')
    (f : α → Action H C β) : (a >>= f) w = .error e w' := by
  simp only [bind, EStateM.bind, h]

/-- The attempt of an action that ends well returns its value. -/
theorem attempt_of_ok {a : Action H C α} {w w' : World H C} {x : α} (h : a w = .ok x w') :
    a.attempt w = .ok (.ok x) w' := by
  unfold Action.attempt
  rw [h]

/-- The attempt of an action that fails ends well and returns the failure. -/
theorem attempt_of_error {a : Action H C α} {w w' : World H C} {e : Failure}
    (h : a w = .error e w') : a.attempt w = .ok (.error e) w' := by
  unfold Action.attempt
  rw [h]

/-- An action that begins with asking for the state of the host goes on with that state. -/
theorem bind_host (f : H → Action H C β) (w : World H C) :
    ((Action.host : Action H C H) >>= f) w = f w.host w := rfl

/-- What follows an action depends on how it ends, not on what it is. -/
theorem bind_of_eq {a a' : Action H C α} {w : World H C} (h : a w = a' w)
    (f : α → Action H C β) : (a >>= f) w = (a' >>= f) w := by
  simp only [bind, EStateM.bind, h]

/-- Where an action begins does not matter to what follows if it ends alike. -/
theorem bind_of_same {a : Action H C α} {w w' : World H C} (h : a w = a w')
    (f : α → Action H C β) : (a >>= f) w = (a >>= f) w' := by
  simp only [bind, EStateM.bind, h]

/-- As `Ensures.bind`, with the outcome of the first action at hand. -/
theorem Ensures.bind_eq {a : Action H C α} {f : α → Action H C β} {w : World H C}
    {P : α → World H C → Prop} {D : Failure → World H C → Prop} {Q : β → World H C → Prop}
    {E : Failure → World H C → Prop} (h : a.Ensures w P D)
    (hP : ∀ x w', a w = .ok x w' → P x w' → (f x).Ensures w' Q E)
    (hD : ∀ e w', a w = .error e w' → D e w' → E e w') : Ensures (a >>= f) w Q E := by
  rw [ensures_bind]
  unfold Ensures at h ⊢
  cases hr : a w with
  | ok x w' => exact hP x w' hr (by simpa only [hr] using h)
  | error e w' => exact hD e w' hr (by simpa only [hr] using h)

/-- An invariant that every member of a list keeps is kept by going through the list; the first
failure ends it. -/
theorem Ensures.forM {γ : Type} {I : World H C → Prop} {E : Failure → World H C → Prop}
    {f : γ → Action H C Unit} (xs : List γ)
    (hf : ∀ x ∈ xs, ∀ w, I w → (f x).Ensures w (fun _ => I) E) (w : World H C) (hw : I w) :
    Ensures (xs.forM f : Action H C Unit) w (fun _ => I) E := by
  induction xs generalizing w with
  | nil => exact hw
  | cons x xs ih =>
    refine Ensures.bind (hf x List.mem_cons_self w hw) ?_ (fun _ _ h => h)
    intro _ w' hw'
    exact ih (fun y hy => hf y (List.mem_cons_of_mem x hy)) w' hw'

/-- An invariant that every member of a list keeps, however it ends, is kept by going through the
list. -/
theorem ensures_forM {γ : Type} {I : World H C → Prop} {f : γ → Action H C Unit} (xs : List γ)
    (hf : ∀ x ∈ xs, ∀ w, I w → (f x).Ensures w (fun _ => I) (fun _ => I)) (w : World H C)
    (hw : I w) : Ensures (xs.forM f : Action H C Unit) w (fun _ => I) (fun _ => I) :=
  Ensures.forM xs hf w hw

/-- In the world `w` the action ends well, as `Q` says. -/
def EndsWell (a : Action H C α) (w : World H C) (Q : α → World H C → Prop) : Prop :=
  a.Ensures w Q fun _ _ => False

/-- An action that ends well as one thing says does so as whatever follows from it says. -/
theorem EndsWell.mono {a : Action H C α} {w : World H C} {P Q : α → World H C → Prop}
    (h : a.EndsWell w P) (hP : ∀ x w', P x w' → Q x w') : a.EndsWell w Q :=
  Ensures.mono h hP fun _ _ h => h

/-- Two actions in a row end well if the second one does wherever the first one ends. -/
theorem EndsWell.bind {a : Action H C α} {f : α → Action H C β} {w : World H C}
    {P : α → World H C → Prop} {Q : β → World H C → Prop} (h : a.EndsWell w P)
    (hP : ∀ x w', P x w' → (f x).EndsWell w' Q) : (a >>= f).EndsWell w Q :=
  Ensures.bind h hP fun _ _ h => h

/-- An action of which it is known how it ends well does so as whatever holds of that end says. -/
theorem endsWell_of_ok {a : Action H C α} {w w' : World H C} {x : α} (h : a w = .ok x w')
    {Q : α → World H C → Prop} (hQ : Q x w') : a.EndsWell w Q :=
  (ensures_of_ok h).2 hQ

/-- Of two actions in a row, the first of which ends well in a known way, only the second one is
left. -/
theorem endsWell_bind_of_ok {a : Action H C α} {f : α → Action H C β} {w w' : World H C} {x : α}
    (h : a w = .ok x w') {Q : β → World H C → Prop} (hQ : (f x).EndsWell w' Q) :
    (a >>= f).EndsWell w Q := by
  unfold EndsWell Ensures
  rw [bind_of_ok h]
  exact hQ

/-- What every member of a list ends well with, if it begins with it, the whole list ends well
with. -/
theorem endsWell_forM {γ : Type} {I : World H C → Prop} {f : γ → Action H C Unit} (xs : List γ)
    (hf : ∀ x ∈ xs, ∀ w, I w → (f x).EndsWell w fun _ => I) (w : World H C) (hw : I w) :
    (xs.forM f : Action H C Unit).EndsWell w fun _ => I :=
  Ensures.forM xs hf w hw

end

end Action

end TreeInspector
