/-!
# Actions that run once

An action that is carried out the first time it is asked for and never again, also if it failed.
-/

set_option autoImplicit false

namespace TreeInspector

/-- A state together with whether the action on it has been asked for. -/
structure Once (σ : Type) where
  done : Bool := false
  state : σ

/-- Carries out the action unless it has been asked for before. -/
def Once.run {ε σ : Type} (action : EStateM ε σ Unit) : EStateM ε (Once σ) Unit := fun o =>
  if o.done then .ok () o
  else
    match action o.state with
    | .ok _ s => .ok () ⟨true, s⟩
    | .error e s => .error e ⟨true, s⟩

end TreeInspector
