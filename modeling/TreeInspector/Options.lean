/-!
# View options

A view may allow navigation and may highlight what it navigates to. Options come in layers; a layer
need not mention an option, or may withdraw it.
-/

set_option autoImplicit false

namespace TreeInspector

/-- The options of a view. -/
structure Options where
  navigation : Bool := false
  highlight : Bool := false
  deriving DecidableEq, Repr

/-- The options of a view for which nothing was asked. -/
def defaultOptions : Options := {}

/-- What one layer says about an option. -/
inductive Setting where
  | absent
  | null
  | given (value : Bool)
  deriving DecidableEq, Repr

namespace Setting

/-- What two layers say: the upper one wherever it mentions the option. -/
def overlay (upper lower : Setting) : Setting :=
  if upper = .absent then lower else upper

/-- The value of an option, or its default where none is given. -/
def resolve (default : Bool) : Setting → Bool
  | .given value => value
  | _ => default

end Setting

/-- What one layer says about all options. -/
structure Settings where
  navigation : Setting := .absent
  highlight : Setting := .absent
  deriving DecidableEq, Repr

namespace Settings

/-- What two layers say together. -/
def overlay (upper lower : Settings) : Settings :=
  { navigation := upper.navigation.overlay lower.navigation
    highlight := upper.highlight.overlay lower.highlight }

/-- The options that a layer gives, with defaults for the rest. -/
def resolve (s : Settings) : Options :=
  { navigation := s.navigation.resolve defaultOptions.navigation
    highlight := s.highlight.resolve defaultOptions.highlight }

/-- The layer that gives all options. -/
def ofOptions (o : Options) : Settings := ⟨.given o.navigation, .given o.highlight⟩

end Settings

end TreeInspector
