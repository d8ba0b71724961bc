import OomHero.Foundations.Decimal

/-!
# Errors

The error type of the library and the texts its values display as.  An error
that wraps one of another crate carries the text that crate displays.
-/

namespace OomHero

/-- Why a float does not parse. -/
inductive FloatErrorKind where
  | empty
  | invalid
deriving DecidableEq, Repr

/-- All errors the library can return. -/
inductive Error where
  | nix (text : String)
  | io (text : String)
  | parseIntError (kind : Decimal.IntErrorKind)
  | parseFloatError (kind : FloatErrorKind)
  | buildError (text : String)
  | fastEvalError (text : String)
  | serdeYamlError (text : String)
  | ureqError (text : String)
  | message (text : String)
deriving DecidableEq, Repr

/-- The text of {lit}`ParseIntError`. -/
def Decimal.IntErrorKind.display : Decimal.IntErrorKind → String
  | .empty => "cannot parse integer from empty string"
  | .invalidDigit => "invalid digit found in string"
  | .posOverflow => "number too large to fit in target type"
  | .negOverflow => "number too small to fit in target type"

/-- The text of {lit}`ParseFloatError`. -/
def FloatErrorKind.display : FloatErrorKind → String
  | .empty => "cannot parse float from empty string"
  | .invalid => "invalid float literal"

/-- Every variant but the last is transparent: it displays as the wrapped error. -/
def Error.display : Error → String
  | .nix text => text
  | .io text => text
  | .parseIntError kind => kind.display
  | .parseFloatError kind => kind.display
  | .buildError text => text
  | .fastEvalError text => text
  | .serdeYamlError text => text
  | .ureqError text => text
  | .message text => text

instance : ToString Error := ⟨Error.display⟩

end OomHero
