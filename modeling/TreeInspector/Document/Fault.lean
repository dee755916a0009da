import TreeInspector.Number.Text
import TreeInspector.Text.Position

/-!
# Faults of a document

What the parser reports, at the lexeme where it noticed. The wording gives the name of the fault
and its line and column, both counted from one.
-/

set_option autoImplicit false

namespace TreeInspector.Document

/-- The kinds of fault, in the order of their numbers from one on. -/
inductive FaultCode where
  | invalidSymbol
  | invalidNumberFormat
  | propertyNameExpected
  | valueExpected
  | colonExpected
  | commaExpected
  | closeBraceExpected
  | closeBracketExpected
  | endOfFileExpected
  | invalidCommentToken
  | unexpectedEndOfComment
  | unexpectedEndOfString
  | unexpectedEndOfNumber
  | invalidUnicode
  | invalidEscapeCharacter
  | invalidCharacter
  deriving DecidableEq, Repr

namespace FaultCode

/-- All kinds of fault, in the order of their numbers. -/
def all : List FaultCode :=
  [.invalidSymbol, .invalidNumberFormat, .propertyNameExpected, .valueExpected, .colonExpected,
   .commaExpected, .closeBraceExpected, .closeBracketExpected, .endOfFileExpected,
   .invalidCommentToken, .unexpectedEndOfComment, .unexpectedEndOfString, .unexpectedEndOfNumber,
   .invalidUnicode, .invalidEscapeCharacter, .invalidCharacter]

/-- The kind of fault with the given number. -/
def ofNumber? (n : Number) : Option FaultCode :=
  match n.toIndex? with
  | some (i + 1) => all[i]?
  | _ => none

/-- The name of a kind of fault. -/
def name : FaultCode → String
  | .invalidSymbol => "InvalidSymbol"
  | .invalidNumberFormat => "InvalidNumberFormat"
  | .propertyNameExpected => "PropertyNameExpected"
  | .valueExpected => "ValueExpected"
  | .colonExpected => "ColonExpected"
  | .commaExpected => "CommaExpected"
  | .closeBraceExpected => "CloseBraceExpected"
  | .closeBracketExpected => "CloseBracketExpected"
  | .endOfFileExpected => "EndOfFileExpected"
  | .invalidCommentToken => "InvalidCommentToken"
  | .unexpectedEndOfComment => "UnexpectedEndOfComment"
  | .unexpectedEndOfString => "UnexpectedEndOfString"
  | .unexpectedEndOfNumber => "UnexpectedEndOfNumber"
  | .invalidUnicode => "InvalidUnicode"
  | .invalidEscapeCharacter => "InvalidEscapeCharacter"
  | .invalidCharacter => "InvalidCharacter"

/-- The name of a kind of fault that may be unknown. -/
def nameOf : Option FaultCode → String
  | some code => code.name
  | none => "<unknown ParseErrorCode>"

end FaultCode

/-- A fault at the lexeme where it was noticed. -/
structure Fault where
  code : FaultCode
  offset : Nat
  length : Nat
  deriving DecidableEq, Repr

/-- The wording of a fault of the given kind at the given offset of a text. -/
def describeFault (text : List CodeUnit) (code : Option FaultCode) (offset : Number) : String :=
  let position := Text.positionOf text offset
  FaultCode.nameOf code ++ " at " ++ Nat.repr (position.line + 1) ++ ":" ++
    (position.character + 1).text

/-- The wording of a fault of a text. -/
def Fault.describe (text : List CodeUnit) (fault : Fault) : String :=
  describeFault text (some fault.code) fault.offset

end TreeInspector.Document
