import TreeInspector.Text.Units

/-!
# Lexemes

A document is JSON with comments. `Lexeme.ofText` cuts its text into lexemes, of which nothing is
left out: blanks, comments and runs that mean nothing are lexemes too. Each may carry one fault.
-/

set_option autoImplicit false

namespace TreeInspector.Document

open Text (unit isDigit hexValue? lineFeed carriageReturn)

/-- What can be wrong inside a lexeme. -/
inductive ScanFault where
  | unclosedComment
  | unclosedString
  | unfinishedNumber
  | badUnicodeEscape
  | badEscape
  | controlCharacter
  deriving DecidableEq, Repr

/-- What a lexeme is. -/
inductive LexemeKind where
  | openBrace
  | closeBrace
  | openBracket
  | closeBracket
  | colon
  | comma
  | string (value : List CodeUnit)
  | number
  | boolean (value : Bool)
  | null
  | comment
  | blank
  | unknown
  | endOfText
  deriving DecidableEq, Repr

/-- A lexeme found at the front of a text. -/
structure Scanned where
  kind : LexemeKind
  length : Nat
  fault : Option ScanFault := none
  deriving DecidableEq, Repr

/-- A lexeme at its place in the text. -/
structure Lexeme extends Scanned where
  offset : Nat
  deriving DecidableEq, Repr

/-- The offset right after a lexeme. -/
def Lexeme.stop (l : Lexeme) : Nat := l.offset + l.length

/-- A unit that ends a line. -/
def isLineBreak (u : CodeUnit) : Bool := u = lineFeed || u = carriageReturn

/-- A unit that separates and means nothing. -/
def isSpace (u : CodeUnit) : Bool := u = unit ' ' || u = unit '\t'

/-- A unit that a word may hold. -/
def isWordUnit (u : CodeUnit) : Bool :=
  !isSpace u && !isLineBreak u && u ∉ ("\x7b\x7d[]\":,/".toList.map unit)

/-- How many units at the front pass a test. -/
def runLength (test : CodeUnit → Bool) (us : List CodeUnit) : Nat := (us.takeWhile test).length

/-- What a string holds, while it is read: the value is listed from its end. -/
structure StringReader where
  length : Nat
  value : List CodeUnit := []
  fault : Option ScanFault := none

namespace StringReader

/-- The reader after `n` more units that add nothing. -/
def pass (n : Nat) (r : StringReader) : StringReader := { r with length := r.length + n }

/-- The reader after a unit of the value. -/
def add (u : CodeUnit) (r : StringReader) : StringReader := { r with value := u :: r.value }

/-- The reader after a fault; a later fault takes the place of an earlier one. -/
def blame (f : ScanFault) (r : StringReader) : StringReader := { r with fault := some f }

end StringReader

/-- The unit that a one-letter escape stands for. -/
def simpleEscape? (u : CodeUnit) : Option CodeUnit :=
  if u = unit '"' ∨ u = unit '\\' ∨ u = unit '/' then some u
  else if u = unit 'b' then some 0x08
  else if u = unit 'f' then some 0x0C
  else if u = unit 'n' then some 0x0A
  else if u = unit 'r' then some 0x0D
  else if u = unit 't' then some 0x09
  else none

/-- What an escape is after its backslash: how many units it takes, and its unit or its fault. -/
def readEscape : List CodeUnit → Nat × Except ScanFault CodeUnit
  | [] => (0, .error .unclosedString)
  | u :: rest =>
    if u = unit 'u' then
      let digits := ((rest.take 4).takeWhile fun d => (hexValue? d).isSome).filterMap hexValue?
      let value := digits.foldl (fun n d => 16 * n + d) 0
      if digits.length = 4 then (5, .ok value.toUInt16)
      else (1 + digits.length, .error .badUnicodeEscape)
    else
      match simpleEscape? u with
      | some v => (1, .ok v)
      | none => (1, .error .badEscape)

/-- Reads a string after its opening quote; `skip` units belong to an escape already read. A line
break or the end of the text ends an unclosed string. -/
def readString : Nat → StringReader → List CodeUnit → StringReader
  | _, r, [] => r.blame .unclosedString
  | skip + 1, r, _ :: rest => readString skip (r.pass 1) rest
  | 0, r, u :: rest =>
    if u = unit '"' then r.pass 1
    else if u = unit '\\' then
      match readEscape rest with
      | (n, .ok v) => readString n ((r.pass 1).add v) rest
      | (n, .error f) => readString n ((r.pass 1).blame f) rest
    else if isLineBreak u then r.blame .unclosedString
    else if u < 0x20 then readString 0 (((r.pass 1).add u).blame .controlCharacter) rest
    else readString 0 ((r.pass 1).add u) rest

/-- The fraction of a number: its length and whether digits follow the point. -/
def readFraction (us : List CodeUnit) : Nat × Bool :=
  match us with
  | u :: rest =>
    if u = unit '.' then
      let digits := runLength isDigit rest
      (1 + digits, 0 < digits)
    else (0, true)
  | [] => (0, true)

/-- The exponent of a number: its length and whether it has digits. -/
def readExponent (us : List CodeUnit) : Nat × Bool :=
  match us with
  | u :: rest =>
    if u = unit 'e' ∨ u = unit 'E' then
      let sign := if rest.head? = some (unit '+') ∨ rest.head? = some (unit '-') then 1 else 0
      let digits := runLength isDigit (rest.drop sign)
      (1 + sign + digits, 0 < digits)
    else (0, true)
  | [] => (0, true)

/-- A number that starts with a digit: a zero stands alone, and a fraction without digits ends the
number there. -/
def readNumber (us : List CodeUnit) : Scanned :=
  let whole := if us.head? = some (unit '0') then 1 else runLength isDigit us
  let (fraction, fractionOk) := readFraction (us.drop whole)
  if fractionOk then
    let (exponent, exponentOk) := readExponent (us.drop (whole + fraction))
    { kind := .number
      length := whole + fraction + exponent
      fault := if exponentOk then none else some .unfinishedNumber }
  else { kind := .number, length := whole + fraction, fault := some .unfinishedNumber }

/-- The length of a block comment after its opening, and whether it is closed. The last unit of an
unclosed one is passed unseen, so a comment that has none left reaches one past the text. -/
def readBlockComment : List CodeUnit → Nat × Bool
  | [] => (1, false)
  | [_] => (1, false)
  | u :: v :: rest =>
    if u = unit '*' ∧ v = unit '/' then (2, true)
    else if u = carriageReturn ∧ v = lineFeed then
      let (n, closed) := readBlockComment rest
      (n + 2, closed)
    else
      let (n, closed) := readBlockComment (v :: rest)
      (n + 1, closed)

/-- A lexeme that starts with a slash: a comment, or a slash that means nothing. -/
def readSlash (rest : List CodeUnit) : Scanned :=
  match rest with
  | u :: more =>
    if u = unit '/' then
      { kind := .comment, length := 2 + runLength (fun v => !isLineBreak v) more }
    else if u = unit '*' then
      let (n, closed) := readBlockComment more
      { kind := .comment
        length := 2 + n
        fault := if closed then none else some .unclosedComment }
    else { kind := .unknown, length := 1 }
  | [] => { kind := .unknown, length := 1 }

/-- A word: a keyword or a run that means nothing. -/
def readWord (us : List CodeUnit) : Scanned :=
  let word := us.takeWhile isWordUnit
  let kind :=
    if word = Text.units "true" then .boolean true
    else if word = Text.units "false" then .boolean false
    else if word = Text.units "null" then .null
    else .unknown
  { kind := kind, length := Nat.max 1 word.length }

/-- The lexeme at the front of a text whose first unit is `u`. -/
def scan (u : CodeUnit) (rest : List CodeUnit) : Scanned :=
  if isSpace u then { kind := .blank, length := 1 + runLength isSpace rest }
  else if isLineBreak u then
    { kind := .blank
      length := if u = carriageReturn ∧ rest.head? = some lineFeed then 2 else 1 }
  else if u = unit '\x7b' then { kind := .openBrace, length := 1 }
  else if u = unit '\x7d' then { kind := .closeBrace, length := 1 }
  else if u = unit '[' then { kind := .openBracket, length := 1 }
  else if u = unit ']' then { kind := .closeBracket, length := 1 }
  else if u = unit ':' then { kind := .colon, length := 1 }
  else if u = unit ',' then { kind := .comma, length := 1 }
  else if u = unit '"' then
    let r := readString 0 { length := 1 } rest
    { kind := .string r.value.reverse, length := r.length, fault := r.fault }
  else if u = unit '/' then readSlash rest
  else if u = unit '-' then
    if (rest.head?.map isDigit).getD false then
      let n := readNumber rest
      { n with length := n.length + 1 }
    else { kind := .unknown, length := 1 }
  else if isDigit u then readNumber (u :: rest)
  else readWord (u :: rest)

/-- The lexemes of a text that starts at the given offset, of which `skip` units belong to the
lexeme before. What is left to skip at the end is how far that lexeme reaches past the text. -/
def lexemesFrom : Nat → Nat → List CodeUnit → List Lexeme
  | skip, offset, [] => [{ kind := .endOfText, length := skip, offset := offset }]
  | skip + 1, offset, _ :: rest => lexemesFrom skip (offset + 1) rest
  | 0, offset, u :: rest =>
    let found := scan u rest
    { found with offset := offset } :: lexemesFrom (found.length - 1) (offset + 1) rest

/-- The lexemes of a text; the last one is the end of the text. -/
def Lexeme.ofText (text : List CodeUnit) : List Lexeme := lexemesFrom 0 0 text

end TreeInspector.Document
