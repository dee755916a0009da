import TreeInspector.Document.Fault
import TreeInspector.Document.Lexeme
import TreeInspector.Tree.Basic

/-!
# Elements of a document

The parser is a machine that takes one lexeme at a time. Its stack holds the arrays and objects
that are still open; its phase says what it expects next. It never stops at a fault: it reports it,
skips if it must, and goes on, so every text gives a tree of elements or none at all.
-/

set_option autoImplicit false

namespace TreeInspector.Document

/-- What an element is. -/
inductive ElementKind where
  | object
  | array
  | property
  | string (value : List CodeUnit)
  | number
  | boolean (value : Bool)
  | null
  deriving DecidableEq, Repr

/-- The word for a kind of element. -/
def ElementKind.label : ElementKind → String
  | .object => "object"
  | .array => "array"
  | .property => "property"
  | .string _ => "string"
  | .number => "number"
  | .boolean _ => "boolean"
  | .null => "null"

/-- An element of a document and the offsets between which it stands. -/
structure Element where
  kind : ElementKind
  start : Nat
  stop : Nat
  deriving DecidableEq, Repr

/-- What may be written in a document beside plain JSON. -/
structure Dialect where
  noComments : Bool := false
  trailingComma : Bool := false
  emptyContent : Bool := false
  deriving DecidableEq, Repr

/-- Comments and commas before a closing bracket are fine, an empty document is not. -/
def lenient : Dialect := { trailingComma := true }

/-- An array or object whose end has not been reached. Its parts are listed from the last one; an
object may have a property whose value is still missing. -/
inductive OpenElement where
  | array (start : Nat) (items : List (Tree Element))
  | object (start : Nat) (members : List (Tree Element)) (property : Option Element)

namespace OpenElement

/-- The property with the given name and value, which ends at the given offset. -/
def property (name : Element) (value : List (Tree Element)) (stop : Nat) : Tree Element :=
  .node ⟨.property, name.start, stop⟩ (.node name [] :: value)

/-- Adds a finished value, which completes a property that waits for one. -/
def add (value : Tree Element) : OpenElement → OpenElement
  | .array start items => .array start (value :: items)
  | .object start members (some name) =>
    .object start (property name [value] value.value.stop :: members) none
  | .object start members none => .object start (value :: members) none

/-- Ends a property that has no value at the given offset. -/
def endProperty (stop : Nat) : OpenElement → OpenElement
  | .object start members (some name) => .object start (property name [] stop :: members) none
  | open_ => open_

/-- The finished element, which ends at the given offset. -/
def close (stop : Nat) (e : OpenElement) : Tree Element :=
  match e.endProperty stop with
  | .array start items => .node ⟨.array, start, stop⟩ items.reverse
  | .object start members _ => .node ⟨.object, start, stop⟩ members.reverse

/-- The lexeme that closes an element. -/
def closing : OpenElement → LexemeKind
  | .array .. => .closeBracket
  | .object .. => .closeBrace

/-- The fault of an element that the text does not close. -/
def unclosed : OpenElement → FaultCode
  | .array .. => .closeBracketExpected
  | .object .. => .closeBraceExpected

end OpenElement

/-- What the parser expects next. -/
inductive Phase where
  /-- The one value of the document. -/
  | start
  /-- An item, or a comma where one is due, or the end of the innermost open element. -/
  | item (commaDue : Bool)
  /-- An item after a comma. -/
  | afterComma
  /-- The colon of a property. -/
  | colon
  /-- The value of a property. -/
  | propertyValue
  /-- Lexemes are passed over up to a comma or the end of the innermost open element, where a
  missing value may have to be reported. -/
  | skipping (valueMissing : Bool)
  /-- The end of the text. -/
  | ended
  /-- Nothing. -/
  | done
  deriving DecidableEq, Repr

/-- The parser between two lexemes: faults are listed from the latest, open elements from the
innermost. -/
structure Parser where
  faults : List Fault := []
  openElements : List OpenElement := []
  phase : Phase := .start
  root : Option (Tree Element) := none

namespace Parser

/-- Reports a fault at a lexeme. -/
def report (code : FaultCode) (l : Lexeme) (p : Parser) : Parser :=
  { p with faults := ⟨code, l.offset, l.length⟩ :: p.faults }

/-- Reports a fault at a lexeme if a condition holds. -/
def reportIf (condition : Bool) (code : FaultCode) (l : Lexeme) (p : Parser) : Parser :=
  if condition then p.report code l else p

/-- Adds a finished value to the innermost open element; outside of all it is the document. -/
def addValue (value : Tree Element) (p : Parser) : Parser :=
  match p.openElements with
  | [] => { p with root := some value, phase := .ended }
  | e :: outer => { p with openElements := e.add value :: outer, phase := .item true }

/-- Opens an array or object. -/
def enter (e : OpenElement) (p : Parser) : Parser :=
  { p with openElements := e :: p.openElements, phase := .item false }

/-- The kind of element a lexeme is by itself. -/
def leafKind? : LexemeKind → Option ElementKind
  | .string value => some (.string value)
  | .number => some .number
  | .boolean value => some (.boolean value)
  | .null => some .null
  | _ => none

/-- Takes the lexeme as a value or as the start of one, if it can be. -/
def takeValue? (l : Lexeme) (p : Parser) : Option Parser :=
  match l.kind with
  | .openBracket => some (p.enter (.array l.offset []))
  | .openBrace => some (p.enter (.object l.offset [] none))
  | kind => (leafKind? kind).map fun k => p.addValue (.node ⟨k, l.offset, l.stop⟩ [])

/-- Closes the innermost open element at the end of the lexeme. -/
def closeInnermost (l : Lexeme) (p : Parser) : Parser :=
  match p.openElements with
  | [] => p
  | e :: outer => { p with openElements := outer }.addValue (e.close l.stop)

/-- Closes all open elements at the end of the text, from the innermost, and reports each. -/
def closeAll (l : Lexeme) (p : Parser) : Parser :=
  match p.openElements with
  | [] => { p with phase := .done }
  | e :: outer =>
    let faults := p.openElements.map fun e => (⟨e.unclosed, l.offset, l.length⟩ : Fault)
    let root := outer.foldl (fun value e => (e.add value).close l.stop) (e.close l.stop)
    { faults := faults.reverse ++ p.faults, openElements := [], phase := .done, root := some root }

/-- The lexeme ends the innermost open element. -/
def closes (l : Lexeme) (p : Parser) : Bool :=
  match p.openElements with
  | [] => false
  | e :: _ => l.kind = e.closing

/-- The lexeme separates or ends the items of the innermost open element. -/
def isBoundary (l : Lexeme) (p : Parser) : Bool :=
  l.kind = .comma || l.kind = .endOfText || p.closes l

/-- Takes a lexeme that separates or ends the items of the innermost open element. -/
def takeBoundary (l : Lexeme) (p : Parser) : Parser :=
  if l.kind = .endOfText then p.closeAll l
  else if p.closes l then p.closeInnermost l
  else
    match p.openElements with
    | [] => p
    | e :: outer =>
      { p with openElements := e.endProperty l.offset :: outer, phase := .afterComma }

/-- Passes over lexemes up to a boundary, at which a missing value is reported if there is one. -/
def skip (valueMissing : Bool) (l : Lexeme) (p : Parser) : Parser :=
  if p.isBoundary l then (p.reportIf valueMissing .valueExpected l).takeBoundary l
  else { p with phase := .skipping valueMissing }

/-- Takes a lexeme where a value must stand. -/
def takeValue (l : Lexeme) (p : Parser) : Parser :=
  match p.takeValue? l with
  | some p' => p'
  | none => (p.report .valueExpected l).skip false l

/-- Takes a lexeme where an item of the innermost open element must stand: a value in an array, a
property name in an object. -/
def takeItem (l : Lexeme) (p : Parser) : Parser :=
  match p.openElements with
  | .object start members _ :: outer =>
    match l.kind with
    | .string value =>
      { p with
        openElements := .object start members (some ⟨.string value, l.offset, l.stop⟩) :: outer
        phase := .colon }
    | _ => (p.report .propertyNameExpected l).skip true l
  | _ => p.takeValue l

/-- Takes a lexeme that is neither blank nor comment. -/
def take (options : Dialect) (l : Lexeme) (p : Parser) : Parser :=
  match p.phase with
  | .start =>
    if l.kind = .endOfText then
      { p.reportIf (!options.emptyContent) .valueExpected l with phase := .done }
    else
      match p.takeValue? l with
      | some p' => p'
      | none => { p.report .valueExpected l with phase := .done }
  | .item commaDue =>
    if p.isBoundary l then
      (p.reportIf (l.kind = .comma && !commaDue) .valueExpected l).takeBoundary l
    else (p.reportIf commaDue .commaExpected l).takeItem l
  | .afterComma =>
    if options.trailingComma && p.closes l then p.closeInnermost l else p.takeItem l
  | .colon =>
    if l.kind = .colon then { p with phase := .propertyValue }
    else (p.report .colonExpected l).skip false l
  | .propertyValue => p.takeValue l
  | .skipping valueMissing => p.skip valueMissing l
  | .ended =>
    { p.reportIf (l.kind ≠ .endOfText) .endOfFileExpected l with phase := .done }
  | .done => p

/-- The fault to report for what is wrong inside a lexeme. An unclosed comment is no fault of its
own where comments are not allowed. -/
def scanFault? (options : Dialect) : ScanFault → Option FaultCode
  | .unclosedComment => if options.noComments then none else some .unexpectedEndOfComment
  | .unclosedString => some .unexpectedEndOfString
  | .unfinishedNumber => some .unexpectedEndOfNumber
  | .badUnicodeEscape => some .invalidUnicode
  | .badEscape => some .invalidEscapeCharacter
  | .controlCharacter => some .invalidCharacter

/-- Reports what is wrong inside a lexeme. -/
def reportScan (options : Dialect) (l : Lexeme) (p : Parser) : Parser :=
  match l.fault.bind (scanFault? options) with
  | some code => p.report code l
  | none => p

/-- Takes one lexeme. Once the parser is done it takes none. -/
def step (options : Dialect) (p : Parser) (l : Lexeme) : Parser :=
  if p.phase = .done then p
  else
    let p := p.reportScan options l
    match l.kind with
    | .blank => p
    | .comment => p.reportIf options.noComments .invalidCommentToken l
    | .unknown => p.report .invalidSymbol l
    | _ => p.take options l

/-- The parser after all lexemes of a text. -/
def run (options : Dialect) (text : List CodeUnit) : Parser :=
  (Lexeme.ofText text).foldl (step options) {}

end Parser

/-- The outcome of parsing a text. -/
structure Parsed where
  faults : List Fault
  root : Option (Tree Element)

/-- Parses a text; faults come in the order of their detection. -/
def parse (options : Dialect) (text : List CodeUnit) : Parsed :=
  let p := Parser.run options text
  ⟨p.faults.reverse, p.root⟩

end TreeInspector.Document
