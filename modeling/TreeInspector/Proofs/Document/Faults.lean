import TreeInspector.Config.Read
import TreeInspector.Document.Analysis
import TreeInspector.Proofs.Document.Lexemes
import TreeInspector.Proofs.Text.Positions

/-!
# Faults in the order of the text

Every fault is reported at a lexeme, and lexemes are taken in the order of the text. So faults are
found from the front of the text to its end, however broken it is, and the lines and columns under
which they are listed follow the same order. The end of the text is itself a lexeme; it stands where
the text ends, also after a comment that overruns it.
-/

set_option autoImplicit false

namespace TreeInspector.Document

namespace Parser

/-! ## What a lexeme adds -/

/-- Between two states of the parser nothing is reported but faults at a lexeme. -/
def Blames (l : Lexeme) (p q : Parser) : Prop :=
  ∃ found : List Fault, q.faults = found ++ p.faults ∧ ∀ f ∈ found, f.offset = l.offset

variable {l : Lexeme} {p q r : Parser}

/-- Where nothing is reported, nothing is blamed on another lexeme. -/
theorem Blames.of_eq (h : q.faults = p.faults) : Blames l p q :=
  ⟨[], h, by simp⟩

/-- What two steps report at one lexeme is reported at it. -/
theorem Blames.trans (hpq : Blames l p q) (hqr : Blames l q r) : Blames l p r := by
  obtain ⟨first, hfirst, hoffset⟩ := hpq
  obtain ⟨second, hsecond, hoffset'⟩ := hqr
  refine ⟨second ++ first, ?_, ?_⟩
  · rw [hsecond, hfirst, List.append_assoc]
  · intro f hf
    exact (List.mem_append.1 hf).elim (hoffset' f) (hoffset f)

/-- A report is made at the lexeme in hand. -/
theorem blames_report (code : FaultCode) (l : Lexeme) (p : Parser) :
    Blames l p (p.report code l) :=
  ⟨[⟨code, l.offset, l.length⟩], rfl, by simp⟩

/-- A report under a condition is made at the lexeme in hand. -/
theorem blames_reportIf (condition : Bool) (code : FaultCode) (l : Lexeme) (p : Parser) :
    Blames l p (p.reportIf condition code l) := by
  cases condition with
  | true => exact blames_report code l p
  | false => exact .of_eq rfl

/-- A fault of the scanner is reported at the lexeme in hand. -/
theorem blames_reportScan (options : Dialect) (l : Lexeme) (p : Parser) :
    Blames l p (p.reportScan options l) := by
  rw [reportScan]
  split
  · exact blames_report _ l p
  · exact .of_eq rfl

/-- Adding a value reports nothing. -/
theorem faults_addValue (value : Tree Element) (p : Parser) :
    (p.addValue value).faults = p.faults := by
  rw [addValue]
  split <;> rfl

/-- Starting or adding a value reports nothing. -/
theorem faults_takeValue? (h : p.takeValue? l = some q) : q.faults = p.faults := by
  rw [takeValue?] at h
  split at h
  · cases h
    rfl
  · cases h
    rfl
  · obtain ⟨kind, -, rfl⟩ := Option.map_eq_some_iff.1 h
    exact faults_addValue _ p

/-- Closing the innermost element reports nothing. -/
theorem faults_closeInnermost (l : Lexeme) (p : Parser) :
    (p.closeInnermost l).faults = p.faults := by
  rw [closeInnermost]
  split
  · rfl
  · exact faults_addValue _ _

/-- All elements that the text does not close are reported where it ends. -/
theorem blames_closeAll (l : Lexeme) (p : Parser) : Blames l p (p.closeAll l) := by
  rw [closeAll]
  split
  · exact .of_eq rfl
  · refine ⟨_, rfl, ?_⟩
    intro f hf
    obtain ⟨e, -, rfl⟩ := List.mem_map.1 (List.mem_reverse.1 hf)
    rfl

/-- What is reported at a comma or a closing bracket is reported at that lexeme. -/
theorem blames_takeBoundary (l : Lexeme) (p : Parser) : Blames l p (p.takeBoundary l) := by
  rw [takeBoundary]
  split
  · exact blames_closeAll l p
  · split
    · exact .of_eq (faults_closeInnermost l p)
    · split <;> exact .of_eq rfl

/-- What is reported while skipping is reported at the lexeme in hand. -/
theorem blames_skip (valueMissing : Bool) (l : Lexeme) (p : Parser) :
    Blames l p (p.skip valueMissing l) := by
  rw [skip]
  split
  · exact (blames_reportIf _ _ l p).trans (blames_takeBoundary l _)
  · exact .of_eq rfl

/-- What is reported where a value is due is reported at the lexeme in hand. -/
theorem blames_takeValue (l : Lexeme) (p : Parser) : Blames l p (p.takeValue l) := by
  rw [takeValue]
  split
  next q hq => exact .of_eq (faults_takeValue? hq)
  next => exact (blames_report _ l p).trans (blames_skip _ l _)

/-- What is reported where an item is due is reported at the lexeme in hand. -/
theorem blames_takeItem (l : Lexeme) (p : Parser) : Blames l p (p.takeItem l) := by
  rw [takeItem]
  split
  · split
    · exact .of_eq rfl
    · exact (blames_report _ l p).trans (blames_skip _ l _)
  · exact blames_takeValue l p

/-- Whatever the parser is waiting for, it reports at the lexeme in hand. -/
theorem blames_take (options : Dialect) (l : Lexeme) (p : Parser) :
    Blames l p (p.take options l) := by
  rw [take]
  cases p.phase with
  | start =>
    simp only
    split
    · exact blames_reportIf _ _ l p
    · split
      next q hq => exact .of_eq (faults_takeValue? hq)
      next => exact blames_report _ l p
  | item commaDue =>
    simp only
    split
    · exact (blames_reportIf _ _ l p).trans (blames_takeBoundary l _)
    · exact (blames_reportIf _ _ l p).trans (blames_takeItem l _)
  | afterComma =>
    simp only
    split
    · exact .of_eq (faults_closeInnermost l p)
    · exact blames_takeItem l p
  | colon =>
    simp only
    split
    · exact .of_eq rfl
    · exact (blames_report _ l p).trans (blames_skip _ l _)
  | propertyValue => exact blames_takeValue l p
  | skipping valueMissing => exact blames_skip valueMissing l p
  | ended => exact blames_reportIf _ _ l p
  | done => exact .of_eq rfl

/-- Whatever the parser does with a lexeme, the faults that it adds stand at the lexeme. -/
theorem blames_step (options : Dialect) (l : Lexeme) (p : Parser) :
    Blames l p (p.step options l) := by
  rw [step]
  split
  · exact .of_eq rfl
  · have hscan := blames_reportScan options l p
    simp only
    split
    · exact hscan
    · exact hscan.trans (blames_reportIf _ _ l _)
    · exact hscan.trans (blames_report _ l _)
    · exact hscan.trans (blames_take options l _)

/-! ## Whole texts -/

/-- Faults, listed from the latest, that stand in order up to an offset. -/
structure Ordered (reached : Nat) (faults : List Fault) : Prop where
  bounded : ∀ f ∈ faults, f.offset ≤ reached
  sorted : faults.Pairwise fun later earlier => earlier.offset ≤ later.offset

/-- A step keeps the faults in order, since lexemes come in the order of the text. -/
theorem Ordered.step {reached : Nat} (h : Ordered reached p.faults) (hl : reached ≤ l.offset)
    (options : Dialect) : Ordered l.offset (p.step options l).faults := by
  obtain ⟨found, hfound, hoffset⟩ := blames_step options l p
  rw [hfound]
  refine ⟨?_, ?_⟩
  · intro f hf
    rcases List.mem_append.1 hf with hf | hf
    · exact Nat.le_of_eq (hoffset f hf)
    · exact Nat.le_trans (h.bounded f hf) hl
  · refine List.pairwise_append.2 ⟨?_, h.sorted, ?_⟩
    · refine List.pairwise_of_forall_mem_list ?_
      intro f hf g hg
      rw [hoffset f hf, hoffset g hg]
    · intro f hf g hg
      rw [hoffset f hf]
      exact Nat.le_trans (h.bounded g hg) hl

/-- No lexeme starts past the end of the text, not even the one after a comment that overruns it. -/
theorem Ordered.foldl_step {length overrun offset reached : Nat} {ls : List Lexeme}
    (hrow : Lexeme.InRow length overrun offset ls) (options : Dialect)
    (h : Ordered reached p.faults) (hoffset : reached ≤ offset) (hlength : reached ≤ length) :
    Ordered length (ls.foldl (Parser.step options) p).faults := by
  induction hrow generalizing p reached with
  | ended => exact h.step (l := ⟨⟨.endOfText, overrun, none⟩, length⟩) hlength options
  | @next l ls pos ne_endOfText fits rest ih =>
    have hstart : l.offset ≤ l.stop ∧ l.offset ≤ length := by
      rw [Lexeme.stop] at fits ⊢
      omega
    exact ih (h.step hoffset options) hstart.1 hstart.2

/-- The faults of a whole text stand in order and inside it. -/
theorem run_ordered (options : Dialect) (text : List CodeUnit) :
    Ordered text.length (run options text).faults := by
  obtain ⟨overrun, hrow, -⟩ := Lexeme.ofText_inRow text
  have hstart : Ordered 0 ({} : Parser).faults := ⟨by simp, by simp⟩
  exact hstart.foldl_step hrow options (Nat.le_refl _) (Nat.zero_le _)

end Parser

/-! ## Lists of faults -/

/-- The line and the column under which a fault is listed, both counted from one. -/
def Fault.place (text : List CodeUnit) (f : Fault) : Nat × Nat :=
  ((Text.placeOf text f.offset).1 + 1, (Text.placeOf text f.offset).2 + 1)

/-- A fault is worded with its code, its line and its column. -/
theorem Fault.describe_eq (text : List CodeUnit) (f : Fault) :
    f.describe text = f.code.name ++ " at " ++ Nat.repr (f.place text).1 ++ ":" ++
      ((f.place text).2 : Number).text := by
  rw [describe, describeFault, Text.positionOf_natCast]
  dsimp only
  rw [show (1 : Number) = (1 : Nat) from rfl, Number.natCast_add_natCast]
  rfl

/-- Faults inside a text in the order in which they stand there, each worded with its place, so that
lines and columns come in order as well. -/
structure InTextOrder (text : List CodeUnit) (faults : List Fault) : Prop where
  inside : ∀ f ∈ faults, f.offset ≤ text.length
  offsets : faults.Pairwise fun f g => f.offset ≤ g.offset
  worded : ∀ f ∈ faults, f.describe text = f.code.name ++ " at " ++ Nat.repr (f.place text).1 ++
    ":" ++ ((f.place text).2 : Number).text
  places : faults.Pairwise fun f g => toLex (f.place text) ≤ toLex (g.place text)

/-- A fault that stands later is not listed under an earlier line and column. -/
theorem Fault.place_le_place {text : List CodeUnit} {f g : Fault} (h : f.offset ≤ g.offset) :
    toLex (f.place text) ≤ toLex (g.place text) := by
  have hplaces := Text.placeOf_mono text h
  rw [Prod.Lex.toLex_le_toLex] at hplaces ⊢
  simp only [place]
  omega

/-- The parser reports faults in the order of the text. -/
theorem parse_inTextOrder (options : Dialect) (text : List CodeUnit) :
    InTextOrder text (parse options text).faults := by
  have hordered := Parser.run_ordered options text
  have hsorted : (parse options text).faults.Pairwise fun f g => f.offset ≤ g.offset :=
    List.pairwise_reverse.2 hordered.sorted
  refine ⟨?_, hsorted, ?_, hsorted.imp Fault.place_le_place⟩
  · intro f hf
    exact hordered.bounded f (List.mem_reverse.1 hf)
  · intro f _
    exact f.describe_eq text

/-- The faults of any text stand inside it and are listed from its front to its end, by offset as
well as by line and column. A configuration text with faults is refused with the list of its
faults, in the same order. -/
theorem faults_inTextOrder (options : Dialect) (text : List CodeUnit) (file : String) :
    InTextOrder text (analyzeUnits options text).faults ∧
    InTextOrder text (parse Config.dialect text).faults ∧
    ((parse Config.dialect text).faults ≠ [] → Config.readUnits text file =
      .error (Config.rejected file
        ((parse Config.dialect text).faults.map (Fault.describe text)))) := by
  refine ⟨parse_inTextOrder options text, parse_inTextOrder Config.dialect text, ?_⟩
  intro hfaulty
  simp [Config.readUnits, hfaulty]

/-- A broken text over two lines. At its end, where a comment has been left open, a value and the
brace that closes the object are both missed. -/
theorem brokenSettings_listed :
    let text := Text.units "\x7b\"a\" 1,\n  ] /*"
    (parse Config.dialect text).faults ≠ [] ∧
      Config.readUnits text "a.jsonc" = .error (Config.rejected "a.jsonc"
        ["ColonExpected at 1:6", "PropertyNameExpected at 2:3", "UnexpectedEndOfComment at 2:5",
         "ValueExpected at 2:7", "CloseBraceExpected at 2:7"]) := by
  intro text
  have hlist : (parse Config.dialect text).faults.map (Fault.describe text) =
      ["ColonExpected at 1:6", "PropertyNameExpected at 2:3", "UnexpectedEndOfComment at 2:5",
       "ValueExpected at 2:7", "CloseBraceExpected at 2:7"] := by decide +kernel
  have hfaulty : (parse Config.dialect text).faults ≠ [] := by
    intro hnone
    simp [hnone] at hlist
  refine ⟨hfaulty, ?_⟩
  rw [← hlist]
  exact (faults_inTextOrder lenient text "a.jsonc").2.2 hfaulty

end TreeInspector.Document
