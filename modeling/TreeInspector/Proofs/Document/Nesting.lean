import TreeInspector.Document.Analysis
import TreeInspector.Proofs.Document.Lexemes
import TreeInspector.Proofs.Tree.Nesting

/-!
# Spans of the elements of a text

However broken a text is, the elements the parser makes of it are nested: parts lie inside the whole
and come one after the other. The invariant speaks of the elements that are still open. Each of them
has its finished parts in order, up to the point where the element inside it begins, and the
innermost one up to the end of the last lexeme. What closes an element may be the end of the text,
and that is where a comment which overruns the text stretches the root past it.
-/

set_option autoImplicit false

namespace TreeInspector.Document

/-! ## Finished elements -/

namespace Element

/-- The element is not empty and stands inside another one. -/
def Inside (inner outer : Element) : Prop :=
  outer.start ≤ inner.start ∧ inner.start < inner.stop ∧ inner.stop ≤ outer.stop

/-- The element ends before another one starts. -/
def Before (first second : Element) : Prop := first.stop ≤ second.start

end Element

/-- An element that is not empty, with everything below it in its place. -/
structure Finished (t : Tree Element) : Prop where
  pos : t.value.start < t.value.stop
  nested : t.Nested Element.Inside Element.Before

/-- An element that is not empty and has nothing below it is finished. -/
theorem Finished.leaf {e : Element} (h : e.start < e.stop) : Finished (.node e []) :=
  ⟨h, .leaf e⟩

/-- Finished elements between two offsets, listed from the last one. -/
structure Row (start stop : Nat) (ts : List (Tree Element)) : Prop where
  finished : ∀ t ∈ ts, Finished t
  bounds : ∀ t ∈ ts, start ≤ t.value.start ∧ t.value.stop ≤ stop
  apart : (ts.map Tree.value).Pairwise fun later earlier => earlier.Before later

namespace Row

variable {start stop stop' : Nat} {t : Tree Element} {ts : List (Tree Element)}

/-- No elements stand between any two offsets. -/
theorem nil (start stop : Nat) : Row start stop [] :=
  ⟨by simp, by simp, by simp⟩

/-- A row may be given more room at its end. -/
theorem mono (h : Row start stop ts) (hstop : stop ≤ stop') : Row start stop' ts := by
  refine ⟨h.finished, ?_, h.apart⟩
  intro t ht
  have hbounds := h.bounds t ht
  omega

/-- A finished element after the last one of a row extends it. -/
theorem cons (h : Row start stop ts) (ht : Finished t) (hstart : start ≤ t.value.start)
    (hstop : stop ≤ t.value.start) (hstop' : t.value.stop ≤ stop') :
    Row start stop' (t :: ts) := by
  have hpos := ht.pos
  refine ⟨?_, ?_, ?_⟩
  · exact List.forall_mem_cons.2 ⟨ht, h.finished⟩
  · exact List.forall_mem_cons.2 ⟨⟨hstart, hstop'⟩, (h.mono (by omega)).bounds⟩
  · rw [List.map_cons, List.pairwise_cons]
    refine ⟨?_, h.apart⟩
    intro e he
    obtain ⟨u, hu, rfl⟩ := List.mem_map.1 he
    exact Nat.le_trans (h.bounds u hu).2 hstop

/-- The element with the given parts. -/
theorem node (h : Row start stop ts) (hpos : start < stop) (kind : ElementKind) :
    Finished (.node ⟨kind, start, stop⟩ ts.reverse) := by
  refine ⟨hpos, .node ?_ ?_ ?_⟩
  · intro t ht
    rw [List.mem_reverse] at ht
    exact ⟨(h.bounds t ht).1, (h.finished t ht).pos, (h.bounds t ht).2⟩
  · rw [List.map_reverse, List.pairwise_reverse]
    exact h.apart
  · intro t ht
    rw [List.mem_reverse] at ht
    exact (h.finished t ht).nested

end Row

/-! ## Open elements -/

namespace OpenElement

/-- The offset at which the element starts. -/
def start : OpenElement → Nat
  | .array start _ => start
  | .object start _ _ => start

/-- The parts of an open element stand in order between its start and the given offset. -/
inductive Fits (reached : Nat) : OpenElement → Prop where
  | array {start : Nat} {items : List (Tree Element)} (lt : start < reached)
      (row : Row start reached items) : Fits reached (.array start items)
  | object {start : Nat} {members : List (Tree Element)} (lt : start < reached)
      (row : Row start reached members) : Fits reached (.object start members none)
  | waiting {start : Nat} {members : List (Tree Element)} {name : Element}
      (le : start ≤ name.start) (pos : name.start < name.stop) (fits : name.stop ≤ reached)
      (row : Row start name.start members) : Fits reached (.object start members (some name))

variable {reached reached' stop : Nat} {e : OpenElement} {value : Tree Element}

/-- An open element starts before the offset up to which it fits. -/
theorem Fits.start_lt (h : e.Fits reached) : e.start < reached := by
  cases h with
  | array lt row => exact lt
  | object lt row => exact lt
  | waiting le pos fits row =>
    simp only [start]
    omega

/-- An open element that fits up to an offset fits up to any later one. -/
theorem Fits.mono (h : e.Fits reached) (hle : reached ≤ reached') : e.Fits reached' := by
  cases h with
  | array lt row => exact .array (by omega) (row.mono hle)
  | object lt row => exact .object (by omega) (row.mono hle)
  | waiting le pos fits row => exact .waiting le pos (by omega) row

/-- Adding a value does not move the start. -/
theorem start_add (value : Tree Element) (e : OpenElement) : (e.add value).start = e.start := by
  match e with
  | .array start items => rfl
  | .object start members none => rfl
  | .object start members (some name) => rfl

/-- Ending a property does not move the start. -/
theorem start_endProperty (stop : Nat) (e : OpenElement) :
    (e.endProperty stop).start = e.start := by
  match e with
  | .array start items => rfl
  | .object start members none => rfl
  | .object start members (some name) => rfl

/-- A property is finished if its value is finished and stands after its name. -/
theorem property_finished {name : Element} (hpos : name.start < name.stop) (hvalue : Finished value)
    (hstart : name.stop ≤ value.value.start) :
    Finished (property name [value] value.value.stop) := by
  have hpos' := hvalue.pos
  have hname : Row name.start name.stop [.node name []] :=
    (Row.nil name.start name.start).cons (.leaf hpos) (Nat.le_refl _) (Nat.le_refl _)
      (Nat.le_refl _)
  have hboth := hname.cons hvalue (by omega) hstart (Nat.le_refl _)
  exact hboth.node (by omega) .property

/-- A property without a value is finished if it ends no earlier than its name. -/
theorem property_finished_nil {name : Element} (hpos : name.start < name.stop)
    (hstop : name.stop ≤ stop) : Finished (property name [] stop) := by
  have hname : Row name.start stop [.node name []] :=
    (Row.nil name.start name.start).cons (.leaf hpos) (Nat.le_refl _) (Nat.le_refl _) hstop
  exact hname.node (by omega) .property

/-- An open element that takes a value from further on fits up to the end of that value. -/
theorem Fits.add (h : e.Fits reached) (hvalue : Finished value)
    (hstart : reached ≤ value.value.start) : (e.add value).Fits value.value.stop := by
  have hpos := hvalue.pos
  cases h with
  | array lt row =>
    exact .array (by omega) (row.cons hvalue (by omega) hstart (Nat.le_refl _))
  | object lt row =>
    exact .object (by omega) (row.cons hvalue (by omega) hstart (Nat.le_refl _))
  | waiting le pos fits row =>
    have hproperty := property_finished pos hvalue (by omega)
    exact .object (by omega) (row.cons hproperty le (Nat.le_refl _) (Nat.le_refl _))

/-- An open element fits up to where its property is ended. -/
theorem Fits.endProperty (h : e.Fits reached) (hstop : reached ≤ stop) :
    (e.endProperty stop).Fits stop := by
  cases h with
  | array lt row => exact .array (by omega) (row.mono hstop)
  | object lt row => exact .object (by omega) (row.mono hstop)
  | waiting le pos fits row =>
    have hproperty := property_finished_nil pos (Nat.le_trans fits hstop)
    exact .object (by omega) (row.cons hproperty le (Nat.le_refl _) (Nat.le_refl _))

/-- An object that takes a name from further on fits up to the end of that name. -/
theorem Fits.named {start : Nat} {members : List (Tree Element)} {property : Option Element}
    (h : (OpenElement.object start members property).Fits reached) (name : Element)
    (hstart : reached ≤ name.start) (hpos : name.start < name.stop) :
    (OpenElement.object start members (some name)).Fits name.stop := by
  cases h with
  | object lt row => exact .waiting (by omega) hpos (Nat.le_refl _) (row.mono hstart)
  | waiting le pos fits row =>
    exact .waiting (by omega) hpos (Nat.le_refl _) (row.mono (by omega))

/-- A closed element starts where it was opened and stops where it is closed. -/
theorem value_close (stop : Nat) (e : OpenElement) :
    (e.close stop).value.start = e.start ∧ (e.close stop).value.stop = stop := by
  match e with
  | .array start items => exact ⟨rfl, rfl⟩
  | .object start members none => exact ⟨rfl, rfl⟩
  | .object start members (some name) => exact ⟨rfl, rfl⟩

/-- An open element that fits is finished once it is closed. -/
theorem Fits.close (h : e.Fits reached) (hstop : reached ≤ stop) : Finished (e.close stop) := by
  have hend := h.endProperty hstop
  rw [OpenElement.close]
  cases hend' : e.endProperty stop with
  | array start items =>
    rw [hend'] at hend
    cases hend with
    | array lt row => exact row.node lt .array
  | object start members property =>
    rw [hend'] at hend
    cases hend with
    | object lt row => exact row.node lt .object
    | @waiting _ _ name le pos fits row => exact (row.mono (by omega)).node (by omega) .object

/-- Each open element fits up to the start of the one inside it, the innermost up to the given
offset. -/
def Stacked : Nat → List OpenElement → Prop
  | _, [] => True
  | reached, e :: outer => e.Fits reached ∧ Stacked e.start outer

/-- Open elements that fit up to an offset fit up to any later one. -/
theorem Stacked.mono {es : List OpenElement} (h : Stacked reached es) (hle : reached ≤ reached') :
    Stacked reached' es := by
  cases es with
  | nil => trivial
  | cons e outer => exact ⟨h.1.mono hle, h.2⟩

/-- Closing all elements around a finished value where the value stops gives a finished root that
stops there too. -/
theorem Stacked.closeOuter {outer : List OpenElement} (h : Stacked value.value.start outer)
    (hvalue : Finished value) :
    let root := outer.foldl (fun v e => (e.add v).close value.value.stop) value
    Finished root ∧ root.value.stop = value.value.stop := by
  induction outer generalizing value with
  | nil => exact ⟨hvalue, rfl⟩
  | cons e outer ih =>
    have hadd := h.1.add hvalue (Nat.le_refl _)
    obtain ⟨hstart, hstop⟩ := value_close value.value.stop (e.add value)
    have hclosed := hadd.close (Nat.le_refl _)
    have houter : Stacked ((e.add value).close value.value.stop).value.start outer := by
      rw [hstart, start_add]
      exact h.2
    have hrest := ih houter hclosed
    rw [hstop] at hrest
    exact hrest

end OpenElement

open OpenElement (Fits Stacked)

/-! ## Soundness of the parser -/

/-- The fault says that an element is not closed where the text ends. -/
def FaultCode.isUnclosed (code : FaultCode) : Bool :=
  code = .closeBraceExpected || code = .closeBracketExpected

/-- The fault of an element that the text does not close is told apart by its code. -/
theorem OpenElement.isUnclosed_unclosed (e : OpenElement) : e.unclosed.isUnclosed = true := by
  cases e <;> rfl

/-- A lexeme that comes after the given offset and is not the end of the text. -/
structure Lexeme.Follows (reached : Nat) (l : Lexeme) : Prop where
  offset : reached ≤ l.offset
  pos : 0 < l.length
  ne_endOfText : l.kind ≠ .endOfText

/-- A lexeme before the end of the text is not empty. -/
theorem Lexeme.Follows.lt_stop {reached : Nat} {l : Lexeme} (h : l.Follows reached) :
    l.offset < l.stop := by
  have hpos := h.pos
  rw [Lexeme.stop]
  omega

/-- A lexeme that comes after an offset stops after it. -/
theorem Lexeme.Follows.le_stop {reached : Nat} {l : Lexeme} (h : l.Follows reached) :
    reached ≤ l.stop :=
  Nat.le_trans h.offset (Nat.le_of_lt h.lt_stop)

namespace Parser

/-- Everything the parser has made stands in its place up to the given offset, and it has not yet
reported an unclosed element. -/
structure Sound (reached : Nat) (p : Parser) : Prop where
  stacked : Stacked reached p.openElements
  root : ∀ r, p.root = some r → Finished r ∧ r.value.stop ≤ reached
  closed : ∀ f ∈ p.faults, f.code.isUnclosed = false

variable {reached reached' : Nat} {p q : Parser} {l : Lexeme} {code : FaultCode} {condition : Bool}

/-- The parser starts out sound. -/
theorem sound_start : Sound 0 {} :=
  ⟨trivial, by simp, by simp⟩

/-- What stands in its place up to an offset does so up to any later one. -/
theorem Sound.mono (h : p.Sound reached) (hle : reached ≤ reached') : p.Sound reached' := by
  refine ⟨h.stacked.mono hle, ?_, h.closed⟩
  intro r hr
  have hroot := h.root r hr
  exact ⟨hroot.1, Nat.le_trans hroot.2 hle⟩

/-- Soundness does not depend on what the parser expects next. -/
theorem Sound.phase (h : p.Sound reached) (phase : Phase) :
    { p with phase := phase }.Sound reached :=
  ⟨h.stacked, h.root, h.closed⟩

/-- A fault that is no unclosed element leaves the parser sound. -/
theorem Sound.report (h : p.Sound reached) (l : Lexeme) (hcode : code.isUnclosed = false) :
    (p.report code l).Sound reached :=
  ⟨h.stacked, h.root, List.forall_mem_cons.2 ⟨hcode, h.closed⟩⟩

/-- A fault that is no unclosed element leaves the parser sound, whether reported or not. -/
theorem Sound.reportIf (h : p.Sound reached) (l : Lexeme) (hcode : code.isUnclosed = false) :
    (p.reportIf condition code l).Sound reached := by
  rw [Parser.reportIf]
  split
  · exact h.report l hcode
  · exact h

/-- The parser is sound after a finished value that comes after all it has made. -/
theorem addValue_sound {value : Tree Element} (hvalue : Finished value)
    (hstacked : Stacked value.value.start p.openElements)
    (hroot : ∀ r, p.root = some r → Finished r ∧ r.value.stop ≤ value.value.stop)
    (hclosed : ∀ f ∈ p.faults, f.code.isUnclosed = false) :
    (p.addValue value).Sound value.value.stop := by
  rw [addValue]
  cases hopen : p.openElements with
  | nil =>
    refine ⟨trivial, ?_, hclosed⟩
    intro r hr
    cases hr
    exact ⟨hvalue, Nat.le_refl _⟩
  | cons e outer =>
    rw [hopen] at hstacked
    refine ⟨⟨hstacked.1.add hvalue (Nat.le_refl _), ?_⟩, hroot, hclosed⟩
    rw [OpenElement.start_add]
    exact hstacked.2

/-- The parser is sound after opening an element behind all it has made. -/
theorem Sound.enter {e : OpenElement} (h : p.Sound reached) (hstart : reached ≤ e.start)
    (he : e.Fits reached') : (p.enter e).Sound reached' := by
  have hlt := he.start_lt
  have hmono := h.mono (Nat.le_trans hstart (Nat.le_of_lt hlt))
  exact ⟨⟨he, h.stacked.mono hstart⟩, hmono.root, hmono.closed⟩

/-- The parser is sound after taking a lexeme as a value or as the start of one. -/
theorem Sound.takeValue? (h : p.Sound reached) (hl : l.Follows reached)
    (hq : p.takeValue? l = some q) : q.Sound l.stop := by
  have hlt := hl.lt_stop
  rw [Parser.takeValue?] at hq
  split at hq
  · cases hq
    exact h.enter hl.offset (.array hlt (.nil _ _))
  · cases hq
    exact h.enter hl.offset (.object hlt (.nil _ _))
  · obtain ⟨kind, -, rfl⟩ := Option.map_eq_some_iff.1 hq
    have hleaf : Finished (.node ⟨kind, l.offset, l.stop⟩ []) := .leaf hlt
    exact addValue_sound hleaf (h.stacked.mono hl.offset) (h.mono hl.le_stop).root h.closed

/-- The parser is sound after closing the innermost element. -/
theorem Sound.closeInnermost (h : p.Sound reached) (hl : l.Follows reached) :
    (p.closeInnermost l).Sound l.stop := by
  rw [Parser.closeInnermost]
  cases hopen : p.openElements with
  | nil => exact h.mono hl.le_stop
  | cons e outer =>
    have hstacked := h.stacked
    rw [hopen] at hstacked
    obtain ⟨hstart, hstop⟩ := e.value_close l.stop
    have hsound := addValue_sound (p := { p with openElements := outer })
      (hstacked.1.close hl.le_stop) (by rw [hstart]; exact hstacked.2)
      (by rw [hstop]; exact (h.mono hl.le_stop).root) h.closed
    rwa [hstop] at hsound

/-- The parser is sound after a comma or a closing bracket. -/
theorem Sound.takeBoundary (h : p.Sound reached) (hl : l.Follows reached) :
    (p.takeBoundary l).Sound l.stop := by
  rw [Parser.takeBoundary, if_neg hl.ne_endOfText]
  split
  · exact h.closeInnermost hl
  · cases hopen : p.openElements with
    | nil => exact h.mono hl.le_stop
    | cons e outer =>
      have hstacked := h.stacked
      rw [hopen] at hstacked
      have hended := (hstacked.1.endProperty hl.offset).mono (Nat.le_of_lt hl.lt_stop)
      refine ⟨⟨hended, ?_⟩, (h.mono hl.le_stop).root, h.closed⟩
      rw [OpenElement.start_endProperty]
      exact hstacked.2

/-- The parser is sound after skipping a lexeme. -/
theorem Sound.skip (h : p.Sound reached) (hl : l.Follows reached) (valueMissing : Bool) :
    (p.skip valueMissing l).Sound l.stop := by
  rw [Parser.skip]
  split
  · exact (h.reportIf l rfl).takeBoundary hl
  · exact (h.mono hl.le_stop).phase _

/-- The parser is sound after a lexeme where a value is due. -/
theorem Sound.takeValue (h : p.Sound reached) (hl : l.Follows reached) :
    (p.takeValue l).Sound l.stop := by
  rw [Parser.takeValue]
  split
  next q hq => exact h.takeValue? hl hq
  next => exact (h.report l rfl).skip hl false

/-- The parser is sound after a lexeme where an item is due. -/
theorem Sound.takeItem (h : p.Sound reached) (hl : l.Follows reached) :
    (p.takeItem l).Sound l.stop := by
  rw [Parser.takeItem]
  split
  next start members property outer hopen =>
    split
    next value hkind =>
      have hstacked := h.stacked
      rw [hopen] at hstacked
      have hnamed := hstacked.1.named ⟨.string value, l.offset, l.stop⟩ hl.offset hl.lt_stop
      exact ⟨⟨hnamed, hstacked.2⟩, (h.mono hl.le_stop).root, h.closed⟩
    next => exact (h.report l rfl).skip hl true
  next => exact h.takeValue hl

/-- The parser is sound after a lexeme, whatever it is waiting for. -/
theorem Sound.take (h : p.Sound reached) (hl : l.Follows reached) (options : Dialect) :
    (p.take options l).Sound l.stop := by
  have hmono := h.mono hl.le_stop
  rw [Parser.take]
  cases p.phase with
  | start =>
    simp only [if_neg hl.ne_endOfText]
    split
    next q hq => exact h.takeValue? hl hq
    next => exact (hmono.report l rfl).phase _
  | item commaDue =>
    simp only
    split
    · exact (h.reportIf l rfl).takeBoundary hl
    · exact (h.reportIf l rfl).takeItem hl
  | afterComma =>
    simp only
    split
    · exact h.closeInnermost hl
    · exact h.takeItem hl
  | colon =>
    simp only
    split
    · exact hmono.phase _
    · exact (h.report l rfl).skip hl false
  | propertyValue => exact h.takeValue hl
  | skipping valueMissing => exact h.skip hl valueMissing
  | ended => exact (hmono.reportIf l rfl).phase _
  | done => exact hmono

/-- No fault of the scanner is about an unclosed element. -/
theorem isUnclosed_of_scanFault? {options : Dialect} {fault : ScanFault}
    (h : scanFault? options fault = some code) : code.isUnclosed = false := by
  cases fault with
  | unclosedComment =>
    rw [scanFault?] at h
    split at h
    · cases h
    · cases h
      rfl
  | _ =>
    cases h
    rfl

/-- The parser is sound after a fault of the scanner. -/
theorem Sound.reportScan (h : p.Sound reached) (options : Dialect) (l : Lexeme) :
    (p.reportScan options l).Sound reached := by
  rw [Parser.reportScan]
  cases hfault : l.fault.bind (scanFault? options) with
  | none => exact h
  | some code =>
    obtain ⟨fault, -, hcode⟩ := Option.bind_eq_some_iff.1 hfault
    exact h.report l (isUnclosed_of_scanFault? hcode)

/-- What a lexeme within the text leaves. -/
theorem Sound.step (h : p.Sound reached) (hl : l.Follows reached) (options : Dialect) :
    (p.step options l).Sound l.stop := by
  have hscan := h.reportScan options l
  have hmono := hscan.mono hl.le_stop
  rw [Parser.step]
  split
  · exact h.mono hl.le_stop
  · simp only
    split
    next => exact hmono
    next => exact hmono.reportIf l rfl
    next => exact hmono.report l rfl
    next => exact hscan.take hl options

/-- A comment leaves everything as it is, faults apart. -/
theorem Sound.step_comment (h : p.Sound reached) (hl : l.kind = .comment) (options : Dialect) :
    (p.step options l).Sound reached := by
  rw [Parser.step, hl]
  split
  · exact h
  · exact (h.reportScan options l).reportIf l rfl

/-! ## The end of the text -/

/-- What the end of the text leaves. Either no element was open, and the root is what it was before,
or the root is the outermost of the open elements, which reaches as far as the end of the text does,
and that is reported. -/
inductive Outcome (reached stop : Nat) (p : Parser) : Prop where
  | kept (sound : p.Sound reached)
  | closed (root : Tree Element) (root_eq : p.root = some root) (finished : Finished root)
      (root_stop : root.value.stop = stop) (reported : ∃ f ∈ p.faults, f.code.isUnclosed = true)

/-- Closing all elements at the end of the text leaves an outcome. -/
theorem Sound.closeAll (h : p.Sound reached) (hstop : reached ≤ l.stop) :
    (p.closeAll l).Outcome reached l.stop := by
  rw [Parser.closeAll]
  cases hopen : p.openElements with
  | nil => exact .kept ⟨trivial, h.root, h.closed⟩
  | cons e outer =>
    have hstacked := h.stacked
    rw [hopen] at hstacked
    obtain ⟨hstart, hend⟩ := e.value_close l.stop
    have houter : Stacked (e.close l.stop).value.start outer := by
      rw [hstart]
      exact hstacked.2
    have hclosed := houter.closeOuter (hstacked.1.close hstop)
    rw [hend] at hclosed
    refine .closed _ rfl hclosed.1 hclosed.2 ⟨⟨e.unclosed, l.offset, l.length⟩, ?_, ?_⟩
    · simp
    · exact e.isUnclosed_unclosed

/-- The end of the text leaves an outcome while skipping. -/
theorem Sound.skip_end (h : p.Sound reached) (hl : l.kind = .endOfText) (hstop : reached ≤ l.stop)
    (valueMissing : Bool) : (p.skip valueMissing l).Outcome reached l.stop := by
  have hboundary : p.isBoundary l = true := by simp [isBoundary, hl]
  rw [Parser.skip, if_pos hboundary, Parser.takeBoundary, if_pos hl]
  exact (h.reportIf l rfl).closeAll hstop

/-- The end of the text leaves an outcome where a value is due. -/
theorem Sound.takeValue_end (h : p.Sound reached) (hl : l.kind = .endOfText)
    (hstop : reached ≤ l.stop) : (p.takeValue l).Outcome reached l.stop := by
  have hnone : p.takeValue? l = none := by simp [Parser.takeValue?, hl, leafKind?]
  rw [Parser.takeValue, hnone]
  exact (h.report l rfl).skip_end hl hstop false

/-- The end of the text leaves an outcome where an item is due. -/
theorem Sound.takeItem_end (h : p.Sound reached) (hl : l.kind = .endOfText)
    (hstop : reached ≤ l.stop) : (p.takeItem l).Outcome reached l.stop := by
  rw [Parser.takeItem]
  split
  · rw [hl]
    exact (h.report l rfl).skip_end hl hstop true
  · exact h.takeValue_end hl hstop

/-- The end of the text closes no element by itself. -/
theorem closes_end (hl : l.kind = .endOfText) : p.closes l = false := by
  rw [closes]
  cases p.openElements with
  | nil => rfl
  | cons e outer => cases e <;> simp [hl, OpenElement.closing]

/-- The end of the text leaves an outcome, whatever the parser is waiting for. -/
theorem Sound.take_end (h : p.Sound reached) (hl : l.kind = .endOfText) (hstop : reached ≤ l.stop)
    (options : Dialect) : (p.take options l).Outcome reached l.stop := by
  rw [Parser.take]
  cases p.phase with
  | start =>
    simp only [if_pos hl]
    exact .kept ((h.reportIf l rfl).phase _)
  | item commaDue =>
    have hboundary : p.isBoundary l = true := by simp [isBoundary, hl]
    simp only [if_pos hboundary, Parser.takeBoundary, if_pos hl]
    exact (h.reportIf l rfl).closeAll hstop
  | afterComma =>
    simp only [closes_end hl, Bool.and_false, Bool.false_eq_true, if_false]
    exact h.takeItem_end hl hstop
  | colon =>
    have hne : l.kind ≠ .colon := by simp [hl]
    simp only [if_neg hne]
    exact (h.report l rfl).skip_end hl hstop false
  | propertyValue => exact h.takeValue_end hl hstop
  | skipping valueMissing => exact h.skip_end hl hstop valueMissing
  | ended => exact .kept ((h.reportIf l rfl).phase _)
  | done => exact .kept h

/-- The last step, at the end of the text, leaves an outcome. -/
theorem Sound.step_end (h : p.Sound reached) (hl : l.kind = .endOfText) (hstop : reached ≤ l.stop)
    (options : Dialect) : (p.step options l).Outcome reached l.stop := by
  rw [Parser.step]
  split
  · exact .kept h
  · simp only [hl]
    exact (h.reportScan options l).take_end hl hstop options

/-! ## Whole texts -/

/-- An outcome up to an offset is one up to any later offset. -/
theorem Outcome.mono {stop : Nat} (h : p.Outcome reached stop) (hle : reached ≤ reached') :
    p.Outcome reached' stop := by
  cases h with
  | kept sound => exact .kept (sound.mono hle)
  | closed root root_eq finished root_stop reported =>
    exact .closed root root_eq finished root_stop reported

/-- The lexemes in a row are taken one by one. Where a comment overruns the text nothing but the end
of the text is left to take. -/
theorem Sound.foldl_step {length overrun offset : Nat} {ls : List Lexeme}
    (hrow : Lexeme.InRow length overrun offset ls) (options : Dialect) (h : p.Sound reached)
    (hoffset : reached ≤ offset) (hlength : reached ≤ length) :
    (ls.foldl (Parser.step options) p).Outcome length (length + overrun) := by
  induction hrow generalizing p reached with
  | ended =>
    have hend := h.step_end (l := ⟨⟨.endOfText, overrun, none⟩, length⟩) rfl hoffset options
    exact hend.mono hlength
  | @next l ls pos ne_endOfText fits rest ih =>
    rw [List.foldl_cons]
    have hfollows : l.Follows reached := ⟨hoffset, pos, ne_endOfText⟩
    rcases fits with hstop | ⟨hcomment, -⟩
    · exact ih (h.step hfollows options) (Nat.le_refl _) hstop
    · exact ih (h.step_comment hcomment options) hfollows.le_stop hlength

/-- A whole text leaves an outcome: what it has made is in its place, inside the text and what its
last lexeme overruns. -/
theorem run_outcome {length overrun : Nat} {text : List CodeUnit}
    (hrow : Lexeme.InRow length overrun 0 (Lexeme.ofText text)) (options : Dialect) :
    (run options text).Outcome length (length + overrun) :=
  sound_start.foldl_step hrow options (Nat.le_refl _) (Nat.zero_le _)

end Parser

/-! ## Parse trees of texts -/

/-- In the parse tree of a finished element, spans are nested, ordered and not empty. -/
theorem Finished.nested_map {t : Tree Element} (h : Finished t) :
    (t.map Element.toNode).Nested
      (fun inner outer => inner.span.Within outer.span ∧ inner.span.start < inner.span.stop)
      (fun first second => first.span.Before second.span) := by
  apply h.nested.map
  · rintro e outer ⟨hstart, hpos, hstop⟩
    simp only [Element.toNode, Span.Within, Span.between, Number.natCast_le_natCast,
      Number.natCast_lt_natCast]
    exact ⟨⟨hstart, hstop⟩, hpos⟩
  · intro first second hbefore
    simp only [Element.toNode, Span.Before, Span.between, Number.natCast_le_natCast]
    exact hbefore

/-- The parse tree of a finished element is well nested. -/
theorem Finished.wellNested {t : Tree Element} (h : Finished t) :
    ParseTree.WellNested (t.map Element.toNode) :=
  h.nested_map.imp (fun _ _ hinside => hinside.1) fun _ _ hbefore => hbefore

/-- No node in the parse tree of a finished element has an empty span. -/
theorem Finished.start_lt_stop {t : Tree Element} (h : Finished t) {place : List Nat}
    {s : ParseTree} (hs : (t.map Element.toNode).subtree? place = some s) :
    s.value.span.start < s.value.span.stop := by
  refine h.nested_map.value_of_subtree (P := fun n => n.span.start < n.span.stop)
    (fun _ _ hinside => hinside.2) ?_ hs
  rw [Tree.value_map]
  simpa only [Element.toNode, Span.between, Number.natCast_lt_natCast] using h.pos

/-- The root of a parse tree lies inside the text iff it stops no later than the text. -/
theorem span_map_within_iff {t : Tree Element} {length : Nat} :
    (t.map Element.toNode).value.span.Within (.between 0 length) ↔ t.value.stop ≤ length := by
  rw [Tree.value_map]
  simp only [Element.toNode, Span.Within, Span.between, Number.natCast_le_natCast]
  omega

/-- Whatever a text holds and whatever is allowed in it, the spans of its tree are nested, and only
the one node of a text without a value may be empty. The root stays inside the text unless an
element is left open at the end and a comment overruns the text; then it ends one past it. -/
theorem analyzeUnits_nested (options : Dialect) (text : List CodeUnit) :
    let a := analyzeUnits options text
    (a.root.value.span.Within (.between 0 text.length) ↔
      ¬((∃ l ∈ Lexeme.ofText text, l.Overruns text) ∧
        ∃ f ∈ a.faults, f.code.isUnclosed = true)) ∧
    a.root.value.span.Within (.between 0 (text.length + 1)) ∧
    (a.root = .node (emptyNode text.length) [] ∨
      ∀ place s, Tree.subtree? a.root place = some s →
        s.value.span.start < s.value.span.stop) ∧
    a.root.WellNested := by
  obtain ⟨overrun, hrow, hle, hover⟩ := Lexeme.ofText_inRow text
  have houtcome := Parser.run_outcome hrow options
  simp only [analyzeUnits, parse, List.mem_reverse, ← hover]
  cases houtcome with
  | kept sound =>
    have hclosed : ¬∃ f ∈ (Parser.run options text).faults, f.code.isUnclosed = true := by
      rintro ⟨f, hf, hcode⟩
      simp [sound.closed f hf] at hcode
    simp only [hclosed, and_false, not_false_eq_true, iff_true]
    cases hroot : (Parser.run options text).root with
    | none =>
      simp only [Tree.value, emptyNode, Span.Within, Span.between, Number.natCast_le_natCast]
      exact ⟨by omega, by omega, .inl trivial, .leaf _⟩
    | some r =>
      obtain ⟨hfinished, hstop⟩ := sound.root r hroot
      simp only [span_map_within_iff]
      exact ⟨hstop, by omega, .inr fun _ _ hs => hfinished.start_lt_stop hs, hfinished.wellNested⟩
  | closed r root_eq hfinished hstop reported =>
    simp only [root_eq, span_map_within_iff, reported, and_true]
    exact ⟨by omega, by omega, .inr fun _ _ hs => hfinished.start_lt_stop hs, hfinished.wellNested⟩

/-- An array left open before an unclosed comment with nothing in it reaches past the text. -/
theorem analyze_reaches_past_text :
    ¬(analyze lenient "[/*").root.value.span.Within (.between 0 (Text.units "[/*").length) := by
  have hroot : (analyze lenient "[/*").root = .node ⟨"array", .between 0 4⟩ [] := by cbv
  have hlength : (Text.units "[/*").length = 3 := by cbv
  rw [hroot, hlength]
  simp only [Tree.value, Span.Within, Span.between, Number.natCast_le_natCast]
  omega

end TreeInspector.Document
