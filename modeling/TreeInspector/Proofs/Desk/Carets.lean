import TreeInspector.Proofs.Desk.Echo
import TreeInspector.Proofs.Desk.Focus
import TreeInspector.Proofs.Document.Nesting
import TreeInspector.Proofs.Text.Positions

/-!
# Carets under a selection

A highlighted jump prints the line on which the span begins and carets below it. Columns are counted
from the last line feed, while the printed line is cut before a carriage return that stands in front
of a line feed. The two disagree about one column: a span that ends between the two units gets one
caret more than the printed line has columns of it.
-/

set_option autoImplicit false

namespace TreeInspector

open Text (lineFeed carriageReturn)

namespace Text

/-! ## Columns of a line -/

/-- The columns of the line on which a stretch begins that stand for offsets of the stretch. -/
def columnsOf (text : List CodeUnit) (start stop : Nat) : List Nat :=
  (List.range (lineAt text start).length).filter fun column =>
    start ≤ lineStart text start + column ∧ lineStart text start + column < stop

/-- The stretch ends between the carriage return and the line feed that end the line on which it
begins, and some of it stands before the carriage return. -/
def EndsInLineEnding (text : List CodeUnit) (start stop : Nat) : Prop :=
  start + 1 < stop ∧ text[stop - 1]? = some carriageReturn ∧ text[stop]? = some lineFeed ∧
    (text.take stop).count lineFeed = (text.take start).count lineFeed

instance (text : List CodeUnit) (start stop : Nat) :
    Decidable (EndsInLineEnding text start stop) :=
  inferInstanceAs (Decidable (_ ∧ _ ∧ _ ∧ _))

/-- As many numbers below a length lie in an interval as the part of the interval below the length
has. -/
theorem length_filter_range (length low high : Nat) :
    ((List.range length).filter fun i => low ≤ i ∧ i < high).length = min length high - low := by
  induction length with
  | zero => simp
  | succ n ih =>
    rw [List.range_succ, List.filter_append, List.length_append, ih]
    by_cases hn : low ≤ n ∧ n < high
    · simp only [List.filter_cons, decide_eq_true hn, if_true, List.filter_nil,
        List.length_singleton]
      omega
    · simp only [List.filter_cons, decide_eq_false hn, Bool.false_eq_true, if_false,
        List.filter_nil, List.length_nil]
      omega

/-- The columns of a stretch go from its start to its end or to the end of the line, whichever comes
first. -/
theorem length_columnsOf (text : List CodeUnit) (start stop : Nat) :
    (columnsOf text start stop).length =
      min (lineAt text start).length (stop - lineStart text start) -
        (start - lineStart text start) := by
  have hle := lineStart_le text start
  rw [columnsOf, ← length_filter_range]
  congr 1
  refine List.filter_congr fun i _ => ?_
  rw [decide_eq_decide]
  omega

/-- The columns from the offset at which a stretch begins to where it ends on this line, at least
one. -/
def widthOf (text : List CodeUnit) (start stop : Nat) : Nat :=
  let last := if (text.take stop).count lineFeed = (text.take start).count lineFeed
    then columnAt text stop else (lineAt text start).length
  max 1 (last - columnAt text start)

/-- On one line the stretch ends in the line ending exactly if it ends one past the columns. -/
theorem endsInLineEnding_iff {text : List CodeUnit} {start stop : Nat} (h : start ≤ stop)
    (hcount : (text.take stop).count lineFeed = (text.take start).count lineFeed) :
    min stop text.length - lineStart text start ≤ (lineAt text start).length + 1 ∧
      (EndsInLineEnding text start stop ↔ start + 1 < stop ∧
        min stop text.length - lineStart text start = (lineAt text start).length + 1) := by
  have hstart := lineStart_le text start
  have hget : ∀ offset, lineStart text start ≤ offset →
      (text.drop (lineStart text start))[offset - lineStart text start]? = text[offset]? := by
    intro offset hle
    rw [List.getElem?_drop, Nat.add_sub_cancel' hle]
  obtain ⟨hends, hfeed⟩ := firstLine_ends (text.drop (lineStart text start))
  obtain ⟨hle, hiff⟩ := hends.reach hfeed ((count_take_eq_iff h).1 hcount)
  have hmin : min stop text.length - lineStart text start =
      min (stop - lineStart text start) (text.length - lineStart text start) := by omega
  rw [List.length_drop, ← hmin] at hle hiff
  refine ⟨hle, and_congr_right fun hlt => ?_⟩
  have hback : stop - lineStart text start - 1 = stop - 1 - lineStart text start := by omega
  have hpos : 0 < stop - lineStart text start := by omega
  rw [hback, hget (stop - 1) (by omega), hget stop (by omega), and_iff_right hpos] at hiff
  rw [and_iff_left hcount]
  exact hiff.symm

/-- The columns of a stretch follow the one at which it begins. -/
theorem columnAt_add_length_le {text : List CodeUnit} {start stop : Nat}
    (h : 0 < (columnsOf text start stop).length) :
    columnAt text start + (columnsOf text start stop).length ≤ (lineAt text start).length := by
  have hstart := lineStart_le text start
  have hle := length_lineAt_le text start
  rw [length_columnsOf] at h ⊢
  unfold columnAt
  omega

/-- A stretch that ends in the line ending has the last column of the line, and its width is one
more than its columns. -/
theorem widthOf_of_endsInLineEnding {text : List CodeUnit} {start stop : Nat} (h : start ≤ stop)
    (hin : EndsInLineEnding text start stop) :
    0 < (columnsOf text start stop).length ∧
      columnAt text start + (columnsOf text start stop).length = (lineAt text start).length ∧
      widthOf text start stop = (columnsOf text start stop).length + 1 := by
  have hstart := lineStart_le text start
  have hlt : stop < text.length := (List.getElem?_eq_some_iff.1 hin.2.2.1).1
  have hcount := hin.2.2.2
  rw [(endsInLineEnding_iff h hcount).2] at hin
  rw [length_columnsOf]
  unfold widthOf columnAt
  rw [if_pos hcount, lineStart_eq_of_count h hcount]
  dsimp only
  omega

/-- The width of any other stretch is the number of its columns, but at least one. -/
theorem widthOf_eq {text : List CodeUnit} {start stop : Nat} (h : start ≤ stop)
    (hnot : ¬EndsInLineEnding text start stop) :
    widthOf text start stop = max 1 (columnsOf text start stop).length := by
  have hstart := lineStart_le text start
  have hle := length_lineAt_le text start
  rw [length_columnsOf]
  unfold widthOf columnAt
  dsimp only
  by_cases hcount : (text.take stop).count lineFeed = (text.take start).count lineFeed
  · obtain ⟨hreach, hiff⟩ := endsInLineEnding_iff h hcount
    rw [hiff] at hnot
    rw [if_pos hcount, lineStart_eq_of_count h hcount]
    omega
  · obtain ⟨hends, hfeed⟩ := firstLine_ends (text.drop (lineStart text start))
    have hlt : (lineAt text start).length < stop - lineStart text start := by
      refine hends.length_lt hfeed ?_
      by_contra hmem
      exact hcount ((count_take_eq_iff h).2 hmem)
    rw [if_neg hcount]
    omega

end Text

/-! ## What is printed -/

/-- A span tells the two offsets that it is between. -/
theorem Span.between_inj {start stop start' stop' : Nat} :
    Span.between start stop = .between start' stop' ↔ start = start' ∧ stop = stop' := by
  constructor
  · intro h
    injection h with hstart hstop
    injection hstart with hstart
    injection hstop with hstop
    exact ⟨by exact_mod_cast hstart, by exact_mod_cast hstop⟩
  · rintro ⟨rfl, rfl⟩
    rfl

/-- The start and the end of a node of a parsed document. -/
theorem Document.analyze_span {options : Dialect} {text : String} {place : List Nat}
    {s : ParseTree} (hs : Tree.subtree? (analyze options text).root place = some s) :
    ∃ start stop : Nat, start ≤ stop ∧ s.value.span = .between start stop := by
  obtain ⟨overrun, hrow, -⟩ := Lexeme.ofText_inRow (Text.units text)
  have houtcome := Parser.run_outcome hrow options
  have hfinished : ∀ {t : Tree Element}, Finished t →
      (t.map Element.toNode).subtree? place = some s →
      ∃ start stop : Nat, start ≤ stop ∧ s.value.span = .between start stop := by
    intro t ht hs
    have hnested : (t.map Element.toNode).Nested
        (fun inner _ => ∃ start stop : Nat, start ≤ stop ∧ inner.span = .between start stop)
        (fun _ _ => True) := by
      refine ht.nested.map ?_ fun _ _ _ => trivial
      exact fun inner _ hinside => ⟨inner.start, inner.stop, Nat.le_of_lt hinside.2.1, rfl⟩
    refine hnested.value_of_subtree
      (P := fun n => ∃ start stop : Nat, start ≤ stop ∧ n.span = .between start stop)
      (fun _ _ hinside => hinside) ?_ hs
    rw [Tree.value_map]
    exact ⟨t.value.start, t.value.stop, Nat.le_of_lt ht.pos, rfl⟩
  unfold analyze analyzeUnits parse at hs
  dsimp only at hs
  cases houtcome with
  | kept sound =>
    cases hroot : (Parser.run options (Text.units text)).root with
    | none =>
      rw [hroot] at hs
      cases place with
      | nil =>
        cases hs
        exact ⟨0, (Text.units text).length, Nat.zero_le _, rfl⟩
      | cons i below => simp [Tree.subtree?, Tree.children] at hs
    | some r =>
      rw [hroot] at hs
      exact hfinished (sound.root r hroot).1 hs
  | closed r hroot ht hstop hreported =>
    rw [hroot] at hs
    exact hfinished ht hs

namespace Desk

/-- The rows for a span that starts at the given offset, with the given number of carets. -/
def underlined (name : String) (text : List CodeUnit) (start carets : Nat) : List String :=
  let gutter := Nat.repr ((text.take start).count lineFeed + 1)
  let column := Text.columnAt text start
  [name ++ ":" ++ gutter ++ ":" ++ ((column : Number) + 1).text,
   gutter ++ " | " ++ Text.ofUnits (Text.lineAt text start),
   String.ofList (List.replicate gutter.length ' ') ++ " | " ++
    String.ofList (List.replicate column ' ') ++ String.ofList (List.replicate carets '^')]

/-- The report of a highlighted span has as many carets as the span is wide on its first line. -/
theorem focusReport_eq (name : String) (text : List CodeUnit) (start stop : Nat) :
    focusReport name text (.between start stop) true =
      .ok (underlined name text start (Text.widthOf text start stop)) := by
  unfold focusReport Span.between
  simp only [Text.positionOf_natCast, Text.lineText_eq, if_true, ← apply_ite Number.ofNat,
    Number.one_max_sub, repeated_natCast]
  rfl

section

variable {C : Type} {w : World Desk C} {source : SourceId} {s : SourceFile}

/-- A highlighted jump to a node of a document prints the line on which the node begins and, from
its column on, one caret for each column of that line which belongs to the node, and at least one.
The one exception is a node that begins before the carriage return of a line ending and ends after
it: then there is one caret too many, below no column of the line. -/
theorem focus_underlines (hs : w.host.sources[source]? = some s) (hopen : s.closed = false)
    {place : List Nat} {node : ParseTree}
    (hnode : Tree.subtree? (Document.analyze Document.lenient s.text).root place = some node) :
    let text := Text.units s.text
    ∃ start stop carets : Nat, node.value.span = .between start stop ∧
      focus source node.value.span true w =
        write (String.join ((underlined s.name text start carets).map (· ++ "\n"))) { w with
          host := { w.host with
            sources := w.host.sources.modify source
              ({ · with selection := some node.value.span, highlighted := true }) } } ∧
      (carets = max 1 (Text.columnsOf text start stop).length ↔
        ¬Text.EndsInLineEnding text start stop) ∧
      (0 < (Text.columnsOf text start stop).length →
        (Text.columnAt text start + carets ≤ (Text.lineAt text start).length ↔
          ¬Text.EndsInLineEnding text start stop)) ∧
      (Text.EndsInLineEnding text start stop →
        carets = (Text.columnsOf text start stop).length + 1) := by
  obtain ⟨start, stop, hle, hspan⟩ := Document.analyze_span hnode
  intro text
  have hreport : focusReport s.name text node.value.span true =
      .ok (underlined s.name text start (Text.widthOf text start stop)) := by
    rw [hspan]
    exact focusReport_eq s.name text start stop
  refine ⟨start, stop, Text.widthOf text start stop, hspan, focus_of_report hs hopen hreport, ?_⟩
  by_cases hin : Text.EndsInLineEnding text start stop
  · obtain ⟨hpos, hlast, hwidth⟩ := Text.widthOf_of_endsInLineEnding hle hin
    simp only [hin, not_true_eq_false, iff_false]
    exact ⟨by omega, fun _ => by omega, fun _ => hwidth⟩
  · have hwidth := Text.widthOf_eq hle hin
    simp only [hin, not_false_eq_true, iff_true, false_implies, and_true]
    refine ⟨hwidth, fun hpos => ?_⟩
    have hfits := Text.columnAt_add_length_le hpos
    omega

end

end Desk

namespace DeskRun

/-- One open file with the given text. -/
def holding (text : String) : World Desk Unit where
  host :=
    { disk := { workingDirectory := ⟨[]⟩ }
      sources := [SourceFile.update text true { path := "/a.json" }] }
  client := ()

/-- An array over two lines is underlined up to the end of the first. -/
theorem array_underlined :
    (Document.analyze Document.lenient "[1,\r\n 2]").root.value.span = .between 0 8 ∧
    ∃ w, Desk.focus 0 (.between 0 8) true (holding "[1,\r\n 2]") =
      Desk.write "a.json:1:1\n1 | [1,\n  | ^^^\n" w := by
  have hspan : (Document.analyze Document.lenient "[1,\r\n 2]").root.value.span =
      .between 0 8 := by decide +kernel
  have hroot : Tree.subtree? (Document.analyze Document.lenient "[1,\r\n 2]").root [] =
      some (Document.analyze Document.lenient "[1,\r\n 2]").root := rfl
  have hs : (holding "[1,\r\n 2]").host.sources[0]? =
      some (SourceFile.update "[1,\r\n 2]" true { path := "/a.json" }) := rfl
  obtain ⟨start, stop, carets, heq, hfocus, hwidth, -⟩ := Desk.focus_underlines hs rfl hroot
  obtain ⟨rfl, rfl⟩ := Span.between_inj.1 (hspan.symm.trans heq)
  have hcarets : carets = 3 := hwidth.2 (by decide +kernel)
  have hrows : String.join
      ((Desk.underlined "a.json" (Text.units "[1,\r\n 2]") 0 3).map (· ++ "\n")) =
      "a.json:1:1\n1 | [1,\n  | ^^^\n" := by decide +kernel
  subst hcarets
  exact ⟨hspan, _, by rw [← hspan, ← hrows]; exact hfocus⟩

/-- A string that a backslash keeps open over the carriage return of its line ending has three
columns on its line, and four carets below them. -/
theorem openString_underlined_past_line :
    let text := Text.units "\"a\\\r\n"
    (Document.analyze Document.lenient "\"a\\\r\n").root.value.span = .between 0 4 ∧
    Text.lineAt text 0 = Text.units "\"a\\" ∧ Text.columnsOf text 0 4 = [0, 1, 2] ∧
    ((Desk.focus 0 (.between 0 4) true).outcome (holding "\"a\\\r\n")).2.host.output.written =
      "a.json:1:1\n1 | \"a\\\n  | ^^^^\n" ∧
    ((Desk.focus 0 (.between 0 4) true).outcome (holding "\"a\\\r\n")).2.host.output.written ≠
      String.join ((Desk.underlined "a.json" text 0 (max 1 (Text.columnsOf text 0 4).length)).map
        (· ++ "\n")) := by
  decide +kernel

end DeskRun

end TreeInspector
