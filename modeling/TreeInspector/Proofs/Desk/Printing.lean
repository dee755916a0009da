import Mathlib.Data.List.Basic
import Mathlib.Data.Nat.Digits.Defs
import TreeInspector.Desk.Basic
import TreeInspector.Proofs.Action
import TreeInspector.Proofs.Number

/-!
# What is printed of a pane can be read back

A pane is printed as a heading and one row for each line, with the row's index in front. A row has no
line feed, so the print falls apart into its rows; the number of rows gives the width of the indices;
and behind the index stands the line. Its indent is half the number of its blanks. What follows is
the label, and a span if it ends with a closing bracket: a label can look as if it ended with a span,
but then a colon or a span of its own still comes behind it.
-/

set_option autoImplicit false

namespace TreeInspector

/-! ## Digits -/

namespace Number

/-- Whole numbers up to the magnitude from which they thin out are written digit by digit. -/
theorem text_natCast {n : Nat} (h : n < 2 ^ 53) : (n : Number).text = Nat.repr n := by
  have hden : (n : Rat).den = 1 := Rat.den_natCast n
  have hnum : (n : Rat).num = n := Rat.num_natCast n
  show (if (n : Rat).num = 0 then "0" else if 0 < (n : Rat).num then positiveText n
    else "-" ++ positiveText (-(n : Rat))) = _
  rw [hnum]
  rcases Nat.eq_zero_or_pos n with rfl | hpos
  · rfl
  · rw [if_neg (by omega), if_pos (by omega), positiveText, hden, hnum, Int.natAbs_natCast,
      if_pos ⟨rfl, h⟩]

end Number

/-- Only digits are written of a number. -/
theorem not_mem_toDigits {c : Char} (hc : c.isDigit = false) (n : Nat) : c ∉ Nat.toDigits 10 n := by
  intro hmem
  have hdigit := Nat.isDigit_of_mem_toDigits (by decide) (by decide) hmem
  rw [hc] at hdigit
  cases hdigit

/-- The digits of a number tell it. -/
theorem toDigits_inj {m n : Nat} : Nat.toDigits 10 m = Nat.toDigits 10 n ↔ m = n := by
  constructor
  · intro h
    rw [← Nat.ofDigitChars_toDigits (b := 10) (n := m) (by decide) (by decide), h,
      Nat.ofDigitChars_toDigits (by decide) (by decide)]
  · rintro rfl
    rfl

/-- A smaller number has no more digits. -/
theorem length_toDigits_le {m n : Nat} (h : m ≤ n) :
    (Nat.toDigits 10 m).length ≤ (Nat.toDigits 10 n).length := by
  have hdigits := Nat.length_toDigits_pos (b := 10) (n := n)
  rw [Nat.length_toDigits_le_iff (by decide) hdigits]
  exact h.trans_lt ((Nat.length_toDigits_le_iff (by decide) hdigits).1 (Nat.le_refl _))

/-! ## Cutting at a character -/

section

variable {x y s t : List Char} {c : Char}

/-- Two texts that are cut at the first occurrence of a character. -/
theorem cut_first (hx : c ∉ x) (hy : c ∉ y) (h : x ++ c :: s = y ++ c :: t) : x = y ∧ s = t := by
  rcases List.append_eq_append_iff.1 h with ⟨a, rfl, ha⟩ | ⟨a, rfl, ha⟩
  · cases a with
    | nil => simpa using ha
    | cons d a =>
      cases ha
      simp at hy
  · cases a with
    | nil => simpa [eq_comm] using ha
    | cons d a =>
      cases ha
      simp at hx

/-- Two texts that are cut at the last occurrence of a character. -/
theorem cut_last (hs : c ∉ s) (ht : c ∉ t) (h : x ++ c :: s = y ++ c :: t) : x = y ∧ s = t := by
  have hback : s.reverse ++ c :: x.reverse = t.reverse ++ c :: y.reverse := by
    simpa using congrArg List.reverse h
  obtain ⟨hst, hxy⟩ := cut_first (by simpa using hs) (by simpa using ht) hback
  exact ⟨List.reverse_inj.1 hxy, List.reverse_inj.1 hst⟩

/-- The blanks in front of a text that does not start with one. -/
theorem cut_blanks {m n : Nat} (hs : s.head? ≠ some c) (ht : t.head? ≠ some c)
    (h : List.replicate m c ++ s = List.replicate n c ++ t) : m = n ∧ s = t := by
  induction m generalizing n with
  | zero =>
    cases n with
    | zero => exact ⟨rfl, by simpa using h⟩
    | succ n =>
      rw [List.replicate_succ, List.replicate_zero, List.nil_append, List.cons_append] at h
      rw [h, List.head?_cons] at hs
      exact absurd rfl hs
  | succ m ih =>
    cases n with
    | zero =>
      rw [List.replicate_succ, List.replicate_zero, List.nil_append, List.cons_append] at h
      rw [← h, List.head?_cons] at ht
      exact absurd rfl ht
    | succ n =>
      rw [List.replicate_succ, List.replicate_succ, List.cons_append, List.cons_append,
        List.cons.injEq] at h
      obtain ⟨hmn, hst⟩ := ih h.2
      exact ⟨congrArg Nat.succ hmn, hst⟩

/-- Lines that are ended one by one are told apart when none has the ending inside. -/
theorem cut_lines {rows rows' : List (List Char)} (hrows : ∀ row ∈ rows, c ∉ row)
    (hrows' : ∀ row ∈ rows', c ∉ row)
    (h : (rows.flatMap fun row => row ++ [c]) = rows'.flatMap fun row => row ++ [c]) :
    rows = rows' := by
  induction rows generalizing rows' with
  | nil =>
    cases rows' with
    | nil => rfl
    | cons row' rows' => simp at h
  | cons row rows ih =>
    cases rows' with
    | nil => simp at h
    | cons row' rows' =>
      simp only [List.flatMap_cons, List.append_assoc, List.singleton_append] at h
      obtain ⟨hrow, hrest⟩ := cut_first (hrows row List.mem_cons_self)
        (hrows' row' List.mem_cons_self) h
      rw [hrow, ih (fun row hmem => hrows row (List.mem_cons_of_mem _ hmem))
        (fun row hmem => hrows' row (List.mem_cons_of_mem _ hmem)) hrest]

end

/-! ## Lines -/

/-- What is written of a span behind its opening bracket. -/
def spanDigits (start stop : Nat) : List Char :=
  Nat.toDigits 10 start ++ ',' :: ' ' :: (Nat.toDigits 10 stop ++ [')'])

/-- What is written of a span tells its offsets. -/
theorem spanDigits_inj {start stop start' stop' : Nat}
    (h : spanDigits start stop = spanDigits start' stop') : start = start' ∧ stop = stop' := by
  obtain ⟨hstart, hrest⟩ := cut_first (not_mem_toDigits rfl _) (not_mem_toDigits rfl _) h
  obtain ⟨-, hstop⟩ := List.cons.inj hrest
  exact ⟨toDigits_inj.1 hstart, toDigits_inj.1 (List.append_cancel_right hstop)⟩

/-- Only digits, a comma, a blank and the closing bracket are written of a span. -/
theorem not_mem_spanDigits {c : Char} (hc : c.isDigit = false) (hmark : c ∉ [',', ' ', ')'])
    (start stop : Nat) : c ∉ spanDigits start stop := by
  have hstart := not_mem_toDigits hc start
  have hstop := not_mem_toDigits hc stop
  simp only [List.mem_cons, List.not_mem_nil, or_false, not_or] at hmark
  simp [spanDigits, hstart, hstop, hmark]

/-- A span is written with its brackets and both offsets, as long as numbers count them exactly. -/
theorem Span.toList_text {start stop : Nat} (hstart : start < 2 ^ 53) (hstop : stop < 2 ^ 53) :
    (Span.between start stop).text.toList = '[' :: spanDigits start stop := by
  have htext : (Span.between start stop).text =
      "[" ++ (start : Number).text ++ ", " ++ (stop : Number).text ++ ")" := rfl
  rw [htext, Number.text_natCast hstart, Number.text_natCast hstop]
  simp [String.toList_append, Nat.toList_repr, spanDigits]

namespace ViewLine

/-- A line that can be read back: its label is on one line and does not start with a blank, and its
span, if it has one, has offsets that a number counts exactly. -/
structure Legible (line : ViewLine) : Prop where
  oneLine : '\n' ∉ line.label.toList
  unindented : line.label.toList.head? ≠ some ' '
  counted : ∀ span, line.span = some span →
    ∃ start stop, start < 2 ^ 53 ∧ stop < 2 ^ 53 ∧ span = .between start stop

variable {line line' : ViewLine}

/-- The caption of a line without a span is its label and a colon. -/
theorem toList_caption_of_none (h : line.span = none) :
    line.caption.toList = line.label.toList ++ [':'] := by
  simp [caption, h, String.toList_append]

/-- The caption of a line with a span is its label, a colon and the span. -/
theorem toList_caption_of_some {start stop : Nat} (hstart : start < 2 ^ 53) (hstop : stop < 2 ^ 53)
    (h : line.span = some (.between start stop)) :
    line.caption.toList = line.label.toList ++ ':' :: ' ' :: '[' :: spanDigits start stop := by
  simp [caption, h, String.toList_append, Span.toList_text hstart hstop]

/-- A caption ends with a colon, or with the bracket of a span. -/
theorem Legible.caption_cases (h : line.Legible) :
    (line.span = none ∧ line.caption.toList = line.label.toList ++ [':']) ∨
      ∃ start stop, line.span = some (.between start stop) ∧
        line.caption.toList = line.label.toList ++ ':' :: ' ' :: '[' :: spanDigits start stop := by
  cases hspan : line.span with
  | none => exact .inl ⟨rfl, toList_caption_of_none hspan⟩
  | some span =>
    obtain ⟨start, stop, hstart, hstop, rfl⟩ := h.counted span hspan
    exact .inr ⟨start, stop, rfl, toList_caption_of_some hstart hstop hspan⟩

/-- A caption with a span ends in a bracket. -/
theorem getLast?_spanned (label : List Char) (start stop : Nat) :
    (label ++ ':' :: ' ' :: '[' :: spanDigits start stop).getLast? = some ')' := by
  simp [spanDigits, List.getLast?_append, List.getLast?_cons]

/-- The caption tells label and span. -/
theorem Legible.target_eq (h : line.Legible) (h' : line'.Legible)
    (hcaption : line.caption = line'.caption) : line.toTarget = line'.toTarget := by
  have hsame := congrArg String.toList hcaption
  have htarget : ∀ target target' : Target, target.label.toList = target'.label.toList →
      target.span = target'.span → target = target' := by
    rintro ⟨label, span⟩ ⟨label', span'⟩ hlabel hspan
    rw [String.toList_inj] at hlabel
    exact congrArg₂ Target.mk hlabel hspan
  rcases h.caption_cases with ⟨hspan, htext⟩ | ⟨start, stop, hspan, htext⟩ <;>
    rcases h'.caption_cases with ⟨hspan', htext'⟩ | ⟨start', stop', hspan', htext'⟩
  · rw [htext, htext'] at hsame
    exact htarget _ _ (List.append_cancel_right hsame) (hspan.trans hspan'.symm)
  · -- One ends with a colon, the other one with a bracket.
    have hlast := congrArg List.getLast? hsame
    rw [htext, htext', getLast?_spanned, List.getLast?_append] at hlast
    cases hlast
  · have hlast := congrArg List.getLast? hsame
    rw [htext, htext', getLast?_spanned, List.getLast?_append] at hlast
    cases hlast
  · -- The last opening bracket is that of the span, whatever the labels are.
    have hbracket : ∀ (label : List Char) (start stop : Nat),
        label ++ ':' :: ' ' :: '[' :: spanDigits start stop =
          (label ++ [':', ' ']) ++ '[' :: spanDigits start stop := by simp
    rw [htext, htext', hbracket, hbracket] at hsame
    obtain ⟨hlabel, hdigits⟩ := cut_last (not_mem_spanDigits rfl (by decide) _ _)
      (not_mem_spanDigits rfl (by decide) _ _) hsame
    obtain ⟨rfl, rfl⟩ := spanDigits_inj hdigits
    exact htarget _ _ (List.append_cancel_right hlabel) (hspan.trans hspan'.symm)

/-- The caption of a legible line does not start with a blank. -/
theorem Legible.head?_caption (h : line.Legible) : line.caption.toList.head? ≠ some ' ' := by
  have hlabel := h.unindented
  rcases h.caption_cases with ⟨-, htext⟩ | ⟨start, stop, -, htext⟩ <;>
    rw [htext, List.head?_append] <;> cases hhead : line.label.toList.head? <;> simp_all

/-- A legible line is written on one line. -/
theorem Legible.oneLine_text (h : line.Legible) : '\n' ∉ line.text.toList := by
  have hlabel := h.oneLine
  have hdigits : ∀ start stop, '\n' ∉ spanDigits start stop :=
    not_mem_spanDigits rfl (by decide)
  rw [text, String.toList_append, String.toList_ofList, List.mem_append, not_or]
  refine ⟨by simp, ?_⟩
  rcases h.caption_cases with ⟨-, htext⟩ | ⟨start, stop, -, htext⟩
  · simp [htext, hlabel]
  · simp [htext, hlabel, hdigits start stop]

/-- What is written of a line tells the line. -/
theorem Legible.eq_of_text (h : line.Legible) (h' : line'.Legible) (htext : line.text = line'.text) :
    line = line' := by
  have hsame := congrArg String.toList htext
  simp only [text, String.toList_append, String.toList_ofList] at hsame
  obtain ⟨hindent, hcaption⟩ := cut_blanks h.head?_caption h'.head?_caption hsame
  have htarget := h.target_eq h' (String.toList_inj.1 hcaption)
  obtain ⟨target, indent⟩ := line
  obtain ⟨target', indent'⟩ := line'
  have : indent = indent' := by simpa using hindent
  exact congrArg₂ ViewLine.mk htarget this

end ViewLine

/-! ## Rows -/

namespace Desk

/-- The digits of the last index of so many rows, which no index has more of. -/
def indexWidth (count : Nat) : Nat := (Nat.repr (count - 1)).length

/-- The rows of the lines: each has its index with blanks in front, a bar and the line. Indices and
blanks are equally wide together, and the last index has no blanks. -/
structure Aligned (lines : List ViewLine) (rows : List String) : Prop where
  count : rows.length = lines.length
  row : ∀ i line, lines[i]? = some line → ∃ blanks,
    rows[i]? = some (String.ofList (List.replicate blanks ' ') ++ Nat.repr i ++ " | " ++ line.text) ∧
      blanks + (Nat.repr i).length = indexWidth lines.length
  last : ∀ line, lines.getLast? = some line →
    rows.getLast? = some (Nat.repr (lines.length - 1) ++ " | " ++ line.text)

/-- A number is written with blanks in front, up to the width. -/
theorem toList_rightAligned (width i : Nat) :
    (rightAligned width i).toList =
      List.replicate (width - (Nat.repr i).length) ' ' ++ Nat.toDigits 10 i := by
  rw [rightAligned, String.toList_ofList, Nat.toList_repr, ← String.length_toList, Nat.toList_repr]

/-- A number is written with blanks in front, up to the width, as a text. -/
theorem rightAligned_eq (width i : Nat) :
    rightAligned width i =
      String.ofList (List.replicate (width - (Nat.repr i).length) ' ') ++ Nat.repr i := by
  rw [← String.toList_inj, toList_rightAligned, String.toList_append, String.toList_ofList,
    Nat.toList_repr]

/-- No index is wider than the last one. -/
theorem length_repr_le_indexWidth {i count : Nat} (h : i < count) :
    (Nat.repr i).length ≤ indexWidth count := by
  rw [indexWidth, ← String.length_toList, ← String.length_toList, Nat.toList_repr, Nat.toList_repr]
  exact length_toDigits_le (Nat.le_sub_one_of_lt h)

/-- Each row is the index, a bar and the line. -/
theorem getElem?_paneRows (lines : List ViewLine) (i : Nat) :
    (paneRows lines)[i]? =
      lines[i]?.map fun line => rightAligned (indexWidth lines.length) i ++ " | " ++ line.text := by
  simp only [paneRows, indexWidth, List.getElem?_map, List.getElem?_zipIdx, Option.map_map]
  simp [Function.comp_def]

/-- There is one row for each line. -/
theorem length_paneRows (lines : List ViewLine) : (paneRows lines).length = lines.length := by
  simp [paneRows]

/-- The rows of a pane are aligned. -/
theorem aligned_paneRows (lines : List ViewLine) : Aligned lines (paneRows lines) := by
  refine ⟨length_paneRows lines, ?_, ?_⟩
  · intro i line hline
    obtain ⟨hi, -⟩ := List.getElem?_eq_some_iff.1 hline
    refine ⟨indexWidth lines.length - (Nat.repr i).length, ?_,
      Nat.sub_add_cancel (length_repr_le_indexWidth hi)⟩
    rw [getElem?_paneRows, hline, Option.map_some, rightAligned_eq]
  · intro line hline
    rw [List.getLast?_eq_getElem?] at hline
    rw [List.getLast?_eq_getElem?, length_paneRows, getElem?_paneRows, hline, Option.map_some,
      rightAligned_eq, indexWidth, Nat.sub_self, List.replicate_zero, String.ofList_nil,
      String.empty_append]

/-- A row is one line of the print. -/
theorem oneLine_row {lines : List ViewLine} (hlegible : ∀ line ∈ lines, line.Legible) :
    ∀ row ∈ (paneRows lines).map String.toList, '\n' ∉ row := by
  intro chars hchars
  obtain ⟨row, hrow, rfl⟩ := List.mem_map.1 hchars
  obtain ⟨i, hi⟩ := List.mem_iff_getElem?.1 hrow
  rw [getElem?_paneRows] at hi
  obtain ⟨line, hline, rfl⟩ := Option.map_eq_some_iff.1 hi
  have htext := (hlegible line (List.mem_of_getElem? hline)).oneLine_text
  have hdigits : '\n' ∉ Nat.toDigits 10 i := not_mem_toDigits rfl i
  simp [String.toList_append, toList_rightAligned, hdigits, htext]

/-- Legible lines with the same rows are the same. -/
theorem paneRows_inj {lines lines' : List ViewLine} (hlegible : ∀ line ∈ lines, line.Legible)
    (hlegible' : ∀ line ∈ lines', line.Legible) (h : paneRows lines = paneRows lines') :
    lines = lines' := by
  have hcount : lines.length = lines'.length := by
    rw [← length_paneRows lines, h, length_paneRows]
  refine List.ext_getElem hcount fun i hi hi' => ?_
  have hrow := congrArg (·[i]?) h
  simp only [getElem?_paneRows, hcount, List.getElem?_eq_getElem hi, List.getElem?_eq_getElem hi',
    Option.map_some, Option.some.injEq, String.append_right_inj] at hrow
  exact (hlegible _ (List.getElem_mem hi)).eq_of_text (hlegible' _ (List.getElem_mem hi')) hrow

/-! ## Panes -/

/-- The text of a pane is its title and its rows, each with a line feed. -/
theorem toList_paneText (pane : Pane) :
    (paneText pane).toList = ("=== " ++ pane.title ++ " ===\n").toList ++
      (pane.lines.map String.toList).flatMap fun row => row ++ ['\n'] := by
  rw [paneText, String.toList_join, List.flatMap_cons, List.flatMap_map, List.flatMap_map]
  simp [String.toList_append]

/-- The text of a pane with legible lines tells the lines, given the title. -/
theorem paneText_inj {pane pane' : Pane} (htitle : pane.title = pane'.title)
    {lines lines' : List ViewLine} (hlegible : ∀ line ∈ lines, line.Legible)
    (hlegible' : ∀ line ∈ lines', line.Legible)
    (h : paneText { pane with lines := paneRows lines } =
      paneText { pane' with lines := paneRows lines' }) : lines = lines' := by
  have hprint := congrArg String.toList h
  rw [toList_paneText, toList_paneText, htitle] at hprint
  have hrows := cut_lines (oneLine_row hlegible) (oneLine_row hlegible')
    (List.append_cancel_left hprint)
  have hinj : Function.Injective String.toList := fun _ _ => String.toList_inj.1
  exact paneRows_inj hlegible hlegible' (List.map_injective_iff.2 hinj hrows)

section

variable {C : Type} {w : World Desk C} {id : ViewId} {pane : Pane} {lines : List ViewLine}

/-- The output's next write fails. -/
def NextWriteFails (d : Desk) : Prop := d.output.failing = some (d.output.writes + 1)

/-- Showing the lines in the pane succeeds and adds the text to what has been written. -/
def Prints (w : World Desk C) (id : ViewId) (lines : List ViewLine) (text : String) : Prop :=
  ∃ w', setPaneContent id lines w = .ok () w' ∧
    w'.host.output.written = w.host.output.written ++ text

/-- A write adds its text to the output, or fails if it is to. -/
theorem write_appends (text : String) (w : World Desk C) :
    (write text : Action Desk C Unit).Ensures w
      (fun _ w' => ¬NextWriteFails w.host ∧ w'.host.panes = w.host.panes ∧
        w'.host.output.written = w.host.output.written ++ text)
      (fun _ w' => NextWriteFails w.host ∧ w'.host.panes = w.host.panes) := by
  unfold write Sink.write
  by_cases hfails : w.host.output.failing = some (w.host.output.writes + 1)
  · simp only [Action.ensures_bind, Action.ensures_host, Action.ensures_modifyHost, if_pos hfails]
    exact ⟨hfails, rfl⟩
  · simp only [Action.ensures_bind, Action.ensures_host, Action.ensures_modifyHost, if_neg hfails]
    exact ⟨hfails, rfl, rfl⟩

/-- The rows are set in any case, and printed unless the output fails. -/
theorem setPaneContent_ensures (hpane : w.host.panes[id]? = some pane) (lines : List ViewLine) :
    (setPaneContent id lines : Action Desk C Unit).Ensures w
      (fun _ w' => ¬NextWriteFails w.host ∧
        w'.host.panes[id]? = some { pane with lines := paneRows lines } ∧
        w'.host.output.written =
          w.host.output.written ++ paneText { pane with lines := paneRows lines })
      (fun _ w' => NextWriteFails w.host ∧
        w'.host.panes[id]? = some { pane with lines := paneRows lines }) := by
  have hshown : (w.host.panes.modify id ({ · with lines := paneRows lines }))[id]? =
      some { pane with lines := paneRows lines } := by
    rw [List.getElem?_modify_eq, hpane]
    rfl
  unfold setPaneContent modifyPane print findPane
  simp only [Action.ensures_bind, Action.ensures_host, Action.ensures_modifyHost,
    Action.ensures_pure, hshown, Option.getD_some]
  refine (write_appends _ _).mono ?_ ?_
  · rintro _ w' ⟨hworks, hpanes, hwritten⟩
    exact ⟨hworks, by rw [hpanes, hshown], hwritten⟩
  · rintro e w' ⟨hfails, hpanes⟩
    exact ⟨hfails, by rw [hpanes, hshown]⟩

/-- Lines are printed in a pane that is there if the next write works. -/
theorem exists_prints (hpane : w.host.panes[id]? = some pane) (hworks : ¬NextWriteFails w.host)
    (lines : List ViewLine) : ∃ text, Prints w id lines text := by
  have hdone : (setPaneContent id lines : Action Desk C Unit).Ensures w
      (fun _ w' => w'.host.output.written =
        w.host.output.written ++ paneText { pane with lines := paneRows lines })
      (fun _ _ => False) :=
    (setPaneContent_ensures hpane lines).mono (fun _ _ h => h.2.2) (fun _ _ h => hworks h.1)
  obtain ⟨_, w', hrun, hwritten⟩ := hdone.exists_ok
  exact ⟨_, w', hrun, hwritten⟩

/-- What is printed is the text of the pane with the rows of the lines. -/
theorem Prints.text_eq {text : String} (hpane : w.host.panes[id]? = some pane)
    (h : Prints w id lines text) : text = paneText { pane with lines := paneRows lines } := by
  obtain ⟨w', hrun, hwritten⟩ := h
  have hdone := (Action.ensures_of_ok hrun).1 (setPaneContent_ensures hpane lines)
  rw [hdone.2.2] at hwritten
  exact ((String.append_right_inj _).1 hwritten).symm

/-- Showing lines in a pane gives it one row for each line, with the indices aligned, and prints the
pane unless the output fails. In panes with the same title, different lists of legible lines print
different texts. -/
theorem printed_pane_determines_lines (hpane : w.host.panes[id]? = some pane)
    (lines : List ViewLine) :
    (setPaneContent id lines : Action Desk C Unit).Ensures w
      (fun _ w' => ∃ rows, w'.host.panes[id]? = some { pane with lines := rows } ∧
        Aligned lines rows)
      (fun _ w' => NextWriteFails w.host ∧
        ∃ rows, w'.host.panes[id]? = some { pane with lines := rows } ∧ Aligned lines rows) ∧
    (¬NextWriteFails w.host → ∃ text, Prints w id lines text) ∧
    ∀ (v : World Desk C) (id' : ViewId) (pane' : Pane) (lines' : List ViewLine) (text : String),
      v.host.panes[id']? = some pane' → pane'.title = pane.title →
      (∀ line ∈ lines, line.Legible) → (∀ line ∈ lines', line.Legible) →
      Prints w id lines text → Prints v id' lines' text → lines' = lines := by
  refine ⟨?_, fun hworks => exists_prints hpane hworks lines, ?_⟩
  · refine (setPaneContent_ensures hpane lines).mono ?_ ?_
    · rintro _ w' ⟨-, hshown, -⟩
      exact ⟨_, hshown, aligned_paneRows lines⟩
    · rintro e w' ⟨hfails, hshown⟩
      exact ⟨hfails, _, hshown, aligned_paneRows lines⟩
  · intro v id' pane' lines' text hpane' htitle hlegible hlegible' hprints hprints'
    have hsame := (hprints'.text_eq hpane').symm.trans (hprints.text_eq hpane)
    exact paneText_inj htitle hlegible' hlegible hsame

/-- A desk with one empty pane. -/
def onePane : World Desk Unit where
  host := { disk := { workingDirectory := ⟨[]⟩ }, panes := [{ title := "Lines" }] }
  client := ()

/-- A label that looks as if it ended with a span is not taken for a line with that span. -/
theorem onePane_tells_labels_apart :
    ∃ text, Prints onePane 0 [⟨⟨"a: [0, 1)", none⟩, 0⟩] text ∧
      ¬Prints onePane 0 [⟨⟨"a", some (.between 0 1)⟩, 0⟩] text := by
  have hpane : onePane.host.panes[0]? = some { title := "Lines" } := rfl
  have hworks : ¬NextWriteFails onePane.host := by
    intro hfails
    cases hfails
  obtain ⟨-, hprints, hdetermines⟩ :=
    printed_pane_determines_lines hpane [⟨⟨"a: [0, 1)", none⟩, 0⟩]
  obtain ⟨text, htext⟩ := hprints hworks
  refine ⟨text, htext, fun htext' => ?_⟩
  have hlegible : ∀ line ∈ [(⟨⟨"a: [0, 1)", none⟩, 0⟩ : ViewLine)], line.Legible := by
    rintro line hline
    obtain rfl := List.mem_singleton.1 hline
    exact ⟨by decide, by decide, by simp⟩
  have hlegible' : ∀ line ∈ [(⟨⟨"a", some (.between 0 1)⟩, 0⟩ : ViewLine)], line.Legible := by
    rintro line hline
    obtain rfl := List.mem_singleton.1 hline
    refine ⟨by decide, by decide, ?_⟩
    rintro span ⟨⟩
    exact ⟨0, 1, by decide, by decide, rfl⟩
  have hsame := hdetermines onePane 0 _ _ text hpane rfl hlegible hlegible' htext htext'
  simp at hsame

end

end Desk

end TreeInspector
