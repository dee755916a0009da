import Mathlib.Data.Prod.Lex
import TreeInspector.Proofs.Number
import TreeInspector.Proofs.Text.Lines

/-!
# Lines and columns of offsets

`positionOf` counts line feeds up to an offset, `lineText` cuts a text at its line endings. Both
speak of the same lines: there are as many of the one kind as of the other, and what stands in a
line at the column of an offset is what stands in the text at the offset. The one exception are the
line endings, which belong to no line but have columns behind it.
-/

set_option autoImplicit false

namespace TreeInspector.Text

/-! ## Lines and columns as counts -/

/-- The line of an offset, without its ending. -/
def lineAt (text : List CodeUnit) (offset : Nat) : List CodeUnit :=
  firstLine (text.drop (lineStart text offset))

/-- The column of an offset; past the end of the text there is no further one. -/
def columnAt (text : List CodeUnit) (offset : Nat) : Nat :=
  min offset text.length - lineStart text offset

/-- The position of an offset counts the line feeds before it, and the units since the last one. -/
theorem positionOf_natCast (text : List CodeUnit) (offset : Nat) :
    positionOf text offset =
      ⟨(text.take offset).count lineFeed, (columnAt text offset : Number)⟩ := by
  have hbelow : ∀ n : Nat, indicesBelow n = n := by
    intro n
    show (n : Rat).ceil.toNat = n
    rw [← Rat.intCast_natCast, Rat.ceil_intCast]
    rfl
  have htake : text.take (min offset text.length) = text.take offset :=
    List.take_eq_take_min.symm
  have hle : lastLineStart (text.take offset) ≤ min offset text.length := by
    unfold lastLineStart
    rw [List.length_take]
    omega
  unfold positionOf
  dsimp only
  rw [Number.min_natCast, Number.zero_max_natCast, hbelow, htake, Number.natCast_sub_of_le hle]
  rfl

/-- The line of an offset is no longer than what is left of the text where it begins. -/
theorem length_lineAt_le (text : List CodeUnit) (offset : Nat) :
    (lineAt text offset).length ≤ text.length - lineStart text offset := by
  rw [← List.length_drop]
  exact (firstLine_ends _).1.length_le

/-- The line and the column of an offset. -/
def placeOf (text : List CodeUnit) (offset : Nat) : Nat × Nat :=
  ((text.take offset).count lineFeed, columnAt text offset)

/-- A later offset is on a later line, or its line is the same and begins where it did. -/
theorem line_of_le (text : List CodeUnit) {first second : Nat} (h : first ≤ second) :
    (text.take first).count lineFeed < (text.take second).count lineFeed ∨
      (text.take first).count lineFeed = (text.take second).count lineFeed ∧
        lineStart text second = lineStart text first := by
  have hcount : (text.take first).count lineFeed ≤ (text.take second).count lineFeed :=
    (List.take_sublist_take_left h).count_le lineFeed
  rcases Nat.lt_or_eq_of_le hcount with hlt | heq
  · exact .inl hlt
  · exact .inr ⟨heq, lineStart_eq_of_count h heq.symm⟩

/-- Later offsets have later places: a later line, or the same line and no earlier column. -/
theorem placeOf_mono (text : List CodeUnit) {first second : Nat} (h : first ≤ second) :
    toLex (placeOf text first) ≤ toLex (placeOf text second) := by
  rw [Prod.Lex.toLex_le_toLex]
  rcases line_of_le text h with hlt | ⟨heq, hstart⟩
  · exact .inl hlt
  · refine .inr ⟨heq, ?_⟩
    unfold placeOf columnAt
    dsimp only
    omega

/-! ## Units of a line -/

/-- The unit at an offset belongs to a line ending: it is a line feed, or a carriage return with a
line feed right behind it. -/
def InLineEnding (text : List CodeUnit) (offset : Nat) : Prop :=
  text[offset]? = some lineFeed ∨
    text[offset]? = some carriageReturn ∧ text[offset + 1]? = some lineFeed

instance (text : List CodeUnit) (offset : Nat) : Decidable (InLineEnding text offset) :=
  inferInstanceAs (Decidable (_ ∨ _ ∧ _))

/-- Behind the end of a text there is no line ending. -/
theorem not_inLineEnding_of_length_le {text : List CodeUnit} {offset : Nat}
    (h : text.length ≤ offset) : ¬InLineEnding text offset := by
  simp [InLineEnding, List.getElem?_eq_none h]

/-- Within the first line the text has the units of that line, and no line ending. -/
theorem LineEnds.inside {row us : List CodeUnit} (h : LineEnds row us)
    (hfeed : lineFeed ∉ row) {n : Nat} (hn : n < row.length) :
    us[n]? = row[n]? ∧ ¬InLineEnding us n := by
  have hne : carriageReturn ≠ lineFeed := by decide
  have hget : us[n]? = row[n]? := by
    cases h with
    | atText => rfl
    | atFeed rest last => exact List.getElem?_append_left hn
    | atPair rest => exact List.getElem?_append_left hn
  refine ⟨hget, ?_⟩
  rintro (hthis | ⟨hthis, hnext⟩)
  · rw [hget] at hthis
    exact hfeed (List.mem_of_getElem? hthis)
  rw [hget] at hthis
  rcases Nat.lt_or_eq_of_le (Nat.succ_le_of_lt hn) with hlt | heq
  · -- The line feed would still be in the line.
    have hline : us[n + 1]? = row[n + 1]? := by
      cases h with
      | atText => rfl
      | atFeed rest last => exact List.getElem?_append_left hlt
      | atPair rest => exact List.getElem?_append_left hlt
    rw [hline] at hnext
    exact hfeed (List.mem_of_getElem? hnext)
  · -- The line would end with the carriage return of its own ending.
    have heq : n + 1 = row.length := heq
    cases h with
    | atText => simp [heq] at hnext
    | atFeed rest last =>
      refine last ?_
      rw [List.getLast?_eq_getElem?, ← heq]
      exact hthis
    | atPair rest => simp [heq, hne] at hnext

/-- Behind the first line, up to the next one, there is its line ending, or the text is over. -/
theorem LineEnds.outside {row us : List CodeUnit} (h : LineEnds row us)
    (hfeed : lineFeed ∉ row) {n : Nat} (hn : lineFeed ∉ us.take n) (hle : row.length ≤ n) :
    InLineEnding us n ∨ us.length ≤ n := by
  cases h with
  | atText => exact .inr hle
  | atFeed rest last =>
    have hreach := (not_mem_take_iff hfeed rest n).1 hn
    obtain rfl : n = row.length := by omega
    exact .inl (.inl (by simp))
  | atPair rest =>
    have hbefore : lineFeed ∉ row ++ [carriageReturn] := by
      have hne : lineFeed ≠ carriageReturn := by decide
      simp [hfeed, hne]
    have hsplit : row ++ carriageReturn :: lineFeed :: rest =
        (row ++ [carriageReturn]) ++ lineFeed :: rest := by simp
    have hreach : n ≤ row.length + 1 := by
      rw [hsplit] at hn
      simpa using (not_mem_take_iff hbefore rest n).1 hn
    rcases Nat.eq_or_lt_of_le hle with rfl | hlt
    · exact .inl (.inr (by simp))
    · obtain rfl : n = row.length + 1 := by omega
      exact .inl (.inl (by simp))

/-- The column of an offset leads to the unit at the offset, unless that belongs to the ending of
the line. -/
theorem lineAt_getElem? (text : List CodeUnit) (offset : Nat) :
    (lineAt text offset)[columnAt text offset]? =
      if InLineEnding text offset then none else text[offset]? := by
  have hstart := lineStart_le text offset
  have hlength := length_lineAt_le text offset
  rcases Nat.lt_or_ge offset text.length with hlt | hge
  · have hcolumn : columnAt text offset = offset - lineStart text offset := by
      unfold columnAt
      omega
    have hget : ∀ i, (text.drop (lineStart text offset))[offset - lineStart text offset + i]? =
        text[offset + i]? := by
      intro i
      rw [List.getElem?_drop]
      congr 1
      omega
    have hthis : (text.drop (lineStart text offset))[offset - lineStart text offset]? =
        text[offset]? := hget 0
    have hending : InLineEnding (text.drop (lineStart text offset))
        (offset - lineStart text offset) ↔ InLineEnding text offset := by
      rw [InLineEnding, InLineEnding, hthis, hget 1]
    obtain ⟨hends, hfeed⟩ := firstLine_ends (text.drop (lineStart text offset))
    have hfree : lineFeed ∉ (text.drop (lineStart text offset)).take
        (offset - lineStart text offset) := (count_take_eq_iff (Nat.le_refl offset)).1 rfl
    rw [hcolumn]
    rcases Nat.lt_or_ge (offset - lineStart text offset) (lineAt text offset).length with
      hinside | houtside
    · obtain ⟨hsame, hnot⟩ := hends.inside hfeed hinside
      rw [if_neg (hending.not.1 hnot), ← hthis]
      exact hsame.symm
    · have hin : InLineEnding text offset := by
        refine hending.1 ((hends.outside hfeed hfree houtside).resolve_right ?_)
        rw [List.length_drop]
        omega
      rw [if_pos hin, List.getElem?_eq_none houtside]
  · have hpast : (lineAt text offset).length ≤ columnAt text offset := by
      unfold columnAt
      omega
    rw [if_neg (not_inLineEnding_of_length_le hge), List.getElem?_eq_none hge,
      List.getElem?_eq_none hpast]

/-! ## The number of lines -/

/-- There is one line more than there are line feeds. -/
theorem length_lines (text : List CodeUnit) : (lines text).length = text.count lineFeed + 1 := by
  have hne : carriageReturn ≠ lineFeed := by decide
  induction text with
  | nil => rfl
  | cons u rest ih =>
    by_cases hfeed : u = lineFeed
    · subst hfeed
      rw [lines, if_pos rfl, List.length_cons, ih, List.count_cons_self]
    rw [List.count_cons_of_ne hfeed, ← ih]
    by_cases hreturn : u = carriageReturn ∧ rest.head? = some lineFeed
    · rw [lines, if_neg hfeed, if_pos hreturn]
    · have hpos := List.length_pos_iff.2 (lines_ne_nil rest)
      rw [lines_cons hfeed hreturn, List.length_cons, List.length_tail]
      omega

/-- A line whose number is greater than that of line feeds is empty. -/
theorem lineText_of_lt {text : List CodeUnit} {n : Number}
    (h : (text.count lineFeed : Number) < n) : lineText text n = [] := by
  rw [lineText]
  cases hindex : n.toIndex? with
  | none => rfl
  | some i =>
    rw [Number.toIndex?_eq_some_iff] at hindex
    subst hindex
    have hlt : text.count lineFeed < i := Number.natCast_lt_natCast.1 h
    have hnone : (lines text)[i]? = none := by
      rw [List.getElem?_eq_none_iff, length_lines]
      omega
    simp only [hnone, Option.getD_none]

/-- Positions and lines agree. For an offset whose unit belongs to no line ending, the line of its
position holds that unit at the column of the position; at the column of a line ending the line
holds nothing. The position of the end of the text is on the last line, and all later lines are
empty. -/
theorem line_of_position_holds_unit (text : List CodeUnit) :
    (∀ offset : Nat, ∃ column : Nat, (positionOf text offset).character = column ∧
      (lineText text (positionOf text offset).line)[column]? =
        if InLineEnding text offset then none else text[offset]?) ∧
    (lines text).length = (positionOf text text.length).line + 1 ∧
    ∀ n : Number, ((positionOf text text.length).line : Number) < n → lineText text n = [] := by
  refine ⟨?_, ?_, ?_⟩
  · intro offset
    refine ⟨columnAt text offset, ?_, ?_⟩
    · rw [positionOf_natCast]
    · rw [positionOf_natCast, lineText_eq]
      exact lineAt_getElem? text offset
  · rw [positionOf_natCast, List.take_length, length_lines]
  · intro n hlt
    rw [positionOf_natCast, List.take_length] at hlt
    exact lineText_of_lt hlt

end TreeInspector.Text
