import Mathlib.Data.List.TakeWhile
import TreeInspector.Text.Position

/-!
# Where lines begin and end

The line of an offset begins after the last line feed before it. `lines` holds for it what stands
from there up to the next line feed, less a carriage return right before that.
-/

set_option autoImplicit false

namespace TreeInspector.Text

/-! ## The beginning of a line -/

/-- A text after which a line begins. -/
def EndsLine (us : List CodeUnit) : Prop := us = [] ∨ us.getLast? = some lineFeed

/-- The offset at which the line of an offset begins. -/
def lineStart (text : List CodeUnit) (offset : Nat) : Nat := lastLineStart (text.take offset)

/-- The last line of a text begins behind the last line feed. -/
theorem lastLineStart_append {head tail : List CodeUnit} (hhead : EndsLine head)
    (htail : lineFeed ∉ tail) : lastLineStart (head ++ tail) = head.length := by
  have hstop : head.reverse.takeWhile (· ≠ lineFeed) = [] := by
    rcases hhead with rfl | hlast
    · rfl
    · rw [← List.head?_reverse] at hlast
      obtain ⟨rest, hrest⟩ := List.head?_eq_some_iff.1 hlast
      simp [hrest]
  have htake : (head ++ tail).reverse.takeWhile (· ≠ lineFeed) = tail.reverse := by
    rw [List.reverse_append, List.takeWhile_append_of_pos, hstop, List.append_nil]
    intro u hu
    have hne : u ≠ lineFeed := fun heq => htail (heq ▸ List.mem_reverse.1 hu)
    simpa using hne
  rw [lastLineStart, htake, List.length_append, List.length_reverse, Nat.add_sub_cancel]

/-- The last line of a text is what follows its last line feed. -/
theorem exists_lastLine (us : List CodeUnit) : ∃ head tail, us = head ++ tail ∧
    EndsLine head ∧ lineFeed ∉ tail ∧ lastLineStart us = head.length := by
  have hsplit : us = (us.reverse.dropWhile (· ≠ lineFeed)).reverse ++
      (us.reverse.takeWhile (· ≠ lineFeed)).reverse := by
    rw [← List.reverse_append, List.takeWhile_append_dropWhile, List.reverse_reverse]
  have hhead : EndsLine (us.reverse.dropWhile (· ≠ lineFeed)).reverse := by
    cases hdrop : us.reverse.dropWhile (· ≠ lineFeed) with
    | nil => exact .inl rfl
    | cons u rest =>
      have hu := List.head?_dropWhile_not (· ≠ lineFeed) us.reverse
      rw [hdrop] at hu
      refine .inr ?_
      simpa using hu
  have htail : lineFeed ∉ (us.reverse.takeWhile (· ≠ lineFeed)).reverse := by
    intro hmem
    simpa using List.mem_takeWhile_imp (List.mem_reverse.1 hmem)
  exact ⟨_, _, hsplit, hhead, htail,
    (congrArg lastLineStart hsplit).trans (lastLineStart_append hhead htail)⟩

/-! ## The end of a line -/

/-- The first line of a text, without its ending. -/
def firstLine (us : List CodeUnit) : List CodeUnit := (lines us).headD []

/-- Every text has a line. -/
theorem lines_ne_nil (us : List CodeUnit) : lines us ≠ [] := by
  fun_induction lines us <;> simp_all

/-- The first of the lines is the first line. -/
theorem lines_head? (us : List CodeUnit) : (lines us).head? = some (firstLine us) := by
  have hne := lines_ne_nil us
  unfold firstLine
  cases h : lines us with
  | nil => exact absurd h hne
  | cons line others => rfl

/-- Before a line feed at the front the first line is empty. -/
theorem firstLine_lineFeed (rest : List CodeUnit) : firstLine (lineFeed :: rest) = [] := by
  simp [firstLine, lines]

/-- Before a carriage return and a line feed at the front the first line is empty. -/
theorem firstLine_lineEnding (rest : List CodeUnit) :
    firstLine (carriageReturn :: lineFeed :: rest) = [] := by
  have hne : carriageReturn ≠ lineFeed := by decide
  simp [firstLine, lines, hne]

/-- A unit that ends no line is put before the first line. -/
theorem lines_cons {u : CodeUnit} {rest : List CodeUnit} (hfeed : u ≠ lineFeed)
    (hreturn : ¬(u = carriageReturn ∧ rest.head? = some lineFeed)) :
    lines (u :: rest) = (u :: firstLine rest) :: (lines rest).tail := by
  have hne := lines_ne_nil rest
  rw [lines, if_neg hfeed, if_neg hreturn, firstLine]
  cases h : lines rest with
  | nil => exact absurd h hne
  | cons line others => rfl

/-- A unit that ends no line begins the first line. -/
theorem firstLine_cons {u : CodeUnit} {rest : List CodeUnit} (hfeed : u ≠ lineFeed)
    (hreturn : ¬(u = carriageReturn ∧ rest.head? = some lineFeed)) :
    firstLine (u :: rest) = u :: firstLine rest := by
  rw [firstLine, lines_cons hfeed hreturn]
  rfl

/-- How the first line of a text may end: with the text, with a line feed, or with a carriage return
and a line feed. -/
inductive LineEnds (line : List CodeUnit) : List CodeUnit → Prop where
  | atText : LineEnds line line
  | atFeed (rest : List CodeUnit) (last : line.getLast? ≠ some carriageReturn) :
      LineEnds line (line ++ lineFeed :: rest)
  | atPair (rest : List CodeUnit) : LineEnds line (line ++ carriageReturn :: lineFeed :: rest)

/-- A unit that ends no line does not change how the first line ends. -/
theorem LineEnds.cons {u : CodeUnit} {line us : List CodeUnit} (h : LineEnds line us)
    (hreturn : ¬(u = carriageReturn ∧ us.head? = some lineFeed)) :
    LineEnds (u :: line) (u :: us) := by
  cases h with
  | atText => exact .atText
  | atFeed rest last =>
    refine .atFeed rest ?_
    cases line with
    | nil => simpa using hreturn
    | cons v more => simpa using last
  | atPair rest => exact .atPair rest

/-- The first line of a text ends in one of the ways in which a line can, and holds no line feed. -/
theorem firstLine_ends (us : List CodeUnit) :
    LineEnds (firstLine us) us ∧ lineFeed ∉ firstLine us := by
  induction us with
  | nil => exact ⟨.atText, by simp [firstLine, lines]⟩
  | cons u rest ih =>
    by_cases hfeed : u = lineFeed
    · subst hfeed
      rw [firstLine_lineFeed]
      exact ⟨.atFeed rest (by simp), by simp⟩
    by_cases hreturn : u = carriageReturn ∧ rest.head? = some lineFeed
    · obtain ⟨rfl, hhead⟩ := hreturn
      obtain ⟨more, rfl⟩ := List.head?_eq_some_iff.1 hhead
      rw [firstLine_lineEnding]
      exact ⟨.atPair more, by simp⟩
    · rw [firstLine_cons hfeed hreturn]
      refine ⟨ih.1.cons hreturn, ?_⟩
      rw [List.mem_cons, not_or]
      exact ⟨Ne.symm hfeed, ih.2⟩

/-! ## The line of an offset -/

/-- Where a line begins, what `lines` holds under the number of line feeds before is the first line
of the rest. -/
theorem lines_append {head : List CodeUnit} (hhead : EndsLine head) (us : List CodeUnit) :
    (lines (head ++ us))[head.count lineFeed]? = some (firstLine us) := by
  induction head with
  | nil => rw [List.nil_append, List.count_nil, ← List.head?_eq_getElem?, lines_head?]
  | cons u rest ih =>
    have hlast : (u :: rest).getLast? = some lineFeed := hhead.resolve_left (by simp)
    have hrest : EndsLine rest := by
      cases rest with
      | nil => exact .inl rfl
      | cons v more => exact .inr (by simpa using hlast)
    by_cases hfeed : u = lineFeed
    · subst hfeed
      rw [List.cons_append, lines, if_pos rfl, List.count_cons_self, List.getElem?_cons_succ]
      exact ih hrest
    rw [List.count_cons_of_ne hfeed]
    -- What is left of the head is not empty and holds the line feed at its end.
    have hmem : lineFeed ∈ rest := by
      have hmem := List.mem_of_getLast? hlast
      exact (List.mem_cons.1 hmem).resolve_left (Ne.symm hfeed)
    by_cases hreturn : u = carriageReturn ∧ (rest ++ us).head? = some lineFeed
    · rw [List.cons_append, lines, if_neg hfeed, if_pos hreturn]
      exact ih hrest
    · have hcount : 0 < rest.count lineFeed := List.count_pos_iff.2 hmem
      rw [List.cons_append, lines_cons hfeed hreturn]
      rw [← ih hrest]
      obtain ⟨n, hn⟩ := Nat.exists_eq_add_of_lt hcount
      rw [hn, Nat.zero_add, List.getElem?_cons_succ, List.getElem?_tail]

/-- The line of an offset is the first line of what stands from its beginning on. -/
theorem lineText_eq (text : List CodeUnit) (offset : Nat) :
    lineText text ((text.take offset).count lineFeed : Nat) =
      firstLine (text.drop (lineStart text offset)) := by
  obtain ⟨head, tail, hsplit, hhead, htail, hstart⟩ := exists_lastLine (text.take offset)
  have hcount : (text.take offset).count lineFeed = head.count lineFeed := by
    rw [hsplit, List.count_append, List.count_eq_zero.2 htail, Nat.add_zero]
  have htext : text = head ++ (tail ++ text.drop offset) := by
    rw [← List.append_assoc, ← hsplit, List.take_append_drop]
  have hdrop : text.drop (lineStart text offset) = tail ++ text.drop offset := by
    rw [lineStart, hstart]
    exact (congrArg (List.drop head.length) htext).trans List.drop_left
  have hline := lines_append hhead (tail ++ text.drop offset)
  rw [← htext] at hline
  rw [hdrop, hcount]
  show (lines text)[head.count lineFeed]?.getD [] = _
  rw [hline]
  rfl

/-! ## Offsets on one line -/

/-- The line of an offset begins no later than there. -/
theorem lineStart_le (text : List CodeUnit) (offset : Nat) : lineStart text offset ≤ offset := by
  unfold lineStart lastLineStart
  rw [List.length_take]
  omega

/-- No line feed is taken as long as one does not go beyond the first one. -/
theorem not_mem_take_iff {before : List CodeUnit} (h : lineFeed ∉ before) (rest : List CodeUnit)
    (n : Nat) : lineFeed ∉ (before ++ lineFeed :: rest).take n ↔ n ≤ before.length := by
  rw [List.take_append, List.mem_append, not_or]
  constructor
  · rintro ⟨-, hrest⟩
    by_contra hlt
    obtain ⟨m, hm⟩ := Nat.exists_eq_add_of_lt (Nat.lt_of_not_le hlt)
    rw [show n - before.length = m + 1 by omega, List.take_succ_cons] at hrest
    exact hrest List.mem_cons_self
  · intro hle
    refine ⟨fun hmem => h (List.mem_of_mem_take hmem), ?_⟩
    rw [Nat.sub_eq_zero_of_le hle, List.take_zero]
    exact List.not_mem_nil

/-- Up to the next line feed an offset is at most one past the columns of the line, and it is that
exactly if it stands between a carriage return and the line feed. -/
theorem LineEnds.reach {line us : List CodeUnit} (h : LineEnds line us) (hfeed : lineFeed ∉ line)
    {n : Nat} (hn : lineFeed ∉ us.take n) : min n us.length ≤ line.length + 1 ∧
      (min n us.length = line.length + 1 ↔
        0 < n ∧ us[n - 1]? = some carriageReturn ∧ us[n]? = some lineFeed) := by
  have hne : carriageReturn ≠ lineFeed := by decide
  cases h with
  | atText =>
    refine ⟨by omega, by omega, ?_⟩
    rintro ⟨-, -, hget⟩
    exact absurd (List.mem_of_getElem? hget) hfeed
  | atFeed rest last =>
    have hle := (not_mem_take_iff hfeed rest n).1 hn
    refine ⟨by omega, by omega, ?_⟩
    rintro ⟨hpos, hreturn, hget⟩
    rcases Nat.lt_or_eq_of_le hle with hlt | rfl
    · rw [List.getElem?_append_left hlt] at hget
      exact absurd (List.mem_of_getElem? hget) hfeed
    · rw [List.getElem?_append_left (by omega), ← List.getLast?_eq_getElem?] at hreturn
      exact absurd hreturn last
  | atPair rest =>
    have hbefore : lineFeed ∉ line ++ [carriageReturn] := by
      simpa [hfeed] using Ne.symm hne
    have hsplit : line ++ carriageReturn :: lineFeed :: rest =
        (line ++ [carriageReturn]) ++ lineFeed :: rest := by simp
    have hle : n ≤ line.length + 1 := by
      rw [hsplit] at hn
      simpa using (not_mem_take_iff hbefore rest n).1 hn
    refine ⟨by omega, ?_, ?_⟩
    · intro heq
      have hn : n = line.length + 1 := by omega
      subst hn
      refine ⟨by omega, ?_, ?_⟩
      · simp
      · simp
    · rintro ⟨-, -, hget⟩
      have hlength : line.length + 2 ≤ (line ++ carriageReturn :: lineFeed :: rest).length := by
        simp
      rcases Nat.lt_or_ge n line.length with hlt | hge
      · rw [List.getElem?_append_left hlt] at hget
        exact absurd (List.mem_of_getElem? hget) hfeed
      rcases Nat.eq_or_lt_of_le hge with rfl | hlt
      · simp [hne] at hget
      · omega

/-- A text with a line feed near its front goes further than its first line. -/
theorem LineEnds.length_lt {line us : List CodeUnit} (h : LineEnds line us)
    (hfeed : lineFeed ∉ line) {n : Nat} (hn : lineFeed ∈ us.take n) : line.length < n := by
  by_contra hle
  have htake : us.take n = line.take n := by
    cases h with
    | atText => rfl
    | atFeed rest last => exact List.take_append_of_le_length (by omega)
    | atPair rest => exact List.take_append_of_le_length (by omega)
  rw [htake] at hn
  exact hfeed (List.mem_of_mem_take hn)

/-- The first line of a text is no longer than the text. -/
theorem LineEnds.length_le {line us : List CodeUnit} (h : LineEnds line us) :
    line.length ≤ us.length := by
  cases h with
  | atText => exact Nat.le_refl _
  | atFeed rest last => simp
  | atPair rest => simp

/-- What stands before an offset is what stands before an earlier one and what is between them. -/
theorem take_eq_append (text : List CodeUnit) {start stop : Nat} (h : start ≤ stop) :
    text.take stop = text.take start ++ (text.take stop).drop start := by
  have htake := (List.take_append_drop start (text.take stop)).symm
  rwa [List.take_take, Nat.min_eq_left h] at htake

/-- A later offset is on the same line if no line feed stands between the beginning of the line and
it. -/
theorem count_take_eq_iff {text : List CodeUnit} {start stop : Nat} (h : start ≤ stop) :
    (text.take stop).count lineFeed = (text.take start).count lineFeed ↔
      lineFeed ∉ (text.drop (lineStart text start)).take (stop - lineStart text start) := by
  obtain ⟨head, tail, hsplit, -, htail, hstart⟩ := exists_lastLine (text.take start)
  have hmore := take_eq_append text h
  have hline : (text.drop (lineStart text start)).take (stop - lineStart text start) =
      tail ++ (text.take stop).drop start := by
    rw [← List.drop_take, lineStart, hstart]
    refine (congrArg (List.drop head.length) hmore).trans ?_
    rw [hsplit, List.append_assoc, List.drop_left]
  rw [hline, List.mem_append, or_iff_right htail]
  refine (congrArg (fun us => us.count lineFeed = _) hmore).to_iff.trans ?_
  rw [List.count_append, ← List.count_eq_zero]
  omega

/-- Between two offsets with the same number of line feeds before them no line begins. -/
theorem lineStart_eq_of_count {text : List CodeUnit} {start stop : Nat} (h : start ≤ stop)
    (hcount : (text.take stop).count lineFeed = (text.take start).count lineFeed) :
    lineStart text stop = lineStart text start := by
  obtain ⟨head, tail, hsplit, hhead, htail, hstart⟩ := exists_lastLine (text.take start)
  have hmore := take_eq_append text h
  have hfree : lineFeed ∉ (text.take stop).drop start := by
    rw [hmore, List.count_append] at hcount
    exact List.count_eq_zero.1 (by omega)
  rw [lineStart, lineStart, hstart, hmore, hsplit, List.append_assoc]
  refine lastLineStart_append hhead ?_
  rw [List.mem_append, not_or]
  exact ⟨htail, hfree⟩

end TreeInspector.Text
