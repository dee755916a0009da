import TreeInspector.Document.Lexeme

/-!
# Where lexemes stand

The lexemes of a text follow one another without a gap, each takes at least one unit, and each ends
inside the text, with one exception: a block comment that the text does not close passes its last
unit unseen, so one that has no unit left to pass reaches one past the text. The end of the text is
then a lexeme of length one.
-/

set_option autoImplicit false

namespace TreeInspector.Document

open Text (unit isDigit hexValue? lineFeed carriageReturn)

/-! ## Lengths of what is read -/

/-- A run of units is no longer than the text. -/
theorem runLength_le (test : CodeUnit → Bool) (us : List CodeUnit) :
    runLength test us ≤ us.length :=
  (List.takeWhile_prefix test).length_le

/-- What is read of a string only grows, and by no more units than there are. -/
theorem readString_length (skip : Nat) (r : StringReader) (us : List CodeUnit) :
    r.length ≤ (readString skip r us).length ∧
      (readString skip r us).length ≤ r.length + us.length := by
  fun_induction readString skip r us <;>
    simp_all only [StringReader.pass, StringReader.add, StringReader.blame, List.length_cons] <;>
    omega

/-- A fraction is no longer than the text. -/
theorem readFraction_le (us : List CodeUnit) : (readFraction us).1 ≤ us.length := by
  cases us with
  | nil => simp [readFraction]
  | cons u rest =>
    have hdigits := runLength_le isDigit rest
    simp only [readFraction, List.length_cons]
    split <;> simp only <;> omega

/-- An exponent is no longer than the text. -/
theorem readExponent_le (us : List CodeUnit) : (readExponent us).1 ≤ us.length := by
  cases us with
  | nil => simp [readExponent]
  | cons u rest =>
    simp only [readExponent]
    split
    · split
      next hsign =>
        -- A sign is a unit of its own, so the digits come from what follows it.
        have hdigits := runLength_le isDigit (rest.drop 1)
        have hrest : rest ≠ [] := by
          rintro rfl
          simp at hsign
        have hpos := List.length_pos_iff.2 hrest
        simp only [List.length_drop, List.length_cons] at hdigits ⊢
        omega
      next =>
        have hdigits := runLength_le isDigit (rest.drop 0)
        simp only [List.length_drop, List.length_cons] at hdigits ⊢
        omega
    · simp

/-- What a lexeme that is no comment takes from the front of a text: at least one unit, and no more
than there are. -/
structure Scanned.Takes (s : Scanned) (us : List CodeUnit) : Prop where
  pos : 0 < s.length
  le : s.length ≤ us.length
  ne_comment : s.kind ≠ .comment
  ne_endOfText : s.kind ≠ .endOfText

/-- A number takes at least the digit it starts with. -/
theorem readNumber_takes {u : CodeUnit} (h : isDigit u = true) (rest : List CodeUnit) :
    (readNumber (u :: rest)).Takes (u :: rest) := by
  generalize hwhole : (if (u :: rest).head? = some (unit '0') then 1
    else runLength isDigit (u :: rest)) = whole
  have hpos : 0 < whole := by
    rw [← hwhole]
    split
    · simp
    · simp [runLength, h]
  have hle : whole ≤ (u :: rest).length := by
    rw [← hwhole]
    split
    · simp
    · exact runLength_le _ _
  have hfraction := readFraction_le ((u :: rest).drop whole)
  have hexponent := readExponent_le
    ((u :: rest).drop (whole + (readFraction ((u :: rest).drop whole)).1))
  rw [List.length_drop] at hfraction hexponent
  simp only [readNumber, hwhole]
  split
  · exact ⟨by simp only; omega, by simp only; omega, by simp, by simp⟩
  · exact ⟨by simp only; omega, by simp only; omega, by simp, by simp⟩

/-- A word takes at least its first unit. -/
theorem readWord_takes (u : CodeUnit) (rest : List CodeUnit) :
    (readWord (u :: rest)).Takes (u :: rest) := by
  have hword : ((u :: rest).takeWhile isWordUnit).length ≤ rest.length + 1 :=
    runLength_le isWordUnit (u :: rest)
  refine ⟨?_, ?_, ?_, ?_⟩
  · exact Nat.le_max_left 1 _
  · exact Nat.max_le.2 ⟨by simp, hword⟩
  · simp only [readWord]
    repeat' split
    all_goals simp
  · simp only [readWord]
    repeat' split
    all_goals simp

/-! ## Comments that reach past the text -/

/-- Nothing is left of an unclosed comment when its last unit is to be passed: it is empty after its
opening, or its last two units are a line ending, which is passed as a whole. -/
def EndsUnseen (body : List CodeUnit) : Prop :=
  body = [] ∨ [carriageReturn, lineFeed] <:+ body

/-- Whether nothing is left of a comment does not depend on a first unit that starts no line ending.
-/
theorem endsUnseen_cons_cons {u v : CodeUnit} {rest : List CodeUnit}
    (h : ¬(u = carriageReturn ∧ v = lineFeed)) :
    EndsUnseen (u :: v :: rest) ↔ EndsUnseen (v :: rest) := by
  simp only [EndsUnseen, List.suffix_cons_iff (a := u), reduceCtorEq, false_or]
  refine or_iff_right ?_
  rintro heq
  simp only [List.cons.injEq] at heq
  exact h ⟨heq.1.symm, heq.2.1.symm⟩

/-- A line ending is passed as a whole, so whether nothing is left depends on what follows it. -/
theorem endsUnseen_lineEnding (rest : List CodeUnit) :
    EndsUnseen (carriageReturn :: lineFeed :: rest) ↔ EndsUnseen rest := by
  have hne : (carriageReturn : CodeUnit) ≠ lineFeed := by decide
  cases rest with
  | nil => simp [EndsUnseen]
  | cons w rest =>
    simp [EndsUnseen, List.suffix_cons_iff, hne]

/-- A block comment reaches at most one unit past the text, and does so iff it is unclosed and
nothing is left of it for its last step. -/
theorem readBlockComment_overrun (us : List CodeUnit) :
    (readBlockComment us).1 ≤ us.length + 1 ∧
      (us.length < (readBlockComment us).1 ↔
        (readBlockComment us).2 = false ∧ EndsUnseen us) := by
  fun_induction readBlockComment us with
  | case1 => simp [EndsUnseen]
  | case2 u => simp [EndsUnseen, List.suffix_cons_iff]
  | case3 u v rest h => simp
  | case4 u v rest hclose h n closed heq ih =>
    obtain ⟨rfl, rfl⟩ := h
    rw [heq] at ih
    rw [endsUnseen_lineEnding, ← ih.2]
    simp only [List.length_cons]
    omega
  | case5 u v rest hclose h n closed heq ih =>
    rw [heq] at ih
    rw [endsUnseen_cons_cons h, ← ih.2]
    simp only [List.length_cons] at ih ⊢
    omega

/-- The lexeme is a comment that the text does not close, and nothing is left of it when its last
unit is to be passed. -/
def Lexeme.Overruns (text : List CodeUnit) (l : Lexeme) : Prop :=
  l.kind = .comment ∧ l.fault = some .unclosedComment ∧ EndsUnseen (text.drop (l.offset + 2))

/-- A comment that starts at the front of a text after its first slash. -/
structure Scanned.Comments (s : Scanned) (rest : List CodeUnit) : Prop where
  pos : 0 < s.length
  kind : s.kind = .comment
  le : s.length ≤ rest.length + 2
  overrun : rest.length + 1 < s.length ↔
    s.fault = some .unclosedComment ∧ EndsUnseen (rest.drop 1)

/-- A slash is either a lexeme by itself or starts a comment. -/
theorem readSlash_cases (u : CodeUnit) (rest : List CodeUnit) :
    (readSlash rest).Takes (u :: rest) ∨ (readSlash rest).Comments rest := by
  have hslash : ({ kind := .unknown, length := 1 } : Scanned).Takes (u :: rest) :=
    ⟨by simp, by simp, by simp, by simp⟩
  cases rest with
  | nil => exact .inl hslash
  | cons v more =>
    simp only [readSlash]
    split
    · have hline := runLength_le (fun w => !isLineBreak w) more
      refine .inr ⟨?_, rfl, ?_, ?_⟩ <;> simp <;> omega
    · split
      · obtain ⟨hle, hover⟩ := readBlockComment_overrun more
        refine .inr ⟨?_, rfl, ?_, ?_⟩
        · simp only
          omega
        · simp only [List.length_cons]
          omega
        · have hfault : (if (readBlockComment more).2 = true then none
              else some ScanFault.unclosedComment) = some .unclosedComment ↔
              (readBlockComment more).2 = false := by
            cases (readBlockComment more).2 <;> simp
          simp only [hfault, List.drop_succ_cons, List.drop_zero, ← hover, List.length_cons]
          omega
      · exact .inl hslash

/-- A lexeme of one unit takes the first unit of the text. -/
theorem takes_one (kind : LexemeKind) (hcomment : kind ≠ .comment) (hend : kind ≠ .endOfText)
    (u : CodeUnit) (rest : List CodeUnit) :
    ({ kind := kind, length := 1 } : Scanned).Takes (u :: rest) :=
  ⟨by simp, by simp, hcomment, hend⟩

/-- A lexeme stays inside the text unless it is a comment. -/
theorem scan_cases (u : CodeUnit) (rest : List CodeUnit) :
    (scan u rest).Takes (u :: rest) ∨ (scan u rest).Comments rest := by
  -- A test for a mark of one unit leaves the lexemes that start with another unit.
  have hmark : ∀ (c : Prop) [Decidable c] (kind : LexemeKind) (s : Scanned),
      kind ≠ .comment ∧ kind ≠ .endOfText → s.Takes (u :: rest) ∨ s.Comments rest →
      (if c then { kind := kind, length := 1 } else s).Takes (u :: rest) ∨
        (if c then { kind := kind, length := 1 } else s).Comments rest := by
    intro c _ kind s hkind hs
    split
    · exact .inl (takes_one kind hkind.1 hkind.2 u rest)
    · exact hs
  unfold scan
  by_cases hspace : isSpace u = true
  · have hspaces := runLength_le isSpace rest
    rw [if_pos hspace]
    exact .inl ⟨by simp only; omega, by simp only [List.length_cons]; omega, by simp, by simp⟩
  rw [if_neg hspace]
  by_cases hbreak : isLineBreak u = true
  · rw [if_pos hbreak]
    refine .inl ⟨?_, ?_, by simp, by simp⟩
    · simp only
      split <;> simp
    · cases rest <;> simp
      split <;> omega
  rw [if_neg hbreak]
  iterate 6 refine hmark _ _ _ (by decide) ?_
  by_cases hquote : u = unit '"'
  · have hstring := readString_length 0 { length := 1 } rest
    rw [if_pos hquote]
    simp only at hstring
    exact .inl ⟨by simp only; omega, by simp only [List.length_cons]; omega, by simp, by simp⟩
  rw [if_neg hquote]
  by_cases hslash : u = unit '/'
  · rw [if_pos hslash]
    exact readSlash_cases u rest
  rw [if_neg hslash]
  left
  by_cases hminus : u = unit '-'
  · rw [if_pos hminus]
    cases rest with
    | nil => exact takes_one _ (by simp) (by simp) _ _
    | cons v more =>
      by_cases hdigit : isDigit v = true
      · obtain ⟨hpos, hle, hcomment, hend⟩ := readNumber_takes hdigit more
        rw [if_pos (by simpa using hdigit)]
        exact ⟨by simp only; omega, by simpa using hle, hcomment, hend⟩
      · rw [if_neg (by simpa using hdigit)]
        exact takes_one _ (by simp) (by simp) _ _
  rw [if_neg hminus]
  by_cases hdigit : isDigit u = true
  · rw [if_pos hdigit]
    exact readNumber_takes hdigit rest
  · rw [if_neg hdigit]
    exact readWord_takes u rest

/-! ## Lexemes in a row -/

/-- The lexemes stand one after the other from the given offset on, up to the end of a text of the
given length, which the last of them may overrun. -/
inductive Lexeme.InRow (length overrun : Nat) : Nat → List Lexeme → Prop where
  | ended : InRow length overrun (length + overrun)
      [{ kind := .endOfText, length := overrun, offset := length }]
  | next {l : Lexeme} {ls : List Lexeme} (pos : 0 < l.length) (ne_endOfText : l.kind ≠ .endOfText)
      (fits : l.stop ≤ length ∨ l.kind = .comment ∧ l.stop ≤ length + 1)
      (rest : InRow length overrun l.stop ls) : InRow length overrun l.offset (l :: ls)

/-- The lexemes of a text stand in a row from its start to its end. -/
theorem lexemesFrom_inRow (skip offset : Nat) (us : List CodeUnit) :
    ∃ overrun, Lexeme.InRow (offset + us.length) overrun (offset + skip)
      (lexemesFrom skip offset us) := by
  fun_induction lexemesFrom skip offset us with
  | case1 skip offset => exact ⟨skip, .ended⟩
  | case2 skip offset u rest ih =>
    have hlength : offset + (u :: rest).length = offset + 1 + rest.length := by
      simp only [List.length_cons]
      omega
    have hskip : offset + (skip + 1) = offset + 1 + skip := by omega
    rwa [hlength, hskip]
  | case3 offset u rest found ih =>
    obtain ⟨overrun, hrow⟩ := ih
    have hlength : offset + (u :: rest).length = offset + 1 + rest.length := by
      simp only [List.length_cons]
      omega
    have hscan : found.Takes (u :: rest) ∨ found.Comments rest := scan_cases u rest
    have hpos : 0 < found.length := hscan.elim (·.pos) (·.pos)
    have hstop : offset + 1 + (found.length - 1) = offset + found.length := by omega
    rw [hstop] at hrow
    rw [hlength, Nat.add_zero]
    refine ⟨overrun, .next (l := ⟨found, offset⟩) hpos ?_ ?_ hrow⟩
    · rcases hscan with htakes | hcomments
      · exact htakes.ne_endOfText
      · simp [hcomments.kind]
    · rcases hscan with htakes | hcomments
      · have hle := htakes.le
        simp only [Lexeme.stop, List.length_cons] at hle ⊢
        omega
      · have hle := hcomments.le
        refine .inr ⟨hcomments.kind, ?_⟩
        simp only [Lexeme.stop]
        omega

/-- Each lexeme but the end of the text is what is scanned at its offset. -/
theorem mem_lexemesFrom {skip offset : Nat} {us : List CodeUnit} {l : Lexeme}
    (h : l ∈ lexemesFrom skip offset us) (hend : l.kind ≠ .endOfText) :
    ∃ i u rest, us.drop i = u :: rest ∧ l = { scan u rest with offset := offset + i } := by
  fun_induction lexemesFrom skip offset us with
  | case1 skip offset =>
    rw [List.mem_singleton] at h
    simp [h] at hend
  | case2 skip offset u rest ih =>
    obtain ⟨i, v, more, hdrop, hl⟩ := ih h
    refine ⟨i + 1, v, more, hdrop, ?_⟩
    rw [hl, Nat.add_assoc, Nat.add_comm 1 i]
  | case3 offset u rest found ih =>
    rw [List.mem_cons] at h
    rcases h with rfl | h
    · exact ⟨0, u, rest, rfl, rfl⟩
    · obtain ⟨i, v, more, hdrop, hl⟩ := ih h
      refine ⟨i + 1, v, more, hdrop, ?_⟩
      rw [hl, Nat.add_assoc, Nat.add_comm 1 i]

/-- A lexeme ends past the text iff it is an unclosed comment of which nothing is left for the last
step. -/
theorem Lexeme.overruns_iff {text : List CodeUnit} {l : Lexeme} (h : l ∈ Lexeme.ofText text)
    (hend : l.kind ≠ .endOfText) : l.Overruns text ↔ text.length < l.stop := by
  obtain ⟨i, u, rest, hdrop, rfl⟩ := mem_lexemesFrom h hend
  have hlength : text.length = i + (rest.length + 1) := by
    have := congrArg List.length hdrop
    simp only [List.length_drop, List.length_cons] at this
    omega
  have hbody : text.drop (i + 2) = rest.drop 1 := by
    rw [← List.drop_drop, hdrop, List.drop_succ_cons]
  simp only [Overruns, Lexeme.stop, Nat.zero_add, hbody, hlength]
  rcases scan_cases u rest with htakes | hcomments
  · have hle := htakes.le
    simp only [htakes.ne_comment, false_and, false_iff, List.length_cons] at hle ⊢
    omega
  · simp only [hcomments.kind, true_and, ← hcomments.overrun]
    omega

namespace Lexeme.InRow

variable {length overrun offset : Nat} {ls : List Lexeme}

/-- A text is overrun by one unit at most. -/
theorem overrun_le (h : InRow length overrun offset ls) (hoffset : offset ≤ length + 1) :
    overrun ≤ 1 := by
  induction h with
  | ended => omega
  | @next l ls pos ne_endOfText fits rest ih => exact ih (by omega)

/-- A text is overrun iff one of its lexemes ends past it. -/
theorem overrun_pos_iff (h : InRow length overrun offset ls) :
    0 < overrun ↔ length < offset ∨ ∃ l ∈ ls, l.kind ≠ .endOfText ∧ length < l.stop := by
  induction h with
  | ended => simp
  | @next l ls pos ne_endOfText fits rest ih =>
    have hstop : length < l.offset → length < l.stop := by
      simp only [Lexeme.stop]
      omega
    rw [ih]
    simp only [List.mem_cons, exists_eq_or_imp, ne_endOfText, ne_eq, not_false_eq_true, true_and]
    exact (or_iff_right_of_imp fun h => .inl (hstop h)).symm

end Lexeme.InRow

/-- The lexemes of a text stand in a row from its start to its end, which is overrun by one unit if
a comment overruns it. -/
theorem Lexeme.ofText_inRow (text : List CodeUnit) :
    ∃ overrun, Lexeme.InRow text.length overrun 0 (Lexeme.ofText text) ∧ overrun ≤ 1 ∧
      (0 < overrun ↔ ∃ l ∈ Lexeme.ofText text, l.Overruns text) := by
  obtain ⟨overrun, hrow⟩ := lexemesFrom_inRow 0 0 text
  rw [Nat.zero_add, Nat.add_zero] at hrow
  refine ⟨overrun, hrow, hrow.overrun_le (Nat.zero_le _), ?_⟩
  rw [hrow.overrun_pos_iff]
  constructor
  · rintro (hlt | ⟨l, hmem, hend, hstop⟩)
    · exact absurd hlt (Nat.not_lt_zero _)
    · exact ⟨l, hmem, (overruns_iff hmem hend).2 hstop⟩
  · rintro ⟨l, hmem, hover⟩
    have hend : l.kind ≠ .endOfText := by simp [hover.1]
    exact .inr ⟨l, hmem, hend, (overruns_iff hmem hend).1 hover⟩

end TreeInspector.Document
