import Mathlib.Data.Set.Function
import Mathlib.Order.Interval.Set.Defs
import TreeInspector.Proofs.Text.Positions

/-!
# Positions keep the order of offsets

A position counts the line feeds before an offset and the units between the last of them and the
offset. Offsets outside the text are first moved to its nearer end. Within the text no two offsets
share a position, and the position of an earlier offset comes first: on an earlier line, or on the
same line in an earlier column. A line feed still belongs to the line it ends, so it has the last
column there, and the offset behind it has the first column of the next line.
-/

set_option autoImplicit false

namespace TreeInspector

/-- One position comes before another: its line does, or it has an earlier column on that line. -/
def Position.Before (p q : Position) : Prop :=
  p.line < q.line ∨ p.line = q.line ∧ p.character < q.character

namespace Text

/-! ## Where the line of an offset begins -/

/-- The line of an offset begins at `start`: that is the front of the text or right behind a line
feed, and no further line feed stands before the offset. -/
structure LineBegins (text : List CodeUnit) (offset start : Nat) : Prop where
  le : start ≤ offset
  behind_feed : start = 0 ∨ ∃ last, start = last + 1 ∧ text[last]? = some lineFeed
  unbroken : ∀ i, start ≤ i → i < offset → text[i]? ≠ some lineFeed

/-- The line of an offset begins at the front of the text or right behind a line feed, the last one
before the offset. -/
theorem lineStart_begins {text : List CodeUnit} {offset : Nat} (h : offset ≤ text.length) :
    LineBegins text offset (lineStart text offset) := by
  obtain ⟨head, tail, hsplit, hhead, htail, hstart⟩ := exists_lastLine (text.take offset)
  have hlength : head.length + tail.length = offset := by
    rw [← List.length_append, ← hsplit, List.length_take]
    omega
  have htake : ∀ i, i < offset → text[i]? = (head ++ tail)[i]? := by
    intro i hi
    rw [← hsplit, List.getElem?_take_of_lt hi]
  rw [lineStart, hstart]
  constructor
  · omega
  · rcases hhead with rfl | hlast
    · left
      rfl
    · right
      have hpos : 0 < head.length := by
        apply List.length_pos_of_mem
        exact List.mem_of_getLast? hlast
      refine ⟨head.length - 1, by omega, ?_⟩
      rw [htake _ (by omega), List.getElem?_append_left (by omega), ← List.getLast?_eq_getElem?]
      exact hlast
  · intro i hle hlt hfeed
    rw [htake i hlt, List.getElem?_append_right hle] at hfeed
    apply htail
    exact List.mem_of_getElem? hfeed

/-! ## Positions of integers -/

/-- An integer that is moved into a text becomes one of its offsets. -/
theorem clamp_intCast (z : Int) (n : Nat) :
    Number.max 0 (Number.min (.finite z) n) = ((min z n).toNat : Nat) := by
  by_cases hz : 0 ≤ z
  · obtain ⟨k, rfl⟩ := Int.eq_ofNat_of_zero_le hz
    have hmin : (min (k : Int) n).toNat = min k n := by omega
    show Number.max 0 (Number.min (k : Number) n) = _
    rw [Number.min_natCast, Number.zero_max_natCast, hmin]
  · have hbelow : Number.finite z < (n : Number) := by
      show Number.finite z < .finite ((n : Int) : Rat)
      rw [Number.finite_lt_finite, Rat.intCast_lt_intCast]
      omega
    have hnegative : ¬Number.finite ((0 : Int) : Rat) < .finite z := by
      rw [Number.finite_lt_finite, Rat.intCast_lt_intCast]
      omega
    have hmin : Number.min (.finite z) n = .finite z := if_pos hbelow
    have hzero : (min z n).toNat = 0 := by omega
    rw [hmin, hzero]
    exact if_neg hnegative

/-- The position of an integer is that of the offset it is moved to. -/
theorem positionOf_intCast (text : List CodeUnit) (offset : Int) :
    positionOf text (.finite offset) = positionOf text ((min offset text.length).toNat : Nat) := by
  have hinside : min (min offset text.length).toNat text.length =
      (min offset text.length).toNat := by omega
  unfold positionOf
  rw [clamp_intCast, Number.min_natCast, Number.zero_max_natCast, hinside]

/-! ## The order of offsets -/

/-- A later offset has a later position. -/
theorem positionOf_before {text : List CodeUnit} {first second : Nat} (hlt : first < second)
    (hsecond : second ≤ text.length) :
    (positionOf text first).Before (positionOf text second) := by
  rw [positionOf_natCast, positionOf_natCast]
  rcases line_of_le text (Nat.le_of_lt hlt) with hline | ⟨hline, hstart⟩
  · left
    exact hline
  · -- Both columns are counted from one beginning.
    have hle := lineStart_le text first
    right
    refine ⟨hline, ?_⟩
    simp only [columnAt, Number.natCast_lt_natCast]
    omega

/-- Different offsets of a text have different positions. -/
theorem positionOf_ne {text : List CodeUnit} {first second : Nat} (hlt : first < second)
    (hsecond : second ≤ text.length) : positionOf text first ≠ positionOf text second := by
  intro heq
  have hbefore := positionOf_before hlt hsecond
  rw [heq, positionOf_natCast] at hbefore
  simp [Position.Before] at hbefore

/-- An offset of a text can be told from its position. -/
theorem positionOf_injOn (text : List CodeUnit) :
    Set.InjOn (fun offset : Nat => positionOf text offset) (Set.Iic text.length) := by
  intro first hfirst second hsecond heq
  by_contra hne
  rcases Nat.lt_or_gt_of_ne hne with hlt | hgt
  · apply positionOf_ne hlt hsecond
    exact heq
  · apply positionOf_ne hgt hfirst
    exact heq.symm

/-- Positions encode offsets in order. The position of an integer counts the line feeds before the
offset to which it is moved, and its column leads back to where the line of that offset begins.
Offsets of the text have different positions, and later ones have later positions. -/
theorem positionOf_encodes_offsets (text : List CodeUnit) :
    (∀ offset : Int, ∃ reached start column : Nat,
      (reached : Int) = max 0 (min offset text.length) ∧
      positionOf text (.finite offset) =
        ⟨(text.take reached).count lineFeed, (column : Number)⟩ ∧
      start + column = reached ∧ LineBegins text reached start) ∧
    Set.InjOn (fun offset : Nat => positionOf text offset) (Set.Iic text.length) ∧
    ∀ first second : Nat, first < second → second ≤ text.length →
      (positionOf text first).Before (positionOf text second) := by
  refine ⟨?_, positionOf_injOn text, fun _ _ => positionOf_before⟩
  intro offset
  have hreached : (min offset text.length).toNat ≤ text.length := by omega
  have hbegins := lineStart_begins hreached
  refine ⟨(min offset text.length).toNat, lineStart text (min offset text.length).toNat,
    columnAt text (min offset text.length).toNat, by omega, ?_, ?_, hbegins⟩
  · rw [positionOf_intCast, positionOf_natCast]
  · have hle := hbegins.le
    unfold columnAt
    omega

/-- In a text of two lines the line feed and the unit behind it are told apart, and an integer
beyond the text is moved back to its end, which is on the second line. -/
theorem twoLines_positions :
    let text : List CodeUnit := [unit 'a', carriageReturn, lineFeed, unit 'b']
    (positionOf text (2 : Nat)).Before (positionOf text (3 : Nat)) ∧
      positionOf text (2 : Nat) ≠ positionOf text (3 : Nat) ∧
      (positionOf text (.finite (9 : Int))).line = 1 := by
  intro text
  obtain ⟨hplace, hinj, hbefore⟩ := positionOf_encodes_offsets text
  refine ⟨hbefore 2 3 (by decide) (by decide), ?_, ?_⟩
  · intro heq
    have hsame := hinj (show 2 ≤ text.length by decide) (show 3 ≤ text.length by decide) heq
    omega
  · obtain ⟨reached, start, column, hreached, hposition, -, -⟩ := hplace 9
    have hlength : text.length = 4 := rfl
    obtain rfl : reached = 4 := by omega
    rw [hposition]
    rfl

end Text

end TreeInspector
