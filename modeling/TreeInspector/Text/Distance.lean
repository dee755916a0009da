/-!
# Distance of two words

The optimal string alignment distance: the least number of insertions, deletions, replacements and
swaps of neighbours that turn one word into another, no part of the word being edited twice.
-/

set_option autoImplicit false

namespace TreeInspector.Text

section

variable {α : Type} [DecidableEq α]

/-- Up to two finished rows of the distance table, the latest first, each with the letter of `b`
that it ends in. -/
abbrev Rows (α : Type) := List (Option α × Array Nat)

/-- The next cell of the row of letter `y`, after the cells `row`, for the letter `a[i]`. -/
def nextCell (a : Array α) (rows : Rows α) (y : α) (row : Array Nat) (i : Nat) : Array Nat :=
  let previous := (rows.head?.map (·.2)).getD #[]
  let same := a[i]? = some y
  let plain := Nat.min (row.getD i 0 + 1)
    (Nat.min (previous.getD (i + 1) 0 + 1) (previous.getD i 0 + if same then 0 else 1))
  let cell :=
    match rows with
    | (some y', _) :: (_, twoBack) :: _ =>
      if 0 < i ∧ a[i]? = some y' ∧ a[i - 1]? = some y then
        Nat.min plain (twoBack.getD (i - 1) 0 + 1)
      else plain
    | _ => plain
  row.push cell

/-- Adds the row of the next letter of `b`. -/
def nextRow (a : Array α) (rows : Rows α) (y : α) : Rows α :=
  let first := (((rows.head?.map (·.2)).getD #[]).getD 0 0) + 1
  let row := (List.range a.size).foldl (nextCell a rows y) #[first]
  (some y, row) :: rows.take 1

/-- The optimal string alignment distance of two words. -/
def distance (a b : List α) : Nat :=
  let start : Rows α := [(none, (Array.range (a.length + 1)))]
  match b.foldl (nextRow a.toArray) start with
  | (_, row) :: _ => row.getD a.length 0
  | [] => 0

end

end TreeInspector.Text
