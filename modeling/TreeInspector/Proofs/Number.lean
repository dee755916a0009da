import TreeInspector.Number.Rounding

/-!
# Order of numbers, and numbers that count

Numbers are ordered as the rationals and the infinities are, and what is no number is not ordered at
all. Natural numbers keep their order, sums and differences as numbers, and only they name a place
in a list.
-/

set_option autoImplicit false

namespace TreeInspector.Number

/-! ## Order -/

/-- Numbers are ordered transitively. -/
theorem le_trans {a b c : Number} (hab : a ≤ b) (hbc : b ≤ c) : a ≤ c := by
  change a.le b = true at hab
  change b.le c = true at hbc
  change a.le c = true
  rcases a with _ | (_ | _) | x <;> rcases b with _ | (_ | _) | y <;>
    rcases c with _ | (_ | _) | z <;> simp_all [le]
  exact Rat.le_trans hab hbc

/-- A number below another one is below whatever that is at most. -/
theorem lt_of_lt_of_le {a b c : Number} (hab : a < b) (hbc : b ≤ c) : a < c := by
  change a.lt b = true at hab
  change b.le c = true at hbc
  change a.lt c = true
  rcases a with _ | (_ | _) | x <;> rcases b with _ | (_ | _) | y <;>
    rcases c with _ | (_ | _) | z <;> simp_all [lt, le]
  exact Rat.not_le.1 fun hzx => Rat.not_le.2 hab (Rat.le_trans hbc hzx)

/-- A number that is at most another one is below whatever that is below. -/
theorem lt_of_le_of_lt {a b c : Number} (hab : a ≤ b) (hbc : b < c) : a < c := by
  change a.le b = true at hab
  change b.lt c = true at hbc
  change a.lt c = true
  rcases a with _ | (_ | _) | x <;> rcases b with _ | (_ | _) | y <;>
    rcases c with _ | (_ | _) | z <;> simp_all [lt, le]
  exact Rat.not_le.1 fun hzx => Rat.not_le.2 hbc (Rat.le_trans hzx hab)

/-- A number that is at most another one is not above it. -/
theorem not_lt_of_le {a b : Number} (hab : a ≤ b) : ¬b < a := by
  change a.le b = true at hab
  change ¬b.lt a = true
  rcases a with _ | (_ | _) | x <;> rcases b with _ | (_ | _) | y
  case finite.finite =>
    intro hba
    have hle : x ≤ y := by simpa [le] using hab
    have hlt : y < x := by simpa [lt] using hba
    exact Rat.not_lt.2 hle hlt
  all_goals simp_all [lt, le]

/-- A number that is above another one is a number. -/
theorem le_self_of_lt {a b : Number} (hab : a < b) : a ≤ a ∧ b ≤ b := by
  change a.lt b = true at hab
  change a.le a = true ∧ b.le b = true
  rcases a with _ | (_ | _) | x <;> rcases b with _ | (_ | _) | y <;>
    simp_all [lt, le]

/-- Natural numbers are at most one another as they are as numbers. -/
@[simp]
theorem natCast_le_natCast {m n : Nat} : (m : Number) ≤ (n : Number) ↔ m ≤ n := by
  rw [← Rat.natCast_le_natCast]
  exact finite_le_finite

/-- Natural numbers are below one another as they are as numbers. -/
@[simp]
theorem natCast_lt_natCast {m n : Nat} : (m : Number) < (n : Number) ↔ m < n := by
  rw [← Rat.natCast_lt_natCast]
  exact finite_lt_finite

/-! ## Sums and differences -/

/-- A difference of whole numbers is a whole number, positive or not. -/
theorem natCast_sub_natCast (m n : Nat) :
    (m : Number) - (n : Number) = .finite (((m : Int) - (n : Int) : Int) : Rat) := by
  have hsum : (m : Rat) + -(n : Rat) = (((m : Int) - (n : Int) : Int) : Rat) := by
    rw [Rat.intCast_sub, Rat.sub_eq_add_neg]
    rfl
  show ofColumns ((m : Rat) + -(n : Rat)) = _
  unfold ofColumns
  rw [hsum, if_pos (Rat.den_intCast _)]

/-- Natural numbers are added as numbers are. -/
theorem natCast_add_natCast (m n : Nat) : (m : Number) + (n : Number) = (m + n : Nat) := by
  have hsum : (m : Rat) + (n : Rat) = ((m + n : Nat) : Rat) := (Rat.natCast_add m n).symm
  show ofColumns ((m : Rat) + (n : Rat)) = _
  unfold ofColumns
  rw [hsum, if_pos (Rat.den_natCast _)]
  rfl

/-- A natural number is subtracted from one that is no smaller as numbers are. -/
theorem natCast_sub_of_le {m n : Nat} (h : n ≤ m) :
    (m : Number) - (n : Number) = (m - n : Nat) := by
  rw [natCast_sub_natCast, ← Int.ofNat_sub h]
  rfl

/-- The smaller of two natural numbers is the smaller number. -/
theorem min_natCast (m n : Nat) : Number.min m n = (Min.min m n : Nat) := by
  show (if (m : Number) < (n : Number) then (m : Number) else (n : Number)) = _
  simp only [natCast_lt_natCast]
  split
  · rw [Nat.min_eq_left (by omega)]
  · rw [Nat.min_eq_right (by omega)]

/-- No natural number is below zero. -/
theorem zero_max_natCast (n : Nat) : Number.max 0 n = n := by
  show (if ((0 : Nat) : Number) < (n : Number) then (n : Number) else ((0 : Nat) : Number)) = _
  simp only [natCast_lt_natCast]
  split
  case isTrue => rfl
  case isFalse h => rw [Nat.eq_zero_of_not_pos h]

/-- The larger of one and a natural number is the larger number. -/
theorem one_max_natCast (n : Nat) : Number.max 1 (n : Number) = (Max.max 1 n : Nat) := by
  show (if ((1 : Nat) : Number) < (n : Number) then (n : Number) else ((1 : Nat) : Number)) = _
  simp only [natCast_lt_natCast]
  split
  · rw [Nat.max_eq_right (by omega)]
  · rw [Nat.max_eq_left (by omega)]

/-- A width counts at least one column, also when it would be negative. -/
theorem one_max_sub (m n : Nat) :
    Number.max 1 ((m : Number) - (n : Number)) = (Max.max 1 (m - n) : Nat) := by
  by_cases h : n ≤ m
  · rw [natCast_sub_of_le h, one_max_natCast]
  · rw [natCast_sub_natCast]
    show (if Number.finite ((1 : Nat) : Rat) < .finite _ then _
      else Number.finite ((1 : Nat) : Rat)) = _
    have hneg : ¬(((1 : Nat) : Rat) < (((m : Int) - (n : Int) : Int) : Rat)) := by
      intro hlt
      have : (1 : Int) < (m : Int) - (n : Int) := by exact_mod_cast hlt
      omega
    rw [if_neg (by simpa only [finite_lt_finite] using hneg), Nat.sub_eq_zero_of_le (by omega)]
    rfl

/-! ## Indices and counts -/

/-- Only a natural number is an index, and it is the index that it is. -/
theorem toIndex?_eq_some_iff (n : Number) (i : Nat) :
    n.toIndex? = some i ↔ n = Number.ofNat i := by
  constructor
  · intro h
    cases n with
    | nan => simp [toIndex?, toInt?] at h
    | infinite negative => simp [toIndex?, toInt?] at h
    | finite r =>
      by_cases hden : r.den = 1
      · cases hnum : r.num with
        | ofNat k =>
          have hk : k = i := by simpa [toIndex?, toInt?, hden, hnum] using h
          have hr : r = (i : Rat) := Rat.ext (by simp [hnum, hk]) (by simp [hden])
          rw [hr, Number.ofNat]
        | negSucc k => simp [toIndex?, toInt?, hden, hnum] at h
      · simp [toIndex?, toInt?, hden] at h
  · rintro rfl
    exact toIndex?_ofNat i

/-- A natural number is the count that it is. -/
theorem toCount?_natCast (n : Nat) : (n : Number).toCount? = some n := by
  have hquotient : Int.tdiv (n : Rat).num (n : Rat).den = .ofNat n := by
    rw [Rat.num_natCast, Rat.den_natCast, Int.ofNat_one, Int.tdiv_one]
    rfl
  show Number.toCount? (.finite n) = some n
  unfold toCount?
  simp only [hquotient]

end TreeInspector.Number
