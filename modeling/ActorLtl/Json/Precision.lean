/-
# Double precision

A number in double precision has 53 significant bits, and a magnitude that rounds to
`2 ^ 1024` is out of range.  `nearest` rounds a natural number to 53 bits; it errs by half a
unit of the last bit at most (`nearest_le`, `le_nearest`), and what has no more bits than that
stays as it is (`nearest_eq_self`).
-/

namespace ActorLtl
namespace Precision

/-- The value of the last of the 53 bits of a number. -/
def unit (n : Nat) : Nat := Nat.pow 2 (n.log2 - 52)

theorem unit_pos (n : Nat) : 0 < unit n := Nat.pow_pos (by decide)

/-- The number of 53 significant bits that is nearest; of two equally near ones, the one whose
last bit is 0. -/
def nearest (n : Nat) : Nat :=
  let whole := n / unit n
  let rest := n % unit n
  if 2 * rest < unit n ∨ (2 * rest = unit n ∧ whole % 2 = 0) then whole * unit n
  else (whole + 1) * unit n

/-- **Rounding adds half a unit at most.** -/
theorem nearest_le (n : Nat) : 2 * nearest n ≤ 2 * n + unit n := by
  have split := Nat.div_add_mod' n (unit n)
  simp only [nearest, Nat.add_mul, Nat.one_mul]
  split <;> omega

/-- **Rounding takes half a unit at most.** -/
theorem le_nearest (n : Nat) : 2 * n ≤ 2 * nearest n + unit n := by
  have split := Nat.div_add_mod' n (unit n)
  have small := Nat.mod_lt n (unit_pos n)
  simp only [nearest, Nat.add_mul, Nat.one_mul]
  split <;> omega

/-- **Up to 53 bits nothing is lost.** -/
theorem nearest_eq_self {n : Nat} (h : n.log2 ≤ 52) : nearest n = n := by
  have one : unit n = 1 := by simp [unit, Nat.sub_eq_zero_of_le h]
  simp [nearest, one, Nat.mod_one]

/-- The least magnitude that is out of range: half a unit above the greatest number of 53 bits
below `2 ^ 1024`. -/
def bound : Nat := Nat.pow 2 1024 - Nat.pow 2 970

/-- The greatest power of ten below `bound`. -/
def maxTens : Nat := 308

/-- Whether `digits` times ten to the power `tens` is in range.  The product is that of two
rounded factors, so it may reach the bound although the exact product does not. -/
def inRange (digits tens : Nat) : Bool :=
  digits = 0 || (tens ≤ maxTens && nearest digits * nearest (Nat.pow 10 tens) < bound)

/-- Near the bound: the first number is in range, and the second is not, although it is below
the bound itself. -/
example : inRange 17976931348623157 292 = true ∧ inRange 17976931348623158 292 = false ∧
    17976931348623158 * Nat.pow 10 292 < bound := by decide +kernel

end Precision
end ActorLtl
