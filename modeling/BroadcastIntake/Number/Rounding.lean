/-!
# Rounding quotients

One rounding rule serves every number in this library: the nearest whole number, and of two
equally near ones the even one.
-/

namespace BroadcastIntake

/-- The whole number nearest to `num / den`; a half goes to the even neighbour. -/
def divideToNearest (num den : Nat) : Nat :=
  let quotient := num / den
  let excess := 2 * (num % den)
  if excess < den then quotient
  else if den < excess then quotient + 1
  else if quotient % 2 = 0 then quotient else quotient + 1

/-- Rounding a whole number changes nothing. -/
theorem divideToNearest_one (n : Nat) : divideToNearest n 1 = n := by
  simp [divideToNearest, Nat.mod_one]

/-- Rounding a multiple of the divisor gives the factor. -/
theorem divideToNearest_mul_self (n den : Nat) (h : 0 < den) :
    divideToNearest (n * den) den = n := by
  simp [divideToNearest, Nat.mul_mod_left, Nat.mul_div_cancel _ h, h]

/-- The rounded quotient is at most half a unit away from the quotient. -/
theorem two_mul_divideToNearest_mul_near (num den : Nat) (h : 0 < den) :
    2 * (divideToNearest num den * den) ≤ 2 * num + den ∧
      2 * num ≤ 2 * (divideToNearest num den * den) + den := by
  have hdiv := Nat.div_add_mod num den
  have hmod := Nat.mod_lt num h
  have hcomm : num / den * den = den * (num / den) := Nat.mul_comm _ _
  have hsucc : (num / den + 1) * den = num / den * den + den := Nat.succ_mul _ _
  unfold divideToNearest
  simp only
  split
  · omega
  · split
    · omega
    · split <;> omega

end BroadcastIntake
