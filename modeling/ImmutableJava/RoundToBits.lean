/-!
# Rounding to significant bits

A natural number is rounded to a given number of significant binary digits: to the
nearest number that has no more of them, and from halfway to the one whose last
digit is even.

`roundToBits_of_lt` says that a number with few enough digits stays as it is, and
`roundToBits_near` that no number moves by more than half a unit of its last digit.
-/

namespace ImmutableJava

/-- The place value of the last of the significant digits of a number. -/
def lastPlace (bits n : Nat) : Nat := Nat.pow 2 (n.log2 + 1 - bits)

/-- A number of units, rounded to the nearest whole one, from halfway to the even one. -/
def roundUnits (unit n : Nat) : Nat :=
  if unit < 2 * (n % unit) then n / unit + 1
  else if unit = 2 * (n % unit) then n / unit + n / unit % 2
  else n / unit

/-- A number rounded to significant binary digits. -/
def roundToBits (bits n : Nat) : Nat := roundUnits (lastPlace bits n) n * lastPlace bits n

theorem lastPlace_pos (bits n : Nat) : 0 < lastPlace bits n := Nat.pow_pos (by decide)

theorem lastPlace_of_lt {bits n : Nat} (h : n < Nat.pow 2 bits) (hn : n ≠ 0) :
    lastPlace bits n = 1 := by
  have hlog : n.log2 < bits := (Nat.log2_lt hn).2 h
  rw [lastPlace, Nat.sub_eq_zero_of_le hlog, Nat.pow_eq, Nat.pow_zero]

/-- Nothing has to be rounded in a number with few enough digits. -/
theorem roundToBits_of_lt {bits n : Nat} (h : n < Nat.pow 2 bits) (hn : n ≠ 0) :
    roundToBits bits n = n := by
  rw [roundToBits, lastPlace_of_lt h hn, roundUnits]
  simp [Nat.mod_one]

/-- Rounding to whole units moves a number by at most half a unit. -/
theorem roundUnits_near {unit n : Nat} (h : 0 < unit) :
    2 * (roundUnits unit n * unit) ≤ 2 * n + unit ∧
      2 * n ≤ 2 * (roundUnits unit n * unit) + unit := by
  have hn := Nat.div_add_mod n unit
  have hlt := Nat.mod_lt n h
  have hparity : n / unit % 2 = 0 ∨ n / unit % 2 = 1 := Nat.mod_two_eq_zero_or_one _
  rw [Nat.mul_comm] at hn
  rw [roundUnits]
  split
  · rw [Nat.add_mul]
    omega
  · split
    · rcases hparity with heven | hodd
      · rw [heven, Nat.add_zero]
        omega
      · rw [hodd, Nat.add_mul]
        omega
    · omega

/-- No number moves by more than half a unit of its last digit. -/
theorem roundToBits_near (bits n : Nat) :
    2 * roundToBits bits n ≤ 2 * n + lastPlace bits n ∧
      2 * n ≤ 2 * roundToBits bits n + lastPlace bits n :=
  roundUnits_near (lastPlace_pos bits n)

example : roundToBits 3 9 = 8 ∧ roundToBits 3 11 = 12 ∧ roundToBits 3 10 = 10 := by decide

example : roundToBits 2 5 = 4 ∧ roundToBits 2 7 = 8 ∧ roundToBits 2 0 = 0 := by decide

end ImmutableJava
