/-!
# One decimal place

* `roundHalfEven` : the integer nearest to a fraction, of two the even one;
* `ofBits` : the number that a non-negative double stands for, as a fraction;
* `tenths` : that number with one digit behind the point. It is the exact number that is rounded.
-/

namespace BoundedStore.Decimal

/-- The integer nearest to `num / den`; a half goes to the even neighbour. -/
def roundHalfEven (num den : Nat) : Nat :=
  let q := num / den
  let twice := 2 * (num % den)
  if twice < den then q else if den < twice then q + 1 else q + q % 2

/-- The result is at most half a unit away. -/
theorem roundHalfEven_near (num : Nat) {den : Nat} (h : 0 < den) :
    2 * num ≤ 2 * den * roundHalfEven num den + den ∧ 2 * den * roundHalfEven num den ≤ 2 * num + den := by
  have hdiv := Nat.div_add_mod num den
  have hlt := Nat.mod_lt num h
  have hparity : num / den % 2 = 0 ∨ num / den % 2 = 1 := by omega
  simp only [roundHalfEven]
  generalize num / den = q at *
  generalize num % den = r at *
  subst hdiv
  have hmul : 2 * den * (q + 1) = 2 * (den * q) + 2 * den := by rw [Nat.mul_add, Nat.mul_assoc, Nat.mul_one]
  have hmul' : 2 * den * q = 2 * (den * q) := Nat.mul_assoc _ _ _
  split
  · rw [hmul']; omega
  · split
    · rw [hmul]; omega
    · rcases hparity with hq | hq <;> rw [hq]
      · rw [Nat.add_zero, hmul']; omega
      · rw [hmul]; omega

/-- Numerator and denominator of the non-negative double with these bits. -/
def ofBits (bits : UInt64) : Nat × Nat :=
  let field := bits.toNat >>> 52 % 2048
  let digits := bits.toNat % 0x10_0000_0000_0000
  let significand := if field = 0 then digits else 0x10_0000_0000_0000 + digits
  let exponent := max field 1
  if 1075 ≤ exponent then (significand <<< (exponent - 1075), 1) else (significand, 1 <<< (1075 - exponent))

/-- A non-negative number with one digit behind the point. -/
def tenths (x : Float) : String :=
  let (num, den) := ofBits x.toBits
  let n := roundHalfEven (10 * num) den
  s!"{n / 10}.{n % 10}"

end BoundedStore.Decimal
