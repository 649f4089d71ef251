/-!
# 64-bit counts

Sizes, offsets and capacities are `UInt64`. A result that does not fit is treated in one of three ways:

* `addCapped`, `mulCapped` : the largest word takes its place;
* `add?`, `mul?`, `shift?` : there is no result (`shift?` moves a count by a signed distance);
* `subFloor` : a difference below zero becomes zero.

The `toNat` lemmas read each operation in unbounded integers.
-/

namespace BoundedStore.Word

def largest : UInt64 := 18446744073709551615

theorem toNat_largest : largest.toNat = 0xFFFF_FFFF_FFFF_FFFF := rfl

theorem toNat_lt (a : UInt64) : a.toNat < 0x1_0000_0000_0000_0000 := UInt64.toNat_lt a

theorem toNat_min (a b : UInt64) : (min a b).toNat = min a.toNat b.toNat := by
  show (if a ≤ b then a else b).toNat = min a.toNat b.toNat
  split
  · next h =>
    rw [UInt64.le_iff_toNat_le] at h
    rw [Nat.min_eq_left h]
  · next h =>
    rw [UInt64.le_iff_toNat_le] at h
    rw [Nat.min_eq_right (by omega)]

/-- The sum, or the largest word if the sum does not fit. -/
def addCapped (a b : UInt64) : UInt64 :=
  if a.toNat + b.toNat < 0x1_0000_0000_0000_0000 then a + b else largest

theorem toNat_addCapped (a b : UInt64) :
    (addCapped a b).toNat = min (a.toNat + b.toNat) 0xFFFF_FFFF_FFFF_FFFF := by
  unfold addCapped
  split
  · rw [UInt64.toNat_add]; omega
  · rw [toNat_largest]; omega

/-- The product, or the largest word if the product does not fit. -/
def mulCapped (a b : UInt64) : UInt64 :=
  if a.toNat * b.toNat < 0x1_0000_0000_0000_0000 then a * b else largest

theorem toNat_mulCapped (a b : UInt64) :
    (mulCapped a b).toNat = min (a.toNat * b.toNat) 0xFFFF_FFFF_FFFF_FFFF := by
  unfold mulCapped
  split
  · next h => rw [UInt64.toNat_mul, Nat.mod_eq_of_lt h]; omega
  · rw [toNat_largest]; omega

/-- The sum, if it fits. -/
def add? (a b : UInt64) : Option UInt64 :=
  if a.toNat + b.toNat < 0x1_0000_0000_0000_0000 then some (a + b) else none

theorem add?_eq_some_iff {a b c : UInt64} : add? a b = some c ↔ a.toNat + b.toNat = c.toNat := by
  unfold add?
  have hc := toNat_lt c
  split
  · next h =>
    rw [Option.some.injEq, ← UInt64.toNat_inj, UInt64.toNat_add, Nat.mod_eq_of_lt h]
  · constructor
    · intro h; cases h
    · intro h; omega

theorem add?_eq_none_iff {a b : UInt64} : add? a b = none ↔ 0x1_0000_0000_0000_0000 ≤ a.toNat + b.toNat := by
  unfold add?
  split
  · simp; omega
  · simp; omega

/-- The product, if it fits. -/
def mul? (a b : UInt64) : Option UInt64 :=
  if a.toNat * b.toNat < 0x1_0000_0000_0000_0000 then some (a * b) else none

theorem mul?_eq_none_iff {a b : UInt64} : mul? a b = none ↔ 0x1_0000_0000_0000_0000 ≤ a.toNat * b.toNat := by
  unfold mul?
  split <;> simp <;> omega

/-- The difference, or zero if `b` is larger than `a`. -/
def subFloor (a b : UInt64) : UInt64 :=
  if b ≤ a then a - b else 0

theorem toNat_subFloor (a b : UInt64) : (subFloor a b).toNat = a.toNat - b.toNat := by
  unfold subFloor
  split
  · next h => exact UInt64.toNat_sub_of_le a b h
  · next h =>
    rw [UInt64.le_iff_toNat_le] at h
    simp; omega

/-- The count `a` moved by the signed distance `d`, if the result is a count. -/
def shift? (a : UInt64) (d : Int64) : Option UInt64 :=
  let target : Int := a.toNat + d.toInt
  if 0 ≤ target ∧ target < 0x1_0000_0000_0000_0000 then some (UInt64.ofNat target.toNat) else none

theorem shift?_eq_some_iff {a c : UInt64} {d : Int64} :
    shift? a d = some c ↔ (a.toNat : Int) + d.toInt = c.toNat := by
  have hc := toNat_lt c
  simp only [shift?]
  split
  · next h =>
    rw [Option.some.injEq, ← UInt64.toNat_inj, UInt64.toNat_ofNat_of_lt' (by change _ < 0x1_0000_0000_0000_0000; omega)]
    omega
  · next h =>
    constructor
    · intro h; cases h
    · intro h; omega

/-- The quotient rounded up. -/
def ceilDiv (a b : UInt64) : UInt64 :=
  if a % b = 0 then a / b else a / b + 1

theorem toNat_ceilDiv (a b : UInt64) (h : 0 < b.toNat) :
    (ceilDiv a b).toNat = (a.toNat + b.toNat - 1) / b.toNat := by
  have ha := toNat_lt a
  have hdiv := Nat.div_add_mod a.toNat b.toNat
  have hlt := Nat.mod_lt a.toNat h
  have hzero : a % b = 0 ↔ a.toNat % b.toNat = 0 := by
    rw [← UInt64.toNat_inj, UInt64.toNat_mod]; rfl
  unfold ceilDiv
  symm
  split
  · next h0 =>
    rw [hzero] at h0
    rw [UInt64.toNat_div, Nat.div_eq_iff h, Nat.mul_comm]
    omega
  · next h0 =>
    rw [hzero] at h0
    have hq : a.toNat / b.toNat + 1 < 0x1_0000_0000_0000_0000 := by
      have := Nat.div_le_div_left (a := a.toNat) (show 2 ≤ b.toNat by omega) Nat.two_pos
      omega
    rw [UInt64.toNat_add, UInt64.toNat_div, UInt64.toNat_one, Nat.mod_eq_of_lt hq, Nat.div_eq_iff h,
      Nat.mul_comm, Nat.mul_add]
    omega

end BoundedStore.Word
