import ChatHub.Latency.Bucket
import Mathlib.Algebra.GroupWithZero.Nat
/-!
How far a bucket is from its values. A value above 2048 lies in a bucket whose width is at most a
1024th of it, the lesser ones have buckets of their own, and buckets are in the order of their
values.
-/

set_option autoImplicit false

namespace ChatHub.Bucket

variable {value other power : Nat}

theorem width_eq (value : Nat) : width value = 2 ^ exponent value :=
  rfl

theorem width_pos (value : Nat) : 0 < width value :=
  Nat.two_pow_pos (exponent value)

/-! ## The exponent -/

private theorem exponent_of_lt (small : value < 2 ^ 11) : exponent value = 0 := by
  have below : value ||| 2047 < 2 ^ 11 := Nat.or_lt_two_pow small (by decide)
  have log : (value ||| 2047).log2 < 11 := by
    refine (Nat.log2_lt ?_).mpr below
    have filled : 2047 ≤ value ||| 2047 := Nat.right_le_or
    omega
  unfold exponent
  omega

private theorem exponent_of_le (large : 2 ^ 11 ≤ value) : exponent value = value.log2 - 10 := by
  have nonzero : value ≠ 0 := by omega
  have eleven : 11 ≤ value.log2 := (Nat.le_log2 nonzero).mpr large
  -- The mask fills the lowest bits and leaves the leading one where it is.
  have filler : 2047 < 2 ^ (value.log2 + 1) :=
    Nat.lt_of_lt_of_le (by decide : 2047 < 2 ^ 11) (Nat.pow_le_pow_right (by decide) (by omega))
  have grown : value ≤ value ||| 2047 := Nat.left_le_or
  have log : (value ||| 2047).log2 = value.log2 := by
    apply Nat.le_antisymm
    · apply Nat.le_of_lt_succ
      refine (Nat.log2_lt (by omega)).mpr ?_
      exact Nat.or_lt_two_pow Nat.lt_log2_self filler
    · exact (Nat.le_log2 (by omega)).mpr (Nat.le_trans (Nat.log2_self_le nonzero) grown)
  rw [exponent, log]

/-- The values with one exponent are those below a power of two, and from half of it on unless the
exponent is zero. -/
theorem exponent_spec (value : Nat) :
    value < 2 ^ (exponent value + 11) ∧
      (exponent value = 0 ∨ 2 ^ (exponent value + 10) ≤ value) := by
  by_cases small : value < 2 ^ 11
  · rw [exponent_of_lt small]
    exact ⟨small, .inl rfl⟩
  · have large : 2 ^ 11 ≤ value := by omega
    have nonzero : value ≠ 0 := by omega
    have eleven : 11 ≤ value.log2 := (Nat.le_log2 nonzero).mpr large
    rw [exponent_of_le large]
    constructor
    · rw [show value.log2 - 10 + 11 = value.log2 + 1 by omega]
      exact Nat.lt_log2_self
    · right
      rw [Nat.sub_add_cancel (by omega)]
      exact Nat.log2_self_le nonzero

private theorem exponent_mono (ordered : value ≤ other) : exponent value ≤ exponent other := by
  rcases (exponent_spec value).2 with least | least
  · omega
  · have below : 2 ^ (exponent value + 10) < 2 ^ (exponent other + 11) :=
      Nat.lt_of_le_of_lt (Nat.le_trans least ordered) (exponent_spec other).1
    have powers := (Nat.pow_lt_pow_iff_right (by decide)).mp below
    omega

private theorem eq_exponent (below : value < 2 ^ (power + 11))
    (least : power = 0 ∨ 2 ^ (power + 10) ≤ value) : exponent value = power := by
  obtain ⟨below', least'⟩ := exponent_spec value
  apply Nat.le_antisymm
  · rcases least' with zero | least'
    · omega
    · have powers := (Nat.pow_lt_pow_iff_right (by decide)).mp (Nat.lt_of_le_of_lt least' below)
      omega
  · rcases least with zero | least
    · omega
    · have powers := (Nat.pow_lt_pow_iff_right (by decide)).mp (Nat.lt_of_le_of_lt least below')
      omega

/-- What is rounded off in a bucket is at most a 1024th of the value. -/
theorem width_le (value : Nat) : width value ≤ value / 1024 + 1 := by
  rw [width_eq]
  rcases (exponent_spec value).2 with zero | least
  · rw [zero]
    omega
  · have fits : 2 ^ exponent value ≤ value / 1024 := by
      rw [Nat.le_div_iff_mul_le (by decide)]
      rwa [Nat.pow_add] at least
    omega

/-! ## The ends -/

private theorem lowest_add_mod (value : Nat) : lowest value + value % width value = value := by
  rw [lowest, Nat.mul_comm]
  exact Nat.div_add_mod value (width value)

theorem lowest_le (value : Nat) : lowest value ≤ value :=
  Nat.div_mul_le_self value (width value)

theorem le_highest (value : Nat) : value ≤ highest value := by
  have parts := lowest_add_mod value
  have rest := Nat.mod_lt value (width_pos value)
  unfold highest
  omega

theorem sub_le_lowest (value : Nat) : value - value / 1024 ≤ lowest value := by
  have parts := lowest_add_mod value
  have rest := Nat.mod_lt value (width_pos value)
  have narrow := width_le value
  omega

theorem highest_le (value : Nat) : highest value ≤ value + value / 1024 := by
  have below := lowest_le value
  have narrow := width_le value
  have wide := width_pos value
  unfold highest
  omega

/-- A multiple of a bucket's width is not inside the bucket. -/
theorem le_lowest_of_dvd (multiple : width value ∣ power) (ordered : power ≤ value) :
    power ≤ lowest value := by
  obtain ⟨times, rfl⟩ := multiple
  rw [lowest, Nat.mul_comm]
  apply Nat.mul_le_mul_right
  rw [Nat.le_div_iff_mul_le (width_pos value), Nat.mul_comm]
  exact ordered

private theorem highest_lt_of_dvd (multiple : width value ∣ power) (ordered : value < power) :
    highest value < power := by
  have wide := width_pos value
  obtain ⟨times, rfl⟩ := multiple
  have fewer : value / width value < times := by
    rw [Nat.div_lt_iff_lt_mul wide, Nat.mul_comm]
    exact ordered
  have next : (value / width value + 1) * width value ≤ times * width value :=
    Nat.mul_le_mul_right _ fewer
  rw [Nat.add_mul, Nat.one_mul] at next
  rw [Nat.mul_comm (width value)]
  unfold highest lowest
  omega

private theorem width_dvd_two_pow (above : exponent value ≤ power) : width value ∣ 2 ^ power :=
  Nat.pow_dvd_pow 2 above

/-- The buckets of two values with different exponents lie on two sides of a power of two. -/
theorem highest_lt_lowest (different : exponent value < exponent other) :
    highest value < lowest other := by
  have below : highest value < 2 ^ (exponent value + 11) :=
    highest_lt_of_dvd (width_dvd_two_pow (by omega)) (exponent_spec value).1
  have least : 2 ^ (exponent other + 10) ≤ lowest other := by
    rcases (exponent_spec other).2 with zero | least
    · omega
    · exact le_lowest_of_dvd (width_dvd_two_pow (by omega)) least
  have powers : 2 ^ (exponent value + 11) ≤ 2 ^ (exponent other + 10) :=
    Nat.pow_le_pow_right (by decide) (by omega)
  omega

theorem lowest_mono (ordered : value ≤ other) : lowest value ≤ lowest other := by
  rcases Nat.lt_or_eq_of_le (exponent_mono ordered) with different | same
  · have apart := highest_lt_lowest different
    have inside := Nat.le_trans (lowest_le value) (le_highest value)
    omega
  · unfold lowest
    rw [width_eq, width_eq, same]
    exact Nat.mul_le_mul_right _ (Nat.div_le_div_right ordered)

private theorem exponent_lowest (value : Nat) : exponent (lowest value) = exponent value := by
  obtain ⟨below, least⟩ := exponent_spec value
  apply eq_exponent (Nat.lt_of_le_of_lt (lowest_le value) below)
  rcases least with zero | least
  · exact .inl zero
  · exact .inr (le_lowest_of_dvd (width_dvd_two_pow (by omega)) least)

/-- The name of a bucket lies in the bucket. -/
theorem highest_lowest (value : Nat) : highest (lowest value) = highest value := by
  have same : width (lowest value) = width value := by
    rw [width_eq, width_eq, exponent_lowest]
  rw [highest, highest, same, lowest, same, lowest, Nat.mul_div_cancel _ (width_pos value)]

theorem highest_mono (ordered : value ≤ other) : highest value ≤ highest other := by
  rcases Nat.lt_or_eq_of_le (exponent_mono ordered) with different | same
  · have apart := highest_lt_lowest different
    have inside := Nat.le_trans (lowest_le other) (le_highest other)
    omega
  · have lowest := lowest_mono ordered
    unfold highest
    rw [width_eq, width_eq, same]
    omega

theorem lowest_pos (positive : 0 < value) : 0 < lowest value := by
  have near := sub_le_lowest value
  omega

end ChatHub.Bucket
