/-
# Fixed-width conversions of a 64-bit data model

The program passes one length through several C types. Two conversions cover
all of them: to a 32-bit two's-complement `int`, and to a 64-bit `size_t`. Both
are functions on unbounded integers, so that arithmetic stays in `ℤ` and `ℕ`
and every reduction modulo `2 ^ 32` or `2 ^ 64` is visible where it happens.
-/

import Mathlib.Algebra.Order.Ring.Int

namespace Xrtc.Machine

/-- Conversion to a 32-bit two's-complement `int`. -/
def toInt32 (value : ℤ) : ℤ := (value + 2 ^ 31) % 2 ^ 32 - 2 ^ 31

/-- Conversion to a 64-bit `size_t`. -/
def toSize (value : ℤ) : ℕ := (value % 2 ^ 64).toNat

theorem toInt32_of_range {value : ℤ} (hlow : -2 ^ 31 ≤ value) (hhigh : value < 2 ^ 31) :
    toInt32 value = value := by
  unfold toInt32
  omega

/-- The upper half of the unsigned 32-bit range converts to negative numbers. -/
theorem toInt32_of_high {value : ℤ} (hlow : 2 ^ 31 ≤ value) (hhigh : value < 2 ^ 32) :
    toInt32 value = value - 2 ^ 32 := by
  unfold toInt32
  omega

theorem toInt32_add_left (first second : ℤ) :
    toInt32 (toInt32 first + second) = toInt32 (first + second) := by
  unfold toInt32
  omega

theorem toInt32_sub_left (first second : ℤ) :
    toInt32 (toInt32 first - second) = toInt32 (first - second) := by
  unfold toInt32
  omega

theorem toSize_of_nonneg {value : ℤ} (hlow : 0 ≤ value) (hhigh : value < 2 ^ 64) :
    toSize value = value.toNat := by
  unfold toSize
  omega

end Xrtc.Machine
