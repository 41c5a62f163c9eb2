import Mathlib

namespace Fandomchain.Library

variable {a b : Int64}

theorem toInt_add_exact (lo : -2 ^ 63 ≤ a.toInt + b.toInt) (hi : a.toInt + b.toInt < 2 ^ 63) :
    (a + b).toInt = a.toInt + b.toInt := by
  rw [Int64.toInt_add]
  exact Int.bmod_eq_of_le (by omega) (by omega)

theorem toInt_sub_exact (lo : -2 ^ 63 ≤ a.toInt - b.toInt) (hi : a.toInt - b.toInt < 2 ^ 63) :
    (a - b).toInt = a.toInt - b.toInt := by
  rw [Int64.toInt_sub]
  exact Int.bmod_eq_of_le (by omega) (by omega)

theorem toInt_sub_of_le (hb : 0 ≤ b.toInt) (h : b.toInt ≤ a.toInt) :
    (a - b).toInt = a.toInt - b.toInt := by
  have := a.toInt_lt
  exact toInt_sub_exact (by omega) (by omega)

theorem toInt_add_wrapped (hb : 0 ≤ b.toInt) (h : 2 ^ 63 ≤ a.toInt + b.toInt) :
    (a + b).toInt = a.toInt + b.toInt - 2 ^ 64 := by
  have := a.toInt_lt
  have := b.toInt_lt
  have := a.le_toInt
  rw [Int64.toInt_add, ← Int.sub_bmod_right]
  exact Int.bmod_eq_of_le (by omega) (by omega)

theorem toInt_add_nonneg_iff (ha : 0 ≤ a.toInt) (hb : 0 ≤ b.toInt) :
    0 ≤ (a + b).toInt ↔ a.toInt + b.toInt < 2 ^ 63 := by
  by_cases h : a.toInt + b.toInt < 2 ^ 63
  · rw [toInt_add_exact (by omega) h]
    omega
  · have := a.toInt_lt
    have := b.toInt_lt
    rw [toInt_add_wrapped hb (by omega)]
    omega

theorem toInt_add_pos_iff (ha : 0 < a.toInt) (hb : 0 ≤ b.toInt) :
    0 < (a + b).toInt ↔ a.toInt + b.toInt < 2 ^ 63 := by
  rw [← toInt_add_nonneg_iff ha.le hb]
  constructor
  · exact le_of_lt
  · intro nonneg
    have fits := (toInt_add_nonneg_iff ha.le hb).mp nonneg
    rw [toInt_add_exact (by omega) fits]
    omega

/-- Wrapping can only lower the amount that a counter vouches for. -/
theorem posPart_add_le (hb : 0 ≤ b.toInt) :
    max 0 (a + b).toInt ≤ max 0 a.toInt + b.toInt := by
  have := a.le_toInt
  by_cases h : a.toInt + b.toInt < 2 ^ 63
  · rw [toInt_add_exact (by omega) h]
    omega
  · have := a.toInt_lt
    have := b.toInt_lt
    rw [toInt_add_wrapped hb (by omega)]
    omega

end Fandomchain.Library
