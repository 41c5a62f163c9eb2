import Mathlib

/-!
# A constant product market that rounds its payout up

Two reserves `x` and `y`. A trade adds `a` to `x` and pays `y - ⌊x * y / (x + a)⌋` out of `y`, so
the payout is the exact one rounded up and the product of the reserves falls by the remainder of
the division. The margin measures the reserves against a position of the traders: it moves only by
that remainder and by the fee that a trade leaves outside the reserves.
-/

namespace Fandomchain.Library

def output (x y a : ℤ) : ℤ := y - x * y / (x + a)

def remainder (x y a : ℤ) : ℤ := x * y % (x + a)

variable {x y a : ℤ}

theorem product_after (x y a : ℤ) : (x + a) * (y - output x y a) = x * y - remainder x y a := by
  have h := Int.mul_ediv_add_emod (x * y) (x + a)
  simp only [output, remainder, sub_sub_cancel]
  omega

theorem output_le (h : 0 < x + a) (hp : 0 ≤ x * y) : output x y a ≤ y := by
  have := Int.ediv_nonneg hp h.le
  unfold output
  omega

theorem output_pos (hx : 0 ≤ x) (hy : 0 < y) (ha : 0 < a) : 0 < output x y a := by
  have h : x * y / (x + a) < y := by
    rw [Int.ediv_lt_iff_lt_mul (by omega)]
    nlinarith
  unfold output
  omega

theorem output_le_iff (r : ℤ) (h : 0 < x + a) :
    output x y a ≤ r ↔ (y - r) * (x + a) ≤ x * y := by
  rw [← Int.le_ediv_iff_mul_le h]
  unfold output
  constructor <;> intro <;> omega

theorem output_le_iff_mul_le (r : ℤ) (h : 0 < x + a) :
    output x y a ≤ r ↔ (y - r) * a ≤ r * x := by
  rw [output_le_iff r h]
  constructor <;> intro <;> nlinarith

theorem output_lt_iff (h : 0 < x + a) : output x y a < y ↔ x + a ≤ x * y := by
  have hq : 1 ≤ x * y / (x + a) ↔ 1 * (x + a) ≤ x * y := Int.le_ediv_iff_mul_le h
  rw [one_mul] at hq
  rw [← hq]
  unfold output
  constructor <;> intro <;> omega

/-! ## The payout as a ceiling -/

theorem remainder_nonneg (h : 0 < x + a) : 0 ≤ remainder x y a := Int.emod_nonneg _ h.ne'

theorem remainder_lt (h : 0 < x + a) : remainder x y a < x + a := Int.emod_lt_of_pos _ h

theorem remainder_eq_zero_iff : remainder x y a = 0 ↔ x + a ∣ x * y :=
  Int.dvd_iff_emod_eq_zero.symm

theorem output_mul (x y a : ℤ) : output x y a * (x + a) = y * a + remainder x y a := by
  linear_combination -product_after x y a

theorem output_isLeast (h : 0 < x + a) :
    IsLeast {n | (y - n) * (x + a) ≤ x * y} (output x y a) :=
  ⟨(output_le_iff _ h).mp le_rfl, fun n fits => (output_le_iff n h).mpr fits⟩

theorem exact_le_output (h : 0 < x + a) : (y * a : ℚ) / (x + a) ≤ output x y a := by
  have positive : (0 : ℚ) < x + a := by exact_mod_cast h
  have rounded : y * a ≤ output x y a * (x + a) := by
    rw [output_mul]
    exact le_add_of_nonneg_right (remainder_nonneg h)
  rw [div_le_iff₀ positive]
  exact_mod_cast rounded

theorem output_lt_exact_add_one (h : 0 < x + a) :
    (output x y a : ℚ) < (y * a : ℚ) / (x + a) + 1 := by
  have positive : (0 : ℚ) < x + a := by exact_mod_cast h
  have rounded : output x y a * (x + a) < y * a + (x + a) := by
    rw [output_mul]
    exact add_lt_add_right (remainder_lt h) _
  rw [div_add_one positive.ne', lt_div_iff₀ positive]
  exact_mod_cast rounded

theorem output_eq_ceil (h : 0 < x + a) : output x y a = ⌈(y * a : ℚ) / (x + a)⌉ := by
  symm
  rw [Int.ceil_eq_iff]
  exact ⟨sub_lt_iff_lt_add.mpr (output_lt_exact_add_one h), exact_le_output h⟩

theorem output_le_exact_iff (h : 0 < x + a) :
    (output x y a : ℚ) ≤ (y * a : ℚ) / (x + a) ↔ x + a ∣ x * y := by
  have positive : (0 : ℚ) < x + a := by exact_mod_cast h
  have rounded := remainder_nonneg (y := y) h
  rw [← remainder_eq_zero_iff, le_div_iff₀ positive]
  norm_cast
  rw [output_mul]
  omega

/-- A larger trade and a fuller reserve to be paid from yield more, a fuller paying side less. -/
theorem output_mono {x' y' a' : ℤ} (hx : 0 ≤ x') (hy : 0 ≤ y) (ha : 0 < a) (less_in : x' ≤ x)
    (more_out : y ≤ y') (more : a ≤ a') : output x y a ≤ output x' y' a' := by
  have before : 0 < x + a := by omega
  have after : 0 < x' + a' := by omega
  have within : output x' y' a' ≤ y' :=
    output_le after (mul_nonneg hx (hy.trans more_out))
  have nonneg : 0 ≤ output x' y' a' := by
    have covers := (output_le_iff_mul_le (output x' y' a') after).mp le_rfl
    by_contra negative
    nlinarith
  have covers := (output_le_iff_mul_le (output x' y' a') after).mp le_rfl
  rw [output_le_iff_mul_le _ before]
  nlinarith [mul_le_mul_of_nonneg_left more (sub_nonneg.mpr within),
    mul_le_mul_of_nonneg_left less_in nonneg, mul_le_mul_of_nonneg_right more_out ha.le]

/-- Two trades of `a` and `b` against one of `c`: the first remainder, and the quotient once for each
unit by which the two put more into the reserve, must fit in the remainder of the one. -/
theorem output_split_le_iff {b c : ℤ} (split : 0 < x + a + b) :
    output x y a + output (x + a) (y - output x y a) b ≤ output x y c ↔
      remainder x y a + (a + b - c) * (x * y / (x + c)) ≤ remainder x y c := by
  have whole := Int.mul_ediv_add_emod (x * y) (x + c)
  have rest : output x y a + output (x + a) (y - output x y a) b =
      y - (x * y - remainder x y a) / (x + a + b) := by
    rw [← product_after x y a]
    unfold output
    ring
  have fits := Int.le_ediv_iff_mul_le (a := x * y / (x + c)) (b := x * y - remainder x y a) split
  rw [rest, output, sub_le_sub_iff_left, fits]
  unfold remainder at *
  constructor <;> intro <;> linarith

/-! ## Margins -/

/-- What the reserves `x` and `y` are worth beyond the position `(m, t)`: `m` and `t` are what the
traders have taken out of each side, in net. -/
def margin (x y m t : ℤ) : ℤ := x * y - (x + m) * (y + t)

theorem margin_comm (x y m t : ℤ) : margin x y m t = margin y x t m := by
  unfold margin
  ring

theorem margin_trade (x y m t gross net : ℤ) :
    margin (x + net) (y - output x y net) (m - gross) (t + output x y net) =
      margin x y m t - remainder x y net + (gross - net) * (y + t) := by
  have h := product_after x y net
  unfold margin
  linear_combination h

theorem not_ahead {m t : ℤ} (hm : 0 ≤ margin x y m t) (hx : 0 ≤ x) (ht : 0 ≤ t)
    (hv : 0 < y + t) : m ≤ 0 := by
  unfold margin at hm
  by_contra h
  nlinarith [mul_pos (not_le.mp h) hv, mul_nonneg hx ht]

theorem ahead_iff_of_flat {m : ℤ} (hy : 0 < y) : m ≤ 0 ↔ 0 ≤ margin x y m 0 := by
  have h : margin x y m 0 = -(m * y) := by unfold margin; ring
  rw [h]
  constructor
  · intro hm; nlinarith
  · intro hm; nlinarith

/-- With a margin of at least zero the traders can sell any part of `t` back for what they paid. -/
theorem exit_covered {m t b : ℤ} (hm : 0 ≤ margin x y m t) (hp : 0 ≤ x * y) (hyb : 0 < y + b)
    (hb : b ≤ t) : output y x b ≤ -m := by
  rw [output_le_iff _ hyb]
  unfold margin at hm
  by_cases hs : 0 ≤ x + m
  · nlinarith [mul_le_mul_of_nonneg_left hb hs]
  · nlinarith [mul_pos (neg_pos.mpr (not_le.mp hs)) hyb]

end Fandomchain.Library
