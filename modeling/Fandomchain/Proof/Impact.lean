import Fandomchain.Library.Rounding
import Fandomchain.Proof.Estimates
import Fandomchain.Proof.Price

/-!
# The reported price impact

An estimate reads the impact off two prices that were printed with six decimals. In millionths the
printed price is the nearest integer. Of a price of few millionths the print keeps few digits, so a
small change is not seen at all and a larger one is seen as whole millionths.
-/

namespace Fandomchain.Proof
open Fandomchain.Library Fandomchain.Tokenfactory

variable {β α : Type} {k : Keeper β α}

/-! ## Printed prices -/

theorem formatF6_eq (q : ℚ) : formatF6 q = ⟨6, nearest (q * 10 ^ 6)⟩ := rfl

theorem getPrice_printed {d : Denom} {price : Decimal} (h : getPrice d = .ok price) :
    price = ⟨6, nearest (1000 * priceRatio d)⟩ := by
  have fandom : (fandomchainDecimals.toInt : ℚ) = 10 ^ 9 := by
    rw [show fandomchainDecimals.toInt = 10 ^ 9 by decide]
    norm_num
  have tokens : (tokenDecimals.toInt : ℚ) = 10 ^ 6 := by
    rw [show tokenDecimals.toInt = 10 ^ 6 by decide]
    norm_num
  unfold getPrice at h
  split_ifs at h
  cases h
  rw [formatF6_eq, fandom, tokens]
  unfold priceRatio
  congr 2
  ring

theorem ite_neg_eq_abs (q : ℚ) : (if q < 0 then -q else q) = |q| := by
  split_ifs with negative
  · exact (abs_of_neg negative).symm
  · exact (abs_of_nonneg (not_lt.mp negative)).symm

theorem printed_change {m m' : ℚ} (positive : 0 < m) :
    |m' / 10 ^ 6 - m / 10 ^ 6| / (m / 10 ^ 6) * 100 * 10 ^ 6 = 10 ^ 8 * (|m' - m| / m) := by
  have scale : |(10 : ℚ) ^ 6| = 10 ^ 6 := abs_of_pos (by norm_num)
  rw [← sub_div, abs_div, scale]
  field_simp
  norm_num

theorem printed_impact (m m' : ℤ) : (calculatePriceImpact ⟨6, m⟩ ⟨6, m'⟩).toRat =
    if m ≤ 0 then 0 else (nearest (10 ^ 8 * (|(m' : ℚ) - m| / m)) : ℚ) / 10 ^ 6 := by
  unfold calculatePriceImpact Decimal.toRat
  dsimp only
  by_cases low : m ≤ 0
  · have low_price : (m : ℚ) / 10 ^ 6 ≤ 0 := by
      apply div_nonpos_of_nonpos_of_nonneg
      · exact_mod_cast low
      · norm_num
    rw [if_pos low, if_pos low_price]
    norm_num
  · have positive : (0 : ℚ) < m := by exact_mod_cast not_le.mp low
    have price : ¬(m : ℚ) / 10 ^ 6 ≤ 0 := not_le.mpr (div_pos positive (by norm_num))
    rw [if_neg low, if_neg price, ite_neg_eq_abs, formatF6_eq, printed_change positive]

/-- A hundredth of a percentage point is `10000` of the units that an impact is printed in. -/
theorem printed_close_iff (n t : ℚ) :
    |n / 10 ^ 6 - 100 * t| ≤ 1 / 100 ↔ |n - 10 ^ 8 * t| ≤ 10000 := by
  have scale : |(10 : ℚ) ^ 6| = 10 ^ 6 := abs_of_pos (by norm_num)
  have common : n / 10 ^ 6 - 100 * t = (n - 10 ^ 8 * t) / 10 ^ 6 := by ring
  rw [common, abs_div, scale, div_le_iff₀ (by norm_num)]
  norm_num

def ReportedClose (m m' : ℚ) : Prop :=
  |(calculatePriceImpact ⟨6, nearest m⟩ ⟨6, nearest m'⟩).toRat - 100 * (|m' - m| / m)| ≤ 1 / 100

theorem reportedClose_of_unprinted {m m' : ℚ} (positive : 0 < m)
    (unprinted : nearest m ≤ 0 ∨ nearest m' = nearest m) :
    ReportedClose m m' ↔ |m' - m| ≤ m / 10000 := by
  have silent : (calculatePriceImpact ⟨6, nearest m⟩ ⟨6, nearest m'⟩).toRat = 0 / 10 ^ 6 := by
    rw [printed_impact, zero_div]
    rcases unprinted with low | same
    · exact if_pos low
    · split
      · rfl
      · rw [same, sub_self, abs_zero, zero_div, mul_zero,
          nearest_eq_of_abs_sub_lt (q := (0 : ℚ)) (n := 0) (by norm_num)]
        norm_num
  unfold ReportedClose
  rw [silent, printed_close_iff, zero_sub, abs_neg, abs_of_nonneg (by positivity), ← mul_div_assoc,
    div_le_iff₀ positive]
  constructor <;> intro <;> linarith

theorem reportedClose_of_printed {m m' : ℚ} (positive : 0 < m) (rounded : 0 < nearest m) :
    ReportedClose m m' ↔
      |(nearest (10 ^ 8 * (|m' - m| / m + drift m m')) : ℚ) - 10 ^ 8 * (|m' - m| / m)| ≤ 10000 := by
  unfold ReportedClose
  rw [printed_impact, if_neg (not_le.mpr rounded), relativeChange_nearest positive rounded,
    printed_close_iff]

theorem scaled_drift (t x : ℚ) : |10 ^ 8 * (t + x) - 10 ^ 8 * t| = 10 ^ 8 * |x| := by
  rw [← mul_sub, add_sub_cancel_left, abs_mul, abs_of_pos (by norm_num)]

theorem ReportedClose.drift_le {m m' : ℚ} (close : ReportedClose m m') (positive : 0 < m)
    (rounded : 0 < nearest m) : |drift m m'| ≤ 1 / 10 ^ 4 + 5 / 10 ^ 9 := by
  have before := abs_sub_le_of_nearest ((reportedClose_of_printed positive rounded).mp close)
  rw [scaled_drift] at before
  linarith

theorem reportedClose_of_drift_le {m m' : ℚ} (positive : 0 < m) (rounded : 0 < nearest m)
    (small : |drift m m'| ≤ 1 / 10 ^ 4 - 5 / 10 ^ 9) : ReportedClose m m' := by
  apply (reportedClose_of_printed positive rounded).mpr
  apply abs_nearest_sub_le
  rw [scaled_drift]
  linarith

/-! ## Prices and their decimals -/

/-- No change from `m` to `m'` can be read off their decimals. -/
def Unseen (m m' : ℚ) : Prop := m ≤ 1 / 2 ∨ ∃ n : ℤ, |m - n| < 1 / 2 ∧ |m' - n| < 1 / 2

/-- The two prices are so large, or so close to their decimals, that rounding them costs little. -/
def Fine (m m' : ℚ) : Prop :=
  1 / 2 < m ∧ m * gap m' + |m'| * gap m ≤ m * (m - gap m) * (1 / 10 ^ 4 - 5 / 10 ^ 9)

def ImpactShown (m m' : ℚ) : Prop := Unseen m m' ∧ |m' - m| ≤ m / 10000 ∨ Fine m m'

theorem nearest_nonpos {m : ℚ} (low : m ≤ 1 / 2) : nearest m ≤ 0 := by
  apply nearest_le_iff.mpr
  rcases low.lt_or_eq with below | tie
  · exact .inl (by push_cast; linarith)
  · exact .inr ⟨by push_cast; linarith, rfl⟩

theorem nearest_pos {m : ℚ} (high : 1 / 2 < m) : 0 < nearest m := by
  apply Int.lt_of_add_one_le
  exact le_nearest_iff.mpr (.inl (by push_cast; linarith))

theorem Unseen.unprinted {m m' : ℚ} (unseen : Unseen m m') :
    nearest m ≤ 0 ∨ nearest m' = nearest m := by
  rcases unseen with low | ⟨n, close, close'⟩
  · exact .inl (nearest_nonpos low)
  · right
    rw [nearest_eq_of_abs_sub_lt close, nearest_eq_of_abs_sub_lt close']

theorem Fine.close {m m' : ℚ} (fine : Fine m m') : ReportedClose m m' := by
  obtain ⟨high, covered⟩ := fine
  have positive : 0 < m := by linarith
  have rounded := nearest_pos high
  exact reportedClose_of_drift_le positive rounded
    (abs_drift_le positive rounded (by norm_num) ((abs_crossError_le positive).trans covered))

theorem fine_of_large {m m' : ℚ} (positive : 0 < m)
    (large : m + |m'| ≤ 2 * m * (m - 1 / 2) * (1 / 10 ^ 4 - 5 / 10 ^ 9)) : Fine m m' := by
  have nonneg := abs_nonneg m'
  have high : 1 / 2 < m := by
    by_contra low
    have short : m - 1 / 2 ≤ 0 := sub_nonpos.mpr (not_lt.mp low)
    have no_room : m * (m - 1 / 2) ≤ 0 := mul_nonpos_of_nonneg_of_nonpos positive.le short
    linarith
  refine ⟨high, ?_⟩
  calc m * gap m' + |m'| * gap m
      ≤ m * (1 / 2) + |m'| * (1 / 2) := by
        gcongr
        · exact gap_le_half m'
        · exact gap_le_half m
    _ ≤ m * (m - 1 / 2) * (1 / 10 ^ 4 - 5 / 10 ^ 9) := by linarith
    _ ≤ m * (m - gap m) * (1 / 10 ^ 4 - 5 / 10 ^ 9) := by
        gcongr
        exact gap_le_half m

theorem ReportedClose.small_or_visible {m m' : ℚ} (close : ReportedClose m m') (positive : 0 < m) :
    |m' - m| ≤ m / 10000 ∨ m / (m + 1 / 2) ≤ |m' - m| + m * (1 / 10 ^ 4 + 5 / 10 ^ 9) := by
  by_cases unprinted : nearest m ≤ 0 ∨ nearest m' = nearest m
  · exact .inl ((reportedClose_of_unprinted positive unprinted).mp close)
  · right
    obtain ⟨high, differ⟩ := not_or.mp unprinted
    have rounded := not_le.mp high
    have cast : (0 : ℚ) < nearest m := by exact_mod_cast rounded
    have whole : (1 : ℚ) ≤ |(nearest m' : ℚ) - nearest m| := by
      exact_mod_cast Int.one_le_abs (sub_ne_zero.mpr differ)
    have near := nearest_le_add_gap m
    have half := gap_le_half m
    have drifted := (le_abs_self _).trans (close.drift_le positive rounded)
    have unit : 1 / (m + 1 / 2) ≤ |m' - m| / m + (1 / 10 ^ 4 + 5 / 10 ^ 9) :=
      calc 1 / (m + 1 / 2)
          ≤ |(nearest m' : ℚ) - nearest m| / nearest m := by
            gcongr
            linarith
        _ = |m' - m| / m + drift m m' := relativeChange_nearest positive rounded
        _ ≤ |m' - m| / m + (1 / 10 ^ 4 + 5 / 10 ^ 9) := by linarith
    calc m / (m + 1 / 2)
        = m * (1 / (m + 1 / 2)) := by ring
      _ ≤ m * (|m' - m| / m + (1 / 10 ^ 4 + 5 / 10 ^ 9)) := by gcongr
      _ = |m' - m| + m * (1 / 10 ^ 4 + 5 / 10 ^ 9) := by field_simp

/-- What the prices before and after a simulated trade, in millionths, decide about the report. -/
structure ImpactAccuracy (m m' : ℚ) (accurate : Prop) : Prop where
  shown : ImpactShown m m' → accurate
  large : m + |m'| ≤ 2 * m * (m - 1 / 2) * (1 / 10 ^ 4 - 5 / 10 ^ 9) → accurate
  unseen : Unseen m m' → accurate → ImpactShown m m'
  apart : 1 / 2 < m → RoundedApart m m' → accurate →
    m * gap m' + m' * gap m ≤ m * (m + gap m) * (1 / 10 ^ 4 + 5 / 10 ^ 9)
  alike : 1 / 2 < m → RoundedAlike m m' →
    (|m * gap m' - m' * gap m| ≤ m * (m - gap m) * (1 / 10 ^ 4 - 5 / 10 ^ 9) → accurate) ∧
    (accurate → |m * gap m' - m' * gap m| ≤ m * (m + gap m) * (1 / 10 ^ 4 + 5 / 10 ^ 9))
  visible : accurate →
    |m' - m| ≤ m / 10000 ∨ m / (m + 1 / 2) ≤ |m' - m| + m * (1 / 10 ^ 4 + 5 / 10 ^ 9)

theorem reportedClose_accuracy {m m' : ℚ} (positive : 0 < m) :
    ImpactAccuracy m m' (ReportedClose m m') where
  shown := by
    rintro (⟨unseen, small⟩ | fine)
    · exact (reportedClose_of_unprinted positive unseen.unprinted).mpr small
    · exact fine.close
  large := fun large => (fine_of_large positive large).close
  unseen := fun unseen close =>
    .inl ⟨unseen, (reportedClose_of_unprinted positive unseen.unprinted).mp close⟩
  apart := by
    intro high apart close
    have rounded := nearest_pos high
    have drifted := close.drift_le positive rounded
    exact (le_abs_crossError apart).trans
      (abs_crossError_le_of_drift positive rounded (by norm_num) drifted)
  alike := by
    intro high alike
    have rounded := nearest_pos high
    rw [← abs_crossError_of_alike alike]
    refine ⟨fun covered => ?_, fun close => ?_⟩
    · exact reportedClose_of_drift_le positive rounded
        (abs_drift_le positive rounded (by norm_num) covered)
    · exact abs_crossError_le_of_drift positive rounded (by norm_num)
        (close.drift_le positive rounded)
  visible := fun close => close.small_or_visible positive

/-! ## Estimates -/

def priceAfter (side : Side) (d : Denom) (amount : Int64) : ℚ :=
  let reserveIn : ℤ := (side.virtualIn d + (side.applyFee amount).1).toInt
  let reserveOut : ℤ := (side.virtualIn d).toInt * (side.virtualOut d).toInt /
    ((side.virtualIn d).toInt + (side.applyFee amount).1.toInt)
  match side with
  | .buy => reserveIn / reserveOut
  | .sell => reserveOut / reserveIn

theorem Priced.priceRatio_simulate {side : Side} {d : Denom} {amount n : Int64}
    (h : Priced side d amount n) :
    priceRatio (side.simulate d (side.applyFee amount).1 n) = priceAfter side d amount := by
  have left : (side.virtualOut d - n).toInt = (side.virtualIn d).toInt * (side.virtualOut d).toInt /
      ((side.virtualIn d).toInt + (side.applyFee amount).1.toInt) := by
    rw [toInt_sub_of_le h.out_pos.le h.out_le, h.out]
    exact sub_sub_cancel _ _
  unfold priceAfter
  rw [← left]
  cases side <;> rfl

theorem estimate_impact {s : Chain β} {side : Side} {name : String} {amount n : Int64}
    {impact : Decimal} {d : Denom} (found : s.denom[name]? = some d)
    (estimated : estimate k s side name amount = .ok (n, impact)) :
    Priced side d amount n ∧
      impact = calculatePriceImpact ⟨6, nearest (1000 * priceRatio d)⟩
        ⟨6, nearest (1000 * priceRatio (side.simulate d (side.applyFee amount).1 n))⟩ := by
  simp only [estimate, bind_eq_ok, wrapping_eq_ok, plain_eq_ok, failIf_eq_ok, getDenom_eq_ok,
    pure_eq_ok, Prod.mk.injEq] at estimated
  obtain ⟨e, held, _, _, out, calculated, old, hold, new, hnew, rfl, rfl⟩ := estimated
  obtain rfl : e = d := Option.some.inj (held.symm.trans found)
  refine ⟨priced_iff.mpr calculated, ?_⟩
  rw [getPrice_printed hold, getPrice_printed hnew]

def AccurateImpact (d d' : Denom) (impact : Decimal) : Prop :=
  |impact.toRat - 100 * |priceRatio d' - priceRatio d| / priceRatio d| ≤ 1 / 100

theorem estimate_accuracy {s : Chain β} {side : Side} {name : String} {amount n : Int64}
    {impact : Decimal} {d : Denom} (found : s.denom[name]? = some d)
    (estimated : estimate k s side name amount = .ok (n, impact)) :
    ImpactAccuracy (1000 * priceRatio d) (1000 * priceAfter side d amount)
      (AccurateImpact d (side.simulate d (side.applyFee amount).1 n) impact) := by
  obtain ⟨priced, rfl⟩ := estimate_impact found estimated
  have positive : 0 < priceRatio d := by
    have tradable := (tradable_iff side d).mpr ⟨priced.virtualIn_pos, priced.virtualOut_pos⟩
    apply div_pos
    · exact_mod_cast tradable.fandom
    · exact_mod_cast tradable.tokens
  have scaled : ∀ p : ℚ, |1000 * p - 1000 * priceRatio d| / (1000 * priceRatio d) =
      |p - priceRatio d| / priceRatio d := by
    intro p
    have thousand : |(1000 : ℚ)| = 1000 := abs_of_pos (by norm_num)
    rw [← mul_sub, abs_mul, thousand]
    exact mul_div_mul_left _ _ (by norm_num)
  have accuracy : ImpactAccuracy _ (1000 * priceAfter side d amount) _ :=
    reportedClose_accuracy (mul_pos (show (0 : ℚ) < 1000 by norm_num) positive)
  unfold AccurateImpact
  unfold ReportedClose at accuracy
  rw [scaled] at accuracy
  rw [priced.priceRatio_simulate, mul_div_assoc]
  exact accuracy

/-- When the impact that an estimate reports is the true one, up to `0.01` percentage points: what
the reserves and the amount say is enough for it, and what they say it needs. -/
theorem impact_accuracy {s : Chain β} {name : String} {d : Denom} (found : s.denom[name]? = some d)
    (amount : Int64) :
    (∀ response, estimateBuy k s (some ⟨name, amount⟩) = .ok response →
      ImpactAccuracy (1000 * priceRatio d) (1000 * priceAfter .buy d amount)
        (AccurateImpact d (Side.buy.simulate d (applyBuyFee amount).1 response.tokensOut)
          response.priceImpact)) ∧
    (∀ response, estimateSell k s (some ⟨name, amount⟩) = .ok response →
      ImpactAccuracy (1000 * priceRatio d) (1000 * priceAfter .sell d amount)
        (AccurateImpact d (Side.sell.simulate d (applySellFee amount).1 response.fandomOut)
          response.priceImpact)) := by
  constructor
  · intro response estimated
    exact estimate_accuracy found (estimateBuy_eq_ok.mp estimated)
  · intro response estimated
    exact estimate_accuracy found (estimateSell_eq_ok.mp estimated)

instance (d d' : Denom) (impact : Decimal) : Decidable (AccurateImpact d d' impact) :=
  inferInstanceAs (Decidable (_ ≤ _))

instance (m m' : ℚ) : Decidable (Fine m m') := inferInstanceAs (Decidable (_ ∧ _))

theorem fourfold_price_accurate :
    (∃ response, estimateBuy Ledger.keeper newMarket (some ⟨"rose", 30303030303⟩) = .ok response ∧
      AccurateImpact newRose (Side.buy.simulate newRose (applyBuyFee 30303030303).1
        response.tokensOut) response.priceImpact) ∧
    ∃ response, estimateBuy Ledger.keeper newMarket (some ⟨"rose", 1000000⟩) = .ok response ∧
      AccurateImpact newRose (Side.buy.simulate newRose (applyBuyFee 1000000).1
        response.tokensOut) response.priceImpact := by
  have found : newMarket.denom["rose"]? = some newRose := by decide +kernel
  have fourfold : estimateBuy Ledger.keeper newMarket (some ⟨"rose", 30303030303⟩) =
      .ok ⟨500000000000, ⟨6, 300000000⟩⟩ := by decide +kernel
  have small : estimateBuy Ledger.keeper newMarket (some ⟨"rose", 1000000⟩) =
      .ok ⟨32998912, ⟨6, 0⟩⟩ := by decide +kernel
  refine ⟨⟨_, fourfold, ?_⟩, _, small, ?_⟩
  · exact ((impact_accuracy found 30303030303).1 _ fourfold).shown (.inr (by decide +kernel))
  · exact ((impact_accuracy found 1000000).1 _ small).shown
      (.inl ⟨.inr ⟨30, by decide +kernel⟩, by decide +kernel⟩)

/-- A buy that moves the price by more than a percent, with both prices printed as `0.000030`. -/
theorem small_impact_unseen :
    Reached Ledger.keeper newMarket ∧ newMarket.denom["rose"]? = some newRose ∧
      estimateBuy Ledger.keeper newMarket (some ⟨"rose", 200000000⟩) =
        .ok ⟨6556725611, ⟨6, 0⟩⟩ ∧
      ¬AccurateImpact newRose (Side.buy.simulate newRose (applyBuyFee 200000000).1 6556725611)
        ⟨6, 0⟩ :=
  ⟨newMarket_reached, by decide +kernel, by decide +kernel, by decide +kernel⟩

end Fandomchain.Proof
