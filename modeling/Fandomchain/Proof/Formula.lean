import Fandomchain.Proof.Positive

/-!
# What the formulas compute

A trade that passes validation is always priced, and its price is the exact amount of the curve
rounded up. The product of the virtual reserves pays for the rounding.
-/

namespace Fandomchain.Proof
open Fandomchain.Library Fandomchain.Tokenfactory

variable {β α : Type} {k : Keeper β α}

/-- `n` is the exact amount of the curve for `x`, `y` and the net amount `a`, rounded up. -/
structure CeilingPayout (x y a n : ℤ) : Prop where
  least : IsLeast {n | 1 ≤ n ∧ (y - n) * (x + a) ≤ x * y} n
  ceil : n = ⌈(y * a : ℚ) / (x + a)⌉
  range : n ∈ Set.Icc 1 y
  close : (n : ℚ) < (y * a : ℚ) / (x + a) + 1

theorem output_ceilingPayout {x y a : ℤ} (hx : 0 < x) (hy : 0 < y) (ha : 0 < a) :
    CeilingPayout x y a (output x y a) := by
  have filled : 0 < x + a := add_pos hx ha
  have positive := output_pos hx.le hy ha
  have least := output_isLeast (y := y) filled
  exact
    { least := ⟨⟨positive, least.1⟩, fun n fits => least.2 fits.2⟩
      ceil := output_eq_ceil filled
      range := ⟨positive, output_le filled (mul_pos hx hy).le⟩
      close := output_lt_exact_add_one filled }

theorem Side.payout_of_valid {side : Side} {d : Denom} {amount : Int64}
    (valid : validateTrade d amount side.isBuy = .ok ()) :
    1 ≤ (side.applyFee amount).1.toInt ∧
      ∃ n, side.calculateOut (side.virtualIn d) (side.virtualOut d) (side.applyFee amount).1 = .ok n ∧
        CeilingPayout (side.virtualIn d).toInt (side.virtualOut d).toInt
          (side.applyFee amount).1.toInt n.toInt := by
  obtain ⟨-, amount_pos, -, in_pos, out_pos⟩ := Side.validateTrade_eq_ok.mp valid
  have net_pos := side.afterFee_pos_iff.mpr amount_pos
  obtain ⟨n, priced⟩ := side.exists_calculateOut in_pos out_pos net_pos
  refine ⟨net_pos, n, priced, ?_⟩
  rw [(Side.calculateOut_eq_ok.mp priced).2.2.2]
  exact output_ceilingPayout in_pos out_pos net_pos

theorem calculateOut_mono {label : String} {x y a x' y' a' n n' : Int64} (less_in : x' ≤ x)
    (more_out : y ≤ y') (more : a ≤ a') (before : calculateOut label x y a = .ok n)
    (after : calculateOut label x' y' a' = .ok n') : n ≤ n' := by
  rw [Int64.le_iff_toInt_le] at *
  obtain ⟨-, hy, ha, priced⟩ := calculateOut_eq_ok.mp before
  obtain ⟨hx', -, -, priced'⟩ := calculateOut_eq_ok.mp after
  rw [priced, priced']
  exact output_mono hx'.le hy.le ha less_in more_out more

/-! ## The product of the virtual reserves -/

def product (d : Denom) : ℤ := d.virtualTokenReserves.toInt * d.virtualFandomReserves.toInt

theorem product_side (side : Side) (d : Denom) :
    product d = (side.virtualIn d).toInt * (side.virtualOut d).toInt := by
  cases side with
  | buy => exact mul_comm _ _
  | sell => rfl

/-- What the reserve on the paying side comes to with the net amount, before it is stored. -/
def filled (side : Side) (d : Denom) (amount : ℤ) : ℤ :=
  (side.virtualIn d).toInt + (amount - amount / 100)

section Quoted

variable {o : Order} {s : Chain β} {q : Quote α}

theorem Quoted.filled_eq (h : Quoted k o s q) :
    filled o.side q.denom o.amount.toInt =
      (o.side.virtualIn q.denom).toInt + q.afterFee.toInt := by
  unfold filled
  rw [h.afterFee_toInt]

theorem Quoted.filled_pos (h : Quoted k o s q) :
    0 < (o.side.virtualIn q.denom).toInt + q.afterFee.toInt :=
  add_pos h.virtualIn_pos h.afterFee_pos

theorem Quoted.virtualOut_after (h : Quoted k o s q) :
    (o.side.virtualOut q.denom - q.out).toInt = (o.side.virtualOut q.denom).toInt - q.out.toInt :=
  toInt_sub_of_le h.out_pos.le h.out_le

theorem Quoted.product_update (h : Quoted k o s q)
    (fits : filled o.side q.denom o.amount.toInt < 2 ^ 63) :
    product (o.side.update q.denom o.amount q.afterFee q.out) = product q.denom -
      remainder (o.side.virtualIn q.denom).toInt (o.side.virtualOut q.denom).toInt
        q.afterFee.toInt := by
  rw [h.filled_eq] at fits
  have positive := h.filled_pos
  rw [product_side o.side, product_side o.side, Side.virtualIn_update, Side.virtualOut_update,
    toInt_add_exact (by omega) fits, h.virtualOut_after, h.out, product_after]

theorem Quoted.product_wrapped (h : Quoted k o s q)
    (wraps : ¬filled o.side q.denom o.amount.toInt < 2 ^ 63) :
    (o.side.virtualIn (o.side.update q.denom o.amount q.afterFee q.out)).toInt < 0 ∧
      product (o.side.update q.denom o.amount q.afterFee q.out) ≤ 0 := by
  rw [h.filled_eq] at wraps
  have below := (o.side.virtualIn q.denom).toInt_lt
  have net_below := q.afterFee.toInt_lt
  have negative : (o.side.virtualIn q.denom + q.afterFee).toInt < 0 := by
    rw [toInt_add_wrapped h.afterFee_pos.le (by omega)]
    omega
  rw [product_side o.side, Side.virtualIn_update, Side.virtualOut_update, h.virtualOut_after]
  exact ⟨negative, mul_nonpos_of_nonpos_of_nonneg negative.le (sub_nonneg.mpr h.out_le)⟩

theorem Quoted.product_pos (h : Quoted k o s q) : 0 < product q.denom := by
  rw [product_side o.side]
  exact mul_pos h.virtualIn_pos h.virtualOut_pos

end Quoted

structure Rewrites (o : Order) (s s' : Chain β) (d d' : Denom) : Prop where
  found : s.denom[o.denom]? = some d
  stored : s'.denom[d.denom]? = some d'

theorem Traded.rewrites {o : Order} {q : Quote α} {s s' : Chain β} (h : Traded k o q s s') :
    Rewrites o s s' q.denom (o.side.update q.denom o.amount q.afterFee q.out) :=
  ⟨h.quoted.found, h.record⟩

/-- When an accepted trade keeps the product, and when its payout is at most the exact one. -/
theorem product_kept_iff {o : Order} {s s' : Chain β} {n : Int64}
    (accepted : (tradeWithBondingCurve k o).run s = .ok n s') :
    ∃ d d', Rewrites o s s' d d' ∧
      (product d ≤ product d' ↔ filled o.side d o.amount.toInt < 2 ^ 63 ∧
        filled o.side d o.amount.toInt ∣ product d) ∧
      ((n.toInt : ℚ) ≤ (o.side.virtualOut d).toInt * (o.amount.toInt - o.amount.toInt / 100 : ℤ) /
          filled o.side d o.amount.toInt ↔ filled o.side d o.amount.toInt ∣ product d) := by
  obtain ⟨q, traded, rfl⟩ := trade_eq_ok.mp accepted
  have quoted := traded.quoted
  have positive := quoted.filled_pos
  refine ⟨_, _, traded.rewrites, ?_, ?_⟩
  · by_cases fits : filled o.side q.denom o.amount.toInt < 2 ^ 63
    · have rounded := remainder_nonneg (y := (o.side.virtualOut q.denom).toInt) positive
      rw [quoted.product_update fits, quoted.filled_eq, product_side o.side q.denom,
        ← remainder_eq_zero_iff]
      rw [quoted.filled_eq] at fits
      constructor
      · intro kept
        exact ⟨fits, by omega⟩
      · intro ⟨_, exact⟩
        rw [exact, sub_zero]
    · have fallen := (quoted.product_wrapped fits).2
      have before := quoted.product_pos
      constructor
      · intro kept
        omega
      · intro ⟨fitting, _⟩
        exact absurd fitting fits
  · rw [quoted.filled_eq, product_side o.side, ← quoted.afterFee_toInt, quoted.out]
    exact_mod_cast output_le_exact_iff positive

def newRose : Denom := newDenom ⟨"bob", "rose", "", "", ""⟩

theorem dividing_buy_keeps :
    ∃ d d', Rewrites ⟨.buy, "alice", "rose", 10101010101, 0⟩ newMarket
        (step Ledger.keeper newMarket (buying "alice" "rose" 10101010101)) d d' ∧
      product d ≤ product d' := by
  have order : (buying "alice" "rose" 10101010101).order? =
      some ⟨.buy, "alice", "rose", 10101010101, 0⟩ := rfl
  obtain ⟨q, traded⟩ := step_accepted (k := Ledger.keeper) (s := newMarket) order (by decide +kernel)
  obtain ⟨d, d', rewrites, kept, -⟩ := product_kept_iff (trade_eq_ok.mpr ⟨q, traded, rfl⟩)
  obtain rfl := newMarket_rose rewrites.found
  exact ⟨_, d', rewrites, kept.mpr (by decide)⟩

/-- At a price of just over 33 tokens the buyer of one coin gets 34. -/
theorem product_falls :
    newMarket.denom["rose"]? = some newRose ∧
      accepts (buyWithBondingCurve Ledger.keeper ⟨"alice", "rose", 1, 0⟩) newMarket ∧
      ∃ d', (step Ledger.keeper newMarket (buying "alice" "rose" 1)).denom["rose"]? = some d' ∧
        product d' < product newRose := by
  have falls : ((step Ledger.keeper newMarket (buying "alice" "rose" 1)).denom["rose"]?.any
      fun d' => product d' < product newRose) = true := by
    decide +kernel
  obtain ⟨d', stored, less⟩ := Option.any_eq_true _ _ |>.mp falls
  exact ⟨by decide +kernel, by decide +kernel, d', stored, of_decide_eq_true less⟩

/-! ## After validation -/

/-- Every validated trade is priced by the exact amount rounded up, and of an accepted one the
product loses less than the new reserve, as long as that fits its field. -/
theorem formulas_after_validation (k : Keeper β α) :
    (∀ (d : Denom) (amount : Int64), validateTrade d amount true = .ok () →
      1 ≤ (applyBuyFee amount).1.toInt ∧
        ∃ n, calculateTokensOut d.virtualFandomReserves d.virtualTokenReserves
            (applyBuyFee amount).1 = .ok n ∧
          CeilingPayout d.virtualFandomReserves.toInt d.virtualTokenReserves.toInt
            (applyBuyFee amount).1.toInt n.toInt) ∧
    (∀ (d : Denom) (amount : Int64), validateTrade d amount false = .ok () →
      1 ≤ (applySellFee amount).1.toInt ∧
        ∃ n, calculateFandomOut d.virtualTokenReserves d.virtualFandomReserves
            (applySellFee amount).1 = .ok n ∧
          CeilingPayout d.virtualTokenReserves.toInt d.virtualFandomReserves.toInt
            (applySellFee amount).1.toInt n.toInt) ∧
    (∀ x y a x' y' a' n n' : Int64, x' ≤ x → y ≤ y' → a ≤ a' →
      (calculateTokensOut x y a = .ok n → calculateTokensOut x' y' a' = .ok n' → n ≤ n') ∧
      (calculateFandomOut x y a = .ok n → calculateFandomOut x' y' a' = .ok n' → n ≤ n')) ∧
    ∀ (o : Order) (s s' : Chain β) (n : Int64), (tradeWithBondingCurve k o).run s = .ok n s' →
      ∃ d d', Rewrites o s s' d d' ∧
        product d - filled o.side d o.amount.toInt * ((o.side.virtualOut d).toInt - n.toInt) <
          filled o.side d o.amount.toInt ∧
        (product d - product d' < (o.side.virtualIn d').toInt ↔
          filled o.side d o.amount.toInt < 2 ^ 63) := by
  refine ⟨fun d amount => @Side.payout_of_valid .buy d amount,
    fun d amount => @Side.payout_of_valid .sell d amount, ?_, ?_⟩
  · intro x y a x' y' a' n n' less_in more_out more
    exact ⟨calculateOut_mono less_in more_out more, calculateOut_mono less_in more_out more⟩
  · intro o s s' n accepted
    obtain ⟨q, traded, rfl⟩ := trade_eq_ok.mp accepted
    have quoted := traded.quoted
    have positive := quoted.filled_pos
    have lost := remainder_lt (y := (o.side.virtualOut q.denom).toInt) positive
    have after := product_after (o.side.virtualIn q.denom).toInt
      (o.side.virtualOut q.denom).toInt q.afterFee.toInt
    refine ⟨_, _, traded.rewrites, ?_, ?_⟩
    · rw [quoted.filled_eq, quoted.out, after, product_side o.side]
      omega
    · by_cases fits : filled o.side q.denom o.amount.toInt < 2 ^ 63
      · refine iff_of_true ?_ fits
        rw [quoted.product_update fits, Side.virtualIn_update, sub_sub_cancel]
        rw [quoted.filled_eq] at fits
        rw [toInt_add_exact (by omega) fits]
        exact lost
      · refine iff_of_false ?_ fits
        obtain ⟨negative, fallen⟩ := quoted.product_wrapped fits
        have before := quoted.product_pos
        omega

/-- A curve on which somebody has already spent nearly all that `int64` can count. -/
def brimming : Chain Ledger where
  params := some defaultParams
  port := none
  denom := (∅ : DenomMap).insert "rose" { newRose with
    virtualTokenReserves := 3253
    virtualFandomReserves := 9223372036854775000
    realTokenReserves := 3000
    realFandomReserves := 9223372006854775000 }
  bank := Ledger.ofBooks
    [⟨"tokenfactory", "fandomChain", 9223372006854775000⟩, ⟨"tokenfactory", "rose", 3000⟩,
      ⟨"alice", "fandomChain", 1000⟩] (by decide)

theorem full_reserve_wraps :
    accepts (buyWithBondingCurve Ledger.keeper ⟨"alice", "rose", 1000, 0⟩) brimming ∧
      ∃ d d', brimming.denom["rose"]? = some d ∧
        (step Ledger.keeper brimming (buying "alice" "rose" 1000)).denom["rose"]? = some d' ∧
        ¬product d - product d' < d'.virtualFandomReserves.toInt := by
  have wrapped : (brimming.denom["rose"]?.any fun d =>
      (step Ledger.keeper brimming (buying "alice" "rose" 1000)).denom["rose"]?.any fun d' =>
        ¬product d - product d' < d'.virtualFandomReserves.toInt) = true := by
    decide +kernel
  obtain ⟨d, found, rest⟩ := Option.any_eq_true _ _ |>.mp wrapped
  obtain ⟨d', stored, more⟩ := Option.any_eq_true _ _ |>.mp rest
  exact ⟨by decide +kernel, d, d', found, stored, of_decide_eq_true more⟩

end Fandomchain.Proof
