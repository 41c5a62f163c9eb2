import Fandomchain.Library.ConstantProduct
import Fandomchain.Library.Int64
import Fandomchain.Tokenfactory.Types

/-!
# The bonding curve

`keeper/bonding_curve.go`. Reserves and amounts are `int64`; the two formulas work on `math.Int`,
which is `ℤ` here. The functions for buys and sells differ in the reserves they name, so each pair
is one function at the two sides of a trade.
-/

namespace Fandomchain.Tokenfactory
open Fandomchain.Library

/-! ## `math.Int` -/

def quo {ε : Type} (a b : ℤ) : Except (Fault ε) ℤ :=
  if b = 0 then .error (.panic "division by zero") else .ok (a.tdiv b)

def toInt64 {ε : Type} (a : ℤ) : Except (Fault ε) Int64 :=
  if -2 ^ 63 ≤ a ∧ a < 2 ^ 63 then .ok (Int64.ofInt a) else .error (.panic "Int64() out of bound")

theorem toInt64_eq_ok {ε : Type} {a : ℤ} {n : Int64} :
    toInt64 (ε := ε) a = .ok n ↔ n.toInt = a := by
  unfold toInt64
  split
  · rename_i fits
    rw [Except.ok.injEq, ← Int64.toInt_inj, Int64.toInt_ofInt_of_le fits.1 fits.2]
    exact eq_comm
  · rename_i overflows
    simp only [reduceCtorEq, false_iff]
    rintro rfl
    exact overflows ⟨n.le_toInt, n.toInt_lt⟩

/-! ## Constants -/

def tokenDecimals : Int64 := 1000000
def fandomchainDecimals : Int64 := 1000000000
def initialVirtualTokenReserves : Int64 := 1000000000000
def initialVirtualFandomReserves : Int64 := 30000000000
def initialRealTokenReserves : Int64 := 800000000000
def initialRealFandomReserves : Int64 := 0
def buyFeeNumerator : Int64 := 1
def buyFeeDenominator : Int64 := 100
def sellFeeNumerator : Int64 := 1
def sellFeeDenominator : Int64 := 100
def minTradeAmount : Int64 := 1

def initializeBondingCurve (denom : Denom) : Denom :=
  { denom with
    virtualTokenReserves := initialVirtualTokenReserves
    virtualFandomReserves := initialVirtualFandomReserves
    realTokenReserves := initialRealTokenReserves
    realFandomReserves := initialRealFandomReserves
    initialVirtualTokenReserves := initialVirtualTokenReserves
    initialVirtualFandomReserves := initialVirtualFandomReserves
    initialRealTokenReserves := initialRealTokenReserves
    bondingCurveEnabled := true }

/-! ## The formulas -/

def calculateOut (label : String) (reserveIn reserveOut amountIn : Int64) :
    Except (Fault String) Int64 := do
  if reserveIn ≤ 0 ∨ reserveOut ≤ 0 ∨ amountIn ≤ 0 then
    throw (.error "invalid input: all values must be positive")
  let k := reserveIn.toInt * reserveOut.toInt
  let newReserveIn := reserveIn.toInt + amountIn.toInt
  let newReserveOut ← quo k newReserveIn
  let out := reserveOut.toInt - newReserveOut
  if out < 0 ∨ out = 0 then
    throw (.error s!"calculated {label} out is non-positive")
  toInt64 out

def calculateTokensOut (fandomReserves tokenReserves fandomIn : Int64) :
    Except (Fault String) Int64 :=
  calculateOut "tokens" fandomReserves tokenReserves fandomIn

def calculateFandomOut (tokenReserves fandomReserves tokenIn : Int64) :
    Except (Fault String) Int64 :=
  calculateOut "fandom" tokenReserves fandomReserves tokenIn

def applyFee (numerator denominator amount : Int64) : Int64 × Int64 :=
  let feeAmount := (amount * numerator) / denominator
  (amount - feeAmount, feeAmount)

def applyBuyFee (amount : Int64) : Int64 × Int64 :=
  applyFee buyFeeNumerator buyFeeDenominator amount

def applySellFee (amount : Int64) : Int64 × Int64 :=
  applyFee sellFeeNumerator sellFeeDenominator amount

/-! ## Prices and progress -/

/-- A decimal text with `scale` digits after the point. -/
structure Decimal where
  scale : ℕ
  unscaled : ℤ
  deriving DecidableEq, Repr

def Decimal.toRat (d : Decimal) : ℚ := d.unscaled / 10 ^ d.scale

-- `%.6f`: to the nearest multiple of `10 ^ -6`, a tie to the even one
def formatF6 (q : ℚ) : Decimal :=
  let scaled : ℚ := q * 10 ^ 6
  let rest := scaled - ⌊scaled⌋
  ⟨6, if 1 / 2 < rest ∨ rest = 1 / 2 ∧ ⌊scaled⌋ % 2 = 1 then ⌊scaled⌋ + 1 else ⌊scaled⌋⟩

-- `float64` is read as exact
def getPrice (denom : Denom) : Except String Decimal :=
  if ¬denom.bondingCurveEnabled then .error "bonding curve not enabled for this denom"
  else if denom.virtualTokenReserves ≤ 0 then .error "invalid token reserves"
  else
    let fandomReservesAdjusted : ℚ :=
      denom.virtualFandomReserves.toInt / fandomchainDecimals.toInt
    let tokenReservesAdjusted : ℚ := denom.virtualTokenReserves.toInt / tokenDecimals.toInt
    .ok (formatF6 (fandomReservesAdjusted / tokenReservesAdjusted))

def calculatePriceImpact (oldPriceStr newPriceStr : Decimal) : Decimal :=
  let oldPrice := oldPriceStr.toRat
  let newPrice := newPriceStr.toRat
  if oldPrice ≤ 0 then ⟨2, 0⟩
  else
    let diff := newPrice - oldPrice
    let diff := if diff < 0 then -diff else diff
    formatF6 (diff / oldPrice * 100)

def getBondingProgress (denom : Denom) : Except (Fault String) (String × Int64 × Int64) := do
  if ¬denom.bondingCurveEnabled then
    throw (.error "bonding curve not enabled for this denom")
  if denom.initialRealTokenReserves ≤ 0 then throw (.error "invalid initial reserves")
  if denom.realTokenReserves ≥ denom.initialRealTokenReserves then
    return ("0", 0, denom.initialRealTokenReserves)
  let tokensSold := denom.initialRealTokenReserves - denom.realTokenReserves
  let progress ← quo (tokensSold.toInt * 100) denom.initialRealTokenReserves.toInt
  return (toString progress, tokensSold, denom.realTokenReserves)

/-! ## Validation -/

def validateTrade (denom : Denom) (amount : Int64) (isBuy : Bool) : Except String Unit :=
  if ¬denom.bondingCurveEnabled then .error "bonding curve not enabled for this denom"
  else if amount ≤ 0 then .error "amount must be positive"
  else if amount < minTradeAmount then .error "amount below minimum trade amount"
  else if isBuy ∧ denom.realTokenReserves ≤ 0 then .error "no tokens available"
  else if ¬isBuy ∧ denom.realFandomReserves ≤ 0 then .error "insufficient fandom liquidity"
  else if denom.virtualTokenReserves ≤ 0 ∨ denom.virtualFandomReserves ≤ 0 then
    .error "invalid virtual reserves"
  else .ok ()

def validateSlippage (actualOut minOut : Int64) : Except String Unit :=
  if actualOut < minOut then
    .error s!"slippage too high: expected at least {minOut}, got {actualOut}"
  else .ok ()

/-! ## The two sides of a trade -/

inductive Side where
  | buy
  | sell
  deriving DecidableEq, Repr

namespace Side

def isBuy : Side → Bool
  | .buy => true
  | .sell => false

def virtualIn : Side → Denom → Int64
  | .buy, d => d.virtualFandomReserves
  | .sell, d => d.virtualTokenReserves

def virtualOut : Side → Denom → Int64
  | .buy, d => d.virtualTokenReserves
  | .sell, d => d.virtualFandomReserves

def realIn : Side → Denom → Int64
  | .buy, d => d.realFandomReserves
  | .sell, d => d.realTokenReserves

def realOut : Side → Denom → Int64
  | .buy, d => d.realTokenReserves
  | .sell, d => d.realFandomReserves

def coinIn : Side → Denom → String
  | .buy, _ => "fandomChain"
  | .sell, d => d.denom

def coinOut : Side → Denom → String
  | .buy, d => d.denom
  | .sell, _ => "fandomChain"

def applyFee : Side → Int64 → Int64 × Int64
  | .buy => applyBuyFee
  | .sell => applySellFee

def calculateOut : Side → (reserveIn reserveOut amountIn : Int64) → Except (Fault String) Int64
  | .buy => calculateTokensOut
  | .sell => calculateFandomOut

def update : Side → Denom → (amount afterFee out : Int64) → Denom
  | .buy, d, amount, afterFee, out =>
      { d with
        virtualFandomReserves := d.virtualFandomReserves + afterFee
        virtualTokenReserves := d.virtualTokenReserves - out
        realFandomReserves := d.realFandomReserves + amount
        realTokenReserves := d.realTokenReserves - out }
  | .sell, d, amount, afterFee, out =>
      { d with
        virtualTokenReserves := d.virtualTokenReserves + afterFee
        virtualFandomReserves := d.virtualFandomReserves - out
        realTokenReserves := d.realTokenReserves + amount
        realFandomReserves := d.realFandomReserves - out }

variable (side : Side) (d : Denom) (amount afterFee out : Int64)

@[simp] theorem virtualIn_update :
    side.virtualIn (side.update d amount afterFee out) = side.virtualIn d + afterFee := by
  cases side <;> rfl

@[simp] theorem virtualOut_update :
    side.virtualOut (side.update d amount afterFee out) = side.virtualOut d - out := by
  cases side <;> rfl

@[simp] theorem realIn_update :
    side.realIn (side.update d amount afterFee out) = side.realIn d + amount := by
  cases side <;> rfl

@[simp] theorem realOut_update :
    side.realOut (side.update d amount afterFee out) = side.realOut d - out := by
  cases side <;> rfl

@[simp] theorem coinIn_update :
    side.coinIn (side.update d amount afterFee out) = side.coinIn d := by
  cases side <;> rfl

@[simp] theorem coinOut_update :
    side.coinOut (side.update d amount afterFee out) = side.coinOut d := by
  cases side <;> rfl

@[simp] theorem denom_update : (side.update d amount afterFee out).denom = d.denom := by
  cases side <;> rfl

@[simp] theorem initialRealTokenReserves_update :
    (side.update d amount afterFee out).initialRealTokenReserves = d.initialRealTokenReserves := by
  cases side <;> rfl

@[simp] theorem bondingCurveEnabled_update :
    (side.update d amount afterFee out).bondingCurveEnabled = d.bondingCurveEnabled := by
  cases side <;> rfl

end Side

/-! ## What the functions compute -/

theorem tdiv_hundred (a : ℤ) :
    (0 ≤ a ∧ a.tdiv 100 = a / 100) ∨ (a < 0 ∧ a.tdiv 100 = -(-a / 100)) := by
  by_cases h : 0 ≤ a
  · exact .inl ⟨h, Int.tdiv_eq_ediv_of_nonneg h⟩
  · refine .inr ⟨by omega, ?_⟩
    rw [← Int.tdiv_eq_ediv_of_nonneg (by omega : 0 ≤ -a), Int.neg_tdiv, neg_neg]

-- the fee is the hundredth part, rounded towards zero
theorem applyFee_hundredth (amount : Int64) :
    ((applyFee 1 100 amount).1.toInt = amount.toInt - amount.toInt.tdiv 100) ∧
      (applyFee 1 100 amount).2.toInt = amount.toInt.tdiv 100 := by
  have lo := amount.le_toInt
  have hi := amount.toInt_lt
  have one : amount * 1 = amount := Int64.mul_one amount
  have hundred : (100 : Int64).toInt = 100 := by decide
  have fee : (amount * 1 / 100).toInt = amount.toInt.tdiv 100 := by
    rw [one, Int64.toInt_div_of_ne_right _ _ (by decide), hundred]
  refine ⟨?_, fee⟩
  have part := tdiv_hundred amount.toInt
  show (amount - amount * 1 / 100).toInt = _
  rw [toInt_sub_exact] <;> rw [fee] <;> omega

theorem Side.applyFee_eq (side : Side) : side.applyFee = Tokenfactory.applyFee 1 100 := by
  cases side <;> rfl

theorem Side.afterFee_toInt (side : Side) {amount : Int64} (h : 0 ≤ amount.toInt) :
    (side.applyFee amount).1.toInt = amount.toInt - amount.toInt / 100 := by
  rw [side.applyFee_eq, (applyFee_hundredth amount).1, Int.tdiv_eq_ediv_of_nonneg h]

theorem Side.afterFee_pos_iff (side : Side) {amount : Int64} :
    0 < (side.applyFee amount).1.toInt ↔ 0 < amount.toInt := by
  have part := tdiv_hundred amount.toInt
  rw [side.applyFee_eq, (applyFee_hundredth amount).1]
  omega

theorem calculateOut_eq_ok {label : String} {reserveIn reserveOut amountIn n : Int64} :
    calculateOut label reserveIn reserveOut amountIn = .ok n ↔
      0 < reserveIn.toInt ∧ 0 < reserveOut.toInt ∧ 0 < amountIn.toInt ∧
        n.toInt = output reserveIn.toInt reserveOut.toInt amountIn.toInt := by
  have zero : (0 : Int64).toInt = 0 := by decide
  unfold calculateOut
  split
  · rename_i invalid
    simp only [Int64.le_iff_toInt_le, zero] at invalid
    simp only [throw, throwThe, MonadExceptOf.throw, bind, Except.bind, reduceCtorEq, false_iff]
    omega
  · rename_i valid
    simp only [Int64.le_iff_toInt_le, zero, not_or, not_le] at valid
    obtain ⟨hx, hy, ha⟩ := valid
    have product := mul_nonneg hx.le hy.le
    have pos := output_pos hx.le hy ha
    have fits := output_le (a := amountIn.toInt) (by omega) product
    have := reserveOut.toInt_lt
    have hq : reserveIn.toInt + amountIn.toInt ≠ 0 := by omega
    unfold output at pos fits ⊢
    simp only [quo, hq, if_false, bind, Except.bind, Int.tdiv_eq_ediv_of_nonneg product]
    rw [if_neg (by omega), toInt64_eq_ok]
    simp [hx, hy, ha]

theorem exists_calculateOut (label : String) {reserveIn reserveOut amountIn : Int64}
    (hx : 0 < reserveIn.toInt) (hy : 0 < reserveOut.toInt) (ha : 0 < amountIn.toInt) :
    ∃ n, calculateOut label reserveIn reserveOut amountIn = .ok n := by
  have pos := output_pos hx.le hy ha
  have le := output_le (add_pos hx ha) (mul_pos hx hy).le
  have fits := reserveOut.toInt_lt
  have exact := Int64.toInt_ofInt_of_le (by omega) (le.trans_lt fits)
  exact ⟨_, calculateOut_eq_ok.mpr ⟨hx, hy, ha, exact⟩⟩

theorem Side.calculateOut_eq_ok {side : Side} {reserveIn reserveOut amountIn n : Int64} :
    side.calculateOut reserveIn reserveOut amountIn = .ok n ↔
      0 < reserveIn.toInt ∧ 0 < reserveOut.toInt ∧ 0 < amountIn.toInt ∧
        n.toInt = output reserveIn.toInt reserveOut.toInt amountIn.toInt := by
  cases side <;> exact Tokenfactory.calculateOut_eq_ok

theorem Side.exists_calculateOut (side : Side) {reserveIn reserveOut amountIn : Int64}
    (hx : 0 < reserveIn.toInt) (hy : 0 < reserveOut.toInt) (ha : 0 < amountIn.toInt) :
    ∃ n, side.calculateOut reserveIn reserveOut amountIn = .ok n := by
  cases side <;> exact Tokenfactory.exists_calculateOut _ hx hy ha

theorem Side.validateTrade_eq_ok {side : Side} {d : Denom} {amount : Int64} :
    validateTrade d amount side.isBuy = .ok () ↔
      d.bondingCurveEnabled ∧ 0 < amount.toInt ∧ 0 < (side.realOut d).toInt ∧
        0 < (side.virtualIn d).toInt ∧ 0 < (side.virtualOut d).toInt := by
  have zero : (0 : Int64).toInt = 0 := by decide
  have one : minTradeAmount.toInt = 1 := by decide
  unfold validateTrade
  cases d.bondingCurveEnabled with
  | false => simp
  | true =>
      cases side <;>
        simp only [isBuy, realOut, virtualIn, virtualOut, Int64.le_iff_toInt_le,
          Int64.lt_iff_toInt_lt, zero, one, not_true_eq_false, true_and, if_false,
          Bool.false_eq_true, not_false_eq_true, false_and] <;>
        split_ifs <;> simp only [false_iff, true_iff] <;> omega

theorem validateSlippage_eq_ok {actualOut minOut : Int64} :
    validateSlippage actualOut minOut = .ok () ↔ minOut.toInt ≤ actualOut.toInt := by
  unfold validateSlippage
  split
  · rename_i low
    have := Int64.lt_iff_toInt_lt.mp low
    simp only [reduceCtorEq, false_iff]
    omega
  · rename_i enough
    simpa only [true_iff, Int64.lt_iff_toInt_lt, not_lt] using enough

theorem getBondingProgress_eq {d : Denom} (enabled : d.bondingCurveEnabled)
    (initial_pos : 0 < d.initialRealTokenReserves.toInt) (nonneg : 0 ≤ d.realTokenReserves.toInt)
    (le : d.realTokenReserves.toInt ≤ d.initialRealTokenReserves.toInt) :
    ∃ tokensSold tokensRemaining : Int64,
      getBondingProgress d = .ok
        (toString (tokensSold.toInt * 100 / d.initialRealTokenReserves.toInt), tokensSold,
          tokensRemaining) ∧
      tokensSold.toInt = d.initialRealTokenReserves.toInt - d.realTokenReserves.toInt ∧
      tokensRemaining.toInt = d.realTokenReserves.toInt := by
  have zero : (0 : Int64).toInt = 0 := by decide
  have positive : ¬d.initialRealTokenReserves ≤ 0 := by
    rw [Int64.le_iff_toInt_le, zero]
    omega
  unfold getBondingProgress
  by_cases full : d.initialRealTokenReserves ≤ d.realTokenReserves
  · have le' := Int64.le_iff_toInt_le.mp full
    refine ⟨0, d.initialRealTokenReserves, ?_, by rw [zero]; omega, by omega⟩
    have none_sold : toString ((0 : Int64).toInt * 100 / d.initialRealTokenReserves.toInt) = "0" := by
      rw [zero, zero_mul, Int.zero_ediv]
      rfl
    simp only [enabled, positive, full, none_sold, not_true_eq_false, if_false, if_true, pure,
      Except.pure]
  · have sold : (d.initialRealTokenReserves - d.realTokenReserves).toInt =
        d.initialRealTokenReserves.toInt - d.realTokenReserves.toInt := toInt_sub_of_le nonneg le
    have product : 0 ≤ (d.initialRealTokenReserves - d.realTokenReserves).toInt * 100 := by
      rw [sold]
      omega
    have nonzero : d.initialRealTokenReserves.toInt ≠ 0 := initial_pos.ne'
    refine ⟨_, d.realTokenReserves, ?_, sold, rfl⟩
    simp only [enabled, positive, full, quo, nonzero, not_true_eq_false, if_false, bind, Except.bind,
      pure, Except.pure, Int.tdiv_eq_ediv_of_nonneg product]

end Fandomchain.Tokenfactory
