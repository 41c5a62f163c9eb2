import Fandomchain.Proof.Acceptance
import Fandomchain.Tokenfactory.Query

/-!
# Estimates and trades

An estimate and a trade price the same record with the same formula. They differ in what they check
besides: an estimate asks for a price of the copy it moves, a trade for real reserves and funds.
-/

namespace Fandomchain.Proof
open Fandomchain.Library Fandomchain.Tokenfactory

variable {β α : Type} {k : Keeper β α} {view : BankView β α} {m : α}

/-! ## When an estimate succeeds -/

theorem getPrice_ok_iff {d : Denom} : (∃ price, getPrice d = .ok price) ↔
    d.bondingCurveEnabled ∧ 0 < d.virtualTokenReserves.toInt := by
  have zero : (0 : Int64).toInt = 0 := by decide
  unfold getPrice
  by_cases enabled : d.bondingCurveEnabled
  · by_cases low : d.virtualTokenReserves ≤ 0
    · have := Int64.le_iff_toInt_le.mp low
      have negative : ¬0 < d.virtualTokenReserves.toInt := by omega
      simp [enabled, low, negative]
    · have positive : 0 < d.virtualTokenReserves.toInt := by
        rw [Int64.le_iff_toInt_le] at low
        omega
      simp [enabled, low, positive]
  · simp [enabled]

def LeavesTokens (side : Side) (d : Denom) (amount : ℤ) : Prop :=
  match side with
  | .buy => d.virtualFandomReserves.toInt + (amount - amount / 100) ≤
      d.virtualFandomReserves.toInt * d.virtualTokenReserves.toInt
  | .sell => d.virtualTokenReserves.toInt + (amount - amount / 100) < 2 ^ 63

instance (side : Side) (d : Denom) (amount : ℤ) : Decidable (LeavesTokens side d amount) :=
  match side with
  | .buy => inferInstanceAs (Decidable (_ ≤ _))
  | .sell => inferInstanceAs (Decidable (_ < _))

theorem Priced.leavesTokens_iff {side : Side} {d : Denom} {amount n : Int64}
    (h : Priced side d amount n) :
    0 < (side.simulate d (side.applyFee amount).1 n).virtualTokenReserves.toInt ↔
      LeavesTokens side d amount.toInt := by
  have net := side.afterFee_toInt h.amount_pos.le
  have net_pos := h.afterFee_pos
  have out_pos := h.out_pos
  have out_le := h.out_le
  have virtualIn_pos := h.virtualIn_pos
  have out := h.out
  unfold LeavesTokens
  cases side with
  | buy =>
      show 0 < (Side.buy.virtualOut d - n).toInt ↔
        (Side.buy.virtualIn d).toInt + (amount.toInt - amount.toInt / 100) ≤
          (Side.buy.virtualIn d).toInt * (Side.buy.virtualOut d).toInt
      rw [toInt_sub_of_le out_pos.le out_le, sub_pos, out, output_lt_iff (by omega), net]
  | sell =>
      show 0 < (d.virtualTokenReserves + (Side.sell.applyFee amount).1).toInt ↔ _
      have tokens_pos : 0 < d.virtualTokenReserves.toInt := virtualIn_pos
      rw [← net]
      exact toInt_add_pos_iff tokens_pos net_pos.le

theorem simulate_enabled (side : Side) (d : Denom) (afterFee out : Int64) :
    (side.simulate d afterFee out).bondingCurveEnabled = d.bondingCurveEnabled := by
  cases side <;> rfl

theorem tokens_pos (side : Side) (d : Denom) (virtualIn : 0 < (side.virtualIn d).toInt)
    (virtualOut : 0 < (side.virtualOut d).toInt) : 0 < d.virtualTokenReserves.toInt := by
  cases side with
  | buy => exact virtualOut
  | sell => exact virtualIn

theorem estimate_ok_iff {s : Chain β} {side : Side} {name : String} {amount n : Int64} :
    (∃ impact, estimate k s side name amount = .ok (n, impact)) ↔
      ∃ d, s.denom[name]? = some d ∧ d.bondingCurveEnabled ∧ Priced side d amount n ∧
        LeavesTokens side d amount.toInt := by
  simp only [estimate, bind_eq_ok, wrapping_eq_ok, plain_eq_ok, failIf_eq_ok, getDenom_eq_ok,
    pure_eq_ok, Prod.mk.injEq, not_not]
  constructor
  · rintro ⟨impact, d, found, _, enabled, out, calculated, old, hold, new, hnew, rfl, rfl⟩
    have priced := priced_iff.mpr calculated
    have left := (getPrice_ok_iff.mp ⟨new, hnew⟩).2
    exact ⟨d, found, enabled, priced, priced.leavesTokens_iff.mp left⟩
  · rintro ⟨d, found, enabled, priced, leaves⟩
    obtain ⟨old, hold⟩ := getPrice_ok_iff.mpr
      ⟨enabled, tokens_pos side d priced.virtualIn_pos priced.virtualOut_pos⟩
    obtain ⟨new, hnew⟩ := getPrice_ok_iff.mpr
      ⟨(simulate_enabled side d (side.applyFee amount).1 n).trans enabled,
        priced.leavesTokens_iff.mpr leaves⟩
    exact ⟨_, d, found, (), enabled, n, priced_iff.mp priced, old, hold, new, hnew, rfl, rfl⟩

theorem estimateBuy_eq_ok {s : Chain β} {denom : String} {y : Int64}
    {response : QueryEstimateBuyResponse} :
    estimateBuy k s (some ⟨denom, y⟩) = .ok response ↔
      estimate k s .buy denom y = .ok (response.tokensOut, response.priceImpact) := by
  simp only [estimateBuy, nonNil, bind_eq_ok, pure_eq_ok, Except.ok.injEq, exists_eq_left',
    Prod.exists]
  constructor
  · rintro ⟨_, _, estimated, rfl⟩
    exact estimated
  · intro estimated
    exact ⟨_, _, estimated, rfl⟩

theorem estimateSell_eq_ok {s : Chain β} {denom : String} {y : Int64}
    {response : QueryEstimateSellResponse} :
    estimateSell k s (some ⟨denom, y⟩) = .ok response ↔
      estimate k s .sell denom y = .ok (response.fandomOut, response.priceImpact) := by
  simp only [estimateSell, nonNil, bind_eq_ok, pure_eq_ok, Except.ok.injEq, exists_eq_left',
    Prod.exists]
  constructor
  · rintro ⟨_, _, estimated, rfl⟩
    exact estimated
  · intro estimated
    exact ⟨_, _, estimated, rfl⟩

/-! ## Agreement -/

/-- `EstimateBuy` returns `n` exactly when the buy with that bound goes through and yields `n`. -/
def BuyAgrees (k : Keeper β α) (s : Chain β) (denom buyer : String) (y : Int64) : Prop :=
  ∀ n, (∃ impact, estimateBuy k s (some ⟨denom, y⟩) = .ok ⟨n, impact⟩) ↔
    ∃ s', (buyWithBondingCurve k ⟨buyer, denom, y, n⟩).run s = .ok ⟨n⟩ s'

def SellAgrees (k : Keeper β α) (s : Chain β) (denom seller : String) (y : Int64) : Prop :=
  ∀ n, (∃ impact, estimateSell k s (some ⟨denom, y⟩) = .ok ⟨n, impact⟩) ↔
    ∃ s', (sellWithBondingCurve k ⟨seller, denom, y, n⟩).run s = .ok ⟨n⟩ s'

def Agrees (k : Keeper β α) (s : Chain β) (side : Side) (denom signer : String) (y : Int64) :
    Prop :=
  ∀ n, (∃ impact, estimate k s side denom y = .ok (n, impact)) ↔
    ∃ s', (tradeWithBondingCurve k ⟨side, signer, denom, y, n⟩).run s = .ok n s'

theorem buyAgrees_iff {s : Chain β} {denom buyer : String} {y : Int64} :
    BuyAgrees k s denom buyer y ↔ Agrees k s .buy denom buyer y := by
  simp only [BuyAgrees, Agrees, estimateBuy_eq_ok, buy_run_eq_ok]
  rfl

theorem sellAgrees_iff {s : Chain β} {denom seller : String} {y : Int64} :
    SellAgrees k s denom seller y ↔ Agrees k s .sell denom seller y := by
  simp only [SellAgrees, Agrees, estimateSell_eq_ok, sell_run_eq_ok]
  rfl

/-! ## When a trade succeeds -/

variable [DecidableEq α]

theorem agrees_iff (law : Lawful k view m) {s : Chain β} (issued : AllRecords Issued s)
    {side : Side} {denom signer : String} {trader : α} {y : Int64}
    (decoded : k.addressCodec.stringToBytes signer = .ok trader) :
    Agrees k s side denom signer y ↔ ∀ d, s.denom[denom]? = some d → 0 < y.toInt →
      0 < (side.virtualIn d).toInt → 0 < (side.virtualOut d).toInt →
      (LeavesTokens side d y.toInt ↔ Covered view m s side d trader y.toInt ∧
        Funded k s (side.coinIn d) trader y.toInt) := by
  have traded : ∀ n, (∃ s', (tradeWithBondingCurve k ⟨side, signer, denom, y, n⟩).run s = .ok n s') ↔
      ∃ d, s.denom[denom]? = some d ∧ Priced side d y n ∧ Covered view m s side d trader y.toInt ∧
        Funded k s (side.coinIn d) trader y.toInt := by
    intro n
    have accepted := trade_ok_iff law issued (o := ⟨side, signer, denom, y, n⟩) (n := n) decoded
    simpa only [le_refl, true_and] using accepted
  unfold Agrees
  simp only [estimate_ok_iff, traded]
  constructor
  · intro agrees d found y_pos virtualIn_pos virtualOut_pos
    obtain ⟨n, priced⟩ := exists_priced y_pos virtualIn_pos virtualOut_pos
    have both := agrees n
    simp only [found, Option.some.injEq, exists_eq_left', priced, true_and,
      (issued denom d found).enabled] at both
    exact both
  · intro same n
    constructor
    · intro ⟨d, found, _, priced, leaves⟩
      exact ⟨d, found, priced, (same d found priced.amount_pos priced.virtualIn_pos
        priced.virtualOut_pos).mp leaves⟩
    · intro ⟨d, found, priced, executable⟩
      exact ⟨d, found, (issued denom d found).enabled, priced, (same d found priced.amount_pos
        priced.virtualIn_pos priced.virtualOut_pos).mpr executable⟩

/-- Estimate and trade agree on an amount exactly when, on a record that can price it, the copy of
the estimate keeps tokens if and only if the payout of the trade is covered. A seller may also hold
tokens that are locked or too many for `int64`. -/
theorem estimates_agree_iff (law : Lawful k view m) {s : Chain β} (reached : Reached k s)
    (denom : String) (y : Int64) :
    (∀ buyer addr, k.addressCodec.stringToBytes buyer = .ok addr →
      Funded k s "fandomChain" addr y.toInt →
      (BuyAgrees k s denom buyer y ↔ ∀ d, s.denom[denom]? = some d → 0 < y.toInt →
        0 < d.virtualFandomReserves.toInt → 0 < d.virtualTokenReserves.toInt →
        (LeavesTokens .buy d y.toInt ↔ Covered view m s .buy d addr y.toInt))) ∧
    (∀ seller addr, k.addressCodec.stringToBytes seller = .ok addr →
      y.toInt ≤ view.balance s.bank addr denom →
      (SellAgrees k s denom seller y ↔ ∀ d, s.denom[denom]? = some d → 0 < y.toInt →
        0 < d.virtualTokenReserves.toInt → 0 < d.virtualFandomReserves.toInt →
        (LeavesTokens .sell d y.toInt ↔ Covered view m s .sell d addr y.toInt ∧
          Funded k s denom addr y.toInt))) := by
  refine ⟨fun buyer addr decoded funded => ?_, fun seller addr decoded _ => ?_⟩
  · have bought : ∀ d : Denom, Funded k s (Side.buy.coinIn d) addr y.toInt := fun _ => funded
    rw [buyAgrees_iff, agrees_iff law reached.issued decoded]
    simp only [bought, and_true]
    rfl
  · rw [sellAgrees_iff, agrees_iff law reached.issued decoded]
    have name : ∀ d, s.denom[denom]? = some d → d.denom = denom := fun d => reached.keyed denom d
    constructor
    · intro agrees d found
      have same := agrees d found
      rw [show Side.sell.coinIn d = denom from name d found] at same
      exact same
    · intro agrees d found
      have same := agrees d found
      rw [show Side.sell.coinIn d = denom from name d found]
      exact same

theorem small_buy_agrees : BuyAgrees Ledger.keeper newMarket "rose" "alice" 1000000 := by
  have funded : Funded Ledger.keeper newMarket "fandomChain" "alice" 1000000 := by decide +kernel
  refine ((estimates_agree_iff Ledger.lawful newMarket_reached "rose" 1000000).1 "alice" "alice" rfl
    funded).mpr fun d found _ _ _ => ?_
  obtain rfl := newMarket_rose found
  exact iff_of_true (by decide) (by decide +kernel)

theorem estimate_beyond_reserve :
    Reached Ledger.keeper newMarket ∧
      Funded Ledger.keeper newMarket "fandomChain" "alice" 1000000000000 ∧
      estimateBuy Ledger.keeper newMarket (some ⟨"rose", 1000000000000⟩) =
        .ok ⟨970588235295, ⟨6, 115500000000⟩⟩ ∧
      accepts (buyWithBondingCurve Ledger.keeper ⟨"alice", "rose", 1000000000000, 970588235295⟩)
        newMarket = false :=
  ⟨newMarket_reached, by decide +kernel, by decide +kernel, by decide +kernel⟩

end Fandomchain.Proof
