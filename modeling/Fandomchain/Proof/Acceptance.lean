import Fandomchain.Proof.Solvency

/-!
# Accepted trades

A trade goes through exactly when the record prices it, the slippage bound is met, the payout is
covered and the trader has the funds.
-/

namespace Fandomchain.Proof
open Fandomchain.Library Fandomchain.Tokenfactory

variable {β α : Type} {k : Keeper β α} {view : BankView β α} {m : α}

/-- The price `n` that both an estimate and a trade of the amount compute. -/
structure Priced (side : Side) (d : Denom) (amount n : Int64) : Prop where
  amount_pos : 0 < amount.toInt
  virtualIn_pos : 0 < (side.virtualIn d).toInt
  virtualOut_pos : 0 < (side.virtualOut d).toInt
  out : n.toInt = output (side.virtualIn d).toInt (side.virtualOut d).toInt
    (side.applyFee amount).1.toInt

theorem priced_iff {side : Side} {d : Denom} {amount n : Int64} : Priced side d amount n ↔
    side.calculateOut (side.virtualIn d) (side.virtualOut d) (side.applyFee amount).1 = .ok n := by
  rw [Side.calculateOut_eq_ok, side.afterFee_pos_iff]
  constructor
  · intro h
    exact ⟨h.virtualIn_pos, h.virtualOut_pos, h.amount_pos, h.out⟩
  · intro ⟨virtualIn, virtualOut, amount, out⟩
    exact ⟨amount, virtualIn, virtualOut, out⟩

theorem Priced.afterFee_pos {side : Side} {d : Denom} {amount n : Int64}
    (h : Priced side d amount n) : 0 < (side.applyFee amount).1.toInt :=
  side.afterFee_pos_iff.mpr h.amount_pos

theorem Priced.out_pos {side : Side} {d : Denom} {amount n : Int64} (h : Priced side d amount n) :
    0 < n.toInt := by
  rw [h.out]
  exact output_pos h.virtualIn_pos.le h.virtualOut_pos h.afterFee_pos

theorem Priced.out_le {side : Side} {d : Denom} {amount n : Int64} (h : Priced side d amount n) :
    n.toInt ≤ (side.virtualOut d).toInt := by
  rw [h.out]
  exact output_le (by linarith [h.virtualIn_pos, h.afterFee_pos])
    (mul_nonneg h.virtualIn_pos.le h.virtualOut_pos.le)

theorem exists_priced {side : Side} {d : Denom} {amount : Int64} (amount_pos : 0 < amount.toInt)
    (virtualIn_pos : 0 < (side.virtualIn d).toInt) (virtualOut_pos : 0 < (side.virtualOut d).toInt) :
    ∃ n, Priced side d amount n := by
  have net_pos := side.afterFee_pos_iff.mpr amount_pos
  obtain ⟨n, priced⟩ := side.exists_calculateOut virtualIn_pos virtualOut_pos net_pos
  exact ⟨n, priced_iff.mpr priced⟩

theorem Priced.le_iff {side : Side} {d : Denom} {amount n : Int64} (h : Priced side d amount n)
    (r : ℤ) : n.toInt ≤ r ↔ ((side.virtualOut d).toInt - r) *
      (amount.toInt - amount.toInt / 100) ≤ r * (side.virtualIn d).toInt := by
  have net := side.afterFee_toInt h.amount_pos.le
  have net_pos := h.afterFee_pos
  have virtualIn_pos := h.virtualIn_pos
  rw [h.out, output_le_iff_mul_le r (by omega), net]

theorem Issued.coinIn_valid {d : Denom} (issued : Issued d) (side : Side) :
    isValidDenom (side.coinIn d) := by
  cases side with
  | buy =>
      show isValidDenom "fandomChain"
      decide
  | sell => exact issued.valid_name

variable [DecidableEq α]

/-- The payout fits in both the recorded reserve and what the module account can hand out. -/
def Covered (view : BankView β α) (m : α) (s : Chain β) (side : Side) (d : Denom) (trader : α)
    (amount : ℤ) : Prop :=
  ((side.virtualOut d).toInt - min (side.realOut d).toInt
      (payable view m s side d trader amount)) * (amount - amount / 100) ≤
    min (side.realOut d).toInt (payable view m s side d trader amount) * (side.virtualIn d).toInt

def Funded (k : Keeper β α) (s : Chain β) (c : String) (trader : α) (amount : ℤ) : Prop :=
  amount ≤ amountOfNoDenomValidation (k.bankKeeper.spendableCoins s.bank trader) c ∧
    amountOfNoDenomValidation (k.bankKeeper.spendableCoins s.bank trader) c < 2 ^ 63

instance (s : Chain β) (side : Side) (d : Denom) (trader : α) (amount : ℤ) :
    Decidable (Covered view m s side d trader amount) :=
  inferInstanceAs (Decidable (_ ≤ _))

instance (s : Chain β) (c : String) (trader : α) (amount : ℤ) :
    Decidable (Funded k s c trader amount) :=
  inferInstanceAs (Decidable (_ ∧ _))

theorem trade_ok_iff (law : Lawful k view m) {s : Chain β} (issued : AllRecords Issued s)
    {o : Order} {trader : α} {n : Int64}
    (decoded : k.addressCodec.stringToBytes o.signer = .ok trader) :
    (∃ s', (tradeWithBondingCurve k o).run s = .ok n s') ↔
      ∃ d, s.denom[o.denom]? = some d ∧ Priced o.side d o.amount n ∧ o.minOut.toInt ≤ n.toInt ∧
        Covered view m s o.side d trader o.amount.toInt ∧
          Funded k s (o.side.coinIn d) trader o.amount.toInt := by
  constructor
  · intro ⟨s', accepted⟩
    obtain ⟨q, traded, rfl⟩ := trade_eq_ok.mp accepted
    have quoted := traded.quoted
    have signed : q.trader = trader := quoted.trader_eq decoded
    have priced : Priced o.side q.denom o.amount q.out :=
      ⟨quoted.amount_pos, quoted.virtualIn_pos, quoted.virtualOut_pos,
        quoted.afterFee ▸ quoted.out⟩
    have held := (settles_iff law issued quoted).mp ⟨s', traded⟩
    refine ⟨q.denom, quoted.found, priced, quoted.slippage, ?_, signed ▸ quoted.funds,
      signed ▸ quoted.fits⟩
    exact (priced.le_iff _).mp (le_min quoted.reserve (signed ▸ held))
  · intro ⟨d, found, priced, slippage, covered, funds, fits⟩
    have issue := issued o.denom d found
    obtain ⟨reserve, held⟩ := le_min_iff.mp ((priced.le_iff _).mpr covered)
    have out_pos := priced.out_pos
    have quoted : Quoted k o s ⟨trader, d, (o.side.applyFee o.amount).1, n, m⟩ :=
      { trader := decoded
        found
        enabled := issue.enabled
        amount_pos := priced.amount_pos
        realOut_pos := by
          show 0 < (o.side.realOut d).toInt
          omega
        virtualIn_pos := priced.virtualIn_pos
        virtualOut_pos := priced.virtualOut_pos
        afterFee := rfl
        out := priced.out
        slippage
        reserve
        coin_valid := issue.coinIn_valid o.side
        fits
        funds
        module_address := law.module_address }
    obtain ⟨s', traded⟩ := (settles_iff law issued quoted).mpr held
    exact ⟨s', trade_eq_ok.mpr ⟨_, traded, rfl⟩⟩

theorem Solvent.covered_iff {s : Chain β} (solvent : Solvent view m s) {key : String} {d : Denom}
    (found : s.denom[key]? = some d) (side : Side) (trader : α) {amount : ℤ} (nonneg : 0 ≤ amount) :
    Covered view m s side d trader amount ↔
      ((side.virtualOut d).toInt - (side.realOut d).toInt) * (amount - amount / 100) ≤
        (side.realOut d).toInt * (side.virtualIn d).toInt := by
  have reserve := solvent.reserve_le found side
  have enough : (side.realOut d).toInt ≤ payable view m s side d trader amount := by
    unfold payable
    split <;> omega
  unfold Covered
  rw [min_eq_left enough]

end Fandomchain.Proof
