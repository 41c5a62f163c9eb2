import Fandomchain.Proof.Formula

/-!
# Splitting an order

Two parts of an order move the reserves to the same place as the whole, up to the fee: each fee is
rounded down, so two parts may pay one unit less than the whole. The parts yield no more than the
whole exactly when that unit and the rounding of the first part fit in the rounding of the whole.
-/

namespace Fandomchain.Proof
open Fandomchain.Library Fandomchain.Tokenfactory

variable {β α : Type} {k : Keeper β α}

def net (amount : ℤ) : ℤ := amount - amount / 100

def savedFee (first second : ℤ) : ℤ := (first + second) / 100 - first / 100 - second / 100

def SplitCovered (side : Side) (d : Denom) (first second : ℤ) : Prop :=
  remainder (side.virtualIn d).toInt (side.virtualOut d).toInt (net first) +
      savedFee first second * (product d / filled side d (first + second)) ≤
    remainder (side.virtualIn d).toInt (side.virtualOut d).toInt (net (first + second))

instance (side : Side) (d : Denom) (first second : ℤ) :
    Decidable (SplitCovered side d first second) :=
  inferInstanceAs (Decidable (_ ≤ _))

/-- The price of an order that finds the record of an earlier one. -/
theorem Quoted.out_after {o o' : Order} {s s' : Chain β} {q q' : Quote α} (first : Quoted k o s q)
    (second : Quoted k o' s' q') (side : o'.side = o.side)
    (updated : q'.denom = o.side.update q.denom o.amount q.afterFee q.out) :
    q'.out.toInt = output ((o.side.virtualIn q.denom).toInt + q.afterFee.toInt)
      ((o.side.virtualOut q.denom).toInt - q.out.toInt) q'.afterFee.toInt := by
  have in_pos := second.virtualIn_pos
  have priced := second.out
  rw [side, updated, Side.virtualIn_update] at in_pos
  rw [side, updated, Side.virtualIn_update, Side.virtualOut_update, first.virtualOut_after] at priced
  have positive := first.filled_pos
  have fits := (toInt_add_pos_iff first.virtualIn_pos first.afterFee_pos.le).mp in_pos
  rw [toInt_add_exact (by omega) fits] at priced
  exact priced

/-- Two orders of one side against one order of their sum, from the same state. -/
theorem split_pays_iff {s s₁ s₂ s' : Chain β} (keyed : Keyed s) {side : Side}
    {signer₁ signer₂ signer c : String} {y₁ y₂ y min₁ min₂ min n₁ n₂ n : Int64}
    (sum : y.toInt = y₁.toInt + y₂.toInt)
    (first : (tradeWithBondingCurve k ⟨side, signer₁, c, y₁, min₁⟩).run s = .ok n₁ s₁)
    (second : (tradeWithBondingCurve k ⟨side, signer₂, c, y₂, min₂⟩).run s₁ = .ok n₂ s₂)
    (whole : (tradeWithBondingCurve k ⟨side, signer, c, y, min⟩).run s = .ok n s') :
    ∃ d, s.denom[c]? = some d ∧
      (n₁.toInt + n₂.toInt ≤ n.toInt ↔ SplitCovered side d y₁.toInt y₂.toInt) := by
  obtain ⟨q₁, traded₁, rfl⟩ := trade_eq_ok.mp first
  obtain ⟨q₂, traded₂, rfl⟩ := trade_eq_ok.mp second
  obtain ⟨q, traded, rfl⟩ := trade_eq_ok.mp whole
  have found : s.denom[c]? = some q.denom := traded.quoted.found
  have same : q₁.denom = q.denom := traded₁.quoted.record_eq found
  have name : q₁.denom.denom = c := traded₁.quoted.name keyed
  have updated : q₂.denom = side.update q₁.denom y₁ q₁.afterFee q₁.out := by
    have stored := traded₁.getElem?_denom c
    rw [if_pos name] at stored
    exact traded₂.quoted.record_eq stored
  have priced₁ := traded₁.quoted.out
  have priced₂ := traded₁.quoted.out_after traded₂.quoted rfl updated
  have priced := traded.quoted.out
  have net₁ : q₁.afterFee.toInt = net y₁.toInt := traded₁.quoted.afterFee_toInt
  have net₂ : q₂.afterFee.toInt = net y₂.toInt := traded₂.quoted.afterFee_toInt
  have net_sum : q.afterFee.toInt = net (y₁.toInt + y₂.toInt) :=
    traded.quoted.afterFee_toInt.trans (congrArg net sum)
  have saved : net y₁.toInt + net y₂.toInt - net (y₁.toInt + y₂.toInt) =
      savedFee y₁.toInt y₂.toInt := by
    unfold net savedFee
    ring
  have positive : 0 < (side.virtualIn q.denom).toInt + net y₁.toInt + net y₂.toInt := by
    have in_pos : 0 < (side.virtualIn q.denom).toInt := traded.quoted.virtualIn_pos
    have pos₁ := traded₁.quoted.afterFee_pos
    have pos₂ := traded₂.quoted.afterFee_pos
    omega
  refine ⟨q.denom, found, ?_⟩
  rw [same] at priced₁ priced₂
  rw [priced₁, net₁] at priced₂
  rw [priced₁, priced₂, priced, net₁, net₂, net_sum, output_split_le_iff positive, saved]
  unfold SplitCovered filled
  rw [product_side side]
  rfl

theorem dividing_split_pays_no_more :
    let s₁ := step Ledger.keeper newMarket (buying "alice" "rose" 10101010101)
    received Ledger.keeper ⟨.buy, "alice", "rose", 10101010101, 0⟩ newMarket +
        received Ledger.keeper ⟨.buy, "alice", "rose", 100, 0⟩ s₁ ≤
      received Ledger.keeper ⟨.buy, "alice", "rose", 10101010201, 0⟩ newMarket := by
  intro s₁
  have order : ∀ y, (buying "alice" "rose" y).order? = some ⟨.buy, "alice", "rose", y, 0⟩ :=
    fun _ => rfl
  obtain ⟨q₁, first⟩ := step_accepted (k := Ledger.keeper) (s := newMarket) (order 10101010101)
    (by decide +kernel)
  obtain ⟨q₂, second⟩ := step_accepted (k := Ledger.keeper) (s := s₁) (order 100)
    (by decide +kernel)
  obtain ⟨q, whole⟩ := step_accepted (k := Ledger.keeper) (s := newMarket) (order 10101010201)
    (by decide +kernel)
  obtain ⟨d, found, pays⟩ := split_pays_iff newMarket_reached.keyed (by decide)
    (trade_eq_ok.mpr ⟨q₁, first, rfl⟩) (trade_eq_ok.mpr ⟨q₂, second, rfl⟩)
    (trade_eq_ok.mpr ⟨q, whole, rfl⟩)
  obtain rfl := newMarket_rose found
  rw [first.received_eq, second.received_eq, whole.received_eq]
  exact pays.mpr (by decide)

/-- Two payments of 50 pay no fee, one of 100 pays one unit. -/
theorem halves_pay_more :
    let s₁ := step Ledger.keeper newMarket (buying "alice" "rose" 50)
    Reached Ledger.keeper newMarket ∧
      accepts (buyWithBondingCurve Ledger.keeper ⟨"alice", "rose", 50, 0⟩) newMarket ∧
      accepts (buyWithBondingCurve Ledger.keeper ⟨"alice", "rose", 50, 0⟩) s₁ ∧
      accepts (buyWithBondingCurve Ledger.keeper ⟨"alice", "rose", 100, 0⟩) newMarket ∧
      received Ledger.keeper ⟨.buy, "alice", "rose", 100, 0⟩ newMarket <
        received Ledger.keeper ⟨.buy, "alice", "rose", 50, 0⟩ newMarket +
          received Ledger.keeper ⟨.buy, "alice", "rose", 50, 0⟩ s₁ :=
  ⟨newMarket_reached, by decide +kernel, by decide +kernel, by decide +kernel, by decide +kernel⟩

end Fandomchain.Proof
