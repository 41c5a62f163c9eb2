import Fandomchain.Proof.Effects
import Fandomchain.Tokenfactory.ValidateBasic

/-!
# What the checks before delivery refuse

On the trades that a handler would accept `ValidateBasic` refuses a negative minimum and nothing
else, and since such a trade is the trade with the minimum zero, nobody loses a trade by it.
-/

namespace Fandomchain.Proof
open Fandomchain.Library Fandomchain.Tokenfactory

variable {β α : Type} {k : Keeper β α}

def NonnegativeMin (a : Action α) : Prop := ∀ o ∈ a.order?, 0 ≤ o.minOut.toInt

instance (a : Action α) : Decidable (NonnegativeMin a) :=
  match h : a.order? with
  | none => .isTrue fun o mem => by rw [h] at mem; cases mem
  | some o => decidable_of_iff (0 ≤ o.minOut.toInt) (by simp [NonnegativeMin, h])

/-- The action with the minimum at least zero. -/
def raised : Action α → Action α
  | .buyWithBondingCurve msg =>
      .buyWithBondingCurve { msg with minTokensOut := if msg.minTokensOut < 0 then 0 else msg.minTokensOut }
  | .sellWithBondingCurve msg =>
      .sellWithBondingCurve { msg with minFandomOut := if msg.minFandomOut < 0 then 0 else msg.minFandomOut }
  | a => a

def SameDecoder (accAddressFromBech32 : String → Except String α) (k : Keeper β α) : Prop :=
  ∀ text, (∃ signer, accAddressFromBech32 text = .ok signer) ↔
    ∃ signer, k.addressCodec.stringToBytes text = .ok signer

theorem validateBasic_of_order {accAddressFromBech32 : String → Except String α} {a : Action α}
    {o : Order} (order : a.order? = some o) :
    a.validateBasic accAddressFromBech32 = o.validateBasic accAddressFromBech32 := by
  cases a <;> simp only [Action.order?, Option.some.injEq, reduceCtorEq] at order <;> subst order <;> rfl

theorem raisedMin_nonneg (n : Int64) : 0 ≤ (if n < 0 then 0 else n).toInt := by
  split
  · decide
  · rename_i nonneg
    rw [Int64.lt_iff_toInt_lt, not_lt] at nonneg
    exact nonneg

theorem raisedMin_le_iff (n : Int64) {out : ℤ} (nonneg : 0 ≤ out) :
    (if n < 0 then 0 else n).toInt ≤ out ↔ n.toInt ≤ out := by
  split
  · rename_i negative
    have below : n.toInt < 0 := Int64.lt_iff_toInt_lt.mp negative
    exact iff_of_true nonneg (by omega)
  · rfl

def raisedOrder (o : Order) : Order := { o with minOut := if o.minOut < 0 then 0 else o.minOut }

theorem order_raised (a : Action α) : (raised a).order? = a.order?.map raisedOrder := by
  cases a <;> rfl

theorem nonnegativeMin_raised (a : Action α) : NonnegativeMin (raised a) := by
  intro o order
  rw [order_raised, Option.mem_def, Option.map_eq_some_iff] at order
  obtain ⟨o, -, rfl⟩ := order
  exact raisedMin_nonneg o.minOut

theorem traded_raised {o : Order} {q : Quote α} {s s' : Chain β} :
    Traded k (raisedOrder o) q s s' ↔ Traded k o q s s' := by
  constructor
  · intro h
    have slippage := (raisedMin_le_iff o.minOut h.quoted.out_pos.le).mp h.quoted.slippage
    exact ⟨{ h.quoted with slippage }, h.coin_out_valid, h.sent⟩
  · intro h
    have slippage := (raisedMin_le_iff o.minOut h.quoted.out_pos.le).mpr h.quoted.slippage
    exact ⟨{ h.quoted with slippage }, h.coin_out_valid, h.sent⟩

variable [DecidableEq α]

theorem validateBasic_of_traded {accAddressFromBech32 : String → Except String α}
    (same : SameDecoder accAddressFromBech32 k) {s s' : Chain β} (reached : Reached k s) {o : Order}
    {q : Quote α} (traded : Traded k o q s s') (minimum : 0 ≤ o.minOut.toInt) :
    o.validateBasic accAddressFromBech32 = .ok () := by
  have quoted := traded.quoted
  refine Order.validateBasic_eq_ok.mpr ⟨(same _).mpr ⟨q.trader, quoted.trader⟩, ?_,
    quoted.amount_pos, minimum⟩
  intro empty
  have valid := (reached.issued _ _ quoted.found).valid_name
  rw [quoted.name reached.keyed, empty] at valid
  exact absurd valid (by decide)

theorem deliver_eq {accAddressFromBech32 : String → Except String α}
    (same : SameDecoder accAddressFromBech32 k) {s : Chain β} (reached : Reached k s) (a : Action α) :
    deliver accAddressFromBech32 k s a = if NonnegativeMin a then step k s a else s := by
  unfold deliver
  cases order : a.order? with
  | none =>
      have unchecked : a.validateBasic accAddressFromBech32 = .ok () := by
        cases a with
        | buyWithBondingCurve => cases order
        | sellWithBondingCurve => cases order
        | createDenom => rfl
        | updateParams => rfl
        | bankSend => rfl
      have allowed : NonnegativeMin a := by simp [NonnegativeMin, order]
      rw [unchecked, if_pos allowed]
  | some o =>
      have minimum : NonnegativeMin a ↔ 0 ≤ o.minOut.toInt := by simp [NonnegativeMin, order]
      rw [validateBasic_of_order order]
      cases checked : o.validateBasic accAddressFromBech32 with
      | ok =>
          have passed := Order.validateBasic_eq_ok.mp checked
          rw [if_pos (minimum.mpr passed.2.2.2)]
      | error err =>
          by_cases allowed : NonnegativeMin a
          · rw [if_pos allowed]
            refine (step_of_rejected order ?_).symm
            rintro ⟨q, s', traded⟩
            rw [validateBasic_of_traded same reached traded (minimum.mp allowed)] at checked
            cases checked
          · rw [if_neg allowed]

theorem step_raised (s : Chain β) (a : Action α) : step k s (raised a) = step k s a := by
  cases order : a.order? with
  | none =>
      cases a with
      | buyWithBondingCurve => cases order
      | sellWithBondingCurve => cases order
      | createDenom => rfl
      | updateParams => rfl
      | bankSend => rfl
  | some o =>
      have order' : (raised a).order? = some (raisedOrder o) := by
        rw [order_raised, order]
        rfl
      by_cases accepted : ∃ q s', Traded k o q s s'
      · obtain ⟨q, s', traded⟩ := accepted
        rw [step_traded order traded, step_traded order' (traded_raised.mpr traded)]
      · rw [step_of_rejected order accepted, step_of_rejected order' ?_]
        simpa only [traded_raised] using accepted

/-- Checked before delivery, a run is the run of the actions without a negative minimum, and every
run of the handlers can be had under the checks. -/
theorem delivered_runs {accAddressFromBech32 : String → Except String α}
    (same : SameDecoder accAddressFromBech32 k) {s : Chain β} (reached : Reached k s)
    (as : List (Action α)) :
    as.foldl (deliver accAddressFromBech32 k) s =
        (as.filter fun a => NonnegativeMin a).foldl (step k) s ∧
      (as.map raised).foldl (deliver accAddressFromBech32 k) s = as.foldl (step k) s := by
  constructor
  · induction as generalizing s with
    | nil => rfl
    | cons a rest ih =>
        rw [List.foldl_cons, deliver_eq same reached, List.filter_cons]
        by_cases allowed : NonnegativeMin a
        · simp only [allowed, if_true, decide_true, List.foldl_cons]
          exact ih (reached.run [a])
        · simp only [allowed, if_false, decide_false, Bool.false_eq_true]
          exact ih reached
  · induction as generalizing s with
    | nil => rfl
    | cons a rest ih =>
        rw [List.map_cons, List.foldl_cons, deliver_eq same reached, if_pos (nonnegativeMin_raised a),
          step_raised]
        exact ih (reached.run [a])

def carelessBuy : Action String := .buyWithBondingCurve ⟨"alice", "rose", 1000000, -1⟩

theorem carelessBuy_delivered :
    [carelessBuy].foldl (deliver Ledger.keeper.addressCodec.stringToBytes Ledger.keeper) newMarket =
        newMarket ∧
      [raised carelessBuy].foldl (deliver Ledger.keeper.addressCodec.stringToBytes Ledger.keeper)
        newMarket = step Ledger.keeper newMarket carelessBuy :=
  delivered_runs (fun _ => Iff.rfl) newMarket_reached [carelessBuy]

end Fandomchain.Proof
