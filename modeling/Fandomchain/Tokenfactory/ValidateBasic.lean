import Fandomchain.Tokenfactory.MsgServer

/-!
# Checks before delivery

`types/messages_bonding_curve.go`. The application runs `ValidateBasic` of a message before its
handler; only the two trades have one. It decodes the signer with the codec of the SDK,
`accAddressFromBech32`, and not with that of the keeper.
-/

namespace Fandomchain.Tokenfactory

variable {β α : Type}

namespace Side

def amountLabel : Side → String
  | .buy => "fandom amount"
  | .sell => "token amount"

def minLabel : Side → String
  | .buy => "min tokens out"
  | .sell => "min fandom out"

end Side

def Order.validateBasic (accAddressFromBech32 : String → Except String α) (o : Order) :
    Except Err Unit :=
  match accAddressFromBech32 o.signer with
  | .error err => .error ⟨.errInvalidAddress, s!"invalid {o.side.signerLabel} address: {err}"⟩
  | .ok _ =>
      if o.denom = "" then .error ⟨.errInvalidRequest, "denom cannot be empty"⟩
      else if o.amount ≤ 0 then
        .error ⟨.errInvalidRequest, s!"{o.side.amountLabel} must be positive"⟩
      else if o.minOut < 0 then
        .error ⟨.errInvalidRequest, s!"{o.side.minLabel} cannot be negative"⟩
      else .ok ()

def MsgBuyWithBondingCurve.validateBasic (accAddressFromBech32 : String → Except String α)
    (msg : MsgBuyWithBondingCurve) : Except Err Unit :=
  msg.order.validateBasic accAddressFromBech32

def MsgSellWithBondingCurve.validateBasic (accAddressFromBech32 : String → Except String α)
    (msg : MsgSellWithBondingCurve) : Except Err Unit :=
  msg.order.validateBasic accAddressFromBech32

def Action.validateBasic (accAddressFromBech32 : String → Except String α) :
    Action α → Except Err Unit
  | .buyWithBondingCurve msg => msg.validateBasic accAddressFromBech32
  | .sellWithBondingCurve msg => msg.validateBasic accAddressFromBech32
  | _ => .ok ()

def deliver [DecidableEq α] (accAddressFromBech32 : String → Except String α) (k : Keeper β α)
    (s : Chain β) (a : Action α) : Chain β :=
  match a.validateBasic accAddressFromBech32 with
  | .ok () => step k s a
  | .error _ => s

theorem Order.validateBasic_eq_ok {accAddressFromBech32 : String → Except String α} {o : Order} :
    o.validateBasic accAddressFromBech32 = .ok () ↔
      (∃ signer, accAddressFromBech32 o.signer = .ok signer) ∧ o.denom ≠ "" ∧
        0 < o.amount.toInt ∧ 0 ≤ o.minOut.toInt := by
  have amount : o.amount ≤ 0 ↔ ¬0 < o.amount.toInt := by
    rw [Int64.le_iff_toInt_le, not_lt]
    rfl
  have minimum : o.minOut < 0 ↔ ¬0 ≤ o.minOut.toInt := by
    rw [Int64.lt_iff_toInt_lt, not_le]
    rfl
  unfold Order.validateBasic
  simp only [amount, minimum]
  cases accAddressFromBech32 o.signer with
  | error err => simp
  | ok signer =>
      by_cases named : o.denom = ""
      · simp [named]
      · by_cases positive : 0 < o.amount.toInt <;> by_cases nonneg : 0 ≤ o.minOut.toInt <;>
          simp only [named, positive, nonneg, if_false, if_true, not_true_eq_false, not_false_eq_true,
            reduceCtorEq, Except.ok.injEq, exists_eq', ne_eq, and_true, and_false]

end Fandomchain.Tokenfactory
