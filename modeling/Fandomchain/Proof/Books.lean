import Fandomchain.Proof.Accounting
import Fandomchain.Proof.Range

/-!
# The books of the module account

Every unit of a coin that the module account holds beyond what it started with is a recorded reserve
or was sent to it by a transfer: fees stay in the reserves, and no trade leaves anything beside them.
-/

namespace Fandomchain.Proof
open Fandomchain.Library Fandomchain.Tokenfactory

variable {β α : Type} {k : Keeper β α} {view : BankView β α} {m : α}

def owed (c : String) (d : Denom) : ℤ :=
  (if c = d.denom then d.realTokenReserves.toInt else 0) +
    (if c = "fandomChain" then d.realFandomReserves.toInt else 0)

theorem owed_side (side : Side) (c : String) (d : Denom) : owed c d =
    (if c = side.coinIn d then (side.realIn d).toInt else 0) +
      (if c = side.coinOut d then (side.realOut d).toInt else 0) := by
  cases side with
  | buy => exact add_comm _ _
  | sell => rfl

theorem owed_newDenom (c : String) (msg : MsgCreateDenom) :
    owed c (newDenom msg) = if c = msg.denom then 800000000000 else 0 := by
  unfold owed
  simp

theorem ExactUpdate.owed_eq {o : Order} {q : Quote α} (exact : ExactUpdate o q) (c : String) :
    owed c (o.side.update q.denom o.amount q.afterFee q.out) = owed c q.denom + flow o q c := by
  rw [owed_side o.side, owed_side o.side c q.denom, Side.coinIn_update, Side.coinOut_update,
    Side.realIn_update, Side.realOut_update, exact.realIn, exact.realOut, flow]
  split <;> split <;> ring

def surplus (view : BankView β α) (m : α) (c : String) (s : Chain β) : ℤ :=
  view.balance s.bank m c - sumOver (owed c) s.denom

variable [DecidableEq α]

/-- What a transfer brings to `m`. -/
def donated (k : Keeper β α) (m : α) (c : String) (s : Chain β) : Action α → ℤ
  | .bankSend src dst amt =>
      match k.bankKeeper.sendCoins s.bank src dst amt with
      | .ok _ => if dst = m then amountOfNoDenomValidation amt c else 0
      | .error _ => 0
  | _ => 0

theorem surplus_of_message (law : Lawful k view m) {s : Chain β} (keyed : Keyed s) {a : Action α}
    (external : External k m a) (exact : OnlyExact k s a) (message : IsMessage a) (c : String) :
    surplus view m c (step k s a) = surplus view m c s := by
  have stepped := step_stepped (k := k) s a
  unfold OnlyExact at exact
  generalize step k s a = s' at stepped exact ⊢
  unfold surplus
  cases stepped with
  | rejected => rfl
  | created created =>
      rw [created.sumOver_eq, created.balance_eq law, if_pos rfl, owed_newDenom]
      ring
  | @traded _ o q _ order traded =>
      have other := traded.trader_ne external order
      rw [traded.sumOver_eq keyed, traded.module_balance_eq law other,
        (exact o q order traded).owed_eq]
      ring
  | updated => rfl
  | transferred => cases message

theorem surplus_of_transfer (law : Lawful k view m) {s : Chain β} {src dst : α} (out : src ≠ m)
    (amt : Coins) (c : String) : surplus view m c (step k s (.bankSend src dst amt)) =
      surplus view m c s + donated k m c s (.bankSend src dst amt) := by
  cases sent : k.bankKeeper.sendCoins s.bank src dst amt with
  | error err => simp only [step, donated, sent, add_zero]
  | ok bank =>
      have moved := law.send_balance _ _ _ _ _ sent m c
      rw [if_neg out.symm, sub_zero] at moved
      simp only [step, donated, sent, surplus, moved, eq_comm (a := m)]
      ring

theorem surplus_step (law : Lawful k view m) {s : Chain β} (keyed : Keyed s) {a : Action α}
    (external : External k m a) (exact : OnlyExact k s a) (c : String) :
    surplus view m c (step k s a) = surplus view m c s + donated k m c s a := by
  by_cases message : IsMessage a
  · have none_given : donated k m c s a = 0 := by
      cases a with
      | bankSend src dst amt => exact absurd message id
      | createDenom msg => rfl
      | buyWithBondingCurve msg => rfl
      | sellWithBondingCurve msg => rfl
      | updateParams req => rfl
    rw [surplus_of_message law keyed external exact message, none_given, add_zero]
  · cases a with
    | bankSend src dst amt => exact surplus_of_transfer law external amt c
    | createDenom msg => exact absurd trivial message
    | buyWithBondingCurve msg => exact absurd trivial message
    | sellWithBondingCurve msg => exact absurd trivial message
    | updateParams req => exact absurd trivial message

/-- After any run in which the module account signs nothing, it holds what it started with, what the
records owe and what was sent to it. -/
theorem module_books_balance (law : Lawful k view m) {start : Chain β} (empty : EmptyStore start)
    {as : List (Action α)} (along : Along (step k) (Balanced k view m) start as) (c : String) :
    view.balance (as.foldl (step k) start).bank m c =
      view.balance start.bank m c + sumOver (owed c) (as.foldl (step k) start).denom +
        sumAlong (step k) (donated k m c) start as := by
  have moves : ∀ s a, Ranged view m s → Balanced k view m s a →
      surplus view m c (step k s a) = surplus view m c s + donated k m c s a := by
    intro s a h allowed
    exact surplus_step law h.solvent.keyed allowed.external (h.onlyExact law allowed) c
  have moved := eq_add_sumAlong (fun _ _ => ranged_balanced_step law) moves (ranged_of_empty law empty) along
  have nothing : sumOver (owed c) start.denom = 0 := by
    rw [show start.denom = ∅ from empty, sumOver_empty]
  unfold surplus at moved
  omega

def marketActions : List (Action String) :=
  [creation "alice" "rose", buying "alice" "rose" 1000000000, buying "bob" "rose" 5000,
    .bankSend "bob" "tokenfactory" [⟨"fandomChain", 7⟩], selling "alice" "rose" 1000000]

theorem market_books_balance :
    let after := marketActions.foldl (step Ledger.keeper) opening
    Ledger.view.balance after.bank "tokenfactory" "fandomChain" =
      sumOver (owed "fandomChain") after.denom + 7 := by
  have balanced : Along (step Ledger.keeper) (Balanced Ledger.keeper Ledger.view "tokenfactory")
      opening marketActions := ledger_balanced (by decide) (by decide +kernel) (by decide +kernel)
  have books := module_books_balance Ledger.lawful opening_empty balanced "fandomChain"
  have given : sumAlong (step Ledger.keeper) (donated Ledger.keeper "tokenfactory" "fandomChain")
      opening marketActions = 7 := by decide +kernel
  have none_before : Ledger.view.balance opening.bank "tokenfactory" "fandomChain" = 0 := by decide
  rw [given, none_before, zero_add] at books
  exact books

end Fandomchain.Proof
