import Fandomchain.Proof.Range

/-!
# The frame of a trade

What an accepted trade changes and that it changes nothing else, and what the messages of the module
leave alone over a whole run.
-/

namespace Fandomchain.Proof
open Fandomchain.Library Fandomchain.Tokenfactory

variable {β α : Type} {k : Keeper β α} {view : BankView β α} {m : α}

/-- The record without its four reserves. -/
def identity (d : Denom) : Denom :=
  { d with
    virtualTokenReserves := 0
    virtualFandomReserves := 0
    realTokenReserves := 0
    realFandomReserves := 0 }

@[simp] theorem identity_update (side : Side) (d : Denom) (amount afterFee out : Int64) :
    identity (side.update d amount afterFee out) = identity d := by
  cases side <;> rfl

structure TradeEffect (view : BankView β α) (m : α) (o : Order) (n : ℤ) (trader : α)
    (s s' : Chain β) (d d' : Denom) : Prop where
  found : s.denom[o.denom]? = some d
  name : d.denom = o.denom
  received : max o.minOut.toInt 1 ≤ n
  trader_balance : ∀ c, view.balance s'.bank trader c = view.balance s.bank trader c
    - (if c = o.side.coinIn d then o.amount.toInt else 0)
    + (if c = o.side.coinOut d then n else 0)
  module_balance : ∀ c, view.balance s'.bank m c = view.balance s.bank m c
    + (if c = o.side.coinIn d then o.amount.toInt else 0)
    - (if c = o.side.coinOut d then n else 0)
  other_balances : ∀ a, a ≠ trader → a ≠ m → view.balance s'.bank a = view.balance s.bank a
  supply : view.supply s'.bank = view.supply s.bank
  records : s'.denom = s.denom.insert o.denom d'
  virtualIn : (o.side.virtualIn d').toInt =
    (o.side.virtualIn d).toInt + (o.amount.toInt - o.amount.toInt / 100)
  realIn : (o.side.realIn d').toInt = (o.side.realIn d).toInt + o.amount.toInt
  virtualOut : (o.side.virtualOut d').toInt = (o.side.virtualOut d).toInt - n
  realOut : (o.side.realOut d').toInt = (o.side.realOut d).toInt - n
  other_fields : identity d' = identity d
  params : s'.params = s.params
  port : s'.port = s.port

structure Lasting (k : Keeper β α) (c : String) (d : Denom) (s : Chain β) : Prop where
  record : ∃ d', s.denom[c]? = some d' ∧ identity d' = identity d
  created_once : ∀ msg, msg.denom = c → ¬accepts (createDenom k msg) s

theorem not_created_again {s : Chain β} {c : String} {d : Denom} (found : s.denom[c]? = some d)
    {msg : MsgCreateDenom} (name : msg.denom = c) : ¬accepts (createDenom k msg) s := by
  intro accepted
  obtain ⟨s', created⟩ := createDenom_accepts_iff.mp accepted
  exact created.name_ne found name

variable [DecidableEq α]

theorem Traded.effect (law : Lawful k view m) {o : Order} {q : Quote α} {s s' : Chain β}
    (h : Traded k o q s s') (keyed : Keyed s) (outside : q.trader ≠ m) (fits : NoWrap o q.denom) :
    TradeEffect view m o q.out.toInt q.trader s s' q.denom
      (o.side.update q.denom o.amount q.afterFee q.out) := by
  have quoted := h.quoted
  have counted := quoted.countsExactly (quoted.exactUpdate_of_noWrap fits)
  have name := quoted.name keyed
  have out_pos := quoted.out_pos
  exact {
    found := quoted.found
    name
    received := max_le quoted.slippage out_pos
    trader_balance := by
      intro c
      rw [h.trader_balance_eq law outside, flow]
      ring
    module_balance := by
      intro c
      rw [h.module_balance_eq law outside, flow]
      ring
    other_balances := by
      intro a not_trader not_module
      funext c
      rw [h.balance_eq law, if_neg not_trader, if_neg not_module, sub_zero, add_zero]
    supply := h.supply_eq law
    records := name ▸ h.denom_eq
    virtualIn := counted.virtualIn
    realIn := counted.realIn
    virtualOut := counted.virtualOut
    realOut := counted.realOut
    other_fields := identity_update _ _ _ _ _
    params := by
      obtain ⟨_, _, _, _, rfl⟩ := h.sent
      rfl
    port := by
      obtain ⟨_, _, _, _, rfl⟩ := h.sent
      rfl }

theorem identity_step {s : Chain β} (keyed : Keyed s) {c : String} {d : Denom}
    (found : s.denom[c]? = some d) (a : Action α) :
    ∃ d', (step k s a).denom[c]? = some d' ∧ identity d' = identity d := by
  rcases record_step (k := k) keyed found a with same | ⟨o, q, -, -, -, -, stored⟩
  · exact ⟨d, same, rfl⟩
  · exact ⟨_, stored, identity_update _ _ _ _ _⟩

theorem lasting_run {as : List (Action α)} {s : Chain β} (keyed : Keyed s) {c : String} {d : Denom}
    (found : s.denom[c]? = some d) : Lasting k c d (as.foldl (step k) s) := by
  induction as generalizing s d with
  | nil => exact ⟨⟨d, found, rfl⟩, fun _ => not_created_again found⟩
  | cons a rest ih =>
      obtain ⟨e, stored, same⟩ := identity_step (k := k) keyed found a
      have later := ih (keyed_step keyed a) stored
      obtain ⟨d', final, kept⟩ := later.record
      exact ⟨⟨d', final, kept.trans same⟩, later.created_once⟩

def OnlySignersPay (k : Keeper β α) (view : BankView β α) (m : α) (s : Chain β) (a : Action α) :
    Prop :=
  ∀ x c, view.balance (step k s a).bank x c < view.balance s.bank x c →
    ∃ o, a.order? = some o ∧ accepts (tradeWithBondingCurve k o) s ∧
      (k.addressCodec.stringToBytes o.signer = .ok x ∨ x = m)

theorem onlySignersPay_step (law : Lawful k view m) (s : Chain β) {a : Action α}
    (message : IsMessage a) : OnlySignersPay k view m s a := by
  intro x c less
  have stepped := step_stepped (k := k) s a
  generalize step k s a = s' at stepped less
  cases stepped with
  | rejected => exact absurd less (lt_irrefl _)
  | created created =>
      rw [created.balance_eq law] at less
      split_ifs at less <;> omega
  | @traded _ o q _ order traded =>
      refine ⟨o, order, trade_accepts_iff.mpr ⟨q, s', traded⟩, ?_⟩
      by_contra neither
      obtain ⟨not_signer, not_module⟩ := not_or.mp neither
      have other : x ≠ q.trader := fun same => not_signer (same ▸ traded.quoted.trader)
      rw [traded.balance_eq law, if_neg other, if_neg not_module] at less
      omega
  | updated => exact absurd less (lt_irrefl _)
  | transferred => cases message

theorem ReachedByMessages.keyed {s : Chain β} (reached : ReachedByMessages k s) : Keyed s :=
  Reachable.invariant (I := Keyed) (fun _ => keyed_of_empty) (fun _ a h _ => keyed_step h a) reached

/-- An accepted trade of another account moves the two coins and the four reserves by stated
amounts and nothing else. Over runs of messages records last and only signers pay. -/
theorem trades_framed (law : Lawful k view m) :
    (∀ s, Reached k s →
      (∀ msg response s', (buyWithBondingCurve k msg).run s = .ok response s' →
        k.addressCodec.stringToBytes msg.buyer ≠ .ok m →
        (∀ d, s.denom[msg.denom]? = some d → NoWrap msg.order d) →
        ∃ trader d d', k.addressCodec.stringToBytes msg.buyer = .ok trader ∧
          TradeEffect view m msg.order response.tokensReceived.toInt trader s s' d d') ∧
      (∀ msg response s', (sellWithBondingCurve k msg).run s = .ok response s' →
        k.addressCodec.stringToBytes msg.seller ≠ .ok m →
        (∀ d, s.denom[msg.denom]? = some d → NoWrap msg.order d) →
        ∃ trader d d', k.addressCodec.stringToBytes msg.seller = .ok trader ∧
          TradeEffect view m msg.order response.fandomReceived.toInt trader s s' d d')) ∧
    ∀ s, ReachedByMessages k s → ∀ as, (∀ a ∈ as, IsMessage a) →
      (∀ c d, s.denom[c]? = some d → Lasting k c d (as.foldl (step k) s)) ∧
      (∀ msg, accepts (createDenom k msg) s → Lasting k msg.denom (newDenom msg)
        (as.foldl (step k) (step k s (.createDenom msg)))) ∧
      Along (step k) (OnlySignersPay k view m) s as := by
  have effect : ∀ o q s s', Reached k s → Traded k o q s s' →
      k.addressCodec.stringToBytes o.signer ≠ .ok m →
      (∀ d, s.denom[o.denom]? = some d → NoWrap o d) →
      ∃ trader d d', k.addressCodec.stringToBytes o.signer = .ok trader ∧
        TradeEffect view m o q.out.toInt trader s s' d d' := by
    intro o q s s' reached traded outside fits
    have other : q.trader ≠ m := fun own => outside (own ▸ traded.quoted.trader)
    exact ⟨q.trader, q.denom, _, traded.quoted.trader,
      traded.effect law reached.keyed other (fits _ traded.quoted.found)⟩
  refine ⟨fun s reached => ⟨?_, ?_⟩, ?_⟩
  · intro msg response s' accepted outside fits
    obtain ⟨q, traded, rfl⟩ := buy_eq_ok.mp accepted
    exact effect msg.order q s s' reached traded outside fits
  · intro msg response s' accepted outside fits
    obtain ⟨q, traded, rfl⟩ := sell_eq_ok.mp accepted
    exact effect msg.order q s s' reached traded outside fits
  · intro s reached as messages
    refine ⟨fun c d found => lasting_run reached.keyed found, ?_, ?_⟩
    · intro msg accepted
      have created := step_created accepted
      exact lasting_run (keyed_step reached.keyed _) created.record
    · exact (along_of_forall_mem messages).mono fun t _ => onlySignersPay_step law t

theorem rose_buy_framed :
    ∃ n trader d d', TradeEffect Ledger.view "tokenfactory" ⟨.buy, "alice", "rose", 1000, 0⟩ n trader
      newMarket (step Ledger.keeper newMarket (buying "alice" "rose" 1000)) d d' := by
  have order : (buying "alice" "rose" 1000).order? = some ⟨.buy, "alice", "rose", 1000, 0⟩ := rfl
  obtain ⟨q, traded⟩ := step_accepted (k := Ledger.keeper) (s := newMarket) order (by decide +kernel)
  have effects := (trades_framed Ledger.lawful).1 newMarket newMarket_reached
  have fits : ∀ d, newMarket.denom["rose"]? = some d →
      NoWrap ⟨.buy, "alice", "rose", 1000, 0⟩ d := by
    intro d found
    obtain rfl := newMarket_rose found
    exact ⟨by decide, by decide⟩
  obtain ⟨trader, d, d', -, effect⟩ := effects.1 ⟨"alice", "rose", 1000, 0⟩ _ _
    (buy_eq_ok.mpr ⟨q, traded, rfl⟩) (by decide) fits
  exact ⟨_, trader, d, d', effect⟩

end Fandomchain.Proof
