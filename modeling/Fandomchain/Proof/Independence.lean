import Fandomchain.Proof.Effects
import Fandomchain.Tokenfactory.Query

/-!
# Curves do not touch each other

What a message does is fixed by its own fields and the record under its own key: the shared balances
only decide whether it goes through. Two messages on different keys that go through in both orders
therefore do the same in both.
-/

namespace Fandomchain.Proof
open Fandomchain.Library Fandomchain.Tokenfactory

variable {β α : Type} {k : Keeper β α} {view : BankView β α} {m : α}

/-! ## Messages on a key -/

inductive Response where
  | createDenom
  | buyWithBondingCurve (response : MsgBuyWithBondingCurveResponse)
  | sellWithBondingCurve (response : MsgSellWithBondingCurveResponse)
  deriving DecidableEq, Repr

def denomKey? : Action α → Option String
  | .createDenom msg => some msg.denom
  | .buyWithBondingCurve msg => some msg.denom
  | .sellWithBondingCurve msg => some msg.denom
  | _ => none

def resultOf {ρ : Type} (handler : HandlerM β ρ) (s : Chain β) : Option ρ :=
  match handler.run s with
  | .ok result _ => some result
  | .error _ _ => none

theorem resultOf_eq_some {ρ : Type} {handler : HandlerM β ρ} {s : Chain β} {result : ρ} :
    resultOf handler s = some result ↔ ∃ s', handler.run s = .ok result s' := by
  unfold resultOf
  cases handler.run s <;> simp

def response? (k : Keeper β α) (s : Chain β) : Action α → Option Response
  | .createDenom msg => (resultOf (createDenom k msg) s).map fun _ => .createDenom
  | .buyWithBondingCurve msg => (resultOf (buyWithBondingCurve k msg) s).map .buyWithBondingCurve
  | .sellWithBondingCurve msg => (resultOf (sellWithBondingCurve k msg) s).map .sellWithBondingCurve
  | _ => none

def tradeResponse : Side → Int64 → Response
  | .buy, n => .buyWithBondingCurve ⟨n⟩
  | .sell, n => .sellWithBondingCurve ⟨n⟩

theorem denomKey_of_order {a : Action α} {o : Order} (order : a.order? = some o) :
    denomKey? a = some o.denom := by
  cases a with
  | buyWithBondingCurve msg =>
      cases order
      rfl
  | sellWithBondingCurve msg =>
      cases order
      rfl
  | createDenom msg => cases order
  | updateParams req => cases order
  | bankSend src dst amt => cases order

/-- Nothing but the record under its key enters the price of an order. -/
theorem Quoted.unique {o : Order} {s t : Chain β} {q q' : Quote α} (h : Quoted k o s q)
    (h' : Quoted k o t q') (same : s.denom[o.denom]? = t.denom[o.denom]?) : q = q' := by
  have trader : q.trader = q'.trader := h.trader_eq h'.trader
  have denom : q.denom = q'.denom := h.record_eq (same.trans h'.found)
  have afterFee : q.afterFee = q'.afterFee := h.afterFee.trans h'.afterFee.symm
  have out : q.out = q'.out := by
    apply Int64.toInt_inj.mp
    rw [h.out, h'.out, denom, afterFee]
  have moduleAddr : q.moduleAddr = q'.moduleAddr :=
    Option.some.inj (h.module_address.symm.trans h'.module_address)
  cases q
  cases q'
  simp_all

theorem estimate_congr {s t : Chain β} {c : String} (same : s.denom[c]? = t.denom[c]?) (side : Side)
    (amount : Int64) : estimate k s side c amount = estimate k t side c amount := by
  unfold estimate Keeper.getDenom
  rw [same]

theorem getBondingCurvePrice_congr {s t : Chain β} {c : String}
    (same : s.denom[c]? = t.denom[c]?) :
    getBondingCurvePrice k s (some ⟨c⟩) = getBondingCurvePrice k t (some ⟨c⟩) := by
  unfold getBondingCurvePrice Keeper.getDenom nonNil
  simp only [bind, Except.bind, same]

variable [DecidableEq α]

inductive Accepted (k : Keeper β α) (s : Chain β) : Action α → Response → Prop
  | created {msg : MsgCreateDenom} (created : Created k msg s (step k s (.createDenom msg))) :
      Accepted k s (.createDenom msg) .createDenom
  | traded {a : Action α} {o : Order} {q : Quote α} (order : a.order? = some o)
      (traded : Traded k o q s (step k s a)) : Accepted k s a (tradeResponse o.side q.out)

theorem accepted_of_response {s : Chain β} {a : Action α} {r : Response}
    (h : response? k s a = some r) : Accepted k s a r := by
  cases a with
  | createDenom msg =>
      obtain ⟨_, result, rfl⟩ := Option.map_eq_some_iff.mp h
      obtain ⟨s', run⟩ := resultOf_eq_some.mp result
      have created := createDenom_eq_ok.mp run
      rw [← step_createDenom created] at created
      exact .created created
  | buyWithBondingCurve msg =>
      obtain ⟨_, result, rfl⟩ := Option.map_eq_some_iff.mp h
      obtain ⟨s', run⟩ := resultOf_eq_some.mp result
      obtain ⟨q, traded, rfl⟩ := buy_eq_ok.mp run
      have order : (Action.buyWithBondingCurve msg : Action α).order? = some msg.order := rfl
      rw [← step_traded order traded] at traded
      exact .traded order traded
  | sellWithBondingCurve msg =>
      obtain ⟨_, result, rfl⟩ := Option.map_eq_some_iff.mp h
      obtain ⟨s', run⟩ := resultOf_eq_some.mp result
      obtain ⟨q, traded, rfl⟩ := sell_eq_ok.mp run
      have order : (Action.sellWithBondingCurve msg : Action α).order? = some msg.order := rfl
      rw [← step_traded order traded] at traded
      exact .traded order traded
  | updateParams req => cases h
  | bankSend src dst amt => cases h

structure Writes (view : BankView β α) (c : String) (d : Denom) (δ : α → String → ℤ)
    (s s' : Chain β) : Prop where
  denom : s'.denom = s.denom.insert c d
  balance : ∀ x e, view.balance s'.bank x e = view.balance s.bank x e + δ x e

theorem Created.writes (law : Lawful k view m) {msg : MsgCreateDenom} {s s' : Chain β}
    (h : Created k msg s s') : Writes view msg.denom (newDenom msg)
      (fun x e => if x = m then (if e = msg.denom then 800000000000 else 0) else 0) s s' :=
  ⟨h.denom_eq, h.balance_eq law⟩

theorem Traded.writes (law : Lawful k view m) {o : Order} {q : Quote α} {s s' : Chain β}
    (h : Traded k o q s s') (name : q.denom.denom = o.denom) :
    Writes view o.denom (o.side.update q.denom o.amount q.afterFee q.out)
      (fun x e => (if x = m then flow o q e else 0) - (if x = q.trader then flow o q e else 0))
      s s' := by
  refine ⟨name ▸ h.denom_eq, fun x e => ?_⟩
  rw [h.balance_eq law]
  ring

/-- A message that goes through in two states with the same record under its key does the same. -/
theorem same_writes (law : Lawful k view m) {s t : Chain β} (keyed : Keyed s) {a : Action α}
    {c : String} (key : denomKey? a = some c) (same : s.denom[c]? = t.denom[c]?) {r r' : Response}
    (here : response? k s a = some r) (there : response? k t a = some r') :
    r = r' ∧ ∃ d δ, Writes view c d δ s (step k s a) ∧ Writes view c d δ t (step k t a) := by
  have one := accepted_of_response here
  have two := accepted_of_response there
  cases one with
  | created created =>
      cases two with
      | created created' =>
          cases key
          exact ⟨rfl, _, _, created.writes law, created'.writes law⟩
      | traded order => cases order
  | @traded _ o q order traded =>
      cases two with
      | created => cases order
      | @traded _ o' q' order' traded' =>
          obtain rfl : o = o' := Option.some.inj (order.symm.trans order')
          obtain rfl : o.denom = c := Option.some.inj ((denomKey_of_order order).symm.trans key)
          obtain rfl := traded.quoted.unique traded'.quoted same
          have name := traded.quoted.name keyed
          exact ⟨rfl, _, _, traded.writes law name, traded'.writes law name⟩

theorem other_record_kept {s : Chain β} (keyed : Keyed s) {a : Action α} {c c' : String}
    (key : denomKey? a = some c) (apart : c ≠ c') : (step k s a).denom[c']? = s.denom[c']? := by
  have stepped := step_stepped (k := k) s a
  generalize step k s a = s' at stepped ⊢
  cases stepped with
  | rejected => rfl
  | created created =>
      cases key
      rw [created.getElem?_denom, if_neg apart]
  | @traded _ o q _ order traded =>
      obtain rfl : o.denom = c := Option.some.inj ((denomKey_of_order order).symm.trans key)
      rw [traded.getElem?_denom, traded.quoted.name keyed, if_neg apart]
  | updated => rfl
  | transferred => rfl

/-- Two messages on different keys, accepted in both orders, answer the same and leave the same
records and balances, and no message on one key moves a price or an estimate on another. -/
theorem messages_independent (law : Lawful k view m) {s : Chain β} (reached : Reached k s)
    {a₁ : Action α} {c₁ c₂ : String} (key₁ : denomKey? a₁ = some c₁) (apart : c₁ ≠ c₂) :
    (∀ a₂ r₁ r₂ r₁' r₂', denomKey? a₂ = some c₂ →
      response? k s a₁ = some r₁ → response? k (step k s a₁) a₂ = some r₂ →
      response? k s a₂ = some r₂' → response? k (step k s a₂) a₁ = some r₁' →
      r₁ = r₁' ∧ r₂ = r₂' ∧
        (step k (step k s a₁) a₂).denom = (step k (step k s a₂) a₁).denom ∧
        ∀ x c, view.balance (step k (step k s a₁) a₂).bank x c =
          view.balance (step k (step k s a₂) a₁).bank x c) ∧
    getBondingCurvePrice k (step k s a₁) (some ⟨c₂⟩) = getBondingCurvePrice k s (some ⟨c₂⟩) ∧
    ∀ side amount, estimate k (step k s a₁) side c₂ amount = estimate k s side c₂ amount := by
  have kept := other_record_kept (k := k) reached.keyed key₁ apart
  refine ⟨?_, getBondingCurvePrice_congr kept, estimate_congr kept⟩
  intro a₂ r₁ r₂ r₁' r₂' key₂ one then_two two then_one
  have kept' := other_record_kept (k := k) reached.keyed key₂ apart.symm
  obtain ⟨same₁, d₁, δ₁, first, last⟩ := same_writes law reached.keyed key₁ kept'.symm one then_one
  obtain ⟨same₂, d₂, δ₂, first', last'⟩ := same_writes law reached.keyed key₂ kept.symm two then_two
  refine ⟨same₁, same₂.symm, ?_, fun x c => ?_⟩
  · rw [last'.denom, last.denom, first.denom, first'.denom]
    exact insert_comm s.denom apart d₁ d₂
  · rw [last'.balance, last.balance, first.balance, first'.balance]
    ring

/-- A curve on the payment coin itself beside another one. -/
theorem payment_coin_curve_independent :
    let s := step Ledger.keeper newMarket (creation "alice" "fandomChain")
    let rose := buying "alice" "rose" 1000
    let payment := buying "alice" "fandomChain" 500
    (step Ledger.keeper (step Ledger.keeper s rose) payment).denom =
      (step Ledger.keeper (step Ledger.keeper s payment) rose).denom := by
  intro s rose payment
  have reached : Reached Ledger.keeper s := newMarket_reached.run [creation "alice" "fandomChain"]
  have key : denomKey? rose = some "rose" := rfl
  have independent := messages_independent Ledger.lawful reached key
    (show "rose" ≠ "fandomChain" by decide)
  have one : (response? Ledger.keeper s rose).isSome := by decide +kernel
  have then_two : (response? Ledger.keeper (step Ledger.keeper s rose) payment).isSome := by
    decide +kernel
  have two : (response? Ledger.keeper s payment).isSome := by decide +kernel
  have then_one : (response? Ledger.keeper (step Ledger.keeper s payment) rose).isSome := by
    decide +kernel
  obtain ⟨_, one⟩ := Option.isSome_iff_exists.mp one
  obtain ⟨_, then_two⟩ := Option.isSome_iff_exists.mp then_two
  obtain ⟨_, two⟩ := Option.isSome_iff_exists.mp two
  obtain ⟨_, then_one⟩ := Option.isSome_iff_exists.mp then_one
  obtain ⟨-, -, same, -⟩ := independent.1 payment _ _ _ _ rfl one then_two two then_one
  exact same

end Fandomchain.Proof
