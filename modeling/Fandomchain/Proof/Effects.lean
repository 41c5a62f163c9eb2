import Fandomchain.Library.OrderedMap
import Fandomchain.Library.Run
import Fandomchain.Proof.Handlers
import Fandomchain.Tokenfactory.Ledger

/-!
# The steps of the chain

`Stepped` lists what one action can do to the state, guards included, and the laws of the bank turn
the two transfers of a trade into one flow between the trader and the module account.
-/

namespace Fandomchain.Proof
open Fandomchain.Library Fandomchain.Tokenfactory

variable {β α : Type} {k : Keeper β α} {view : BankView β α} {m : α}

/-! ## Runs -/

def External (k : Keeper β α) (m : α) : Action α → Prop
  | .createDenom msg => k.addressCodec.stringToBytes msg.owner ≠ .ok m
  | .buyWithBondingCurve msg => k.addressCodec.stringToBytes msg.buyer ≠ .ok m
  | .sellWithBondingCurve msg => k.addressCodec.stringToBytes msg.seller ≠ .ok m
  | .updateParams msg => k.addressCodec.stringToBytes msg.authority ≠ .ok m
  | .bankSend fromAddr _ _ => fromAddr ≠ m

instance [DecidableEq α] (a : Action α) : Decidable (External k m a) :=
  match a with
  | .createDenom _ | .buyWithBondingCurve _ | .sellWithBondingCurve _ | .updateParams _ =>
      inferInstanceAs (Decidable (_ ≠ _))
  | .bankSend _ _ _ => inferInstanceAs (Decidable (_ ≠ _))

def IsMessage : Action α → Prop
  | .bankSend _ _ _ => False
  | _ => True

instance (a : Action α) : Decidable (IsMessage a) :=
  match a with
  | .bankSend _ _ _ => inferInstanceAs (Decidable False)
  | .createDenom _ | .buyWithBondingCurve _ | .sellWithBondingCurve _ | .updateParams _ =>
      inferInstanceAs (Decidable True)

def EmptyStore (s : Chain β) : Prop := s.denom = ∅

theorem External.order {a : Action α} {o : Order} (h : External k m a) (order : a.order? = some o) :
    k.addressCodec.stringToBytes o.signer ≠ .ok m := by
  cases a with
  | buyWithBondingCurve msg =>
      cases order
      exact h
  | sellWithBondingCurve msg =>
      cases order
      exact h
  | createDenom msg => cases order
  | updateParams msg => cases order
  | bankSend src dst amt => cases order

theorem Traded.denom_eq {o : Order} {q : Quote α} {s s' : Chain β} (h : Traded k o q s s') :
    s'.denom = s.denom.insert q.denom.denom
      (o.side.update q.denom o.amount q.afterFee q.out) := by
  obtain ⟨_, _, _, _, rfl⟩ := h.sent
  rfl

theorem Traded.trader_ne {a : Action α} {o : Order} {q : Quote α} {s s' : Chain β}
    (external : External k m a) (order : a.order? = some o) (h : Traded k o q s s') : q.trader ≠ m := by
  intro own
  exact external.order order (own ▸ h.quoted.trader)

theorem Created.denom_eq {msg : MsgCreateDenom} {s s' : Chain β} (h : Created k msg s s') :
    s'.denom = s.denom.insert msg.denom (newDenom msg) := by
  obtain ⟨bank, _, rfl⟩ := h.minted
  rfl

theorem Traded.getElem?_denom {o : Order} {q : Quote α} {s s' : Chain β} (h : Traded k o q s s')
    (c : String) : s'.denom[c]? = if q.denom.denom = c then
      some (o.side.update q.denom o.amount q.afterFee q.out) else s.denom[c]? := by
  rw [h.denom_eq, Std.ExtTreeMap.getElem?_insert]
  simp only [Std.LawfulEqCmp.compare_eq_iff_eq]

theorem Created.getElem?_denom {msg : MsgCreateDenom} {s s' : Chain β} (h : Created k msg s s')
    (c : String) :
    s'.denom[c]? = if msg.denom = c then some (newDenom msg) else s.denom[c]? := by
  rw [h.denom_eq, Std.ExtTreeMap.getElem?_insert]
  simp only [Std.LawfulEqCmp.compare_eq_iff_eq]

theorem Traded.record {o : Order} {q : Quote α} {s s' : Chain β} (h : Traded k o q s s') :
    s'.denom[q.denom.denom]? = some (o.side.update q.denom o.amount q.afterFee q.out) := by
  rw [h.getElem?_denom, if_pos rfl]

theorem Created.record {msg : MsgCreateDenom} {s s' : Chain β} (h : Created k msg s s') :
    s'.denom[msg.denom]? = some (newDenom msg) := by
  rw [h.getElem?_denom, if_pos rfl]

theorem Created.name_ne {msg : MsgCreateDenom} {s s' : Chain β} (h : Created k msg s s') {c : String}
    {d : Denom} (found : s.denom[c]? = some d) : msg.denom ≠ c := by
  rintro rfl
  rw [h.fresh] at found
  cases found

def Keyed (s : Chain β) : Prop := SelfKeyed Denom.denom s.denom

theorem keyed_of_empty {s : Chain β} (h : EmptyStore s) : Keyed s := by
  unfold Keyed
  rw [show s.denom = ∅ from h]
  exact selfKeyed_empty _

theorem Quoted.name {o : Order} {s : Chain β} {q : Quote α} (h : Quoted k o s q) (keyed : Keyed s) :
    q.denom.denom = o.denom :=
  keyed _ _ h.found

theorem Quoted.found_name {o : Order} {s : Chain β} {q : Quote α} (h : Quoted k o s q)
    (keyed : Keyed s) : s.denom[q.denom.denom]? = some q.denom := by
  rw [h.name keyed]
  exact h.found

theorem Traded.sumOver_eq {o : Order} {q : Quote α} {s s' : Chain β} (h : Traded k o q s s')
    (keyed : Keyed s) (f : Denom → ℤ) : sumOver f s'.denom =
      sumOver f s.denom - f q.denom + f (o.side.update q.denom o.amount q.afterFee q.out) := by
  rw [h.denom_eq]
  exact sumOver_insert_of_some f _ (h.quoted.found_name keyed)

theorem Created.sumOver_eq {msg : MsgCreateDenom} {s s' : Chain β} (h : Created k msg s s')
    (f : Denom → ℤ) : sumOver f s'.denom = sumOver f s.denom + f (newDenom msg) := by
  rw [h.denom_eq]
  exact sumOver_insert_of_none f _ h.fresh

def AllRecords (P : Denom → Prop) (s : Chain β) : Prop :=
  ∀ (key : String) (d : Denom), s.denom[key]? = some d → P d

theorem allRecords_of_empty {P : Denom → Prop} {s : Chain β} (h : EmptyStore s) :
    AllRecords P s := by
  intro key d found
  rw [show s.denom = ∅ from h] at found
  simp at found

theorem allRecords_insert {P : Denom → Prop} {s s' : Chain β} {key : String} {d : Denom}
    (h : AllRecords P s) (inserted : s'.denom = s.denom.insert key d) (new : P d) :
    AllRecords P s' := by
  intro other e found
  rw [inserted, Std.ExtTreeMap.getElem?_insert] at found
  split at found
  · exact Option.some.inj found ▸ new
  · exact h other e found

/-- Minting a positive amount of a valid coin does not fail. -/
def Mints (k : Keeper β α) : Prop :=
  ∀ b coin, isValidDenom coin.denom → 0 < coin.amount →
    ∃ b', k.bankKeeper.mintCoins b "tokenfactory" [coin] = .ok b'

theorem Mints.created (mints : Mints k) {s : Chain β} (msg : MsgCreateDenom)
    (owner : ∃ owner, k.addressCodec.stringToBytes msg.owner = .ok owner)
    (fresh : s.denom[msg.denom]? = none) (valid : isValidDenom msg.denom) :
    ∃ s', Created k msg s s' := by
  obtain ⟨bank, minted⟩ := mints s.bank ⟨msg.denom, 800000000000⟩ valid (by norm_num)
  exact ⟨_, owner, fresh, valid, bank, minted, rfl⟩

variable [DecidableEq α]

/-- Reached from an empty store and any bank by actions that the module account does not sign. -/
def ReachedExternally (k : Keeper β α) (m : α) : Chain β → Prop :=
  Reachable (step k) EmptyStore (fun _ a => External k m a)

/-- Reached from an empty store and any bank by any actions. -/
def Reached (k : Keeper β α) : Chain β → Prop :=
  Reachable (step k) EmptyStore (fun _ _ => True)

def ReachedByMessages (k : Keeper β α) : Chain β → Prop :=
  Reachable (step k) EmptyStore (fun _ a => IsMessage a)

theorem ReachedExternally.invariant {I : Chain β → Prop} (base : ∀ s, EmptyStore s → I s)
    (keeps : ∀ s a, I s → External k m a → I (step k s a)) {s : Chain β}
    (reached : ReachedExternally k m s) : I s :=
  Reachable.invariant base keeps reached

theorem Reached.invariant {I : Chain β → Prop} (base : ∀ s, EmptyStore s → I s)
    (keeps : ∀ s a, I s → I (step k s a)) {s : Chain β} (reached : Reached k s) : I s :=
  Reachable.invariant base (fun s a h _ => keeps s a h) reached

theorem Reached.run {s : Chain β} (reached : Reached k s) (as : List (Action α)) :
    Reached k (as.foldl (step k) s) :=
  Reachable.run reached (along_of_forall_mem fun _ _ => trivial)

/-! ## One step -/

inductive Stepped (k : Keeper β α) (s : Chain β) : Action α → Chain β → Prop
  | rejected (a : Action α) : Stepped k s a s
  | created {msg : MsgCreateDenom} {s' : Chain β} (created : Created k msg s s') :
      Stepped k s (.createDenom msg) s'
  | traded {a : Action α} {o : Order} {q : Quote α} {s' : Chain β} (order : a.order? = some o)
      (traded : Traded k o q s s') : Stepped k s a s'
  | updated (req : MsgUpdateParams) :
      Stepped k s (.updateParams req) { s with params := some req.params }
  | transferred {src dst : α} {amt : Coins} {bank : β}
      (sent : k.bankKeeper.sendCoins s.bank src dst amt = .ok bank) :
      Stepped k s (.bankSend src dst amt) { s with bank }

theorem updateParams_run_ok {req : MsgUpdateParams} {s s' : Chain β} {u : Unit}
    (h : (updateParams k req).run s = .ok u s') : s' = { s with params := some req.params } := by
  simp only [updateParams, bind_run_eq_ok, ofExcept_run_eq_ok, modify_run_eq_ok] at h
  obtain ⟨_, _, ⟨_, rfl⟩, rfl⟩ := h
  rfl

theorem step_stepped (s : Chain β) (a : Action α) : Stepped k s a (step k s a) := by
  cases a with
  | createDenom msg =>
      rcases commit_cases (createDenom k msg) s with ⟨_, accepted⟩ | same
      · exact .created (createDenom_eq_ok.mp accepted)
      · rw [show step k s (.createDenom msg) = s from same]
        exact .rejected _
  | buyWithBondingCurve msg =>
      rcases commit_cases (buyWithBondingCurve k msg) s with ⟨_, accepted⟩ | same
      · obtain ⟨q, traded, -⟩ := buy_eq_ok.mp accepted
        exact .traded rfl traded
      · rw [show step k s (.buyWithBondingCurve msg) = s from same]
        exact .rejected _
  | sellWithBondingCurve msg =>
      rcases commit_cases (sellWithBondingCurve k msg) s with ⟨_, accepted⟩ | same
      · obtain ⟨q, traded, -⟩ := sell_eq_ok.mp accepted
        exact .traded rfl traded
      · rw [show step k s (.sellWithBondingCurve msg) = s from same]
        exact .rejected _
  | updateParams req =>
      rcases commit_cases (updateParams k req) s with ⟨_, accepted⟩ | same
      · rw [show step k s (.updateParams req) = _ from updateParams_run_ok accepted]
        exact .updated req
      · rw [show step k s (.updateParams req) = s from same]
        exact .rejected _
  | bankSend src dst amt =>
      cases sent : k.bankKeeper.sendCoins s.bank src dst amt with
      | ok bank =>
          rw [show step k s (.bankSend src dst amt) = { s with bank } by simp only [step, sent]]
          exact .transferred sent
      | error err =>
          rw [show step k s (.bankSend src dst amt) = s by simp only [step, sent]]
          exact .rejected _

theorem allRecords_step {P : Denom → Prop} {s : Chain β} {a : Action α} (h : AllRecords P s)
    (new : ∀ msg s', Created k msg s s' → P (newDenom msg))
    (kept : ∀ o q, a.order? = some o → Traded k o q s (step k s a) → P q.denom →
      P (o.side.update q.denom o.amount q.afterFee q.out)) :
    AllRecords P (step k s a) := by
  have stepped := step_stepped (k := k) s a
  generalize step k s a = s' at stepped kept ⊢
  cases stepped with
  | rejected => exact h
  | created created => exact allRecords_insert h created.denom_eq (new _ _ created)
  | traded order traded =>
      have old := h _ _ traded.quoted.found
      exact allRecords_insert h traded.denom_eq (kept _ _ order traded old)
  | updated => exact h
  | transferred sent => exact h

theorem step_createDenom {msg : MsgCreateDenom} {s s' : Chain β} (h : Created k msg s s') :
    step k s (.createDenom msg) = s' :=
  commit_of_ok (createDenom_eq_ok (u := ()).mpr h)

theorem step_createDenom_of_not_created {msg : MsgCreateDenom} {s : Chain β}
    (rejected : ¬∃ s', Created k msg s s') : step k s (.createDenom msg) = s := by
  have stepped := step_stepped (k := k) s (.createDenom msg)
  generalize step k s (.createDenom msg) = s' at stepped ⊢
  cases stepped with
  | rejected => rfl
  | created created => exact absurd ⟨_, created⟩ rejected
  | traded order => cases order

theorem step_traded {a : Action α} {o : Order} {q : Quote α} {s s' : Chain β}
    (order : a.order? = some o) (h : Traded k o q s s') : step k s a = s' := by
  cases a with
  | buyWithBondingCurve msg =>
      cases order
      exact commit_of_ok (buy_eq_ok.mpr ⟨q, h, rfl⟩)
  | sellWithBondingCurve msg =>
      cases order
      exact commit_of_ok (sell_eq_ok.mpr ⟨q, h, rfl⟩)
  | createDenom msg => cases order
  | updateParams msg => cases order
  | bankSend src dst amt => cases order

theorem step_of_rejected {s : Chain β} {a : Action α} {o : Order}
    (order : a.order? = some o) (rejected : ¬∃ q s', Traded k o q s s') : step k s a = s := by
  have stepped := step_stepped (k := k) s a
  generalize step k s a = s' at stepped ⊢
  cases stepped with
  | rejected => rfl
  | created => cases order
  | traded order' traded =>
      rw [order, Option.some.injEq] at order'
      subst order'
      exact absurd ⟨_, _, traded⟩ rejected
  | updated => cases order
  | transferred => cases order

theorem step_created {msg : MsgCreateDenom} {s : Chain β} (accepted : accepts (createDenom k msg) s) :
    Created k msg s (step k s (.createDenom msg)) := by
  obtain ⟨s', created⟩ := createDenom_accepts_iff.mp accepted
  rw [step_createDenom created]
  exact created

theorem step_accepted {a : Action α} {o : Order} {s : Chain β} (order : a.order? = some o)
    (accepted : accepts (tradeWithBondingCurve k o) s) : ∃ q, Traded k o q s (step k s a) := by
  obtain ⟨q, s', traded⟩ := trade_accepts_iff.mp accepted
  rw [step_traded order traded]
  exact ⟨q, traded⟩

/-! ## Flows -/

def flow (o : Order) (q : Quote α) (c : String) : ℤ :=
  (if c = o.side.coinIn q.denom then o.amount.toInt else 0) -
    (if c = o.side.coinOut q.denom then q.out.toInt else 0)

theorem Quoted.module_eq (law : Lawful k view m) {o : Order} {s : Chain β} {q : Quote α}
    (h : Quoted k o s q) : q.moduleAddr = m :=
  Option.some.inj (h.module_address.symm.trans law.module_address)

namespace Traded

variable {o : Order} {q : Quote α} {s s' : Chain β}

theorem supply_eq (law : Lawful k view m) (h : Traded k o q s s') :
    view.supply s'.bank = view.supply s.bank := by
  obtain ⟨_, _, first, second, rfl⟩ := h.sent
  exact (law.send_supply _ _ _ _ _ second).trans (law.send_supply _ _ _ _ _ first)

theorem balance_eq (law : Lawful k view m) (h : Traded k o q s s') (a : α) (c : String) :
    view.balance s'.bank a c = view.balance s.bank a c
      - (if a = q.trader then flow o q c else 0) + (if a = m then flow o q c else 0) := by
  have hm := h.quoted.module_eq law
  obtain ⟨_, _, first, second, rfl⟩ := h.sent
  have one := law.send_balance _ _ _ _ _ first a c
  have two := law.send_balance _ _ _ _ _ second a c
  rw [hm] at one two
  rw [two, one]
  simp only [amountOf_newCoins, flow]
  split_ifs <;> ring

theorem module_balance_eq (law : Lawful k view m) (h : Traded k o q s s') (other : q.trader ≠ m)
    (c : String) : view.balance s'.bank m c = view.balance s.bank m c + flow o q c := by
  rw [h.balance_eq law, if_neg other.symm, if_pos rfl, sub_zero]

theorem trader_balance_eq (law : Lawful k view m) (h : Traded k o q s s') (other : q.trader ≠ m)
    (c : String) :
    view.balance s'.bank q.trader c = view.balance s.bank q.trader c - flow o q c := by
  rw [h.balance_eq law, if_pos rfl, if_neg other, add_zero]

theorem own_balance_eq (law : Lawful k view m) (h : Traded k o q s s') (own : q.trader = m)
    (a : α) (c : String) : view.balance s'.bank a c = view.balance s.bank a c := by
  rw [h.balance_eq law, own]
  split_ifs <;> ring

theorem funds_le (law : Lawful k view m) (h : Traded k o q s s') :
    o.amount.toInt ≤ view.balance s.bank q.trader (o.side.coinIn q.denom) :=
  h.quoted.funds.trans (law.spendable_le _ _ _)

end Traded

theorem Created.balance_eq (law : Lawful k view m) {msg : MsgCreateDenom} {s s' : Chain β}
    (h : Created k msg s s') (a : α) (c : String) :
    view.balance s'.bank a c = view.balance s.bank a c +
      if a = m then (if c = msg.denom then 800000000000 else 0) else 0 := by
  obtain ⟨bank, minted, rfl⟩ := h.minted
  simpa only [amountOf_newCoins] using law.mint_balance _ _ _ minted a c

theorem Created.supply_eq (law : Lawful k view m) {msg : MsgCreateDenom} {s s' : Chain β}
    (h : Created k msg s s') (c : String) :
    view.supply s'.bank c = view.supply s.bank c + if c = msg.denom then 800000000000 else 0 := by
  obtain ⟨bank, minted, rfl⟩ := h.minted
  simpa only [amountOf_newCoins] using law.mint_supply _ _ _ minted c

/-! ## Keys -/

theorem keyed_step {s : Chain β} (h : Keyed s) (a : Action α) : Keyed (step k s a) := by
  have stepped := step_stepped (k := k) s a
  generalize step k s a = s' at stepped ⊢
  cases stepped with
  | rejected => exact h
  | created created =>
      unfold Keyed
      rw [created.denom_eq]
      exact SelfKeyed.insert h (newDenom _)
  | @traded _ o q _ order traded =>
      unfold Keyed
      rw [traded.denom_eq, ← o.side.denom_update q.denom o.amount q.afterFee q.out]
      exact SelfKeyed.insert h _
  | updated => exact h
  | transferred sent => exact h

theorem record_step {s : Chain β} (keyed : Keyed s) {c : String} {d : Denom}
    (found : s.denom[c]? = some d) (a : Action α) :
    (step k s a).denom[c]? = some d ∨
      ∃ o q, a.order? = some o ∧ q.denom = d ∧ d.denom = c ∧ Traded k o q s (step k s a) ∧
        (step k s a).denom[c]? = some (o.side.update d o.amount q.afterFee q.out) := by
  have stepped := step_stepped (k := k) s a
  generalize step k s a = s' at stepped ⊢
  cases stepped with
  | rejected => exact .inl found
  | created created =>
      left
      rw [created.getElem?_denom, if_neg (created.name_ne found), found]
  | @traded _ o q _ order traded =>
      rw [traded.getElem?_denom]
      by_cases own : q.denom.denom = c
      · subst own
        obtain rfl : q.denom = d :=
          Option.some.inj ((traded.quoted.found_name keyed).symm.trans found)
        exact .inr ⟨o, q, order, rfl, rfl, traded, if_pos rfl⟩
      · left
        rw [if_neg own, found]
  | updated => exact .inl found
  | transferred sent => exact .inl found

def TradesOn (k : Keeper β α) (c : String) (s : Chain β) (a : Action α) : Prop :=
  ∃ o, a.order? = some o ∧ o.denom = c ∧ accepts (tradeWithBondingCurve k o) s

theorem record_untouched {s : Chain β} (keyed : Keyed s) {c : String} {d : Denom}
    (found : s.denom[c]? = some d) {a : Action α} (apart : ¬TradesOn k c s a) :
    (step k s a).denom[c]? = some d := by
  rcases record_step (k := k) keyed found a with same | ⟨o, q, order, rfl, name, traded, -⟩
  · exact same
  · have named := (traded.quoted.name keyed).symm.trans name
    exact absurd ⟨o, order, named, trade_accepts_iff.mpr ⟨q, _, traded⟩⟩ apart

theorem record_traded {s : Chain β} (keyed : Keyed s) {a : Action α} {o : Order}
    (order : a.order? = some o) {d : Denom} (found : s.denom[o.denom]? = some d)
    (accepted : accepts (tradeWithBondingCurve k o) s) :
    ∃ q, q.denom = d ∧ Traded k o q s (step k s a) ∧
      (step k s a).denom[o.denom]? = some (o.side.update d o.amount q.afterFee q.out) := by
  obtain ⟨q, traded⟩ := step_accepted order accepted
  obtain rfl := traded.quoted.record_eq found
  refine ⟨q, rfl, traded, ?_⟩
  rw [traded.getElem?_denom, if_pos (traded.quoted.name keyed)]

/-! ## Issued records -/

/-- What `CreateDenom` fixes for good: a valid name, an open curve and the size of the issue. -/
structure Issued (d : Denom) : Prop where
  valid_name : isValidDenom d.denom
  enabled : d.bondingCurveEnabled
  initial : d.initialRealTokenReserves.toInt = 800000000000

theorem issued_step {s : Chain β} (h : AllRecords Issued s) (a : Action α) :
    AllRecords Issued (step k s a) := by
  apply allRecords_step h
  · intro msg s' created
    exact ⟨created.coin_valid, rfl, newDenom_initialRealTokenReserves msg⟩
  · intro o q _ _ issued
    refine ⟨?_, ?_, ?_⟩
    · rw [Side.denom_update]
      exact issued.valid_name
    · rw [Side.bondingCurveEnabled_update]
      exact issued.enabled
    · rw [Side.initialRealTokenReserves_update]
      exact issued.initial

theorem Issued.coinOut_valid {d : Denom} (issued : Issued d) (side : Side) :
    isValidDenom (side.coinOut d) := by
  cases side with
  | buy => exact issued.valid_name
  | sell =>
      show isValidDenom "fandomChain"
      decide

theorem Reached.issued {s : Chain β} (reached : Reached k s) : AllRecords Issued s :=
  reached.invariant (fun _ => allRecords_of_empty) (fun _ a h => issued_step h a)

theorem Reached.keyed {s : Chain β} (reached : Reached k s) : Keyed s :=
  reached.invariant (fun _ => keyed_of_empty) (fun _ a h => keyed_step h a)

/-! ## A small market -/

def opening : Chain Ledger where
  params := some defaultParams
  port := none
  denom := ∅
  bank := Ledger.ofBooks
    [⟨"alice", "fandomChain", 1000000000000⟩, ⟨"bob", "fandomChain", 1000000000000⟩,
      ⟨"alice", "ufandomChain", 1000⟩] (by decide)

theorem opening_empty : EmptyStore opening := rfl

theorem ledger_mints : Mints Ledger.keeper := by
  intro b coin named positive
  have valid : Coins.IsValid [coin] := by
    refine ⟨?_, List.pairwise_singleton _ _⟩
    rintro _ (_ | ⟨_, ⟨⟩⟩)
    exact ⟨named, positive⟩
  show ∃ b', Ledger.mintCoins b "tokenfactory" [coin] = .ok b'
  rw [Ledger.mintCoins, dif_pos valid]
  exact ⟨_, rfl⟩

def creation (owner denom : String) : Action String := .createDenom ⟨owner, denom, "", "", ""⟩

def buying (buyer denom : String) (amount : Int64) : Action String :=
  .buyWithBondingCurve ⟨buyer, denom, amount, 0⟩

def selling (seller denom : String) (amount : Int64) : Action String :=
  .sellWithBondingCurve ⟨seller, denom, amount, 0⟩

def market : Chain Ledger :=
  [creation "alice" "rose", buying "alice" "rose" 1000000000, buying "bob" "rose" 5000,
    .bankSend "bob" "tokenfactory" [⟨"fandomChain", 7⟩], selling "alice" "rose" 1000000].foldl
    (step Ledger.keeper) opening

theorem market_reached : ReachedExternally Ledger.keeper "tokenfactory" market :=
  ⟨opening, _, rfl, along_of_forall_mem (by decide), rfl⟩

def newMarket : Chain Ledger := step Ledger.keeper opening (creation "bob" "rose")

theorem newMarket_reached : Reached Ledger.keeper newMarket :=
  ⟨opening, [creation "bob" "rose"], opening_empty, ⟨trivial, trivial⟩, rfl⟩

theorem newMarket_rose {d : Denom} (found : newMarket.denom["rose"]? = some d) :
    d = newDenom ⟨"bob", "rose", "", "", ""⟩ := by
  have record : newMarket.denom["rose"]? = some (newDenom ⟨"bob", "rose", "", "", ""⟩) := by
    decide +kernel
  exact Option.some.inj (found.symm.trans record)

end Fandomchain.Proof
