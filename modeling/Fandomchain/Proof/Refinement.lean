import Fandomchain.Library.Exchange
import Fandomchain.Proof.Acceptance
import Fandomchain.Proof.Books

/-!
# The module as an exchange

Seen from outside, the records, the four `int64` reserves and the bank are one exchange of pools over
the integers: each message is an instruction, and it is accepted exactly when the exchange allows it.
-/

namespace Fandomchain.Proof
open Fandomchain.Library Fandomchain.Tokenfactory

variable {β α : Type} {k : Keeper β α} {view : BankView β α} {m : α}

/-! ## The view -/

def leg : Side → Leg
  | .buy => .currency
  | .sell => .token

def poolOf (d : Denom) : Pool where
  quoted
    | .currency => d.virtualFandomReserves.toInt
    | .token => d.virtualTokenReserves.toInt
  owed
    | .currency => d.realFandomReserves.toInt
    | .token => d.realTokenReserves.toInt

def exchangeOf (view : BankView β α) (s : Chain β) : Exchange α String where
  holds := view.balance s.bank
  pool c := s.denom[c]?.map poolOf

def rules (m : α) : Rules α String where
  house := m
  currency := "fandomChain"
  opening :=
    { quoted
        | .currency => 30000000000
        | .token => 1000000000000
      owed
        | .currency => 0
        | .token => 800000000000 }
  net amount := amount - amount / 100
  net_pos := by
    intro amount positive
    omega
  net_mono := by
    intro a b le
    show a - a / 100 ≤ b - b / 100
    omega

def bidOf (trader : α) (o : Order) : Bid α String where
  trader
  token := o.denom
  pays := leg o.side
  amount := o.amount.toInt
  least := o.minOut.toInt

def Order.instruction? (k : Keeper β α) (o : Order) : Option (Instruction α String) :=
  match k.addressCodec.stringToBytes o.signer with
  | .ok trader => some (.bid (bidOf trader o))
  | .error _ => none

/-- What a message asks of the exchange, if it is well formed. -/
def instruction? (k : Keeper β α) : Action α → Option (Instruction α String)
  | .createDenom msg =>
      match k.addressCodec.stringToBytes msg.owner with
      | .ok _ => if isValidDenom msg.denom then some (.list msg.denom) else none
      | .error _ => none
  | .buyWithBondingCurve msg => Order.instruction? k msg.order
  | .sellWithBondingCurve msg => Order.instruction? k msg.order
  | .updateParams _ => none
  | .bankSend src dst amt =>
      if amt.IsValid then some (.transfer src dst (amountOfNoDenomValidation amt)) else none

section Legs

variable (side : Side) (d : Denom)

theorem quoted_leg : (poolOf d).quoted (leg side) = (side.virtualIn d).toInt := by
  cases side <;> rfl

theorem quoted_other : (poolOf d).quoted (leg side).other = (side.virtualOut d).toInt := by
  cases side <;> rfl

theorem owed_leg : (poolOf d).owed (leg side) = (side.realIn d).toInt := by
  cases side <;> rfl

theorem owed_other : (poolOf d).owed (leg side).other = (side.realOut d).toInt := by
  cases side <;> rfl

theorem leg_cases (l : Leg) : l = leg side ∨ l = (leg side).other := by
  cases side <;> cases l <;> decide

end Legs

theorem coin_bidOf (trader : α) {o : Order} {d : Denom} (name : d.denom = o.denom) :
    (bidOf trader o).coin (rules m) (leg o.side) = o.side.coinIn d ∧
      (bidOf trader o).coin (rules m) (leg o.side).other = o.side.coinOut d := by
  cases side : o.side with
  | buy => exact ⟨rfl, name.symm⟩
  | sell => exact ⟨name.symm, rfl⟩

theorem poolOf_newDenom (m : α) (msg : MsgCreateDenom) : poolOf (newDenom msg) = (rules m).opening := by
  ext l
  · cases l with
    | currency => exact newDenom_virtualFandomReserves msg
    | token => exact newDenom_virtualTokenReserves msg
  · cases l with
    | currency => exact newDenom_realFandomReserves msg
    | token => exact newDenom_realTokenReserves msg

/-! ## Trades -/

section Update

variable {o : Order} {q : Quote α} {s : Chain β}

theorem Quoted.payout_eq (h : Quoted k o s q) :
    (bidOf q.trader o).payout (rules m) (poolOf q.denom) = q.out.toInt := by
  show output ((poolOf q.denom).quoted (leg o.side)) ((poolOf q.denom).quoted (leg o.side).other)
    (o.amount.toInt - o.amount.toInt / 100) = _
  rw [quoted_leg, quoted_other, ← h.afterFee_toInt, h.out]

theorem poolOf_update (h : Quoted k o s q) (exact : ExactUpdate o q) :
    poolOf (o.side.update q.denom o.amount q.afterFee q.out) =
      (poolOf q.denom).fill (rules m) (bidOf q.trader o) := by
  have net : (rules m).net (bidOf q.trader o).amount = q.afterFee.toInt := h.afterFee_toInt.symm
  have turned : ¬(leg o.side).other = leg o.side := Leg.other_ne _
  apply Pool.ext
  · funext l
    rcases leg_cases o.side l with rfl | rfl
    · show _ = if leg o.side = leg o.side then _ else _
      rw [if_pos rfl, quoted_leg, quoted_leg, Side.virtualIn_update, exact.virtualIn, net]
    · show _ = if (leg o.side).other = leg o.side then _ else _
      rw [if_neg turned, quoted_other, quoted_other, Side.virtualOut_update, exact.virtualOut,
        h.payout_eq]
  · funext l
    rcases leg_cases o.side l with rfl | rfl
    · show _ = if leg o.side = leg o.side then _ else _
      rw [if_pos rfl, owed_leg, owed_leg, Side.realIn_update, exact.realIn]
      rfl
    · show _ = if (leg o.side).other = leg o.side then _ else _
      rw [if_neg turned, owed_other, owed_other, Side.realOut_update, exact.realOut, h.payout_eq]

end Update

section Traded

variable [DecidableEq α] {o : Order} {q : Quote α} {s s' : Chain β}

theorem Quoted.fills_bid (law : Lawful k view m) (h : Quoted k o s q) (keyed : Keyed s) :
    (exchangeOf view s).Fills (rules m) (bidOf q.trader o) (poolOf q.denom) where
  listed := by
    show s.denom[o.denom]?.map poolOf = _
    rw [h.found, Option.map_some]
  amount_pos := h.amount_pos
  quoted_pos l := by
    rcases leg_cases o.side l with rfl | rfl
    · rw [quoted_leg]
      exact h.virtualIn_pos
    · rw [quoted_other]
      exact h.virtualOut_pos
  least := by
    rw [h.payout_eq]
    exact h.slippage
  owed := by
    rw [h.payout_eq]
    show _ ≤ (poolOf q.denom).owed (leg o.side).other
    rw [owed_other]
    exact h.reserve
  funds := by
    show _ ≤ view.balance s.bank q.trader ((bidOf q.trader o).coin (rules m) (leg o.side))
    rw [(coin_bidOf q.trader (h.name keyed)).1]
    exact h.funds.trans (law.spendable_le _ _ _)

theorem exchangeOf_traded (law : Lawful k view m) (h : Traded k o q s s') (keyed : Keyed s)
    (exact : ExactUpdate o q) : exchangeOf view s' =
      (exchangeOf view s).perform (rules m) (.bid (bidOf q.trader o)) := by
  have name := h.quoted.name keyed
  rw [(h.quoted.fills_bid law keyed).perform_eq]
  apply Exchange.ext
  · funext a c
    have coins := coin_bidOf (m := m) q.trader name
    have same : Exchange.flow (rules m) (bidOf q.trader o) (poolOf q.denom) c = flow o q c := by
      show (if c = (bidOf q.trader o).coin (rules m) (leg o.side) then _ else _) -
        (if c = (bidOf q.trader o).coin (rules m) (leg o.side).other then _ else _) = _
      rw [coins.1, coins.2, h.quoted.payout_eq]
      rfl
    show view.balance s'.bank a c = view.balance s.bank a c - _ + _
    rw [same]
    exact h.balance_eq law a c
  · funext c
    show s'.denom[c]?.map poolOf = Function.update (exchangeOf view s).pool o.denom _ c
    rw [h.getElem?_denom, name, ← poolOf_update h.quoted exact]
    by_cases own : o.denom = c
    · rw [if_pos own, own, Function.update_self, Option.map_some]
    · rw [if_neg own, Function.update_of_ne (Ne.symm own)]
      rfl

end Traded

theorem not_traded_of_undecoded {s : Chain β} {o : Order} {err : String}
    (undecoded : k.addressCodec.stringToBytes o.signer = .error err) :
    ¬∃ q s', Traded k o q s s' := by
  intro ⟨q, s', traded⟩
  cases undecoded.symm.trans traded.quoted.trader

/-! ## Runs -/

structure Tracked (view : BankView β α) (m : α) (s : Chain β) : Prop where
  ranged : Ranged view m s
  issued : AllRecords Issued s

theorem Tracked.keyed {s : Chain β} (h : Tracked view m s) : Keyed s := h.ranged.solvent.keyed

variable [DecidableEq α]

def payer? (k : Keeper β α) : Action α → Option α
  | .createDenom _ => none
  | .buyWithBondingCurve msg => (k.addressCodec.stringToBytes msg.buyer).toOption
  | .sellWithBondingCurve msg => (k.addressCodec.stringToBytes msg.seller).toOption
  | .updateParams _ => none
  | .bankSend src _ _ => some src

def Unlocked (k : Keeper β α) (view : BankView β α) (s : Chain β) (payer : α) : Prop :=
  ∀ c, amountOfNoDenomValidation (k.bankKeeper.spendableCoins s.bank payer) c =
    view.balance s.bank payer c

/-- Moreover nothing that the payer holds is locked by the bank. -/
structure Followed (k : Keeper β α) (view : BankView β α) (m : α) (s : Chain β) (a : Action α) : Prop
    extends Balanced k view m s a where
  unlocked : ∀ payer ∈ payer? k a, Unlocked k view s payer

theorem tracked_of_empty (law : Lawful k view m) {s : Chain β} (empty : EmptyStore s) :
    Tracked view m s :=
  ⟨ranged_of_empty law empty, allRecords_of_empty empty⟩

theorem tracked_step (law : Lawful k view m) {s : Chain β} {a : Action α} (h : Tracked view m s)
    (allowed : Followed k view m s a) : Tracked view m (step k s a) :=
  ⟨ranged_step law h.ranged allowed.external allowed.fresh allowed.bounded, issued_step h.issued a⟩

theorem Tracked.balance_lt (law : Lawful k view m) {s : Chain β} (h : Tracked view m s)
    (bounded : view.supply s.bank "fandomChain" ≤ 2 ^ 63 - 1 - 30000000000) {key : String} {d : Denom}
    (found : s.denom[key]? = some d) (side : Side) (a : α) :
    view.balance s.bank a (side.coinIn d) < 2 ^ 63 := by
  have within := law.balance_le_supply a s.bank (side.coinIn d)
  cases side with
  | buy =>
      apply (within.trans bounded).trans_lt
      norm_num
  | sell =>
      apply (within.trans (h.ranged.issue key d found).le).trans_lt
      norm_num

theorem Tracked.quoted (law : Lawful k view m) {s : Chain β} (h : Tracked view m s)
    (bounded : view.supply s.bank "fandomChain" ≤ 2 ^ 63 - 1 - 30000000000) {o : Order} {trader : α}
    (decoded : k.addressCodec.stringToBytes o.signer = .ok trader)
    (unlocked : Unlocked k view s trader) {p : Pool}
    (fills : (exchangeOf view s).Fills (rules m) (bidOf trader o) p) :
    ∃ q, q.trader = trader ∧ Quoted k o s q := by
  obtain ⟨d, found, rfl⟩ : ∃ d, s.denom[o.denom]? = some d ∧ poolOf d = p :=
    Option.map_eq_some_iff.mp fills.listed
  have issue := h.issued _ _ found
  have virtualIn : 0 < (o.side.virtualIn d).toInt := by
    rw [← quoted_leg]
    exact fills.quoted_pos _
  have virtualOut : 0 < (o.side.virtualOut d).toInt := by
    rw [← quoted_other]
    exact fills.quoted_pos _
  obtain ⟨n, priced⟩ := exists_priced fills.amount_pos virtualIn virtualOut
  have payout : (bidOf trader o).payout (rules m) (poolOf d) = n.toInt := by
    show output ((poolOf d).quoted (leg o.side)) ((poolOf d).quoted (leg o.side).other)
      (o.amount.toInt - o.amount.toInt / 100) = _
    rw [quoted_leg, quoted_other, ← o.side.afterFee_toInt (le_of_lt fills.amount_pos), priced.out]
  have reserve : n.toInt ≤ (o.side.realOut d).toInt := by
    rw [← owed_other, ← payout]
    exact fills.owed
  have funds : o.amount.toInt ≤ view.balance s.bank trader (o.side.coinIn d) := by
    rw [← (coin_bidOf (m := m) trader (h.keyed _ _ found)).1]
    exact fills.funds
  refine ⟨⟨trader, d, (o.side.applyFee o.amount).1, n, m⟩, rfl, ?_⟩
  exact {
    trader := decoded
    found
    enabled := issue.enabled
    amount_pos := fills.amount_pos
    realOut_pos := priced.out_pos.trans_le reserve
    virtualIn_pos := virtualIn
    virtualOut_pos := virtualOut
    afterFee := rfl
    out := priced.out
    slippage := payout ▸ fills.least
    reserve
    coin_valid := issue.coinIn_valid o.side
    fits := by
      rw [unlocked]
      exact h.balance_lt law bounded found o.side trader
    funds := by
      rw [unlocked]
      exact funds
    module_address := law.module_address }

theorem Tracked.trades_iff (law : Lawful k view m) {s : Chain β} (h : Tracked view m s)
    (bounded : view.supply s.bank "fandomChain" ≤ 2 ^ 63 - 1 - 30000000000) {o : Order} {trader : α}
    (decoded : k.addressCodec.stringToBytes o.signer = .ok trader)
    (unlocked : Unlocked k view s trader) : (∃ q s', Traded k o q s s') ↔
      (exchangeOf view s).Allowed (rules m) (.bid (bidOf trader o)) := by
  constructor
  · intro ⟨q, s', traded⟩
    obtain rfl := traded.quoted.trader_eq decoded
    exact ⟨_, traded.quoted.fills_bid law h.keyed⟩
  · intro ⟨p, fills⟩
    obtain ⟨q, -, quoted⟩ := h.quoted law bounded decoded unlocked fills
    exact ⟨q, settles law h.ranged.solvent h.issued quoted⟩

theorem order_seen (law : Lawful k view m) {s : Chain β} {a : Action α} {o : Order}
    (order : a.order? = some o) (h : Tracked view m s) (allowed : Followed k view m s a)
    (payer : payer? k a = (k.addressCodec.stringToBytes o.signer).toOption) :
    exchangeOf view (step k s a) = (Order.instruction? k o).elim (exchangeOf view s)
      ((exchangeOf view s).attempt (rules m)) := by
  unfold Order.instruction?
  cases decoded : k.addressCodec.stringToBytes o.signer with
  | error err =>
      rw [step_of_rejected order (not_traded_of_undecoded decoded)]
      rfl
  | ok trader =>
      have unlocked : Unlocked k view s trader := by
        apply allowed.unlocked
        rw [payer, decoded]
        rfl
      have same := h.trades_iff law allowed.bounded decoded unlocked
      show _ = (exchangeOf view s).attempt (rules m) (.bid (bidOf trader o))
      by_cases accepted : ∃ q s', Traded k o q s s'
      · rw [Exchange.attempt_of_allowed (same.mp accepted)]
        obtain ⟨q, s', traded⟩ := accepted
        obtain rfl := traded.quoted.trader_eq decoded
        obtain rfl := step_traded order traded
        have exact := h.ranged.onlyExact law allowed.toBalanced o q order traded
        exact exchangeOf_traded law traded h.keyed exact
      · have refused := mt same.mpr accepted
        rw [step_of_rejected order accepted, Exchange.attempt_of_not_allowed refused]

theorem exchangeOf_created (law : Lawful k view m) {msg : MsgCreateDenom} {s s' : Chain β}
    (h : Created k msg s s') :
    exchangeOf view s' = (exchangeOf view s).perform (rules m) (.list msg.denom) := by
  apply Exchange.ext
  · funext a c
    exact h.balance_eq law a c
  · funext c
    show s'.denom[c]?.map poolOf = Function.update (exchangeOf view s).pool msg.denom _ c
    rw [h.getElem?_denom, ← poolOf_newDenom m msg]
    by_cases own : msg.denom = c
    · rw [if_pos own, own, Function.update_self, Option.map_some]
    · rw [if_neg own, Function.update_of_ne (Ne.symm own)]
      rfl

theorem creation_seen (law : Lawful k view m) (mints : Mints k) (s : Chain β)
    (msg : MsgCreateDenom) : exchangeOf view (step k s (.createDenom msg)) =
      (instruction? k (.createDenom msg)).elim (exchangeOf view s)
        ((exchangeOf view s).attempt (rules m)) := by
  cases decoded : k.addressCodec.stringToBytes msg.owner with
  | error err =>
      have refused : ¬∃ s', Created k msg s s' := by
        intro ⟨s', created⟩
        obtain ⟨owner, found⟩ := created.owner
        cases decoded.symm.trans found
      simp only [instruction?, decoded, step_createDenom_of_not_created refused, Option.elim_none]
  | ok owner =>
      by_cases valid : isValidDenom msg.denom
      · simp only [instruction?, decoded, valid, if_true, Option.elim_some]
        by_cases fresh : s.denom[msg.denom]? = none
        · have allowed : (exchangeOf view s).Allowed (rules m) (.list msg.denom) :=
            Option.map_eq_none_iff.mpr fresh
          obtain ⟨s', created⟩ := mints.created msg ⟨owner, decoded⟩ fresh valid
          rw [Exchange.attempt_of_allowed allowed, step_createDenom created]
          exact exchangeOf_created law created
        · have taken : ¬(exchangeOf view s).Allowed (rules m) (.list msg.denom) :=
            fun allowed => fresh (Option.map_eq_none_iff.mp allowed)
          have refused : ¬∃ s', Created k msg s s' := fun ⟨s', created⟩ => fresh created.fresh
          rw [Exchange.attempt_of_not_allowed taken, step_createDenom_of_not_created refused]
      · have refused : ¬∃ s', Created k msg s s' := fun ⟨s', created⟩ => valid created.coin_valid
        simp only [instruction?, decoded, valid, Bool.false_eq_true, if_false,
          step_createDenom_of_not_created refused, Option.elim_none]

theorem transfer_seen (law : Lawful k view m) {s : Chain β} {src dst : α}
    (unlocked : Unlocked k view s src) (amt : Coins) :
    exchangeOf view (step k s (.bankSend src dst amt)) =
      (instruction? k (.bankSend src dst amt)).elim (exchangeOf view s)
        ((exchangeOf view s).attempt (rules m)) := by
  have sends := law.send_iff s.bank src dst amt
  by_cases valid : amt.IsValid
  · simp only [instruction?, valid, if_true, Option.elim_some]
    by_cases covered : ∀ c, amountOfNoDenomValidation amt c ≤ view.balance s.bank src c
    · have allowed : (exchangeOf view s).Allowed (rules m)
          (.transfer src dst (amountOfNoDenomValidation amt)) :=
        fun c => ⟨amountOf_nonneg valid c, covered c⟩
      obtain ⟨bank, sent⟩ := sends.mpr ⟨valid, fun c => (covered c).trans_eq (unlocked c).symm⟩
      rw [Exchange.attempt_of_allowed allowed]
      simp only [step, sent]
      apply Exchange.ext
      · funext a c
        exact law.send_balance _ _ _ _ _ sent a c
      · rfl
    · have refused : ¬(exchangeOf view s).Allowed (rules m)
          (.transfer src dst (amountOfNoDenomValidation amt)) :=
        fun allowed => covered fun c => (allowed c).2
      rw [Exchange.attempt_of_not_allowed refused]
      cases sent : k.bankKeeper.sendCoins s.bank src dst amt with
      | error err => simp only [step, sent]
      | ok bank =>
          exfalso
          apply covered
          intro c
          exact ((sends.mp ⟨bank, sent⟩).2 c).trans_eq (unlocked c)
  · simp only [instruction?, valid, if_false, Option.elim_none]
    cases sent : k.bankKeeper.sendCoins s.bank src dst amt with
    | error err => simp only [step, sent]
    | ok bank => exact absurd (sends.mp ⟨bank, sent⟩).1 valid

theorem step_seen (law : Lawful k view m) (mints : Mints k) {s : Chain β} {a : Action α}
    (h : Tracked view m s) (allowed : Followed k view m s a) : exchangeOf view (step k s a) =
      (instruction? k a).elim (exchangeOf view s) ((exchangeOf view s).attempt (rules m)) := by
  cases a with
  | createDenom msg => exact creation_seen law mints s msg
  | buyWithBondingCurve msg => exact order_seen law rfl h allowed rfl
  | sellWithBondingCurve msg => exact order_seen law rfl h allowed rfl
  | bankSend src dst amt => exact transfer_seen law (allowed.unlocked src rfl) amt
  | updateParams req =>
      have stepped := step_stepped (k := k) s (.updateParams req)
      generalize step k s (.updateParams req) = s' at stepped ⊢
      cases stepped with
      | rejected => rfl
      | traded order => cases order
      | updated => rfl

/-- Reached from an empty store by a run that the exchange follows. -/
def ReachedFollowed (k : Keeper β α) (view : BankView β α) (m : α) : Chain β → Prop :=
  Reachable (step k) EmptyStore (Followed k view m)

theorem ReachedFollowed.tracked (law : Lawful k view m) {s : Chain β}
    (reached : ReachedFollowed k view m s) : Tracked view m s :=
  Reachable.invariant (I := Tracked view m) (fun _ => tracked_of_empty law)
    (fun _ _ => tracked_step law) reached

/-- The chain does what the exchange does: what is read off it after a run is the exchange that ran
the instructions itself, and refused what it does not allow. -/
theorem chain_refines_exchange (law : Lawful k view m) (mints : Mints k) {s : Chain β}
    (reached : ReachedFollowed k view m s) {as : List (Action α)}
    (along : Along (step k) (Followed k view m) s as) :
    exchangeOf view (as.foldl (step k) s) =
      (as.filterMap (instruction? k)).foldl (Exchange.attempt (rules m)) (exchangeOf view s) := by
  symm
  exact foldl_filterMap_eq (I := Tracked view m) (P := Followed k view m)
    (fun _ _ => tracked_step law) (fun _ _ => step_seen law mints) (reached.tracked law) along

theorem ledger_followed {s : Chain Ledger} {as : List (Action String)}
    (external : ∀ a ∈ as, External Ledger.keeper "tokenfactory" a)
    (bounded : Along (step Ledger.keeper)
      (fun s _ => Ledger.view.supply s.bank "fandomChain" ≤ 2 ^ 63 - 1 - 30000000000) s as)
    (fresh : Along (step Ledger.keeper)
      (fun s a => CreatesAbsentCoin Ledger.keeper Ledger.view s s a) s as) :
    Along (step Ledger.keeper) (Followed Ledger.keeper Ledger.view "tokenfactory") s as :=
  (ledger_balanced external bounded fresh).mono fun s _ balanced =>
    ⟨balanced, fun payer _ c => Ledger.amountOf_spendableCoins s.bank payer c⟩

theorem market_refines_exchange :
    exchangeOf Ledger.view (marketActions.foldl (step Ledger.keeper) opening) =
      (marketActions.filterMap (instruction? Ledger.keeper)).foldl
        (Exchange.attempt (rules "tokenfactory")) (exchangeOf Ledger.view opening) := by
  have followed : Along (step Ledger.keeper)
      (Followed Ledger.keeper Ledger.view "tokenfactory") opening marketActions :=
    ledger_followed (by decide) (by decide +kernel) (by decide +kernel)
  exact chain_refines_exchange Ledger.lawful ledger_mints (Reachable.start opening_empty) followed

end Fandomchain.Proof
