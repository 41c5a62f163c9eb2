import Fandomchain.Tokenfactory.MsgServer

/-!
# What an accepted message does

One inversion for each handler: the conditions under which it succeeds and the state it leaves.
Everything later is derived from these, never from the handlers' bodies.
-/

namespace Fandomchain.Proof
open Fandomchain.Library Fandomchain.Tokenfactory

variable {β α : Type}

/-! ## Peeling the two monads -/

theorem bind_eq_ok {ε ρ τ : Type} {x : Except ε ρ} {f : ρ → Except ε τ} {t : τ} :
    x >>= f = .ok t ↔ ∃ r, x = .ok r ∧ f r = .ok t := by
  cases x <;> simp [bind, Except.bind]

theorem pure_eq_ok {ε ρ : Type} {r t : ρ} : (pure r : Except ε ρ) = .ok t ↔ r = t := by
  simp [pure, Except.pure]

theorem bind_run_eq_ok {ρ τ : Type} {x : HandlerM β ρ} {f : ρ → HandlerM β τ} {s s' : Chain β}
    {t : τ} :
    (x >>= f).run s = .ok t s' ↔ ∃ r s₁, x.run s = .ok r s₁ ∧ (f r).run s₁ = .ok t s' := by
  show EStateM.bind x f s = _ ↔ ∃ r s₁, x s = _ ∧ f r s₁ = _
  unfold EStateM.bind
  cases x s <;> simp

theorem bind_run_eq_error {ρ τ : Type} {x : HandlerM β ρ} {f : ρ → HandlerM β τ}
    {s s' : Chain β} {err : Fault Err} :
    (x >>= f).run s = .error err s' ↔ x.run s = .error err s' ∨
      ∃ r s₁, x.run s = .ok r s₁ ∧ (f r).run s₁ = .error err s' := by
  show EStateM.bind x f s = _ ↔ x s = _ ∨ ∃ r s₁, x s = _ ∧ f r s₁ = _
  unfold EStateM.bind
  cases x s <;> simp

theorem ofExcept_run {ρ : Type} (x : Except (Fault Err) ρ) (s : Chain β) :
    (MonadExcept.ofExcept x : HandlerM β ρ).run s =
      match x with
      | .ok r => .ok r s
      | .error err => .error err s := by
  cases x <;> rfl

theorem ofExcept_run_eq_ok {ρ : Type} {x : Except (Fault Err) ρ} {s s' : Chain β} {r : ρ} :
    (MonadExcept.ofExcept x : HandlerM β ρ).run s = .ok r s' ↔ x = .ok r ∧ s = s' := by
  rw [ofExcept_run]
  cases x <;> simp

theorem ofExcept_run_error {ρ : Type} {x : Except (Fault Err) ρ} {s s' : Chain β}
    {err : Fault Err} (h : (MonadExcept.ofExcept x : HandlerM β ρ).run s = .error err s') :
    s' = s := by
  rw [ofExcept_run] at h
  cases x with
  | ok r => cases h
  | error failure =>
      cases h
      rfl

theorem get_run_eq_ok {s s' r : Chain β} :
    (get : HandlerM β (Chain β)).run s = .ok r s' ↔ s = r ∧ s = s' := by
  show EStateM.Result.ok s s = _ ↔ _
  simp

theorem set_run_eq_ok {s s' t : Chain β} {u : PUnit} :
    (set t : HandlerM β PUnit).run s = .ok u s' ↔ t = s' := by
  show EStateM.Result.ok PUnit.unit t = _ ↔ _
  simp

theorem modify_run_eq_ok {f : Chain β → Chain β} {s s' : Chain β} {u : PUnit} :
    (modify f : HandlerM β PUnit).run s = .ok u s' ↔ f s = s' := by
  show EStateM.Result.ok PUnit.unit (f s) = _ ↔ _
  simp

theorem pure_run_eq_ok {ρ : Type} {r t : ρ} {s s' : Chain β} :
    (pure r : HandlerM β ρ).run s = .ok t s' ↔ r = t ∧ s = s' := by
  show EStateM.Result.ok r s = _ ↔ _
  simp

theorem commit_cases {ρ : Type} (handler : HandlerM β ρ) (s : Chain β) :
    (∃ r, handler.run s = .ok r (commit handler s)) ∨ commit handler s = s := by
  unfold commit
  cases handler.run s with
  | ok r s' => exact .inl ⟨r, rfl⟩
  | error err s' => exact .inr rfl

theorem commit_of_ok {ρ : Type} {handler : HandlerM β ρ} {s s' : Chain β} {r : ρ}
    (h : handler.run s = .ok r s') : commit handler s = s' := by
  simp only [commit, h]

theorem accepts_iff {ρ : Type} {handler : HandlerM β ρ} {s : Chain β} :
    accepts handler s ↔ ∃ r s', handler.run s = .ok r s' := by
  unfold accepts
  cases handler.run s <;> simp

theorem sendCoins_run_eq_ok {k : Keeper β α} {src dst : α} {amt : Coins} {failure : String}
    {s s' : Chain β} {u : Unit} :
    (sendCoins k src dst amt failure).run s = .ok u s' ↔
      ∃ bank, k.bankKeeper.sendCoins s.bank src dst amt = .ok bank ∧ { s with bank } = s' := by
  simp only [sendCoins, bind_run_eq_ok, get_run_eq_ok]
  constructor
  · rintro ⟨_, _, ⟨rfl, rfl⟩, h⟩
    cases sent : k.bankKeeper.sendCoins s.bank src dst amt with
    | ok bank =>
        rw [sent] at h
        exact ⟨bank, rfl, set_run_eq_ok.mp h⟩
    | error err =>
        rw [sent] at h
        cases h
  · rintro ⟨bank, sent, rfl⟩
    exact ⟨s, s, ⟨rfl, rfl⟩, by rw [sent]; rfl⟩

/-! ## Trades -/

/-- The order `o` passes every check in the state `s`, at the price `q`. -/
structure Quoted (k : Keeper β α) (o : Order) (s : Chain β) (q : Quote α) : Prop where
  trader : k.addressCodec.stringToBytes o.signer = .ok q.trader
  found : s.denom[o.denom]? = some q.denom
  enabled : q.denom.bondingCurveEnabled
  amount_pos : 0 < o.amount.toInt
  realOut_pos : 0 < (o.side.realOut q.denom).toInt
  virtualIn_pos : 0 < (o.side.virtualIn q.denom).toInt
  virtualOut_pos : 0 < (o.side.virtualOut q.denom).toInt
  afterFee : q.afterFee = (o.side.applyFee o.amount).1
  out : q.out.toInt =
    output (o.side.virtualIn q.denom).toInt (o.side.virtualOut q.denom).toInt q.afterFee.toInt
  slippage : o.minOut.toInt ≤ q.out.toInt
  reserve : q.out.toInt ≤ (o.side.realOut q.denom).toInt
  coin_valid : isValidDenom (o.side.coinIn q.denom)
  fits : amountOfNoDenomValidation (k.bankKeeper.spendableCoins s.bank q.trader)
    (o.side.coinIn q.denom) < 2 ^ 63
  funds : o.amount.toInt ≤ amountOfNoDenomValidation
    (k.bankKeeper.spendableCoins s.bank q.trader) (o.side.coinIn q.denom)
  module_address : k.authKeeper.getModuleAddress "tokenfactory" = some q.moduleAddr

theorem tradeChecks_eq_ok {k : Keeper β α} {o : Order} {s : Chain β} {q : Quote α} :
    tradeChecks k o s = .ok q ↔ Quoted k o s q := by
  simp only [tradeChecks, bind_eq_ok, wrapping_eq_ok, plain_eq_ok, failIf_eq_ok, getDenom_eq_ok,
    getModuleAddr_eq_ok, amountOf_eq_ok, toInt64_eq_ok, pure_eq_ok]
  constructor
  · rintro ⟨trader, htrader, d, found, _, valid, n, hn, _, slippage, _, reserve, c, ⟨coin, hc⟩, b,
      hb, _, funds, addr, module_address, rfl⟩
    subst hc
    obtain ⟨enabled, amount_pos, realOut_pos, virtualIn_pos, virtualOut_pos⟩ :=
      Side.validateTrade_eq_ok.mp valid
    have := b.toInt_lt
    exact {
      trader := htrader, found, enabled, amount_pos, realOut_pos, virtualIn_pos, virtualOut_pos
      afterFee := rfl
      out := (Side.calculateOut_eq_ok.mp hn).2.2.2
      slippage := validateSlippage_eq_ok.mp slippage
      reserve := not_lt.mp fun h => reserve (Int64.lt_iff_toInt_lt.mpr h)
      coin_valid := coin
      fits := hb ▸ this
      funds := by
        rw [← hb]
        exact not_lt.mp fun h => funds (Int64.lt_iff_toInt_lt.mpr h)
      module_address }
  · intro h
    have pos : 0 < q.afterFee.toInt := h.afterFee ▸ o.side.afterFee_pos_iff.mpr h.amount_pos
    obtain ⟨b, hb⟩ : ∃ b : Int64, b.toInt = amountOfNoDenomValidation
        (k.bankKeeper.spendableCoins s.bank q.trader) (o.side.coinIn q.denom) :=
      ⟨Int64.ofInt _, Int64.toInt_ofInt_of_le (by linarith [h.funds, h.amount_pos]) h.fits⟩
    refine ⟨q.trader, h.trader, q.denom, h.found, (), ?_, q.out, ?_, (), ?_, (), ?_, _,
      ⟨h.coin_valid, rfl⟩, b, hb, (), ?_, q.moduleAddr, h.module_address, ?_⟩
    · exact Side.validateTrade_eq_ok.mpr
        ⟨h.enabled, h.amount_pos, h.realOut_pos, h.virtualIn_pos, h.virtualOut_pos⟩
    · rw [← h.afterFee]
      exact Side.calculateOut_eq_ok.mpr ⟨h.virtualIn_pos, h.virtualOut_pos, pos, h.out⟩
    · exact validateSlippage_eq_ok.mpr h.slippage
    · exact Int64.not_lt.mpr (Int64.le_iff_toInt_le.mpr h.reserve)
    · exact Int64.not_lt.mpr (Int64.le_iff_toInt_le.mpr (hb ▸ h.funds))
    · rw [← h.afterFee]

namespace Quoted

variable {k : Keeper β α} {o : Order} {s : Chain β} {q : Quote α}

theorem afterFee_pos (h : Quoted k o s q) : 0 < q.afterFee.toInt :=
  h.afterFee ▸ o.side.afterFee_pos_iff.mpr h.amount_pos

theorem afterFee_toInt (h : Quoted k o s q) :
    q.afterFee.toInt = o.amount.toInt - o.amount.toInt / 100 :=
  h.afterFee ▸ o.side.afterFee_toInt h.amount_pos.le

theorem afterFee_le (h : Quoted k o s q) : q.afterFee.toInt ≤ o.amount.toInt := by
  have := h.afterFee_toInt
  have := h.amount_pos
  omega

theorem record_eq (h : Quoted k o s q) {d : Denom} (found : s.denom[o.denom]? = some d) :
    q.denom = d :=
  Option.some.inj (h.found.symm.trans found)

theorem trader_eq (h : Quoted k o s q) {trader : α}
    (decoded : k.addressCodec.stringToBytes o.signer = .ok trader) : q.trader = trader :=
  Except.ok.inj (h.trader.symm.trans decoded)

theorem out_pos (h : Quoted k o s q) : 0 < q.out.toInt := by
  rw [h.out]
  exact output_pos h.virtualIn_pos.le h.virtualOut_pos h.afterFee_pos

theorem out_le (h : Quoted k o s q) : q.out.toInt ≤ (o.side.virtualOut q.denom).toInt := by
  rw [h.out]
  exact output_le (by linarith [h.virtualIn_pos, h.afterFee_pos])
    (mul_nonneg h.virtualIn_pos.le h.virtualOut_pos.le)

end Quoted

/-- The order `o`, priced `q`, goes through and turns `s` into `s'`. -/
structure Traded (k : Keeper β α) (o : Order) (q : Quote α) (s s' : Chain β) : Prop where
  quoted : Quoted k o s q
  coin_out_valid : isValidDenom (o.side.coinOut q.denom)
  sent : ∃ paid bank,
    k.bankKeeper.sendCoins s.bank q.trader q.moduleAddr
      (newCoins ⟨o.side.coinIn q.denom, o.amount.toInt⟩) = .ok paid ∧
    k.bankKeeper.sendCoins paid q.moduleAddr q.trader
      (newCoins ⟨o.side.coinOut q.denom, q.out.toInt⟩) = .ok bank ∧
    s' = { s with
      bank
      denom := s.denom.insert q.denom.denom
        (o.side.update q.denom o.amount q.afterFee q.out) }

theorem trade_eq_ok {k : Keeper β α} {o : Order} {s s' : Chain β} {n : Int64} :
    (tradeWithBondingCurve k o).run s = .ok n s' ↔ ∃ q, Traded k o q s s' ∧ n = q.out := by
  simp only [tradeWithBondingCurve, settleTrade, bind_run_eq_ok, get_run_eq_ok,
    ofExcept_run_eq_ok, tradeChecks_eq_ok, sendCoins_run_eq_ok, newCoin_eq_ok, modify_run_eq_ok,
    pure_run_eq_ok, Side.denom_update]
  constructor
  · rintro ⟨_, _, ⟨rfl, rfl⟩, q, _, ⟨quoted, rfl⟩, paid, _, ⟨⟨_, _, rfl⟩, rfl⟩, _, _,
      ⟨bank₁, first, rfl⟩, bought, _, ⟨⟨valid, _, rfl⟩, rfl⟩, _, _, ⟨bank₂, second, rfl⟩, _, _,
      rfl, rfl, rfl⟩
    exact ⟨q, ⟨quoted, valid, bank₁, bank₂, first, second, rfl⟩, rfl⟩
  · rintro ⟨q, ⟨quoted, valid, bank₁, bank₂, first, second, rfl⟩, rfl⟩
    exact ⟨s, s, ⟨rfl, rfl⟩, q, s, ⟨quoted, rfl⟩, _, s,
      ⟨⟨quoted.coin_valid, quoted.amount_pos.le, rfl⟩, rfl⟩, (), _, ⟨bank₁, first, rfl⟩, _, _,
      ⟨⟨valid, quoted.out_pos.le, rfl⟩, rfl⟩, (), _, ⟨bank₂, second, rfl⟩, (), _, rfl, rfl, rfl⟩

theorem trade_accepts_iff {k : Keeper β α} {o : Order} {s : Chain β} :
    accepts (tradeWithBondingCurve k o) s ↔ ∃ q s', Traded k o q s s' := by
  rw [accepts_iff]
  constructor
  · intro ⟨_, s', accepted⟩
    obtain ⟨q, traded, -⟩ := trade_eq_ok.mp accepted
    exact ⟨q, s', traded⟩
  · intro ⟨q, s', traded⟩
    exact ⟨q.out, s', trade_eq_ok.mpr ⟨q, traded, rfl⟩⟩

def received (k : Keeper β α) (o : Order) (s : Chain β) : ℤ :=
  match (tradeWithBondingCurve k o).run s with
  | .ok n _ => n.toInt
  | .error _ _ => 0

theorem Traded.received_eq {k : Keeper β α} {o : Order} {q : Quote α} {s s' : Chain β}
    (h : Traded k o q s s') : received k o s = q.out.toInt := by
  unfold received
  rw [trade_eq_ok.mpr ⟨q, h, rfl⟩]

theorem received_of_rejected {k : Keeper β α} {o : Order} {s : Chain β}
    (rejected : ¬accepts (tradeWithBondingCurve k o) s) : received k o s = 0 := by
  unfold accepts at rejected
  unfold received
  split
  · rename_i run
    simp [run] at rejected
  · rfl

theorem buy_run_eq_ok {k : Keeper β α} {msg : MsgBuyWithBondingCurve} {s s' : Chain β}
    {response : MsgBuyWithBondingCurveResponse} :
    (buyWithBondingCurve k msg).run s = .ok response s' ↔
      (tradeWithBondingCurve k msg.order).run s = .ok response.tokensReceived s' := by
  simp only [buyWithBondingCurve, bind_run_eq_ok, pure_run_eq_ok]
  constructor
  · rintro ⟨_, _, traded, rfl, rfl⟩
    exact traded
  · intro traded
    exact ⟨_, _, traded, rfl, rfl⟩

theorem sell_run_eq_ok {k : Keeper β α} {msg : MsgSellWithBondingCurve} {s s' : Chain β}
    {response : MsgSellWithBondingCurveResponse} :
    (sellWithBondingCurve k msg).run s = .ok response s' ↔
      (tradeWithBondingCurve k msg.order).run s = .ok response.fandomReceived s' := by
  simp only [sellWithBondingCurve, bind_run_eq_ok, pure_run_eq_ok]
  constructor
  · rintro ⟨_, _, traded, rfl, rfl⟩
    exact traded
  · intro traded
    exact ⟨_, _, traded, rfl, rfl⟩

theorem buy_eq_ok {k : Keeper β α} {msg : MsgBuyWithBondingCurve} {s s' : Chain β}
    {response : MsgBuyWithBondingCurveResponse} :
    (buyWithBondingCurve k msg).run s = .ok response s' ↔
      ∃ q, Traded k msg.order q s s' ∧ response = ⟨q.out⟩ := by
  cases response
  simp only [buy_run_eq_ok, trade_eq_ok, MsgBuyWithBondingCurveResponse.mk.injEq]

theorem sell_eq_ok {k : Keeper β α} {msg : MsgSellWithBondingCurve} {s s' : Chain β}
    {response : MsgSellWithBondingCurveResponse} :
    (sellWithBondingCurve k msg).run s = .ok response s' ↔
      ∃ q, Traded k msg.order q s s' ∧ response = ⟨q.out⟩ := by
  cases response
  simp only [sell_run_eq_ok, trade_eq_ok, MsgSellWithBondingCurveResponse.mk.injEq]

theorem sell_accepts_iff {k : Keeper β α} {msg : MsgSellWithBondingCurve} {s : Chain β} :
    accepts (sellWithBondingCurve k msg) s ↔
      ∃ n s', (tradeWithBondingCurve k msg.order).run s = .ok n s' := by
  simp only [accepts_iff, sell_run_eq_ok]
  constructor
  · intro ⟨response, s', traded⟩
    exact ⟨response.fandomReceived, s', traded⟩
  · intro ⟨n, s', traded⟩
    exact ⟨⟨n⟩, s', traded⟩

theorem trade_error {k : Keeper β α} {o : Order} {s s' : Chain β} {err : Fault Err}
    (complete : ∀ q, Quoted k o s q → ∃ s', Traded k o q s s')
    (h : (tradeWithBondingCurve k o).run s = .error err s') : s' = s := by
  have original := h
  simp only [tradeWithBondingCurve, bind_run_eq_error, get_run_eq_ok] at h
  rcases h with unread | ⟨_, _, ⟨rfl, rfl⟩, failed | ⟨q, _, checked, _⟩⟩
  · cases unread
  · exact ofExcept_run_error failed
  · obtain ⟨checks, -⟩ := ofExcept_run_eq_ok.mp checked
    obtain ⟨s'', traded⟩ := complete q (tradeChecks_eq_ok.mp checks)
    rw [trade_eq_ok.mpr ⟨q, traded, rfl⟩] at original
    cases original

theorem buy_error {k : Keeper β α} {msg : MsgBuyWithBondingCurve} {s s' : Chain β} {err : Fault Err}
    (h : (buyWithBondingCurve k msg).run s = .error err s') :
    (tradeWithBondingCurve k msg.order).run s = .error err s' := by
  rcases bind_run_eq_error.mp h with failed | ⟨_, _, _, responded⟩
  · exact failed
  · cases responded

theorem sell_error {k : Keeper β α} {msg : MsgSellWithBondingCurve} {s s' : Chain β} {err : Fault Err}
    (h : (sellWithBondingCurve k msg).run s = .error err s') :
    (tradeWithBondingCurve k msg.order).run s = .error err s' := by
  rcases bind_run_eq_error.mp h with failed | ⟨_, _, _, responded⟩
  · exact failed
  · cases responded

/-! ## Creation -/

structure Created (k : Keeper β α) (msg : MsgCreateDenom) (s s' : Chain β) : Prop where
  owner : ∃ owner, k.addressCodec.stringToBytes msg.owner = .ok owner
  fresh : s.denom[msg.denom]? = none
  coin_valid : isValidDenom msg.denom
  minted : ∃ bank,
    k.bankKeeper.mintCoins s.bank "tokenfactory" (newCoins ⟨msg.denom, 800000000000⟩) = .ok bank ∧
    s' = { s with bank, denom := s.denom.insert msg.denom (newDenom msg) }

theorem mintCoins_run_eq_ok {k : Keeper β α} {amt : Coins} {s s' : Chain β} {u : Unit} :
    (mintCoins k amt).run s = .ok u s' ↔
      ∃ bank, k.bankKeeper.mintCoins s.bank "tokenfactory" amt = .ok bank ∧
        { s with bank } = s' := by
  simp only [mintCoins, bind_run_eq_ok, get_run_eq_ok]
  constructor
  · rintro ⟨_, _, ⟨rfl, rfl⟩, h⟩
    cases minted : k.bankKeeper.mintCoins s.bank "tokenfactory" amt with
    | ok bank =>
        rw [minted] at h
        exact ⟨bank, rfl, set_run_eq_ok.mp h⟩
    | error err =>
        rw [minted] at h
        cases h
  · rintro ⟨bank, minted, rfl⟩
    exact ⟨s, s, ⟨rfl, rfl⟩, by rw [minted]; rfl⟩

theorem createDenom_eq_ok {k : Keeper β α} {msg : MsgCreateDenom} {s s' : Chain β} {u : Unit} :
    (createDenom k msg).run s = .ok u s' ↔ Created k msg s s' := by
  simp only [createDenom, bind_run_eq_ok, ofExcept_run_eq_ok, wrapping_eq_ok, plain_eq_ok,
    get_run_eq_ok, set_run_eq_ok, failIf_eq_ok, newCoin_eq_ok, mintCoins_run_eq_ok,
    newDenom_realTokenReserves, newDenom_denom]
  constructor
  · rintro ⟨owner, _, ⟨howner, rfl⟩, _, _, ⟨rfl, rfl⟩, _, _, ⟨fresh, rfl⟩, _, _, rfl, coin, _,
      ⟨⟨valid, _, rfl⟩, rfl⟩, bank, minted, rfl⟩
    refine ⟨⟨owner, howner⟩, ?_, valid, bank, minted, rfl⟩
    simpa using fresh
  · rintro ⟨⟨owner, howner⟩, fresh, valid, bank, minted, rfl⟩
    refine ⟨owner, s, ⟨howner, rfl⟩, s, s, ⟨rfl, rfl⟩, (), s, ⟨?_, rfl⟩, (), _, rfl, _, _,
      ⟨⟨valid, by norm_num, rfl⟩, rfl⟩, bank, minted, rfl⟩
    simpa using fresh

theorem createDenom_accepts_iff {k : Keeper β α} {msg : MsgCreateDenom} {s : Chain β} :
    accepts (createDenom k msg) s ↔ ∃ s', Created k msg s s' := by
  rw [accepts_iff]
  constructor
  · intro ⟨_, s', accepted⟩
    exact ⟨s', createDenom_eq_ok.mp accepted⟩
  · intro ⟨s', created⟩
    exact ⟨(), s', createDenom_eq_ok.mpr created⟩

end Fandomchain.Proof
