import Fandomchain.Proof.Effects

/-!
# Solvency

One module account backs the reserves of all records. Counting only the positive part of a recorded
reserve, an update that wraps lowers what the account owes, so the bound survives every run. It is
also what the second transfer of a trade needs, which makes a trade all or nothing.
-/

namespace Fandomchain.Proof
open Fandomchain.Library Fandomchain.Tokenfactory

variable {β α : Type} {k : Keeper β α} {view : BankView β α} {m : α}

/-! ## What the module account owes -/

def tokenLiability (c : String) (d : Denom) : ℤ :=
  if c = d.denom then max 0 d.realTokenReserves.toInt else 0

def fandomLiability (c : String) (d : Denom) : ℤ :=
  if c = "fandomChain" then max 0 d.realFandomReserves.toInt else 0

def liability (c : String) (d : Denom) : ℤ := tokenLiability c d + fandomLiability c d

theorem tokenLiability_nonneg (c : String) (d : Denom) : 0 ≤ tokenLiability c d := by
  unfold tokenLiability
  split <;> omega

theorem fandomLiability_nonneg (c : String) (d : Denom) : 0 ≤ fandomLiability c d := by
  unfold fandomLiability
  split <;> omega

theorem liability_nonneg (c : String) (d : Denom) : 0 ≤ liability c d :=
  add_nonneg (tokenLiability_nonneg c d) (fandomLiability_nonneg c d)

theorem liability_side (side : Side) (c : String) (d : Denom) : liability c d =
    (if c = side.coinIn d then max 0 (side.realIn d).toInt else 0) +
      (if c = side.coinOut d then max 0 (side.realOut d).toInt else 0) := by
  cases side with
  | buy => exact add_comm _ _
  | sell => rfl

theorem liability_newDenom (c : String) (msg : MsgCreateDenom) :
    liability c (newDenom msg) = if c = msg.denom then 800000000000 else 0 := by
  unfold liability tokenLiability fandomLiability
  simp

structure SolventIn (view : BankView β α) (m : α) (c : String) (s : Chain β) : Prop where
  keyed : Keyed s
  covered : sumOver (liability c) s.denom ≤ view.balance s.bank m c

structure Solvent (view : BankView β α) (m : α) (s : Chain β) : Prop where
  keyed : Keyed s
  covered : ∀ c, sumOver (liability c) s.denom ≤ view.balance s.bank m c

theorem Solvent.each {s : Chain β} (h : Solvent view m s) (c : String) : SolventIn view m c s :=
  ⟨h.keyed, h.covered c⟩

theorem Quoted.liability_le {o : Order} {s : Chain β} {q : Quote α} (h : Quoted k o s q)
    (c : String) : liability c (o.side.update q.denom o.amount q.afterFee q.out) ≤
      liability c q.denom + flow o q c := by
  have amount_pos := h.amount_pos
  have out_pos := h.out_pos
  have reserve := h.reserve
  have taken : (o.side.realOut q.denom - q.out).toInt =
      (o.side.realOut q.denom).toInt - q.out.toInt := toInt_sub_of_le out_pos.le reserve
  have added : max 0 (o.side.realIn q.denom + o.amount).toInt ≤
      max 0 (o.side.realIn q.denom).toInt + o.amount.toInt := posPart_add_le amount_pos.le
  rw [liability_side o.side, liability_side o.side c q.denom, Side.coinIn_update,
    Side.coinOut_update, Side.realIn_update, Side.realOut_update, taken]
  unfold flow
  split <;> split <;> omega

theorem SolventIn.covered_apart {s : Chain β} {c : String} (h : SolventIn view m c s) :
    sumOver (tokenLiability c) s.denom + sumOver (fandomLiability c) s.denom ≤
      view.balance s.bank m c := by
  rw [← sumOver_add]
  exact h.covered

theorem token_le_sumOver {s : Chain β} (keyed : Keyed s) {c : String} {d : Denom}
    (found : s.denom[c]? = some d) :
    d.realTokenReserves.toInt ≤ sumOver (tokenLiability c) s.denom := by
  have own := le_sumOver (tokenLiability_nonneg c) found
  have name : d.denom = c := keyed c d found
  unfold tokenLiability at own
  rw [if_pos name.symm] at own
  exact (le_max_right 0 _).trans own

theorem SolventIn.token_le_balance {s : Chain β} {c : String} (h : SolventIn view m c s) {d : Denom}
    (found : s.denom[c]? = some d) : d.realTokenReserves.toInt ≤ view.balance s.bank m c := by
  have counted := token_le_sumOver h.keyed found
  have covered := h.covered_apart
  have fandom := sumOver_nonneg (fandomLiability_nonneg c) s.denom
  omega

theorem fandom_le_sumOver {s : Chain β} {key : String} {d : Denom}
    (found : s.denom[key]? = some d) :
    d.realFandomReserves.toInt ≤ sumOver (fandomLiability "fandomChain") s.denom := by
  have own := le_sumOver (fandomLiability_nonneg "fandomChain") found
  exact (le_max_right 0 _).trans own

theorem Solvent.reserve_le {s : Chain β} (h : Solvent view m s) {key : String} {d : Denom}
    (found : s.denom[key]? = some d) (side : Side) :
    (side.realOut d).toInt ≤ view.balance s.bank m (side.coinOut d) := by
  have own := le_sumOver (liability_nonneg (side.coinOut d)) found
  have covered := h.covered (side.coinOut d)
  rw [liability_side side, if_pos rfl] at own
  split at own <;> omega

/-- The module account pays none of the coin: not into an accepted trade, not to another account. -/
structure PaysNone (k : Keeper β α) (m : α) (c : String) (s : Chain β) (a : Action α) : Prop where
  trade : ∀ (o : Order) (d : Denom), a.order? = some o →
    k.addressCodec.stringToBytes o.signer = .ok m → s.denom[o.denom]? = some d →
    accepts (tradeWithBondingCurve k o) s → o.side.coinIn d ≠ c
  transfer : ∀ dst amt bank, a = .bankSend m dst amt → dst ≠ m →
    k.bankKeeper.sendCoins s.bank m dst amt = .ok bank → amountOfNoDenomValidation amt c = 0

theorem External.paysNone {a : Action α} (external : External k m a) (c : String) (s : Chain β) :
    PaysNone k m c s a := by
  refine ⟨fun o d order signed => absurd signed (external.order order), ?_⟩
  intro dst amt bank sends
  subst sends
  exact absurd rfl external

theorem PaysNone.coinIn_ne {c : String} {a : Action α} {o : Order} {q : Quote α} {s s' : Chain β}
    (h : PaysNone k m c s a) (order : a.order? = some o) (traded : Traded k o q s s')
    (own : q.trader = m) : o.side.coinIn q.denom ≠ c :=
  h.trade o q.denom order (own ▸ traded.quoted.trader) traded.quoted.found
    (trade_accepts_iff.mpr ⟨q, s', traded⟩)

variable [DecidableEq α]

theorem Traded.flow_le_balance (law : Lawful k view m) {c : String} {a : Action α} {o : Order}
    {q : Quote α} {s s' : Chain β} (h : Traded k o q s s') (spared : PaysNone k m c s a)
    (order : a.order? = some o) :
    view.balance s.bank m c + flow o q c ≤ view.balance s'.bank m c := by
  by_cases own : q.trader = m
  · have unpaid := spared.coinIn_ne order h own
    have out_pos := h.quoted.out_pos
    rw [h.own_balance_eq law own]
    unfold flow
    rw [if_neg unpaid.symm]
    split <;> omega
  · exact (h.module_balance_eq law own c).ge

theorem solventIn_step (law : Lawful k view m) {c : String} {s : Chain β} {a : Action α}
    (h : SolventIn view m c s) (spared : PaysNone k m c s a) : SolventIn view m c (step k s a) := by
  refine ⟨keyed_step h.keyed a, ?_⟩
  have covered := h.covered
  have stepped := step_stepped (k := k) s a
  generalize step k s a = s' at stepped ⊢
  cases stepped with
  | rejected => exact covered
  | @created msg _ created =>
      rw [created.sumOver_eq, created.balance_eq law, if_pos rfl, liability_newDenom]
      omega
  | @traded _ o q _ order traded =>
      have bound := traded.quoted.liability_le c
      have received := traded.flow_le_balance law spared order
      rw [traded.sumOver_eq h.keyed]
      omega
  | updated => exact covered
  | @transferred src dst amt bank sent =>
      have moved := law.send_balance _ _ _ _ _ sent m c
      have valid := ((law.send_iff _ _ _ _).mp ⟨bank, sent⟩).1
      have nonneg := amountOf_nonneg valid c
      show sumOver (liability c) s.denom ≤ view.balance bank m c
      by_cases out : src = m ∧ dst ≠ m
      · obtain ⟨rfl, away⟩ := out
        rw [spared.transfer dst amt bank rfl away sent] at moved
        rw [moved]
        split <;> split <;> omega
      · rw [moved]
        split_ifs with paying paid
        · omega
        · exact absurd ⟨paying.symm, Ne.symm paid⟩ out
        · omega
        · omega

theorem solvent_step (law : Lawful k view m) {s : Chain β} {a : Action α} (h : Solvent view m s)
    (external : External k m a) : Solvent view m (step k s a) :=
  ⟨keyed_step h.keyed a,
    fun c => (solventIn_step law (h.each c) (external.paysNone c s)).covered⟩

theorem solvent_of_empty (law : Lawful k view m) {s : Chain β} (h : EmptyStore s) :
    Solvent view m s := by
  refine ⟨keyed_of_empty h, fun c => ?_⟩
  rw [show s.denom = ∅ from h, sumOver_empty]
  exact law.balance_nonneg _ _ _

theorem ReachedExternally.solvent (law : Lawful k view m) {s : Chain β}
    (reached : ReachedExternally k m s) : Solvent view m s :=
  reached.invariant (fun _ => solvent_of_empty law) (fun _ _ => solvent_step law)

theorem ReachedExternally.issued {s : Chain β} (reached : ReachedExternally k m s) :
    AllRecords Issued s :=
  reached.invariant (fun _ => allRecords_of_empty) (fun _ a h _ => issued_step h a)

/-- What a trade adds to the reserve on the paying side is backed by coins that exist. -/
theorem Traded.realIn_add_le (law : Lawful k view m) {o : Order} {q : Quote α} {s s' : Chain β}
    (h : Traded k o q s s') (solvent : SolventIn view m (o.side.coinIn q.denom) s)
    (other : q.trader ≠ m) :
    (o.side.realIn q.denom).toInt + o.amount.toInt ≤
      view.supply s.bank (o.side.coinIn q.denom) := by
  have own := le_sumOver (liability_nonneg (o.side.coinIn q.denom)) h.quoted.found
  have covered := solvent.covered
  have after := h.module_balance_eq law other (o.side.coinIn q.denom)
  have within := law.balance_le_supply m s'.bank (o.side.coinIn q.denom)
  have reserve := h.quoted.reserve
  rw [h.supply_eq law, after] at within
  rw [liability_side o.side, if_pos rfl] at own
  unfold flow at within
  rw [if_pos rfl] at within
  split at own <;> split at within <;> first | omega | contradiction

theorem reserves_covered (law : Lawful k view m) {s : Chain β} (reached : ReachedExternally k m s)
    (c : String) :
    (s.denom[c]?.elim 0 fun d => d.realTokenReserves.toInt) +
        (if c = "fandomChain" then sumOver (fun d => d.realFandomReserves.toInt) s.denom else 0) ≤
      view.balance s.bank m c := by
  have solvent := reached.solvent law
  have covered := (solvent.each c).covered_apart
  have tokens : (s.denom[c]?.elim 0 fun d => d.realTokenReserves.toInt) ≤
      sumOver (tokenLiability c) s.denom := by
    cases found : s.denom[c]? with
    | none => exact sumOver_nonneg (tokenLiability_nonneg c) s.denom
    | some d => exact token_le_sumOver solvent.keyed found
  have fandom : (if c = "fandomChain" then sumOver (fun d => d.realFandomReserves.toInt) s.denom
      else 0) ≤ sumOver (fandomLiability c) s.denom := by
    by_cases payment : c = "fandomChain"
    · rw [if_pos payment, payment]
      exact sumOver_mono (fun d => le_max_right 0 _) s.denom
    · rw [if_neg payment]
      exact sumOver_nonneg (fandomLiability_nonneg c) s.denom
  omega

theorem market_reserves_covered :
    (market.denom["fandomChain"]?.elim 0 fun d => d.realTokenReserves.toInt) +
        sumOver (fun d => d.realFandomReserves.toInt) market.denom ≤
      Ledger.view.balance market.bank "tokenfactory" "fandomChain" :=
  reserves_covered Ledger.lawful market_reached "fandomChain"

/-! ## All or nothing -/

def Atomic {ρ : Type} (handler : HandlerM β ρ) (s : Chain β) : Prop :=
  ∀ err s', handler.run s = .error err s' → s'.denom = s.denom ∧ s'.bank = s.bank

def payable (view : BankView β α) (m : α) (s : Chain β) (side : Side) (d : Denom) (trader : α)
    (amount : ℤ) : ℤ :=
  view.balance s.bank m (side.coinOut d) +
    if trader ≠ m ∧ side.coinIn d = side.coinOut d then amount else 0

theorem Quoted.pays (law : Lawful k view m) {o : Order} {s : Chain β} {q : Quote α}
    (quoted : Quoted k o s q) : ∃ paid, k.bankKeeper.sendCoins s.bank q.trader q.moduleAddr
      (newCoins ⟨o.side.coinIn q.denom, o.amount.toInt⟩) = .ok paid := by
  apply (law.send_iff _ _ _ _).mpr
  refine ⟨newCoins_valid quoted.coin_valid quoted.amount_pos.le, fun c => ?_⟩
  rw [amountOf_newCoins]
  split
  · rename_i same
    exact same ▸ quoted.funds
  · exact law.spendable_nonneg _ _ _

theorem Quoted.payable_eq (law : Lawful k view m) {o : Order} {s : Chain β} {q : Quote α}
    (quoted : Quoted k o s q) {paid : β} (first : k.bankKeeper.sendCoins s.bank q.trader q.moduleAddr
      (newCoins ⟨o.side.coinIn q.denom, o.amount.toInt⟩) = .ok paid) :
    view.balance paid m (o.side.coinOut q.denom) =
      payable view m s o.side q.denom q.trader o.amount.toInt := by
  have after := law.send_balance _ _ _ _ _ first m (o.side.coinOut q.denom)
  rw [quoted.module_eq law, if_pos rfl, amountOf_newCoins] at after
  rw [after]
  unfold payable
  by_cases own : q.trader = m
  · rw [if_pos own.symm, if_neg (c := q.trader ≠ m ∧ _) (fun h => h.1 own)]
    ring
  · rw [if_neg (Ne.symm own), sub_zero]
    by_cases same : o.side.coinOut q.denom = o.side.coinIn q.denom
    · rw [if_pos same, if_pos ⟨own, same.symm⟩]
    · rw [if_neg same, if_neg (c := q.trader ≠ m ∧ _) (fun h => same h.2.symm)]

/-- Past the checks only the second transfer can fail. -/
theorem settles_iff (law : Lawful k view m) {s : Chain β} (issued : AllRecords Issued s) {o : Order}
    {q : Quote α} (quoted : Quoted k o s q) : (∃ s', Traded k o q s s') ↔
      q.out.toInt ≤ payable view m s o.side q.denom q.trader o.amount.toInt := by
  have hm := quoted.module_eq law
  constructor
  · intro ⟨s', traded⟩
    obtain ⟨paid, bank, first, second, -⟩ := traded.sent
    have enough := ((law.send_iff _ _ _ _).mp ⟨bank, second⟩).2 (o.side.coinOut q.denom)
    rw [hm, law.spendable_module, amountOf_newCoins, if_pos rfl] at enough
    exact enough.trans (quoted.payable_eq law first).le
  · intro enough
    have valid := (issued _ _ quoted.found).coinOut_valid o.side
    obtain ⟨paid, first⟩ := quoted.pays law
    obtain ⟨bank, second⟩ := (law.send_iff paid q.moduleAddr q.trader
        (newCoins ⟨o.side.coinOut q.denom, q.out.toInt⟩)).mpr <| by
      refine ⟨newCoins_valid valid quoted.out_pos.le, fun c => ?_⟩
      rw [hm, law.spendable_module, amountOf_newCoins]
      split
      · rename_i same
        subst same
        exact enough.trans (quoted.payable_eq law first).ge
      · exact law.balance_nonneg paid m c
    exact ⟨_, quoted, valid, paid, bank, first, second, rfl⟩

theorem settles (law : Lawful k view m) {s : Chain β} (solvent : Solvent view m s)
    (issued : AllRecords Issued s) {o : Order} {q : Quote α} (quoted : Quoted k o s q) :
    ∃ s', Traded k o q s s' := by
  apply (settles_iff law issued quoted).mpr
  have reserve := solvent.reserve_le quoted.found o.side
  have out_le := quoted.reserve
  have amount_pos := quoted.amount_pos
  unfold payable
  split <;> omega

theorem trades_atomic (law : Lawful k view m) {s : Chain β} (reached : ReachedExternally k m s) :
    (∀ msg, Atomic (buyWithBondingCurve k msg) s) ∧
      (∀ msg, Atomic (sellWithBondingCurve k msg) s) ∧
        ∀ o q, tradeChecks k o s = .ok q →
          ∃ s', (settleTrade k o q).run s = .ok q.out s' ∧ Traded k o q s s' := by
  have complete : ∀ o q, Quoted k o s q → ∃ s', Traded k o q s s' := fun o q quoted =>
    settles law (reached.solvent law) reached.issued quoted
  refine ⟨?_, ?_, ?_⟩
  · intro msg err s' failed
    obtain rfl := trade_error (complete msg.order) (buy_error failed)
    exact ⟨rfl, rfl⟩
  · intro msg err s' failed
    obtain rfl := trade_error (complete msg.order) (sell_error failed)
    exact ⟨rfl, rfl⟩
  · intro o q checks
    obtain ⟨s', traded⟩ := complete o q (tradeChecks_eq_ok.mp checks)
    have run := trade_eq_ok.mpr ⟨q, traded, rfl⟩
    simp only [tradeWithBondingCurve, bind_run_eq_ok, get_run_eq_ok, ofExcept_run_eq_ok] at run
    obtain ⟨_, _, ⟨rfl, rfl⟩, _, _, ⟨same, rfl⟩, settled⟩ := run
    rw [checks] at same
    cases same
    exact ⟨s', settled, traded⟩

theorem market_trades_atomic :
    (∀ msg, Atomic (buyWithBondingCurve Ledger.keeper msg) market) ∧
      (∀ msg, Atomic (sellWithBondingCurve Ledger.keeper msg) market) ∧
        ∀ o q, tradeChecks Ledger.keeper o market = .ok q →
          ∃ s', (settleTrade Ledger.keeper o q).run market = .ok q.out s' ∧
            Traded Ledger.keeper o q market s' :=
  trades_atomic Ledger.lawful market_reached

end Fandomchain.Proof
