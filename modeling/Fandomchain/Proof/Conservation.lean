import Fandomchain.Proof.Solvency
import Fandomchain.Proof.Supply

/-!
# Tokens are conserved

Of a coin that was new when it was created, the record counts what the module account holds for
sale: everything else is with others, up to what somebody sends to the module account directly. The
handlers do not compare the signer with the module account, so what it signs itself is excluded as
far as it pays the coin.
-/

namespace Fandomchain.Proof
open Fandomchain.Library Fandomchain.Tokenfactory

variable {β α : Type} {k : Keeper β α} {view : BankView β α} {m : α}

structure Conserved (view : BankView β α) (c : String) (s : Chain β) : Prop where
  supply : view.supply s.bank c = 800000000000
  record : ∃ d, s.denom[c]? = some d ∧ 0 ≤ d.realTokenReserves.toInt

structure Listed (view : BankView β α) (c : String) (s : Chain β) : Prop where
  supply : view.supply s.bank c = 800000000000
  record : s.denom[c]? ≠ none

theorem Conserved.listed {c : String} {s : Chain β} (h : Conserved view c s) : Listed view c s := by
  obtain ⟨supply, d, found, -⟩ := h
  refine ⟨supply, fun absent => ?_⟩
  rw [found] at absent
  cases absent

structure Undonated (view : BankView β α) (m : α) (c : String) (s : Chain β) : Prop where
  held : ∀ d, s.denom[c]? = some d → view.balance s.bank m c = d.realTokenReserves.toInt
  payment : c = "fandomChain" → view.balance s.bank m c = view.supply s.bank c

theorem realTokenReserves_update (side : Side) (d : Denom) (amount afterFee out : Int64) :
    (side.update d amount afterFee out).realTokenReserves = match side with
      | .buy => d.realTokenReserves - out
      | .sell => d.realTokenReserves + amount := by
  cases side <;> rfl

def NoDeposit (k : Keeper β α) (m : α) (c : String) (s : Chain β) (a : Action α) : Prop :=
  ∀ src amt bank, a = .bankSend src m amt → k.bankKeeper.sendCoins s.bank src m amt = .ok bank →
    amountOfNoDenomValidation amt c = 0

/-- The module account signs no accepted buy of the coin. -/
def NoOwnBuy (k : Keeper β α) (m : α) (c : String) (s : Chain β) (a : Action α) : Prop :=
  ∀ o, a.order? = some o → o.side = .buy → o.denom = c →
    k.addressCodec.stringToBytes o.signer = .ok m → ¬accepts (tradeWithBondingCurve k o) s

theorem External.noOwnBuy {a : Action α} (external : External k m a) (c : String) (s : Chain β) :
    NoOwnBuy k m c s a :=
  fun _ order _ _ signed => absurd signed (external.order order)

theorem NoOwnBuy.trader_ne {c : String} {a : Action α} {o : Order} {q : Quote α} {s s' : Chain β}
    (h : NoOwnBuy k m c s a) (spared : PaysNone k m c s a) (order : a.order? = some o)
    (traded : Traded k o q s s') (name : q.denom.denom = c) (keyed : Keyed s) : q.trader ≠ m := by
  intro own
  have unpaid := spared.coinIn_ne order traded own
  cases side : o.side with
  | buy =>
      exact h o order side ((traded.quoted.name keyed).symm.trans name)
        (own ▸ traded.quoted.trader) (trade_accepts_iff.mpr ⟨q, s', traded⟩)
  | sell =>
      rw [side] at unpaid
      exact unpaid name

variable [DecidableEq α]

theorem Traded.realTokenReserves_eq (law : Lawful k view m) {a : Action α} {o : Order} {q : Quote α}
    {s s' : Chain β} (h : Traded k o q s s') (order : a.order? = some o)
    (solvent : SolventIn view m q.denom.denom s) (spared : PaysNone k m q.denom.denom s a)
    (nonneg : 0 ≤ q.denom.realTokenReserves.toInt)
    (issue : view.supply s.bank q.denom.denom = 800000000000) :
    (o.side.update q.denom o.amount q.afterFee q.out).realTokenReserves.toInt =
      match o.side with
      | .buy => q.denom.realTokenReserves.toInt - q.out.toInt
      | .sell => q.denom.realTokenReserves.toInt + o.amount.toInt := by
  rw [realTokenReserves_update]
  have reserve := h.quoted.reserve
  have amount_pos := h.quoted.amount_pos
  cases side : o.side with
  | buy =>
      rw [side] at reserve
      exact toInt_sub_of_le h.quoted.out_pos.le reserve
  | sell =>
      have coin : o.side.coinIn q.denom = q.denom.denom := by
        rw [side]
        rfl
      have backed := h.realIn_add_le law (coin.symm ▸ solvent)
        fun own => spared.coinIn_ne order h own coin
      rw [side] at backed
      have total : q.denom.realTokenReserves.toInt + o.amount.toInt ≤ 800000000000 :=
        backed.trans issue.le
      exact toInt_add_exact (by omega) (by omega)

theorem listed_step (law : Lawful k view m) {c : String} {s : Chain β} (h : Listed view c s)
    (a : Action α) : Listed view c (step k s a) := by
  obtain ⟨supply, record⟩ := h
  refine ⟨?_, fun absent => record (record_kept a absent)⟩
  rcases supply_step law s a c with same | ⟨msg, rfl, rfl, accepted⟩
  · exact same.trans supply
  · exact absurd (step_created accepted).fresh record

theorem conserved_step (law : Lawful k view m) {c : String} {s : Chain β} {a : Action α}
    (solvent : SolventIn view m c s) (h : Conserved view c s) (spared : PaysNone k m c s a) :
    Conserved view c (step k s a) := by
  have listed := listed_step law h.listed a
  obtain ⟨supply, d, found, nonneg⟩ := h
  refine ⟨listed.supply, ?_⟩
  rcases record_step solvent.keyed found a with kept | ⟨o, q, order, rfl, rfl, traded, updated⟩
  · exact ⟨d, kept, nonneg⟩
  · have counter := traded.realTokenReserves_eq law order solvent spared nonneg supply
    have reserve := traded.quoted.reserve
    have amount_pos := traded.quoted.amount_pos
    refine ⟨_, updated, ?_⟩
    rw [counter]
    cases side : o.side with
    | buy =>
        rw [side] at reserve
        exact sub_nonneg.mpr reserve
    | sell => exact add_nonneg nonneg amount_pos.le

theorem no_trade_of_all_held (law : Lawful k view m) {a : Action α} {o : Order} {q : Quote α}
    {s s' : Chain β} (h : Traded k o q s s') (order : a.order? = some o)
    (solvent : SolventIn view m "fandomChain" s) (spared : PaysNone k m "fandomChain" s a) {d : Denom}
    (found : s.denom["fandomChain"]? = some d)
    (counted : view.balance s.bank m "fandomChain" = d.realTokenReserves.toInt)
    (all : view.balance s.bank m "fandomChain" = view.supply s.bank "fandomChain") : False := by
  have none_outside := law.held_eq m s.bank "fandomChain"
  rw [all, sub_self] at none_outside
  have funds := h.funds_le law
  have amount_pos := h.quoted.amount_pos
  have reserve := h.quoted.reserve
  have out_pos := h.quoted.out_pos
  have tokens := token_le_sumOver solvent.keyed found
  have covered := solvent.covered_apart
  have fandom := fandom_le_sumOver h.quoted.found
  cases side : o.side with
  | buy =>
      have coin : o.side.coinIn q.denom = "fandomChain" := by
        rw [side]
        rfl
      have nothing := law.balance_le_held (fun own => spared.coinIn_ne order h own coin) s.bank
        "fandomChain"
      rw [coin] at funds
      omega
  | sell =>
      rw [side] at reserve
      have taken : q.out.toInt ≤ q.denom.realFandomReserves.toInt := reserve
      omega

theorem undonated_step (law : Lawful k view m) {c : String} {s : Chain β} {a : Action α}
    (solvent : SolventIn view m c s) (conserved : Conserved view c s) (h : Undonated view m c s)
    (spared : PaysNone k m c s a) (undeposited : NoDeposit k m c s a) (unbought : NoOwnBuy k m c s a) :
    Undonated view m c (step k s a) := by
  obtain ⟨supply, d, found, nonneg⟩ := conserved
  have stepped := step_stepped (k := k) s a
  generalize step k s a = s' at stepped ⊢
  cases stepped with
  | rejected => exact h
  | @created msg _ created =>
      have other := created.name_ne found
      refine ⟨?_, ?_⟩
      · intro e
        rw [created.getElem?_denom, if_neg other, created.balance_eq law, if_pos rfl,
          if_neg (Ne.symm other), add_zero]
        exact h.held e
      · intro payment
        rw [created.balance_eq law, created.supply_eq law, if_pos rfl, h.payment payment]
  | @traded _ o q _ order traded =>
      by_cases payment : c = "fandomChain"
      · subst payment
        exact (no_trade_of_all_held law traded order solvent spared found (h.held d found)
          (h.payment rfl)).elim
      · refine ⟨?_, fun same => absurd same payment⟩
        intro e
        rw [traded.getElem?_denom]
        by_cases own : q.denom.denom = c
        · have outside := unbought.trader_ne spared order traded own solvent.keyed
          subst own
          obtain rfl : q.denom = d :=
            Option.some.inj ((traded.quoted.found_name solvent.keyed).symm.trans found)
          have counter := traded.realTokenReserves_eq law order solvent spared nonneg supply
          have held := h.held _ found
          rw [traded.module_balance_eq law outside, if_pos rfl]
          intro updated
          cases updated
          rw [counter, held]
          unfold flow
          cases side : o.side <;> simp [Side.coinIn, Side.coinOut, payment, sub_eq_add_neg]
        · have untouched : flow o q c = 0 := by
            unfold flow
            cases o.side <;> simp [Side.coinIn, Side.coinOut, payment, Ne.symm own]
          have kept : view.balance s'.bank m c = view.balance s.bank m c := by
            rw [traded.balance_eq law, untouched, ite_self, ite_self, sub_zero, add_zero]
          rw [if_neg own, kept]
          exact h.held e
  | updated => exact ⟨h.held, h.payment⟩
  | @transferred src dst amt bank sent =>
      have moved := law.send_balance _ _ _ _ _ sent m c
      have kept : view.balance bank m c = view.balance s.bank m c := by
        by_cases into : dst = m
        · subst into
          rw [undeposited src amt bank rfl sent, ite_self, ite_self, sub_zero, add_zero] at moved
          exact moved
        · rw [if_neg (Ne.symm into), add_zero] at moved
          rw [moved]
          split
          · rename_i own
            subst own
            rw [spared.transfer dst amt bank rfl into sent, sub_zero]
          · rw [sub_zero]
      refine ⟨fun e same => kept.trans (h.held e same), fun payment => ?_⟩
      have whole := congrFun (law.send_supply _ _ _ _ _ sent) c
      exact (kept.trans (h.payment payment)).trans whole.symm

/-! ## From the creation on -/

/-- Nobody pays with a coin that does not exist, so no record owes any of it. -/
def Unfunded (view : BankView β α) (s : Chain β) : Prop :=
  view.supply s.bank "fandomChain" = 0 → AllRecords (fun d => d.realFandomReserves.toInt ≤ 0) s

theorem Traded.funded (law : Lawful k view m) {o : Order} {q : Quote α} {s s' : Chain β}
    (h : Traded k o q s s') (unpaid : q.denom.realFandomReserves.toInt ≤ 0) :
    view.supply s.bank "fandomChain" ≠ 0 := by
  have funds := h.funds_le law
  have amount_pos := h.quoted.amount_pos
  have reserve := h.quoted.reserve
  have out_pos := h.quoted.out_pos
  have exists_le := law.balance_le_supply q.trader s.bank "fandomChain"
  cases side : o.side with
  | buy =>
      rw [side] at funds
      have paid : o.amount.toInt ≤ view.balance s.bank q.trader "fandomChain" := funds
      omega
  | sell =>
      rw [side] at reserve
      have taken : q.out.toInt ≤ q.denom.realFandomReserves.toInt := reserve
      omega

theorem unfunded_step (law : Lawful k view m) {s : Chain β} (h : Unfunded view s) (a : Action α) :
    Unfunded view (step k s a) := by
  have stepped := step_stepped (k := k) s a
  generalize step k s a = s' at stepped ⊢
  intro zero
  cases stepped with
  | rejected => exact h zero
  | @created msg _ created =>
      have nonneg := law.balance_nonneg s.bank m "fandomChain"
      have held := law.balance_le_supply m s.bank "fandomChain"
      have none_before : view.supply s.bank "fandomChain" = 0 := by
        rw [created.supply_eq law] at zero
        split at zero <;> omega
      apply allRecords_insert (h none_before) created.denom_eq
      rw [newDenom_realFandomReserves]
  | @traded _ o q _ order traded =>
      have none_before := (congrFun (traded.supply_eq law) "fandomChain").symm.trans zero
      exact absurd none_before (traded.funded law (h none_before _ _ traded.quoted.found))
  | updated => exact h zero
  | transferred sent =>
      exact h ((congrFun (law.send_supply _ _ _ _ _ sent) "fandomChain").symm.trans zero)

theorem Reached.unfunded (law : Lawful k view m) {s : Chain β} (reached : Reached k s) :
    Unfunded view s :=
  Reached.invariant (I := Unfunded view) (fun _ empty _ => allRecords_of_empty empty)
    (fun _ a h => unfunded_step law h a) reached

theorem Created.solventIn (law : Lawful k view m) {msg : MsgCreateDenom} {s s' : Chain β}
    (created : Created k msg s s') (keyed : Keyed s)
    (unfunded : msg.denom = "fandomChain" →
      AllRecords (fun d => d.realFandomReserves.toInt ≤ 0) s) :
    SolventIn view m msg.denom s' := by
  have none_owed : sumOver (liability msg.denom) s.denom ≤ 0 := by
    apply sumOver_nonpos
    intro key d found
    have other : msg.denom ≠ d.denom := by
      rw [keyed key d found]
      exact created.name_ne found
    unfold liability tokenLiability fandomLiability
    rw [if_neg other, zero_add]
    split
    · rename_i payment
      exact max_le le_rfl (unfunded payment key d found)
    · exact le_rfl
  have nonneg := law.balance_nonneg s.bank m msg.denom
  refine ⟨?_, ?_⟩
  · unfold Keyed
    rw [created.denom_eq]
    exact SelfKeyed.insert keyed (newDenom msg)
  · rw [created.sumOver_eq, created.balance_eq law, if_pos rfl, if_pos rfl, liability_newDenom,
      if_pos rfl]
    omega

theorem conserved_created (law : Lawful k view m) {msg : MsgCreateDenom} {s s' : Chain β}
    (created : Created k msg s s') (absent : view.supply s.bank msg.denom = 0) :
    Conserved view msg.denom s' ∧ Undonated view m msg.denom s' := by
  have none_held : view.balance s.bank m msg.denom = 0 := by
    have := law.balance_nonneg s.bank m msg.denom
    have := law.balance_le_supply m s.bank msg.denom
    omega
  have supply : view.supply s'.bank msg.denom = 800000000000 := by
    rw [created.supply_eq law, absent, if_pos rfl, zero_add]
  have held : view.balance s'.bank m msg.denom = 800000000000 := by
    rw [created.balance_eq law, none_held, if_pos rfl, if_pos rfl, zero_add]
  have record := created.record
  refine ⟨⟨supply, _, record, ?_⟩, ⟨?_, ?_⟩⟩
  · rw [newDenom_realTokenReserves]
    decide
  · intro d found
    rw [record] at found
    cases found
    rw [held, newDenom_realTokenReserves]
  · intro _
    rw [held, supply]

structure ConservedRun (view : BankView β α) (m : α) (c : String) (s : Chain β) : Prop where
  solvent : SolventIn view m c s
  issued : AllRecords Issued s
  conserved : Conserved view c s

theorem conservedRun_step (law : Lawful k view m) {c : String} {s : Chain β} {a : Action α}
    (h : ConservedRun view m c s) (spared : PaysNone k m c s a) :
    ConservedRun view m c (step k s a) :=
  ⟨solventIn_step law h.solvent spared, issued_step h.issued a,
    conserved_step law h.solvent h.conserved spared⟩

theorem Reached.conservedRun (law : Lawful k view m) {before : Chain β} (reached : Reached k before)
    {msg : MsgCreateDenom} (accepted : accepts (createDenom k msg) before)
    (absent : view.supply before.bank msg.denom = 0) :
    ConservedRun view m msg.denom (step k before (.createDenom msg)) := by
  have created := step_created accepted
  refine ⟨?_, issued_step reached.issued _, (conserved_created law created absent).1⟩
  exact created.solventIn law reached.keyed fun payment =>
    reached.unfunded law (payment ▸ absent)

/-- What the chain says about the coin `c` with the record `d`: its supply, how much of it is sold,
and who holds that. -/
structure Truthful (view : BankView β α) (m : α) (c : String) (d : Denom) (s : Chain β) : Prop where
  supply : view.supply s.bank c = d.initialRealTokenReserves.toInt
  reserve : d.realTokenReserves.toInt ∈ Set.Icc 0 d.initialRealTokenReserves.toInt
  progress : ∃ tokensSold tokensRemaining : Int64,
    getBondingProgress d = .ok
      (toString (tokensSold.toInt * 100 / d.initialRealTokenReserves.toInt), tokensSold,
        tokensRemaining) ∧
    tokensSold.toInt + tokensRemaining.toInt = d.initialRealTokenReserves.toInt ∧
    tokensSold.toInt * 100 / d.initialRealTokenReserves.toInt ∈ Set.Icc 0 100 ∧
    view.heldByOthers m s.bank c ≤ tokensSold.toInt

theorem ConservedRun.truthful (law : Lawful k view m) {c : String} {s : Chain β}
    (h : ConservedRun view m c s) {d : Denom} (found : s.denom[c]? = some d) :
    Truthful view m c d s := by
  obtain ⟨supply, e, found', nonneg⟩ := h.conserved
  obtain rfl : e = d := Option.some.inj (found'.symm.trans found)
  have initial := (h.issued c e found).initial
  have held := law.held_eq m s.bank c
  have others := law.held_nonneg m s.bank c
  have counted := h.solvent.token_le_balance found
  have le : e.realTokenReserves.toInt ≤ e.initialRealTokenReserves.toInt := by omega
  refine ⟨by rw [supply, initial], ⟨nonneg, le⟩, ?_⟩
  obtain ⟨tokensSold, tokensRemaining, result, sold, remaining⟩ :=
    getBondingProgress_eq (h.issued c e found).enabled (by omega) nonneg le
  refine ⟨tokensSold, tokensRemaining, result, by omega, ⟨?_, ?_⟩, by omega⟩
  · exact Int.ediv_nonneg (by omega) (by omega)
  · rw [initial]
    omega

/-- From the creation of a new coin on, as long as the module account pays none of it. -/
theorem tokens_conserved (law : Lawful k view m) {before : Chain β} (reached : Reached k before)
    {msg : MsgCreateDenom} (accepted : accepts (createDenom k msg) before)
    (absent : view.supply before.bank msg.denom = 0) {as : List (Action α)}
    (unpaid : Along (step k) (PaysNone k m msg.denom) (step k before (.createDenom msg)) as) :
    ∃ d, ((Action.createDenom msg :: as).foldl (step k) before).denom[msg.denom]? = some d ∧
      Truthful view m msg.denom d ((Action.createDenom msg :: as).foldl (step k) before) ∧
      (Along (step k) (fun s a => NoDeposit k m msg.denom s a ∧ NoOwnBuy k m msg.denom s a)
          (step k before (.createDenom msg)) as →
        view.heldByOthers m ((Action.createDenom msg :: as).foldl (step k) before).bank msg.denom =
          d.initialRealTokenReserves.toInt - d.realTokenReserves.toInt) := by
  have start := (conserved_created law (step_created accepted) absent).2
  have run₀ := reached.conservedRun law accepted absent
  have run : ConservedRun view m msg.denom (as.foldl (step k) (step k before (.createDenom msg))) :=
    run_preserves (fun s a => conservedRun_step law) run₀ unpaid
  obtain ⟨d, found, -⟩ := run.conserved.record
  have truthful := run.truthful law found
  refine ⟨d, found, truthful, fun untaken => ?_⟩
  have keeps : ∀ s a, ConservedRun view m msg.denom s ∧ Undonated view m msg.denom s →
      PaysNone k m msg.denom s a ∧ NoDeposit k m msg.denom s a ∧ NoOwnBuy k m msg.denom s a →
      ConservedRun view m msg.denom (step k s a) ∧ Undonated view m msg.denom (step k s a) :=
    fun s a h allowed => ⟨conservedRun_step law h.1 allowed.1,
      undonated_step law h.1.solvent h.1.conserved h.2 allowed.1 allowed.2.1 allowed.2.2⟩
  have undonated := (run_preserves keeps ⟨run₀, start⟩ (unpaid.and untaken)).2
  have whole := truthful.supply
  have held := law.held_eq m (as.foldl (step k) (step k before (.createDenom msg))).bank msg.denom
  rw [undonated.held d found, whole] at held
  exact held

theorem rose_conserved :
    let s := [creation "alice" "rose", buying "alice" "rose" 1000,
      .bankSend "tokenfactory" "bob" [⟨"fandomChain", 3⟩], selling "alice" "rose" 70].foldl
      (step Ledger.keeper) opening
    ∃ d, s.denom["rose"]? = some d ∧ Truthful Ledger.view "tokenfactory" "rose" d s ∧
      Ledger.view.heldByOthers "tokenfactory" s.bank "rose" =
        d.initialRealTokenReserves.toInt - d.realTokenReserves.toInt := by
  have signed : External Ledger.keeper "tokenfactory" (buying "alice" "rose" 1000) := by decide
  have signed' : External Ledger.keeper "tokenfactory" (selling "alice" "rose" 70) := by decide
  obtain ⟨d, found, truthful, held⟩ :=
    @tokens_conserved _ _ _ _ _ _ Ledger.lawful opening (Reachable.start opening_empty)
      ⟨"alice", "rose", "", "", ""⟩ (by decide +kernel) (by decide)
      [buying "alice" "rose" 1000, .bankSend "tokenfactory" "bob" [⟨"fandomChain", 3⟩],
        selling "alice" "rose" 70] <| by
      refine ⟨signed.paysNone _ _, ⟨?_, ?_⟩, signed'.paysNone _ _, trivial⟩
      · intro o d order
        cases order
      · intro dst amt bank sends
        cases sends
        intros
        decide
  refine ⟨d, found, truthful, held ⟨⟨?_, signed.noOwnBuy _ _⟩, ⟨?_, ?_⟩, ⟨?_, signed'.noOwnBuy _ _⟩,
    trivial⟩⟩
  · intro src amt bank other
    cases other
  · intro src amt bank other
    injection other with _ to_bob
    exact absurd to_bob (by decide)
  · intro o order
    cases order
  · intro src amt bank other
    cases other

/-- A sale that the module account signs raises the counter but moves no token, and a transfer from it
moves tokens but not the counter. A buy that it signs lowers the counter, and where the coin is the
one that trades are paid in, its buy of another coin promises tokens that are still for sale. -/
theorem module_payments_uncounted :
    let bare : Chain Ledger := { opening with bank := Ledger.ofBooks [] (by decide) }
    let Counts := fun (s : Chain Ledger) c sold held => ∃ d, s.denom[c]? = some d ∧
      d.initialRealTokenReserves.toInt - d.realTokenReserves.toInt = sold ∧
      Ledger.view.heldByOthers "tokenfactory" s.bank c = held
    (EmptyStore opening ∧ Ledger.view.supply opening.bank "rose" = 0 ∧
      Counts ([creation "alice" "rose", buying "alice" "rose" 1000000,
        selling "tokenfactory" "rose" 1000].foldl (step Ledger.keeper) opening)
        "rose" 32997912 32998912 ∧
      Counts ([creation "alice" "rose", .bankSend "tokenfactory" "bob" [⟨"rose", 5⟩]].foldl
        (step Ledger.keeper) opening) "rose" 0 5 ∧
      Counts ([creation "alice" "rose", buying "alice" "rose" 1000000,
        buying "tokenfactory" "rose" 1000].foldl (step Ledger.keeper) opening)
        "rose" 33031910 32998912) ∧
    (EmptyStore bare ∧ Ledger.view.supply bare.bank "fandomChain" = 0 ∧
      Counts ([creation "alice" "fandomChain", creation "alice" "rose",
        buying "tokenfactory" "rose" 1000000, .bankSend "tokenfactory" "bob" [⟨"rose", 5000⟩],
        selling "bob" "rose" 5000].foldl (step Ledger.keeper) bare) "fandomChain" 0 149) := by
  intro bare Counts
  have counts : ∀ s c sold held, (s.denom[c]?.any fun d =>
      d.initialRealTokenReserves.toInt - d.realTokenReserves.toInt = sold) = true →
      Ledger.view.heldByOthers "tokenfactory" s.bank c = held → Counts s c sold held := by
    intro s c sold held counted others
    obtain ⟨d, found, equal⟩ := Option.any_eq_true _ _ |>.mp counted
    exact ⟨d, found, of_decide_eq_true equal, others⟩
  refine ⟨⟨rfl, by decide, ?_, ?_, ?_⟩, rfl, by decide, ?_⟩
  · exact counts _ _ _ _ (by decide +kernel) (by decide +kernel)
  · exact counts _ _ _ _ (by decide +kernel) (by decide +kernel)
  · exact counts _ _ _ _ (by decide +kernel) (by decide +kernel)
  · exact counts _ _ _ _ (by decide +kernel) (by decide +kernel)

end Fandomchain.Proof
