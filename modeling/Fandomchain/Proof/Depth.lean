import Fandomchain.Proof.Formula
import Fandomchain.Proof.Refinement

/-!
# Products and depth

What the exchange says about one record: over a run the product of its virtual reserves falls by the
remainders of its trades, and in one state the sizes that can be traded end at one bound.
-/

namespace Fandomchain.Proof
open Fandomchain.Library Fandomchain.Tokenfactory

variable {β α : Type} {k : Keeper β α} {view : BankView β α} {m : α}

/-! ## Products -/

/-- The remainder that the division of `calculateOut` leaves in an accepted order on `c`. -/
def roundedOff (k : Keeper β α) (c : String) (s : Chain β) (a : Action α) : ℤ :=
  match a.order? with
  | some o =>
      if o.denom = c ∧ accepts (tradeWithBondingCurve k o) s then
        recorded (fun d => remainder (o.side.virtualIn d).toInt (o.side.virtualOut d).toInt
          (o.side.applyFee o.amount).1.toInt) c s
      else 0
  | none => 0

theorem product_exchangeOf {s : Chain β} {c : String} {d : Denom} (found : s.denom[c]? = some d) :
    (exchangeOf view s).product c = product d := by
  simp only [Exchange.product, exchangeOf, found, Option.map_some, poolOf, product, mul_comm]

theorem listed_iff {s : Chain β} {c : String} :
    Exchange.Listed c (exchangeOf view s) ↔ ∃ d, s.denom[c]? = some d := by
  constructor
  · intro ⟨p, listed⟩
    obtain ⟨d, found, -⟩ := Option.map_eq_some_iff.mp listed
    exact ⟨d, found⟩
  · intro ⟨d, found⟩
    exact ⟨poolOf d, Option.map_eq_some_iff.mpr ⟨d, found, rfl⟩⟩

theorem Quoted.rest_eq {o : Order} {s : Chain β} {q : Quote α} (h : Quoted k o s q) :
    (bidOf q.trader o).rest (rules m) (poolOf q.denom) =
      remainder (o.side.virtualIn q.denom).toInt (o.side.virtualOut q.denom).toInt
        (o.side.applyFee o.amount).1.toInt := by
  show remainder ((poolOf q.denom).quoted (leg o.side)) ((poolOf q.denom).quoted (leg o.side).other)
    (o.amount.toInt - o.amount.toInt / 100) = _
  rw [quoted_leg, quoted_other, ← h.afterFee_toInt, h.afterFee]

theorem roundedOff_of_order (c : String) (s : Chain β) {a : Action α} {o : Order}
    (order : a.order? = some o) : roundedOff k c s a =
      if o.denom = c ∧ accepts (tradeWithBondingCurve k o) s then
        recorded (fun d => remainder (o.side.virtualIn d).toInt (o.side.virtualOut d).toInt
          (o.side.applyFee o.amount).1.toInt) c s
      else 0 := by
  simp only [roundedOff, order]

/-! ## Bids -/

theorem bid_allowed_iff {s : Chain β} {c : String} {d : Denom} (found : s.denom[c]? = some d)
    (name : d.denom = c) (side : Side) (trader : α) {amount least : ℤ} (lower : least ≤ 1) :
    (exchangeOf view s).Allowed (rules m) (.bid ⟨trader, c, leg side, amount, least⟩) ↔
      0 < amount ∧ (0 < (side.virtualIn d).toInt ∧ 0 < (side.virtualOut d).toInt) ∧
        ((side.virtualOut d).toInt - (side.realOut d).toInt) * (amount - amount / 100) ≤
          (side.realOut d).toInt * (side.virtualIn d).toInt ∧
        amount ≤ view.balance s.bank trader (side.coinIn d) := by
  have listed : (exchangeOf view s).pool c = some (poolOf d) := Option.map_eq_some_iff.mpr ⟨d, found, rfl⟩
  have positive : (∀ l, 0 < (poolOf d).quoted l) ↔
      0 < (side.virtualIn d).toInt ∧ 0 < (side.virtualOut d).toInt := by
    rw [← quoted_leg, ← quoted_other]
    constructor
    · intro h
      exact ⟨h _, h _⟩
    · intro ⟨paid, out⟩ l
      rcases leg_cases side l with rfl | rfl
      · exact paid
      · exact out
  have coin : Bid.coin (rules m) ⟨trader, c, leg side, amount, least⟩ (leg side) = side.coinIn d := by
    cases side with
    | buy => rfl
    | sell => exact name.symm
  rw [Exchange.allowed_iff_of_listed listed lower, positive]
  show 0 < amount ∧ _ ∧ ((poolOf d).quoted (leg side).other - (poolOf d).owed (leg side).other) *
      (amount - amount / 100) ≤ (poolOf d).owed (leg side).other * (poolOf d).quoted (leg side) ∧
    amount ≤ view.balance s.bank trader (Bid.coin (rules m) ⟨trader, c, leg side, amount, least⟩
      (leg side)) ↔ _
  rw [coin, quoted_leg, quoted_other, owed_other]

variable [DecidableEq α]

/-! ## Runs -/

theorem order_weighed (law : Lawful k view m) (c : String) {s : Chain β} {a : Action α} {o : Order}
    (order : a.order? = some o) (h : Tracked view m s) (allowed : Followed k view m s a)
    (payer : payer? k a = (k.addressCodec.stringToBytes o.signer).toOption) :
    roundedOff k c s a =
      (Order.instruction? k o).elim 0 (Exchange.lost (rules m) c (exchangeOf view s)) := by
  rw [roundedOff_of_order c s order]
  unfold Order.instruction?
  cases decoded : k.addressCodec.stringToBytes o.signer with
  | error err =>
      have rejected : ¬accepts (tradeWithBondingCurve k o) s :=
        mt trade_accepts_iff.mp (not_traded_of_undecoded decoded)
      exact if_neg fun h => rejected h.2
  | ok trader =>
      have unlocked : Unlocked k view s trader := by
        apply allowed.unlocked
        rw [payer, decoded]
        rfl
      have same := h.trades_iff law allowed.bounded decoded unlocked
      show _ = Exchange.lost (rules m) c (exchangeOf view s) (.bid (bidOf trader o))
      by_cases named : o.denom = c
      · subst named
        by_cases accepted : accepts (tradeWithBondingCurve k o) s
        · obtain ⟨q, s', traded⟩ := trade_accepts_iff.mp accepted
          obtain rfl := traded.quoted.trader_eq decoded
          have lost := Exchange.lost_of_fills (traded.quoted.fills_bid law h.keyed)
          rw [if_pos ⟨rfl, accepted⟩, recorded_eq _ traded.quoted.found]
          exact (lost.trans traded.quoted.rest_eq).symm
        · have refused := mt same.mpr (mt trade_accepts_iff.mpr accepted)
          rw [if_neg fun h => accepted h.2, Exchange.lost_of_not_allowed refused]
      · rw [if_neg fun h => named h.1]
        exact (Exchange.lost_of_other named).symm

theorem step_weighed (law : Lawful k view m) (c : String) {s : Chain β} {a : Action α}
    (h : Tracked view m s) (allowed : Followed k view m s a) : roundedOff k c s a =
      (instruction? k a).elim 0 (Exchange.lost (rules m) c (exchangeOf view s)) := by
  cases a with
  | buyWithBondingCurve msg => exact order_weighed law c rfl h allowed rfl
  | sellWithBondingCurve msg => exact order_weighed law c rfl h allowed rfl
  | createDenom msg =>
      cases decoded : k.addressCodec.stringToBytes msg.owner with
      | error err =>
          simp only [instruction?, decoded]
          rfl
      | ok owner =>
          simp only [instruction?, decoded]
          split <;> rfl
  | updateParams req => rfl
  | bankSend src dst amt =>
      by_cases valid : amt.IsValid
      · simp only [instruction?, valid, if_true]
        rfl
      · simp only [instruction?, valid, if_false]
        rfl

/-- Over a run the product of the virtual reserves of a record falls by the remainders of the trades on
it, whatever else happens. -/
theorem products_fall (law : Lawful k view m) (mints : Mints k) {s : Chain β}
    (reached : ReachedFollowed k view m s) {as : List (Action α)}
    (along : Along (step k) (Followed k view m) s as) {c : String} {d : Denom}
    (found : s.denom[c]? = some d) :
    ∃ d', (as.foldl (step k) s).denom[c]? = some d' ∧
      product d' = product d - sumAlong (step k) (roundedOff k c) s as ∧ product d' ≤ product d := by
  have tracked := reached.tracked law
  have seen : (as.filterMap (instruction? k)).foldl (Exchange.attempt (rules m)) (exchangeOf view s) =
      exchangeOf view (as.foldl (step k) s) :=
    foldl_filterMap_eq (I := Tracked view m) (P := Followed k view m)
      (fun _ _ => tracked_step law) (fun _ _ => step_seen law mints) tracked along
  have weighed : sumAlong (Exchange.attempt (rules m)) (Exchange.lost (rules m) c)
      (exchangeOf view s) (as.filterMap (instruction? k)) = sumAlong (step k) (roundedOff k c) s as :=
    sumAlong_filterMap_eq (I := Tracked view m) (P := Followed k view m) (fun _ _ => tracked_step law)
      (fun _ _ => step_seen law mints) (fun _ _ => step_weighed law c) tracked along
  have listed : Exchange.Listed c (exchangeOf view s) := listed_iff.mpr ⟨d, found⟩
  have lost := Exchange.product_run (r := rules m) listed (as.filterMap (instruction? k))
  have kept := Exchange.listed_run (r := rules m) listed (as.filterMap (instruction? k))
  have nonneg : 0 ≤ sumAlong (Exchange.attempt (rules m)) (Exchange.lost (rules m) c)
      (exchangeOf view s) (as.filterMap (instruction? k)) :=
    sumAlong_nonneg (Exchange.lost_nonneg (rules m) c) _ _
  rw [seen] at kept lost
  obtain ⟨d', found'⟩ := listed_iff.mp kept
  rw [product_exchangeOf found, product_exchangeOf found', weighed] at lost
  rw [weighed] at nonneg
  exact ⟨d', found', lost, by omega⟩

theorem newMarket_followed : ReachedFollowed Ledger.keeper Ledger.view "tokenfactory" newMarket :=
  ⟨opening, [creation "bob" "rose"], opening_empty,
    ledger_followed (by decide) (by decide +kernel) (by decide +kernel), rfl⟩

def roseTrades : List (Action String) :=
  [buying "alice" "rose" 1000000000, creation "alice" "lily", selling "alice" "rose" 1000000]

theorem rose_product_falls :
    ∃ d, (roseTrades.foldl (step Ledger.keeper) newMarket).denom["rose"]? = some d ∧
      product d = 30000000000000000000000 - 498836402255 := by
  have record : newMarket.denom["rose"]? = some (newDenom ⟨"bob", "rose", "", "", ""⟩) := by
    decide +kernel
  have followed : Along (step Ledger.keeper) (Followed Ledger.keeper Ledger.view "tokenfactory")
      newMarket roseTrades := ledger_followed (by decide) (by decide +kernel) (by decide +kernel)
  obtain ⟨d, found, fallen, -⟩ :=
    products_fall Ledger.lawful ledger_mints newMarket_followed followed record
  have lost : sumAlong (step Ledger.keeper) (roundedOff Ledger.keeper "rose") newMarket roseTrades =
      498836402255 := by decide +kernel
  refine ⟨d, found, ?_⟩
  rw [fallen, lost]
  decide

/-! ## Depth -/

/-- The orders without a limit that a trader can have filled are those up to one size, which is what
the real reserve covers and the trader holds. -/
theorem order_depth (law : Lawful k view m) {s : Chain β} (reached : ReachedFollowed k view m s)
    (bounded : view.supply s.bank "fandomChain" ≤ 2 ^ 63 - 1 - 30000000000) {trader : α}
    (unlocked : Unlocked k view s trader) {c : String} {d : Denom} (found : s.denom[c]? = some d)
    (side : Side) :
    ∃ depth : ℤ,
      (∀ o : Order, k.addressCodec.stringToBytes o.signer = .ok trader → o.side = side → o.denom = c →
        o.minOut.toInt ≤ 1 → (accepts (tradeWithBondingCurve k o) s ↔
          0 < o.amount.toInt ∧ o.amount.toInt ≤ depth)) ∧
      ∀ amount : ℤ, 0 < amount → (amount ≤ depth ↔
        (0 < (side.virtualIn d).toInt ∧ 0 < (side.virtualOut d).toInt) ∧
          ((side.virtualOut d).toInt - (side.realOut d).toInt) * (amount - amount / 100) ≤
            (side.realOut d).toInt * (side.virtualIn d).toInt ∧
          amount ≤ view.balance s.bank trader (side.coinIn d)) := by
  have tracked := reached.tracked law
  have name := tracked.keyed c d found
  obtain ⟨depth, within⟩ := Exchange.exists_depth (rules m) (exchangeOf view s) trader c (leg side)
  refine ⟨depth, ?_, ?_⟩
  · rintro o decoded rfl rfl lower
    rw [trade_accepts_iff, tracked.trades_iff law bounded decoded unlocked]
    exact within o.amount.toInt o.minOut.toInt lower
  · intro amount positive
    have filled := within amount 1 le_rfl
    rw [bid_allowed_iff found name side trader le_rfl] at filled
    simp only [positive, true_and] at filled
    exact filled.symm

/-- One token short of what the curve has to sell. -/
def lastToken : Chain Ledger :=
  [creation "bob" "rose", buying "bob" "rose" 121212121211].foldl (step Ledger.keeper) opening

theorem lastToken_unsold :
    lastToken.denom["rose"]?.map Denom.realTokenReserves = some 1 ∧
      ¬∃ amount, accepts (tradeWithBondingCurve Ledger.keeper ⟨.buy, "alice", "rose", amount, 0⟩)
        lastToken := by
  have left : (lastToken.denom["rose"]?.any fun d => d.realTokenReserves = 1 ∧
      d.virtualTokenReserves = 200000000001 ∧ d.virtualFandomReserves = 149999999999) = true := by
    decide +kernel
  obtain ⟨d, found, fields⟩ := (Option.any_eq_true _ _).mp left
  obtain ⟨real, tokens, fandom⟩ := of_decide_eq_true fields
  have reached : ReachedFollowed Ledger.keeper Ledger.view "tokenfactory" lastToken :=
    ⟨opening, _, opening_empty,
      ledger_followed (by decide) (by decide +kernel) (by decide +kernel), rfl⟩
  obtain ⟨depth, within, bound⟩ := order_depth Ledger.lawful reached (by decide +kernel)
    (Ledger.amountOf_spendableCoins lastToken.bank "alice") found .buy
  refine ⟨by rw [found, Option.map_some, real], fun ⟨amount, accepted⟩ => ?_⟩
  have no_limit : (0 : Int64).toInt ≤ 1 := by decide
  have size := (within ⟨.buy, "alice", "rose", amount, 0⟩ rfl rfl rfl no_limit).mp accepted
  have covered := ((bound 1 one_pos).mp (by omega)).2.1
  simp only [Side.virtualOut, Side.virtualIn, Side.realOut, real, tokens, fandom] at covered
  exact absurd covered (by decide)

end Fandomchain.Proof
