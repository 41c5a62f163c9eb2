import Fandomchain.Proof.Acceptance
import Fandomchain.Proof.Formula
import Fandomchain.Proof.Range

/-!
# Prices along a run

A trade fills the virtual reserve on the side that it pays and drains the other one. A run of trades
of one side does the same, so it moves the price and every later payout in one direction.
-/

namespace Fandomchain.Proof
open Fandomchain.Library Fandomchain.Tokenfactory

variable {β α : Type} {k : Keeper β α}

/-! ## Records -/

def priceRatio (d : Denom) : ℚ := d.virtualFandomReserves.toInt / d.virtualTokenReserves.toInt

/-- From `d` to `d'` the tokens get dearer: a buyer of any amount gets no more of them and a seller
no less for them. -/
structure Dearer (d d' : Denom) : Prop where
  price : priceRatio d < priceRatio d'
  buyer : ∀ y : Int64, 1 ≤ y.toInt → ∃ n n',
    calculateTokensOut d.virtualFandomReserves d.virtualTokenReserves (applyBuyFee y).1 = .ok n ∧
    calculateTokensOut d'.virtualFandomReserves d'.virtualTokenReserves (applyBuyFee y).1 = .ok n' ∧
    n' ≤ n
  seller : ∀ y : Int64, 1 ≤ y.toInt → ∃ n n',
    calculateFandomOut d.virtualTokenReserves d.virtualFandomReserves (applySellFee y).1 = .ok n ∧
    calculateFandomOut d'.virtualTokenReserves d'.virtualFandomReserves (applySellFee y).1 = .ok n' ∧
    n ≤ n'

structure Onward (side : Side) (d d' : Denom) : Prop where
  filled : (side.virtualIn d).toInt ≤ (side.virtualIn d').toInt
  drained : (side.virtualOut d').toInt ≤ (side.virtualOut d).toInt
  tradable : Tradable d' → Tradable d

theorem Onward.refl (side : Side) (d : Denom) : Onward side d d := ⟨le_rfl, le_rfl, id⟩

theorem Onward.trans {side : Side} {d e f : Denom} (one : Onward side d e)
    (two : Onward side e f) : Onward side d f :=
  ⟨one.filled.trans two.filled, two.drained.trans one.drained, one.tradable ∘ two.tradable⟩

theorem Tradable.exists_out {d : Denom} (h : Tradable d) (side : Side) {y : Int64}
    (positive : 1 ≤ y.toInt) :
    ∃ n, side.calculateOut (side.virtualIn d) (side.virtualOut d) (side.applyFee y).1 = .ok n := by
  obtain ⟨in_pos, out_pos⟩ := (tradable_iff side d).mp h
  obtain ⟨n, priced⟩ := exists_priced positive in_pos out_pos
  exact ⟨n, priced_iff.mp priced⟩

theorem dearer_of_le {d d' : Denom} (before : Tradable d) (after : Tradable d')
    (fandom : d.virtualFandomReserves ≤ d'.virtualFandomReserves)
    (tokens : d'.virtualTokenReserves ≤ d.virtualTokenReserves)
    (price : priceRatio d < priceRatio d') : Dearer d d' := by
  refine ⟨price, ?_, ?_⟩
  · intro y positive
    obtain ⟨n, priced⟩ := before.exists_out .buy positive
    obtain ⟨n', priced'⟩ := after.exists_out .buy positive
    exact ⟨n, n', priced, priced', calculateOut_mono fandom tokens Int64.le_rfl priced' priced⟩
  · intro y positive
    obtain ⟨n, priced⟩ := before.exists_out .sell positive
    obtain ⟨n', priced'⟩ := after.exists_out .sell positive
    exact ⟨n, n', priced, priced', calculateOut_mono tokens fandom Int64.le_rfl priced priced'⟩

theorem priceRatio_lt_of_fandom {d d' : Denom} (after : Tradable d')
    (fandom : d.virtualFandomReserves.toInt < d'.virtualFandomReserves.toInt)
    (tokens : d'.virtualTokenReserves.toInt ≤ d.virtualTokenReserves.toInt) :
    priceRatio d < priceRatio d' := by
  apply div_lt_div₀
  · exact_mod_cast fandom
  · exact_mod_cast tokens
  · exact_mod_cast after.fandom.le
  · exact_mod_cast after.tokens

theorem priceRatio_lt_of_tokens {d d' : Denom} (after : Tradable d')
    (fandom : d.virtualFandomReserves.toInt ≤ d'.virtualFandomReserves.toInt)
    (tokens : d'.virtualTokenReserves.toInt < d.virtualTokenReserves.toInt) :
    priceRatio d < priceRatio d' := by
  apply div_lt_div₀'
  · exact_mod_cast fandom
  · exact_mod_cast tokens
  · exact_mod_cast after.fandom
  · exact_mod_cast after.tokens

/-! ## Runs -/

theorem Quoted.fills {o : Order} {s : Chain β} {q : Quote α} (h : Quoted k o s q)
    (exact : ExactUpdate o q) : (o.side.virtualIn q.denom).toInt <
      (o.side.virtualIn (o.side.update q.denom o.amount q.afterFee q.out)).toInt := by
  rw [Side.virtualIn_update, exact.virtualIn]
  exact lt_add_of_pos_right _ h.afterFee_pos

theorem Quoted.onward {o : Order} {s : Chain β} {q : Quote α} (h : Quoted k o s q)
    (exact : ExactUpdate o q) :
    Onward o.side q.denom (o.side.update q.denom o.amount q.afterFee q.out) := by
  refine ⟨(h.fills exact).le, ?_, fun _ => h.tradable⟩
  rw [Side.virtualOut_update, exact.virtualOut]
  exact sub_le_self _ h.out_pos.le

theorem received_le {s t : Chain β} {c : String} {d e : Denom} (found : s.denom[c]? = some d)
    (other : t.denom[c]? = some e)
    (fandom : e.virtualFandomReserves.toInt ≤ d.virtualFandomReserves.toInt)
    (tokens : d.virtualTokenReserves.toInt ≤ e.virtualTokenReserves.toInt) {o : Order}
    (side : o.side = .buy) (name : o.denom = c) (accepted : accepts (tradeWithBondingCurve k o) t) :
    received k o s ≤ received k o t := by
  obtain ⟨q', t', traded'⟩ := trade_accepts_iff.mp accepted
  rw [traded'.received_eq]
  by_cases goes : accepts (tradeWithBondingCurve k o) s
  · obtain ⟨q, s', traded⟩ := trade_accepts_iff.mp goes
    subst name
    obtain rfl := traded.quoted.record_eq found
    obtain rfl := traded'.quoted.record_eq other
    have priced := traded.quoted.out
    have priced' := traded'.quoted.out
    have net := traded.quoted.afterFee.trans traded'.quoted.afterFee.symm
    rw [side] at priced priced'
    rw [traded.received_eq, priced, priced', net]
    exact output_mono traded'.quoted.tradable.fandom.le traded.quoted.tradable.tokens.le
      traded'.quoted.afterFee_pos fandom tokens le_rfl
  · rw [received_of_rejected goes]
    exact traded'.quoted.out_pos.le

variable [DecidableEq α]

def OneWay (k : Keeper β α) (side : Side) (c : String) (s : Chain β) (a : Action α) : Prop :=
  ∀ o q, a.order? = some o → o.denom = c → Traded k o q s (step k s a) →
    o.side = side ∧ ExactUpdate o q

theorem onward_step {s : Chain β} (keyed : Keyed s) {side : Side} {c : String} {d : Denom}
    (found : s.denom[c]? = some d) {a : Action α} (oneWay : OneWay k side c s a) :
    ∃ d', (step k s a).denom[c]? = some d' ∧ Onward side d d' := by
  rcases record_step (k := k) keyed found a with same | ⟨o, q, order, rfl, name, traded, stored⟩
  · exact ⟨d, same, Onward.refl side d⟩
  · obtain ⟨rfl, exact⟩ := oneWay o q order ((traded.quoted.name keyed).symm.trans name) traded
    exact ⟨_, stored, traded.quoted.onward exact⟩

theorem onward_run {side : Side} {c : String} {d : Denom} {as : List (Action α)} {s : Chain β}
    (keyed : Keyed s) (found : s.denom[c]? = some d)
    (oneWay : Along (step k) (OneWay k side c) s as) :
    ∃ d', (as.foldl (step k) s).denom[c]? = some d' ∧ Onward side d d' := by
  induction as generalizing s d with
  | nil => exact ⟨d, found, Onward.refl side d⟩
  | cons a rest ih =>
      obtain ⟨e, stored, first⟩ := onward_step keyed found oneWay.1
      obtain ⟨d', final, later⟩ := ih (keyed_step keyed a) stored oneWay.2
      exact ⟨d', final, first.trans later⟩

/-- A run with a trade on `c` splits at that trade, and there the reserve that is paid into grows. -/
theorem filled_run {side : Side} {c : String} {d d' : Denom} {as : List (Action α)} {s : Chain β}
    (start : Reached k s) (found : s.denom[c]? = some d)
    (oneWay : Along (step k) (OneWay k side c) s as)
    (traded : Sometime (step k) (TradesOn k c) s as)
    (final : (as.foldl (step k) s).denom[c]? = some d') :
    (side.virtualIn d).toInt < (side.virtualIn d').toInt := by
  obtain ⟨before, a, after, rfl, o, order, rfl, accepted⟩ := traded.split
  obtain ⟨earlier, now, later⟩ := (along_append s before (a :: after)).mp oneWay
  rw [List.foldl_append, List.foldl_cons] at final
  obtain ⟨e, reached, first⟩ := onward_run start.keyed found earlier
  have keyed := (start.run before).keyed
  generalize before.foldl (step k) s = t at *
  obtain ⟨q, rfl, traded, stored⟩ := record_traded keyed order reached accepted
  obtain ⟨rfl, exact⟩ := now o q order rfl traded
  obtain ⟨f, ends, last⟩ := onward_run (keyed_step keyed a) stored later
  obtain rfl : f = d' := Option.some.inj (ends.symm.trans final)
  exact (first.filled.trans_lt (traded.quoted.fills exact)).trans_le last.filled

/-- Over any run whose accepted trades on `c` are of one side, at least one of them, the tokens get
dearer when they are buys and cheaper when they are sells, and a buy that comes after such a run
yields accordingly. -/
theorem prices_move {s : Chain β} (reached : Reached k s) {c : String} {d d' : Denom}
    (found : s.denom[c]? = some d) {as : List (Action α)}
    (traded : Sometime (step k) (TradesOn k c) s as)
    (final : (as.foldl (step k) s).denom[c]? = some d') (positive : Tradable d') :
    (Along (step k) (OneWay k .buy c) s as → Dearer d d' ∧
      ∀ o : Order, o.side = .buy → o.denom = c → accepts (tradeWithBondingCurve k o) s →
        received k o (as.foldl (step k) s) ≤ received k o s) ∧
    (Along (step k) (OneWay k .sell c) s as → Dearer d' d ∧
      ∀ o : Order, o.side = .buy → o.denom = c →
        accepts (tradeWithBondingCurve k o) (as.foldl (step k) s) →
        received k o s ≤ received k o (as.foldl (step k) s)) := by
  constructor
  · intro buys
    obtain ⟨e, ends, onward⟩ := onward_run reached.keyed found buys
    obtain rfl : e = d' := Option.some.inj (ends.symm.trans final)
    have filled := filled_run reached found buys traded final
    have before := onward.tradable positive
    refine ⟨?_, ?_⟩
    · apply dearer_of_le before positive
      · exact Int64.le_iff_toInt_le.mpr onward.filled
      · exact Int64.le_iff_toInt_le.mpr onward.drained
      · exact priceRatio_lt_of_fandom positive filled onward.drained
    · intro o side name accepted
      exact received_le final found onward.filled onward.drained side name accepted
  · intro sells
    obtain ⟨e, ends, onward⟩ := onward_run reached.keyed found sells
    obtain rfl : e = d' := Option.some.inj (ends.symm.trans final)
    have filled := filled_run reached found sells traded final
    have before := onward.tradable positive
    refine ⟨?_, ?_⟩
    · apply dearer_of_le positive before
      · exact Int64.le_iff_toInt_le.mpr onward.drained
      · exact Int64.le_iff_toInt_le.mpr onward.filled
      · exact priceRatio_lt_of_tokens before onward.drained filled
    · intro o side name accepted
      exact received_le found final onward.drained onward.filled side name accepted

theorem buys_raise_price :
    let as := [buying "alice" "rose" 1000000, .bankSend "bob" "alice" [⟨"fandomChain", 7⟩],
      buying "bob" "rose" 5000]
    ∃ d', (as.foldl (step Ledger.keeper) newMarket).denom["rose"]? = some d' ∧
      Dearer newRose d' := by
  intro as
  have positive : ((as.foldl (step Ledger.keeper) newMarket).denom["rose"]?.any fun d' =>
      0 < d'.virtualTokenReserves.toInt ∧ 0 < d'.virtualFandomReserves.toInt) = true := by
    decide +kernel
  obtain ⟨d', final, both⟩ := Option.any_eq_true _ _ |>.mp positive
  obtain ⟨tokens, fandom⟩ := of_decide_eq_true both
  have exact : Along (step Ledger.keeper) (OnlyExact Ledger.keeper) opening
      (creation "bob" "rose" :: as) :=
    onlyExact_run Ledger.lawful opening_empty
      (ledger_balanced (by decide) (by decide +kernel) (by decide +kernel))
  have buys : Along (step Ledger.keeper) (OneWay Ledger.keeper .buy "rose") newMarket as := by
    refine ⟨?_, ?_, ?_, trivial⟩
    · intro o q order _ traded
      refine ⟨?_, exact.2.1 o q order traded⟩
      cases order
      rfl
    · intro o q order
      cases order
    · intro o q order _ traded
      refine ⟨?_, exact.2.2.2.1 o q order traded⟩
      cases order
      rfl
  have trades : Sometime (step Ledger.keeper) (TradesOn Ledger.keeper "rose") newMarket as :=
    .inl ⟨_, rfl, rfl, by decide +kernel⟩
  have found : newMarket.denom["rose"]? = some newRose := by decide +kernel
  have moved := prices_move newMarket_reached found trades final ⟨tokens, fandom⟩
  exact ⟨d', final, (moved.1 buys).1⟩

end Fandomchain.Proof
