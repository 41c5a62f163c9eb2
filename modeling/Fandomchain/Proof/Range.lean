import Fandomchain.Proof.Solvency
import Fandomchain.Proof.Supply

/-!
# The range of the recorded reserves

The handlers write the reserves back with plain `int64` arithmetic. A virtual reserve runs ahead of
the real one by at most what it started ahead, and the real ones are backed by coins of the module
account, so a bound on the supplies bounds all four fields.
-/

namespace Fandomchain.Proof
open Fandomchain.Library Fandomchain.Tokenfactory

variable {β α : Type} {k : Keeper β α} {view : BankView β α} {m : α}

/-! ## Virtual and real reserves -/

structure Linked (d : Denom) : Prop where
  virtualTokens : 0 ≤ d.virtualTokenReserves.toInt
  virtualFandom : 0 ≤ d.virtualFandomReserves.toInt
  realTokens : 0 ≤ d.realTokenReserves.toInt
  realFandom : 0 ≤ d.realFandomReserves.toInt
  tokens_le : d.virtualTokenReserves.toInt ≤ d.realTokenReserves.toInt + 200000000000
  fandom_le : d.virtualFandomReserves.toInt ≤ d.realFandomReserves.toInt + 30000000000

def aheadIn : Side → ℤ
  | .buy => 30000000000
  | .sell => 200000000000

def aheadOut : Side → ℤ
  | .buy => 200000000000
  | .sell => 30000000000

theorem linked_iff (side : Side) (d : Denom) : Linked d ↔
    (0 ≤ (side.virtualIn d).toInt ∧ 0 ≤ (side.virtualOut d).toInt ∧
      0 ≤ (side.realIn d).toInt ∧ 0 ≤ (side.realOut d).toInt) ∧
    (side.virtualIn d).toInt ≤ (side.realIn d).toInt + aheadIn side ∧
    (side.virtualOut d).toInt ≤ (side.realOut d).toInt + aheadOut side := by
  cases side with
  | buy =>
      constructor
      · intro ⟨vt, vf, rt, rf, tokens, fandom⟩
        exact ⟨⟨vf, vt, rf, rt⟩, fandom, tokens⟩
      · intro ⟨⟨vf, vt, rf, rt⟩, fandom, tokens⟩
        exact ⟨vt, vf, rt, rf, tokens, fandom⟩
  | sell =>
      constructor
      · intro ⟨vt, vf, rt, rf, tokens, fandom⟩
        exact ⟨⟨vt, vf, rt, rf⟩, tokens, fandom⟩
      · intro ⟨⟨vt, vf, rt, rf⟩, tokens, fandom⟩
        exact ⟨vt, vf, rt, rf, tokens, fandom⟩

theorem linked_newDenom (msg : MsgCreateDenom) : Linked (newDenom msg) := by
  constructor <;> simp

/-! ## Exact updates -/

/-- The four updates and the narrowing of the payout are those of the integers. -/
structure ExactUpdate (o : Order) (q : Quote α) : Prop where
  out : q.out.toInt = output (o.side.virtualIn q.denom).toInt (o.side.virtualOut q.denom).toInt
    q.afterFee.toInt
  virtualIn : (o.side.virtualIn q.denom + q.afterFee).toInt =
    (o.side.virtualIn q.denom).toInt + q.afterFee.toInt
  virtualOut : (o.side.virtualOut q.denom - q.out).toInt =
    (o.side.virtualOut q.denom).toInt - q.out.toInt
  realIn : (o.side.realIn q.denom + o.amount).toInt =
    (o.side.realIn q.denom).toInt + o.amount.toInt
  realOut : (o.side.realOut q.denom - q.out).toInt =
    (o.side.realOut q.denom).toInt - q.out.toInt

structure NoWrap (o : Order) (d : Denom) : Prop where
  virtualIn : (o.side.virtualIn d).toInt + (o.amount.toInt - o.amount.toInt / 100) < 2 ^ 63
  realIn : (o.side.realIn d).toInt + o.amount.toInt < 2 ^ 63

theorem Quoted.exactUpdate_of_noWrap {o : Order} {s : Chain β} {q : Quote α} (h : Quoted k o s q)
    (fits : NoWrap o q.denom) : ExactUpdate o q := by
  have net := h.afterFee_toInt
  have net_pos := h.afterFee_pos
  have in_pos := h.virtualIn_pos
  have amount_pos := h.amount_pos
  have real := (o.side.realIn q.denom).le_toInt
  have virtual_fits := fits.virtualIn
  have real_fits := fits.realIn
  refine ⟨h.out, ?_, ?_, ?_, ?_⟩
  · exact toInt_add_exact (by omega) (by omega)
  · exact toInt_sub_of_le h.out_pos.le h.out_le
  · exact toInt_add_exact (by omega) real_fits
  · exact toInt_sub_of_le h.out_pos.le h.reserve

theorem Quoted.exactUpdate {o : Order} {s : Chain β} {q : Quote α} (h : Quoted k o s q)
    (linked : Linked q.denom)
    (room : (o.side.realIn q.denom).toInt + o.amount.toInt + aheadIn o.side < 2 ^ 63) :
    ExactUpdate o q := by
  obtain ⟨-, ahead, -⟩ := (linked_iff o.side q.denom).mp linked
  have amount_pos := h.amount_pos
  have ahead_nonneg : 0 ≤ aheadIn o.side := by cases o.side <;> decide
  apply h.exactUpdate_of_noWrap
  constructor <;> omega

/-- The trade is counted in the four reserves of the stored record as in the integers. -/
structure CountsExactly (o : Order) (n : ℤ) (d d' : Denom) : Prop where
  virtualIn : (o.side.virtualIn d').toInt =
    (o.side.virtualIn d).toInt + (o.amount.toInt - o.amount.toInt / 100)
  virtualOut : (o.side.virtualOut d').toInt = (o.side.virtualOut d).toInt - n
  realIn : (o.side.realIn d').toInt = (o.side.realIn d).toInt + o.amount.toInt
  realOut : (o.side.realOut d').toInt = (o.side.realOut d).toInt - n

theorem Quoted.countsExactly {o : Order} {s : Chain β} {q : Quote α} (h : Quoted k o s q)
    (exact : ExactUpdate o q) : CountsExactly o q.out.toInt q.denom
      (o.side.update q.denom o.amount q.afterFee q.out) := by
  refine ⟨?_, ?_, ?_, ?_⟩
  · rw [Side.virtualIn_update, exact.virtualIn, h.afterFee_toInt]
  · rw [Side.virtualOut_update, exact.virtualOut]
  · rw [Side.realIn_update, exact.realIn]
  · rw [Side.realOut_update, exact.realOut]

theorem Quoted.linked {o : Order} {s : Chain β} {q : Quote α} (h : Quoted k o s q)
    (linked : Linked q.denom) (exact : ExactUpdate o q) :
    Linked (o.side.update q.denom o.amount q.afterFee q.out) := by
  obtain ⟨⟨virtualIn, _, realIn, _⟩, ahead, behind⟩ := (linked_iff o.side q.denom).mp linked
  have amount_pos := h.amount_pos
  have net_pos := h.afterFee_pos
  have net_le := h.afterFee_le
  have out_le := h.out_le
  have reserve := h.reserve
  rw [linked_iff o.side, Side.virtualIn_update, Side.virtualOut_update, Side.realIn_update,
    Side.realOut_update, exact.virtualIn, exact.virtualOut, exact.realIn, exact.realOut]
  omega

/-! ## Runs -/

def WholeIssue (view : BankView β α) (s : Chain β) : Prop :=
  AllRecords (fun d => view.supply s.bank d.denom = 800000000000) s

structure Ranged (view : BankView β α) (m : α) (s : Chain β) : Prop where
  solvent : Solvent view m s
  issue : WholeIssue view s
  linked : AllRecords Linked s

variable [DecidableEq α]

theorem wholeIssue_step (law : Lawful k view m) {s : Chain β} {a : Action α} (keyed : Keyed s)
    (h : WholeIssue view s) (fresh : CreatesAbsentCoin k view s s a) :
    WholeIssue view (step k s a) := by
  have stepped := step_stepped (k := k) s a
  generalize step k s a = s' at stepped ⊢
  cases stepped with
  | rejected => exact h
  | @created msg _ created =>
      have absent := fresh msg rfl (createDenom_accepts_iff.mpr ⟨s', created⟩)
      refine allRecords_insert (fun key d found => ?_) created.denom_eq ?_
      · have name := keyed key d found
        have other : d.denom ≠ msg.denom := name ▸ (created.name_ne found).symm
        rw [created.supply_eq law, if_neg other, add_zero]
        exact h key d found
      · show view.supply s'.bank msg.denom = _
        rw [created.supply_eq law, absent, if_pos rfl, zero_add]
  | traded order traded =>
      have old := h _ _ traded.quoted.found
      refine allRecords_insert (fun key d found => ?_) traded.denom_eq ?_
      · rw [traded.supply_eq law]
        exact h key d found
      · rw [Side.denom_update, traded.supply_eq law]
        exact old
  | updated => exact h
  | transferred sent =>
      intro key d found
      have same := congrFun (law.send_supply _ _ _ _ _ sent) d.denom
      exact same.trans (h key d found)

theorem Ranged.exactUpdate (law : Lawful k view m) {s s' : Chain β} {o : Order} {q : Quote α}
    (h : Ranged view m s) (traded : Traded k o q s s') (other : q.trader ≠ m)
    (bounded : view.supply s.bank "fandomChain" ≤ 2 ^ 63 - 1 - 30000000000) : ExactUpdate o q := by
  have backed := traded.realIn_add_le law (h.solvent.each _) other
  have issue := h.issue _ _ traded.quoted.found
  apply traded.quoted.exactUpdate (h.linked _ _ traded.quoted.found)
  cases side : o.side with
  | buy =>
      rw [side] at backed
      have := backed.trans bounded
      show _ + _ + 30000000000 < 2 ^ 63
      omega
  | sell =>
      rw [side] at backed
      have := backed.trans issue.le
      show _ + _ + 200000000000 < 2 ^ 63
      omega

theorem ranged_step (law : Lawful k view m) {s : Chain β} {a : Action α} (h : Ranged view m s)
    (external : External k m a) (fresh : CreatesAbsentCoin k view s s a)
    (bounded : view.supply s.bank "fandomChain" ≤ 2 ^ 63 - 1 - 30000000000) :
    Ranged view m (step k s a) := by
  refine ⟨solvent_step law h.solvent external, wholeIssue_step law h.solvent.keyed h.issue fresh, ?_⟩
  apply allRecords_step h.linked
  · intro msg s' created
    exact linked_newDenom msg
  · intro o q order traded linked
    have other := traded.trader_ne external order
    exact traded.quoted.linked linked (h.exactUpdate law traded other bounded)

theorem ranged_of_empty (law : Lawful k view m) {s : Chain β} (h : EmptyStore s) :
    Ranged view m s :=
  ⟨solvent_of_empty law h, allRecords_of_empty h, allRecords_of_empty h⟩

def OnlyExact (k : Keeper β α) (s : Chain β) (a : Action α) : Prop :=
  ∀ o q, a.order? = some o → Traded k o q s (step k s a) → ExactUpdate o q

/-- What a step of a run may be for the records to be exact and the books to balance. -/
structure Balanced (k : Keeper β α) (view : BankView β α) (m : α) (s : Chain β) (a : Action α) :
    Prop where
  external : External k m a
  bounded : view.supply s.bank "fandomChain" ≤ 2 ^ 63 - 1 - 30000000000
  fresh : CreatesAbsentCoin k view s s a

theorem ranged_balanced_step (law : Lawful k view m) {s : Chain β} {a : Action α}
    (h : Ranged view m s) (allowed : Balanced k view m s a) : Ranged view m (step k s a) :=
  ranged_step law h allowed.external allowed.fresh allowed.bounded

theorem Ranged.onlyExact (law : Lawful k view m) {s : Chain β} {a : Action α}
    (h : Ranged view m s) (allowed : Balanced k view m s a) : OnlyExact k s a := by
  intro o q order traded
  exact h.exactUpdate law traded (traded.trader_ne allowed.external order) allowed.bounded

theorem onlyExact_run (law : Lawful k view m) {start : Chain β} (empty : EmptyStore start)
    {as : List (Action α)} (along : Along (step k) (Balanced k view m) start as) :
    Along (step k) (OnlyExact k) start as :=
  along_of_preserves (fun _ _ => ranged_balanced_step law) (fun _ _ h allowed => h.onlyExact law allowed)
    (ranged_of_empty law empty) along

/-- Every accepted trade is one whose updates are exact, and so is what it stores. -/
def StoresExactly (k : Keeper β α) (s : Chain β) (a : Action α) : Prop :=
  ∀ o q, a.order? = some o → Traded k o q s (step k s a) → ExactUpdate o q ∧
    ∃ d', (step k s a).denom[o.denom]? = some d' ∧ CountsExactly o q.out.toInt q.denom d'

theorem OnlyExact.storesExactly {s : Chain β} {a : Action α} (keyed : Keyed s)
    (exact : OnlyExact k s a) : StoresExactly k s a := by
  intro o q order traded
  have update := exact o q order traded
  have stored := traded.record
  rw [traded.quoted.name keyed] at stored
  exact ⟨update, _, stored, traded.quoted.countsExactly update⟩

def ReservesInRange (d : Denom) : Prop :=
  d.virtualTokenReserves.toInt ∈ Set.Icc 0 (2 ^ 63 - 1) ∧
    d.virtualFandomReserves.toInt ∈ Set.Icc 0 (2 ^ 63 - 1) ∧
    d.realTokenReserves.toInt ∈ Set.Icc 0 (2 ^ 63 - 1) ∧
    d.realFandomReserves.toInt ∈ Set.Icc 0 (2 ^ 63 - 1)

theorem Linked.inRange {d : Denom} (h : Linked d) : ReservesInRange d := by
  have vt := d.virtualTokenReserves.toInt_lt
  have vf := d.virtualFandomReserves.toInt_lt
  have rt := d.realTokenReserves.toInt_lt
  have rf := d.realFandomReserves.toInt_lt
  exact ⟨⟨h.virtualTokens, by omega⟩, ⟨h.virtualFandom, by omega⟩, ⟨h.realTokens, by omega⟩,
    ⟨h.realFandom, by omega⟩⟩

/-- Over any run with that much fandomChain and with new coins only, every accepted trade updates
the record exactly and every recorded reserve stays in range. -/
theorem reserves_never_wrap (law : Lawful k view m) {start : Chain β} (empty : EmptyStore start)
    {as : List (Action α)} (external : ∀ a ∈ as, External k m a)
    (bounded : Throughout (step k)
      (fun s => view.supply s.bank "fandomChain" ≤ 2 ^ 63 - 1 - 30000000000) start as)
    (fresh : Along (step k) (fun s a => CreatesAbsentCoin k view s s a) start as) :
    Along (step k) (StoresExactly k) start as ∧
      Throughout (step k) (AllRecords ReservesInRange) start as := by
  have along : Along (step k) (Balanced k view m) start as :=
    (((along_of_forall_mem external).and bounded.along).and fresh).mono fun _ _ h =>
      ⟨h.1.1, h.1.2, h.2⟩
  have ranged := ranged_of_empty (m := m) law empty
  refine ⟨?_, ?_⟩
  · apply along_of_preserves (fun _ _ => ranged_balanced_step law) _ ranged along
    intro s a h allowed
    exact (h.onlyExact law allowed).storesExactly h.solvent.keyed
  · refine (throughout_of_preserves (fun _ _ => ranged_balanced_step law) ranged along).mono ?_
    intro s h key d found
    exact (h.linked key d found).inRange

theorem market_never_wraps :
    let as := [creation "alice" "rose", buying "alice" "rose" 1000000, selling "alice" "rose" 500]
    Along (step Ledger.keeper) (fun s a => ∀ o, a.order? = some o →
        accepts (tradeWithBondingCurve Ledger.keeper o) s) opening as ∧
      Along (step Ledger.keeper) (StoresExactly Ledger.keeper) opening as ∧
      Throughout (step Ledger.keeper) (AllRecords ReservesInRange) opening as := by
  refine ⟨⟨?_, ?_, ?_, trivial⟩, reserves_never_wrap Ledger.lawful opening_empty (by decide)
    (by decide +kernel) (by decide +kernel)⟩
  · intro o order
    cases order
  · intro o order
    cases order
    decide +kernel
  · intro o order
    cases order
    decide +kernel

theorem ledger_balanced {s : Chain Ledger} {as : List (Action String)}
    (external : ∀ a ∈ as, External Ledger.keeper "tokenfactory" a)
    (bounded : Along (step Ledger.keeper)
      (fun s _ => Ledger.view.supply s.bank "fandomChain" ≤ 2 ^ 63 - 1 - 30000000000) s as)
    (fresh : Along (step Ledger.keeper)
      (fun s a => CreatesAbsentCoin Ledger.keeper Ledger.view s s a) s as) :
    Along (step Ledger.keeper) (Balanced Ledger.keeper Ledger.view "tokenfactory") s as :=
  (((along_of_forall_mem external).and bounded).and fresh).mono fun _ _ h => ⟨h.1.1, h.1.2, h.2⟩

end Fandomchain.Proof
