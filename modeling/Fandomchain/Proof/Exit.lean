import Fandomchain.Proof.Acceptance
import Fandomchain.Proof.Conservation
import Fandomchain.Proof.Margin
import Fandomchain.Proof.Range

/-!
# Selling out

The holders of a coin together are one position on its curve: what they paid is the real fandom
reserve, what they hold is at most what is sold. As long as the margin over that position is not
negative, each of them can sell everything back.
-/

namespace Fandomchain.Proof
open Fandomchain.Library Fandomchain.Tokenfactory

variable {β α : Type} {k : Keeper β α} {view : BankView β α} {m : α}

def outstanding (d : Denom) : Position :=
  ⟨-d.realFandomReserves.toInt, d.initialRealTokenReserves.toInt - d.realTokenReserves.toInt⟩

structure Backed (d : Denom) : Prop where
  tradable : Tradable d
  fandom : 0 ≤ d.realFandomReserves.toInt
  margin : 0 ≤ curveMargin d (outstanding d)

theorem backed_newDenom (msg : MsgCreateDenom) : Backed (newDenom msg) := by
  have linked := linked_newDenom msg
  refine ⟨tradable_newDenom msg, linked.realFandom, ?_⟩
  show 0 ≤ curveMargin (newDenom ⟨"", "", "", "", ""⟩) (outstanding (newDenom ⟨"", "", "", "", ""⟩))
  decide

def issueIn : Side → Denom → ℤ
  | .buy, _ => 0
  | .sell, d => d.initialRealTokenReserves.toInt

def issueOut : Side → Denom → ℤ
  | .buy, d => d.initialRealTokenReserves.toInt
  | .sell, _ => 0

theorem outstanding_onIn (side : Side) (d : Denom) :
    (outstanding d).onIn side = issueIn side d - (side.realIn d).toInt := by
  cases side with
  | buy => exact (zero_sub _).symm
  | sell => rfl

theorem outstanding_onOut (side : Side) (d : Denom) :
    (outstanding d).onOut side = issueOut side d - (side.realOut d).toInt := by
  cases side with
  | buy => rfl
  | sell => exact (zero_sub _).symm

theorem outstanding_onIn_update (o : Order) (q : Quote α) (exact : ExactUpdate o q) :
    (outstanding (o.side.update q.denom o.amount q.afterFee q.out)).onIn o.side =
      (outstanding q.denom).onIn o.side - o.amount.toInt := by
  have kept : issueIn o.side (o.side.update q.denom o.amount q.afterFee q.out) =
      issueIn o.side q.denom := by
    cases o.side <;> rfl
  rw [outstanding_onIn, outstanding_onIn, kept, Side.realIn_update, exact.realIn,
    sub_add_eq_sub_sub]

theorem outstanding_onOut_update (o : Order) (q : Quote α) (exact : ExactUpdate o q) :
    (outstanding (o.side.update q.denom o.amount q.afterFee q.out)).onOut o.side =
      (outstanding q.denom).onOut o.side + q.out.toInt := by
  have kept : issueOut o.side (o.side.update q.denom o.amount q.afterFee q.out) =
      issueOut o.side q.denom := by
    cases o.side <;> rfl
  rw [outstanding_onOut, outstanding_onOut, kept, Side.realOut_update, exact.realOut,
    sub_sub_eq_add_sub, add_sub_right_comm]

theorem realFandom_nonneg_iff (side : Side) (d : Denom) :
    0 ≤ d.realFandomReserves.toInt ∧ 0 ≤ d.realTokenReserves.toInt ↔
      0 ≤ (side.realIn d).toInt ∧ 0 ≤ (side.realOut d).toInt := by
  cases side with
  | buy => exact Iff.rfl
  | sell => exact and_comm

theorem Quoted.backed {o : Order} {s : Chain β} {q : Quote α} (h : Quoted k o s q)
    (backed : Backed q.denom) (tokens : 0 ≤ q.denom.realTokenReserves.toInt)
    (stays : StaysOnCurve o.side q.denom o.amount.toInt)
    (room : (o.side.realIn q.denom).toInt + o.amount.toInt < 2 ^ 63)
    (covered : 0 ≤ curveMargin q.denom (outstanding q.denom) +
      cushion o.side q.denom (outstanding q.denom) o.amount.toInt) :
    Backed (o.side.update q.denom o.amount q.afterFee q.out) := by
  obtain ⟨real_nonneg, -⟩ := (realFandom_nonneg_iff o.side q.denom).mp ⟨backed.fandom, tokens⟩
  have amount_pos := h.amount_pos
  have in_pos := h.virtualIn_pos
  have net_pos := h.afterFee_pos
  have fits := stays.1
  rw [← h.afterFee_toInt] at fits
  have exact : ExactUpdate o q :=
    { out := h.out
      virtualIn := toInt_add_exact (by omega) fits
      virtualOut := toInt_sub_of_le h.out_pos.le h.out_le
      realIn := toInt_add_exact (by omega) room
      realOut := toInt_sub_of_le h.out_pos.le h.reserve }
  have reserve := h.reserve
  have real : 0 ≤ (o.side.update q.denom o.amount q.afterFee q.out).realFandomReserves.toInt ∧
      0 ≤ (o.side.update q.denom o.amount q.afterFee q.out).realTokenReserves.toInt := by
    rw [realFandom_nonneg_iff o.side, Side.realIn_update, Side.realOut_update, exact.realIn,
      exact.realOut]
    omega
  refine ⟨h.tradable_iff.mpr stays, real.1, ?_⟩
  rw [curveMargin_side o.side, Side.virtualIn_update, Side.virtualOut_update, exact.virtualIn,
    exact.virtualOut, outstanding_onIn_update o q exact, outstanding_onOut_update o q exact,
    h.margin_eq]
  exact covered

variable [DecidableEq α]

/-- The action is no accepted trade of the coin that leaves the curve, fills the field of the real
reserve, or gives away more in rounding than its fee and the margin so far. -/
def KeepsBacking (k : Keeper β α) (c : String) (s : Chain β) (a : Action α) : Prop :=
  ∀ (o : Order) (d : Denom), a.order? = some o → o.denom = c → s.denom[c]? = some d →
    accepts (tradeWithBondingCurve k o) s →
    StaysOnCurve o.side d o.amount.toInt ∧
      (o.side.realIn d).toInt + o.amount.toInt < 2 ^ 63 ∧
      0 ≤ curveMargin d (outstanding d) + cushion o.side d (outstanding d) o.amount.toInt

theorem backed_step {c : String} {s : Chain β} {a : Action α} (run : ConservedRun view m c s)
    (h : ∃ d, s.denom[c]? = some d ∧ Backed d) (keeps : KeepsBacking k c s a) :
    ∃ d, (step k s a).denom[c]? = some d ∧ Backed d := by
  obtain ⟨d, found, backed⟩ := h
  rcases record_step run.solvent.keyed found a with kept | ⟨o, q, order, rfl, name, traded, updated⟩
  · exact ⟨d, kept, backed⟩
  · obtain ⟨e, found', tokens⟩ := run.conserved.record
    obtain rfl : q.denom = e := Option.some.inj (found.symm.trans found')
    obtain ⟨stays, room, covered⟩ := keeps o q.denom order
      ((traded.quoted.name run.solvent.keyed).symm.trans name) found
      (trade_accepts_iff.mpr ⟨q, _, traded⟩)
    exact ⟨_, updated, traded.quoted.backed backed tokens stays room covered⟩

/-! ## Selling -/

theorem exit_iff (law : Lawful k view m) {c seller : String} {s : Chain β} {d : Denom} {addr : α}
    {x : Int64} (issued : AllRecords Issued s) (found : s.denom[c]? = some d) (name : d.denom = c)
    (small : view.supply s.bank c < 2 ^ 63)
    (decoded : k.addressCodec.stringToBytes seller = .ok addr) (x_pos : 0 < x.toInt) :
    accepts (sellWithBondingCurve k ⟨seller, c, x, 0⟩) s ↔
      Tradable d ∧ Covered view m s .sell d addr x.toInt ∧
        x.toInt ≤ amountOfNoDenomValidation (k.bankKeeper.spendableCoins s.bank addr) c := by
  have zero : (0 : Int64).toInt = 0 := by decide
  have coin : Side.sell.coinIn d = c := name
  have fits : amountOfNoDenomValidation (k.bankKeeper.spendableCoins s.bank addr) c < 2 ^ 63 := by
    have := law.spendable_le s.bank addr c
    have := law.balance_le_supply addr s.bank c
    omega
  rw [sell_accepts_iff]
  constructor
  · intro ⟨n, s', accepted⟩
    obtain ⟨e, found', priced, -, covered, funds, -⟩ :=
      (trade_ok_iff law issued (o := MsgSellWithBondingCurve.order ⟨seller, c, x, 0⟩)
        decoded).mp ⟨s', accepted⟩
    obtain rfl : d = e := Option.some.inj (found.symm.trans found')
    refine ⟨⟨priced.virtualIn_pos, priced.virtualOut_pos⟩, covered, ?_⟩
    rw [← coin]
    exact funds
  · intro ⟨tradable, covered, funds⟩
    obtain ⟨n, priced⟩ : ∃ n, Priced .sell d x n :=
      exists_priced x_pos tradable.tokens tradable.fandom
    have out_pos := priced.out_pos
    obtain ⟨s', accepted⟩ :=
      (trade_ok_iff law issued (o := MsgSellWithBondingCurve.order ⟨seller, c, x, 0⟩)
        decoded).mpr ⟨d, found, priced, by
          show (0 : Int64).toInt ≤ n.toInt
          omega, covered, by
          show Funded k s (Side.sell.coinIn d) addr x.toInt
          rw [coin]
          exact ⟨funds, fits⟩⟩
    exact ⟨n, s', accepted⟩

theorem Backed.covers {d : Denom} (backed : Backed d) {x : ℤ} (x_pos : 0 < x)
    (le_sold : x ≤ d.initialRealTokenReserves.toInt - d.realTokenReserves.toInt) :
    (d.virtualFandomReserves.toInt - d.realFandomReserves.toInt) * (x - x / 100) ≤
      d.realFandomReserves.toInt * d.virtualTokenReserves.toInt := by
  have tokens := backed.tradable.tokens
  have fandom := backed.tradable.fandom
  have fee := Int.ediv_nonneg x_pos.le (show (0 : ℤ) ≤ 100 by decide)
  have fee_lt : x / 100 < x := Int.ediv_lt_self_of_pos_of_ne_one x_pos (by decide)
  rw [← output_le_iff_mul_le _ (by omega)]
  have covered := exit_covered backed.margin (mul_nonneg fandom.le tokens.le)
    (show 0 < d.virtualTokenReserves.toInt + (x - x / 100) by omega)
    ((Int.sub_le_self x fee).trans le_sold)
  rwa [outstanding, neg_neg] at covered

theorem ConservedRun.le_sold (law : Lawful k view m) {c : String} {s : Chain β}
    (run : ConservedRun view m c s) {d : Denom} (found : s.denom[c]? = some d) {addr : α}
    (other : addr ≠ m) : view.balance s.bank addr c ≤
      d.initialRealTokenReserves.toInt - d.realTokenReserves.toInt := by
  have held := law.balance_le_held other s.bank c
  have whole := (run.truthful law found).supply
  have counted := run.solvent.token_le_balance found
  rw [law.held_eq, whole] at held
  omega

/-- From the creation of a new coin on: what a holder can sell, and that the holders of a coin
whose trades keep it backed can sell everything that is not locked. -/
theorem holders_exit (law : Lawful k view m) {before : Chain β} (reached : Reached k before)
    {msg : MsgCreateDenom} (accepted : accepts (createDenom k msg) before)
    (absent : view.supply before.bank msg.denom = 0) (as : List (Action α)) :
    let s := (Action.createDenom msg :: as).foldl (step k) before
    ∃ d, s.denom[msg.denom]? = some d ∧
      ∀ seller addr (x : Int64), k.addressCodec.stringToBytes seller = .ok addr → addr ≠ m →
        0 < x.toInt → x.toInt ≤ view.balance s.bank addr msg.denom →
        (accepts (sellWithBondingCurve k ⟨seller, msg.denom, x, 0⟩) s ↔
          Tradable d ∧ Covered view m s .sell d addr x.toInt ∧ x.toInt ≤
            amountOfNoDenomValidation (k.bankKeeper.spendableCoins s.bank addr) msg.denom) ∧
        (ReachedExternally k m before → (∀ a ∈ Action.createDenom msg :: as, External k m a) →
          Along (step k) (KeepsBacking k msg.denom) (step k before (.createDenom msg)) as →
          (accepts (sellWithBondingCurve k ⟨seller, msg.denom, x, 0⟩) s ↔ x.toInt ≤
            amountOfNoDenomValidation (k.bankKeeper.spendableCoins s.bank addr) msg.denom)) := by
  intro s
  have created := step_created accepted
  have start := (conserved_created law created absent).1
  have first := created.record
  have ends : Reached k s := reached.run (.createDenom msg :: as)
  have listed : Listed view msg.denom (as.foldl (step k) (step k before (.createDenom msg))) :=
    run_preserves (I := Listed view msg.denom) (fun s a h _ => listed_step law h a) start.listed
      (along_of_forall_mem fun _ _ => trivial)
  obtain ⟨d, found⟩ := Option.ne_none_iff_exists'.mp listed.record
  refine ⟨d, found, fun seller addr x decoded other x_pos x_le => ?_⟩
  have small : view.supply s.bank msg.denom < 2 ^ 63 := by
    have : view.supply s.bank msg.denom = 800000000000 := listed.supply
    omega
  have sale := exit_iff law ends.issued found (ends.keyed _ d found) small decoded x_pos
  refine ⟨sale, fun reachedExternally external keeps => ?_⟩
  have run₀ := reached.conservedRun law accepted absent
  have solvent : Solvent view m s :=
    ReachedExternally.solvent law (Reachable.run reachedExternally (along_of_forall_mem external))
  have others := (List.forall_mem_cons.mp external).2
  have allowed : Along (step k) (fun s a => External k m a ∧ KeepsBacking k msg.denom s a)
      (step k before (.createDenom msg)) as := (along_of_forall_mem others).and keeps
  have preserved : ∀ s a,
      ConservedRun view m msg.denom s ∧ (∃ d, s.denom[msg.denom]? = some d ∧ Backed d) →
      External k m a ∧ KeepsBacking k msg.denom s a →
      ConservedRun view m msg.denom (step k s a) ∧
        ∃ d, (step k s a).denom[msg.denom]? = some d ∧ Backed d :=
    fun s a h allowed =>
      ⟨conservedRun_step law h.1 (allowed.1.paysNone _ s), backed_step h.1 h.2 allowed.2⟩
  obtain ⟨run, e, found', backed⟩ :=
    run_preserves preserved ⟨run₀, _, first, backed_newDenom msg⟩ allowed
  obtain rfl : d = e := Option.some.inj (found.symm.trans found')
  refine sale.trans ⟨?_, ?_⟩
  · intro ⟨_, _, unlocked⟩
    exact unlocked
  · intro unlocked
    have fits := backed.covers x_pos (x_le.trans (run.le_sold law found other))
    exact ⟨backed.tradable, (solvent.covered_iff found .sell addr x_pos.le).mpr fits, unlocked⟩

theorem large_holder_exits :
    accepts (sellWithBondingCurve Ledger.keeper ⟨"alice", "rose", 32998912, 0⟩)
      ([creation "bob" "rose", buying "alice" "rose" 1000000].foldl (step Ledger.keeper)
        opening) := by
  obtain ⟨d, -, sale⟩ :=
    @holders_exit _ _ _ _ _ _ Ledger.lawful opening (Reachable.start opening_empty)
      ⟨"bob", "rose", "", "", ""⟩ (by decide +kernel) (by decide)
      [buying "alice" "rose" 1000000]
  have keeps : Along (step Ledger.keeper) (KeepsBacking Ledger.keeper "rose") newMarket
      [buying "alice" "rose" 1000000] := by
    refine ⟨?_, trivial⟩
    intro o d order _ found _
    cases order
    obtain rfl := newMarket_rose found
    decide
  exact ((sale "alice" "alice" 32998912 rfl (by decide) (by decide) (by decide +kernel)).2
    (Reachable.start opening_empty) (by decide) keeps).mpr (by decide +kernel)

theorem dust_buyer_locked_in :
    let s := [creation "alice" "rose", buying "alice" "rose" 1].foldl (step Ledger.keeper) opening
    EmptyStore opening ∧ Ledger.view.supply opening.bank "rose" = 0 ∧
      Ledger.view.balance s.bank "alice" "rose" = 34 ∧
      accepts (sellWithBondingCurve Ledger.keeper ⟨"alice", "rose", 34, 0⟩) s = false := by
  refine ⟨rfl, by decide, ?_, ?_⟩
  · decide +kernel
  · decide +kernel

end Fandomchain.Proof
