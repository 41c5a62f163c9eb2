import Fandomchain.Proof.Effects

/-!
# Positive virtual reserves

A trade is refused for good once a virtual reserve is not positive. A reserve gets there in two
ways: the `int64` addition on the paying side wraps, or the quotient on the other side is zero.
-/

namespace Fandomchain.Proof
open Fandomchain.Library Fandomchain.Tokenfactory

variable {β α : Type} {k : Keeper β α}

structure Tradable (d : Denom) : Prop where
  tokens : 0 < d.virtualTokenReserves.toInt
  fandom : 0 < d.virtualFandomReserves.toInt

theorem tradable_iff (side : Side) (d : Denom) :
    Tradable d ↔ 0 < (side.virtualIn d).toInt ∧ 0 < (side.virtualOut d).toInt := by
  cases side with
  | buy => exact ⟨fun h => ⟨h.fandom, h.tokens⟩, fun h => ⟨h.2, h.1⟩⟩
  | sell => exact ⟨fun h => ⟨h.tokens, h.fandom⟩, fun h => ⟨h.1, h.2⟩⟩

/-- What the amount without its fee makes of the reserve that it enters: it fits the field and the
product of the reserves still covers it. -/
def StaysOnCurve (side : Side) (d : Denom) (amount : ℤ) : Prop :=
  (side.virtualIn d).toInt + (amount - amount / 100) < 2 ^ 63 ∧
    (side.virtualIn d).toInt + (amount - amount / 100) ≤
      (side.virtualIn d).toInt * (side.virtualOut d).toInt

instance (side : Side) (d : Denom) (amount : ℤ) : Decidable (StaysOnCurve side d amount) :=
  inferInstanceAs (Decidable (_ ∧ _))

theorem Quoted.tradable_iff {o : Order} {s : Chain β} {q : Quote α} (h : Quoted k o s q) :
    Tradable (o.side.update q.denom o.amount q.afterFee q.out) ↔
      StaysOnCurve o.side q.denom o.amount.toInt := by
  have in_pos := h.virtualIn_pos
  have out_pos := h.out_pos
  have net_pos := h.afterFee_pos
  have added : 0 < (o.side.virtualIn q.denom + q.afterFee).toInt ↔
      (o.side.virtualIn q.denom).toInt + q.afterFee.toInt < 2 ^ 63 :=
    toInt_add_pos_iff in_pos net_pos.le
  have taken : 0 < (o.side.virtualOut q.denom - q.out).toInt ↔
      (o.side.virtualIn q.denom).toInt + q.afterFee.toInt ≤
        (o.side.virtualIn q.denom).toInt * (o.side.virtualOut q.denom).toInt := by
    rw [toInt_sub_of_le out_pos.le h.out_le, sub_pos, h.out]
    exact output_lt_iff (by omega)
  rw [Proof.tradable_iff o.side, Side.virtualIn_update, Side.virtualOut_update, added, taken,
    h.afterFee_toInt]
  rfl

theorem Quoted.tradable {o : Order} {s : Chain β} {q : Quote α} (h : Quoted k o s q) :
    Tradable q.denom :=
  (Proof.tradable_iff o.side q.denom).mpr ⟨h.virtualIn_pos, h.virtualOut_pos⟩

theorem tradable_newDenom (msg : MsgCreateDenom) : Tradable (newDenom msg) := by
  constructor <;> simp

variable [DecidableEq α]

def KeepsCurve (k : Keeper β α) (s : Chain β) (a : Action α) : Prop :=
  ∀ (o : Order) (d : Denom), a.order? = some o → s.denom[o.denom]? = some d →
    accepts (tradeWithBondingCurve k o) s → StaysOnCurve o.side d o.amount.toInt

theorem tradable_step_iff (s : Chain β) (a : Action α) (h : AllRecords Tradable s) :
    AllRecords Tradable (step k s a) ↔ KeepsCurve k s a := by
  constructor
  · intro after o d order found accepted
    obtain ⟨q, traded⟩ := step_accepted order accepted
    have same : q.denom = d := traded.quoted.record_eq found
    exact same ▸ traded.quoted.tradable_iff.mp (after _ _ traded.record)
  · intro keeps
    apply allRecords_step h
    · intro msg s' created
      exact tradable_newDenom msg
    · intro o q order traded _
      apply traded.quoted.tradable_iff.mpr
      exact keeps o q.denom order traded.quoted.found (trade_accepts_iff.mpr ⟨q, _, traded⟩)

theorem tradable_throughout_iff {start : Chain β} (empty : EmptyStore start)
    (as : List (Action α)) :
    Throughout (step k) (AllRecords Tradable) start as ↔ Along (step k) (KeepsCurve k) start as :=
  throughout_iff_of_step_iff tradable_step_iff (allRecords_of_empty empty)

theorem small_market_tradable :
    Throughout (step Ledger.keeper) (AllRecords Tradable) opening
      [creation "alice" "rose", buying "bob" "rose" 1000000] := by
  refine (tradable_throughout_iff opening_empty _).mpr ⟨?_, ?_, trivial⟩
  · intro o d order
    cases order
  · intro o d order found _
    cases order
    have record : (step Ledger.keeper opening (creation "alice" "rose")).denom["rose"]? =
        some (newDenom ⟨"alice", "rose", "", "", ""⟩) := by decide +kernel
    obtain rfl : newDenom ⟨"alice", "rose", "", "", ""⟩ = d :=
      Option.some.inj (record.symm.trans found)
    decide

def whales : Chain Ledger where
  params := some defaultParams
  port := none
  denom := ∅
  bank := Ledger.ofBooks
    [⟨"alice", "fandomChain", 10000000000000⟩, ⟨"bob", "fandomChain", 4611686018427387904⟩,
      ⟨"carol", "fandomChain", 4705000000000000000⟩] (by decide)

/-- What the whole real token reserve costs, round after round of buying and selling it. -/
def wholeReserve : List Int64 :=
  [121212121212, 127280873244, 133894619573, 141128121744, 149070396992, 157828282813,
    167531127261, 178337042715, 190441366879, 204088296723, 219587176066, 237335763600,
    257854240092, 281836219267, 310227582873, 344352616989, 386124239225, 438411896616,
    505724804631, 595578425571, 721500721252, 910547785227, 1225850739965, 1856803326666,
    3750375035959]

/-- The fees of the sales stay out of the virtual token reserve, so that after these rounds no
payment exhausts the real one any more, and two large payments wrap the virtual fandom reserve. -/
def whaleRun : List (Action String) :=
  creation "alice" "rose" :: (wholeReserve.flatMap fun fandomAmount =>
    [buying "alice" "rose" fandomAmount, selling "alice" "rose" 800000000000]) ++
    [buying "bob" "rose" 4611686018427387904, buying "carol" "rose" 4705000000000000000]

theorem virtual_reserve_wraps :
    EmptyStore whales ∧ (∀ a ∈ whaleRun, IsMessage a) ∧
      ∃ d, (whaleRun.foldl (step Ledger.keeper) whales).denom["rose"]? = some d ∧
        d.virtualFandomReserves.toInt < 0 ∧
        validateTrade d 1 true = .error "invalid virtual reserves" := by
  have wrapped : ((whaleRun.foldl (step Ledger.keeper) whales).denom["rose"]?.any fun d =>
      d.virtualFandomReserves.toInt < 0 ∧
        validateTrade d 1 true = .error "invalid virtual reserves") = true := by
    decide +kernel
  obtain ⟨d, found, negative⟩ := Option.any_eq_true _ _ |>.mp wrapped
  exact ⟨rfl, by decide +kernel, d, found, of_decide_eq_true negative⟩

end Fandomchain.Proof
