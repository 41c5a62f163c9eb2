import Fandomchain.Proof.Range

/-!
# The books of one curve

What the four reserves of a record come to, in terms of the trades that made them. The real reserves
take the gross amounts and the virtual ones the net amounts, so the two drift apart by the fees.
-/

namespace Fandomchain.Proof
open Fandomchain.Library Fandomchain.Tokenfactory

variable {β α : Type} {k : Keeper β α}

/-! ## What is counted -/

def opposite : Side → Side
  | .buy => .sell
  | .sell => .buy

theorem realIn_opposite (side : Side) : (opposite side).realIn = side.realOut := by
  cases side <;> rfl

theorem virtualIn_opposite (side : Side) : (opposite side).virtualIn = side.virtualOut := by
  cases side <;> rfl

theorem opposite_opposite (side : Side) : opposite (opposite side) = side := by
  cases side <;> rfl

theorem opposite_ne (side : Side) : opposite side ≠ side := by
  cases side <;> decide

theorem eq_or_opposite (side other : Side) : other = side ∨ other = opposite side := by
  cases side <;> cases other <;> decide

/-- What `f` counts of an accepted trade of this side on `c`. -/
def counted (k : Keeper β α) (side : Side) (c : String) (f : Order → Chain β → ℤ) (s : Chain β)
    (a : Action α) : ℤ :=
  match a.order? with
  | some o =>
      if o.side = side ∧ o.denom = c ∧ accepts (tradeWithBondingCurve k o) s then f o s else 0
  | none => 0

def paid (o : Order) (_ : Chain β) : ℤ := o.amount.toInt

def feePart (o : Order) (_ : Chain β) : ℤ := o.amount.toInt / 100

def recorded (f : Denom → ℤ) (c : String) (s : Chain β) : ℤ :=
  match s.denom[c]? with
  | some d => f d
  | none => 0

theorem recorded_eq (f : Denom → ℤ) {c : String} {s : Chain β} {d : Denom}
    (found : s.denom[c]? = some d) : recorded f c s = f d := by
  simp only [recorded, found]

def ahead (side : Side) (d : Denom) : ℤ := (side.virtualIn d).toInt - (side.realIn d).toInt

theorem counted_of_apart {side : Side} {c : String} (f : Order → Chain β → ℤ) {s : Chain β}
    {a : Action α} (apart : ¬TradesOn k c s a) : counted k side c f s a = 0 := by
  unfold counted
  cases order : a.order? with
  | none => rfl
  | some o =>
      apply if_neg
      intro ⟨_, name, accepted⟩
      exact apart ⟨o, order, name, accepted⟩

theorem counted_of_traded (side : Side) (f : Order → Chain β → ℤ) {s : Chain β} {a : Action α}
    {o : Order} (order : a.order? = some o) (accepted : accepts (tradeWithBondingCurve k o) s) :
    counted k side o.denom f s a = if o.side = side then f o s else 0 := by
  unfold counted
  simp only [order, accepted, and_true]

/-! ## Steps -/

section Update

variable {o : Order} {q : Quote α}

theorem ExactUpdate.realIn_eq (exact : ExactUpdate o q) (side : Side) :
    (side.realIn (o.side.update q.denom o.amount q.afterFee q.out)).toInt =
      (side.realIn q.denom).toInt + (if o.side = side then o.amount.toInt else 0) -
        (if o.side = opposite side then q.out.toInt else 0) := by
  rcases eq_or_opposite side o.side with same | crossed
  · rw [if_pos same, if_neg (same ▸ (opposite_ne side).symm), ← same, Side.realIn_update, exact.realIn]
    ring
  · have turned : side = opposite o.side := by rw [crossed, opposite_opposite]
    rw [if_neg (crossed ▸ opposite_ne side), if_pos crossed, turned, realIn_opposite,
      Side.realOut_update, exact.realOut]
    ring

theorem ExactUpdate.ahead_eq (exact : ExactUpdate o q) (side : Side) (fee : ℤ)
    (net : q.afterFee.toInt = o.amount.toInt - fee) :
    ahead side (o.side.update q.denom o.amount q.afterFee q.out) =
      ahead side q.denom - (if o.side = side then fee else 0) := by
  unfold ahead
  rcases eq_or_opposite side o.side with same | crossed
  · rw [if_pos same, ← same, Side.virtualIn_update, Side.realIn_update, exact.virtualIn,
      exact.realIn, net]
    ring
  · have turned : side = opposite o.side := by rw [crossed, opposite_opposite]
    rw [if_neg (crossed ▸ opposite_ne side), turned, virtualIn_opposite, realIn_opposite,
      Side.virtualOut_update, Side.realOut_update, exact.virtualOut, exact.realOut]
    ring

end Update

structure OnBooks (c : String) (s : Chain β) : Prop where
  keyed : Keyed s
  listed : ∃ d, s.denom[c]? = some d ∧ ∀ side : Side, 0 ≤ (side.realIn d).toInt

theorem onBooks_created {msg : MsgCreateDenom} {s s' : Chain β} (keyed : Keyed s')
    (created : Created k msg s s') : OnBooks msg.denom s' := by
  refine ⟨keyed, newDenom msg, created.record, ?_⟩
  intro side
  cases side <;> simp [Side.realIn]

variable [DecidableEq α]

def ExactTrades (k : Keeper β α) (c : String) (s : Chain β) (a : Action α) : Prop :=
  ∀ o q, a.order? = some o → o.denom = c → Traded k o q s (step k s a) → ExactUpdate o q

theorem onBooks_step {c : String} {s : Chain β} {a : Action α} (h : OnBooks c s)
    (exact : ExactTrades k c s a) : OnBooks c (step k s a) := by
  refine ⟨keyed_step h.keyed a, ?_⟩
  obtain ⟨d, found, nonneg⟩ := h.listed
  by_cases trades : TradesOn k c s a
  · obtain ⟨o, order, rfl, accepted⟩ := trades
    obtain ⟨q, rfl, traded, stored⟩ := record_traded h.keyed order found accepted
    refine ⟨_, stored, fun side => ?_⟩
    have before := nonneg side
    have added := traded.quoted.amount_pos
    have covered := traded.quoted.reserve
    rw [(exact o q order rfl traded).realIn_eq side]
    rcases eq_or_opposite side o.side with same | crossed
    · rw [if_pos same, if_neg (same ▸ (opposite_ne side).symm)]
      omega
    · rw [if_neg (crossed ▸ opposite_ne side), if_pos crossed]
      rw [crossed, ← realIn_opposite, opposite_opposite] at covered
      omega
  · exact ⟨d, record_untouched h.keyed found trades, nonneg⟩

theorem realIn_step {c : String} {s : Chain β} {a : Action α} (h : OnBooks c s)
    (exact : ExactTrades k c s a) (side : Side) :
    recorded (fun d => (side.realIn d).toInt) c (step k s a) =
      recorded (fun d => (side.realIn d).toInt) c s +
        (counted k side c paid s a - counted k (opposite side) c (received k) s a) := by
  obtain ⟨d, found, -⟩ := h.listed
  by_cases trades : TradesOn k c s a
  · obtain ⟨o, order, rfl, accepted⟩ := trades
    obtain ⟨q, rfl, traded, stored⟩ := record_traded h.keyed order found accepted
    rw [recorded_eq _ stored, recorded_eq _ found, (exact o q order rfl traded).realIn_eq side,
      counted_of_traded side _ order accepted, counted_of_traded (opposite side) _ order accepted,
      traded.received_eq]
    exact add_sub_assoc _ _ _
  · rw [recorded_eq _ (record_untouched h.keyed found trades), recorded_eq _ found,
      counted_of_apart _ trades, counted_of_apart _ trades]
    ring

theorem ahead_step {c : String} {s : Chain β} {a : Action α} (h : OnBooks c s)
    (exact : ExactTrades k c s a) (side : Side) :
    recorded (ahead side) c (step k s a) =
      recorded (ahead side) c s + -counted k side c feePart s a := by
  obtain ⟨d, found, -⟩ := h.listed
  by_cases trades : TradesOn k c s a
  · obtain ⟨o, order, rfl, accepted⟩ := trades
    obtain ⟨q, rfl, traded, stored⟩ := record_traded h.keyed order found accepted
    have net := traded.quoted.afterFee_toInt
    rw [recorded_eq _ stored, recorded_eq _ found, (exact o q order rfl traded).ahead_eq side _ net,
      counted_of_traded side _ order accepted]
    exact sub_eq_add_neg _ _
  · rw [recorded_eq _ (record_untouched h.keyed found trades), recorded_eq _ found,
      counted_of_apart _ trades]
    ring

/-! ## Runs -/

def total (k : Keeper β α) (side : Side) (c : String) (f : Order → Chain β → ℤ) (s : Chain β)
    (as : List (Action α)) : ℤ :=
  sumAlong (step k) (counted k side c f) s as

theorem realIn_run {c : String} {s : Chain β} {as : List (Action α)} (start : OnBooks c s)
    (exact : Along (step k) (ExactTrades k c) s as) (side : Side) :
    recorded (fun d => (side.realIn d).toInt) c (as.foldl (step k) s) =
      recorded (fun d => (side.realIn d).toInt) c s +
        (total k side c paid s as - total k (opposite side) c (received k) s as) := by
  unfold total
  rw [← sumAlong_sub]
  exact eq_add_sumAlong (fun _ _ => onBooks_step) (fun _ _ h exact => realIn_step h exact side)
    start exact

theorem ahead_run {c : String} {s : Chain β} {as : List (Action α)} (start : OnBooks c s)
    (exact : Along (step k) (ExactTrades k c) s as) (side : Side) :
    recorded (ahead side) c (as.foldl (step k) s) =
      recorded (ahead side) c s - total k side c feePart s as := by
  unfold total
  rw [sub_eq_add_neg, ← sumAlong_neg]
  exact eq_add_sumAlong (fun _ _ => onBooks_step) (fun _ _ h exact => ahead_step h exact side)
    start exact

/-- The four reserves of `d` are what the trades of a run from its creation make of the initial
ones, and what was paid out of a real reserve never exceeds what it had. -/
structure Accounted (k : Keeper β α) (c : String) (d : Denom) (s : Chain β)
    (as : List (Action α)) : Prop where
  realFandom : d.realFandomReserves.toInt =
    total k .buy c paid s as - total k .sell c (received k) s as
  realFandom_nonneg : 0 ≤ d.realFandomReserves.toInt
  realTokens : d.realTokenReserves.toInt = initialRealTokenReserves.toInt -
    total k .buy c (received k) s as + total k .sell c paid s as
  realTokens_nonneg : 0 ≤ d.realTokenReserves.toInt
  virtualFandom : d.virtualFandomReserves.toInt = d.realFandomReserves.toInt +
    initialVirtualFandomReserves.toInt - total k .buy c feePart s as
  virtualTokens : d.virtualTokenReserves.toInt = d.realTokenReserves.toInt +
    (initialVirtualTokenReserves.toInt - initialRealTokenReserves.toInt) -
    total k .sell c feePart s as

theorem onBooks_run {c : String} {s : Chain β} {as : List (Action α)} (start : OnBooks c s)
    (exact : Along (step k) (ExactTrades k c) s as) : OnBooks c (as.foldl (step k) s) :=
  run_preserves (fun _ _ => onBooks_step) start exact

theorem run_accounting {before : Chain β} (reached : Reached k before) {msg : MsgCreateDenom}
    (accepted : accepts (createDenom k msg) before) {as : List (Action α)}
    (exact : Along (step k) (ExactTrades k msg.denom) (step k before (.createDenom msg)) as) :
    ∃ d, (as.foldl (step k) (step k before (.createDenom msg))).denom[msg.denom]? = some d ∧
      Accounted k msg.denom d (step k before (.createDenom msg)) as := by
  have created := step_created accepted
  have start := onBooks_created (keyed_step reached.keyed _) created
  obtain ⟨d, final, nonneg⟩ := (onBooks_run start exact).listed
  have fandom := realIn_run start exact .buy
  have tokens := realIn_run start exact .sell
  have fandom_ahead := ahead_run start exact .buy
  have tokens_ahead := ahead_run start exact .sell
  rw [recorded_eq _ final, recorded_eq _ created.record] at fandom tokens fandom_ahead tokens_ahead
  simp only [ahead, Side.realIn, Side.virtualIn, opposite, newDenom_realFandomReserves,
    newDenom_realTokenReserves, newDenom_virtualFandomReserves, newDenom_virtualTokenReserves]
    at fandom tokens fandom_ahead tokens_ahead
  have tokens_initial : initialRealTokenReserves.toInt = 800000000000 := by decide
  have fandom_initial : initialVirtualFandomReserves.toInt = 30000000000 := by decide
  have virtual_initial : initialVirtualTokenReserves.toInt = 1000000000000 := by decide
  refine ⟨d, final, ?_, nonneg .buy, ?_, nonneg .sell, ?_, ?_⟩
  · omega
  · omega
  · omega
  · omega

theorem rose_accounted :
    let as := [buying "alice" "rose" 1000000, selling "alice" "rose" 5000]
    ∃ d, (as.foldl (step Ledger.keeper) newMarket).denom["rose"]? = some d ∧
      Accounted Ledger.keeper "rose" d newMarket as ∧
      total Ledger.keeper .buy "rose" paid newMarket as = 1000000 ∧
      total Ledger.keeper .buy "rose" (received Ledger.keeper) newMarket as = 32998912 ∧
      total Ledger.keeper .sell "rose" paid newMarket as = 5000 ∧
      total Ledger.keeper .sell "rose" (received Ledger.keeper) newMarket as = 149 := by
  intro as
  have exact : Along (step Ledger.keeper) (OnlyExact Ledger.keeper) opening
      (creation "bob" "rose" :: as) :=
    onlyExact_run Ledger.lawful opening_empty
      (ledger_balanced (by decide) (by decide +kernel) (by decide +kernel))
  obtain ⟨d, found, accounted⟩ :=
    @run_accounting _ _ Ledger.keeper _ opening (Reachable.start opening_empty)
      ⟨"bob", "rose", "", "", ""⟩ (by decide +kernel) as
      ⟨fun o q order _ => exact.2.1 o q order, fun o q order _ => exact.2.2.1 o q order, trivial⟩
  refine ⟨d, found, accounted, ?_, ?_, ?_, ?_⟩
  · decide +kernel
  · decide +kernel
  · decide +kernel
  · decide +kernel

end Fandomchain.Proof
