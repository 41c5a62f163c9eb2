import Fandomchain.Proof.Margin

/-!
# Sessions of one trader

A trader who only trades one coin moves along its curve and back. What the trader is up or down is
read off the margin of the reserves over the position: each trade lowers it by the remainder that
rounding the payout up leaves to the trader, and raises it by the fee, weighted with what the
reserve on the other side would be without the session.
-/

namespace Fandomchain.Proof
open Fandomchain.Library Fandomchain.Tokenfactory

variable {β α : Type} {k : Keeper β α} {view : BankView β α} {m : α}

def gain (view : BankView β α) (start s : Chain β) (trader : α) (c : String) : ℤ :=
  view.balance s.bank trader c - view.balance start.bank trader c

def gains (view : BankView β α) (start s : Chain β) (trader : α) (denom : String) : Position :=
  ⟨gain view start s trader "fandomChain", gain view start s trader denom⟩

theorem gains_onIn (start s : Chain β) (trader : α) (side : Side) (d : Denom) :
    (gains view start s trader d.denom).onIn side =
      gain view start s trader (side.coinIn d) := by
  cases side <;> rfl

theorem gains_onOut (start s : Chain β) (trader : α) (side : Side) (d : Denom) :
    (gains view start s trader d.denom).onOut side =
      gain view start s trader (side.coinOut d) := by
  cases side <;> rfl

theorem coinIn_ne_coinOut {d : Denom} (other : d.denom ≠ "fandomChain") (side : Side) :
    side.coinIn d ≠ side.coinOut d := by
  cases side with
  | buy => exact other.symm
  | sell => exact other

variable [DecidableEq α]

theorem Traded.gain_eq (law : Lawful k view m) {o : Order} {q : Quote α} {s s' : Chain β}
    (start : Chain β) (h : Traded k o q s s') (outside : q.trader ≠ m)
    (other : q.denom.denom ≠ "fandomChain") :
    gain view start s' q.trader (o.side.coinIn q.denom) =
        gain view start s q.trader (o.side.coinIn q.denom) - o.amount.toInt ∧
      gain view start s' q.trader (o.side.coinOut q.denom) =
        gain view start s q.trader (o.side.coinOut q.denom) + q.out.toInt := by
  have apart := coinIn_ne_coinOut other o.side
  unfold gain
  rw [h.trader_balance_eq law outside, h.trader_balance_eq law outside]
  unfold flow
  rw [if_pos rfl, if_neg apart, if_pos rfl, if_neg (Ne.symm apart)]
  constructor <;> ring

/-- After a trade there are reserves with the margin that the trade leaves. They are the recorded
ones unless an addition has wrapped, and then the curve is closed. -/
theorem Traded.reserves (law : Lawful k view m) {o : Order} {q : Quote α} {s s' : Chain β}
    (start : Chain β) (h : Traded k o q s s') (outside : q.trader ≠ m)
    (other : q.denom.denom ≠ "fandomChain")
    (keeps : o.side = .buy → (o.side.virtualIn q.denom).toInt + q.afterFee.toInt ≤
      (o.side.virtualIn q.denom).toInt * (o.side.virtualOut q.denom).toInt) :
    ∃ x y, 0 ≤ x ∧ 0 < y ∧
      margin x y (gain view start s' q.trader "fandomChain")
          (gain view start s' q.trader q.denom.denom) =
        curveMargin q.denom (gains view start s q.trader q.denom.denom) +
          cushion o.side q.denom (gains view start s q.trader q.denom.denom) o.amount.toInt ∧
      (Tradable (o.side.update q.denom o.amount q.afterFee q.out) →
        x = (o.side.update q.denom o.amount q.afterFee q.out).virtualFandomReserves.toInt ∧
        y = (o.side.update q.denom o.amount q.afterFee q.out).virtualTokenReserves.toInt) := by
  have quoted := h.quoted
  have in_pos := quoted.virtualIn_pos
  have net_pos := quoted.afterFee_pos
  have out_pos := quoted.out_pos
  have out_le := quoted.out_le
  have moved := quoted.margin_eq (gains view start s q.trader q.denom.denom)
  obtain ⟨paid, received⟩ := h.gain_eq law start outside other
  rw [gains_onIn, gains_onOut, ← paid, ← received] at moved
  have taken : (o.side.virtualOut q.denom - q.out).toInt =
      (o.side.virtualOut q.denom).toInt - q.out.toInt := toInt_sub_of_le out_pos.le out_le
  have added : Tradable (o.side.update q.denom o.amount q.afterFee q.out) →
      (o.side.virtualIn q.denom + q.afterFee).toInt =
        (o.side.virtualIn q.denom).toInt + q.afterFee.toInt := by
    intro tradable
    have fits := (quoted.tradable_iff.mp tradable).1
    rw [← quoted.afterFee_toInt] at fits
    exact toInt_add_exact (by omega) fits
  cases side : o.side with
  | buy =>
      rw [side] at moved taken added out_le
      have left : q.out.toInt < (o.side.virtualOut q.denom).toInt := by
        rw [quoted.out, output_lt_iff (by omega)]
        exact keeps side
      rw [side] at left in_pos
      refine ⟨_, _, by omega, sub_pos.mpr left, moved, fun tradable => ⟨?_, taken.symm⟩⟩
      exact (added tradable).symm
  | sell =>
      rw [side] at moved taken added out_le in_pos
      rw [margin_comm] at moved
      refine ⟨_, _, sub_nonneg.mpr out_le, by omega, moved, fun tradable => ⟨taken.symm, ?_⟩⟩
      exact (added tradable).symm

/-! ## Whole sessions -/

def OwnTrade (k : Keeper β α) (signer denom : String) (s : Chain β) (a : Action α) : Prop :=
  ∃ o, a.order? = some o ∧ o.signer = signer ∧ o.denom = denom ∧
    accepts (tradeWithBondingCurve k o) s

def KeepsTokens (s : Chain β) (a : Action α) : Prop :=
  ∀ (o : Order) (d : Denom), a.order? = some o → o.side = .buy → s.denom[o.denom]? = some d →
    d.virtualFandomReserves.toInt + (o.amount.toInt - o.amount.toInt / 100) ≤
      d.virtualFandomReserves.toInt * d.virtualTokenReserves.toInt

def sessionCushion (view : BankView β α) (start : Chain β) (trader : α) (denom : String)
    (s : Chain β) (a : Action α) : ℤ :=
  match a.order?, s.denom[denom]? with
  | some o, some d => cushion o.side d (gains view start s trader denom) o.amount.toInt
  | _, _ => 0

theorem OwnTrade.reserves (law : Lawful k view m) {s : Chain β} (start : Chain β)
    {a : Action α} {signer denom : String} {trader : α} {d : Denom} (own : OwnTrade k signer denom s a)
    (keeps : KeepsTokens s a) (keyed : Keyed s) (found : s.denom[denom]? = some d)
    (other : denom ≠ "fandomChain") (decoded : k.addressCodec.stringToBytes signer = .ok trader)
    (outside : trader ≠ m) :
    ∃ x y d', 0 ≤ x ∧ 0 < y ∧ (step k s a).denom[denom]? = some d' ∧
      margin x y (gain view start (step k s a) trader "fandomChain")
          (gain view start (step k s a) trader denom) =
        curveMargin d (gains view start s trader denom) + sessionCushion view start trader denom s a ∧
      (Tradable d' → x = d'.virtualFandomReserves.toInt ∧ y = d'.virtualTokenReserves.toInt) := by
  obtain ⟨o, order, rfl, rfl, accepted⟩ := own
  obtain ⟨q, traded⟩ := step_accepted order accepted
  obtain rfl := traded.quoted.record_eq found
  obtain rfl := traded.quoted.trader_eq decoded
  have name : q.denom.denom = o.denom := traded.quoted.name keyed
  have drained : o.side = .buy → (o.side.virtualIn q.denom).toInt + q.afterFee.toInt ≤
      (o.side.virtualIn q.denom).toInt * (o.side.virtualOut q.denom).toInt := by
    intro side
    rw [traded.quoted.afterFee_toInt, side]
    exact keeps o q.denom order side found
  obtain ⟨x, y, hx, hy, moved, recorded⟩ :=
    traded.reserves law start outside (name ▸ other) drained
  refine ⟨x, y, _, hx, hy, ?_, ?_, recorded⟩
  · rw [traded.getElem?_denom, if_pos name]
  · rw [name] at moved
    rw [moved, sessionCushion, order, found]

theorem session_margin (law : Lawful k view m) (start : Chain β) {s : Chain β} {a : Action α}
    {as : List (Action α)} {signer denom : String} {trader : α} {d : Denom} (keyed : Keyed s)
    (found : s.denom[denom]? = some d) (other : denom ≠ "fandomChain")
    (decoded : k.addressCodec.stringToBytes signer = .ok trader) (outside : trader ≠ m)
    (session : Along (step k) (OwnTrade k signer denom) s (a :: as))
    (keeps : Along (step k) KeepsTokens s (a :: as)) :
    ∃ x y, 0 ≤ x ∧ 0 < y ∧
      margin x y (gain view start ((a :: as).foldl (step k) s) trader "fandomChain")
          (gain view start ((a :: as).foldl (step k) s) trader denom) =
        curveMargin d (gains view start s trader denom) +
          sumAlong (step k) (sessionCushion view start trader denom) s (a :: as) := by
  obtain ⟨own, session⟩ := session
  obtain ⟨keep, keeps⟩ := keeps
  obtain ⟨x, y, d', hx, hy, stored, moved, recorded⟩ :=
    own.reserves law start keep keyed found other decoded outside
  induction as generalizing s a d x y d' with
  | nil =>
      refine ⟨x, y, hx, hy, ?_⟩
      simp only [List.foldl_cons, List.foldl_nil, sumAlong, add_zero]
      exact moved
  | cons b rest ih =>
      -- the next trade is accepted, so the reserves are the recorded ones
      obtain ⟨o, order, signed, rfl, accepted⟩ := session.1
      obtain ⟨q, _, traded⟩ := trade_accepts_iff.mp accepted
      obtain rfl := traded.quoted.record_eq stored
      obtain ⟨rfl, rfl⟩ := recorded traded.quoted.tradable
      have keyed' := keyed_step (k := k) keyed a
      have next : OwnTrade k signer o.denom (step k s a) b := ⟨o, order, signed, rfl, accepted⟩
      obtain ⟨x', y', d'', hx', hy', stored', moved', recorded'⟩ :=
        next.reserves law start keeps.1 keyed' stored other decoded outside
      obtain ⟨x'', y'', hx'', hy'', total⟩ := ih keyed' stored next session.2 keeps.1 keeps.2 x' y'
        d'' hx' hy' stored' moved' recorded'
      refine ⟨x'', y'', hx'', hy'', ?_⟩
      have here : curveMargin q.denom (gains view start (step k s a) trader o.denom) =
          curveMargin d (gains view start s trader o.denom) +
            sessionCushion view start trader o.denom s a := by
        rw [← moved]
        rfl
      rw [here] at total
      simp only [List.foldl_cons, sumAlong] at total ⊢
      rw [total]
      ring

theorem own_session (law : Lawful k view m) {start : Chain β} {as : List (Action α)}
    {signer denom : String} (decoded : k.addressCodec.stringToBytes signer = .ok m)
    (session : Along (step k) (OwnTrade k signer denom) start as) (c : String) :
    gain view start (as.foldl (step k) start) m c = 0 := by
  have kept : view.balance (as.foldl (step k) start).bank m c = view.balance start.bank m c := by
    refine run_preserves (I := fun s => view.balance s.bank m c = view.balance start.bank m c)
      (fun s a h own => ?_) rfl session
    obtain ⟨o, order, rfl, -, accepted⟩ := own
    obtain ⟨q, traded⟩ := step_accepted order accepted
    have self : q.trader = m := traded.quoted.trader_eq decoded
    rw [traded.own_balance_eq law self]
    exact h
  exact sub_eq_zero.mpr kept

/-- A session that ends with no fewer tokens makes no profit as long as its weighted fees cover its
remainders, and a session that ends with the same tokens makes none only then. -/
theorem session_profit (law : Lawful k view m) {start : Chain β} (reached : Reached k start)
    {signer denom : String} {trader : α} (other : denom ≠ "fandomChain")
    (decoded : k.addressCodec.stringToBytes signer = .ok trader) {as : List (Action α)}
    (session : Along (step k) (OwnTrade k signer denom) start as)
    (keeps : Along (step k) KeepsTokens start as) :
    (0 ≤ sumAlong (step k) (sessionCushion view start trader denom) start as →
      0 ≤ gain view start (as.foldl (step k) start) trader denom →
      gain view start (as.foldl (step k) start) trader "fandomChain" ≤ 0) ∧
    (trader ≠ m → gain view start (as.foldl (step k) start) trader denom = 0 →
      (gain view start (as.foldl (step k) start) trader "fandomChain" ≤ 0 ↔
        0 ≤ sumAlong (step k) (sessionCushion view start trader denom) start as)) := by
  cases as with
  | nil => simp [gain, sumAlong]
  | cons a rest =>
      by_cases outside : trader = m
      · subst outside
        refine ⟨fun _ _ => (own_session law decoded session _).le, fun away => absurd rfl away⟩
      · obtain ⟨o, _, _, named, accepted⟩ := session.1
        obtain ⟨q, _, traded⟩ := trade_accepts_iff.mp accepted
        have found : start.denom[denom]? = some q.denom := named ▸ traded.quoted.found
        obtain ⟨x, y, hx, hy, total⟩ := session_margin law start reached.keyed found other decoded
          outside session keeps
        have opening : curveMargin q.denom (gains view start start trader denom) = 0 := by
          simp [curveMargin, gains, gain, margin]
        rw [opening, zero_add] at total
        refine ⟨fun covered tokens => ?_, fun _ flat => ?_⟩
        · exact not_ahead (total ▸ covered) hx tokens (by omega)
        · rw [flat] at total
          rw [← total]
          exact ahead_iff_of_flat hy

theorem large_session_pays :
    gain Ledger.view newMarket
      ([buying "alice" "rose" 1000000, selling "alice" "rose" 1000000].foldl (step Ledger.keeper)
        newMarket) "alice" "fandomChain" ≤ 0 := by
  have other : "rose" ≠ "fandomChain" := by decide
  have decoded : Ledger.keeper.addressCodec.stringToBytes "alice" = .ok "alice" := rfl
  have session : Along (step Ledger.keeper) (OwnTrade Ledger.keeper "alice" "rose") newMarket
      [buying "alice" "rose" 1000000, selling "alice" "rose" 1000000] :=
    ⟨⟨_, rfl, rfl, rfl, by decide +kernel⟩, ⟨_, rfl, rfl, rfl, by decide +kernel⟩, trivial⟩
  have keeps : Along (step Ledger.keeper) KeepsTokens newMarket
      [buying "alice" "rose" 1000000, selling "alice" "rose" 1000000] := by
    refine ⟨?_, ?_, trivial⟩
    · intro o d order _ found
      cases order
      obtain rfl := newMarket_rose found
      decide
    · intro o d order side
      cases order
      cases side
  have profit := session_profit Ledger.lawful newMarket_reached other decoded session keeps
  exact profit.1 (by decide +kernel) (by decide +kernel)

/-- At a price of just over 33 tokens a buyer of one coin gets 34, and 34 tokens sell for two. -/
theorem rounding_profit :
    let start := step Ledger.keeper newMarket (buying "alice" "rose" 1000)
    let session := [buying "bob" "rose" 1, selling "bob" "rose" 34]
    Reached Ledger.keeper start ∧
      Along (step Ledger.keeper) (OwnTrade Ledger.keeper "bob" "rose") start session ∧
      gain Ledger.view start (session.foldl (step Ledger.keeper) start) "bob" "rose" = 0 ∧
      gain Ledger.view start (session.foldl (step Ledger.keeper) start) "bob" "fandomChain" = 1 := by
  intro start session
  have reached : Reached Ledger.keeper start :=
    ⟨opening, [creation "bob" "rose", buying "alice" "rose" 1000], opening_empty,
      ⟨trivial, trivial, trivial⟩, rfl⟩
  have accepted : Along (step Ledger.keeper) (OwnTrade Ledger.keeper "bob" "rose") start session :=
    ⟨⟨_, rfl, rfl, rfl, by decide +kernel⟩, ⟨_, rfl, rfl, rfl, by decide +kernel⟩, trivial⟩
  exact ⟨reached, accepted, by decide +kernel, by decide +kernel⟩

end Fandomchain.Proof
