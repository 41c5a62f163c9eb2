import Fandomchain.Proof.Acceptance

/-!
# Panics

A handler panics in a call of the SDK or not at all. Three of the four kinds of calls are guarded by
the checks before them; a name that is no valid denom and a balance beyond `int64` are not.
-/

namespace Fandomchain.Proof
open Fandomchain.Library Fandomchain.Tokenfactory

variable {β α : Type} {k : Keeper β α} {view : BankView β α} {m : α}

/-! ## How a panic passes through -/

def Panicked {ε ρ : Type} (x : Except (Fault ε) ρ) : Prop := ∃ reason, x = .error (.panic reason)

def Panics {ρ : Type} (handler : HandlerM β ρ) (s : Chain β) : Prop :=
  ∃ reason s', handler.run s = .error (.panic reason) s'

theorem panicked_bind {ε ρ τ : Type} {x : Except (Fault ε) ρ} {f : ρ → Except (Fault ε) τ} :
    Panicked (x >>= f) ↔ Panicked x ∨ ∃ r, x = .ok r ∧ Panicked (f r) := by
  cases x <;> simp [Panicked, bind, Except.bind]

theorem panicked_pure {ε ρ : Type} {r : ρ} : ¬Panicked (pure r : Except (Fault ε) ρ) := by
  simp [Panicked, pure, Except.pure]

theorem panicked_wrapping {ρ : Type} {cause : Cause} {text : String → String}
    {x : Except (Fault String) ρ} : Panicked (wrapping cause text x) ↔ Panicked x := by
  rcases x with (_ | _) | _ <;> simp [Panicked, wrapping, wrap]

theorem panicked_plain {ρ : Type} {x : Except String ρ} : ¬Panicked (plain x) := by
  cases x <;> simp [Panicked, plain, Except.mapError]

theorem panicked_failIf {cond : Prop} [Decidable cond] {cause : Cause} {description : String} :
    ¬Panicked (failIf cond (wrap cause description)) := by
  unfold failIf
  split <;> simp [Panicked, wrap]

theorem panicked_getDenom {s : Chain β} {denom : String} : ¬Panicked (k.getDenom s denom) := by
  unfold Keeper.getDenom
  cases s.denom[denom]? <;> simp [Panicked, wrap]

theorem panicked_getModuleAddr : ¬Panicked k.getModuleAddr := by
  unfold Keeper.getModuleAddr
  cases k.authKeeper.getModuleAddress "tokenfactory" <;> simp [Panicked, wrap]

theorem panicked_amountOf {coins : Coins} {denom : String} :
    Panicked (amountOf coins denom) ↔ ¬isValidDenom denom := by
  unfold amountOf
  split <;> simp_all [Panicked]

theorem panicked_newCoin {denom : String} {amount : ℤ} :
    Panicked (newCoin denom amount) ↔ ¬(isValidDenom denom ∧ 0 ≤ amount) := by
  unfold newCoin
  by_cases valid : isValidDenom denom
  · by_cases negative : amount < 0
    · simp [Panicked, valid, negative]
    · have nonneg := not_lt.mp negative
      simp [Panicked, valid, negative, nonneg]
  · simp [Panicked, valid]

theorem panicked_toInt64 {ε : Type} {a : ℤ} :
    Panicked (toInt64 (ε := ε) a) ↔ ¬(-2 ^ 63 ≤ a ∧ a < 2 ^ 63) := by
  unfold toInt64
  split <;> simp_all [Panicked]

theorem panics_bind {ρ τ : Type} {x : HandlerM β ρ} {f : ρ → HandlerM β τ} {s : Chain β} :
    Panics (x >>= f) s ↔ Panics x s ∨ ∃ r s', x.run s = .ok r s' ∧ Panics (f r) s' := by
  unfold Panics
  simp only [bind_run_eq_error]
  constructor
  · rintro ⟨reason, s', failed | ⟨r, s₁, returned, failed⟩⟩
    · exact .inl ⟨reason, s', failed⟩
    · exact .inr ⟨r, s₁, returned, reason, s', failed⟩
  · rintro (⟨reason, s', failed⟩ | ⟨r, s₁, returned, reason, s', failed⟩)
    · exact ⟨reason, s', .inl failed⟩
    · exact ⟨reason, s', .inr ⟨r, s₁, returned, failed⟩⟩

theorem panics_ofExcept {ρ : Type} {x : Except (Fault Err) ρ} {s : Chain β} :
    Panics (MonadExcept.ofExcept x : HandlerM β ρ) s ↔ Panicked x := by
  unfold Panics Panicked
  simp only [ofExcept_run]
  cases x <;> simp

theorem panics_pure {ρ : Type} {r : ρ} {s : Chain β} : ¬Panics (pure r : HandlerM β ρ) s := by
  rintro ⟨_, _, run⟩
  cases run

theorem panics_get {s : Chain β} : ¬Panics (get : HandlerM β (Chain β)) s := by
  rintro ⟨_, _, run⟩
  cases run

theorem panics_set {s t : Chain β} : ¬Panics (set t : HandlerM β PUnit) s := by
  rintro ⟨_, _, run⟩
  cases run

theorem panics_modify {f : Chain β → Chain β} {s : Chain β} :
    ¬Panics (modify f : HandlerM β PUnit) s := by
  rintro ⟨_, _, run⟩
  cases run

theorem panics_sendCoins {src dst : α} {amt : Coins} {failure : String} {s : Chain β} :
    ¬Panics (sendCoins k src dst amt failure) s := by
  unfold sendCoins
  rw [panics_bind]
  rintro (read | ⟨t, s', -, sent⟩)
  · exact panics_get read
  · split at sent
    · exact panics_set sent
    · obtain ⟨_, _, run⟩ := sent
      cases run

theorem panics_mintCoins {amt : Coins} {s : Chain β} : ¬Panics (mintCoins k amt) s := by
  unfold mintCoins
  rw [panics_bind]
  rintro (read | ⟨t, s', -, minted⟩)
  · exact panics_get read
  · split at minted
    · exact panics_set minted
    · obtain ⟨_, _, run⟩ := minted
      cases run

theorem panicked_calculateOut {side : Side} {reserveIn reserveOut amountIn : Int64} :
    ¬Panicked (side.calculateOut reserveIn reserveOut amountIn) := by
  by_cases valid : 0 < reserveIn.toInt ∧ 0 < reserveOut.toInt ∧ 0 < amountIn.toInt
  · obtain ⟨n, priced⟩ := side.exists_calculateOut valid.1 valid.2.1 valid.2.2
    simp [Panicked, priced]
  · have invalid : reserveIn ≤ 0 ∨ reserveOut ≤ 0 ∨ amountIn ≤ 0 := by
      have zero : (0 : Int64).toInt = 0 := by decide
      simp only [Int64.le_iff_toInt_le, zero]
      omega
    cases side <;> simp [Panicked, Side.calculateOut, calculateTokensOut, calculateFandomOut,
      calculateOut, invalid, throw, throwThe, MonadExceptOf.throw, bind, Except.bind]

/-! ## The handlers -/

/-- The checks before the balance of the trader is read let the order pass. -/
structure ReadsBalance (o : Order) (d : Denom) : Prop where
  valid : validateTrade d o.amount o.side.isBuy = .ok ()
  slippage : (o.minOut.toInt - 1) * (o.side.virtualIn d).toInt <
    ((o.side.virtualOut d).toInt - (o.minOut.toInt - 1)) *
      (o.amount.toInt - o.amount.toInt / 100)
  reserve : ((o.side.virtualOut d).toInt - (o.side.realOut d).toInt) *
      (o.amount.toInt - o.amount.toInt / 100) ≤
    (o.side.realOut d).toInt * (o.side.virtualIn d).toInt

theorem readsBalance_iff {o : Order} {d : Denom} : ReadsBalance o d ↔
    validateTrade d o.amount o.side.isBuy = .ok () ∧ ∃ n,
      o.side.calculateOut (o.side.virtualIn d) (o.side.virtualOut d) (o.side.applyFee o.amount).1 =
        .ok n ∧
      validateSlippage n o.minOut = .ok () ∧ ¬n > o.side.realOut d := by
  have closed : ∀ n, Priced o.side d o.amount n →
      ((validateSlippage n o.minOut = .ok () ↔ (o.minOut.toInt - 1) * (o.side.virtualIn d).toInt <
        ((o.side.virtualOut d).toInt - (o.minOut.toInt - 1)) *
          (o.amount.toInt - o.amount.toInt / 100)) ∧
      (¬n > o.side.realOut d ↔ ((o.side.virtualOut d).toInt - (o.side.realOut d).toInt) *
        (o.amount.toInt - o.amount.toInt / 100) ≤
          (o.side.realOut d).toInt * (o.side.virtualIn d).toInt)) := by
    intro n priced
    rw [validateSlippage_eq_ok, gt_iff_lt, Int64.not_lt, Int64.le_iff_toInt_le, priced.le_iff,
      ← not_le, ← priced.le_iff, not_le, Int.sub_one_lt_iff]
    exact ⟨Iff.rfl, Iff.rfl⟩
  constructor
  · intro h
    obtain ⟨-, amount_pos, -, in_pos, out_pos⟩ := Side.validateTrade_eq_ok.mp h.valid
    obtain ⟨n, priced⟩ := exists_priced amount_pos in_pos out_pos
    obtain ⟨slippage, reserve⟩ := closed n priced
    exact ⟨h.valid, n, priced_iff.mp priced, slippage.mpr h.slippage, reserve.mpr h.reserve⟩
  · intro ⟨valid, n, calculated, met, covered⟩
    obtain ⟨slippage, reserve⟩ := closed n (priced_iff.mpr calculated)
    exact ⟨valid, slippage.mp met, reserve.mp covered⟩

def Overflows (k : Keeper β α) (s : Chain β) (o : Order) : Prop :=
  ∃ trader d, k.addressCodec.stringToBytes o.signer = .ok trader ∧ s.denom[o.denom]? = some d ∧
    ReadsBalance o d ∧
    2 ^ 63 ≤ amountOfNoDenomValidation (k.bankKeeper.spendableCoins s.bank trader) (o.side.coinIn d)

def Misnamed (k : Keeper β α) (s : Chain β) (msg : MsgCreateDenom) : Prop :=
  (∃ owner, k.addressCodec.stringToBytes msg.owner = .ok owner) ∧ s.denom[msg.denom]? = none ∧
    ¬isValidDenom msg.denom

theorem createDenom_panics_iff {s : Chain β} {msg : MsgCreateDenom} :
    Panics (createDenom k msg) s ↔ Misnamed k s msg := by
  simp only [createDenom, panics_bind, panics_ofExcept, panicked_wrapping, panicked_plain,
    panicked_failIf, panics_get, panics_set, panics_mintCoins, panicked_newCoin, false_or, and_false,
    exists_false, or_false,
    ofExcept_run_eq_ok, wrapping_eq_ok, plain_eq_ok, get_run_eq_ok, failIf_eq_ok, set_run_eq_ok,
    newDenom_denom, newDenom_realTokenReserves]
  constructor
  · rintro ⟨owner, _, ⟨decoded, rfl⟩, _, _, ⟨rfl, rfl⟩, _, _, ⟨fresh, rfl⟩, _, _, rfl, invalid⟩
    refine ⟨⟨owner, decoded⟩, by simpa using fresh, fun valid => invalid ⟨valid, by norm_num⟩⟩
  · rintro ⟨⟨owner, decoded⟩, fresh, invalid⟩
    exact ⟨owner, s, ⟨decoded, rfl⟩, s, s, ⟨rfl, rfl⟩, (), s, ⟨by simpa using fresh, rfl⟩, (), _, rfl,
      fun valid => invalid valid.1⟩

theorem buy_panics_iff {s : Chain β} {msg : MsgBuyWithBondingCurve} :
    Panics (buyWithBondingCurve k msg) s ↔ Panics (tradeWithBondingCurve k msg.order) s := by
  simp only [buyWithBondingCurve, panics_bind, panics_pure, and_false, exists_false, or_false]

theorem sell_panics_iff {s : Chain β} {msg : MsgSellWithBondingCurve} :
    Panics (sellWithBondingCurve k msg) s ↔ Panics (tradeWithBondingCurve k msg.order) s := by
  simp only [sellWithBondingCurve, panics_bind, panics_pure, and_false, exists_false, or_false]

variable [DecidableEq α]

theorem tradeChecks_panicked_iff (law : Lawful k view m) {s : Chain β}
    (issued : AllRecords Issued s) {o : Order} : Panicked (tradeChecks k o s) ↔ Overflows k s o := by
  simp only [tradeChecks, panicked_bind, panicked_wrapping, panicked_plain, panicked_failIf,
    panicked_getDenom, panicked_getModuleAddr, panicked_calculateOut, panicked_amountOf,
    panicked_toInt64, panicked_pure, false_or, and_false, exists_false, or_false, wrapping_eq_ok, plain_eq_ok, getDenom_eq_ok,
    failIf_eq_ok, amountOf_eq_ok]
  constructor
  · rintro ⟨trader, decoded, d, found, _, valid, n, priced, _, met, _, covered, read⟩
    refine ⟨trader, d, decoded, found, readsBalance_iff.mpr ⟨valid, n, priced, met, covered⟩, ?_⟩
    rcases read with invalid | ⟨_, ⟨-, rfl⟩, overflows⟩
    · exact absurd ((issued _ d found).coinIn_valid o.side) invalid
    · have nonneg := law.spendable_nonneg s.bank trader (o.side.coinIn d)
      omega
  · rintro ⟨trader, d, decoded, found, reads, overflows⟩
    obtain ⟨valid, n, priced, met, covered⟩ := readsBalance_iff.mp reads
    refine ⟨trader, decoded, d, found, (), valid, n, priced, (), met, (), covered, .inr ?_⟩
    exact ⟨_, ⟨(issued _ d found).coinIn_valid o.side, rfl⟩, fun fits => fits.2.not_ge overflows⟩

theorem trade_panics_iff (law : Lawful k view m) {s : Chain β} (issued : AllRecords Issued s)
    {o : Order} : Panics (tradeWithBondingCurve k o) s ↔ Overflows k s o := by
  rw [← tradeChecks_panicked_iff law issued]
  simp only [tradeWithBondingCurve, settleTrade, panics_bind, panics_ofExcept, panics_get,
    panics_sendCoins, panics_modify, panics_pure, panicked_newCoin, false_or, and_false, exists_false,
    or_false, get_run_eq_ok, ofExcept_run_eq_ok, sendCoins_run_eq_ok, tradeChecks_eq_ok]
  constructor
  · rintro ⟨_, _, ⟨rfl, rfl⟩, failed | ⟨q, _, ⟨quoted, rfl⟩, unnamed | ⟨_, _, -, _, _, -, unnamed⟩⟩⟩
    · exact failed
    · exact absurd ⟨quoted.coin_valid, quoted.amount_pos.le⟩ unnamed
    · have valid := (issued _ _ quoted.found).coinOut_valid o.side
      exact absurd ⟨valid, quoted.out_pos.le⟩ unnamed
  · intro failed
    exact ⟨s, s, ⟨rfl, rfl⟩, .inl failed⟩

/-! ## Runs -/

def Returns (k : Keeper β α) (s : Chain β) : Action α → Prop
  | .createDenom msg => ¬Panics (createDenom k msg) s
  | .buyWithBondingCurve msg => ¬Panics (buyWithBondingCurve k msg) s
  | .sellWithBondingCurve msg => ¬Panics (sellWithBondingCurve k msg) s
  | _ => True

def Guarded (k : Keeper β α) (s : Chain β) : Action α → Prop
  | .createDenom msg => ¬Misnamed k s msg
  | .buyWithBondingCurve msg => ¬Overflows k s msg.order
  | .sellWithBondingCurve msg => ¬Overflows k s msg.order
  | _ => True

theorem returns_iff (law : Lawful k view m) {s : Chain β} (issued : AllRecords Issued s)
    (a : Action α) : Returns k s a ↔ Guarded k s a := by
  cases a with
  | createDenom msg => exact not_congr createDenom_panics_iff
  | buyWithBondingCurve msg =>
      exact not_congr (buy_panics_iff.trans (trade_panics_iff law issued))
  | sellWithBondingCurve msg =>
      exact not_congr (sell_panics_iff.trans (trade_panics_iff law issued))
  | updateParams req => exact Iff.rfl
  | bankSend src dst amt => exact Iff.rfl

/-- In a run from any reachable state no handler panics exactly when no message creates a misnamed
coin and none that the record lets pass is checked against a balance beyond `int64`. -/
theorem handlers_return_iff (law : Lawful k view m) {s : Chain β} (reached : Reached k s)
    (as : List (Action α)) :
    Along (step k) (Returns k) s as ↔ Along (step k) (Guarded k) s as :=
  along_congr (fun _ a h => issued_step h a) (fun _ a h => returns_iff law h a) reached.issued

theorem named_creation_returns :
    Along (step Ledger.keeper) (Returns Ledger.keeper) opening
      [creation "alice" "rose", buying "alice" "rose" 1000, selling "alice" "rose" 70] := by
  refine (handlers_return_iff Ledger.lawful (Reachable.start opening_empty) _).mpr
    ⟨?_, ?_, ?_, trivial⟩
  · rintro ⟨-, -, invalid⟩
    exact absurd (by decide) invalid
  · rintro ⟨trader, d, signer, -, -, large⟩
    cases signer
    change _ ≤ amountOfNoDenomValidation _ "fandomChain" at large
    exact absurd large (by decide +kernel)
  · rintro ⟨trader, d, signer, found, -, large⟩
    cases signer
    have keyed := keyed_step (k := Ledger.keeper)
      (keyed_step (k := Ledger.keeper) (keyed_of_empty opening_empty) (creation "alice" "rose"))
      (buying "alice" "rose" 1000)
    change _ ≤ amountOfNoDenomValidation _ d.denom at large
    rw [keyed _ d found] at large
    exact absurd large (by decide +kernel)

def hoard : Chain Ledger where
  params := some defaultParams
  port := none
  denom := ∅
  bank := Ledger.ofBooks [⟨"alice", "fandomChain", 2 ^ 63⟩] (by decide)

/-- A coin named by one letter cannot be minted, and a balance of `2 ^ 63` cannot be checked. -/
theorem handlers_panic :
    let rich := step Ledger.keeper hoard (creation "alice" "rose")
    Reached Ledger.keeper opening ∧
      Panics (createDenom Ledger.keeper ⟨"alice", "x", "", "", ""⟩) opening ∧
      Reached Ledger.keeper rich ∧
      Panics (buyWithBondingCurve Ledger.keeper ⟨"alice", "rose", 1000, 0⟩) rich := by
  intro rich
  have opened : Reached Ledger.keeper opening := Reachable.start opening_empty
  have reached : Reached Ledger.keeper rich :=
    ⟨hoard, [creation "alice" "rose"], rfl, ⟨trivial, trivial⟩, rfl⟩
  have found : rich.denom["rose"]? = some (newDenom ⟨"alice", "rose", "", "", ""⟩) := by
    decide +kernel
  refine ⟨opened, createDenom_panics_iff.mpr ?_, reached, buy_panics_iff.mpr ?_⟩
  · exact ⟨⟨"alice", rfl⟩, rfl, by decide⟩
  · apply (trade_panics_iff Ledger.lawful reached.issued).mpr
    exact ⟨"alice", _, rfl, found, ⟨by decide, by decide, by decide⟩, by decide +kernel⟩

end Fandomchain.Proof
