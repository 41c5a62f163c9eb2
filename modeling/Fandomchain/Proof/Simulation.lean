import Fandomchain.Proof.Panic
import Fandomchain.Proof.RoundTrip
import Fandomchain.Tokenfactory.Simulation

/-!
# What the simulation covers

The simulation names its tokens by numbers, of which no coin can be minted, and the records that it
starts from have no curve. So it never gets through any handler of the module but the one for the
parameters.
-/

namespace Fandomchain.Proof
open Library Tokenfactory Tokenfactory.Simulation

variable {β α : Type} {k : Keeper β α}

/-! ## Numbers as names -/

theorem not_isAlpha_of_isDigit {c : Char} (digit : c.isDigit) : ¬c.isAlpha := by
  simp only [Char.isDigit, Char.isAlpha, Char.isUpper, Char.isLower, Bool.or_eq_true,
    Bool.and_eq_true, decide_eq_true_eq, ge_iff_le, UInt32.le_iff_toNat_le] at digit ⊢
  have nine : '9'.val.toNat = 57 := rfl
  have upper : 'A'.val.toNat = 65 := rfl
  have lower : 'a'.val.toNat = 97 := rfl
  omega

theorem number_invalid (i : ℕ) : ¬isValidDenom (toString i) := by
  have digits : ∀ c ∈ (toString i).toList, c.isDigit := by
    intro c mem
    exact Nat.isDigit_of_mem_toDigits (by norm_num) le_rfl (Nat.toList_repr ▸ mem)
  unfold isValidDenom
  cases split : (toString i).toList with
  | nil => simp
  | cons head tail =>
      have first := not_isAlpha_of_isDigit (digits head (split ▸ List.mem_cons_self))
      simp [first]

theorem zero_eq_number {i : ℕ} : "0" = toString i ↔ 0 = i := by
  have zero : Nat.repr 0 = "0" := rfl
  rw [← zero]
  exact Nat.repr_inj

theorem one_eq_number {i : ℕ} : "1" = toString i ↔ 1 = i := by
  have one : Nat.repr 1 = "1" := rfl
  rw [← one]
  exact Nat.repr_inj

/-! ## One operation -/

theorem number_not_created {s s' : Chain β} {msg : MsgCreateDenom} {i : ℕ}
    (name : msg.denom = toString i) : ¬Created k msg s s' := by
  intro created
  have valid := created.coin_valid
  rw [name] at valid
  exact number_invalid i valid

def Closed (d : Denom) : Prop := ¬d.bondingCurveEnabled

theorem not_accepts_of_closed {s : Chain β} (closed : AllRecords Closed s) (o : Order) :
    ¬accepts (tradeWithBondingCurve k o) s := by
  intro accepted
  obtain ⟨q, s', traded⟩ := trade_accepts_iff.mp accepted
  exact closed _ _ traded.quoted.found traded.quoted.enabled

theorem delivered_panics {s : Chain β} {simAccount : String} {i : ℕ} {msg : MsgCreateDenom}
    (drawn : simulateMsgCreateDenom s simAccount i = .genAndDeliverTx msg)
    (owner : ∃ owner, k.addressCodec.stringToBytes simAccount = .ok owner) :
    Panics (createDenom k msg) s := by
  simp only [simulateMsgCreateDenom] at drawn
  split at drawn
  · cases drawn
  · rename_i fresh
    obtain rfl := Operation.genAndDeliverTx.inj drawn
    refine createDenom_panics_iff.mpr ⟨owner, ?_, number_invalid i⟩
    simpa using fresh

theorem generated_getElem? {t : Chain β} (empty : EmptyState t) (a b name : String) :
    (initGenesis t (generateGenesisState a b)).denom[name]? =
      if "1" = name then some (generatedDenom b "1")
      else if "0" = name then some (generatedDenom a "0") else none := by
  have rebuilt : (initGenesis t (generateGenesisState a b)).denom =
      ((∅ : DenomMap).insert "0" (generatedDenom a "0")).insert "1" (generatedDenom b "1") := by
    rw [← empty.denom]
    rfl
  rw [rebuilt, Std.ExtTreeMap.getElem?_insert, Std.ExtTreeMap.getElem?_insert]
  simp only [Std.LawfulEqCmp.compare_eq_iff_eq, Std.ExtTreeMap.getElem?_empty]

theorem generated_contains {t : Chain β} (empty : EmptyState t) (a b : String) (i : ℕ) :
    (initGenesis t (generateGenesisState a b)).denom.contains (toString i) = decide (i < 2) := by
  rw [Std.ExtTreeMap.contains_eq_isSome_getElem?, generated_getElem? empty]
  simp only [zero_eq_number, one_eq_number]
  split_ifs with one zero
  · simp [← one]
  · simp [← zero]
  · have large : ¬i < 2 := by omega
    simp [large]

theorem generated_closed {t : Chain β} (empty : EmptyState t) (a b : String) :
    AllRecords Closed (initGenesis t (generateGenesisState a b)) := by
  intro name d found
  rw [generated_getElem? empty] at found
  split_ifs at found <;> cases found <;> exact Bool.false_ne_true

variable [DecidableEq α]

theorem simulate_operation (s : Chain β) (simAccount : String) (i : ℕ) :
    simulate k s (.operation simAccount i) = s := by
  unfold simulate simulateMsgCreateDenom
  by_cases found : s.denom.contains (toString i)
  · simp only [found, if_true]
  · simp only [found, if_false, Bool.false_eq_true]
    apply step_createDenom_of_not_created
    rintro ⟨s', created⟩
    exact number_not_created rfl created

/-! ## Runs -/

def actionOf : Simulation.Event α → Option (Action α)
  | .operation _ _ => none
  | .act a => some a

theorem simulated_run (s : Chain β) (events : List (Simulation.Event α)) :
    events.foldl (simulate k) s = (events.filterMap actionOf).foldl (step k) s := by
  induction events generalizing s with
  | nil => rfl
  | cons event rest ih =>
      cases event with
      | operation simAccount i =>
          rw [List.foldl_cons, simulate_operation]
          exact ih s
      | act a => exact ih (step k s a)

structure Idle (start s : Chain β) : Prop where
  params : s.params = start.params
  denom : s.denom = start.denom
  port : s.port = start.port

theorem idle_step {start s : Chain β} (set : start.params = some {})
    (closed : AllRecords Closed start) (h : Idle start s)
    {a : Action α} (other : ∀ msg, a ≠ .createDenom msg) : Idle start (step k s a) := by
  have closed' : AllRecords Closed s := fun key d found => closed key d (h.denom ▸ found)
  have stepped := step_stepped (k := k) s a
  generalize step k s a = s' at stepped ⊢
  cases stepped with
  | rejected => exact h
  | created created => exact absurd rfl (other _)
  | traded order traded =>
      exact absurd (trade_accepts_iff.mpr ⟨_, _, traded⟩) (not_accepts_of_closed closed' _)
  | updated req => exact ⟨set.symm, h.denom, h.port⟩
  | transferred sent => exact ⟨h.params, h.denom, h.port⟩

/-- In a simulation of the module an operation on the numbers 0 and 1 does nothing and on any other
number panics; no trade is ever accepted, and the store stays that of the start. -/
theorem simulation_idle {a b : String} {t : Chain β} (empty : EmptyState t)
    {events : List (Simulation.Event α)}
    (other : ∀ event ∈ events, ∀ msg, event ≠ .act (.createDenom msg)) :
    let start := initGenesis t (generateGenesisState a b)
    let s := events.foldl (simulate k) start
    (s.params = start.params ∧ s.denom = start.denom ∧ s.port = start.port) ∧
      (∀ simAccount i, simulate k s (.operation simAccount i) = s ∧
        (i < 2 → simulateMsgCreateDenom s simAccount i = .noOpMsg "Denom already exist") ∧
        (2 ≤ i → ∃ msg, simulateMsgCreateDenom s simAccount i = .genAndDeliverTx msg ∧
          ((∃ owner, k.addressCodec.stringToBytes simAccount = .ok owner) →
            Panics (createDenom k msg) s))) ∧
      ∀ o, ¬accepts (tradeWithBondingCurve k o) s := by
  intro start s
  have closed := generated_closed empty a b
  have idle : Idle start s := by
    refine run_preserves (P := fun _ event => ∀ msg, event ≠ .act (.createDenom msg)) ?_ ⟨rfl, rfl, rfl⟩
      (along_of_forall_mem other)
    intro u event h other
    cases event with
    | operation simAccount i =>
        rw [simulate_operation]
        exact h
    | act a => exact idle_step rfl closed h fun msg same => other msg (congrArg _ same)
  have found : ∀ i : ℕ, s.denom.contains (toString i) = decide (i < 2) := by
    intro i
    rw [idle.denom, generated_contains empty]
  refine ⟨⟨idle.params, idle.denom, idle.port⟩,
    fun simAccount i => ⟨simulate_operation s simAccount i, ?_, ?_⟩, ?_⟩
  · intro small
    simp only [simulateMsgCreateDenom, found, small, decide_true, if_true]
  · intro large
    have drawn : simulateMsgCreateDenom s simAccount i =
        .genAndDeliverTx ⟨simAccount, toString i, "", "", ""⟩ := by
      simp only [simulateMsgCreateDenom, found, not_lt.mpr large, decide_false, if_false,
        Bool.false_eq_true]
    exact ⟨_, drawn, delivered_panics drawn⟩
  · exact not_accepts_of_closed fun key d there => closed key d (idle.denom ▸ there)

theorem blank_simulation_idle :
    let start := initGenesis blank (generateGenesisState "alice" "bob")
    let s := [.operation "bob" 7, .act (buying "alice" "0" 1000), .operation "bob" 1].foldl
      (simulate Ledger.keeper) start
    (s.params = start.params ∧ s.denom = start.denom ∧ s.port = start.port) ∧
      simulateMsgCreateDenom s "bob" 1 = .noOpMsg "Denom already exist" ∧
      (∃ msg, simulateMsgCreateDenom s "bob" 7 = .genAndDeliverTx msg ∧
        Panics (createDenom Ledger.keeper msg) s) ∧
      ¬accepts (tradeWithBondingCurve Ledger.keeper ⟨.buy, "alice", "0", 1000, 0⟩) s := by
  intro start s
  have other : ∀ event ∈ [Simulation.Event.operation "bob" 7, .act (buying "alice" "0" 1000),
      .operation "bob" 1], ∀ msg, event ≠ .act (.createDenom msg) := by simp [buying]
  obtain ⟨store, operations, closed⟩ := simulation_idle (k := Ledger.keeper) (t := blank)
    (a := "alice") (b := "bob") ⟨rfl, rfl, rfl⟩ other
  obtain ⟨msg, drawn, panics⟩ := (operations "bob" 7).2.2 (by decide)
  exact ⟨store, (operations "bob" 1).2.1 (by decide), ⟨msg, drawn, panics ⟨"bob", rfl⟩⟩, closed _⟩

end Fandomchain.Proof
