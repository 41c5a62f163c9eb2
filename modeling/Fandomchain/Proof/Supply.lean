import Fandomchain.Proof.Effects

/-!
# Supplies

Only `CreateDenom` changes a supply, and it does so once for each name. It looks the name up among
its own records and not in the bank, so a coin that was there before is minted on top.
-/

namespace Fandomchain.Proof
open Fandomchain.Library Fandomchain.Tokenfactory

variable {β α : Type} [DecidableEq α] {k : Keeper β α} {view : BankView β α} {m : α}

/-- What the creation of a coin promises: the coin is new, the whole issue is with the module
account, and no other supply moves. -/
def IsolatesSupply (k : Keeper β α) (view : BankView β α) (m : α) (s : Chain β) (a : Action α) :
    Prop :=
  ∀ msg, a = .createDenom msg → accepts (createDenom k msg) s →
    view.supply s.bank msg.denom = 0 ∧
    view.supply (step k s a).bank msg.denom = initialRealTokenReserves.toInt ∧
    view.balance (step k s a).bank m msg.denom = initialRealTokenReserves.toInt ∧
    ∀ c, c ≠ msg.denom → view.supply (step k s a).bank c = view.supply s.bank c

def CreatesAbsentCoin (k : Keeper β α) (view : BankView β α) (start s : Chain β) (a : Action α) :
    Prop :=
  ∀ msg, a = .createDenom msg → accepts (createDenom k msg) s → view.supply start.bank msg.denom = 0

instance (start s : Chain β) (a : Action α) : Decidable (CreatesAbsentCoin k view start s a) :=
  match a with
  | .createDenom msg =>
      decidable_of_iff (accepts (createDenom k msg) s → view.supply start.bank msg.denom = 0)
        ⟨fun absent _ same => by cases same; exact absent, fun h => h msg rfl⟩
  | .buyWithBondingCurve _ | .sellWithBondingCurve _ | .updateParams _ | .bankSend _ _ _ =>
      isTrue fun _ other => by cases other

theorem supply_step (law : Lawful k view m) (s : Chain β) (a : Action α) (c : String) :
    view.supply (step k s a).bank c = view.supply s.bank c ∨
      ∃ msg, a = .createDenom msg ∧ msg.denom = c ∧ accepts (createDenom k msg) s := by
  have stepped := step_stepped (k := k) s a
  generalize result : step k s a = s' at stepped ⊢
  cases stepped with
  | rejected => exact .inl rfl
  | @created msg _ created =>
      by_cases same : msg.denom = c
      · exact .inr ⟨msg, rfl, same, createDenom_accepts_iff.mpr ⟨s', created⟩⟩
      · left
        rw [created.supply_eq law, if_neg (Ne.symm same), add_zero]
  | traded order traded =>
      left
      rw [traded.supply_eq law]
  | updated => exact .inl rfl
  | transferred sent =>
      left
      exact congrFun (law.send_supply _ _ _ _ _ sent) c

theorem record_kept {s : Chain β} {c : String} (a : Action α) (absent : (step k s a).denom[c]? = none) :
    s.denom[c]? = none := by
  have stepped := step_stepped (k := k) s a
  generalize step k s a = s' at stepped absent
  cases stepped with
  | rejected => exact absent
  | created created =>
      rw [created.denom_eq, Std.ExtTreeMap.getElem?_insert] at absent
      split at absent
      · cases absent
      · exact absent
  | traded order traded =>
      rw [traded.denom_eq, Std.ExtTreeMap.getElem?_insert] at absent
      split at absent
      · cases absent
      · exact absent
  | updated => exact absent
  | transferred sent => exact absent

def SupplyKept (view : BankView β α) (start s : Chain β) : Prop :=
  ∀ c : String, s.denom[c]? = none → view.supply s.bank c = view.supply start.bank c

theorem supplyKept_step (law : Lawful k view m) {start s : Chain β} (h : SupplyKept view start s)
    (a : Action α) : SupplyKept view start (step k s a) := by
  intro c absent
  have before := h c (record_kept a absent)
  rcases supply_step law s a c with same | ⟨msg, rfl, rfl, accepted⟩
  · exact same.trans before
  · rw [(step_created accepted).denom_eq] at absent
    simp at absent

theorem isolates_iff (law : Lawful k view m) {start s : Chain β} (h : SupplyKept view start s)
    (a : Action α) : IsolatesSupply k view m s a ↔ CreatesAbsentCoin k view start s a := by
  constructor
  · intro isolates msg creates accepted
    rw [← h msg.denom (step_created accepted).fresh]
    exact (isolates msg creates accepted).1
  · rintro absent msg rfl accepted
    have created := step_created accepted
    have issue : initialRealTokenReserves.toInt = 800000000000 := by decide
    have none_before : view.supply s.bank msg.denom = 0 :=
      (h msg.denom created.fresh).trans (absent msg rfl accepted)
    have none_held : view.balance s.bank m msg.denom = 0 := by
      have := law.balance_nonneg s.bank m msg.denom
      have := law.balance_le_supply m s.bank msg.denom
      omega
    rw [issue]
    refine ⟨none_before, ?_, ?_, ?_⟩
    · rw [created.supply_eq law, none_before, if_pos rfl, zero_add]
    · rw [created.balance_eq law, none_held, if_pos rfl, if_pos rfl, zero_add]
    · intro c other
      rw [created.supply_eq law, if_neg other, add_zero]

/-- Every creation of a run isolates its supply, and every coin that was there without a record
keeps its own, exactly when no creation of the run names a coin of the starting bank. -/
theorem supply_isolated_iff (law : Lawful k view m) (start : Chain β) (as : List (Action α)) :
    (Along (step k) (IsolatesSupply k view m) start as ∧
      ∀ c : String, start.denom[c]? = none → view.supply start.bank c ≠ 0 →
        Throughout (step k) (fun s => view.supply s.bank c = view.supply start.bank c) start as) ↔
    Along (step k) (CreatesAbsentCoin k view start) start as := by
  have kept : SupplyKept view start start := fun _ _ => rfl
  have same : Along (step k) (IsolatesSupply k view m) start as ↔
      Along (step k) (CreatesAbsentCoin k view start) start as :=
    along_congr (fun s a h => supplyKept_step law h a) (fun s a h => isolates_iff law h a) kept
  constructor
  · intro isolated
    exact same.mp isolated.1
  · intro absent
    refine ⟨same.mpr absent, fun c _ exists_before => ?_⟩
    refine throughout_of_preserves (fun s a h creates => ?_) rfl absent
    rcases supply_step law s a c with unchanged | ⟨msg, creation, name, accepted⟩
    · exact unchanged.trans h
    · exact absurd (name ▸ creates msg creation accepted) exists_before

theorem rose_supply_isolated :
    let as := [creation "alice" "rose", buying "alice" "rose" 1000, creation "bob" "rose"]
    Along (step Ledger.keeper) (IsolatesSupply Ledger.keeper Ledger.view "tokenfactory") opening as ∧
      ∀ c : String, opening.denom[c]? = none → Ledger.view.supply opening.bank c ≠ 0 →
        Throughout (step Ledger.keeper)
          (fun s => Ledger.view.supply s.bank c = Ledger.view.supply opening.bank c) opening as := by
  exact (supply_isolated_iff Ledger.lawful opening _).mpr (by decide +kernel)

/-- The staking coin is in the bank, so anybody can mint more of it. -/
theorem staking_coin_inflated :
    ReachedByMessages Ledger.keeper opening ∧
      ¬IsolatesSupply Ledger.keeper Ledger.view "tokenfactory" opening
        (creation "bob" "ufandomChain") ∧
      Ledger.view.supply opening.bank "ufandomChain" = 1000 ∧
      Ledger.view.supply (step Ledger.keeper opening (creation "bob" "ufandomChain")).bank
        "ufandomChain" = 800000001000 := by
  refine ⟨Reachable.start rfl, ?_, by decide, by decide +kernel⟩
  intro isolates
  have absent := (isolates _ rfl (by decide +kernel)).1
  revert absent
  decide

end Fandomchain.Proof
