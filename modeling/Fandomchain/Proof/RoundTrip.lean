import Fandomchain.Proof.Effects
import Fandomchain.Tokenfactory.Genesis

/-!
# Genesis round trips

An export drops the keys of the store and an import takes them from the records. Nothing is lost as
long as every record sits under its own name, which every handler keeps.
-/

namespace Fandomchain.Proof
open Fandomchain.Library Fandomchain.Tokenfactory

variable {β α : Type} {k : Keeper β α}

structure EmptyState (s : Chain β) : Prop where
  params : s.params = none
  port : s.port = none
  denom : s.denom = ∅

def sortedByDenom (denoms : List Denom) : List Denom :=
  denoms.mergeSort fun a b => decide (a.denom ≤ b.denom)

theorem sortedByDenom_pairwise (denoms : List Denom) :
    (sortedByDenom denoms).Pairwise (fun a b => a.denom ≤ b.denom) := by
  have sorted : (sortedByDenom denoms).Pairwise (fun a b => decide (a.denom ≤ b.denom)) := by
    refine List.pairwise_mergeSort ?_ ?_ denoms
    · intro a b c hab hbc
      simp only [decide_eq_true_eq] at hab hbc ⊢
      exact hab.trans hbc
    · intro a b
      simp only [Bool.or_eq_true, decide_eq_true_eq]
      exact le_total _ _
  exact sorted.imp fun h => of_decide_eq_true h

theorem eq_sortedByDenom {listed denoms : List Denom} (perm : listed.Perm denoms)
    (ordered : listed.Pairwise fun a b => a.denom < b.denom) :
    listed = sortedByDenom denoms := by
  have same : listed.Perm (sortedByDenom denoms) :=
    perm.trans (List.mergeSort_perm denoms _).symm
  have distinct : ∀ a ∈ listed, ∀ b ∈ listed, a.denom = b.denom → a = b := by
    have nodup : (listed.map Denom.denom).Nodup := by
      rw [List.nodup_iff_pairwise_ne, List.pairwise_map]
      exact ordered.imp fun lt => lt.ne
    intro a ha b hb
    exact List.inj_on_of_nodup_map nodup ha hb
  refine same.eq_of_pairwise ?_ (ordered.imp fun lt => lt.le) (sortedByDenom_pairwise denoms)
  intro a b ha hb hab hba
  exact distinct a ha b (same.mem_iff.mpr hb) (le_antisymm hab hba)

theorem values_initGenesis {s : Chain β} (empty : EmptyState s) {g : GenesisState}
    (distinct : (g.denomMap.map Denom.denom).Nodup) :
    values (initGenesis s g).denom = sortedByDenom g.denomMap := by
  have rebuilt : (initGenesis s g).denom = insertAll Denom.denom ∅ g.denomMap := by
    rw [← empty.denom]
    rfl
  rw [rebuilt]
  refine eq_sortedByDenom (values_insertAll_perm distinct) ?_
  refine (values_ordered (insertAll_selfKeyed _ _ (selfKeyed_empty _))).imp fun lt => ?_
  exact compare_lt_iff_lt.mp lt

theorem export_initGenesis (portIdentifierValidator : String → Except String Unit)
    {g : GenesisState} (valid : g.validate portIdentifierValidator = .ok ()) {s : Chain β}
    (empty : EmptyState s) : exportGenesis (initGenesis s g) =
      .ok { params := g.params, denomMap := sortedByDenom g.denomMap, portId := g.portId } := by
  have listed := values_initGenesis empty (validate_eq_ok.mp valid).2
  simp only [exportGenesis, initGenesis, defaultGenesis, Option.getD_some, List.nil_append]
  rw [← listed]
  rfl

/-! ## From any reachable state -/

structure Exportable (portIdentifierValidator : String → Except String Unit) (s : Chain β) :
    Prop where
  keyed : Keyed s
  params : ∃ params, s.params = some params
  port : ∃ portId, s.port = some portId ∧ portIdentifierValidator portId = .ok ()

theorem exportable_initGenesis {portIdentifierValidator : String → Except String Unit}
    {g : GenesisState} (valid : g.validate portIdentifierValidator = .ok ()) {s : Chain β}
    (empty : EmptyState s) : Exportable portIdentifierValidator (initGenesis s g) := by
  refine ⟨?_, ⟨g.params, rfl⟩, ⟨g.portId, rfl, (validate_eq_ok.mp valid).1⟩⟩
  refine insertAll_selfKeyed Denom.denom g.denomMap ?_
  exact keyed_of_empty empty.denom

theorem exportable_step [DecidableEq α] {portIdentifierValidator : String → Except String Unit}
    {s : Chain β} (h : Exportable portIdentifierValidator s) (a : Action α) :
    Exportable portIdentifierValidator (step k s a) := by
  refine ⟨keyed_step h.keyed a, ?_, ?_⟩
  · have stepped := step_stepped (k := k) s a
    generalize step k s a = s' at stepped ⊢
    cases stepped with
    | rejected => exact h.params
    | created created =>
        obtain ⟨bank, -, rfl⟩ := created.minted
        exact h.params
    | traded order traded =>
        obtain ⟨paid, bank, -, -, rfl⟩ := traded.sent
        exact h.params
    | updated req => exact ⟨req.params, rfl⟩
    | transferred sent => exact h.params
  · have stepped := step_stepped (k := k) s a
    generalize step k s a = s' at stepped ⊢
    cases stepped with
    | rejected => exact h.port
    | created created =>
        obtain ⟨bank, -, rfl⟩ := created.minted
        exact h.port
    | traded order traded =>
        obtain ⟨paid, bank, -, -, rfl⟩ := traded.sent
        exact h.port
    | updated req => exact h.port
    | transferred sent => exact h.port

theorem Exportable.roundTrip {portIdentifierValidator : String → Except String Unit} {s : Chain β}
    (h : Exportable portIdentifierValidator s) :
    ∃ g, exportGenesis s = .ok g ∧ g.validate portIdentifierValidator = .ok () ∧
      ∀ t : Chain β, EmptyState t → (initGenesis t g).params = s.params ∧
        (initGenesis t g).port = s.port ∧ (initGenesis t g).denom = s.denom := by
  obtain ⟨keyed, ⟨params, hparams⟩, portId, hport, valid⟩ := h
  refine ⟨⟨params, values s.denom, portId⟩, ?_, ?_, ?_⟩
  · simp only [exportGenesis, hparams, hport, defaultGenesis, Option.getD_some, List.nil_append]
  · exact validate_eq_ok.mpr ⟨valid, values_keys_nodup keyed⟩
  · intro t empty
    refine ⟨hparams.symm, hport.symm, ?_⟩
    have rebuilt : (initGenesis t ⟨params, values s.denom, portId⟩).denom =
        insertAll Denom.denom ∅ (values s.denom) := by
      rw [← empty.denom]
      rfl
    rw [rebuilt, insertAll_values keyed]

variable [DecidableEq α]

def ReachedFromGenesis (k : Keeper β α) (portIdentifierValidator : String → Except String Unit) :
    Chain β → Prop :=
  Reachable (step k)
    (fun s => ∃ g t, g.validate portIdentifierValidator = .ok () ∧ EmptyState t ∧
      s = initGenesis t g)
    (fun _ a => IsMessage a)

theorem ReachedFromGenesis.exportable {portIdentifierValidator : String → Except String Unit}
    {s : Chain β} (reached : ReachedFromGenesis k portIdentifierValidator s) :
    Exportable portIdentifierValidator s := by
  refine Reachable.invariant ?_ ?_ reached
  · rintro _ ⟨g, t, valid, empty, rfl⟩
    exact exportable_initGenesis valid empty
  · intro s a h _
    exact exportable_step h a

theorem genesis_round_trip (k : Keeper β α)
    (portIdentifierValidator : String → Except String Unit) :
    (∀ g : GenesisState, g.validate portIdentifierValidator = .ok () →
      ∀ s : Chain β, EmptyState s → exportGenesis (initGenesis s g) =
        .ok { g with denomMap := sortedByDenom g.denomMap }) ∧
    ∀ s : Chain β, ReachedFromGenesis k portIdentifierValidator s →
      (∀ (key : String) (d : Denom), s.denom[key]? = some d → d.denom = key) ∧
      ∃ g, exportGenesis s = .ok g ∧ g.validate portIdentifierValidator = .ok () ∧
        ∀ t : Chain β, EmptyState t → (initGenesis t g).params = s.params ∧
          (initGenesis t g).port = s.port ∧ (initGenesis t g).denom = s.denom := by
  refine ⟨?_, ?_⟩
  · intro g valid s empty
    exact export_initGenesis portIdentifierValidator valid empty
  · intro s reached
    exact ⟨reached.exportable.keyed, reached.exportable.roundTrip⟩

def twoFlowers : GenesisState where
  params := {}
  denomMap := [newDenom ⟨"bob", "tulip", "", "", ""⟩, newDenom ⟨"alice", "rose", "", "", ""⟩]
  portId := "tokenfactory"

def blank : Chain Ledger := ⟨none, none, ∅, opening.bank⟩

theorem twoFlowers_round_trip :
    exportGenesis (initGenesis blank twoFlowers) =
        .ok { twoFlowers with denomMap := sortedByDenom twoFlowers.denomMap } ∧
      let s := [creation "alice" "lily", buying "alice" "lily" 1000].foldl (step Ledger.keeper)
        (initGenesis blank twoFlowers)
      s.denom["lily"]?.map Denom.realFandomReserves = some 1000 ∧
        ∃ g, exportGenesis s = .ok g ∧ (initGenesis blank g).denom = s.denom := by
  have empty : EmptyState blank := ⟨rfl, rfl, rfl⟩
  have valid : twoFlowers.validate (fun _ => .ok ()) = .ok () := by decide
  have both := genesis_round_trip Ledger.keeper (fun _ => .ok ())
  refine ⟨both.1 twoFlowers valid blank empty, by decide +kernel, ?_⟩
  obtain ⟨-, g, exported, -, rebuilt⟩ := both.2 _
    ⟨_, [creation "alice" "lily", buying "alice" "lily" 1000],
      ⟨twoFlowers, blank, valid, empty, rfl⟩, ⟨trivial, trivial, trivial⟩, rfl⟩
  exact ⟨g, exported, (rebuilt blank empty).2.2⟩

end Fandomchain.Proof
