import Fandomchain.Proof.RoundTrip

/-!
# Restarts

A chain that is exported and started again, any number of times and at any points of a run, is the
chain that was never stopped. An import need not be valid: of several records with one name it
keeps the last.
-/

namespace Fandomchain.Proof
open Fandomchain.Library Fandomchain.Tokenfactory

variable {β α : Type} {k : Keeper β α}

inductive Event (α : Type) where
  | act (a : Action α)
  | restart

def Event.action? : Event α → Option (Action α)
  | act a => some a
  | restart => none

/-- The module starts from an empty store; the bank comes back by its own genesis. -/
def restarted (s : Chain β) : Except String (Chain β) := do
  let genState ← exportGenesis s
  return initGenesis { params := none, port := none, denom := ∅, bank := s.bank } genState

def happen [DecidableEq α] (k : Keeper β α) (s : Chain β) : Event α → Except String (Chain β)
  | .act a => .ok (step k s a)
  | .restart => restarted s

theorem Exportable.restarted {portIdentifierValidator : String → Except String Unit} {s : Chain β}
    (h : Exportable portIdentifierValidator s) : restarted s = .ok s := by
  obtain ⟨g, exported, -, rebuilt⟩ := h.roundTrip
  obtain ⟨params, port, denom⟩ := rebuilt ⟨none, none, ∅, s.bank⟩ ⟨rfl, rfl, rfl⟩
  have same : initGenesis ⟨none, none, ∅, s.bank⟩ g = s := by
    calc initGenesis ⟨none, none, ∅, s.bank⟩ g
        = ⟨_, _, _, s.bank⟩ := rfl
      _ = ⟨s.params, s.port, s.denom, s.bank⟩ := by rw [← params, ← port, ← denom]; rfl
  rw [Proof.restarted, exported]
  exact congrArg Except.ok same

theorem restarts_invisible [DecidableEq α] {portIdentifierValidator : String → Except String Unit}
    {s : Chain β} (reached : ReachedFromGenesis k portIdentifierValidator s)
    (events : List (Event α)) :
    events.foldlM (happen k) s = .ok ((events.filterMap Event.action?).foldl (step k) s) := by
  have exportable := reached.exportable
  clear reached
  induction events generalizing s with
  | nil => rfl
  | cons event rest ih =>
      cases event with
      | act a => exact ih (exportable_step exportable a)
      | restart =>
          have once : (Event.restart :: rest).foldlM (happen k) s =
              (restarted s >>= fun s' => rest.foldlM (happen k) s') := rfl
          rw [once, exportable.restarted]
          exact ih exportable

theorem twoFlowers_restarted :
    let s := [creation "alice" "lily", buying "alice" "lily" 1000].foldl (step Ledger.keeper)
      (initGenesis blank twoFlowers)
    s.denom["lily"]?.map Denom.realFandomReserves = some 1000 ∧
      [Event.restart, .act (creation "alice" "lily"), .restart,
        .act (buying "alice" "lily" 1000), .restart, .restart].foldlM (happen Ledger.keeper)
          (initGenesis blank twoFlowers) = .ok s := by
  have reached : ReachedFromGenesis Ledger.keeper (fun _ => .ok ()) (initGenesis blank twoFlowers) :=
    ⟨_, [], ⟨twoFlowers, blank, by decide, ⟨rfl, rfl, rfl⟩, rfl⟩, trivial, rfl⟩
  exact ⟨by decide +kernel, restarts_invisible reached _⟩

/-! ## Any import -/

def lastNamed (denoms : List Denom) (name : String) : Option Denom :=
  (denoms.filter fun d => d.denom = name).getLast?

theorem import_keeps_last {t : Chain β} (empty : EmptyState t) (g : GenesisState) :
    (∀ name, (initGenesis t g).denom[name]? = lastNamed g.denomMap name) ∧
      ∃ g', exportGenesis (initGenesis t g) = .ok g' ∧
        g'.denomMap.Pairwise (fun a b => a.denom < b.denom) ∧
        (∀ d, d ∈ g'.denomMap ↔ lastNamed g.denomMap d.denom = some d) ∧
        initGenesis t g' = initGenesis t g := by
  have rebuilt : (initGenesis t g).denom = insertAll Denom.denom ∅ g.denomMap := by
    rw [← empty.denom]
    rfl
  have keyed : SelfKeyed Denom.denom (initGenesis t g).denom := by
    rw [rebuilt]
    exact insertAll_selfKeyed _ _ (selfKeyed_empty _)
  have last : ∀ name, (initGenesis t g).denom[name]? = lastNamed g.denomMap name := by
    intro name
    rw [rebuilt, insertAll_getElem?, Std.ExtTreeMap.getElem?_empty, Option.or_none]
    rfl
  refine ⟨last, ⟨g.params, values (initGenesis t g).denom, g.portId⟩, rfl, ?_, fun d => ?_, ?_⟩
  · exact (values_ordered keyed).imp fun lt => compare_lt_iff_lt.mp lt
  · rw [mem_values, ← last]
    constructor
    · rintro ⟨name, found⟩
      rwa [keyed name d found]
    · intro found
      exact ⟨d.denom, found⟩
  · have again : (initGenesis t ⟨g.params, values (initGenesis t g).denom, g.portId⟩).denom =
        insertAll Denom.denom ∅ (values (initGenesis t g).denom) := by
      rw [← empty.denom]
      rfl
    exact congrArg (fun denom => (⟨some g.params, some g.portId, denom, t.bank⟩ : Chain β))
      (again.trans (insertAll_values keyed))

/-- Two records under one name: the second is kept. -/
def twoRoses : GenesisState where
  params := {}
  denomMap := [newDenom ⟨"bob", "rose", "", "", ""⟩, newDenom ⟨"alice", "rose", "", "", ""⟩]
  portId := ""

theorem twoRoses_imported :
    (initGenesis blank twoRoses).denom["rose"]? = some (newDenom ⟨"alice", "rose", "", "", ""⟩) :=
  (import_keeps_last ⟨rfl, rfl, rfl⟩ twoRoses).1 "rose"

end Fandomchain.Proof
