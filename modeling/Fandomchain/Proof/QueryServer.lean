import Fandomchain.Proof.Store
import Fandomchain.Tokenfactory.QueryServer

/-!
# What the queries serve

Whatever bytes a request names, the answer is the record that an export at that moment would list
under this name, or that there is none; no request finds bytes in the store that do not decode.
-/

namespace Fandomchain.Proof
open Library Tokenfactory Tokenfactory.KVStore

variable {β α : Type} {k : Keeper β α}

namespace Holds

variable {store : KVStore} {s : Chain β}

theorem getDenom_found (h : Holds store s) {name : String} {d : Denom}
    (found : s.denom[name]? = some d) (fits : (recordBytes d).length < 2 ^ 63) :
    store.getDenom (utf8 name) = .ok d.toPb := by
  have entry : store[denomKey ++ utf8 name]? = some (recordBytes d) := by
    rw [← recordKey, h.record, found]
    rfl
  rw [KVStore.getDenom, entry]
  show decoding Pb.denom (recordBytes d) = .ok d.toPb
  rw [decoding, recordBytes, MessageType.decode_encode fits]
  rfl

theorem getDenom_absent (h : Holds store s) {key : Bytes}
    (absent : ∀ name d, s.denom[name]? = some d → utf8 name ≠ key) :
    store.getDenom key = .error .notFound := by
  have front : denomKey.isPrefixOf (denomKey ++ key) := by simp
  rw [KVStore.getDenom]
  cases entry : store[denomKey ++ key]? with
  | none => rfl
  | some value =>
      obtain ⟨name, d, same, found, -⟩ := h.record_entry front entry
      exact absurd (List.append_cancel_left same).symm (absent name d found)

theorem queryGetDenom (h : Holds store s) (keyed : Keyed s)
    (fits : ∀ d ∈ values s.denom, (recordBytes d).length < 2 ^ 63) (key : Bytes) :
    (∃ d ∈ values s.denom, utf8 d.denom = key ∧ store.queryGetDenom (some ⟨key⟩) = .ok ⟨d.toPb⟩) ∨
      (∀ d ∈ values s.denom, utf8 d.denom ≠ key) ∧
        store.queryGetDenom (some ⟨key⟩) = .error ⟨.notFound, "not found"⟩ := by
  by_cases present : ∃ d ∈ values s.denom, utf8 d.denom = key
  · obtain ⟨d, mem, rfl⟩ := present
    obtain ⟨name, found⟩ := mem_values.mp mem
    rw [← keyed name d found] at found
    refine .inl ⟨d, mem, rfl, ?_⟩
    simp only [KVStore.queryGetDenom, h.getDenom_found found (fits d mem)]
  · have absent : ∀ d ∈ values s.denom, utf8 d.denom ≠ key := fun d mem same =>
      present ⟨d, mem, same⟩
    have missing := h.getDenom_absent fun name d found => by
      rw [← keyed name d found]
      exact absent d (mem_values.mpr ⟨name, found⟩)
    refine .inr ⟨absent, ?_⟩
    simp only [KVStore.queryGetDenom, missing]

end Holds

/-- On a state reached from a valid genesis, with the bytes of the store that holds it: what
`GetDenom` and `Params` answer is what an export lists. -/
theorem queries_serve_export [DecidableEq α] {portIdentifierValidator : String → Except String Unit}
    {s : Chain β} (reached : ReachedFromGenesis k portIdentifierValidator s)
    (fits : ∀ d ∈ values s.denom, (recordBytes d).length < 2 ^ 63) {store : KVStore}
    (holds : Holds store s) :
    ∃ g, store.exportGenesis = .ok g ∧ store.queryParams (some ⟨⟩) = .ok ⟨g.params⟩ ∧
      ∀ key : Bytes,
        (∀ d, store.queryGetDenom (some ⟨key⟩) = .ok ⟨d⟩ ↔ d ∈ g.denomMap ∧ d.denom = key) ∧
        ((∀ d ∈ g.denomMap, d.denom ≠ key) →
          store.queryGetDenom (some ⟨key⟩) = .error ⟨.notFound, "not found"⟩) := by
  have exportable := reached.exportable
  obtain ⟨params, set⟩ := exportable.params
  have exported : Tokenfactory.exportGenesis s = .ok ⟨params, values s.denom, s.port.getD ""⟩ := by
    rw [Tokenfactory.exportGenesis, set]
    rfl
  refine ⟨_, holds.exportGenesis exported fits, ?_, fun key => ?_⟩
  · rw [queryParams, holds.getParams set]
  · simp only [GenesisState.toPb, List.mem_map]
    rcases holds.queryGetDenom exportable.keyed fits key with
      ⟨d, mem, same, answer⟩ | ⟨absent, answer⟩
    · refine ⟨fun e => ?_, fun unlisted => absurd same (unlisted _ ⟨d, mem, rfl⟩)⟩
      rw [answer, Except.ok.injEq, QueryGetDenomResponse.mk.injEq]
      constructor
      · rintro rfl
        exact ⟨⟨d, mem, rfl⟩, same⟩
      · rintro ⟨⟨e, mem', rfl⟩, same'⟩
        have names : d.denom = e.denom := utf8_inj.mp (same.trans same'.symm)
        rw [List.inj_on_of_nodup_map (values_keys_nodup exportable.keyed) mem mem' names]
    · refine ⟨fun e => ?_, fun _ => answer⟩
      rw [answer]
      simp only [reduceCtorEq, false_iff, not_and]
      rintro ⟨e, mem, rfl⟩
      exact absent e mem

theorem twoFlowers_served : ∃ store g, Holds store (initGenesis blank twoFlowers) ∧
    store.exportGenesis = .ok g ∧ store.queryParams (some ⟨⟩) = .ok ⟨g.params⟩ ∧
      ∀ d, store.queryGetDenom (some ⟨utf8 "rose"⟩) = .ok ⟨d⟩ ↔
        d ∈ g.denomMap ∧ d.denom = utf8 "rose" := by
  obtain ⟨store, -, holds⟩ := (holds_empty (s := blank) ⟨rfl, rfl, rfl⟩).initGenesis twoFlowers
  obtain ⟨g, exported, params, served⟩ :=
    queries_serve_export twoFlowers_reached (fun d mem => twoFlowers_fits mem) holds
  exact ⟨store, g, holds, exported, params, (served _).1⟩

end Fandomchain.Proof
