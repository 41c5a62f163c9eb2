import Fandomchain.Proof.RoundTrip
import Fandomchain.Tokenfactory.Store

/-!
# The records and their bytes

A store holds a state when the items and the records of the state, encoded, are all it holds. The
handlers and the genesis functions on records are those on bytes under this relation, and no two
stores hold one state, so a chain that is restarted from its export has the store it had.
-/

namespace Fandomchain.Proof
open Library Tokenfactory Tokenfactory.KVStore

variable {β α : Type} {k : Keeper β α}

def recordKey (name : String) : Bytes := denomKey ++ utf8 name

def recordBytes (d : Denom) : Bytes := Pb.denom.encode d.toPb

structure Holds (store : KVStore) (s : Chain β) : Prop where
  params : store[paramsKey]? = s.params.map fun _ => []
  port : store[portKey]? = s.port.map utf8
  record : ∀ name : String, store[recordKey name]? = s.denom[name]?.map recordBytes
  nothing_else : ∀ key : Bytes, key ≠ paramsKey → key ≠ portKey →
    (∀ name, key ≠ recordKey name) → store[key]? = none

/-! ## The keys do not clash -/

theorem recordKey_inj {a b : String} : recordKey a = recordKey b ↔ a = b := by
  unfold recordKey
  rw [List.append_cancel_left_eq, utf8_inj]

theorem recordKey_isPrefixOf (name : String) : denomKey.isPrefixOf (recordKey name) := by
  simp [recordKey]

theorem params_ne_record (name : String) : paramsKey ≠ recordKey name := by
  intro same
  have front := recordKey_isPrefixOf name
  rw [← same] at front
  exact absurd front (by decide)

theorem port_ne_record (name : String) : portKey ≠ recordKey name := by
  intro same
  have front := recordKey_isPrefixOf name
  rw [← same] at front
  exact absurd front (by decide)

theorem params_ne_port : paramsKey ≠ portKey := by decide

theorem getElem?_insert_bytes (store : KVStore) (key value key' : Bytes) :
    (store.insert key value)[key']? = if key = key' then some value else store[key']? := by
  rw [Std.ExtTreeMap.getElem?_insert]
  simp only [Std.LawfulEqCmp.compare_eq_iff_eq]

/-! ## Writes -/

namespace Holds

variable {store : KVStore} {s : Chain β}

theorem unique {store' : KVStore} (h : Holds store s) (h' : Holds store' s) : store' = store := by
  apply Std.ExtTreeMap.ext_getElem?
  intro key
  by_cases params : key = paramsKey
  · rw [params, h.params, h'.params]
  by_cases port : key = portKey
  · rw [port, h.port, h'.port]
  by_cases record : ∃ name, key = recordKey name
  · obtain ⟨name, rfl⟩ := record
    rw [h.record, h'.record]
  · have other := not_exists.mp record
    rw [h.nothing_else key params port other, h'.nothing_else key params port other]

theorem insert_record (h : Holds store s) (name : String) (d : Denom) :
    Holds (store.insert (recordKey name) (recordBytes d))
      { s with denom := s.denom.insert name d } where
  params := by
    rw [getElem?_insert_bytes, if_neg (params_ne_record name).symm, h.params]
  port := by
    rw [getElem?_insert_bytes, if_neg (port_ne_record name).symm, h.port]
  record other := by
    rw [getElem?_insert_bytes, Std.ExtTreeMap.getElem?_insert]
    simp only [recordKey_inj, Std.LawfulEqCmp.compare_eq_iff_eq, h.record]
    split <;> rfl
  nothing_else key params port others := by
    rw [getElem?_insert_bytes, if_neg (others name).symm, h.nothing_else key params port others]

theorem insert_port (h : Holds store s) (portId : String) :
    Holds (store.insert portKey (utf8 portId)) { s with port := some portId } where
  params := by
    rw [getElem?_insert_bytes, if_neg params_ne_port.symm, h.params]
  port := by
    rw [getElem?_insert_bytes, if_pos rfl]
    rfl
  record name := by
    rw [getElem?_insert_bytes, if_neg (port_ne_record name), h.record]
  nothing_else key params port others := by
    rw [getElem?_insert_bytes, if_neg (Ne.symm port), h.nothing_else key params port others]

theorem insert_params (h : Holds store s) (params : Params) :
    Holds (store.insert paramsKey []) { s with params := some params } where
  params := by
    rw [getElem?_insert_bytes, if_pos rfl]
    rfl
  port := by
    rw [getElem?_insert_bytes, if_neg params_ne_port, h.port]
  record name := by
    rw [getElem?_insert_bytes, if_neg (params_ne_record name), h.record]
  nothing_else key params port others := by
    rw [getElem?_insert_bytes, if_neg (Ne.symm params), h.nothing_else key params port others]

/-! ## Genesis -/

theorem foldlM_setDenom (h : Holds store s) (denoms : List Denom) :
    ∃ store', (denoms.map Denom.toPb).foldlM (fun store elem => setDenom store elem.denom elem) store =
        some store' ∧
      Holds store' { s with denom := denoms.foldl (fun denom elem => denom.insert elem.denom elem) s.denom } := by
  induction denoms generalizing store s with
  | nil => exact ⟨store, rfl, h⟩
  | cons d rest ih =>
      obtain ⟨store', written, holds⟩ := ih (h.insert_record d.denom d)
      refine ⟨store', ?_, holds⟩
      rw [List.map_cons, List.foldlM_cons, setDenom, Pb.denom.marshal_eq]
      exact written

theorem initGenesis (h : Holds store s) (g : GenesisState) :
    ∃ store', KVStore.initGenesis store g.toPb = some store' ∧
      Holds store' (Tokenfactory.initGenesis s g) := by
  obtain ⟨store', written, holds⟩ := (h.insert_port g.portId).foldlM_setDenom g.denomMap
  refine ⟨store'.insert paramsKey [], ?_, holds.insert_params g.params⟩
  have records : (g.toPb.denomMap.foldlM (fun store elem => setDenom store elem.denom elem)
      (store.insert portKey g.toPb.portId)) = some store' := written
  rw [KVStore.initGenesis, records]
  rfl

/-! ## The walk -/

theorem record_entry {key value : Bytes} (h : Holds store s) (front : denomKey.isPrefixOf key)
    (entry : store[key]? = some value) :
    ∃ name d, key = recordKey name ∧ s.denom[name]? = some d ∧ value = recordBytes d := by
  have params : key ≠ paramsKey := by
    rintro rfl
    exact absurd front (by decide)
  have port : key ≠ portKey := by
    rintro rfl
    exact absurd front (by decide)
  by_cases record : ∃ name, key = recordKey name
  · obtain ⟨name, rfl⟩ := record
    rw [h.record, Option.map_eq_some_iff] at entry
    obtain ⟨d, found, rfl⟩ := entry
    exact ⟨name, d, rfl, found, rfl⟩
  · rw [h.nothing_else key params port (not_exists.mp record)] at entry
    cases entry

/-- The walk meets the records in the order of their names. -/
theorem walked (h : Holds store s) :
    (store.toList.filter fun entry => denomKey.isPrefixOf entry.1) =
      s.denom.toList.map fun entry => (recordKey entry.1, recordBytes entry.2) := by
  have ordered : (store.toList.filter fun entry => denomKey.isPrefixOf entry.1).Pairwise
      fun a b => compare a.1 b.1 = .lt := store.ordered_keys_toList.filter _
  have ordered' : (s.denom.toList.map fun entry => (recordKey entry.1, recordBytes entry.2)).Pairwise
      fun a b => compare a.1 b.1 = .lt := by
    rw [List.pairwise_map]
    refine s.denom.ordered_keys_toList.imp fun {a b} lt => ?_
    simp only [recordKey, compare_append, compare_utf8, lt]
  have same : (store.toList.filter fun entry => denomKey.isPrefixOf entry.1).Perm
      (s.denom.toList.map fun entry => (recordKey entry.1, recordBytes entry.2)) := by
    have distinct : ∀ {entries : List (Bytes × Bytes)},
        entries.Pairwise (fun a b => compare a.1 b.1 = .lt) → entries.Nodup := by
      intro entries sorted
      refine sorted.imp fun {a b} lt same => ?_
      rw [same, Std.ReflOrd.compare_self] at lt
      cases lt
    refine (List.perm_ext_iff_of_nodup (distinct ordered) (distinct ordered')).mpr ?_
    rintro ⟨key, value⟩
    simp only [List.mem_filter, List.mem_map, Prod.exists, Prod.mk.injEq,
      Std.ExtTreeMap.mem_toList_iff_getElem?_eq_some]
    constructor
    · rintro ⟨entry, front⟩
      obtain ⟨name, d, rfl, found, rfl⟩ := h.record_entry front entry
      exact ⟨name, d, found, rfl, rfl⟩
    · rintro ⟨name, d, found, rfl, rfl⟩
      refine ⟨?_, recordKey_isPrefixOf name⟩
      rw [h.record, found]
      rfl
  refine same.eq_of_pairwise (fun a b _ _ lt gt => ?_) ordered ordered'
  rw [Std.OrientedCmp.gt_of_lt lt] at gt
  cases gt

theorem walkDenom (h : Holds store s)
    (fits : ∀ d ∈ values s.denom, (recordBytes d).length < 2 ^ 63) :
    store.walkDenom = .ok ((values s.denom).map Denom.toPb) := by
  have decoded : ∀ entries : List (String × Denom),
      (∀ entry ∈ entries, (recordBytes entry.2).length < 2 ^ 63) →
        (entries.map fun entry => (recordKey entry.1, recordBytes entry.2)).mapM
          (fun entry => decoding Pb.denom entry.2) = .ok (entries.map fun entry => entry.2.toPb) := by
    intro entries
    induction entries with
    | nil =>
        intro _
        rfl
    | cons entry rest ih =>
        intro short
        obtain ⟨first, others⟩ := List.forall_mem_cons.mp short
        have one : decoding Pb.denom (recordBytes entry.2) = .ok entry.2.toPb := by
          rw [decoding, recordBytes, MessageType.decode_encode first]
          rfl
        rw [List.map_cons, List.mapM_cons, one, List.map_cons]
        simp only [bind, Except.bind, ih others]
        rfl
  rw [KVStore.walkDenom, h.walked, decoded s.denom.toList fun entry mem =>
    fits entry.2 (List.mem_map_of_mem mem), values, List.map_map]
  rfl

theorem getParams (h : Holds store s) {params : Params} (set : s.params = some params) :
    store.getParams = .ok {} := by
  rw [KVStore.getParams, h.params, set]
  exact congrArg (Except.mapError Failure.encoding) (Schema.unmarshalFrom_nil _ _)

theorem exportGenesis (h : Holds store s) {g : GenesisState}
    (exported : Tokenfactory.exportGenesis s = .ok g)
    (fits : ∀ d ∈ values s.denom, (recordBytes d).length < 2 ^ 63) :
    KVStore.exportGenesis store = .ok g.toPb := by
  unfold Tokenfactory.exportGenesis at exported
  cases params : s.params with
  | none =>
      rw [params] at exported
      cases exported
  | some value =>
      have port : store[portKey]?.getD [] = utf8 (s.port.getD "") := by
        rw [h.port]
        cases s.port <;> rfl
      rw [params] at exported
      obtain rfl := Except.ok.inj exported
      rw [KVStore.exportGenesis, h.getParams params, h.walkDenom fits, port]
      rfl

end Holds

theorem holds_empty {s : Chain β} (empty : EmptyState s) : Holds ∅ s where
  params := by simp [empty.params]
  port := by simp [empty.port]
  record name := by simp [empty.denom]
  nothing_else key _ _ _ := by simp

/-- A transaction writes at most one key. -/
theorem holds_step [DecidableEq α] {store : KVStore} {s : Chain β} (h : Holds store s) (a : Action α) :
    ∃ store', Holds store' (step k s a) ∧
      (store' = store ∨ ∃ key value, store' = store.insert key value) := by
  have stepped := step_stepped (k := k) s a
  generalize step k s a = s' at stepped ⊢
  cases stepped with
  | rejected => exact ⟨store, h, .inl rfl⟩
  | created created =>
      obtain ⟨bank, -, rfl⟩ := created.minted
      exact ⟨_, { h.insert_record _ _ with }, .inr ⟨_, _, rfl⟩⟩
  | traded order traded =>
      obtain ⟨paid, bank, -, -, rfl⟩ := traded.sent
      exact ⟨_, { h.insert_record _ _ with }, .inr ⟨_, _, rfl⟩⟩
  | updated req => exact ⟨_, h.insert_params req.params, .inr ⟨_, _, rfl⟩⟩
  | transferred sent => exact ⟨store, { h with }, .inl rfl⟩

/-- In every run from a valid genesis one store of bytes holds the state; a transaction writes at
most one of its keys, and importing what is exported from it makes the same bytes. -/
theorem store_kept_by_restart [DecidableEq α] {portIdentifierValidator : String → Except String Unit}
    {s : Chain β} (reached : ReachedFromGenesis k portIdentifierValidator s) :
    ∃ store, (∀ store', Holds store' s ↔ store' = store) ∧
      (∀ a, ∃ store', Holds store' (step k s a) ∧
        (store' = store ∨ ∃ key value, store' = store.insert key value)) ∧
      ((∀ d ∈ values s.denom, (recordBytes d).length < 2 ^ 63) →
        ∃ g, KVStore.exportGenesis store = .ok g ∧ KVStore.initGenesis ∅ g = some store) := by
  have held : ∃ store, Holds store s := by
    refine Reachable.invariant (I := fun s : Chain β => ∃ store, Holds store s) ?_ ?_ reached
    · rintro _ ⟨g, t, -, empty, rfl⟩
      obtain ⟨store, -, holds⟩ := (holds_empty empty).initGenesis g
      exact ⟨store, holds⟩
    · rintro s a ⟨store, holds⟩ -
      obtain ⟨store', holds', -⟩ := holds_step (k := k) holds a
      exact ⟨store', holds'⟩
  obtain ⟨store, holds⟩ := held
  refine ⟨store, fun store' => ⟨holds.unique, ?_⟩, holds_step holds, fun fits => ?_⟩
  · rintro rfl
    exact holds
  · obtain ⟨g, exported, -, restarted⟩ := reached.exportable.roundTrip
    let blank : Chain β := ⟨none, none, ∅, s.bank⟩
    have empty : EmptyState blank := ⟨rfl, rfl, rfl⟩
    obtain ⟨store', written, holds'⟩ := (holds_empty empty).initGenesis g
    obtain ⟨params, port, denom⟩ := restarted blank empty
    have same : Holds store' s := ⟨by rw [holds'.params, params], by rw [holds'.port, port],
      fun name => by rw [holds'.record, denom], holds'.nothing_else⟩
    refine ⟨g.toPb, holds.exportGenesis exported fits, ?_⟩
    rw [written, holds.unique same]

theorem twoFlowers_reached :
    ReachedFromGenesis Ledger.keeper (fun _ => .ok ()) (initGenesis blank twoFlowers) :=
  ⟨_, [], ⟨twoFlowers, blank, by decide, ⟨rfl, rfl, rfl⟩, rfl⟩, trivial, rfl⟩

theorem twoFlowers_fits {d : Denom} (mem : d ∈ values (initGenesis blank twoFlowers).denom) :
    (recordBytes d).length < 2 ^ 63 := by
  have sizes : ∀ d ∈ values (initGenesis blank twoFlowers).denom, Pb.denom.size d.toPb < 2 ^ 63 := by
    decide +kernel
  rw [recordBytes, ← Pb.denom.size_eq]
  exact sizes d mem

theorem twoFlowers_store_kept : ∃ store, Holds store (initGenesis blank twoFlowers) ∧
    ∃ g, KVStore.exportGenesis store = .ok g ∧ KVStore.initGenesis ∅ g = some store := by
  obtain ⟨store, unique, -, restart⟩ := store_kept_by_restart twoFlowers_reached
  exact ⟨store, (unique store).mpr rfl, restart fun d mem => twoFlowers_fits mem⟩

end Fandomchain.Proof
