import Fandomchain.Tokenfactory.Codec

/-!
# The generated codec loses nothing

A `Kind` is one of the twelve messages `Denom`, `Params`, `GenesisState`, `NoData` and the requests and
responses of `Msg`. What `Marshal` writes of one is what `Unmarshal` reads; what `Unmarshal` accepts
is a sequence of whole records, whose unknown ones it steps over.
-/

namespace Fandomchain.Proof
open Library Tokenfactory.Pb

/-! ## Round trips -/

/-- The bytes fill exactly `Size()`, stand at the end of any larger buffer, and are read back. -/
theorem codec_round_trip (kind : Kind) (m : kind.Carrier) :
    ∃ bytes, kind.type.marshal m = some bytes ∧ kind.type.size m = bytes.length ∧
      (∀ dAtA : Bytes, kind.type.marshalToSizedBuffer m dAtA =
        if kind.type.size m ≤ dAtA.length then
          some ((kind.type.size m : ℤ), dAtA.take (dAtA.length - kind.type.size m) ++ bytes)
        else none) ∧
      (bytes.length < 2 ^ 63 → kind.type.decode bytes = .ok m ∧
        ∀ m', kind.type.marshal m' = some bytes → m' = m) := by
  have sized := kind.type.size_eq m
  refine ⟨kind.type.encode m, kind.type.marshal_eq m, sized, fun dAtA => ?_, fun fits => ⟨?_, ?_⟩⟩
  · rw [sized]
    exact kind.type.marshalToSizedBuffer_eq m dAtA
  · exact MessageType.decode_encode fits
  · intro m' same
    rw [kind.type.marshal_eq, Option.some.injEq] at same
    exact (MessageType.encode_inj (same ▸ fits)).mp same

/-- A market whose name is not UTF-8. -/
def oddMarket : Denom where
  denom := [0xff, 0x72]
  description := []
  ticker := [82]
  precision := 6
  url := []
  owner := [98, 111, 98]
  virtualTokenReserves := 1000000000000
  virtualFandomReserves := 30000000000
  realTokenReserves := 800000000000
  realFandomReserves := 0
  initialVirtualTokenReserves := 1000000000000
  initialVirtualFandomReserves := 30000000000
  initialRealTokenReserves := -1
  bondingCurveEnabled := true

theorem oddMarket_round_trip :
    ∃ bytes, denom.marshal oddMarket = some bytes ∧ denom.decode bytes = .ok oddMarket := by
  obtain ⟨bytes, written, size, -, back⟩ := codec_round_trip .denom oddMarket
  have fits : bytes.length < 2 ^ 63 := by
    rw [← size]
    decide
  exact ⟨bytes, written, (back fits).1⟩

/-! ## What is accepted -/

theorem codec_accepts_iff (kind : Kind) (dAtA : Bytes) (fits : dAtA.length < 2 ^ 63) :
    (∃ m, kind.type.decode dAtA = .ok m) ↔ kind.type.WellFormed dAtA :=
  Schema.accepted_iff fits kind.type.zero

/-- A field 15 that is a group of one record. -/
def strangeGroup : Bytes := [123, 8, 1, 124]

theorem isVarint_singleton {b : UInt8} (last : b < 0x80) : IsVarint [b] (UInt64.ofNat b.toNat) where
  continued := .last last
  short := by simp
  value := by
    have small : b.toNat < 128 := UInt8.lt_iff_toNat_lt.mp last
    rw [varintValue, varintValue, Nat.mod_eq_of_lt small]
    rfl

theorem strangeGroup_unknown : denom.Unknown strangeGroup := by
  have inner : Payload 3 ([8] ++ ([1] ++ [124])) :=
    .inGroup (isVarint_singleton (by decide)) (.varint (isVarint_singleton (by decide)))
      (.endGroup (isVarint_singleton (by decide)) (by decide))
  exact ⟨[123], 123, _, rfl, isVarint_singleton (by decide), by decide, by decide, inner⟩

theorem strangeGroup_accepted : ∃ m, Kind.denom.type.decode strangeGroup = .ok m := by
  refine (codec_accepts_iff .denom strangeGroup (by decide)).mpr ?_
  obtain ⟨tag, wire, payload, same, spelled, legal, absent, shape⟩ := strangeGroup_unknown
  have one := Schema.WellFormed.unknown spelled legal absent shape .nil
  rwa [List.append_nil, ← same] at one

theorem unknown_records_ignored (kind : Kind) {a unknown b : Bytes} {m₁ : kind.Carrier}
    (accepted : kind.type.decode a = .ok m₁) (absent : kind.type.Unknown unknown)
    (fits : (a ++ (unknown ++ b)).length < 2 ^ 63) (m : kind.Carrier) :
    kind.type.decode (a ++ (unknown ++ b)) = .ok m ↔ kind.type.decode (a ++ b) = .ok m :=
  Schema.unmarshal_unknown accepted absent fits

theorem strangeGroup_ignored :
    denom.decode (strangeGroup ++ denom.encode oddMarket) = .ok oddMarket := by
  have fits : (strangeGroup ++ denom.encode oddMarket).length < 2 ^ 63 := by
    rw [List.length_append, ← denom.size_eq]
    decide
  have alone : (denom.encode oddMarket).length < 2 ^ 63 := by
    rw [← denom.size_eq]
    decide
  apply (unknown_records_ignored .denom (a := []) (b := denom.encode oddMarket)
    (Schema.unmarshalFrom_nil _ _) strangeGroup_unknown fits oddMarket).mpr
  exact MessageType.decode_encode alone

/-! ## Concatenation -/

/-- The fields of `top`, and those of `under` that `top` leaves zero. -/
def overlay (under top : Denom) : Denom where
  denom := overlaid [] under.denom top.denom
  description := overlaid [] under.description top.description
  ticker := overlaid [] under.ticker top.ticker
  precision := overlaid 0 under.precision top.precision
  url := overlaid [] under.url top.url
  owner := overlaid [] under.owner top.owner
  virtualTokenReserves := overlaid 0 under.virtualTokenReserves top.virtualTokenReserves
  virtualFandomReserves := overlaid 0 under.virtualFandomReserves top.virtualFandomReserves
  realTokenReserves := overlaid 0 under.realTokenReserves top.realTokenReserves
  realFandomReserves := overlaid 0 under.realFandomReserves top.realFandomReserves
  initialVirtualTokenReserves :=
    overlaid 0 under.initialVirtualTokenReserves top.initialVirtualTokenReserves
  initialVirtualFandomReserves :=
    overlaid 0 under.initialVirtualFandomReserves top.initialVirtualFandomReserves
  initialRealTokenReserves := overlaid 0 under.initialRealTokenReserves top.initialRealTokenReserves
  bondingCurveEnabled := overlaid false under.bondingCurveEnabled top.bondingCurveEnabled

theorem denom_merge (under top : Denom) : denom.merge under top = overlay under top := by
  simp only [Schema.merge, denom, List.foldl, merge_string, merge_int64, merge_bool]
  rfl

theorem genesisState_merge (under top : GenesisState) : genesisState.merge under top =
    ⟨{}, under.denomMap ++ top.denomMap, overlaid [] under.portId top.portId⟩ := by
  simp only [Schema.merge, genesisState, List.foldl, merge_string, merge_message, merge_repeated]

/-- Two messages one behind the other are read as the second on top of the first. -/
theorem concatenation_overlays :
    (∀ (under top : Denom) (a b : Bytes), denom.marshal under = some a → denom.marshal top = some b →
      (a ++ b).length < 2 ^ 63 → denom.decode (a ++ b) = .ok (overlay under top)) ∧
    ∀ (under top : GenesisState) (a b : Bytes), genesisState.marshal under = some a →
      genesisState.marshal top = some b → (a ++ b).length < 2 ^ 63 →
        genesisState.decode (a ++ b) =
          .ok ⟨{}, under.denomMap ++ top.denomMap, overlaid [] under.portId top.portId⟩ := by
  constructor
  · intro under top a b first second fits
    rw [denom.marshal_eq, Option.some.injEq] at first second
    subst first second
    rw [← denom_merge]
    exact MessageType.decode_encode_append fits
  · intro under top a b first second fits
    rw [genesisState.marshal_eq, Option.some.injEq] at first second
    subst first second
    rw [← genesisState_merge]
    exact MessageType.decode_encode_append fits

theorem two_genesis_overlaid : ∃ a b, genesisState.marshal ⟨{}, [oddMarket], [112]⟩ = some a ∧
    genesisState.marshal ⟨{}, [oddMarket], []⟩ = some b ∧
      genesisState.decode (a ++ b) = .ok ⟨{}, [oddMarket, oddMarket], [112]⟩ := by
  refine ⟨_, _, genesisState.marshal_eq _, genesisState.marshal_eq _, ?_⟩
  apply concatenation_overlays.2 _ _ _ _ (genesisState.marshal_eq _) (genesisState.marshal_eq _)
  rw [List.length_append, ← genesisState.size_eq, ← genesisState.size_eq]
  decide

end Fandomchain.Proof
