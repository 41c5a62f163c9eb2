import Fandomchain.Tokenfactory.ModuleIbc

/-!
# No packet is accepted

A channel is opened under the one version and never closed by a user, and whatever bytes a packet
holds, it is refused; the text says whether they were read and whether they held a `NoData`.
-/

namespace Fandomchain.Proof
open Library Tokenfactory.Pb Tokenfactory.Ibc

theorem handshake_iff (v v' : String) :
    (onChanOpenInit v = .ok v' ↔ v = version ∧ v' = version) ∧
      (onChanOpenTry v = .ok v' ↔ v = version ∧ v' = version) ∧
      (onChanOpenAck v = .ok () ↔ v = version) := by
  unfold onChanOpenInit onChanOpenTry onChanOpenAck
  by_cases same : v = version <;> simp [same, eq_comm]

/-! ## What is read from a packet -/

theorem noData_read {p p' : TokenfactoryPacketData} {payload : Bytes} {wire : UInt64}
    {f : Library.Field TokenfactoryPacketData} (found : tokenfactoryPacketData.known wire = some f)
    (fits : payload.length < 2 ^ 63) (reads : Reads (f.read p) payload p') :
    p' = ⟨some (some {})⟩ := by
  obtain rfl := List.mem_singleton.mp (Schema.mem_of_known found)
  have slice : Reads (readInto readSlice (fun m data => do
      return { m with packet := some (some (← noData.decode data)) }) p) payload p' := reads
  obtain ⟨data, -, stored⟩ := (reads_readInto_iff local_readSlice fits).mp slice
  rcases inner : noData.decode data with err | n <;>
    simp only [inner, bind, Except.bind, pure, Except.pure] at stored
  · cases stored
  · exact (Except.ok.inj stored).symm

/-- Once a `NoData` is read it stays, and without one every record was unknown. -/
theorem packet_records {p p' : TokenfactoryPacketData} {dAtA : Bytes}
    (h : tokenfactoryPacketData.Records p dAtA p') (fits : dAtA.length < 2 ^ 63) :
    p' = ⟨some (some {})⟩ ∨ p' = p ∧ tokenfactoryPacketData.AllUnknown dAtA := by
  induction h with
  | nil => exact .inr ⟨rfl, .nil⟩
  | @cons p p₁ p' used rest record _ ih =>
      rw [List.length_append] at fits
      have others := ih (by omega)
      cases record with
      | @known tag payload wire f _ spelled legal found same reads =>
          rw [List.length_append] at fits
          obtain rfl := noData_read found (by omega) reads
          exact .inl (others.elim id fun kept => kept.1)
      | @unknown tag payload wire spelled legal absent shape =>
          have strange : tokenfactoryPacketData.Unknown (tag ++ payload) :=
            ⟨tag, wire, payload, rfl, spelled, legal, absent, shape⟩
          exact others.imp id fun kept => ⟨kept.1, .cons strange kept.2⟩

theorem packet_none_iff {dAtA : Bytes} (fits : dAtA.length < 2 ^ 63) :
    tokenfactoryPacketData.unmarshal ⟨none⟩ dAtA = .ok ⟨none⟩ ↔
      tokenfactoryPacketData.AllUnknown dAtA := by
  rw [Schema.unmarshal_iff fits]
  constructor
  · intro h
    rcases packet_records h fits with read | kept
    · cases read
    · exact kept.2
  · intro strange
    exact strange.records ⟨none⟩

/-- What a received packet and one that timed out are refused with. -/
def Refused (data : Bytes) (received : Cause) (description : String) : Prop :=
  onRecvPacket data = ⟨⟨received, description⟩⟩ ∧
    onTimeoutPacket data = .error ⟨.errUnknownRequest, description⟩

theorem packets_refused (data : Bytes) (fits : data.length < 2 ^ 63) :
    (¬tokenfactoryPacketData.WellFormed data →
      ∃ err, Refused data .errUnknownRequest s!"cannot unmarshal packet data: {errorText err}") ∧
    (tokenfactoryPacketData.AllUnknown data →
      Refused data .unregistered "unrecognized tokenfactory packet type: <nil>") ∧
    (tokenfactoryPacketData.WellFormed data → ¬tokenfactoryPacketData.AllUnknown data →
      Refused data .unregistered
        "unrecognized tokenfactory packet type: *types.TokenfactoryPacketData_NoData") ∧
    ∀ unmarshalJSON acknowledgement,
      onAcknowledgementPacket unmarshalJSON data acknowledgement ≠ .ok () := by
  have accepted := Schema.accepted_iff (s := tokenfactoryPacketData) fits ⟨none⟩
  refine ⟨?_, ?_, ?_, ?_⟩
  · intro malformed
    rcases read : tokenfactoryPacketData.unmarshal ⟨none⟩ data with err | p
    · exact ⟨err, by simp [onRecvPacket, unmarshalPacketData, read], by
        simp [onTimeoutPacket, unmarshalPacketData, read, bind, Except.bind]⟩
    · exact absurd (accepted.mp ⟨p, read⟩) malformed
  · intro strange
    have read := (packet_none_iff fits).mpr strange
    exact ⟨by simp [onRecvPacket, unmarshalPacketData, read]; rfl, by
      simp [onTimeoutPacket, unmarshalPacketData, read, bind, Except.bind]; rfl⟩
  · intro formed known
    obtain ⟨p, read⟩ := accepted.mpr formed
    rcases packet_records ((Schema.unmarshal_iff fits).mp read) fits with rfl | ⟨-, strange⟩
    · exact ⟨by simp [onRecvPacket, unmarshalPacketData, read]; rfl, by
        simp [onTimeoutPacket, unmarshalPacketData, read, bind, Except.bind]; rfl⟩
    · exact absurd strange known
  · intro unmarshalJSON acknowledgement accepted
    unfold onAcknowledgementPacket at accepted
    split at accepted
    · cases accepted
    · rcases read : unmarshalPacketData data with err | p <;>
        simp [read, bind, Except.bind] at accepted

/-- An empty packet, one with a `NoData`, one that starts with the tag 0, and one that is acknowledged. -/
theorem packets_refused_each :
    Refused [] .unregistered "unrecognized tokenfactory packet type: <nil>" ∧
      Refused [10, 0] .unregistered
        "unrecognized tokenfactory packet type: *types.TokenfactoryPacketData_NoData" ∧
      (∃ err, Refused [0] .errUnknownRequest s!"cannot unmarshal packet data: {errorText err}") ∧
      onAcknowledgementPacket (fun _ => .ok ()) [10, 0] [] ≠ .ok () := by
  have noData_read : tokenfactoryPacketData.unmarshal ⟨none⟩ [10, 0] = .ok ⟨some (some {})⟩ := by
    decide +kernel
  have formed : tokenfactoryPacketData.WellFormed [10, 0] :=
    (Schema.accepted_iff (by decide) ⟨none⟩).mp ⟨_, noData_read⟩
  have known : ¬tokenfactoryPacketData.AllUnknown [10, 0] := by
    intro strange
    have none := (packet_none_iff (by decide)).mpr strange
    rw [noData_read] at none
    cases none
  have malformed : ¬tokenfactoryPacketData.WellFormed [0] := by
    intro formed
    obtain ⟨p, read⟩ := (Schema.accepted_iff (by decide) ⟨none⟩).mpr formed
    have failed : (tokenfactoryPacketData.unmarshal ⟨none⟩ [0]).isOk = false := by decide +kernel
    rw [read] at failed
    cases failed
  refine ⟨(packets_refused [] (by decide)).2.1 .nil, ?_, ?_, ?_⟩
  · exact (packets_refused [10, 0] (by decide)).2.2.1 formed known
  · exact (packets_refused [0] (by decide)).1 malformed
  · exact (packets_refused [10, 0] (by decide)).2.2.2 _ _

end Fandomchain.Proof
