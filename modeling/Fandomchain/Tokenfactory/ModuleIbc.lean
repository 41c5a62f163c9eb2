import Fandomchain.Tokenfactory.Codec

/-!
# The IBC callbacks

`module_ibc.go`. The callbacks read nothing but their arguments; the decoder of acknowledgements is
the codec of the application.
-/

namespace Fandomchain.Tokenfactory.Ibc
open Library Pb

inductive Cause where
  | errInvalidVersion
  | errUnknownRequest
  | errInvalidRequest
  /-- An error made by `fmt.Errorf`. -/
  | unregistered
  deriving DecidableEq, Repr

structure Err where
  cause : Cause
  description : String
  deriving DecidableEq, Repr

def errorText : WireError → String
  | .intOverflow => "proto: integer overflow"
  | .unexpectedEOF => "unexpected EOF"
  | .invalidLength => "proto: negative length found during unmarshaling"
  | .unexpectedEndOfGroup => "proto: unexpected end of group"
  | .endGroup message => s!"proto: {message}: wiretype end group for non-group"
  | .illegalTag message fieldNum wire =>
      s!"proto: {message}: illegal tag {fieldNum.toInt} (wire type {wire.toNat})"
  | .wrongWireType field wireType => s!"proto: wrong wireType = {wireType} for field {field}"
  | .illegalWireType wireType => s!"proto: illegal wireType {wireType}"

def version : String := "tokenfactory-1"

def moduleName : String := "tokenfactory"

/-! ## The handshake -/

def onChanOpenInit (channelVersion : String) : Except Err String :=
  if channelVersion ≠ version then
    .error ⟨.errInvalidVersion, s!"got {channelVersion}, expected {version}"⟩
  else .ok channelVersion

def onChanOpenTry (counterpartyVersion : String) : Except Err String :=
  if counterpartyVersion ≠ version then
    .error ⟨.errInvalidVersion,
      s!"invalid counterparty version: got: {counterpartyVersion}, expected {version}"⟩
  else .ok counterpartyVersion

def onChanOpenAck (counterpartyVersion : String) : Except Err Unit :=
  if counterpartyVersion ≠ version then
    .error ⟨.errInvalidVersion,
      s!"invalid counterparty version: {counterpartyVersion}, expected {version}"⟩
  else .ok ()

def onChanOpenConfirm : Except Err Unit := .ok ()

def onChanCloseInit : Except Err Unit := .error ⟨.errInvalidRequest, "user cannot close channel"⟩

def onChanCloseConfirm : Except Err Unit := .ok ()

/-! ## Packets -/

/-- `%T` of the packet. -/
def packetType : Option (Option NoData) → String
  | none => "<nil>"
  | some _ => "*types.TokenfactoryPacketData_NoData"

def unmarshalPacketData (data : Bytes) : Except Err TokenfactoryPacketData :=
  match tokenfactoryPacketData.unmarshal ⟨none⟩ data with
  | .ok modulePacketData => .ok modulePacketData
  | .error err => .error ⟨.errUnknownRequest, s!"cannot unmarshal packet data: {errorText err}"⟩

/-- `channeltypes.NewErrorAcknowledgement` of the error, the only acknowledgement there is. -/
structure ErrorAcknowledgement where
  err : Err
  deriving DecidableEq, Repr

def unrecognized (packet : Option (Option NoData)) : String :=
  s!"unrecognized {moduleName} packet type: {packetType packet}"

def onRecvPacket (data : Bytes) : ErrorAcknowledgement :=
  match unmarshalPacketData data with
  | .error err => ⟨err⟩
  | .ok modulePacketData => ⟨.unregistered, unrecognized modulePacketData.packet⟩

def onAcknowledgementPacket (unmarshalJSON : Bytes → Except String Unit)
    (data acknowledgement : Bytes) : Except Err Unit :=
  match unmarshalJSON acknowledgement with
  | .error err => .error ⟨.errUnknownRequest, s!"cannot unmarshal packet acknowledgement: {err}"⟩
  | .ok () => do
      let modulePacketData ← unmarshalPacketData data
      .error ⟨.errUnknownRequest, unrecognized modulePacketData.packet⟩

def onTimeoutPacket (data : Bytes) : Except Err Unit := do
  let modulePacketData ← unmarshalPacketData data
  .error ⟨.errUnknownRequest, unrecognized modulePacketData.packet⟩

end Fandomchain.Tokenfactory.Ibc
