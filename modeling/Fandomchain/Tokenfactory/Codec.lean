import Fandomchain.Library.Fields
import Fandomchain.Tokenfactory.Types

/-!
# The generated codec

The messages of `*.pb.go` as the generated code holds them, with the bytes of their texts, and the
fields that `MarshalToSizedBuffer`, `Size` and `Unmarshal` go through.
-/

namespace Fandomchain.Tokenfactory.Pb
open Library

/-! ## denom.pb.go, params.pb.go, genesis.pb.go -/

structure Denom where
  denom : Bytes
  description : Bytes
  ticker : Bytes
  precision : Int64
  url : Bytes
  owner : Bytes
  virtualTokenReserves : Int64
  virtualFandomReserves : Int64
  realTokenReserves : Int64
  realFandomReserves : Int64
  initialVirtualTokenReserves : Int64
  initialVirtualFandomReserves : Int64
  initialRealTokenReserves : Int64
  bondingCurveEnabled : Bool
  deriving DecidableEq, Repr

structure Params where
  deriving DecidableEq, Repr

structure GenesisState where
  params : Params
  denomMap : List Denom
  portId : Bytes
  deriving DecidableEq, Repr

def denom : MessageType Denom where
  name := "Denom"
  fields := [
    .string 1 "Denom" Denom.denom fun m v => { m with denom := v },
    .string 2 "Description" Denom.description fun m v => { m with description := v },
    .string 3 "Ticker" Denom.ticker fun m v => { m with ticker := v },
    .int64 4 "Precision" Denom.precision fun m v => { m with precision := v },
    .string 5 "Url" Denom.url fun m v => { m with url := v },
    .string 6 "Owner" Denom.owner fun m v => { m with owner := v },
    .int64 7 "VirtualTokenReserves" Denom.virtualTokenReserves
      fun m v => { m with virtualTokenReserves := v },
    .int64 8 "VirtualFandomReserves" Denom.virtualFandomReserves
      fun m v => { m with virtualFandomReserves := v },
    .int64 9 "RealTokenReserves" Denom.realTokenReserves
      fun m v => { m with realTokenReserves := v },
    .int64 10 "RealFandomReserves" Denom.realFandomReserves
      fun m v => { m with realFandomReserves := v },
    .int64 11 "InitialVirtualTokenReserves" Denom.initialVirtualTokenReserves
      fun m v => { m with initialVirtualTokenReserves := v },
    .int64 12 "InitialVirtualFandomReserves" Denom.initialVirtualFandomReserves
      fun m v => { m with initialVirtualFandomReserves := v },
    .int64 13 "InitialRealTokenReserves" Denom.initialRealTokenReserves
      fun m v => { m with initialRealTokenReserves := v },
    .bool 14 "BondingCurveEnabled" Denom.bondingCurveEnabled
      fun m v => { m with bondingCurveEnabled := v }]
  distinct := by decide
  numbered := by decide
  zero := ⟨[], [], [], 0, [], [], 0, 0, 0, 0, 0, 0, 0, false⟩
  whole m := by
    simp only [Schema.merge, List.foldl, merge_string, merge_int64, merge_bool, overlaid_zero]

def params : MessageType Params where
  name := "Params"
  fields := []
  distinct := by decide
  numbered := by decide
  zero := {}
  whole _ := rfl

def genesisState : MessageType GenesisState where
  name := "GenesisState"
  fields := [
    .message 1 "Params" params.toSchema GenesisState.params fun m v => { m with params := v },
    .repeated 2 "DenomMap" denom GenesisState.denomMap (fun m v => { m with denomMap := v })
      (fun _ _ => rfl) (fun _ _ _ => rfl) fun _ => rfl,
    .string 3 "PortId" GenesisState.portId fun m v => { m with portId := v }]
  distinct := by decide
  numbered := by decide
  zero := ⟨{}, [], []⟩
  whole m := by
    simp only [Schema.merge, List.foldl, merge_message, merge_repeated, merge_string, overlaid_zero]
    rfl

/-! ## tx.pb.go -/

structure MsgUpdateParams where
  authority : Bytes
  params : Params
  deriving DecidableEq, Repr

structure MsgUpdateParamsResponse where
  deriving DecidableEq, Repr

structure MsgCreateDenom where
  owner : Bytes
  denom : Bytes
  description : Bytes
  ticker : Bytes
  url : Bytes
  deriving DecidableEq, Repr

structure MsgCreateDenomResponse where
  deriving DecidableEq, Repr

structure MsgBuyWithBondingCurve where
  buyer : Bytes
  denom : Bytes
  fandomAmount : Int64
  minTokensOut : Int64
  deriving DecidableEq, Repr

structure MsgBuyWithBondingCurveResponse where
  tokensReceived : Int64
  deriving DecidableEq, Repr

structure MsgSellWithBondingCurve where
  seller : Bytes
  denom : Bytes
  tokenAmount : Int64
  minFandomOut : Int64
  deriving DecidableEq, Repr

structure MsgSellWithBondingCurveResponse where
  fandomReceived : Int64
  deriving DecidableEq, Repr

def msgUpdateParams : MessageType MsgUpdateParams where
  name := "MsgUpdateParams"
  fields := [
    .string 1 "Authority" MsgUpdateParams.authority fun m v => { m with authority := v },
    .message 2 "Params" params.toSchema MsgUpdateParams.params fun m v => { m with params := v }]
  distinct := by decide
  numbered := by decide
  zero := ⟨[], {}⟩
  whole m := by
    simp only [Schema.merge, List.foldl, merge_string, merge_message, overlaid_zero]

def msgUpdateParamsResponse : MessageType MsgUpdateParamsResponse where
  name := "MsgUpdateParamsResponse"
  fields := []
  distinct := by decide
  numbered := by decide
  zero := {}
  whole _ := rfl

def msgCreateDenom : MessageType MsgCreateDenom where
  name := "MsgCreateDenom"
  fields := [
    .string 1 "Owner" MsgCreateDenom.owner fun m v => { m with owner := v },
    .string 2 "Denom" MsgCreateDenom.denom fun m v => { m with denom := v },
    .string 3 "Description" MsgCreateDenom.description fun m v => { m with description := v },
    .string 4 "Ticker" MsgCreateDenom.ticker fun m v => { m with ticker := v },
    .string 5 "Url" MsgCreateDenom.url fun m v => { m with url := v }]
  distinct := by decide
  numbered := by decide
  zero := ⟨[], [], [], [], []⟩
  whole m := by simp only [Schema.merge, List.foldl, merge_string, overlaid_zero]

def msgCreateDenomResponse : MessageType MsgCreateDenomResponse where
  name := "MsgCreateDenomResponse"
  fields := []
  distinct := by decide
  numbered := by decide
  zero := {}
  whole _ := rfl

def msgBuyWithBondingCurve : MessageType MsgBuyWithBondingCurve where
  name := "MsgBuyWithBondingCurve"
  fields := [
    .string 1 "Buyer" MsgBuyWithBondingCurve.buyer fun m v => { m with buyer := v },
    .string 2 "Denom" MsgBuyWithBondingCurve.denom fun m v => { m with denom := v },
    .int64 3 "FandomAmount" MsgBuyWithBondingCurve.fandomAmount
      fun m v => { m with fandomAmount := v },
    .int64 4 "MinTokensOut" MsgBuyWithBondingCurve.minTokensOut
      fun m v => { m with minTokensOut := v }]
  distinct := by decide
  numbered := by decide
  zero := ⟨[], [], 0, 0⟩
  whole m := by simp only [Schema.merge, List.foldl, merge_string, merge_int64, overlaid_zero]

def msgBuyWithBondingCurveResponse : MessageType MsgBuyWithBondingCurveResponse where
  name := "MsgBuyWithBondingCurveResponse"
  fields := [
    .int64 1 "TokensReceived" MsgBuyWithBondingCurveResponse.tokensReceived
      fun m v => { m with tokensReceived := v }]
  distinct := by decide
  numbered := by decide
  zero := ⟨0⟩
  whole m := by simp only [Schema.merge, List.foldl, merge_int64, overlaid_zero]

def msgSellWithBondingCurve : MessageType MsgSellWithBondingCurve where
  name := "MsgSellWithBondingCurve"
  fields := [
    .string 1 "Seller" MsgSellWithBondingCurve.seller fun m v => { m with seller := v },
    .string 2 "Denom" MsgSellWithBondingCurve.denom fun m v => { m with denom := v },
    .int64 3 "TokenAmount" MsgSellWithBondingCurve.tokenAmount
      fun m v => { m with tokenAmount := v },
    .int64 4 "MinFandomOut" MsgSellWithBondingCurve.minFandomOut
      fun m v => { m with minFandomOut := v }]
  distinct := by decide
  numbered := by decide
  zero := ⟨[], [], 0, 0⟩
  whole m := by simp only [Schema.merge, List.foldl, merge_string, merge_int64, overlaid_zero]

def msgSellWithBondingCurveResponse : MessageType MsgSellWithBondingCurveResponse where
  name := "MsgSellWithBondingCurveResponse"
  fields := [
    .int64 1 "FandomReceived" MsgSellWithBondingCurveResponse.fandomReceived
      fun m v => { m with fandomReceived := v }]
  distinct := by decide
  numbered := by decide
  zero := ⟨0⟩
  whole m := by simp only [Schema.merge, List.foldl, merge_int64, overlaid_zero]

/-! ## packet.pb.go -/

structure NoData where
  deriving DecidableEq, Repr

/-- `some none` is `&TokenfactoryPacketData_NoData{NoData: nil}`. -/
structure TokenfactoryPacketData where
  packet : Option (Option NoData)
  deriving DecidableEq, Repr

def noData : MessageType NoData where
  name := "NoData"
  fields := []
  distinct := by decide
  numbered := by decide
  zero := {}
  whole _ := rfl

/-- A packet with a missing `NoData` is read as one with no packet, so this is no `MessageType`. -/
def tokenfactoryPacketData : Schema TokenfactoryPacketData where
  name := "TokenfactoryPacketData"
  fields := [
    .oneof 1 "NoData" noData TokenfactoryPacketData.packet fun m v => { m with packet := some (some v) }]
  distinct := by decide
  numbered := by decide

/-! ## The message types -/

inductive Kind where
  | denom
  | params
  | genesisState
  | msgUpdateParams
  | msgUpdateParamsResponse
  | msgCreateDenom
  | msgCreateDenomResponse
  | msgBuyWithBondingCurve
  | msgBuyWithBondingCurveResponse
  | msgSellWithBondingCurve
  | msgSellWithBondingCurveResponse
  | noData
  deriving DecidableEq, Repr

abbrev Kind.Carrier : Kind → Type
  | denom => Denom
  | params => Params
  | genesisState => GenesisState
  | msgUpdateParams => MsgUpdateParams
  | msgUpdateParamsResponse => MsgUpdateParamsResponse
  | msgCreateDenom => MsgCreateDenom
  | msgCreateDenomResponse => MsgCreateDenomResponse
  | msgBuyWithBondingCurve => MsgBuyWithBondingCurve
  | msgBuyWithBondingCurveResponse => MsgBuyWithBondingCurveResponse
  | msgSellWithBondingCurve => MsgSellWithBondingCurve
  | msgSellWithBondingCurveResponse => MsgSellWithBondingCurveResponse
  | noData => NoData

def Kind.type : (kind : Kind) → MessageType kind.Carrier
  | denom => Pb.denom
  | params => Pb.params
  | genesisState => Pb.genesisState
  | msgUpdateParams => Pb.msgUpdateParams
  | msgUpdateParamsResponse => Pb.msgUpdateParamsResponse
  | msgCreateDenom => Pb.msgCreateDenom
  | msgCreateDenomResponse => Pb.msgCreateDenomResponse
  | msgBuyWithBondingCurve => Pb.msgBuyWithBondingCurve
  | msgBuyWithBondingCurveResponse => Pb.msgBuyWithBondingCurveResponse
  | msgSellWithBondingCurve => Pb.msgSellWithBondingCurve
  | msgSellWithBondingCurveResponse => Pb.msgSellWithBondingCurveResponse
  | noData => Pb.noData

end Fandomchain.Tokenfactory.Pb
