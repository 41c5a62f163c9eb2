import Fandomchain.Library.Utf8
import Fandomchain.Tokenfactory.Codec
import Fandomchain.Tokenfactory.Genesis

/-!
# The store in bytes

The items and the map of `keeper.go` over the key-value store of the module. An item lies under its
prefix, a record of the map under the prefix and the bytes of its name, and a walk goes through the
keys with the prefix in the order of their bytes.
-/

namespace Fandomchain.Tokenfactory
open Library

/-! ## Texts as bytes -/

def Denom.toPb (d : Denom) : Pb.Denom where
  denom := utf8 d.denom
  description := utf8 d.description
  ticker := utf8 d.ticker
  precision := d.precision
  url := utf8 d.url
  owner := utf8 d.owner
  virtualTokenReserves := d.virtualTokenReserves
  virtualFandomReserves := d.virtualFandomReserves
  realTokenReserves := d.realTokenReserves
  realFandomReserves := d.realFandomReserves
  initialVirtualTokenReserves := d.initialVirtualTokenReserves
  initialVirtualFandomReserves := d.initialVirtualFandomReserves
  initialRealTokenReserves := d.initialRealTokenReserves
  bondingCurveEnabled := d.bondingCurveEnabled

def GenesisState.toPb (g : GenesisState) : Pb.GenesisState where
  params := {}
  denomMap := g.denomMap.map Denom.toPb
  portId := utf8 g.portId

/-! ## The store -/

abbrev KVStore := Std.ExtTreeMap Bytes Bytes

namespace KVStore

def portKey : Bytes := utf8 "tokenfactory-port-"

def paramsKey : Bytes := utf8 "p_tokenfactory"

def denomKey : Bytes := utf8 "denom/value/"

inductive Failure where
  | notFound
  | encoding (err : WireError)
  deriving DecidableEq, Repr

def decoding {M : Type} (t : MessageType M) (value : Bytes) : Except Failure M :=
  (t.decode value).mapError .encoding

/-- `none` is a panic of `Marshal`. -/
def setDenom (store : KVStore) (key : Bytes) (value : Pb.Denom) : Option KVStore := do
  return store.insert (denomKey ++ key) (← Pb.denom.marshal value)

def getDenom (store : KVStore) (key : Bytes) : Except Failure Pb.Denom :=
  match store[denomKey ++ key]? with
  | none => .error .notFound
  | some value => decoding Pb.denom value

def walkDenom (store : KVStore) : Except Failure (List Pb.Denom) :=
  (store.toList.filter fun entry => denomKey.isPrefixOf entry.1).mapM
    fun entry => decoding Pb.denom entry.2

def setParams (store : KVStore) (value : Pb.Params) : Option KVStore := do
  return store.insert paramsKey (← Pb.params.marshal value)

def getParams (store : KVStore) : Except Failure Pb.Params :=
  match store[paramsKey]? with
  | none => .error .notFound
  | some value => decoding Pb.params value

/-! ## genesis.go -/

def initGenesis (store : KVStore) (genState : Pb.GenesisState) : Option KVStore := do
  let store := store.insert portKey genState.portId
  let store ← genState.denomMap.foldlM (fun store elem => setDenom store elem.denom elem) store
  store.setParams genState.params

def exportGenesis (store : KVStore) : Except Failure Pb.GenesisState := do
  let params ← store.getParams
  let portId := store[portKey]?.getD []
  let denomMap ← store.walkDenom
  return ⟨params, denomMap, portId⟩

end KVStore

end Fandomchain.Tokenfactory
