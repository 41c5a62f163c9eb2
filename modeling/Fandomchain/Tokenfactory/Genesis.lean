import Fandomchain.Library.OrderedMap
import Fandomchain.Tokenfactory.Keeper

/-!
# Genesis

`keeper/genesis.go`. A record goes into the store under the name in it, and an export lists the
records in the order of their keys.
-/

namespace Fandomchain.Tokenfactory
open Fandomchain.Library

variable {β : Type}

def initGenesis (s : Chain β) (genState : GenesisState) : Chain β :=
  { s with
    port := some genState.portId
    denom := genState.denomMap.foldl (fun denom elem => denom.insert elem.denom elem) s.denom
    params := some genState.params }

/-- A missing port is tolerated and exported as the empty one; missing parameters are an error. -/
def exportGenesis (s : Chain β) : Except String GenesisState :=
  match s.params with
  | none => .error "collections: not found"
  | some params =>
      .ok { defaultGenesis with
        params
        portId := s.port.getD ""
        denomMap := defaultGenesis.denomMap ++ values s.denom }

end Fandomchain.Tokenfactory
