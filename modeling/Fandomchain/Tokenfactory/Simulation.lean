import Fandomchain.Tokenfactory.Genesis
import Fandomchain.Tokenfactory.MsgServer

/-!
# The simulation of the module

`module/simulation.go` and `simulation/denom.go`: the genesis that a simulation starts from and the
only operation that it draws. Accounts and random numbers come from the simulator.
-/

namespace Fandomchain.Tokenfactory.Simulation

variable {β α : Type}

def generatedDenom (owner denom : String) : Denom where
  denom
  description := ""
  ticker := ""
  precision := 0
  url := ""
  owner
  virtualTokenReserves := 0
  virtualFandomReserves := 0
  realTokenReserves := 0
  realFandomReserves := 0
  initialVirtualTokenReserves := 0
  initialVirtualFandomReserves := 0
  initialRealTokenReserves := 0
  bondingCurveEnabled := false

/-- The two addresses are random samples; no port is set. -/
def generateGenesisState (accAddress accAddress' : String) : GenesisState where
  params := defaultParams
  denomMap := [generatedDenom accAddress "0", generatedDenom accAddress' "1"]
  portId := ""

inductive Operation where
  | noOpMsg (comment : String)
  | genAndDeliverTx (msg : MsgCreateDenom)

/-- `i` is what `r.Int()` draws, which is not negative. -/
def simulateMsgCreateDenom (s : Chain β) (simAccount : String) (i : ℕ) : Operation :=
  let msg : MsgCreateDenom :=
    { owner := simAccount, denom := toString i, description := "", ticker := "", url := "" }
  if s.denom.contains msg.denom then .noOpMsg "Denom already exist" else .genAndDeliverTx msg

inductive Event (α : Type) where
  | operation (simAccount : String) (i : ℕ)
  | act (a : Action α)

def simulate [DecidableEq α] (k : Keeper β α) (s : Chain β) : Event α → Chain β
  | .operation simAccount i =>
      match simulateMsgCreateDenom s simAccount i with
      | .noOpMsg _ => s
      | .genAndDeliverTx msg => step k s (.createDenom msg)
  | .act a => step k s a

end Fandomchain.Tokenfactory.Simulation
