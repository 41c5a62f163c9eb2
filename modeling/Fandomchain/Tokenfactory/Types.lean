import Mathlib

namespace Fandomchain.Tokenfactory

/-! ## Errors -/

/-- How a Go call ends when it does not return a value. -/
inductive Fault (ε : Type) where
  | error (err : ε)
  | panic (reason : String)
  deriving DecidableEq, Repr

/-- The registered errors that the module wraps; `other` is an error text of the SDK. -/
inductive Cause where
  | errInvalidAddress
  | errLogic
  | errInvalidRequest
  | errKeyNotFound
  | errInsufficientFunds
  | errInvalidSigner
  | other (text : String)
  deriving DecidableEq, Repr

structure Err where
  cause : Cause
  description : String
  deriving DecidableEq, Repr

def wrap (cause : Cause) (description : String) : Fault Err := .error ⟨cause, description⟩

/-- `if err != nil { return nil, errorsmod.Wrap(cause, text(err)) }`, panics passing through. -/
def wrapping {ρ : Type} (cause : Cause) (text : String → String) :
    Except (Fault String) ρ → Except (Fault Err) ρ
  | .ok result => .ok result
  | .error (.error err) => .error (wrap cause (text err))
  | .error (.panic reason) => .error (.panic reason)

@[simp] theorem wrapping_eq_ok {ρ : Type} {cause : Cause} {text : String → String}
    {result : Except (Fault String) ρ} {value : ρ} :
    wrapping cause text result = .ok value ↔ result = .ok value := by
  rcases result with (_ | _) | _ <;> simp [wrapping]

/-- `if cond { return nil, err }` -/
def failIf {ε : Type} (cond : Prop) [Decidable cond] (err : ε) : Except ε Unit :=
  if cond then .error err else .ok ()

@[simp] theorem failIf_eq_ok {ε : Type} {cond : Prop} [Decidable cond] {err : ε} {u : Unit} :
    failIf cond err = .ok u ↔ ¬cond := by
  unfold failIf
  split <;> simp_all

def plain {ρ : Type} : Except String ρ → Except (Fault String) ρ := Except.mapError .error

@[simp] theorem plain_eq_ok {ρ : Type} {result : Except String ρ} {value : ρ} :
    plain result = .ok value ↔ result = .ok value := by
  cases result <;> simp [plain, Except.mapError]

/-! ## Records -/

structure Denom where
  denom : String
  description : String
  ticker : String
  precision : Int64
  url : String
  owner : String
  virtualTokenReserves : Int64
  virtualFandomReserves : Int64
  realTokenReserves : Int64
  realFandomReserves : Int64
  initialVirtualTokenReserves : Int64
  initialVirtualFandomReserves : Int64
  initialRealTokenReserves : Int64
  bondingCurveEnabled : Bool
  deriving DecidableEq, Repr

structure Params where
  deriving DecidableEq, Repr

def Params.validate (_ : Params) : Except String Unit := .ok ()

def defaultParams : Params := {}

/-! ## Messages -/

structure MsgUpdateParams where
  authority : String
  params : Params

structure MsgCreateDenom where
  owner : String
  denom : String
  description : String
  ticker : String
  url : String

structure MsgBuyWithBondingCurve where
  buyer : String
  denom : String
  fandomAmount : Int64
  minTokensOut : Int64

structure MsgBuyWithBondingCurveResponse where
  tokensReceived : Int64
  deriving DecidableEq, Repr

structure MsgSellWithBondingCurve where
  seller : String
  denom : String
  tokenAmount : Int64
  minFandomOut : Int64

structure MsgSellWithBondingCurveResponse where
  fandomReceived : Int64
  deriving DecidableEq, Repr

/-! ## Genesis -/

structure GenesisState where
  params : Params
  denomMap : List Denom
  portId : String
  deriving DecidableEq, Repr

def portID : String := "tokenfactory"

def defaultGenesis : GenesisState := ⟨defaultParams, [], portID⟩

/-- The loop of `Validate`, with the keys of `denomIndexMap` so far. -/
def checkIndexes : List String → List Denom → Except String Unit
  | _, [] => .ok ()
  | denomIndexMap, elem :: rest =>
      if elem.denom ∈ denomIndexMap then .error "duplicated index for denom"
      else checkIndexes (elem.denom :: denomIndexMap) rest

/-- `portIdentifierValidator` is the validator of port identifiers of ibc-go. -/
def GenesisState.validate (portIdentifierValidator : String → Except String Unit)
    (gs : GenesisState) : Except String Unit := do
  portIdentifierValidator gs.portId
  checkIndexes [] gs.denomMap
  gs.params.validate

theorem checkIndexes_eq_ok {seen : List String} {denoms : List Denom} :
    checkIndexes seen denoms = .ok () ↔
      (denoms.map Denom.denom).Nodup ∧ ∀ d ∈ denoms, d.denom ∉ seen := by
  induction denoms generalizing seen with
  | nil => simp [checkIndexes]
  | cons elem rest ih =>
      unfold checkIndexes
      split
      · rename_i dup
        simp [dup]
      · rename_i fresh
        simp only [ih, List.map_cons, List.nodup_cons, List.mem_map, List.mem_cons, not_or,
          forall_eq_or_imp, not_exists, not_and]
        constructor
        · intro ⟨nodup, others⟩
          exact ⟨⟨fun d hd => (others d hd).1, nodup⟩, fresh, fun d hd => (others d hd).2⟩
        · intro ⟨⟨distinct, nodup⟩, _, others⟩
          exact ⟨nodup, fun d hd => ⟨distinct d hd, others d hd⟩⟩

theorem validate_eq_ok {portIdentifierValidator : String → Except String Unit}
    {gs : GenesisState} :
    gs.validate portIdentifierValidator = .ok () ↔
      portIdentifierValidator gs.portId = .ok () ∧ (gs.denomMap.map Denom.denom).Nodup := by
  unfold GenesisState.validate
  cases port : portIdentifierValidator gs.portId with
  | error err => simp [bind, Except.bind]
  | ok _ =>
      have distinct : checkIndexes [] gs.denomMap = .ok () ↔ (gs.denomMap.map Denom.denom).Nodup := by
        simp [checkIndexes_eq_ok]
      cases indexes : checkIndexes [] gs.denomMap with
      | error err => simp [bind, Except.bind, indexes, ← distinct]
      | ok _ => simp [bind, Except.bind, indexes, ← distinct, Params.validate]

end Fandomchain.Tokenfactory
