import Fandomchain.Tokenfactory.MsgServer

/-!
# The queries of the bonding curve

`keeper/query_bonding_curve.go`. An estimate prices a trade on the stored record and reads the
price impact off a copy whose virtual reserves it moves.
-/

namespace Fandomchain.Tokenfactory

variable {β α : Type}

structure QueryGetBondingCurvePriceRequest where
  denom : String

structure QueryGetBondingCurvePriceResponse where
  price : Decimal
  deriving DecidableEq, Repr

structure QueryGetBondingCurveProgressRequest where
  denom : String

structure QueryGetBondingCurveProgressResponse where
  progress : String
  tokensSold : Int64
  tokensRemaining : Int64
  deriving DecidableEq, Repr

structure QueryEstimateBuyRequest where
  denom : String
  fandomAmount : Int64

structure QueryEstimateBuyResponse where
  tokensOut : Int64
  priceImpact : Decimal
  deriving DecidableEq, Repr

structure QueryEstimateSellRequest where
  denom : String
  tokenAmount : Int64

structure QueryEstimateSellResponse where
  fandomOut : Int64
  priceImpact : Decimal
  deriving DecidableEq, Repr

def nonNil {ρ : Type} : Option ρ → Except (Fault Err) ρ
  | none => .error (wrap .errInvalidRequest "empty request")
  | some req => .ok req

def getBondingCurvePrice (k : Keeper β α) (s : Chain β)
    (req : Option QueryGetBondingCurvePriceRequest) :
    Except (Fault Err) QueryGetBondingCurvePriceResponse := do
  let req ← nonNil req
  let denom ← k.getDenom s req.denom
  let price ← wrapping .errLogic id (plain (getPrice denom))
  return ⟨price⟩

def getBondingCurveProgress (k : Keeper β α) (s : Chain β)
    (req : Option QueryGetBondingCurveProgressRequest) :
    Except (Fault Err) QueryGetBondingCurveProgressResponse := do
  let req ← nonNil req
  let denom ← k.getDenom s req.denom
  let (progress, tokensSold, tokensRemaining) ← wrapping .errLogic id (getBondingProgress denom)
  return ⟨progress, tokensSold, tokensRemaining⟩

def Side.simulate : Side → Denom → (afterFee out : Int64) → Denom
  | .buy, d, afterFee, out =>
      { d with
        virtualFandomReserves := d.virtualFandomReserves + afterFee
        virtualTokenReserves := d.virtualTokenReserves - out }
  | .sell, d, afterFee, out =>
      { d with
        virtualFandomReserves := d.virtualFandomReserves - out
        virtualTokenReserves := d.virtualTokenReserves + afterFee }

def estimate (k : Keeper β α) (s : Chain β) (side : Side) (name : String) (amount : Int64) :
    Except (Fault Err) (Int64 × Decimal) := do
  let denom ← k.getDenom s name
  failIf (¬denom.bondingCurveEnabled) (wrap .errInvalidRequest "bonding curve not enabled")
  let afterFee := (side.applyFee amount).1
  let out ← wrapping .errLogic ("failed to calculate " ++ side.outLabel ++ " out: " ++ ·)
    (side.calculateOut (side.virtualIn denom) (side.virtualOut denom) afterFee)
  let oldPrice ← wrapping .errLogic ("failed to get old price: " ++ ·) (plain (getPrice denom))
  let newPrice ← wrapping .errLogic ("failed to get new price: " ++ ·)
    (plain (getPrice (side.simulate denom afterFee out)))
  return (out, calculatePriceImpact oldPrice newPrice)

def estimateBuy (k : Keeper β α) (s : Chain β) (req : Option QueryEstimateBuyRequest) :
    Except (Fault Err) QueryEstimateBuyResponse := do
  let req ← nonNil req
  let (tokensOut, priceImpact) ← estimate k s .buy req.denom req.fandomAmount
  return ⟨tokensOut, priceImpact⟩

def estimateSell (k : Keeper β α) (s : Chain β) (req : Option QueryEstimateSellRequest) :
    Except (Fault Err) QueryEstimateSellResponse := do
  let req ← nonNil req
  let (fandomOut, priceImpact) ← estimate k s .sell req.denom req.tokenAmount
  return ⟨fandomOut, priceImpact⟩

end Fandomchain.Tokenfactory
