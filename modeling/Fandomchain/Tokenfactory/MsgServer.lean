import Fandomchain.Tokenfactory.BondingCurve
import Fandomchain.Tokenfactory.Keeper

/-!
# The message handlers

`keeper/msg_server_denom.go` and `keeper/msg_update_params.go`. The handlers of the two trades
make the same checks and transfers with the two sides exchanged, so they are one handler of an
order. `step` is what a transaction does: a message that fails leaves the state as it was.
-/

namespace Fandomchain.Tokenfactory

variable {β α : Type}

/-! ## Bank calls -/

def sendCoins (k : Keeper β α) (fromAddr toAddr : α) (amt : Coins) (failure : String) :
    HandlerM β Unit := do
  let s ← get
  match k.bankKeeper.sendCoins s.bank fromAddr toAddr amt with
  | .ok bank => set { s with bank }
  | .error err => throw (wrap .errLogic (failure ++ ": " ++ err))

def mintCoins (k : Keeper β α) (amt : Coins) : HandlerM β Unit := do
  let s ← get
  match k.bankKeeper.mintCoins s.bank "tokenfactory" amt with
  | .ok bank => set { s with bank }
  | .error err => throw (wrap .errLogic ("failed to mint coins: " ++ err))

/-! ## `CreateDenom` -/

def newDenom (msg : MsgCreateDenom) : Denom :=
  initializeBondingCurve
    { owner := msg.owner
      denom := msg.denom
      description := msg.description
      ticker := msg.ticker
      url := msg.url
      precision := tokenDecimals
      virtualTokenReserves := 0
      virtualFandomReserves := 0
      realTokenReserves := 0
      realFandomReserves := 0
      initialVirtualTokenReserves := 0
      initialVirtualFandomReserves := 0
      initialRealTokenReserves := 0
      bondingCurveEnabled := false }

@[simp] theorem newDenom_denom (msg : MsgCreateDenom) : (newDenom msg).denom = msg.denom := rfl

@[simp] theorem newDenom_virtualTokenReserves (msg : MsgCreateDenom) :
    (newDenom msg).virtualTokenReserves.toInt = 1000000000000 := by
  show initialVirtualTokenReserves.toInt = _
  decide

@[simp] theorem newDenom_virtualFandomReserves (msg : MsgCreateDenom) :
    (newDenom msg).virtualFandomReserves.toInt = 30000000000 := by
  show initialVirtualFandomReserves.toInt = _
  decide

@[simp] theorem newDenom_realTokenReserves (msg : MsgCreateDenom) :
    (newDenom msg).realTokenReserves.toInt = 800000000000 := by
  show initialRealTokenReserves.toInt = _
  decide

@[simp] theorem newDenom_realFandomReserves (msg : MsgCreateDenom) :
    (newDenom msg).realFandomReserves.toInt = 0 := by
  show initialRealFandomReserves.toInt = _
  decide

@[simp] theorem newDenom_initialRealTokenReserves (msg : MsgCreateDenom) :
    (newDenom msg).initialRealTokenReserves.toInt = 800000000000 := by
  show initialRealTokenReserves.toInt = _
  decide

def createDenom (k : Keeper β α) (msg : MsgCreateDenom) : HandlerM β Unit := do
  let _ ← MonadExcept.ofExcept (wrapping .errInvalidAddress ("invalid address: " ++ ·)
    (plain (k.addressCodec.stringToBytes msg.owner)))
  let s ← get
  MonadExcept.ofExcept (failIf (s.denom.contains msg.denom)
    (wrap .errInvalidRequest "index already set"))
  let denom := newDenom msg
  set { s with denom := s.denom.insert denom.denom denom }
  let coin ← MonadExcept.ofExcept (newCoin denom.denom denom.realTokenReserves.toInt)
  mintCoins k (newCoins coin)

/-! ## Trades -/

structure Order where
  side : Side
  signer : String
  denom : String
  amount : Int64
  minOut : Int64

def MsgBuyWithBondingCurve.order (msg : MsgBuyWithBondingCurve) : Order :=
  ⟨.buy, msg.buyer, msg.denom, msg.fandomAmount, msg.minTokensOut⟩

def MsgSellWithBondingCurve.order (msg : MsgSellWithBondingCurve) : Order :=
  ⟨.sell, msg.seller, msg.denom, msg.tokenAmount, msg.minFandomOut⟩

namespace Side

def signerLabel : Side → String
  | .buy => "buyer"
  | .sell => "seller"

def outLabel : Side → String
  | .buy => "tokens"
  | .sell => "fandom"

def reserveLabel : Side → String
  | .buy => "token"
  | .sell => "fandom"

def balanceLabel : Side → String
  | .buy => "fandom"
  | .sell => "token"

def sendInLabel : Side → String
  | .buy => "fandom coins"
  | .sell => "tokens"

def sendOutLabel : Side → String
  | .buy => "tokens"
  | .sell => "fandom coins"

end Side

/-- What the checks before the first transfer establish. -/
structure Quote (α : Type) where
  trader : α
  denom : Denom
  afterFee : Int64
  out : Int64
  moduleAddr : α

def tradeChecks (k : Keeper β α) (o : Order) (s : Chain β) : Except (Fault Err) (Quote α) := do
  let trader ← wrapping .errInvalidAddress ("invalid " ++ o.side.signerLabel ++ " address: " ++ ·)
    (plain (k.addressCodec.stringToBytes o.signer))
  let denom ← k.getDenom s o.denom
  wrapping .errInvalidRequest id (plain (validateTrade denom o.amount o.side.isBuy))
  let afterFee := (o.side.applyFee o.amount).1
  let out ← wrapping .errLogic ("failed to calculate " ++ o.side.outLabel ++ " out: " ++ ·)
    (o.side.calculateOut (o.side.virtualIn denom) (o.side.virtualOut denom) afterFee)
  wrapping .errInvalidRequest id (plain (validateSlippage out o.minOut))
  failIf (out > o.side.realOut denom)
    (wrap .errInvalidRequest ("insufficient " ++ o.side.reserveLabel ++ " reserves"))
  let spendable ← amountOf (k.bankKeeper.spendableCoins s.bank trader) (o.side.coinIn denom)
  let balance ← toInt64 spendable
  failIf (balance < o.amount)
    (wrap .errInsufficientFunds ("insufficient " ++ o.side.balanceLabel ++ " balance"))
  let moduleAddr ← k.getModuleAddr
  return ⟨trader, denom, afterFee, out, moduleAddr⟩

def settleTrade (k : Keeper β α) (o : Order) (q : Quote α) : HandlerM β Int64 := do
  let paid ← MonadExcept.ofExcept (newCoin (o.side.coinIn q.denom) o.amount.toInt)
  sendCoins k q.trader q.moduleAddr (newCoins paid) ("failed to send " ++ o.side.sendInLabel)
  let bought ← MonadExcept.ofExcept (newCoin (o.side.coinOut q.denom) q.out.toInt)
  sendCoins k q.moduleAddr q.trader (newCoins bought) ("failed to send " ++ o.side.sendOutLabel)
  let denom := o.side.update q.denom o.amount q.afterFee q.out
  modify fun s => { s with denom := s.denom.insert denom.denom denom }
  return q.out

def tradeWithBondingCurve (k : Keeper β α) (o : Order) : HandlerM β Int64 := do
  let q ← MonadExcept.ofExcept (tradeChecks k o (← get))
  settleTrade k o q

def buyWithBondingCurve (k : Keeper β α) (msg : MsgBuyWithBondingCurve) :
    HandlerM β MsgBuyWithBondingCurveResponse :=
  return ⟨← tradeWithBondingCurve k msg.order⟩

def sellWithBondingCurve (k : Keeper β α) (msg : MsgSellWithBondingCurve) :
    HandlerM β MsgSellWithBondingCurveResponse :=
  return ⟨← tradeWithBondingCurve k msg.order⟩

/-! ## `UpdateParams` -/

def updateParamsChecks [DecidableEq α] (k : Keeper β α) (req : MsgUpdateParams) :
    Except (Fault Err) Unit := do
  let authority ← (k.addressCodec.stringToBytes req.authority).mapError
    fun err => wrap (.other err) "invalid authority address"
  let expectedAuthority := (k.addressCodec.bytesToString k.authority).toOption.getD ""
  failIf (k.authority ≠ authority) (wrap .errInvalidSigner
    ("invalid authority; expected " ++ expectedAuthority ++ ", got " ++ req.authority))
  req.params.validate.mapError fun err => wrap (.other err) ""

def updateParams [DecidableEq α] (k : Keeper β α) (req : MsgUpdateParams) : HandlerM β Unit := do
  MonadExcept.ofExcept (updateParamsChecks k req)
  modify fun s => { s with params := some req.params }

/-! ## Transactions -/

inductive Action (α : Type) where
  | createDenom (msg : MsgCreateDenom)
  | buyWithBondingCurve (msg : MsgBuyWithBondingCurve)
  | sellWithBondingCurve (msg : MsgSellWithBondingCurve)
  | updateParams (msg : MsgUpdateParams)
  | bankSend (fromAddr toAddr : α) (amt : Coins)

def commit {ρ : Type} (handler : HandlerM β ρ) (s : Chain β) : Chain β :=
  match handler.run s with
  | .ok _ s' => s'
  | .error _ _ => s

def accepts {ρ : Type} (handler : HandlerM β ρ) (s : Chain β) : Bool :=
  match handler.run s with
  | .ok _ _ => true
  | .error _ _ => false

def step [DecidableEq α] (k : Keeper β α) (s : Chain β) : Action α → Chain β
  | .createDenom msg => commit (createDenom k msg) s
  | .buyWithBondingCurve msg => commit (buyWithBondingCurve k msg) s
  | .sellWithBondingCurve msg => commit (sellWithBondingCurve k msg) s
  | .updateParams msg => commit (updateParams k msg) s
  | .bankSend fromAddr toAddr amt =>
      match k.bankKeeper.sendCoins s.bank fromAddr toAddr amt with
      | .ok bank => { s with bank }
      | .error _ => s

def Action.order? : Action α → Option Order
  | .buyWithBondingCurve msg => some msg.order
  | .sellWithBondingCurve msg => some msg.order
  | _ => none

end Fandomchain.Tokenfactory
