import Fandomchain.Library.Utf8
import Fandomchain.Tokenfactory.Codec

/-!
# The client of the transactions

`ts-client/fandomchain.tokenfactory.v1`: the encoders of `types/…/tx.ts` and the sending of a message
in `module.ts`. The wire writer, the signing and the broadcast belong to other packages.
-/

namespace Fandomchain.Tokenfactory
open Library

def MsgCreateDenom.toPb (msg : MsgCreateDenom) : Pb.MsgCreateDenom where
  owner := utf8 msg.owner
  denom := utf8 msg.denom
  description := utf8 msg.description
  ticker := utf8 msg.ticker
  url := utf8 msg.url

def MsgBuyWithBondingCurve.toPb (msg : MsgBuyWithBondingCurve) : Pb.MsgBuyWithBondingCurve where
  buyer := utf8 msg.buyer
  denom := utf8 msg.denom
  fandomAmount := msg.fandomAmount
  minTokensOut := msg.minTokensOut

def MsgSellWithBondingCurve.toPb (msg : MsgSellWithBondingCurve) : Pb.MsgSellWithBondingCurve where
  seller := utf8 msg.seller
  denom := utf8 msg.denom
  tokenAmount := msg.tokenAmount
  minFandomOut := msg.minFandomOut

namespace TxClient

/-! ## The writer -/

structure BinaryWriter where
  Writer : Type
  new : Writer
  uint32 : ℕ → Writer → Writer
  string : String → Writer → Writer
  int64 : String → Writer → Writer
  finish : Writer → Bytes

/-- Each call appends to what was written: a varint, a text behind its length, and the integer that
a decimal text spells as the varint of its 64 bits. -/
structure BinaryWriter.Lawful (w : BinaryWriter) : Prop where
  new : w.finish w.new = []
  uint32 : ∀ value writer, value < 2 ^ 32 →
    w.finish (w.uint32 value writer) = w.finish writer ++ varint (UInt64.ofNat value)
  string : ∀ value writer, w.finish (w.string value writer) = w.finish writer ++ prefixed (utf8 value)
  int64 : ∀ (value : Int64) writer, w.finish (w.int64 (toString value.toInt) writer) =
    w.finish writer ++ varint value.toUInt64

variable (w : BinaryWriter)

def writeString (tag : ℕ) (value : String) (writer : w.Writer) : w.Writer :=
  if value ≠ "" then w.string value (w.uint32 tag writer) else writer

def writeInt64 (tag : ℕ) (value : Int64) (writer : w.Writer) : w.Writer :=
  if value ≠ 0 then w.int64 (toString value.toInt) (w.uint32 tag writer) else writer

/-! ## tx.ts -/

def MsgCreateDenom.encode (message : MsgCreateDenom) (writer : w.Writer) : w.Writer :=
  let writer := writeString w 10 message.owner writer
  let writer := writeString w 18 message.denom writer
  let writer := writeString w 26 message.description writer
  let writer := writeString w 34 message.ticker writer
  writeString w 42 message.url writer

def MsgBuyWithBondingCurve.encode (message : MsgBuyWithBondingCurve) (writer : w.Writer) :
    w.Writer :=
  let writer := writeString w 10 message.buyer writer
  let writer := writeString w 18 message.denom writer
  let writer := writeInt64 w 24 message.fandomAmount writer
  writeInt64 w 32 message.minTokensOut writer

def MsgSellWithBondingCurve.encode (message : MsgSellWithBondingCurve) (writer : w.Writer) :
    w.Writer :=
  let writer := writeString w 10 message.seller writer
  let writer := writeString w 18 message.denom writer
  let writer := writeInt64 w 24 message.tokenAmount writer
  writeInt64 w 32 message.minFandomOut writer

/-! ## module.ts -/

structure DeliverTxResponse where
  code : ℕ
  deriving DecidableEq, Repr

structure StdFee where
  amount : List (String × String)
  gas : String
  deriving DecidableEq, Repr

def defaultFee : StdFee where
  amount := []
  gas := "200000"

/-- Signs the encoded message with the fee and the memo and broadcasts it; `σ` is what lies behind
the network. -/
abbrev Signer (σ : Type) :=
  Bytes → StdFee → Option String → σ → Except String DeliverTxResponse × σ

def sendMsgCreateDenom {σ : Type} (signer : Option (Signer σ)) (value : MsgCreateDenom)
    (fee : Option StdFee) (memo : Option String) (world : σ) : Except String DeliverTxResponse × σ :=
  match signer with
  | none =>
      (.error "TxClient:sendMsgCreateDenom: Unable to sign Tx. Signer is not present.", world)
  | some signAndBroadcast =>
      match signAndBroadcast (w.finish (MsgCreateDenom.encode w value w.new))
        (fee.getD defaultFee) memo world with
      | (.ok response, world) => (.ok response, world)
      | (.error message, world) =>
          (.error ("TxClient:sendMsgCreateDenom: Could not broadcast Tx: " ++ message), world)

end TxClient

end Fandomchain.Tokenfactory
