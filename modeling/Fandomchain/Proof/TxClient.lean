import Fandomchain.Proof.Codec
import Fandomchain.Tokenfactory.TxClient

/-!
# The client and the chain agree on the bytes

The client was generated from the same definitions in another language. What it writes for a message
is, byte for byte, what `Marshal` of the chain writes, so the chain reads back what was meant.
-/

namespace Fandomchain.Proof
open Library Tokenfactory Tokenfactory.TxClient

variable {M : Type} {w : BinaryWriter}

/-! ## One field -/

theorem encode_string (number : ℕ) (name : String) (get : M → Bytes) (set : M → Bytes → M) (m : M) :
    (Library.Field.string number name get set).encode m =
      if 0 < (get m).length then tagByte number 2 :: prefixed (get m) else [] := by
  show (if 0 < (get m).length then [prefixed (get m)] else []).flatMap _ = _
  split
  · exact List.flatMap_singleton _ _
  · rfl

theorem encode_int64 (number : ℕ) (name : String) (get : M → Int64) (set : M → Int64 → M) (m : M) :
    (Library.Field.int64 number name get set).encode m =
      if get m ≠ 0 then tagByte number 0 :: varint (get m).toUInt64 else [] := by
  show (if get m ≠ 0 then [varint (get m).toUInt64] else []).flatMap _ = _
  split
  · exact List.flatMap_singleton _ _
  · rfl

theorem varint_tag {number wireType : ℕ} (small : 8 * number + wireType < 128) :
    varint (UInt64.ofNat (8 * number + wireType)) = [tagByte number wireType] := by
  have value : (UInt64.ofNat (8 * number + wireType)).toNat = 8 * number + wireType := by
    rw [UInt64.toNat_ofNat']
    omega
  have one : UInt64.ofNat (8 * number + wireType) < 128 := by
    rw [UInt64.lt_iff_toNat_lt, value]
    exact small
  rw [varint, if_pos one, List.singleton_inj, ← UInt8.toNat_inj, toNat_toUInt8_of_lt, value, tagByte,
    UInt8.toNat_ofNat']
  · omega
  · rwa [value]

section Writer

variable (lawful : w.Lawful) (writer : w.Writer) (number : ℕ) (small : number < 16)
include lawful small

theorem finish_writeString (text : String) :
    w.finish (writeString w (8 * number + 2) text writer) = w.finish writer ++
      if 0 < (utf8 text).length then tagByte number 2 :: prefixed (utf8 text) else [] := by
  simp only [writeString, utf8_length_pos_iff]
  split
  · rw [lawful.string, lawful.uint32 _ _ (by omega), varint_tag (by omega), List.append_assoc,
      List.singleton_append]
  · exact (List.append_nil _).symm

theorem finish_writeInt64 (value : Int64) :
    w.finish (writeInt64 w (8 * number + 0) value writer) = w.finish writer ++
      if value ≠ 0 then tagByte number 0 :: varint value.toUInt64 else [] := by
  unfold writeInt64
  split
  · rw [lawful.int64, lawful.uint32 _ _ (by omega), varint_tag (by omega), List.append_assoc,
      List.singleton_append]
  · exact (List.append_nil _).symm

end Writer

/-! ## The messages -/

theorem finish_createDenom (lawful : w.Lawful) (msg : MsgCreateDenom) :
    w.finish (TxClient.MsgCreateDenom.encode w msg w.new) = Pb.msgCreateDenom.encode msg.toPb := by
  have text := fun number small writer => finish_writeString lawful writer number small
  rw [TxClient.MsgCreateDenom.encode, text 5 (by decide), text 4 (by decide), text 3 (by decide),
    text 2 (by decide), text 1 (by decide), lawful.new]
  simp only [Schema.encode, Pb.msgCreateDenom, List.flatMap_cons, List.flatMap_nil, encode_string,
    MsgCreateDenom.toPb, List.nil_append, List.append_nil, List.append_assoc]

theorem finish_buy (lawful : w.Lawful) (msg : MsgBuyWithBondingCurve) :
    w.finish (TxClient.MsgBuyWithBondingCurve.encode w msg w.new) =
      Pb.msgBuyWithBondingCurve.encode msg.toPb := by
  have text := fun number small writer => finish_writeString lawful writer number small
  have integer := fun number small writer => finish_writeInt64 lawful writer number small
  rw [TxClient.MsgBuyWithBondingCurve.encode, integer 4 (by decide), integer 3 (by decide),
    text 2 (by decide), text 1 (by decide), lawful.new]
  simp only [Schema.encode, Pb.msgBuyWithBondingCurve, List.flatMap_cons, List.flatMap_nil,
    encode_string, encode_int64, MsgBuyWithBondingCurve.toPb, List.nil_append, List.append_nil,
    List.append_assoc]

theorem finish_sell (lawful : w.Lawful) (msg : MsgSellWithBondingCurve) :
    w.finish (TxClient.MsgSellWithBondingCurve.encode w msg w.new) =
      Pb.msgSellWithBondingCurve.encode msg.toPb := by
  have text := fun number small writer => finish_writeString lawful writer number small
  have integer := fun number small writer => finish_writeInt64 lawful writer number small
  rw [TxClient.MsgSellWithBondingCurve.encode, integer 4 (by decide), integer 3 (by decide),
    text 2 (by decide), text 1 (by decide), lawful.new]
  simp only [Schema.encode, Pb.msgSellWithBondingCurve, List.flatMap_cons, List.flatMap_nil,
    encode_string, encode_int64, MsgSellWithBondingCurve.toPb, List.nil_append, List.append_nil,
    List.append_assoc]

/-- `Marshal` writes `bytes` for `m`, and `Unmarshal` reads `m` from them. -/
structure Spells (t : MessageType M) (bytes : Bytes) (m : M) : Prop where
  marshal : t.marshal m = some bytes
  decode : bytes.length < 2 ^ 63 → t.decode bytes = .ok m

theorem spells_encode (t : MessageType M) (m : M) : Spells t (t.encode m) m :=
  ⟨t.marshal_eq m, MessageType.decode_encode⟩

theorem client_bytes_agree (lawful : w.Lawful) :
    (∀ msg : MsgCreateDenom, Spells Pb.msgCreateDenom
      (w.finish (TxClient.MsgCreateDenom.encode w msg w.new)) msg.toPb) ∧
    (∀ msg : MsgBuyWithBondingCurve, Spells Pb.msgBuyWithBondingCurve
      (w.finish (TxClient.MsgBuyWithBondingCurve.encode w msg w.new)) msg.toPb) ∧
    ∀ msg : MsgSellWithBondingCurve, Spells Pb.msgSellWithBondingCurve
      (w.finish (TxClient.MsgSellWithBondingCurve.encode w msg w.new)) msg.toPb := by
  refine ⟨fun msg => ?_, fun msg => ?_, fun msg => ?_⟩
  · rw [finish_createDenom lawful]
    exact spells_encode _ _
  · rw [finish_buy lawful]
    exact spells_encode _ _
  · rw [finish_sell lawful]
    exact spells_encode _ _

/-- A writer that is the bytes written so far. -/
def byteWriter : BinaryWriter where
  Writer := Bytes
  new := []
  uint32 value writer := writer ++ varint (UInt64.ofNat value)
  string value writer := writer ++ prefixed (utf8 value)
  int64 value writer := writer ++ varint (Int64.ofInt (value.toInt?.getD 0)).toUInt64
  finish writer := writer

theorem byteWriter_lawful : byteWriter.Lawful where
  new := rfl
  uint32 _ _ _ := rfl
  string _ _ := rfl
  int64 value writer := by
    have back : (toString value.toInt).toInt? = some value.toInt := Int.toInt?_repr value.toInt
    simp only [byteWriter, back, Option.getD_some, Int64.ofInt_toInt]

theorem byteWriter_agrees : Pb.msgBuyWithBondingCurve.decode (byteWriter.finish
      (TxClient.MsgBuyWithBondingCurve.encode byteWriter ⟨"bob", "rose", 300, -1⟩ byteWriter.new)) =
    .ok ⟨utf8 "bob", utf8 "rose", 300, -1⟩ := by
  apply ((client_bytes_agree byteWriter_lawful).2.1 ⟨"bob", "rose", 300, -1⟩).decode
  rw [finish_buy byteWriter_lawful, ← Schema.size_eq]
  decide

end Fandomchain.Proof
