import Mathlib

/-!
# Base-128 integers

The variable-length integers of the protobuf wire format: seven bits to a byte, low bits first, and
the top bit set on every byte but the last. A reader walks forwards over what is left of its input; a
writer fills a buffer of known size from its end.
-/

namespace Fandomchain.Library

abbrev Bytes := List UInt8

inductive WireError where
  | intOverflow
  | unexpectedEOF
  | invalidLength
  | unexpectedEndOfGroup
  | endGroup (message : String)
  | illegalTag (message : String) (fieldNum : Int32) (wire : UInt64)
  | wrongWireType (field : String) (wireType : ℕ)
  | illegalWireType (wireType : ℕ)
  deriving DecidableEq, Repr

/-! ## Reading -/

structure Cursor where
  index : ℕ
  rest : Bytes
  deriving DecidableEq, Repr

def Cursor.advance (n : ℕ) (c : Cursor) : Cursor := ⟨c.index + n, c.rest.drop n⟩

def readVarintFrom (shift : ℕ) (acc : UInt64) (index : ℕ) :
    Bytes → Except WireError (UInt64 × Cursor)
  | [] => .error (if 64 ≤ shift then .intOverflow else .unexpectedEOF)
  | b :: rest =>
      if 64 ≤ shift then .error .intOverflow
      else
        -- at shift 63 the six high bits of the byte fall off
        let acc := acc ||| (b &&& 0x7F).toUInt64 <<< UInt64.ofNat shift
        if b < 0x80 then .ok (acc, ⟨index + 1, rest⟩)
        else readVarintFrom (shift + 7) acc (index + 1) rest

def readVarint (c : Cursor) : Except WireError (UInt64 × Cursor) := readVarintFrom 0 0 c.index c.rest

/-! ## Writing -/

def varint (v : UInt64) : Bytes :=
  if v < 128 then [v.toUInt8] else ((v &&& 0x7F) ||| 0x80).toUInt8 :: varint (v >>> 7)
termination_by v.toNat
decreasing_by
  rename_i large
  have : 128 ≤ v.toNat := by simpa [UInt64.lt_iff_toNat_lt] using large
  rw [UInt64.toNat_shiftRight]
  simp [Nat.shiftRight_eq_div_pow]
  omega

theorem toNat_shiftRight_seven (v : UInt64) : (v >>> 7).toNat = v.toNat / 128 := by
  rw [UInt64.toNat_shiftRight]
  simp [Nat.shiftRight_eq_div_pow]

theorem toNat_toUInt8_of_lt {v : UInt64} (small : v.toNat < 128) : v.toUInt8.toNat = v.toNat := by
  rw [UInt64.toNat_toUInt8]
  omega

theorem toNat_continued (v : UInt64) :
    ((v &&& 0x7F) ||| 0x80).toUInt8.toNat = v.toNat % 128 + 128 := by
  have low : v.toNat &&& 127 = v.toNat % 128 := Nat.and_two_pow_sub_one_eq_mod v.toNat 7
  have top := Nat.two_pow_add_eq_or_of_lt (i := 7) (b := v.toNat % 128) (by omega) 1
  rw [UInt64.toNat_toUInt8, UInt64.toNat_or, UInt64.toNat_and]
  simp only [UInt64.reduceToNat, low, Nat.or_comm, Nat.reducePow, mul_one] at top ⊢
  omega

theorem toNat_and_0x7F (b : UInt8) : (b &&& 0x7F).toNat = b.toNat % 128 := by
  rw [UInt8.toNat_and]
  exact Nat.and_two_pow_sub_one_eq_mod b.toNat 7

/-! ## The bytes of an integer -/

/-- The number that the low seven bits of the bytes spell, low bits first. -/
def varintValue : Bytes → ℕ
  | [] => 0
  | b :: rest => b.toNat % 128 + 128 * varintValue rest

inductive Continued : Bytes → Prop
  | last {b : UInt8} : b < 0x80 → Continued [b]
  | more {b : UInt8} {rest : Bytes} : ¬b < 0x80 → Continued rest → Continued (b :: rest)

/-- The shortest spelling is not asked for, and what is beyond 64 bits falls off. -/
structure IsVarint (bytes : Bytes) (v : UInt64) : Prop where
  continued : Continued bytes
  short : bytes.length ≤ 10
  value : v = UInt64.ofNat (varintValue bytes)

theorem IsVarint.ne_nil {bytes : Bytes} {v : UInt64} (h : IsVarint bytes v) : bytes ≠ [] := by
  intro empty
  cases empty ▸ h.continued

theorem or_shifted {acc : UInt64} {b : UInt8} {shift : ℕ} (low : acc.toNat < 2 ^ shift)
    (within : shift < 64) : acc ||| (b &&& 0x7F).toUInt64 <<< UInt64.ofNat shift =
      UInt64.ofNat (acc.toNat + 2 ^ shift * (b.toNat % 128)) := by
  have shift_eq : (UInt64.ofNat shift).toNat = shift := by
    rw [UInt64.toNat_ofNat']
    omega
  have whole : 2 ^ 64 = 2 ^ shift * 2 ^ (64 - shift) := by
    rw [← pow_add, Nat.add_sub_cancel' within.le]
  apply UInt64.toNat_inj.mp
  rw [UInt64.toNat_or, UInt64.toNat_shiftLeft, UInt8.toNat_toUInt64, toNat_and_0x7F, shift_eq,
    Nat.mod_eq_of_lt within, Nat.shiftLeft_eq, UInt64.toNat_ofNat', mul_comm, whole]
  generalize b.toNat % 128 = x
  -- the bits of `x` that do not fall off
  have kept : acc.toNat + 2 ^ shift * (x % 2 ^ (64 - shift)) < 2 ^ shift * 2 ^ (64 - shift) := by
    have := Nat.mul_le_mul_left (2 ^ shift) (Nat.mod_lt x (Nat.two_pow_pos (64 - shift)))
    rw [Nat.mul_succ] at this
    omega
  calc acc.toNat ||| 2 ^ shift * x % (2 ^ shift * 2 ^ (64 - shift))
      = 2 ^ shift * (x % 2 ^ (64 - shift)) + acc.toNat := by
        rw [Nat.mul_mod_mul_left, Nat.or_comm, ← Nat.two_pow_add_eq_or_of_lt low]
    _ = (acc.toNat + 2 ^ shift * (x % 2 ^ (64 - shift))) % (2 ^ shift * 2 ^ (64 - shift)) := by
        rw [Nat.mod_eq_of_lt kept, add_comm]
    _ = (acc.toNat + 2 ^ shift * x) % (2 ^ shift * 2 ^ (64 - shift)) := by
        rw [← Nat.mul_mod_mul_left, Nat.add_mod_mod]

theorem readVarintFrom_iff {n index i : ℕ} {acc v : UInt64} {bytes rest : Bytes}
    (low : acc.toNat < 2 ^ (7 * n)) :
    readVarintFrom (7 * n) acc index bytes = .ok (v, ⟨i, rest⟩) ↔ ∃ used, bytes = used ++ rest ∧
      i = index + used.length ∧ Continued used ∧ n + used.length ≤ 10 ∧
        v = UInt64.ofNat (acc.toNat + 2 ^ (7 * n) * varintValue used) := by
  induction bytes generalizing n acc index with
  | nil =>
      constructor
      · intro h
        cases h
      · rintro ⟨used, empty, -, continued, -⟩
        obtain ⟨rfl, -⟩ := List.append_eq_nil_iff.mp empty.symm
        cases continued
  | cons b others ih =>
      by_cases room : 64 ≤ 7 * n
      · constructor
        · intro h
          simp [readVarintFrom, room] at h
        · rintro ⟨used, -, -, continued, short, -⟩
          cases continued <;> simp at short <;> omega
      have within : 7 * n < 64 := not_le.mp room
      by_cases last : b < 0x80
      · simp only [readVarintFrom, room, if_false, last, if_true, or_shifted low within]
        constructor
        · intro h
          obtain ⟨rfl, same⟩ := Prod.mk.inj (Except.ok.inj h)
          obtain ⟨rfl, rfl⟩ := Cursor.mk.inj same
          refine ⟨[b], rfl, rfl, .last last, ?_, ?_⟩
          · simp
            omega
          · simp [varintValue]
        · rintro ⟨used, rest_eq, index_eq, continued, short, rfl⟩
          cases continued with
          | last last =>
              obtain ⟨rfl, rfl⟩ := List.cons.inj rest_eq
              simp [varintValue, index_eq]
          | more more _ => exact absurd (List.cons.inj rest_eq).1 (fun same => more (same ▸ last))
      · have low' : (UInt64.ofNat (acc.toNat + 2 ^ (7 * n) * (b.toNat % 128))).toNat <
            2 ^ (7 * (n + 1)) := by
          have power : 2 ^ (7 * (n + 1)) = 2 ^ (7 * n) * 128 := by rw [Nat.mul_succ, pow_add]; rfl
          have digit : b.toNat % 128 + 1 ≤ 128 := Nat.mod_lt _ (by decide)
          have := Nat.mul_le_mul_left (2 ^ (7 * n)) digit
          rw [Nat.mul_succ] at this
          rw [UInt64.toNat_ofNat', power]
          exact lt_of_le_of_lt (Nat.mod_le _ _) (by omega)
        have value : ∀ used, UInt64.ofNat
            ((UInt64.ofNat (acc.toNat + 2 ^ (7 * n) * (b.toNat % 128))).toNat +
              2 ^ (7 * (n + 1)) * varintValue used) =
            UInt64.ofNat (acc.toNat + 2 ^ (7 * n) * varintValue (b :: used)) := by
          intro used
          rw [UInt64.ofNat_add, UInt64.ofNat_toNat, ← UInt64.ofNat_add, varintValue, Nat.mul_succ,
            pow_add]
          ring_nf
        simp only [readVarintFrom, room, if_false, last, or_shifted low within]
        rw [show 7 * n + 7 = 7 * (n + 1) from rfl, ih low']
        constructor
        · rintro ⟨used, rfl, index_eq, continued, short, rfl⟩
          refine ⟨b :: used, rfl, ?_, .more last continued, ?_, value used⟩
          · rw [index_eq, List.length_cons]
            omega
          · rw [List.length_cons]
            omega
        · rintro ⟨used, rest_eq, index_eq, continued, short, rfl⟩
          cases continued with
          | last first => exact absurd (List.cons.inj rest_eq).1 (fun same => last (same ▸ first))
          | @more b' used' _ continued =>
              obtain ⟨rfl, rfl⟩ := List.cons.inj rest_eq
              rw [List.length_cons] at index_eq short
              exact ⟨used', rfl, by omega, continued, by omega, (value used').symm⟩

theorem readVarint_iff {index i : ℕ} {v : UInt64} {bytes rest : Bytes} :
    readVarint ⟨index, bytes⟩ = .ok (v, ⟨i, rest⟩) ↔
      ∃ used, bytes = used ++ rest ∧ i = index + used.length ∧ IsVarint used v := by
  show readVarintFrom (7 * 0) 0 index bytes = _ ↔ _
  rw [readVarintFrom_iff (by decide)]
  simp only [UInt64.toNat_zero, zero_add, mul_zero, pow_zero, one_mul]
  constructor
  · rintro ⟨used, rest_eq, index_eq, continued, short, value⟩
    exact ⟨used, rest_eq, index_eq, continued, short, value⟩
  · rintro ⟨used, rest_eq, index_eq, continued, short, value⟩
    exact ⟨used, rest_eq, index_eq, continued, short, value⟩

theorem readVarint_ok {c c' : Cursor} {v : UInt64} (h : readVarint c = .ok (v, c')) :
    ∃ used, IsVarint used v ∧ c.rest = used ++ c'.rest ∧ c'.index = c.index + used.length := by
  obtain ⟨used, rest_eq, index_eq, spelled⟩ := readVarint_iff.mp h
  exact ⟨used, spelled, rest_eq, index_eq⟩

/-- An integer is read wherever it stands and whatever follows. -/
theorem IsVarint.read {used : Bytes} {v : UInt64} (h : IsVarint used v) (index : ℕ) (rest : Bytes) :
    readVarint ⟨index, used ++ rest⟩ = .ok (v, ⟨index + used.length, rest⟩) :=
  readVarint_iff.mpr ⟨used, rfl, rfl, h⟩

/-! ## Sizes -/

def len64 (v : UInt64) : ℕ := if v = 0 then 0 else v.toNat.log2 + 1

def sov (v : UInt64) : ℕ := (len64 (v ||| 1) + 6) / 7

theorem varint_length_pos (v : UInt64) : 0 < (varint v).length := by
  rw [varint]
  split <;> simp

theorem varint_length_le_iff (v : UInt64) (n : ℕ) :
    (varint v).length ≤ n + 1 ↔ v.toNat < 2 ^ (7 * (n + 1)) := by
  induction v using varint.induct generalizing n with
  | case1 v small =>
      have small' : v.toNat < 128 := by simpa [UInt64.lt_iff_toNat_lt] using small
      have : 2 ^ 7 ≤ 2 ^ (7 * (n + 1)) := Nat.pow_le_pow_right (by decide) (by omega)
      rw [varint, if_pos small, List.length_singleton]
      constructor <;> intro _ <;> omega
  | case2 v large ih =>
      have large' : 128 ≤ v.toNat := by simpa [UInt64.lt_iff_toNat_lt] using large
      rw [varint, if_neg large, List.length_cons]
      cases n with
      | zero =>
          have := varint_length_pos (v >>> 7)
          constructor <;> intro _ <;> omega
      | succ n =>
          have power : 2 ^ (7 * (n + 1 + 1)) = 128 * 2 ^ (7 * (n + 1)) := by ring
          rw [Nat.add_le_add_iff_right, ih, toNat_shiftRight_seven, power]
          rw [Nat.div_lt_iff_lt_mul (by decide), mul_comm]

theorem continued_varint (v : UInt64) : Continued (varint v) := by
  induction v using varint.induct with
  | case1 v small =>
      rw [varint, if_pos small]
      have small' : v.toNat < 128 := by simpa [UInt64.lt_iff_toNat_lt] using small
      apply Continued.last
      rw [UInt8.lt_iff_toNat_lt, toNat_toUInt8_of_lt small']
      exact small'
  | case2 v large ih =>
      rw [varint, if_neg large]
      apply Continued.more _ ih
      rw [UInt8.lt_iff_toNat_lt, toNat_continued]
      exact not_lt.mpr (Nat.le_add_left 128 _)

theorem varintValue_varint (v : UInt64) : varintValue (varint v) = v.toNat := by
  induction v using varint.induct with
  | case1 v small =>
      have small' : v.toNat < 128 := by simpa [UInt64.lt_iff_toNat_lt] using small
      rw [varint, if_pos small, varintValue, varintValue, toNat_toUInt8_of_lt small']
      omega
  | case2 v large ih =>
      rw [varint, if_neg large, varintValue, toNat_continued, ih, toNat_shiftRight_seven]
      omega

theorem isVarint_varint (v : UInt64) : IsVarint (varint v) v where
  continued := continued_varint v
  short := (varint_length_le_iff v 9).mpr (lt_of_lt_of_le v.toNat_lt (by norm_num))
  value := by rw [varintValue_varint, UInt64.ofNat_toNat]

@[simp] theorem readVarint_varint (index : ℕ) (v : UInt64) (rest : Bytes) :
    readVarint ⟨index, varint v ++ rest⟩ = .ok (v, ⟨index + (varint v).length, rest⟩) :=
  (isVarint_varint v).read index rest

theorem or_one_ne_zero (v : UInt64) : v ||| 1 ≠ 0 := by
  intro zero
  have or_eq : (v ||| 1).toNat = v.toNat ||| 1 := UInt64.toNat_or v 1
  have : 1 ≤ v.toNat ||| 1 := Nat.right_le_or
  rw [← or_eq, zero] at this
  exact absurd this (by decide)

theorem sov_le_iff (v : UInt64) (n : ℕ) : sov v ≤ n + 1 ↔ v.toNat < 2 ^ (7 * (n + 1)) := by
  have or_eq : (v ||| 1).toNat = v.toNat ||| 1 := UInt64.toNat_or v 1
  have odd : v.toNat ||| 1 ≠ 0 := by
    have : 1 ≤ v.toNat ||| 1 := Nat.right_le_or
    omega
  have bound : v.toNat ||| 1 < 2 ^ (7 * (n + 1)) ↔ v.toNat < 2 ^ (7 * (n + 1)) := by
    constructor
    · exact lt_of_le_of_lt Nat.left_le_or
    · intro lt
      exact Nat.or_lt_two_pow lt (Nat.one_lt_two_pow (by omega))
  unfold sov len64
  rw [if_neg (or_one_ne_zero v), or_eq, ← bound, ← Nat.log2_lt odd]
  omega

theorem sov_pos (v : UInt64) : 0 < sov v := by
  unfold sov len64
  rw [if_neg (or_one_ne_zero v)]
  omega

theorem sov_eq_length (v : UInt64) : sov v = (varint v).length := by
  obtain ⟨n, hn⟩ := Nat.exists_eq_add_one_of_ne_zero (varint_length_pos v).ne'
  obtain ⟨m, hm⟩ := Nat.exists_eq_add_one_of_ne_zero (sov_pos v).ne'
  have le := (sov_le_iff v n).mpr ((varint_length_le_iff v n).mp hn.le)
  have ge := (varint_length_le_iff v m).mpr ((sov_le_iff v m).mp hm.le)
  omega

/-! ## Writing backwards -/

/-- A buffer that is filled up to its end; `i` is where the written part starts. -/
structure Buffer where
  dAtA : Bytes
  i : ℤ
  deriving DecidableEq, Repr

/-- `dAtA[i] = b`, a panic when `i` is out of range. -/
def put (dAtA : Bytes) (i : ℤ) (b : UInt8) : Option Bytes :=
  if 0 ≤ i ∧ i < dAtA.length then some (dAtA.set i.toNat b) else none

def putVarint (dAtA : Bytes) (offset : ℤ) (v : UInt64) : Option Bytes :=
  if v < 128 then put dAtA offset v.toUInt8
  else do putVarint (← put dAtA offset ((v &&& 0x7F) ||| 0x80).toUInt8) (offset + 1) (v >>> 7)
termination_by v.toNat
decreasing_by
  rename_i large _
  have : 128 ≤ v.toNat := by simpa [UInt64.lt_iff_toNat_lt] using large
  rw [toNat_shiftRight_seven]
  omega

def encodeVarint (v : UInt64) (buf : Buffer) : Option Buffer := do
  let offset := buf.i - sov v
  return ⟨← putVarint buf.dAtA offset v, offset⟩

def pushByte (b : UInt8) (buf : Buffer) : Option Buffer := do
  let i := buf.i - 1
  return ⟨← put buf.dAtA i b, i⟩

/-- `i -= len(bytes); copy(dAtA[i:], bytes)`, a panic when the slice is out of range. -/
def pushBytes (bytes : Bytes) (buf : Buffer) : Option Buffer :=
  let i := buf.i - bytes.length
  if 0 ≤ i ∧ i ≤ buf.dAtA.length then
    let room := bytes.take (buf.dAtA.length - i.toNat)
    some ⟨buf.dAtA.take i.toNat ++ room ++ buf.dAtA.drop (i.toNat + room.length), i⟩
  else none

/-- `write` puts `bytes` in front of what is written, or panics for want of room. -/
def Emits (write : Buffer → Option Buffer) (bytes : Bytes) : Prop :=
  ∀ front back : Bytes, write ⟨front ++ back, front.length⟩ =
    if bytes.length ≤ front.length then
      some ⟨front.take (front.length - bytes.length) ++ (bytes ++ back),
        (front.length - bytes.length : ℕ)⟩
    else none

theorem emits_some : Emits some [] := by
  intro front back
  simp

theorem Emits.andThen {first second : Buffer → Option Buffer} {a b : Bytes} (hf : Emits first a)
    (hs : Emits second b) : Emits (fun buf => (first buf).bind second) (b ++ a) := by
  intro front back
  simp only [hf front back, List.length_append]
  by_cases room : a.length ≤ front.length
  · have kept : (front.take (front.length - a.length)).length = front.length - a.length := by simp
    have next := hs (front.take (front.length - a.length)) (a ++ back)
    rw [kept] at next
    rw [if_pos room, Option.bind_some, next]
    by_cases more : b.length ≤ front.length - a.length
    · have whole : b.length + a.length ≤ front.length := by omega
      have total : front.length - a.length - b.length = front.length - (b.length + a.length) := by omega
      rw [if_pos more, if_pos whole, total, List.take_take, min_eq_left (by omega), List.append_assoc]
    · rw [if_neg more, if_neg (by omega)]
  · rw [if_neg room, if_neg (by omega), Option.bind_none]

theorem put_length (front : Bytes) (x b : UInt8) (back : Bytes) :
    put (front ++ x :: back) front.length b = some (front ++ b :: back) := by
  simp [put]

theorem put_negative (dAtA : Bytes) {i : ℤ} (negative : i < 0) (b : UInt8) : put dAtA i b = none := by
  simp [put, negative]

theorem putVarint_fills (v : UInt64) (front hole back : Bytes)
    (fits : hole.length = (varint v).length) :
    putVarint (front ++ (hole ++ back)) front.length v = some (front ++ (varint v ++ back)) := by
  induction v using varint.induct generalizing front hole with
  | case1 v small =>
      rw [varint, if_pos small] at fits ⊢
      obtain ⟨x, rfl⟩ := List.length_eq_one_iff.mp fits
      rw [putVarint, if_pos small]
      exact put_length front x _ back
  | case2 v large ih =>
      rw [varint, if_neg large, List.length_cons] at fits
      obtain ⟨x, hole, rfl⟩ := List.exists_cons_of_length_eq_add_one fits
      have rest := ih (front ++ [((v &&& 0x7F) ||| 0x80).toUInt8]) hole (by simpa using fits)
      simp only [List.append_assoc, List.singleton_append, List.length_append,
        List.length_singleton, Nat.cast_add, Nat.cast_one] at rest
      rw [putVarint, if_neg large, varint, if_neg large, List.cons_append, put_length]
      exact rest

theorem putVarint_negative (v : UInt64) (dAtA : Bytes) {offset : ℤ} (negative : offset < 0) :
    putVarint dAtA offset v = none := by
  rw [putVarint]
  split
  · exact put_negative dAtA negative _
  · rw [put_negative dAtA negative]
    rfl

theorem emits_encodeVarint (v : UInt64) : Emits (encodeVarint v) (varint v) := by
  intro front back
  unfold encodeVarint
  rw [sov_eq_length]
  by_cases room : (varint v).length ≤ front.length
  · have split : front = front.take (front.length - (varint v).length) ++
        front.drop (front.length - (varint v).length) := (List.take_append_drop _ _).symm
    have hole : (front.drop (front.length - (varint v).length)).length = (varint v).length := by
      rw [List.length_drop]
      omega
    have filled := putVarint_fills v (front.take (front.length - (varint v).length)) _ back hole
    rw [← List.append_assoc, ← split, List.length_take, min_eq_left (Nat.sub_le _ _)] at filled
    rw [if_pos room]
    simp only [← Nat.cast_sub room, filled]
    rfl
  · have negative : (front.length : ℤ) - (varint v).length < 0 := by omega
    rw [if_neg room]
    simp only [putVarint_negative v _ negative]
    rfl

theorem emits_pushByte (b : UInt8) : Emits (pushByte b) [b] := by
  intro front back
  unfold pushByte
  rcases List.eq_nil_or_concat front with rfl | ⟨front, x, rfl⟩
  · rw [if_neg (by simp)]
    simp [put_negative]
  · have placed := put_length front x b back
    simp [placed]

theorem emits_pushBytes (bytes : Bytes) : Emits (pushBytes bytes) bytes := by
  intro front back
  unfold pushBytes
  by_cases room : bytes.length ≤ front.length
  · have offset : ((front.length : ℤ) - bytes.length).toNat = front.length - bytes.length := by omega
    have inside : 0 ≤ (front.length : ℤ) - bytes.length ∧
        (front.length : ℤ) - bytes.length ≤ (front ++ back).length := by
      rw [List.length_append]
      omega
    have all : bytes.take ((front ++ back).length - (front.length - bytes.length)) = bytes := by
      apply List.take_of_length_le
      rw [List.length_append]
      omega
    have after : front.length - bytes.length + bytes.length = front.length := by omega
    rw [if_pos room]
    simp only [inside, if_true, offset, all, after, and_self, List.drop_left,
      List.take_append_of_le_length (Nat.sub_le front.length bytes.length), List.append_assoc,
      Nat.cast_sub room]
  · have outside : ¬0 ≤ (front.length : ℤ) - bytes.length := by omega
    rw [if_neg room]
    simp only [outside, false_and, if_false]

end Fandomchain.Library
