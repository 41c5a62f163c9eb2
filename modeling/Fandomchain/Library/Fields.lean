import Fandomchain.Library.Message

/-!
# Kinds of fields

Integers and booleans stand behind their tag as they are; texts, messages and lists of messages with
their length in front. All but a plain message are left out when they are empty or zero.
-/

namespace Fandomchain.Library

variable {ρ M N : Type}

/-! ## Reading into a message -/

def readInto (read : Cursor → Except WireError (ρ × Cursor)) (store : M → ρ → Except WireError M)
    (m : M) (c : Cursor) : Except WireError (M × Cursor) := do
  let (r, c) ← read c
  let m ← store m r
  return (m, c)

theorem local_readInto {read : Cursor → Except WireError (ρ × Cursor)} (h : Local read)
    (store : M → ρ → Except WireError M) (m : M) : Local (readInto read store m) := by
  intro c m' c' taken
  rcases one : read c with _ | ⟨r, c₁⟩
  · simp [readInto, one, bind, Except.bind] at taken
  rcases two : store m r with _ | m₁
  · simp [readInto, one, two, bind, Except.bind] at taken
  simp only [readInto, one, two, bind, Except.bind, pure, Except.pure] at taken
  obtain ⟨rfl, rfl⟩ := Prod.mk.inj (Except.ok.inj taken)
  obtain ⟨used, rest_eq, index_eq, again⟩ := h _ _ _ one
  refine ⟨used, rest_eq, index_eq, fun index rest fits => ?_⟩
  simp only [readInto, again index rest fits, two, bind, Except.bind, pure, Except.pure]

theorem reads_into {read : Cursor → Except WireError (ρ × Cursor)} {used : Bytes} {r : ρ}
    (h : Reads read used r) {store : M → ρ → Except WireError M} {m m' : M}
    (stored : store m r = .ok m') : Reads (readInto read store m) used m' := by
  intro index rest fits
  simp only [readInto, h index rest fits, stored, bind, Except.bind, pure, Except.pure]

theorem Took.whole {i j : ℕ} {payload used : Bytes} (h : Took ⟨i, payload ++ []⟩ ⟨j, []⟩ used) :
    used = payload :=
  (List.append_cancel_right h.1).symm

theorem reads_readInto_iff {read : Cursor → Except WireError (ρ × Cursor)} (isLocal : Local read)
    {store : M → ρ → Except WireError M} {m m' : M} {payload : Bytes}
    (fits : payload.length < 2 ^ 63) : Reads (readInto read store m) payload m' ↔
      ∃ r, Reads read payload r ∧ store m r = .ok m' := by
  constructor
  · intro h
    have taken := h 0 [] (by omega)
    rw [List.append_nil] at taken
    rcases one : read ⟨0, payload⟩ with _ | ⟨r, c⟩
    · simp [readInto, one, bind, Except.bind] at taken
    rcases two : store m r with _ | m₁
    · simp [readInto, one, two, bind, Except.bind] at taken
    simp only [readInto, one, two, bind, Except.bind, pure, Except.pure] at taken
    obtain ⟨rfl, rfl⟩ := Prod.mk.inj (Except.ok.inj taken)
    obtain ⟨used, rest_eq, -, reads⟩ := isLocal _ _ _ one
    obtain rfl : payload = used := rest_eq.trans used.append_nil
    exact ⟨r, reads, two⟩
  · rintro ⟨r, reads, stored⟩
    exact reads_into reads stored

theorem IsVarint.reads {bytes : Bytes} {v : UInt64} (h : IsVarint bytes v) : Reads readVarint bytes v :=
  fun index rest _ => h.read index rest

theorem local_readVarint : Local readVarint := by
  intro c v c' h
  obtain ⟨used, spelled, took⟩ := readVarint_ok h
  exact ⟨used, took.1, took.2, spelled.reads⟩

theorem reads_readVarint_iff {payload : Bytes} {v : UInt64} (fits : payload.length < 2 ^ 63) :
    Reads readVarint payload v ↔ IsVarint payload v := by
  constructor
  · intro h
    obtain ⟨used, spelled, took⟩ := readVarint_ok (h 0 [] (by omega))
    rwa [Took.whole took] at spelled
  · exact IsVarint.reads

def readSlice (c : Cursor) : Except WireError (Bytes × Cursor) := do
  let (length, c) ← readVarint c
  if 2 ^ 63 ≤ length.toNat then throw .invalidLength
  if 2 ^ 63 ≤ c.index + length.toNat then throw .invalidLength
  if c.rest.length < length.toNat then throw .unexpectedEOF
  return (c.rest.take length.toNat, c.advance length.toNat)

/-- `data` behind its length. -/
def IsSlice (bytes data : Bytes) : Prop :=
  ∃ size length, bytes = size ++ data ∧ IsVarint size length ∧ data.length = length.toNat

theorem IsSlice.reads {bytes data : Bytes} (h : IsSlice bytes data) : Reads readSlice bytes data := by
  obtain ⟨size, length, rfl, spelled, exact⟩ := h
  intro index rest fits
  rw [List.length_append, ← add_assoc] at fits ⊢
  have small : ¬2 ^ 63 ≤ data.length := by omega
  have inside : ¬2 ^ 63 ≤ index + size.length + data.length := not_le.mpr fits
  have whole : ¬(data ++ rest).length < data.length := by
    rw [List.length_append]
    omega
  simp only [readSlice, List.append_assoc, spelled.read, bind, Except.bind, ← exact, small, if_false,
    inside, whole, pure, Except.pure, advance_append, List.take_left]

theorem readSlice_ok {c c' : Cursor} {data : Bytes} (h : readSlice c = .ok (data, c')) :
    ∃ used, Took c c' used ∧ IsSlice used data := by
  rcases read : readVarint c with _ | ⟨length, c₁⟩
  · simp [readSlice, read, bind, Except.bind] at h
  obtain ⟨size, spelled, took⟩ := readVarint_ok read
  simp only [readSlice, read, bind, Except.bind] at h
  split at h
  · cases h
  split at h
  · cases h
  split at h
  · cases h
  rename_i whole
  obtain ⟨rfl, rfl⟩ := Prod.mk.inj (Except.ok.inj h)
  have taken : (c₁.rest.take length.toNat).length = length.toNat := by
    rw [List.length_take]
    omega
  have rest_took : Took c₁ (c₁.advance length.toNat) (c₁.rest.take length.toNat) := by
    refine ⟨(List.take_append_drop _ _).symm, ?_⟩
    rw [taken, advance_index]
  exact ⟨size ++ c₁.rest.take length.toNat, Took.andThen took rest_took,
    size, length, rfl, spelled, taken⟩

theorem local_readSlice : Local readSlice := by
  intro c data c' h
  obtain ⟨used, took, slice⟩ := readSlice_ok h
  exact ⟨used, took.1, took.2, slice.reads⟩

theorem reads_readSlice_iff {payload data : Bytes} (fits : payload.length < 2 ^ 63) :
    Reads readSlice payload data ↔ IsSlice payload data := by
  constructor
  · intro h
    obtain ⟨used, took, slice⟩ := readSlice_ok (h 0 [] (by omega))
    rwa [Took.whole took] at slice
  · exact IsSlice.reads

def prefixed (bytes : Bytes) : Bytes := varint (UInt64.ofNat bytes.length) ++ bytes

theorem isSlice_prefixed {data : Bytes} (fits : (prefixed data).length < 2 ^ 63) :
    IsSlice (prefixed data) data := by
  refine ⟨_, _, rfl, isVarint_varint _, ?_⟩
  rw [prefixed, List.length_append] at fits
  rw [UInt64.toNat_ofNat']
  omega

/-! ## The forms of payloads -/

theorem accepted_varint {store : M → UInt64 → Except WireError M}
    (total : ∀ m v, ∃ m', store m v = .ok m') (m : M) (payload : Bytes)
    (fits : payload.length < 2 ^ 63) :
    (∃ m', Reads (readInto readVarint store m) payload m') ↔ Payload 0 payload := by
  simp only [reads_readInto_iff local_readVarint fits, reads_readVarint_iff fits]
  constructor
  · rintro ⟨-, v, spelled, -⟩
    exact .varint spelled
  · intro shape
    cases shape with
    | @varint _ v spelled =>
        obtain ⟨m', stored⟩ := total m v
        exact ⟨m', v, spelled, stored⟩

/-- A slice of which the rest of the reader makes something. -/
theorem accepted_slice {store : M → Bytes → Except WireError M} (m : M) (payload : Bytes)
    (fits : payload.length < 2 ^ 63) : (∃ m', Reads (readInto readSlice store m) payload m') ↔
      ∃ data, IsSlice payload data ∧ ∃ m', store m data = .ok m' := by
  simp only [reads_readInto_iff local_readSlice fits, reads_readSlice_iff fits]
  constructor
  · rintro ⟨m', data, slice, stored⟩
    exact ⟨data, slice, m', stored⟩
  · rintro ⟨data, slice, m', stored⟩
    exact ⟨m', data, slice, stored⟩

theorem IsSlice.short {bytes data : Bytes} (h : IsSlice bytes data) : data.length ≤ bytes.length := by
  obtain ⟨size, length, rfl, -, -⟩ := h
  simp

theorem isSlice_iff_payload {payload : Bytes} (fits : payload.length < 2 ^ 63) :
    (∃ data, IsSlice payload data) ↔ Payload 2 payload := by
  constructor
  · rintro ⟨data, slice⟩
    have short := slice.short
    obtain ⟨size, length, rfl, spelled, exact⟩ := slice
    exact .bytes spelled exact (by omega)
  · intro shape
    cases shape with
    | @bytes size data length spelled exact _ => exact ⟨data, size, length, rfl, spelled, exact⟩

/-! ## Fields that may be left out -/

theorem Emits.tagged {write : Buffer → Option Buffer} {payload : Bytes} (h : Emits write payload)
    (tag : UInt8) : Emits (fun buf => (write buf).bind (pushByte tag)) (tag :: payload) :=
  h.andThen (emits_pushByte tag)

section Optional

variable {cond : Prop} [Decidable cond] {tag : UInt8} {payload : Bytes}

theorem emits_optional {write : Buffer → Option Buffer} (h : Emits write (tag :: payload)) :
    Emits (fun buf => if cond then write buf else some buf)
      ((if cond then [payload] else []).flatMap (tag :: ·)) := by
  by_cases kept : cond
  · simp only [kept, if_true, List.flatMap_singleton]
    exact h
  · simp only [kept, if_false, List.flatMap_nil]
    exact emits_some

theorem length_optional {size : ℕ} (h : size = payload.length + 1) :
    (if cond then size else 0) = ((if cond then [payload] else []).flatMap (tag :: ·)).length := by
  by_cases kept : cond <;> simp [kept, h]

theorem readsAll_optional {read : M → Cursor → Except WireError (M × Cursor)} {before after : M}
    (h : payload.length < 2 ^ 63 → Reads (read before) payload after)
    (short : ∀ p ∈ if cond then [payload] else [], p.length < 2 ^ 63) :
    ReadsAll read before (if cond then [payload] else []) (if cond then after else before) := by
  by_cases kept : cond
  · simp only [kept, if_true, List.forall_mem_singleton] at short ⊢
    exact ⟨after, h short, rfl⟩
  · simp only [kept, if_false]
    rfl

end Optional

namespace Field

def int64 (number : ℕ) (name : String) (get : M → Int64) (set : M → Int64 → M) : Field M where
  number
  name
  wireType := 0
  size m := if get m ≠ 0 then 1 + sov (get m).toUInt64 else 0
  write m buf :=
    if get m ≠ 0 then (encodeVarint (get m).toUInt64 buf).bind (pushByte (tagByte number 0))
    else some buf
  read := readInto readVarint fun m v => .ok (set m v.toInt64)
  payloads m := if get m ≠ 0 then [varint (get m).toUInt64] else []
  merge m₀ m := if get m ≠ 0 then set m₀ (get m) else m₀
  accepts := Payload 0
  typed := by decide
  writes m := emits_optional ((emits_encodeVarint (get m).toUInt64).tagged _)
  size_eq m := length_optional (by rw [sov_eq_length, add_comm])
  isLocal m := local_readInto local_readVarint _ m
  reads m₀ m short :=
    readsAll_optional (fun _ => reads_into (isVarint_varint _).reads (by simp)) short
  accepted := accepted_varint fun _ _ => ⟨_, rfl⟩

def bool (number : ℕ) (name : String) (get : M → Bool) (set : M → Bool → M) : Field M where
  number
  name
  wireType := 0
  size m := if get m then 2 else 0
  write m buf :=
    if get m then (pushByte (if get m then 1 else 0) buf).bind (pushByte (tagByte number 0))
    else some buf
  read := readInto readVarint fun m v => .ok (set m (v ≠ 0))
  payloads m := if get m then [[if get m then 1 else 0]] else []
  merge m₀ m := if get m then set m₀ (get m) else m₀
  accepts := Payload 0
  typed := by decide
  writes m := emits_optional ((emits_pushByte _).tagged _)
  size_eq m := length_optional rfl
  isLocal m := local_readInto local_readVarint _ m
  reads m₀ m short := by
    refine readsAll_optional (fun _ => ?_) short
    have byte : varint (if get m then 1 else 0) = [if get m then 1 else 0] := by
      rw [varint]
      cases get m <;> rfl
    have read := (isVarint_varint (if get m then 1 else 0)).reads
    rw [byte] at read
    exact reads_into read (by cases get m <;> simp)
  accepted := accepted_varint fun _ _ => ⟨_, rfl⟩

def string (number : ℕ) (name : String) (get : M → Bytes) (set : M → Bytes → M) : Field M where
  number
  name
  wireType := 2
  size m :=
    let l := (get m).length
    if 0 < l then 1 + l + sov (UInt64.ofNat l) else 0
  write m buf :=
    if 0 < (get m).length then
      ((pushBytes (get m) buf).bind (encodeVarint (UInt64.ofNat (get m).length))).bind
        (pushByte (tagByte number 2))
    else some buf
  read := readInto readSlice fun m data => .ok (set m data)
  payloads m := if 0 < (get m).length then [prefixed (get m)] else []
  merge m₀ m := if 0 < (get m).length then set m₀ (get m) else m₀
  accepts := Payload 2
  typed := by decide
  writes m := emits_optional (((emits_pushBytes (get m)).andThen (emits_encodeVarint _)).tagged _)
  size_eq m := length_optional (by rw [sov_eq_length, prefixed, List.length_append]; omega)
  isLocal m := local_readInto local_readSlice _ m
  reads m₀ m short :=
    readsAll_optional (fun fits => reads_into (isSlice_prefixed fits).reads rfl) short
  accepted m payload fits := by
    simp only [accepted_slice m payload fits, ← isSlice_iff_payload fits, Except.ok.injEq,
      exists_eq', and_true]

end Field

/-! ## Messages inside messages -/

/-- A slice that `sub` accepts. -/
def Schema.Nested (sub : Schema N) (payload : Bytes) : Prop :=
  ∃ data, IsSlice payload data ∧ sub.WellFormed data

theorem Schema.accepted_nested (sub : Schema N) (start : M → N) (set : M → N → M) (m : M)
    (payload : Bytes) (fits : payload.length < 2 ^ 63) :
    (∃ m', Reads (readInto readSlice
      (fun m data => do return set m (← sub.unmarshal (start m) data)) m) payload m') ↔
      sub.Nested payload := by
  rw [accepted_slice m payload fits]
  apply exists_congr
  intro data
  apply and_congr_right
  intro slice
  rw [← accepted_iff (slice.short.trans_lt fits) (start m)]
  cases sub.unmarshal (start m) data <;> simp [bind, Except.bind, pure, Except.pure]

/-- Writes `n` in front of what is written, with its length. -/
def Schema.writeNested (sub : Schema N) (n : N) (buf : Buffer) : Option Buffer := do
  if buf.i < 0 ∨ buf.dAtA.length < buf.i then none
  let (size, front) ← sub.marshalToSizedBuffer n (buf.dAtA.take buf.i.toNat)
  encodeVarint (UInt64.ofNat size.toNat) ⟨front ++ buf.dAtA.drop buf.i.toNat, buf.i - size⟩

theorem Schema.emits_writeNested (sub : Schema N) (n : N) :
    Emits (sub.writeNested n) (prefixed (sub.encode n)) := by
  intro front back
  have inside : ¬((front.length : ℤ) < 0 ∨ ((front ++ back).length : ℤ) < front.length) := by
    rw [List.length_append]
    omega
  have placed := sub.marshalToSizedBuffer_eq n front
  unfold writeNested
  simp only [inside, if_false, Int.toNat_natCast, List.take_left, List.drop_left, placed]
  by_cases room : (sub.encode n).length ≤ front.length
  · have kept : (front.take (front.length - (sub.encode n).length)).length =
        front.length - (sub.encode n).length := by
      rw [List.length_take, min_eq_left (Nat.sub_le _ _)]
    have counted := emits_encodeVarint (UInt64.ofNat (sub.encode n).length)
      (front.take (front.length - (sub.encode n).length)) (sub.encode n ++ back)
    rw [kept, Nat.cast_sub room, List.take_take, min_eq_left (Nat.sub_le _ _)] at counted
    have total : front.length - (sub.encode n).length -
        (varint (UInt64.ofNat (sub.encode n).length)).length =
          front.length - (prefixed (sub.encode n)).length := by
      rw [prefixed, List.length_append]
      omega
    simp only [room, if_true, bind, Option.bind, Int.toNat_natCast, List.append_assoc, counted]
    rw [total]
    have same : (varint (UInt64.ofNat (sub.encode n).length)).length ≤
        front.length - (sub.encode n).length ↔ (prefixed (sub.encode n)).length ≤ front.length := by
      rw [prefixed, List.length_append]
      omega
    simp only [same, prefixed, List.append_assoc]
  · have short : ¬(prefixed (sub.encode n)).length ≤ front.length := by
      rw [prefixed, List.length_append]
      omega
    simp only [room, short, if_false]
    rfl

namespace Field

def message (number : ℕ) (name : String) (sub : Schema N) (get : M → N) (set : M → N → M) :
    Field M where
  number
  name
  wireType := 2
  size m :=
    let l := sub.size (get m)
    1 + l + sov (UInt64.ofNat l)
  write m buf := (sub.writeNested (get m) buf).bind (pushByte (tagByte number 2))
  read := readInto readSlice fun m data => do return set m (← sub.unmarshal (get m) data)
  payloads m := [prefixed (sub.encode (get m))]
  merge m₀ m := set m₀ (sub.merge (get m₀) (get m))
  accepts := sub.Nested
  typed := by decide
  writes m := by
    rw [List.flatMap_singleton]
    exact (sub.emits_writeNested (get m)).tagged _
  size_eq m := by
    simp only [List.flatMap_singleton, List.length_cons, prefixed, List.length_append, sub.size_eq,
      sov_eq_length]
    omega
  isLocal m := local_readInto local_readSlice _ m
  reads m₀ m short := by
    have fits := short _ List.mem_cons_self
    have inner : (sub.encode (get m)).length < 2 ^ 63 := by
      rw [prefixed, List.length_append] at fits
      omega
    exact ⟨_, reads_into (isSlice_prefixed fits).reads (by rw [Schema.unmarshal_encode _ _ inner]; rfl), rfl⟩
  accepted := sub.accepted_nested get set

/-- A list of messages, each read into a new message at the end of the list. -/
def repeated (number : ℕ) (name : String) (sub : MessageType N) (get : M → List N)
    (set : M → List N → M) (get_set : ∀ m ns, get (set m ns) = ns)
    (set_set : ∀ m ns ns', set (set m ns) ns' = set m ns') (set_get : ∀ m, set m (get m) = m) :
    Field M where
  number
  name
  wireType := 2
  size m := ((get m).map fun e =>
    let l := sub.size e
    1 + l + sov (UInt64.ofNat l)).sum
  write m buf := (get m).foldr (fun e written =>
    (written.bind (sub.writeNested e)).bind (pushByte (tagByte number 2))) (some buf)
  read := readInto readSlice fun m data => do return set m (get m ++ [← sub.decode data])
  payloads m := (get m).map fun e => prefixed (sub.encode e)
  merge m₀ m := set m₀ (get m₀ ++ get m)
  accepts := sub.Nested
  typed := by decide
  writes m := by
    induction get m with
    | nil => exact emits_some
    | cons e rest ih =>
        simpa only [List.foldr_cons, List.map_cons, List.flatMap_cons, Option.bind_assoc] using
          ih.andThen ((sub.emits_writeNested e).tagged (tagByte number 2))
  size_eq m := by
    simp only [List.length_flatMap, List.map_map, Function.comp_def, List.length_cons, prefixed,
      List.length_append, sub.size_eq, sov_eq_length]
    congr 2
    funext e
    omega
  isLocal m := local_readInto local_readSlice _ m
  reads m₀ m short := by
    generalize get m = es at short
    induction es generalizing m₀ with
    | nil =>
        show m₀ = set m₀ (get m₀ ++ [])
        rw [List.append_nil, set_get]
    | cons e rest ih =>
        simp only [List.map_cons, List.forall_mem_cons] at short
        obtain ⟨fits, rest_short⟩ := short
        have inner : (sub.encode e).length < 2 ^ 63 := by
          rw [prefixed, List.length_append] at fits
          omega
        refine ⟨_, reads_into (isSlice_prefixed fits).reads (by rw [MessageType.decode_encode inner]; rfl), ?_⟩
        have others := ih (set m₀ (get m₀ ++ [e])) rest_short
        simpa only [get_set, set_set, List.append_assoc, List.singleton_append] using others
  accepted := sub.accepted_nested (fun _ => sub.zero) fun m n => set m (get m ++ [n])

end Field

/-! ## One of several messages -/

/-- `i -= size` and a write that fills `dAtA[i:][:size]` from its end. -/
def fillSlice (size : ℕ) (write : Buffer → Option Buffer) (buf : Buffer) : Option Buffer := do
  let i := buf.i - size
  if i < 0 ∨ buf.dAtA.length < i then none
  let slice := buf.dAtA.drop i.toNat
  let filled ← write ⟨slice.take size, size⟩
  return ⟨buf.dAtA.take i.toNat ++ (filled.dAtA ++ slice.drop size), i⟩

theorem Emits.fillSlice {write : Buffer → Option Buffer} {bytes : Bytes} (h : Emits write bytes) :
    Emits (fillSlice bytes.length write) bytes := by
  intro front back
  unfold Library.fillSlice
  by_cases room : bytes.length ≤ front.length
  · have inside : ¬((front.length : ℤ) - bytes.length < 0 ∨
        ((front ++ back).length : ℤ) < front.length - bytes.length) := by
      rw [List.length_append]
      omega
    have offset : ((front.length : ℤ) - bytes.length).toNat = front.length - bytes.length := by omega
    have hole : (front.drop (front.length - bytes.length)).length = bytes.length := by
      rw [List.length_drop]
      omega
    have filled := h (front.drop (front.length - bytes.length)) []
    rw [hole, if_pos le_rfl, List.append_nil, List.append_nil, Nat.sub_self, List.take_zero,
      List.nil_append] at filled
    have slice : (front ++ back).drop (front.length - bytes.length) =
        front.drop (front.length - bytes.length) ++ back :=
      List.drop_append_of_le_length (Nat.sub_le _ _)
    have start : (front.drop (front.length - bytes.length) ++ back).take bytes.length =
        front.drop (front.length - bytes.length) := List.take_left' hole
    have behind : (front.drop (front.length - bytes.length) ++ back).drop bytes.length = back :=
      List.drop_left' hole
    rw [if_pos room]
    simp only [inside, if_false, offset, slice, start, behind, filled, Nat.cast_sub room,
      List.take_append_of_le_length (Nat.sub_le front.length bytes.length)]
    rfl
  · have outside : (front.length : ℤ) - bytes.length < 0 ∨
        ((front ++ back).length : ℤ) < front.length - bytes.length := by omega
    rw [if_neg room, if_pos outside]
    rfl

namespace Field

/-- `some none` is a chosen member that holds no message; nothing is written for it. -/
def oneof (number : ℕ) (name : String) (sub : MessageType N) (get : M → Option (Option N))
    (set : M → N → M) : Field M where
  number
  name
  wireType := 2
  size m :=
    match get m with
    | some (some n) =>
        let l := sub.size n
        1 + l + sov (UInt64.ofNat l)
    | _ => 0
  write m buf :=
    match get m with
    | none => some buf
    | some none => fillSlice 0 some buf
    | some (some n) =>
        let l := sub.size n
        fillSlice (1 + l + sov (UInt64.ofNat l))
          (fun buf => (sub.writeNested n buf).bind (pushByte (tagByte number 2))) buf
  read := readInto readSlice fun m data => do return set m (← sub.decode data)
  payloads m :=
    match get m with
    | some (some n) => [prefixed (sub.encode n)]
    | _ => []
  merge m₀ m :=
    match get m with
    | some (some n) => set m₀ n
    | _ => m₀
  accepts := sub.Nested
  typed := by decide
  writes m := by
    rcases get m with _ | _ | n
    · exact emits_some
    · exact emits_some.fillSlice
    · have size : 1 + sub.size n + sov (UInt64.ofNat (sub.size n)) =
          (tagByte number 2 :: prefixed (sub.encode n)).length := by
        simp only [List.length_cons, prefixed, List.length_append, sub.size_eq, sov_eq_length]
        omega
      simp only [List.flatMap_singleton, size]
      exact ((sub.emits_writeNested n).tagged _).fillSlice
  size_eq m := by
    rcases get m with _ | _ | n
    · rfl
    · rfl
    · simp only [List.flatMap_singleton, List.length_cons, prefixed, List.length_append, sub.size_eq,
        sov_eq_length]
      omega
  isLocal m := local_readInto local_readSlice _ m
  reads m₀ m short := by
    revert short
    rcases get m with _ | _ | n <;> intro short
    · rfl
    · rfl
    · have fits := short _ List.mem_cons_self
      have inner : (sub.encode n).length < 2 ^ 63 := by
        rw [prefixed, List.length_append] at fits
        omega
      exact ⟨_, reads_into (isSlice_prefixed fits).reads (by rw [MessageType.decode_encode inner]; rfl), rfl⟩
  accepted := sub.accepted_nested (fun _ => sub.zero) set

end Field

/-! ## What is read on top of a message -/

/-- The value of a field on top of another: zero is not written, and so does not replace. -/
def overlaid {V : Type} [DecidableEq V] (zero under top : V) : V := if top = zero then under else top

theorem overlaid_zero {V : Type} [DecidableEq V] (zero top : V) : overlaid zero zero top = top := by
  unfold overlaid
  split
  · rename_i empty
    exact empty.symm
  · rfl

section Merge

variable {number : ℕ} {name : String} {m₀ : M}

theorem merge_int64 {get : M → Int64} {set : M → Int64 → M} (kept : set m₀ (get m₀) = m₀) (m : M) :
    (Field.int64 number name get set).merge m₀ m = set m₀ (overlaid 0 (get m₀) (get m)) := by
  by_cases zero : get m = 0 <;> simp [Field.int64, overlaid, zero, kept]

theorem merge_bool {get : M → Bool} {set : M → Bool → M} (kept : set m₀ (get m₀) = m₀) (m : M) :
    (Field.bool number name get set).merge m₀ m = set m₀ (overlaid false (get m₀) (get m)) := by
  cases value : get m <;> simp [Field.bool, overlaid, value, kept]

theorem merge_string {get : M → Bytes} {set : M → Bytes → M} (kept : set m₀ (get m₀) = m₀) (m : M) :
    (Field.string number name get set).merge m₀ m = set m₀ (overlaid [] (get m₀) (get m)) := by
  cases value : get m <;> simp [Field.string, overlaid, value, kept]

theorem merge_message {sub : Schema N} {get : M → N} {set : M → N → M} (m : M) :
    (Field.message number name sub get set).merge m₀ m = set m₀ (sub.merge (get m₀) (get m)) := rfl

theorem merge_repeated {sub : MessageType N} {get : M → List N} {set : M → List N → M}
    {get_set : ∀ m ns, get (set m ns) = ns} {set_set : ∀ m ns ns', set (set m ns) ns' = set m ns'}
    {set_get : ∀ m, set m (get m) = m} (m : M) :
    (Field.repeated number name sub get set get_set set_set set_get).merge m₀ m =
      set m₀ (get m₀ ++ get m) := rfl

end Merge

end Fandomchain.Library
