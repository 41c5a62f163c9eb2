import Fandomchain.Library.Skip

/-!
# Messages of numbered fields

A message is written field by field from the last to the first, and read record by record in any
order. A field cannot be built unless what it writes is what it reads, so whatever schema is made of
such fields round-trips.
-/

namespace Fandomchain.Library

variable {ρ M N : Type}

/-! ## Fields -/

/-- `read` takes `used` off the input, wherever it stands and whatever follows. -/
def Reads (read : Cursor → Except WireError (ρ × Cursor)) (used : Bytes) (r : ρ) : Prop :=
  ∀ index rest, index + used.length < 2 ^ 63 →
    read ⟨index, used ++ rest⟩ = .ok (r, ⟨index + used.length, rest⟩)

def Local (read : Cursor → Except WireError (ρ × Cursor)) : Prop :=
  ∀ c r c', read c = .ok (r, c') →
    ∃ used, c.rest = used ++ c'.rest ∧ c'.index = c.index + used.length ∧ Reads read used r

def ReadsAll (read : M → Cursor → Except WireError (M × Cursor)) : M → List Bytes → M → Prop
  | before, [], after => before = after
  | before, payload :: payloads, after =>
      ∃ between, Reads (read before) payload between ∧ ReadsAll read between payloads after

def tagByte (number wireType : ℕ) : UInt8 := UInt8.ofNat (8 * number + wireType)

structure Field (M : Type) where
  number : ℕ
  name : String
  wireType : ℕ
  size : M → ℕ
  write : M → Buffer → Option Buffer
  read : M → Cursor → Except WireError (M × Cursor)
  /-- What the field writes behind its tag, and what reading that makes of a message. -/
  payloads : M → List Bytes
  merge : M → M → M
  accepts : Bytes → Prop
  typed : wireType < 8 ∧ wireType ≠ 4
  writes : ∀ m, Emits (write m) ((payloads m).flatMap (tagByte number wireType :: ·))
  size_eq : ∀ m, size m = ((payloads m).flatMap (tagByte number wireType :: ·)).length
  isLocal : ∀ m, Local (read m)
  reads : ∀ m₀ m, (∀ payload ∈ payloads m, payload.length < 2 ^ 63) →
    ReadsAll read m₀ (payloads m) (merge m₀ m)
  accepted : ∀ m payload, payload.length < 2 ^ 63 →
    ((∃ m', Reads (read m) payload m') ↔ accepts payload)

def Field.encode (f : Field M) (m : M) : Bytes :=
  (f.payloads m).flatMap (tagByte f.number f.wireType :: ·)

structure Schema (M : Type) where
  name : String
  fields : List (Field M)
  distinct : (fields.map Field.number).Nodup
  numbered : ∀ number ∈ fields.map Field.number, 0 < number ∧ number < 16

namespace Schema

variable (s : Schema M)

/-! ## Writing -/

def size (m : M) : ℕ := (s.fields.map (·.size m)).sum

def write (m : M) (buf : Buffer) : Option Buffer :=
  s.fields.foldr (fun f written => written.bind (f.write m)) (some buf)

/-- The number of bytes written, and the buffer. -/
def marshalToSizedBuffer (m : M) (dAtA : Bytes) : Option (ℤ × Bytes) := do
  let buf ← s.write m ⟨dAtA, dAtA.length⟩
  return (dAtA.length - buf.i, buf.dAtA)

def marshal (m : M) : Option Bytes := do
  let (n, dAtA) ← s.marshalToSizedBuffer m (List.replicate (s.size m) 0)
  return dAtA.take n.toNat

def encode (m : M) : Bytes := s.fields.flatMap (·.encode m)

theorem size_eq (m : M) : s.size m = (s.encode m).length := by
  simp only [size, encode, List.length_flatMap, Field.size_eq, Field.encode]

theorem emits_write (m : M) : Emits (s.write m) (s.encode m) := by
  unfold write encode
  induction s.fields with
  | nil => exact emits_some
  | cons f rest ih => exact ih.andThen (f.writes m)

theorem marshalToSizedBuffer_eq (m : M) (dAtA : Bytes) :
    s.marshalToSizedBuffer m dAtA = if (s.encode m).length ≤ dAtA.length then
      some (((s.encode m).length : ℤ),
        dAtA.take (dAtA.length - (s.encode m).length) ++ s.encode m)
    else none := by
  have written := s.emits_write m dAtA []
  simp only [List.append_nil] at written
  unfold marshalToSizedBuffer
  rw [written]
  split
  · rename_i room
    simp [Nat.cast_sub room]
  · rfl

theorem marshal_eq (m : M) : s.marshal m = some (s.encode m) := by
  unfold marshal
  rw [marshalToSizedBuffer_eq, size_eq, if_pos (by simp)]
  simp

/-! ## Reading -/

def fieldNumOf (wire : UInt64) : Int32 := (wire >>> 3).toUInt32.toInt32

def known (wire : UInt64) : Option (Field M) :=
  s.fields.find? fun f => (f.number : ℤ) = (fieldNumOf wire).toInt

/-- What is done with the record of the tag `wire`: `c` stands before the tag, `after` behind it. -/
def dispatch (m : M) (wire : UInt64) (c after : Cursor) : Except WireError (M × Cursor) :=
  if wireTypeOf wire = 4 then .error (.endGroup s.name)
  else if fieldNumOf wire ≤ 0 then .error (.illegalTag s.name (fieldNumOf wire) wire)
  else match s.known wire with
    | some f =>
        if wireTypeOf wire ≠ f.wireType then .error (.wrongWireType f.name (wireTypeOf wire))
        else f.read m after
    | none => do
        let skippy ← skip c.rest
        if 2 ^ 63 ≤ c.index + skippy then throw .invalidLength
        if c.rest.length < skippy then throw .unexpectedEOF
        return (m, c.advance skippy)

def step (m : M) (c : Cursor) : Except WireError (M × Cursor) := do
  let (wire, after) ← readVarint c
  s.dispatch m wire c after

/-! ## Records -/

/-- A whole record, and what it makes of `m`. -/
inductive Record (m : M) : Bytes → M → Prop
  | known {tag payload : Bytes} {wire : UInt64} {f : Field M} {m' : M} : IsVarint tag wire →
      0 < fieldNumOf wire → s.known wire = some f → wireTypeOf wire = f.wireType →
      Reads (f.read m) payload m' → Record m (tag ++ payload) m'
  | unknown {tag payload : Bytes} {wire : UInt64} : IsVarint tag wire → 0 < fieldNumOf wire →
      s.known wire = none → Payload (wireTypeOf wire) payload → Record m (tag ++ payload) m

inductive Records : M → Bytes → M → Prop
  | nil {m : M} : Records m [] m
  | cons {m m₁ m' : M} {used rest : Bytes} : s.Record m used m₁ → Records m₁ rest m' →
      Records m (used ++ rest) m'

end Schema

theorem Payload.not_stop {wireType : ℕ} {payload : Bytes} (h : Payload wireType payload) :
    wireType ≠ 4 := by
  cases h <;> decide

namespace Schema

variable {s : Schema M}

theorem Record.ne_nil {m m' : M} {used : Bytes} (h : s.Record m used m') : used ≠ [] := by
  cases h with
  | known spelled => simp [spelled.ne_nil]
  | unknown spelled => simp [spelled.ne_nil]

theorem Record.reads {m m' : M} {used : Bytes} (h : s.Record m used m') : Reads (s.step m) used m' := by
  intro index rest fits
  cases h with
  | @known tag payload wire f m' spelled legal found same reads =>
      rw [List.length_append, ← add_assoc] at fits ⊢
      simp only [step, List.append_assoc, spelled.read, bind, Except.bind, dispatch, same, f.typed.2,
        if_false, Int32.not_le.mpr legal, found, ne_eq, not_true_eq_false]
      exact reads (index + tag.length) rest fits
  | @unknown tag payload wire spelled legal absent shape =>
      have skipped := IsRecord.skip ⟨tag, wire, payload, rfl, spelled, shape⟩ rest (by omega)
      have inside : ¬2 ^ 63 ≤ index + (tag ++ payload).length := not_le.mpr fits
      have whole : ¬(tag ++ payload ++ rest).length < (tag ++ payload).length := by
        simp only [List.length_append]
        omega
      have front := spelled.read index (payload ++ rest)
      rw [← List.append_assoc] at front
      simp only [step, front, bind, Except.bind, dispatch, shape.not_stop, if_false,
        Int32.not_le.mpr legal, absent, skipped, inside, whole, pure, Except.pure, advance_append]

theorem step_ok {m m' : M} {c c' : Cursor} (h : s.step m c = .ok (m', c')) :
    ∃ used, Took c c' used ∧ s.Record m used m' := by
  rcases read : readVarint c with _ | ⟨wire, after⟩
  · simp [step, read, bind, Except.bind] at h
  obtain ⟨tag, spelled, took⟩ := readVarint_ok read
  simp only [step, read, bind, Except.bind, dispatch] at h
  split at h
  · cases h
  split at h
  · cases h
  rename_i legal
  have legal' : 0 < fieldNumOf wire := Int32.not_le.mp legal
  split at h
  · rename_i f found
    split at h
    · cases h
    rename_i same
    obtain ⟨payload, rest_eq, index_eq, reads⟩ := f.isLocal m _ _ _ h
    exact ⟨tag ++ payload, Took.andThen took ⟨rest_eq, index_eq⟩,
      .known spelled legal' found (not_not.mp same) reads⟩
  · rename_i absent
    rcases skipped : skip c.rest with _ | skippy
    · simp [skipped] at h
    simp only [skipped] at h
    split at h
    · cases h
    split at h
    · cases h
    rename_i short
    obtain ⟨rfl, rfl⟩ := Prod.mk.inj (Except.ok.inj h)
    obtain ⟨used, rest, rest_eq, rfl, -, tag', wire', payload, rfl, spelled', shape⟩ :=
      skip_iff.mp ⟨skipped, not_lt.mp short⟩
    have same : wire' = wire := by
      have again := spelled'.read c.index (payload ++ rest)
      rw [← List.append_assoc, ← rest_eq, show (⟨c.index, c.rest⟩ : Cursor) = c from rfl, read] at again
      exact (Prod.mk.inj (Except.ok.inj again)).1.symm
    subst same
    refine ⟨tag' ++ payload, ⟨?_, rfl⟩, .unknown spelled' legal' absent shape⟩
    rw [advance_rest, rest_eq, List.drop_left]

theorem step_shrinks {m m' : M} {c c' : Cursor} (h : s.step m c = .ok (m', c')) :
    c'.rest.length < c.rest.length := by
  obtain ⟨used, took, record⟩ := step_ok h
  have := List.length_pos_of_ne_nil record.ne_nil
  rw [took.1, List.length_append]
  omega

variable (s)

def unmarshalFrom (m : M) (c : Cursor) : Except WireError M :=
  match c.rest with
  | [] => .ok m
  | _ :: _ =>
      match _taken : s.step m c with
      | .error err => .error err
      | .ok (m', c') => unmarshalFrom m' c'
termination_by c.rest.length
decreasing_by exact step_shrinks _taken

/-- What is read goes on top of `m`. -/
def unmarshal (m : M) (dAtA : Bytes) : Except WireError M := s.unmarshalFrom m ⟨0, dAtA⟩

variable {s}

theorem unmarshalFrom_nil (m : M) (index : ℕ) : s.unmarshalFrom m ⟨index, []⟩ = .ok m := by
  rw [unmarshalFrom]

theorem unmarshalFrom_step {m m' : M} {c c' : Cursor} (taken : s.step m c = .ok (m', c')) :
    s.unmarshalFrom m c = s.unmarshalFrom m' c' := by
  have shrinks := step_shrinks taken
  rw [unmarshalFrom]
  split
  · rename_i empty
    simp [empty] at shrinks
  · split <;> rename_i same <;> rw [taken] at same <;> cases same
    rfl

theorem unmarshalFrom_failed {m : M} {c : Cursor} {err : WireError} (more : c.rest ≠ [])
    (failed : s.step m c = .error err) : s.unmarshalFrom m c = .error err := by
  rw [unmarshalFrom]
  split
  · contradiction
  · split <;> rename_i same <;> rw [failed] at same <;> cases same
    rfl

theorem Records.unmarshalFrom {m m' : M} {used : Bytes} (h : s.Records m used m') (index : ℕ)
    (rest : Bytes) (fits : index + used.length < 2 ^ 63) :
    s.unmarshalFrom m ⟨index, used ++ rest⟩ = s.unmarshalFrom m' ⟨index + used.length, rest⟩ := by
  induction h generalizing index with
  | nil => rfl
  | @cons m m₁ m' used others record _ ih =>
      rw [List.length_append, ← add_assoc] at fits ⊢
      have taken := record.reads index (others ++ rest) (by omega)
      rw [List.append_assoc, unmarshalFrom_step taken, ih _ fits]

theorem records_of_unmarshalFrom {m m' : M} {c : Cursor} (h : s.unmarshalFrom m c = .ok m') :
    s.Records m c.rest m' := by
  induction size : c.rest.length using Nat.strong_induction_on generalizing m c with
  | _ size ih =>
      subst size
      by_cases more : c.rest = []
      · rw [show c = ⟨c.index, []⟩ by rw [← more], unmarshalFrom_nil] at h
        rw [Except.ok.inj h, more]
        exact .nil
      · rcases taken : s.step m c with err | ⟨m₁, c₁⟩
        · rw [unmarshalFrom_failed more taken] at h
          cases h
        · obtain ⟨used, took, record⟩ := step_ok taken
          rw [unmarshalFrom_step taken] at h
          rw [took.1]
          exact .cons record (ih _ (step_shrinks taken) h rfl)

/-- The reader accepts the sequences of whole records and nothing else. -/
theorem unmarshal_iff {m m' : M} {dAtA : Bytes} (fits : dAtA.length < 2 ^ 63) :
    s.unmarshal m dAtA = .ok m' ↔ s.Records m dAtA m' := by
  constructor
  · exact records_of_unmarshalFrom
  · intro h
    have read := h.unmarshalFrom 0 [] (by omega)
    rwa [List.append_nil, unmarshalFrom_nil] at read

theorem Records.append {m m₁ m' : M} {a b : Bytes} (ha : s.Records m a m₁) (hb : s.Records m₁ b m') :
    s.Records m (a ++ b) m' := by
  induction ha with
  | nil => exact hb
  | cons record _ ih =>
      rw [List.append_assoc]
      exact .cons record (ih hb)

theorem Record.single {m m' : M} {used : Bytes} (h : s.Record m used m') : s.Records m used m' := by
  have one := Records.cons h .nil
  rwa [List.append_nil] at one

/-- Behind what was accepted the reader goes on from what it has read. -/
theorem unmarshal_append {m₀ m₁ m : M} {a b : Bytes} (accepted : s.unmarshal m₀ a = .ok m₁)
    (fits : (a ++ b).length < 2 ^ 63) :
    s.unmarshal m₀ (a ++ b) = .ok m ↔ s.unmarshal m₁ b = .ok m := by
  have fits' := fits
  rw [List.length_append] at fits'
  have first := (unmarshal_iff (by omega)).mp accepted
  rw [unmarshal_iff (by omega : b.length < 2 ^ 63), unmarshal, first.unmarshalFrom 0 b (by omega)]
  constructor
  · exact records_of_unmarshalFrom
  · intro others
    have read := others.unmarshalFrom (0 + a.length) [] (by omega)
    rwa [List.append_nil, unmarshalFrom_nil] at read

/-! ## What is accepted -/

theorem mem_of_known {wire : UInt64} {f : Field M} (found : s.known wire = some f) : f ∈ s.fields :=
  List.mem_of_find?_eq_some found

/-- Whole records, each known one of the wire type and the form of its field. -/
inductive WellFormed (s : Schema M) : Bytes → Prop
  | nil : WellFormed s []
  | known {tag payload rest : Bytes} {wire : UInt64} {f : Field M} : IsVarint tag wire →
      0 < fieldNumOf wire → s.known wire = some f → wireTypeOf wire = f.wireType →
      f.accepts payload → WellFormed s rest → WellFormed s (tag ++ payload ++ rest)
  | unknown {tag payload rest : Bytes} {wire : UInt64} : IsVarint tag wire →
      0 < fieldNumOf wire → s.known wire = none → Payload (wireTypeOf wire) payload →
      WellFormed s rest → WellFormed s (tag ++ payload ++ rest)

theorem Records.wellFormed {m m' : M} {dAtA : Bytes} (h : s.Records m dAtA m')
    (fits : dAtA.length < 2 ^ 63) : s.WellFormed dAtA := by
  induction h with
  | nil => exact .nil
  | @cons m m₁ m' used rest record _ ih =>
      rw [List.length_append] at fits
      have others := ih (by omega)
      cases record with
      | @known tag payload wire f _ spelled legal found same reads =>
          rw [List.length_append] at fits
          have shaped := (f.accepted m payload (by omega)).mp ⟨m₁, reads⟩
          exact .known spelled legal found same shaped others
      | unknown spelled legal absent shape => exact .unknown spelled legal absent shape others

theorem WellFormed.records {dAtA : Bytes} (h : s.WellFormed dAtA) (fits : dAtA.length < 2 ^ 63) (m : M) :
    ∃ m', s.Records m dAtA m' := by
  induction h generalizing m with
  | nil => exact ⟨m, .nil⟩
  | @known tag payload rest wire f spelled legal found same shaped _ ih =>
      simp only [List.length_append] at fits
      obtain ⟨m₁, reads⟩ := (f.accepted m payload (by omega)).mpr shaped
      obtain ⟨m', others⟩ := ih (by omega) m₁
      exact ⟨m', .cons (.known spelled legal found same reads) others⟩
  | unknown spelled legal absent shape _ ih =>
      rw [List.length_append] at fits
      obtain ⟨m', others⟩ := ih (by omega) m
      exact ⟨m', .cons (.unknown spelled legal absent shape) others⟩

theorem accepted_iff {dAtA : Bytes} (fits : dAtA.length < 2 ^ 63) (m : M) :
    (∃ m', s.unmarshal m dAtA = .ok m') ↔ s.WellFormed dAtA := by
  constructor
  · rintro ⟨m', accepted⟩
    exact ((unmarshal_iff fits).mp accepted).wellFormed fits
  · intro h
    obtain ⟨m', records⟩ := h.records fits m
    exact ⟨m', (unmarshal_iff fits).mpr records⟩

/-! ## Round trips -/

theorem known_of_mem {f : Field M} (mem : f ∈ s.fields) {wire : UInt64}
    (number : (fieldNumOf wire).toInt = f.number) : s.known wire = some f := by
  unfold known
  have found : (s.fields.find? fun f => (f.number : ℤ) = (fieldNumOf wire).toInt).isSome := by
    rw [List.find?_isSome]
    exact ⟨f, mem, by simp [number]⟩
  obtain ⟨g, hg⟩ := Option.isSome_iff_exists.mp found
  rw [hg]
  have same : g.number = f.number := by
    have := List.find?_some hg
    simp only [number, decide_eq_true_eq] at this
    omega
  exact congrArg some (List.inj_on_of_nodup_map s.distinct (List.mem_of_find?_eq_some hg) mem same)

theorem isVarint_tag {number wireType : ℕ} (number_lt : number < 16) (type_lt : wireType < 8) :
    IsVarint [tagByte number wireType] (UInt64.ofNat (8 * number + wireType)) where
  continued := by
    apply Continued.last
    rw [UInt8.lt_iff_toNat_lt, tagByte, UInt8.toNat_ofNat']
    show (8 * number + wireType) % 256 < 128
    omega
  short := by simp
  value := by
    rw [varintValue, varintValue, tagByte, UInt8.toNat_ofNat']
    congr 1
    omega

theorem wireTypeOf_tag {number wireType : ℕ} (number_lt : number < 16) (type_lt : wireType < 8) :
    wireTypeOf (UInt64.ofNat (8 * number + wireType)) = wireType := by
  interval_cases number <;> interval_cases wireType <;> rfl

theorem fieldNumOf_tag {number wireType : ℕ} (number_lt : number < 16) (type_lt : wireType < 8) :
    (fieldNumOf (UInt64.ofNat (8 * number + wireType))).toInt = number := by
  interval_cases number <;> interval_cases wireType <;> rfl

theorem record_of_mem {f : Field M} (mem : f ∈ s.fields) {m m' : M} {payload : Bytes}
    (reads : Reads (f.read m) payload m') :
    s.Record m (tagByte f.number f.wireType :: payload) m' := by
  obtain ⟨positive, number_lt⟩ := s.numbered f.number (List.mem_map_of_mem mem)
  have number := fieldNumOf_tag number_lt f.typed.1
  have legal : 0 < fieldNumOf (UInt64.ofNat (8 * f.number + f.wireType)) := by
    rw [Int32.lt_iff_toInt_lt, number]
    show (0 : ℤ) < f.number
    omega
  exact .known (isVarint_tag number_lt f.typed.1) legal (known_of_mem mem number)
    (wireTypeOf_tag number_lt f.typed.1) reads

variable (s)

def merge (m₀ m : M) : M := s.fields.foldl (fun before f => f.merge before m) m₀

variable {s}

theorem records_field {f : Field M} (mem : f ∈ s.fields) (m₀ m : M)
    (short : (f.encode m).length < 2 ^ 63) : s.Records m₀ (f.encode m) (f.merge m₀ m) := by
  have each : ∀ payload ∈ f.payloads m, payload.length < 2 ^ 63 := by
    intro payload hp
    have part := List.single_le_sum (l := (f.payloads m).map
      fun payload => (tagByte f.number f.wireType :: payload).length) (by simp)
      (payload.length + 1) (List.mem_map.mpr ⟨payload, hp, rfl⟩)
    rw [Field.encode, List.length_flatMap] at short
    omega
  have all := f.reads m₀ m each
  unfold Field.encode
  generalize f.payloads m = payloads at all
  generalize f.merge m₀ m = m' at all
  induction payloads generalizing m₀ with
  | nil =>
      rw [show m₀ = m' from all]
      exact .nil
  | cons payload payloads ih =>
      obtain ⟨between, first, others⟩ := all
      exact .cons (record_of_mem mem first) (ih between others)

theorem records_fields {fields : List (Field M)} (mem : ∀ f ∈ fields, f ∈ s.fields) (m₀ m : M)
    (short : (fields.flatMap (·.encode m)).length < 2 ^ 63) :
    s.Records m₀ (fields.flatMap (·.encode m)) (fields.foldl (fun before f => f.merge before m) m₀) := by
  induction fields generalizing m₀ with
  | nil => exact .nil
  | cons f others ih =>
      obtain ⟨first, others_mem⟩ := List.forall_mem_cons.mp mem
      rw [List.flatMap_cons, List.length_append] at short
      exact (records_field first m₀ m (by omega)).append (ih others_mem _ (by omega))

theorem records_encode (m₀ m : M) (short : (s.encode m).length < 2 ^ 63) :
    s.Records m₀ (s.encode m) (s.merge m₀ m) :=
  records_fields (fun _ mem => mem) m₀ m short

theorem unmarshal_encode (m₀ m : M) (fits : (s.encode m).length < 2 ^ 63) :
    s.unmarshal m₀ (s.encode m) = .ok (s.merge m₀ m) :=
  (unmarshal_iff fits).mpr (records_encode m₀ m fits)

/-! ## Unknown records -/

/-- A whole record under a number that no field has. -/
def Unknown (s : Schema M) (bytes : Bytes) : Prop :=
  ∃ tag wire payload, bytes = tag ++ payload ∧ IsVarint tag wire ∧ 0 < fieldNumOf wire ∧
    s.known wire = none ∧ Payload (wireTypeOf wire) payload

theorem Unknown.record {bytes : Bytes} (h : s.Unknown bytes) (m : M) : s.Record m bytes m := by
  obtain ⟨tag, wire, payload, rfl, spelled, legal, absent, shape⟩ := h
  exact .unknown spelled legal absent shape

inductive AllUnknown (s : Schema M) : Bytes → Prop
  | nil : AllUnknown s []
  | cons {used rest : Bytes} : s.Unknown used → AllUnknown s rest → AllUnknown s (used ++ rest)

theorem AllUnknown.records {dAtA : Bytes} (h : s.AllUnknown dAtA) (m : M) : s.Records m dAtA m := by
  induction h with
  | nil => exact .nil
  | cons unknown _ ih => exact .cons (unknown.record m) ih

/-- An unknown record between two others changes nothing. -/
theorem unmarshal_unknown {m₀ m₁ m : M} {a unknown b : Bytes} (accepted : s.unmarshal m₀ a = .ok m₁)
    (h : s.Unknown unknown) (fits : (a ++ (unknown ++ b)).length < 2 ^ 63) :
    s.unmarshal m₀ (a ++ (unknown ++ b)) = .ok m ↔ s.unmarshal m₀ (a ++ b) = .ok m := by
  have fits' := fits
  simp only [List.length_append] at fits'
  have skipped : s.unmarshal m₁ unknown = .ok m₁ :=
    (unmarshal_iff (by omega)).mpr (h.record m₁).single
  rw [unmarshal_append accepted fits, unmarshal_append accepted (by simp only [List.length_append]; omega),
    unmarshal_append skipped (by simp only [List.length_append]; omega)]

end Schema

/-! ## Message types -/

/-- A schema with the message that a new one starts as, on which every message is read whole. -/
structure MessageType (M : Type) extends Schema M where
  zero : M
  whole : ∀ m, toSchema.merge zero m = m

namespace MessageType

variable (t : MessageType M)

def decode (dAtA : Bytes) : Except WireError M := t.unmarshal t.zero dAtA

variable {t}

theorem decode_encode {m : M} (fits : (t.encode m).length < 2 ^ 63) : t.decode (t.encode m) = .ok m := by
  rw [decode, Schema.unmarshal_encode t.zero m fits, t.whole]

theorem decode_encode_append {under top : M}
    (fits : (t.encode under ++ t.encode top).length < 2 ^ 63) :
    t.decode (t.encode under ++ t.encode top) = .ok (t.merge under top) := by
  have fits' := fits
  rw [List.length_append] at fits'
  rw [decode, Schema.unmarshal_append (decode_encode (by omega)) fits]
  exact Schema.unmarshal_encode under top (by omega)

theorem encode_inj {a b : M} (fits : (t.encode a).length < 2 ^ 63) :
    t.encode a = t.encode b ↔ a = b := by
  constructor
  · intro same
    have back := decode_encode fits
    rw [same, decode_encode (same ▸ fits)] at back
    exact (Except.ok.inj back).symm
  · exact congrArg t.encode

end MessageType

end Fandomchain.Library
