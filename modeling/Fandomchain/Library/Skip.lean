import Fandomchain.Library.Varint

/-!
# Skipping a record

A record of the wire format is a tag, whose three low bits give the wire type, and a payload. A
reader steps over one that it does not know by its wire type alone, down to the end of a group.
-/

namespace Fandomchain.Library

def wireTypeOf (wire : UInt64) : ℕ := (wire &&& 0x7).toNat

/-- The payload may reach beyond the end of the input. -/
def skipPayload (wireType depth : ℕ) (c : Cursor) : Except WireError (ℕ × Cursor) :=
  match wireType with
  | 0 => do
      let (_, c) ← readVarint c
      return (depth, c)
  | 1 => return (depth, c.advance 8)
  | 2 => do
      let (length, c) ← readVarint c
      if 2 ^ 63 ≤ length.toNat then throw .invalidLength
      return (depth, c.advance length.toNat)
  | 3 => return (depth + 1, c)
  | 4 => if depth = 0 then throw .unexpectedEndOfGroup else return (depth - 1, c)
  | 5 => return (depth, c.advance 4)
  | wireType => throw (.illegalWireType wireType)

def skipOne (depth : ℕ) (c : Cursor) : Except WireError (ℕ × Cursor) := do
  let (wire, c) ← readVarint c
  skipPayload (wireTypeOf wire) depth c

@[simp] theorem advance_index (n : ℕ) (c : Cursor) : (c.advance n).index = c.index + n := rfl

@[simp] theorem advance_rest (n : ℕ) (c : Cursor) : (c.advance n).rest = c.rest.drop n := rfl

theorem advance_append (index : ℕ) (used rest : Bytes) :
    (⟨index, used ++ rest⟩ : Cursor).advance used.length = ⟨index + used.length, rest⟩ := by
  simp [Cursor.advance]

/-! ## Records of any shape -/

/-- The payloads of each wire type; that of a group is its records and its end tag. -/
inductive Payload : ℕ → Bytes → Prop
  | varint {bytes : Bytes} {v : UInt64} : IsVarint bytes v → Payload 0 bytes
  | fixed64 {data : Bytes} : data.length = 8 → Payload 1 data
  | bytes {size data : Bytes} {length : UInt64} : IsVarint size length →
      data.length = length.toNat → data.length < 2 ^ 63 → Payload 2 (size ++ data)
  | endGroup {tag : Bytes} {wire : UInt64} : IsVarint tag wire → wireTypeOf wire = 4 → Payload 3 tag
  | inGroup {tag payload rest : Bytes} {wire : UInt64} : IsVarint tag wire →
      Payload (wireTypeOf wire) payload → Payload 3 rest → Payload 3 (tag ++ (payload ++ rest))
  | fixed32 {data : Bytes} : data.length = 4 → Payload 5 data

/-- What the bytes behind a tag of this wire type do to the depth. -/
inductive Deepens : ℕ → ℕ → Bytes → ℕ → Prop
  | payload {wireType depth : ℕ} {used : Bytes} : Payload wireType used → wireType ≠ 3 →
      Deepens wireType depth used depth
  | start {depth : ℕ} : Deepens 3 depth [] (depth + 1)
  | stop {depth : ℕ} : Deepens 4 (depth + 1) [] depth

theorem Deepens.read {wireType depth depth' : ℕ} {used : Bytes}
    (h : Deepens wireType depth used depth') (index : ℕ) (rest : Bytes) :
    skipPayload wireType depth ⟨index, used ++ rest⟩ = .ok (depth', ⟨index + used.length, rest⟩) := by
  cases h with
  | start => rfl
  | stop => rfl
  | payload shape not_group =>
      cases shape with
      | varint spelled =>
          simp [skipPayload, spelled.read, bind, Except.bind, pure, Except.pure]
      | fixed64 size =>
          simp only [skipPayload, ← size, advance_append, pure, Except.pure]
      | @bytes size data length spelled exact small =>
          have small' : ¬2 ^ 63 ≤ data.length := not_le.mpr small
          simp only [skipPayload, List.append_assoc, spelled.read, bind, Except.bind, ← exact, small',
            if_false, advance_append, pure, Except.pure, List.length_append, add_assoc]
      | endGroup => exact absurd rfl not_group
      | inGroup => exact absurd rfl not_group
      | fixed32 size =>
          simp only [skipPayload, ← size, advance_append, pure, Except.pure]

/-! ## What is skipped is a record -/

def Overshot (c c' : Cursor) : Prop := c.index + c.rest.length < c'.index ∧ c'.rest = []

/-- `used` was taken off the input. -/
def Took (c c' : Cursor) (used : Bytes) : Prop :=
  c.rest = used ++ c'.rest ∧ c'.index = c.index + used.length

theorem advance_cases (n : ℕ) (c : Cursor) :
    Overshot c (c.advance n) ∨ ∃ used, used.length = n ∧ Took c (c.advance n) used := by
  by_cases long : n ≤ c.rest.length
  · have size : (c.rest.take n).length = n := by rw [List.length_take, min_eq_left long]
    exact .inr ⟨c.rest.take n, size, (List.take_append_drop n c.rest).symm, by rw [size, advance_index]⟩
  · have short := not_le.mp long
    exact .inl ⟨Nat.add_lt_add_left short _, List.drop_of_length_le short.le⟩

theorem Took.andThen {c c' c'' : Cursor} {first second : Bytes} (hf : Took c c' first)
    (hs : Took c' c'' second) : Took c c'' (first ++ second) := by
  constructor
  · rw [hf.1, hs.1, List.append_assoc]
  · rw [hs.2, hf.2, List.length_append, add_assoc]

theorem Took.overshot {c c' c'' : Cursor} {used : Bytes} (took : Took c c' used)
    (beyond : Overshot c' c'') : Overshot c c'' := by
  refine ⟨?_, beyond.2⟩
  rw [took.1, List.length_append, ← add_assoc, ← took.2]
  exact beyond.1

theorem skipPayload_ok {wireType depth depth' : ℕ} {c c' : Cursor}
    (h : skipPayload wireType depth c = .ok (depth', c')) :
    Overshot c c' ∨ ∃ used, Took c c' used ∧ Deepens wireType depth used depth' := by
  unfold skipPayload at h
  split at h
  · rcases read : readVarint c with _ | ⟨v, c₁⟩
    · simp [read, bind, Except.bind] at h
    · obtain ⟨used, spelled, took⟩ := readVarint_ok read
      simp only [read, bind, Except.bind, pure, Except.pure, Except.ok.injEq, Prod.mk.injEq] at h
      obtain ⟨rfl, rfl⟩ := h
      exact .inr ⟨used, took, .payload (.varint spelled) (by decide)⟩
  · obtain ⟨rfl, rfl⟩ := Prod.mk.inj (Except.ok.inj h)
    rcases advance_cases 8 c with beyond | ⟨used, size, took⟩
    · exact .inl beyond
    · exact .inr ⟨used, took, .payload (.fixed64 size) (by decide)⟩
  · rcases read : readVarint c with _ | ⟨v, c₁⟩
    · simp [read, bind, Except.bind] at h
    · obtain ⟨front, spelled, front_took⟩ := readVarint_ok read
      simp only [read, bind, Except.bind] at h
      split at h
      · cases h
      · rename_i small
        simp only [pure, Except.pure, Except.ok.injEq, Prod.mk.injEq] at h
        obtain ⟨rfl, rfl⟩ := h
        rcases advance_cases v.toNat c₁ with beyond | ⟨data, size, took⟩
        · exact .inl (Took.overshot front_took beyond)
        · exact .inr ⟨front ++ data, Took.andThen front_took took,
            .payload (.bytes spelled size (by omega)) (by decide)⟩
  · obtain ⟨rfl, rfl⟩ := Prod.mk.inj (Except.ok.inj h)
    exact .inr ⟨[], ⟨rfl, rfl⟩, .start⟩
  · split at h
    · cases h
    · rename_i inside
      obtain ⟨rfl, rfl⟩ := Prod.mk.inj (Except.ok.inj h)
      obtain ⟨depth, rfl⟩ := Nat.exists_eq_add_one_of_ne_zero inside
      exact .inr ⟨[], ⟨rfl, rfl⟩, .stop⟩
  · obtain ⟨rfl, rfl⟩ := Prod.mk.inj (Except.ok.inj h)
    rcases advance_cases 4 c with beyond | ⟨used, size, took⟩
    · exact .inl beyond
    · exact .inr ⟨used, took, .payload (.fixed32 size) (by decide)⟩
  · cases h

theorem skipOne_ok {depth depth' : ℕ} {c c' : Cursor} (h : skipOne depth c = .ok (depth', c')) :
    c.rest ≠ [] ∧ (Overshot c c' ∨ ∃ tag wire used, IsVarint tag wire ∧ Took c c' (tag ++ used) ∧
      Deepens (wireTypeOf wire) depth used depth') := by
  rcases read : readVarint c with _ | ⟨wire, c₁⟩
  · simp [skipOne, read, bind, Except.bind] at h
  · obtain ⟨tag, spelled, tag_took⟩ := readVarint_ok read
    simp only [skipOne, read, bind, Except.bind] at h
    refine ⟨by simp [tag_took.1, spelled.ne_nil], ?_⟩
    rcases skipPayload_ok h with beyond | ⟨used, took, deepens⟩
    · exact .inl (Took.overshot tag_took beyond)
    · exact .inr ⟨tag, wire, used, spelled, Took.andThen tag_took took, deepens⟩

theorem skipOne_shrinks {depth depth' : ℕ} {c c' : Cursor}
    (h : skipOne depth c = .ok (depth', c')) : c'.rest.length < c.rest.length := by
  obtain ⟨nonempty, ⟨-, empty⟩ | ⟨tag, wire, used, spelled, took, -⟩⟩ := skipOne_ok h
  · rw [empty]
    exact List.length_pos_of_ne_nil nonempty
  · have := List.length_pos_of_ne_nil spelled.ne_nil
    rw [took.1]
    simp only [List.length_append]
    omega

def skipFrom (depth : ℕ) (c : Cursor) : Except WireError ℕ :=
  match c.rest with
  | [] => .error .unexpectedEOF
  | _ :: _ =>
      match step : skipOne depth c with
      | .error err => .error err
      | .ok (depth', c') =>
          if 2 ^ 63 ≤ c'.index then .error .invalidLength
          else if depth' = 0 then .ok c'.index
          else skipFrom depth' c'
termination_by c.rest.length
decreasing_by exact skipOne_shrinks step

def skip (dAtA : Bytes) : Except WireError ℕ := skipFrom 0 ⟨0, dAtA⟩

theorem skipFrom_nil (depth index : ℕ) : skipFrom depth ⟨index, []⟩ = .error .unexpectedEOF := by
  rw [skipFrom]

/-- What the loop does with the outcome of one turn. -/
def turn : Except WireError (ℕ × Cursor) → Except WireError ℕ
  | .error err => .error err
  | .ok (depth, c) =>
      if 2 ^ 63 ≤ c.index then .error .invalidLength
      else if depth = 0 then .ok c.index
      else skipFrom depth c

theorem skipFrom_turn {c : Cursor} (more : c.rest ≠ []) (depth : ℕ) :
    skipFrom depth c = turn (skipOne depth c) := by
  rw [skipFrom]
  split
  · contradiction
  · split <;> rename_i step <;> rw [step] <;> rfl

/-- The ends of `depth` open groups. -/
def Closes : ℕ → Bytes → Prop
  | 0, used => used = []
  | depth + 1, used => ∃ inner outer, used = inner ++ outer ∧ Payload 3 inner ∧ Closes depth outer

def IsRecord (used : Bytes) : Prop :=
  ∃ tag wire payload, used = tag ++ payload ∧ IsVarint tag wire ∧ Payload (wireTypeOf wire) payload

/-- What the loop takes: a record when no group is open, and else the ends of the open ones. -/
def Finishes : ℕ → Bytes → Prop
  | 0, used => IsRecord used
  | depth + 1, used => Closes (depth + 1) used

theorem Closes.prepend {depth : ℕ} {tag payload used : Bytes} {wire : UInt64}
    (spelled : IsVarint tag wire) (shape : Payload (wireTypeOf wire) payload)
    (h : Closes (depth + 1) used) : Closes (depth + 1) (tag ++ (payload ++ used)) := by
  obtain ⟨inner, outer, rfl, group, closes⟩ := h
  exact ⟨tag ++ (payload ++ inner), outer, by simp, .inGroup spelled shape group, closes⟩

/-- One turn and what the turns behind it take. -/
theorem Deepens.finishes {depth depth' : ℕ} {tag used rest : Bytes} {wire : UInt64}
    (spelled : IsVarint tag wire) (h : Deepens (wireTypeOf wire) depth used depth')
    (closes : Closes depth' rest) : Finishes depth (tag ++ (used ++ rest)) := by
  generalize type : wireTypeOf wire = wireType at h
  cases h with
  | payload shape =>
      subst type
      cases depth with
      | zero => exact ⟨tag, wire, used, by rw [show rest = [] from closes, List.append_nil], spelled, shape⟩
      | succ depth => exact closes.prepend spelled shape
  | start =>
      obtain ⟨inner, outer, rfl, group, closes⟩ := closes
      cases depth with
      | zero =>
          refine ⟨tag, wire, inner, ?_, spelled, type ▸ group⟩
          rw [show outer = [] from closes, List.append_nil, List.nil_append]
      | succ depth =>
          rw [List.nil_append]
          exact closes.prepend spelled (type ▸ group)
  | stop => exact ⟨tag, rest, rfl, .endGroup spelled type, closes⟩

theorem skipFrom_ok {depth n : ℕ} {c : Cursor} (h : skipFrom depth c = .ok n)
    (within : n ≤ c.index + c.rest.length) :
    ∃ used rest, c.rest = used ++ rest ∧ n = c.index + used.length ∧ n < 2 ^ 63 ∧
      Finishes depth used := by
  induction size : c.rest.length using Nat.strong_induction_on generalizing depth c with
  | _ size ih =>
      subst size
      have more : c.rest ≠ [] := by
        intro empty
        rw [show c = ⟨c.index, []⟩ by rw [← empty], skipFrom_nil] at h
        cases h
      rw [skipFrom_turn more] at h
      rcases step : skipOne depth c with err | ⟨depth', c'⟩ <;> rw [step] at h
      · cases h
      simp only [turn] at h
      split at h
      · cases h
      rename_i short
      obtain ⟨-, ⟨beyond, empty⟩ | ⟨tag, wire, used, spelled, took, deepens⟩⟩ := skipOne_ok step
      · split at h
        · obtain rfl := Except.ok.inj h
          omega
        · rw [show c' = ⟨c'.index, []⟩ by rw [← empty], skipFrom_nil] at h
          cases h
      split at h
      · rename_i done
        obtain rfl := Except.ok.inj h
        refine ⟨tag ++ used, c'.rest, took.1, took.2, not_le.mp short, ?_⟩
        have closes : Closes depth' [] := by
          rw [done]
          rfl
        simpa using deepens.finishes spelled closes
      · rename_i deeper
        rw [took.1, List.length_append, ← add_assoc, ← took.2] at within
        obtain ⟨used', rest, rest_eq, index_eq, fits, finishes⟩ :=
          ih _ (skipOne_shrinks step) h within rfl
        obtain ⟨depth', rfl⟩ := Nat.exists_eq_add_one_of_ne_zero deeper
        refine ⟨tag ++ (used ++ used'), rest, ?_, ?_, fits, deepens.finishes spelled finishes⟩
        · rw [took.1, rest_eq]
          simp
        · rw [index_eq, took.2]
          simp only [List.length_append]
          omega

/-! ## Every record is skipped -/

theorem IsVarint.skipFrom {tag : Bytes} {wire : UInt64} (h : IsVarint tag wire) (depth index : ℕ)
    (rest : Bytes) : skipFrom depth ⟨index, tag ++ rest⟩ =
      turn (skipPayload (wireTypeOf wire) depth ⟨index + tag.length, rest⟩) := by
  have more : tag ++ rest ≠ [] := by simp [h.ne_nil]
  rw [skipFrom_turn more]
  simp only [skipOne, h.read, bind, Except.bind]

theorem skipFrom_inside {c : Cursor} (fits : c.index < 2 ^ 63) (depth : ℕ) :
    turn (skipPayload 3 depth c) = skipFrom (depth + 1) c := by
  show (if 2 ^ 63 ≤ c.index then .error .invalidLength
    else if depth + 1 = 0 then .ok c.index else skipFrom (depth + 1) c) = _
  rw [if_neg (not_le.mpr fits), if_neg (Nat.succ_ne_zero depth)]

theorem Payload.skipped {wireType : ℕ} {payload : Bytes} (h : Payload wireType payload)
    (depth index : ℕ) (rest : Bytes) (fits : index + payload.length < 2 ^ 63) :
    turn (skipPayload wireType depth ⟨index, payload ++ rest⟩) =
      if depth = 0 then .ok (index + payload.length)
      else skipFrom depth ⟨index + payload.length, rest⟩ := by
  have ungrouped : wireType ≠ 3 → turn (skipPayload wireType depth ⟨index, payload ++ rest⟩) =
      if depth = 0 then .ok (index + payload.length)
      else skipFrom depth ⟨index + payload.length, rest⟩ := by
    intro not_group
    rw [(Deepens.payload h not_group).read, turn, if_neg (not_le.mpr fits)]
  induction h generalizing depth index rest with
  | varint => exact ungrouped (by decide)
  | fixed64 => exact ungrouped (by decide)
  | bytes => exact ungrouped (by decide)
  | fixed32 => exact ungrouped (by decide)
  | @endGroup tag wire spelled type =>
      have closed := (Deepens.stop : Deepens 4 (depth + 1) [] depth).read (index + tag.length) rest
      rw [skipFrom_inside (by simp only; omega), spelled.skipFrom, type]
      rw [List.nil_append] at closed
      rw [closed]
      exact if_neg (not_le.mpr fits)
  | @inGroup tag payload more wire spelled shape group ih ih_more =>
      simp only [List.length_append, ← add_assoc] at fits ⊢
      have inner := ih (depth + 1) (index + tag.length) (more ++ rest) (by omega)
        fun not_group => by
          rw [(Deepens.payload shape not_group).read, turn, if_neg (not_le.mpr (by simp only; omega))]
      have others := ih_more depth (index + tag.length + payload.length) rest (by omega)
        fun not_group => absurd rfl not_group
      rw [skipFrom_inside (by simp only; omega)] at others ⊢
      rw [List.append_assoc, spelled.skipFrom, List.append_assoc, inner,
        if_neg (Nat.succ_ne_zero depth), others]

theorem IsRecord.skip {used : Bytes} (h : IsRecord used) (rest : Bytes) (fits : used.length < 2 ^ 63) :
    skip (used ++ rest) = .ok used.length := by
  obtain ⟨tag, wire, payload, rfl, spelled, shape⟩ := h
  rw [List.length_append] at fits ⊢
  have taken := shape.skipped 0 tag.length rest fits
  rw [Library.skip, List.append_assoc, spelled.skipFrom, zero_add, taken, if_pos rfl]

/-- The reader steps over exactly the whole records, unless it would run past the end. -/
theorem skip_iff {bytes : Bytes} {n : ℕ} :
    skip bytes = .ok n ∧ n ≤ bytes.length ↔
      ∃ used rest, bytes = used ++ rest ∧ n = used.length ∧ n < 2 ^ 63 ∧ IsRecord used := by
  constructor
  · rintro ⟨skipped, within⟩
    obtain ⟨used, rest, rest_eq, size, fits, record⟩ := skipFrom_ok skipped (by simpa using within)
    rw [zero_add] at size
    exact ⟨used, rest, rest_eq, size, fits, record⟩
  · rintro ⟨used, rest, rfl, rfl, fits, record⟩
    exact ⟨record.skip rest fits, by simp⟩

end Fandomchain.Library
