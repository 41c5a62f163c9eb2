import Fandomchain.Library.Varint

/-!
# Texts as keys

The UTF-8 bytes of texts are in the order of the texts: strings compare by code points, keys of a
byte store by bytes.
-/

namespace Fandomchain.Library

def utf8 (s : String) : Bytes := s.toList.flatMap String.utf8EncodeChar

theorem utf8EncodeChar_lt {c d : Char} (h : c < d) (xs ys : Bytes) :
    String.utf8EncodeChar c ++ xs < String.utf8EncodeChar d ++ ys := by
  have lt : c.val.toNat < d.val.toNat := h
  have bound : d.val.toNat < 1114112 := by
    have := d.valid
    unfold UInt32.isValidChar Nat.isValidChar at this
    omega
  have digits : ∀ n, n / 4096 = n / 64 / 64 ∧ n / 262144 = n / 64 / 64 / 64 := by
    intro n
    simp only [Nat.div_div_eq_div_mul, Nat.reduceMul, and_self]
  simp only [String.utf8EncodeChar]
  -- a longer encoding has the larger first byte; of two as long the first different digit decides
  split_ifs <;>
    simp (disch := omega) only [List.cons_append, List.nil_append, List.cons_lt_cons_iff,
      UInt8.lt_iff_toNat_lt, ← UInt8.toNat_inj, UInt8.toNat_ofNat', digits, Nat.mod_eq_of_lt] <;>
    omega

theorem append_lt_append_iff {front xs ys : Bytes} : front ++ xs < front ++ ys ↔ xs < ys := by
  induction front with
  | nil => rfl
  | cons b front ih => simp [ih]

theorem utf8_lt_of_lt {s t : String} (h : s < t) : utf8 s < utf8 t := by
  rw [String.lt_iff_toList_lt] at h
  unfold utf8
  generalize s.toList = cs at h
  generalize t.toList = ds at h
  induction cs generalizing ds with
  | nil =>
      cases ds with
      | nil => exact absurd h (by simp)
      | cons d ds =>
          obtain ⟨b, bytes, cons⟩ := List.exists_cons_of_ne_nil (String.utf8EncodeChar_ne_nil (c := d))
          simp [cons]
  | cons c cs ih =>
      cases ds with
      | nil => exact absurd h (by simp)
      | cons d ds =>
          rw [List.flatMap_cons, List.flatMap_cons]
          rcases List.cons_lt_cons_iff.mp h with less | ⟨rfl, rest⟩
          · exact utf8EncodeChar_lt less _ _
          · exact append_lt_append_iff.mpr (ih ds rest)

theorem compare_bytes_lt {xs ys : Bytes} : compare xs ys = .lt ↔ xs < ys := by
  induction xs generalizing ys with
  | nil => cases ys <;> simp
  | cons x xs ih =>
      cases ys with
      | nil => simp
      | cons y ys =>
          rw [List.compare_eq_compareLex] at ih ⊢
          rw [List.compareLex_cons_cons, Ordering.then_eq_lt, ih, List.cons_lt_cons_iff]
          simp [Std.compare_eq_lt]

theorem compare_string_lt {s t : String} : compare s t = .lt ↔ s < t := by
  show compareOfLessAndEq s t = .lt ↔ s < t
  unfold compareOfLessAndEq
  split
  · simp_all
  · split <;> simp_all

theorem compare_append (front xs ys : Bytes) :
    compare (front ++ xs) (front ++ ys) = compare xs ys := by
  induction front with
  | nil => rfl
  | cons b front ih =>
      rw [List.compare_eq_compareLex] at ih ⊢
      rw [List.cons_append, List.cons_append, List.compareLex_cons_cons, ih]
      simp

/-- Bytes and texts compare alike. -/
theorem compare_utf8 (s t : String) : compare (utf8 s) (utf8 t) = compare s t := by
  cases order : compare s t with
  | lt => exact compare_bytes_lt.mpr (utf8_lt_of_lt (compare_string_lt.mp order))
  | eq =>
      rw [Std.LawfulEqOrd.eq_of_compare order]
      exact Std.ReflOrd.compare_self
  | gt =>
      have back := compare_string_lt.mp (Std.OrientedCmp.lt_of_gt order)
      exact Std.OrientedCmp.gt_of_lt (compare_bytes_lt.mpr (utf8_lt_of_lt back))

theorem utf8_inj {s t : String} : utf8 s = utf8 t ↔ s = t := by
  constructor
  · intro same
    apply Std.LawfulEqOrd.eq_of_compare
    rw [← compare_utf8, same]
    exact Std.ReflOrd.compare_self
  · exact congrArg utf8

/-! ## Back to texts -/

def ofUtf8 (bytes : Bytes) : Option String := String.fromUTF8? bytes.toByteArray

theorem ofUtf8_utf8 (s : String) : ofUtf8 (utf8 s) = some s := by
  have encoded : s.toByteArray = s.toList.utf8Encode := by simp
  have same : (utf8 s).toByteArray = s.toByteArray := encoded.symm
  unfold ofUtf8 String.fromUTF8?
  rw [same, dif_pos s.isValidUTF8]
  rfl

theorem utf8_length_pos_iff {s : String} : 0 < (utf8 s).length ↔ s ≠ "" := by
  have empty : utf8 "" = [] := rfl
  rw [List.length_pos_iff, ne_eq, ← empty, utf8_inj]

end Fandomchain.Library
