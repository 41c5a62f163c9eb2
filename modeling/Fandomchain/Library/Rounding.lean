import Mathlib

/-!
# Rounding to the nearest integer

Ties go to the even integer. The rules say when the rounded value is on one side of an integer, how
far it is from a target, and how far a relative change moves when both of its values are rounded.
-/

namespace Fandomchain.Library

variable {K : Type*} [Field K] [LinearOrder K] [IsStrictOrderedRing K] [FloorRing K]

def nearest (q : K) : ℤ :=
  let rest := q - ⌊q⌋
  if 1 / 2 < rest ∨ rest = 1 / 2 ∧ ⌊q⌋ % 2 = 1 then ⌊q⌋ + 1 else ⌊q⌋

theorem nearest_cases (q : K) :
    (nearest q = ⌊q⌋ ∧ (q < ⌊q⌋ + 1 / 2 ∨ q = ⌊q⌋ + 1 / 2 ∧ ⌊q⌋ % 2 = 0)) ∨
      (nearest q = ⌊q⌋ + 1 ∧ (⌊q⌋ + 1 / 2 < q ∨ q = ⌊q⌋ + 1 / 2 ∧ ⌊q⌋ % 2 = 1)) := by
  unfold nearest
  dsimp only
  split_ifs with up
  · right
    rcases up with above | ⟨tie, odd⟩
    · exact ⟨rfl, .inl (by linarith)⟩
    · exact ⟨rfl, .inr ⟨by linarith, odd⟩⟩
  · left
    obtain ⟨not_above, not_tie⟩ := not_or.mp up
    rcases (not_lt.mp not_above).lt_or_eq with below | tie
    · exact ⟨rfl, .inl (by linarith)⟩
    · have even : ⌊q⌋ % 2 = 0 := (Int.emod_two_eq_zero_or_one _).resolve_right fun odd =>
        not_tie ⟨tie, odd⟩
      exact ⟨rfl, .inr ⟨by linarith, even⟩⟩

theorem nearest_le_iff {q : K} {n : ℤ} :
    nearest q ≤ n ↔ q < n + 1 / 2 ∨ q = n + 1 / 2 ∧ n % 2 = 0 := by
  have lower := Int.floor_le q
  have upper := Int.lt_floor_add_one q
  rcases nearest_cases q with ⟨down, reason⟩ | ⟨up, reason⟩
  · rw [down]
    constructor
    · intro le
      rcases le.lt_or_eq with less | rfl
      · have next : (⌊q⌋ : K) + 1 ≤ n := by exact_mod_cast less
        exact .inl (by linarith)
      · exact reason
    · intro h
      have close : q ≤ n + 1 / 2 := by
        rcases h with below | ⟨tie, -⟩
        · exact below.le
        · exact tie.le
      apply Int.lt_add_one_iff.mp
      have less : (⌊q⌋ : K) < n + 1 := by linarith
      exact_mod_cast less
  · rw [up]
    constructor
    · intro le
      have next : (⌊q⌋ : K) + 1 ≤ n := by exact_mod_cast le
      exact .inl (by linarith)
    · intro h
      by_contra less
      have le : (n : K) ≤ ⌊q⌋ := by exact_mod_cast Int.lt_add_one_iff.mp (not_le.mp less)
      have far : (⌊q⌋ : K) + 1 / 2 ≤ q := by
        rcases reason with above | ⟨tie, -⟩
        · exact above.le
        · exact tie.ge
      rcases h with below | ⟨tie, even⟩
      · linarith
      · have same : ⌊q⌋ = n := by
          have cast : (⌊q⌋ : K) = n := by linarith
          exact_mod_cast cast
        rw [same] at reason
        rcases reason with above | ⟨-, odd⟩
        · linarith
        · omega

theorem le_nearest_iff {q : K} {n : ℤ} :
    n ≤ nearest q ↔ n - 1 / 2 < q ∨ q = n - 1 / 2 ∧ n % 2 = 0 := by
  have half : ((n - 1 : ℤ) : K) + 1 / 2 = n - 1 / 2 := by
    push_cast
    ring
  rw [← not_iff_not, not_le, ← Int.le_sub_one_iff, nearest_le_iff, half, not_or, not_lt]
  constructor
  · rintro (below | ⟨tie, even⟩)
    · exact ⟨below.le, fun tie => below.ne tie.1⟩
    · exact ⟨tie.le, fun odd => by omega⟩
  · rintro ⟨le, not_tie⟩
    rcases le.lt_or_eq with below | tie
    · exact .inl below
    · have even : (n - 1) % 2 = 0 := (Int.emod_two_eq_zero_or_one _).resolve_right fun odd =>
        not_tie ⟨tie, by omega⟩
      exact .inr ⟨tie, even⟩

theorem nearest_mono {q r : K} (h : q ≤ r) : nearest q ≤ nearest r := by
  rw [nearest_le_iff]
  rcases nearest_le_iff.mp (le_refl (nearest r)) with below | ⟨tie, even⟩
  · exact .inl (h.trans_lt below)
  · rcases h.lt_or_eq with less | rfl
    · exact .inl (tie ▸ less)
    · exact .inr ⟨tie, even⟩

/-! ## Errors -/

def roundingError (q : K) : K := nearest q - q

/-- The distance to the nearest integer. -/
def gap (q : K) : K := min (Int.fract q) (1 - Int.fract q)

theorem gap_nonneg (q : K) : 0 ≤ gap q :=
  le_min (Int.fract_nonneg q) (sub_nonneg.mpr (Int.fract_lt_one q).le)

theorem gap_le_half (q : K) : gap q ≤ 1 / 2 := by
  unfold gap
  rcases le_total (Int.fract q) (1 / 2) with below | above
  · exact (min_le_left _ _).trans below
  · apply (min_le_right _ _).trans
    linarith

theorem roundingError_cases (q : K) :
    (roundingError q = -gap q ∧ Int.fract q ≤ 1 / 2) ∨
      (roundingError q = gap q ∧ 1 / 2 ≤ Int.fract q) := by
  have parts := Int.self_sub_floor q
  unfold roundingError gap
  rcases nearest_cases q with ⟨down, reason⟩ | ⟨up, reason⟩
  · have low : Int.fract q ≤ 1 / 2 := by
      rcases reason with below | ⟨tie, -⟩ <;> linarith
    left
    rw [down, min_eq_left (by linarith)]
    exact ⟨by linarith, low⟩
  · have high : 1 / 2 ≤ Int.fract q := by
      rcases reason with above | ⟨tie, -⟩ <;> linarith
    right
    rw [up, min_eq_right (by linarith)]
    push_cast
    exact ⟨by linarith, high⟩

theorem abs_roundingError (q : K) : |roundingError q| = gap q := by
  rcases roundingError_cases q with ⟨down, -⟩ | ⟨up, -⟩
  · rw [down, abs_neg, abs_of_nonneg (gap_nonneg q)]
  · rw [up, abs_of_nonneg (gap_nonneg q)]

theorem sub_gap_le_nearest (q : K) : q - gap q ≤ nearest q := by
  have error := neg_abs_le (roundingError q)
  rw [abs_roundingError, roundingError] at error
  linarith

theorem nearest_le_add_gap (q : K) : (nearest q : K) ≤ q + gap q := by
  have error := le_abs_self (roundingError q)
  rw [abs_roundingError, roundingError] at error
  linarith

theorem abs_nearest_sub_le_half (q : K) : |(nearest q : K) - q| ≤ 1 / 2 :=
  (abs_roundingError q).trans_le (gap_le_half q)

theorem nearest_eq_of_abs_sub_lt {q : K} {n : ℤ} (close : |q - n| < 1 / 2) : nearest q = n := by
  obtain ⟨lower, upper⟩ := abs_lt.mp close
  apply le_antisymm
  · exact nearest_le_iff.mpr (.inl (by linarith))
  · exact le_nearest_iff.mpr (.inl (by linarith))

/-- What is within `c` of a target before it is rounded, with half a unit to spare, still is. -/
theorem abs_nearest_sub_le {q t c : K} (close : |q - t| ≤ c - 1 / 2) : |(nearest q : K) - t| ≤ c := by
  have error := abs_nearest_sub_le_half q
  have detour := abs_sub_le (nearest q : K) q t
  linarith

theorem abs_sub_le_of_nearest {q t c : K} (close : |(nearest q : K) - t| ≤ c) :
    |q - t| ≤ c + 1 / 2 := by
  have error := abs_nearest_sub_le_half q
  have detour := abs_sub_le q (nearest q : K) t
  rw [abs_sub_comm] at error
  linarith

/-! ## Relative changes -/

/-- One of the two is rounded down and the other up. -/
def RoundedApart (q r : K) : Prop :=
  (Int.fract q < 1 / 2 ∧ 1 / 2 < Int.fract r) ∨ (1 / 2 < Int.fract q ∧ Int.fract r < 1 / 2)

/-- Both are rounded down, or both up. -/
def RoundedAlike (q r : K) : Prop :=
  (Int.fract q < 1 / 2 ∧ Int.fract r < 1 / 2) ∨ (1 / 2 < Int.fract q ∧ 1 / 2 < Int.fract r)

/-- What rounding does to the ratio of `r` to `q`, over the common denominator. -/
def crossError (q r : K) : K := q * roundingError r - r * roundingError q

theorem abs_crossError_le {q r : K} (positive : 0 < q) :
    |crossError q r| ≤ q * gap r + |r| * gap q :=
  calc |q * roundingError r - r * roundingError q|
      ≤ |q * roundingError r| + |r * roundingError q| := abs_sub _ _
    _ = q * gap r + |r| * gap q := by
        rw [abs_mul, abs_mul, abs_roundingError, abs_roundingError, abs_of_pos positive]

theorem le_abs_crossError {q r : K} (apart : RoundedApart q r) :
    q * gap r + r * gap q ≤ |crossError q r| := by
  unfold crossError
  rcases roundingError_cases q with ⟨eq, low⟩ | ⟨eq, high⟩ <;>
    rcases roundingError_cases r with ⟨er, low'⟩ | ⟨er, high'⟩
  · rcases apart with ⟨-, above⟩ | ⟨above, -⟩ <;> linarith
  · rw [eq, er, mul_neg, sub_neg_eq_add]
    exact le_abs_self _
  · rw [eq, er]
    apply le_trans _ (neg_le_abs _)
    linarith
  · rcases apart with ⟨below, -⟩ | ⟨-, below⟩ <;> linarith

theorem abs_crossError_of_alike {q r : K} (alike : RoundedAlike q r) :
    |crossError q r| = |q * gap r - r * gap q| := by
  unfold crossError
  rcases roundingError_cases q with ⟨eq, low⟩ | ⟨eq, high⟩ <;>
    rcases roundingError_cases r with ⟨er, low'⟩ | ⟨er, high'⟩
  · rw [eq, er, ← abs_neg]
    congr 1
    ring
  · rcases alike with ⟨-, below⟩ | ⟨above, -⟩ <;> linarith
  · rcases alike with ⟨below, -⟩ | ⟨-, above⟩ <;> linarith
  · rw [eq, er]

/-- What rounding both prices adds to the relative change from `q` to `r`. -/
def drift (q r : K) : K := (if q ≤ r then 1 else -1) * crossError q r / (nearest q * q)

section Drift

variable {q r c : K} (positive : 0 < q) (rounded : 0 < nearest q)
include positive rounded

theorem abs_drift_le_iff : |drift q r| ≤ c ↔ |crossError q r| ≤ c * (nearest q * q) := by
  have scale : (0 : K) < nearest q * q := mul_pos (by exact_mod_cast rounded) positive
  have sign : |(if q ≤ r then 1 else -1 : K)| = 1 := by
    split <;> simp
  unfold drift
  rw [abs_div, abs_mul, sign, one_mul, abs_of_pos scale, div_le_iff₀ scale]

theorem abs_drift_le (nonneg : 0 ≤ c) (close : |crossError q r| ≤ q * (q - gap q) * c) :
    |drift q r| ≤ c := by
  apply (abs_drift_le_iff positive rounded).mpr
  calc |crossError q r|
      ≤ q * (q - gap q) * c := close
    _ ≤ q * nearest q * c := by gcongr; exact sub_gap_le_nearest q
    _ = c * (nearest q * q) := by ring

theorem abs_crossError_le_of_drift (nonneg : 0 ≤ c) (close : |drift q r| ≤ c) :
    |crossError q r| ≤ q * (q + gap q) * c :=
  calc |crossError q r|
      ≤ c * (nearest q * q) := (abs_drift_le_iff positive rounded).mp close
    _ ≤ c * ((q + gap q) * q) := by gcongr; exact nearest_le_add_gap q
    _ = q * (q + gap q) * c := by ring

theorem relativeChange_nearest :
    |(nearest r : K) - nearest q| / nearest q = |r - q| / q + drift q r := by
  have hq : (nearest q : K) ≠ 0 := by exact_mod_cast rounded.ne'
  have hq' : q ≠ 0 := positive.ne'
  unfold drift crossError roundingError
  by_cases le : q ≤ r
  · have mono : (nearest q : K) ≤ nearest r := by exact_mod_cast nearest_mono le
    rw [if_pos le, abs_of_nonneg (sub_nonneg.mpr mono), abs_of_nonneg (sub_nonneg.mpr le)]
    field_simp
    ring
  · have ge := (not_le.mp le).le
    have mono : (nearest r : K) ≤ nearest q := by exact_mod_cast nearest_mono ge
    rw [if_neg le, abs_of_nonpos (sub_nonpos.mpr mono), abs_of_nonpos (sub_nonpos.mpr ge)]
    field_simp
    ring

end Drift

end Fandomchain.Library
