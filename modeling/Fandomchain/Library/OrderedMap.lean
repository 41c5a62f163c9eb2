import Mathlib

/-!
# Sums and round trips of ordered maps

`Std.ExtTreeMap` traverses its entries once, in the order of the keys. Here are the sum of a
quantity over all values, how one insertion changes it, and the rebuilding of a map from the values
that a traversal lists, when every value knows its own key.
-/

namespace Fandomchain.Library
open Std

variable {κ υ : Type*} {cmp : κ → κ → Ordering} [TransCmp cmp]

def values (m : ExtTreeMap κ υ cmp) : List υ := m.toList.map Prod.snd

def sumOver (f : υ → ℤ) (m : ExtTreeMap κ υ cmp) : ℤ := ((values m).map f).sum

theorem sumOver_empty (f : υ → ℤ) : sumOver f (∅ : ExtTreeMap κ υ cmp) = 0 := by
  have : (∅ : ExtTreeMap κ υ cmp).toList = [] := by simp
  simp [sumOver, values, this]

theorem sumOver_nonneg {f : υ → ℤ} (nonneg : ∀ v, 0 ≤ f v) (m : ExtTreeMap κ υ cmp) :
    0 ≤ sumOver f m := by
  refine List.sum_nonneg fun x hx => ?_
  obtain ⟨w, -, rfl⟩ := List.mem_map.mp hx
  exact nonneg w

theorem sumOver_add (f g : υ → ℤ) (m : ExtTreeMap κ υ cmp) :
    sumOver (fun v => f v + g v) m = sumOver f m + sumOver g m :=
  List.sum_map_add

theorem sumOver_mono {f g : υ → ℤ} (le : ∀ v, f v ≤ g v) (m : ExtTreeMap κ υ cmp) :
    sumOver f m ≤ sumOver g m :=
  List.sum_le_sum fun v _ => le v

def SelfKeyed (key : υ → κ) (m : ExtTreeMap κ υ cmp) : Prop :=
  ∀ (k : κ) (v : υ), m[k]? = some v → key v = k

def insertAll (key : υ → κ) (m : ExtTreeMap κ υ cmp) (vs : List υ) : ExtTreeMap κ υ cmp :=
  vs.foldl (fun m v => m.insert (key v) v) m

theorem selfKeyed_empty (key : υ → κ) : SelfKeyed key (∅ : ExtTreeMap κ υ cmp) := by
  intro k v h
  simp at h

variable [LawfulEqCmp cmp]

theorem mem_values {m : ExtTreeMap κ υ cmp} {v : υ} :
    v ∈ values m ↔ ∃ k : κ, m[k]? = some v := by
  simp only [values, List.mem_map, Prod.exists, exists_eq_right,
    ExtTreeMap.mem_toList_iff_getElem?_eq_some]

theorem toList_nodup (m : ExtTreeMap κ υ cmp) : m.toList.Nodup := by
  refine m.distinct_keys_toList.imp fun {a b} distinct same => distinct ?_
  subst same
  exact ReflCmp.compare_self

theorem toList_insert_perm (m : ExtTreeMap κ υ cmp) (k : κ) (v : υ) :
    (m.insert k v).toList.Perm ((k, v) :: (m.erase k).toList) := by
  have absent : (k, v) ∉ (m.erase k).toList := by
    simp [ExtTreeMap.mem_toList_iff_getElem?_eq_some]
  refine (List.perm_ext_iff_of_nodup (toList_nodup _)
    (List.nodup_cons.mpr ⟨absent, toList_nodup _⟩)).mpr ?_
  rintro ⟨l, w⟩
  simp only [List.mem_cons, ExtTreeMap.mem_toList_iff_getElem?_eq_some,
    ExtTreeMap.getElem?_insert, ExtTreeMap.getElem?_erase, Prod.mk.injEq]
  by_cases same : cmp k l = .eq
  · obtain rfl : k = l := LawfulEqCmp.eq_of_compare same
    simp only [same, if_true, Option.some.injEq, true_and, reduceCtorEq, or_false]
    exact eq_comm
  · have : l ≠ k := fun h => same (h ▸ ReflCmp.compare_self)
    simp [same, this]

theorem sumOver_insert_erase (f : υ → ℤ) (m : ExtTreeMap κ υ cmp) (k : κ) (v : υ) :
    sumOver f (m.insert k v) = f v + sumOver f (m.erase k) := by
  have h := (((toList_insert_perm m k v).map Prod.snd).map f).sum_eq
  simpa [sumOver, values] using h

theorem erase_eq_self_of_none {m : ExtTreeMap κ υ cmp} {k : κ} (h : m[k]? = none) :
    m.erase k = m := by
  apply ExtTreeMap.ext_getElem?
  intro l
  rw [ExtTreeMap.getElem?_erase]
  split
  · rename_i same
    rw [← LawfulEqCmp.eq_of_compare same, h]
  · rfl

theorem insert_eq_self_of_some {m : ExtTreeMap κ υ cmp} {k : κ} {v : υ} (h : m[k]? = some v) :
    m.insert k v = m := by
  apply ExtTreeMap.ext_getElem?
  intro l
  rw [ExtTreeMap.getElem?_insert]
  split
  · rename_i same
    rw [← LawfulEqCmp.eq_of_compare same, h]
  · rfl

theorem insert_comm (m : ExtTreeMap κ υ cmp) {k l : κ} (apart : k ≠ l) (v w : υ) :
    (m.insert k v).insert l w = (m.insert l w).insert k v := by
  apply ExtTreeMap.ext_getElem?
  intro key
  simp only [ExtTreeMap.getElem?_insert]
  split_ifs with one two
  · have left := LawfulEqCmp.eq_of_compare one
    have right := LawfulEqCmp.eq_of_compare two
    exact absurd (right.trans left.symm) apart
  all_goals rfl

theorem sumOver_insert_of_none (f : υ → ℤ) {m : ExtTreeMap κ υ cmp} {k : κ} (v : υ)
    (h : m[k]? = none) : sumOver f (m.insert k v) = sumOver f m + f v := by
  rw [sumOver_insert_erase, erase_eq_self_of_none h, add_comm]

theorem sumOver_insert_of_some (f : υ → ℤ) {m : ExtTreeMap κ υ cmp} {k : κ} {u : υ} (v : υ)
    (h : m[k]? = some u) : sumOver f (m.insert k v) = sumOver f m - f u + f v := by
  have before := sumOver_insert_erase f m k u
  rw [insert_eq_self_of_some h] at before
  rw [sumOver_insert_erase, before]
  ring

theorem le_sumOver {f : υ → ℤ} (nonneg : ∀ v, 0 ≤ f v) {m : ExtTreeMap κ υ cmp} {k : κ} {v : υ}
    (h : m[k]? = some v) : f v ≤ sumOver f m := by
  refine List.single_le_sum ?_ (f v) (List.mem_map_of_mem (mem_values.mpr ⟨k, h⟩))
  intro x hx
  obtain ⟨w, -, rfl⟩ := List.mem_map.mp hx
  exact nonneg w

theorem sumOver_nonpos {f : υ → ℤ} {m : ExtTreeMap κ υ cmp}
    (nonpos : ∀ (k : κ) (v : υ), m[k]? = some v → f v ≤ 0) : sumOver f m ≤ 0 := by
  have le : sumOver f m ≤ ((values m).map fun _ => (0 : ℤ)).sum := by
    apply List.sum_le_sum
    intro v member
    obtain ⟨k, found⟩ := mem_values.mp member
    exact nonpos k v found
  simpa using le

/-! ## Rebuilding a map from its values -/

theorem insertAll_getElem?_of_not_mem (key : υ → κ) {vs : List υ} {k : κ}
    (h : ∀ v ∈ vs, key v ≠ k) (m : ExtTreeMap κ υ cmp) : (insertAll key m vs)[k]? = m[k]? := by
  induction vs generalizing m with
  | nil => rfl
  | cons v rest ih =>
      have other : cmp (key v) k ≠ .eq := fun same =>
        h v List.mem_cons_self (LawfulEqCmp.eq_of_compare same)
      have := ih (fun w hw => h w (List.mem_cons_of_mem v hw)) (m.insert (key v) v)
      simpa [insertAll, ExtTreeMap.getElem?_insert, other] using this

theorem insertAll_getElem?_of_mem (key : υ → κ) {vs : List υ} (distinct : (vs.map key).Nodup)
    {v : υ} (h : v ∈ vs) (m : ExtTreeMap κ υ cmp) : (insertAll key m vs)[key v]? = some v := by
  induction vs generalizing m with
  | nil => simp at h
  | cons w rest ih =>
      obtain ⟨fresh, distinct⟩ := List.nodup_cons.mp (List.map_cons ▸ distinct)
      rcases List.mem_cons.mp h with rfl | h
      · have last : ∀ w ∈ rest, key w ≠ key v :=
          fun w hw same => fresh (same ▸ List.mem_map_of_mem hw)
        have := insertAll_getElem?_of_not_mem key last (m.insert (key v) v)
        simpa [insertAll] using this
      · exact ih distinct h (m.insert (key w) w)

/-- Of the values with one key the last is kept. -/
theorem insertAll_getElem? [DecidableEq κ] (key : υ → κ) (vs : List υ) (m : ExtTreeMap κ υ cmp)
    (k : κ) :
    (insertAll key m vs)[k]? = (vs.filter fun v => key v = k).getLast?.or m[k]? := by
  induction vs generalizing m with
  | nil => rfl
  | cons v rest ih =>
      have inserted := ih (m.insert (key v) v)
      rw [ExtTreeMap.getElem?_insert] at inserted
      refine inserted.trans ?_
      by_cases same : key v = k
      · rw [List.filter_cons_of_pos (by simpa using same), if_pos (same ▸ ReflCmp.compare_self),
          List.getLast?_cons]
        cases (rest.filter fun v => key v = k).getLast? <;> rfl
      · have apart : cmp (key v) k ≠ .eq := fun eq => same (LawfulEqCmp.eq_of_compare eq)
        rw [List.filter_cons_of_neg (by simpa using same), if_neg apart]

theorem insertAll_selfKeyed (key : υ → κ) (vs : List υ) {m : ExtTreeMap κ υ cmp}
    (h : SelfKeyed key m) : SelfKeyed key (insertAll key m vs) := by
  induction vs generalizing m with
  | nil => exact h
  | cons v rest ih =>
      refine ih fun k w found => ?_
      rw [ExtTreeMap.getElem?_insert] at found
      split at found
      · rename_i same
        rw [← LawfulEqCmp.eq_of_compare same, Option.some.inj found]
      · exact h k w found

theorem SelfKeyed.insert {key : υ → κ} {m : ExtTreeMap κ υ cmp} (h : SelfKeyed key m) (v : υ) :
    SelfKeyed key (m.insert (key v) v) :=
  insertAll_selfKeyed key [v] h

theorem map_key_values {key : υ → κ} {m : ExtTreeMap κ υ cmp} (h : SelfKeyed key m) :
    (values m).map key = m.toList.map Prod.fst := by
  rw [values, List.map_map]
  refine List.map_congr_left ?_
  rintro ⟨k, v⟩ entry
  exact h k v (ExtTreeMap.mem_toList_iff_getElem?_eq_some.mp entry)

theorem values_ordered {key : υ → κ} {m : ExtTreeMap κ υ cmp} (h : SelfKeyed key m) :
    (values m).Pairwise (fun a b => cmp (key a) (key b) = .lt) := by
  rw [← List.pairwise_map (f := key) (R := fun a b => cmp a b = .lt), map_key_values h,
    List.pairwise_map]
  exact m.ordered_keys_toList

theorem values_keys_nodup {key : υ → κ} {m : ExtTreeMap κ υ cmp} (h : SelfKeyed key m) :
    ((values m).map key).Nodup := by
  rw [List.nodup_iff_pairwise_ne, List.pairwise_map]
  refine (values_ordered h).imp fun {a b} lt same => ?_
  have self : cmp (key b) (key b) = .eq := ReflCmp.compare_self
  rw [same, self] at lt
  cases lt

theorem insertAll_values {key : υ → κ} {m : ExtTreeMap κ υ cmp} (h : SelfKeyed key m) :
    insertAll key (∅ : ExtTreeMap κ υ cmp) (values m) = m := by
  apply ExtTreeMap.ext_getElem?
  intro k
  cases found : m[k]? with
  | some v =>
      rw [← h k v found]
      exact insertAll_getElem?_of_mem key (values_keys_nodup h) (mem_values.mpr ⟨k, found⟩) ∅
  | none =>
      rw [insertAll_getElem?_of_not_mem]
      · simp
      · rintro v mem rfl
        obtain ⟨l, hl⟩ := mem_values.mp mem
        rw [h l v hl, hl] at found
        cases found

theorem values_insertAll_perm {key : υ → κ} {vs : List υ} (distinct : (vs.map key).Nodup) :
    (values (insertAll key (∅ : ExtTreeMap κ υ cmp) vs)).Perm vs := by
  have keyed : SelfKeyed key (insertAll key (∅ : ExtTreeMap κ υ cmp) vs) :=
    insertAll_selfKeyed key vs (selfKeyed_empty key)
  refine (List.perm_ext_iff_of_nodup (values_keys_nodup keyed).of_map distinct.of_map).mpr ?_
  intro v
  rw [mem_values]
  constructor
  · rintro ⟨k, found⟩
    by_contra absent
    have key_eq := keyed k v found
    by_cases used : ∃ w ∈ vs, key w = k
    · obtain ⟨w, mem, rfl⟩ := used
      rw [insertAll_getElem?_of_mem key distinct mem] at found
      exact absent (Option.some.inj found ▸ mem)
    · rw [insertAll_getElem?_of_not_mem key fun w hw same => used ⟨w, hw, same⟩] at found
      simp at found
  · intro mem
    exact ⟨key v, insertAll_getElem?_of_mem key distinct mem ∅⟩

end Fandomchain.Library
