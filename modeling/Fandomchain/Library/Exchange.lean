import Fandomchain.Library.ConstantProduct
import Fandomchain.Library.Run

/-!
# An exchange of constant-product pools

Accounts hold coins, and one of them, the house, holds what the pools pay out. A pool trades its own
token against a currency common to all pools. It quotes from one pair of reserves and pays from
another, so that the price can run ahead of the coins that are there.
-/

namespace Fandomchain.Library

inductive Leg where
  | currency
  | token
  deriving DecidableEq

def Leg.other : Leg → Leg
  | currency => token
  | token => currency

theorem Leg.other_ne (l : Leg) : l.other ≠ l := by
  cases l <;> decide

@[ext]
structure Pool where
  quoted : Leg → ℤ
  owed : Leg → ℤ

@[ext]
structure Exchange (ι κ : Type*) where
  holds : ι → κ → ℤ
  pool : κ → Option Pool

structure Rules (ι κ : Type*) where
  house : ι
  currency : κ
  opening : Pool
  /-- What is left of an amount after the fee. -/
  net : ℤ → ℤ
  net_pos : ∀ {amount}, 0 < amount → 0 < net amount
  net_mono : Monotone net

structure Bid (ι κ : Type*) where
  trader : ι
  token : κ
  pays : Leg
  amount : ℤ
  least : ℤ

inductive Instruction (ι κ : Type*) where
  | list (token : κ)
  | bid (b : Bid ι κ)
  | transfer (src dst : ι) (amounts : κ → ℤ)

variable {ι κ : Type*} {r : Rules ι κ} {x y : Exchange ι κ} {b : Bid ι κ} {p : Pool} {token : κ}

/-! ## Bids -/

def Bid.coin (r : Rules ι κ) (b : Bid ι κ) : Leg → κ
  | .currency => r.currency
  | .token => b.token

def Bid.payout (r : Rules ι κ) (b : Bid ι κ) (p : Pool) : ℤ :=
  output (p.quoted b.pays) (p.quoted b.pays.other) (r.net b.amount)

def Bid.rest (r : Rules ι κ) (b : Bid ι κ) (p : Pool) : ℤ :=
  remainder (p.quoted b.pays) (p.quoted b.pays.other) (r.net b.amount)

def Pool.fill (r : Rules ι κ) (b : Bid ι κ) (p : Pool) : Pool where
  quoted l := if l = b.pays then p.quoted l + r.net b.amount else p.quoted l - b.payout r p
  owed l := if l = b.pays then p.owed l + b.amount else p.owed l - b.payout r p

theorem Pool.fill_product (r : Rules ι κ) (b : Bid ι κ) (p : Pool) :
    (p.fill r b).quoted b.pays * (p.fill r b).quoted b.pays.other =
      p.quoted b.pays * p.quoted b.pays.other - b.rest r p := by
  simp only [Pool.fill, if_true, b.pays.other_ne, if_false]
  exact product_after _ _ _

namespace Exchange

structure Fills (r : Rules ι κ) (x : Exchange ι κ) (b : Bid ι κ) (p : Pool) : Prop where
  listed : x.pool b.token = some p
  amount_pos : 0 < b.amount
  quoted_pos : ∀ l, 0 < p.quoted l
  least : b.least ≤ b.payout r p
  owed : b.payout r p ≤ p.owed b.pays.other
  funds : b.amount ≤ x.holds b.trader (b.coin r b.pays)

def Allowed (r : Rules ι κ) (x : Exchange ι κ) : Instruction ι κ → Prop
  | .list token => x.pool token = none
  | .bid b => ∃ p, Fills r x b p
  | .transfer src _ amounts => ∀ c, 0 ≤ amounts c ∧ amounts c ≤ x.holds src c

theorem Fills.rest_nonneg (fills : Fills r x b p) : 0 ≤ b.rest r p := by
  have reserve := fills.quoted_pos b.pays
  have net := r.net_pos fills.amount_pos
  exact remainder_nonneg (by omega)

theorem Fills.smaller (fills : Fills r x b p) {amount least : ℤ} (positive : 0 < amount)
    (less : amount ≤ b.amount) (lower : least ≤ 1) :
    Fills r x { b with amount, least } p := by
  have reserve_in := fills.quoted_pos b.pays
  have reserve_out := fills.quoted_pos b.pays.other
  have net := r.net_pos positive
  have pays := output_pos reserve_in.le reserve_out net
  have shrinks : output (p.quoted b.pays) (p.quoted b.pays.other) (r.net amount) ≤ b.payout r p :=
    output_mono reserve_in.le reserve_out.le net le_rfl le_rfl (r.net_mono less)
  exact ⟨fills.listed, positive, fills.quoted_pos, lower.trans pays, shrinks.trans fills.owed,
    less.trans fills.funds⟩

theorem allowed_iff_of_listed (listed : x.pool b.token = some p) (lower : b.least ≤ 1) :
    Allowed r x (.bid b) ↔ 0 < b.amount ∧ (∀ l, 0 < p.quoted l) ∧
      (p.quoted b.pays.other - p.owed b.pays.other) * r.net b.amount ≤
        p.owed b.pays.other * p.quoted b.pays ∧
      b.amount ≤ x.holds b.trader (b.coin r b.pays) := by
  have covered : 0 < b.amount → (∀ l, 0 < p.quoted l) →
      (b.payout r p ≤ p.owed b.pays.other ↔
        (p.quoted b.pays.other - p.owed b.pays.other) * r.net b.amount ≤
          p.owed b.pays.other * p.quoted b.pays) := by
    intro positive quoted_pos
    have reserve := quoted_pos b.pays
    have net := r.net_pos positive
    exact output_le_iff_mul_le _ (by omega)
  constructor
  · intro ⟨q, fills⟩
    obtain rfl := Option.some.inj (fills.listed.symm.trans listed)
    exact ⟨fills.amount_pos, fills.quoted_pos,
      (covered fills.amount_pos fills.quoted_pos).mp fills.owed, fills.funds⟩
  · intro ⟨positive, quoted_pos, owed, funds⟩
    have net := r.net_pos positive
    have pays : 0 < b.payout r p := output_pos (quoted_pos _).le (quoted_pos _) net
    exact ⟨p, listed, positive, quoted_pos, by omega, (covered positive quoted_pos).mpr owed, funds⟩

/-- The sizes that a trader can have filled without a limit are those up to a bound. -/
theorem exists_depth (r : Rules ι κ) (x : Exchange ι κ) (trader : ι) (token : κ) (pays : Leg) :
    ∃ depth, ∀ amount least, least ≤ 1 →
      (Allowed r x (.bid ⟨trader, token, pays, amount, least⟩) ↔ 0 < amount ∧ amount ≤ depth) := by
  by_cases any : ∃ amount, Allowed r x (.bid ⟨trader, token, pays, amount, 1⟩)
  · obtain ⟨depth, ⟨p, fills⟩, greatest⟩ := Int.exists_greatest_of_bdd
      ⟨x.holds trader (Bid.coin r ⟨trader, token, pays, 0, 0⟩ pays), fun _ ⟨_, h⟩ => h.funds⟩ any
    refine ⟨depth, fun amount least lower => ⟨fun ⟨q, filled⟩ => ?_, fun ⟨positive, within⟩ => ?_⟩⟩
    · exact ⟨filled.amount_pos,
        greatest _ ⟨q, filled.smaller filled.amount_pos le_rfl le_rfl⟩⟩
    · exact ⟨p, fills.smaller positive within lower⟩
  · refine ⟨0, fun amount least lower => ⟨fun ⟨q, filled⟩ => ?_, fun ⟨positive, within⟩ => ?_⟩⟩
    · exact absurd ⟨_, q, filled.smaller filled.amount_pos le_rfl le_rfl⟩ any
    · omega

/-! ## Products -/

def product (x : Exchange ι κ) (token : κ) : ℤ :=
  match x.pool token with
  | some p => p.quoted .currency * p.quoted .token
  | none => 0

theorem product_eq (listed : x.pool token = some p) (l : Leg) :
    x.product token = p.quoted l * p.quoted l.other := by
  cases l with
  | currency => simp only [product, listed, Leg.other]
  | token => simp only [product, listed, Leg.other, mul_comm]

theorem product_congr (same : x.pool token = y.pool token) : x.product token = y.product token := by
  simp only [product, same]

open Classical in
/-- The remainder of the division that prices a bid, when the pool of `token` fills it. -/
noncomputable def lost (r : Rules ι κ) (token : κ) (x : Exchange ι κ) : Instruction ι κ → ℤ
  | .bid b =>
      if b.token = token ∧ Allowed r x (.bid b) then (x.pool token).elim 0 (b.rest r) else 0
  | .list _ => 0
  | .transfer _ _ _ => 0

theorem lost_of_fills (fills : Fills r x b p) : lost r b.token x (.bid b) = b.rest r p := by
  have allowed : Allowed r x (.bid b) := ⟨p, fills⟩
  simp only [lost, allowed, and_self, if_true, fills.listed, Option.elim_some]

theorem lost_of_other (apart : b.token ≠ token) : lost r token x (.bid b) = 0 :=
  if_neg fun h => apart h.1

theorem lost_of_not_allowed {i : Instruction ι κ} (refused : ¬Allowed r x i) :
    lost r token x i = 0 := by
  cases i with
  | list other => rfl
  | transfer src dst amounts => rfl
  | bid b => exact if_neg fun h => refused h.2

theorem lost_nonneg (r : Rules ι κ) (token : κ) (x : Exchange ι κ) (i : Instruction ι κ) :
    0 ≤ lost r token x i := by
  by_cases allowed : Allowed r x i
  · cases i with
    | list other => exact le_rfl
    | transfer src dst amounts => exact le_rfl
    | bid b =>
        obtain ⟨p, fills⟩ := allowed
        by_cases same : b.token = token
        · subst same
          rw [lost_of_fills fills]
          exact fills.rest_nonneg
        · rw [lost_of_other same]
  · rw [lost_of_not_allowed allowed]

/-! ## Runs -/

variable [DecidableEq ι] [DecidableEq κ]

/-- What a filled bid moves from its trader to the house. -/
def flow (r : Rules ι κ) (b : Bid ι κ) (p : Pool) (c : κ) : ℤ :=
  (if c = b.coin r b.pays then b.amount else 0) -
    (if c = b.coin r b.pays.other then b.payout r p else 0)

def pay (x : Exchange ι κ) (src dst : ι) (amounts : κ → ℤ) : ι → κ → ℤ := fun a c =>
  x.holds a c - (if a = src then amounts c else 0) + (if a = dst then amounts c else 0)

def issue (r : Rules ι κ) (x : Exchange ι κ) (token : κ) : ι → κ → ℤ := fun a c =>
  x.holds a c + if a = r.house then (if c = token then r.opening.owed .token else 0) else 0

def perform (r : Rules ι κ) (x : Exchange ι κ) : Instruction ι κ → Exchange ι κ
  | .list token => ⟨x.issue r token, Function.update x.pool token (some r.opening)⟩
  | .bid b =>
      match x.pool b.token with
      | none => x
      | some p => ⟨x.pay b.trader r.house (flow r b p),
          Function.update x.pool b.token (some (p.fill r b))⟩
  | .transfer src dst amounts => { x with holds := x.pay src dst amounts }

open Classical in
/-- An instruction that is not allowed changes nothing. -/
noncomputable def attempt (r : Rules ι κ) (x : Exchange ι κ) (i : Instruction ι κ) :
    Exchange ι κ :=
  if Allowed r x i then perform r x i else x

theorem attempt_of_allowed {i : Instruction ι κ} (allowed : Allowed r x i) :
    x.attempt r i = x.perform r i :=
  if_pos allowed

theorem attempt_of_not_allowed {i : Instruction ι κ} (refused : ¬Allowed r x i) :
    x.attempt r i = x :=
  if_neg refused

theorem Fills.perform_eq (fills : Fills r x b p) : x.perform r (.bid b) =
    ⟨x.pay b.trader r.house (flow r b p),
      Function.update x.pool b.token (some (p.fill r b))⟩ := by
  simp only [perform, fills.listed]

def Listed (token : κ) (x : Exchange ι κ) : Prop := ∃ p, x.pool token = some p

theorem listed_update {pool : κ → Option Pool} {other : κ} {q : Pool}
    (listed : ∃ p, pool token = some p) :
    ∃ p, Function.update pool other (some q) token = some p := by
  obtain ⟨p, found⟩ := listed
  by_cases same : token = other
  · exact ⟨q, by rw [same, Function.update_self]⟩
  · exact ⟨p, by rw [Function.update_of_ne same, found]⟩

theorem listed_attempt (listed : Listed token x) (i : Instruction ι κ) :
    Listed token (x.attempt r i) := by
  by_cases allowed : Allowed r x i
  · rw [attempt_of_allowed allowed]
    cases i with
    | list other => exact listed_update listed
    | transfer src dst amounts => exact listed
    | bid b =>
        obtain ⟨q, fills⟩ := allowed
        rw [fills.perform_eq]
        exact listed_update listed
  · rw [attempt_of_not_allowed allowed]
    exact listed

theorem listed_run (listed : Listed token x) (is : List (Instruction ι κ)) :
    Listed token (is.foldl (attempt r) x) :=
  run_preserves (I := Listed token) (P := fun _ _ => True) (fun _ i h _ => listed_attempt h i) listed
    (along_of_forall_mem fun _ _ => trivial)

theorem product_attempt (listed : Listed token x) (i : Instruction ι κ) :
    (x.attempt r i).product token = x.product token + -lost r token x i := by
  by_cases allowed : Allowed r x i
  · rw [attempt_of_allowed allowed]
    cases i with
    | transfer src dst amounts => exact (add_zero _).symm
    | list other =>
        have apart : token ≠ other := by
          rintro rfl
          obtain ⟨p, found⟩ := listed
          cases found.symm.trans allowed
        have kept : (x.perform r (.list other)).product token = x.product token :=
          product_congr (Function.update_of_ne apart _ _)
        exact kept.trans (add_zero _).symm
    | bid b =>
        obtain ⟨p, fills⟩ := allowed
        rw [fills.perform_eq]
        by_cases same : b.token = token
        · subst same
          rw [product_eq (Function.update_self _ _ _) b.pays, Pool.fill_product,
            product_eq fills.listed b.pays, lost_of_fills fills, sub_eq_add_neg]
        · rw [lost_of_other same, neg_zero, add_zero]
          apply product_congr
          exact Function.update_of_ne (Ne.symm same) _ _
  · rw [attempt_of_not_allowed allowed, lost_of_not_allowed allowed, neg_zero, add_zero]

/-- Whatever is attempted, the product of a pool falls by the remainders and by nothing else. -/
theorem product_run (listed : Listed token x) (is : List (Instruction ι κ)) :
    (is.foldl (attempt r) x).product token =
      x.product token - sumAlong (attempt r) (lost r token) x is := by
  have moves : ∀ (x : Exchange ι κ) i, Listed token x → True →
      (x.attempt r i).product token = x.product token + -lost r token x i :=
    fun x i h _ => product_attempt h i
  rw [sub_eq_add_neg, ← sumAlong_neg]
  exact eq_add_sumAlong (φ := (product · token)) (fun _ i h _ => listed_attempt h i) moves listed
    (along_of_forall_mem (P := fun _ => True) fun _ _ => trivial)

end Exchange

end Fandomchain.Library
