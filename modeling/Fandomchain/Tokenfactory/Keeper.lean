import Fandomchain.Tokenfactory.Types

/-!
# The keeper and the modules it expects

The bank, the account module and the address codec belong to the SDK: they are fields of the
keeper. `Lawful` says what the module relies on: transfers and mints are exact ledger moves, a
transfer fails exactly when the spendable balance is short, and nothing locks the coins of the
module account.
-/

namespace Fandomchain.Tokenfactory

/-! ## Coins -/

structure Coin where
  denom : String
  amount : ℤ
  deriving DecidableEq, Repr

abbrev Coins := List Coin

def isDenomChar (c : Char) : Bool := c.isAlphanum || c ∈ ['/', ':', '.', '_', '-']

/-- `[a-zA-Z][a-zA-Z0-9/:._-]{2,127}` -/
def isValidDenom (denom : String) : Bool :=
  match denom.toList with
  | [] => false
  | head :: tail =>
      head.isAlpha && 2 ≤ tail.length && tail.length ≤ 127 && tail.all isDenomChar

def amountOfNoDenomValidation (coins : Coins) (denom : String) : ℤ :=
  match coins.find? (fun coin => coin.denom = denom) with
  | some coin => coin.amount
  | none => 0

def amountOf (coins : Coins) (denom : String) : Except (Fault Err) ℤ :=
  if isValidDenom denom then .ok (amountOfNoDenomValidation coins denom)
  else .error (.panic "invalid denom")

def newCoin (denom : String) (amount : ℤ) : Except (Fault Err) Coin :=
  if ¬isValidDenom denom then .error (.panic "invalid denom")
  else if amount < 0 then .error (.panic "negative coin amount")
  else .ok ⟨denom, amount⟩

/-- `sdk.NewCoins` of the one coin that each caller passes: a zero coin is dropped. -/
def newCoins (coin : Coin) : Coins := if coin.amount = 0 then [] else [coin]

def Coins.IsValid (coins : Coins) : Prop :=
  (∀ coin ∈ coins, isValidDenom coin.denom ∧ 0 < coin.amount) ∧
    coins.Pairwise (fun a b => a.denom < b.denom)

instance (coins : Coins) : Decidable (Coins.IsValid coins) :=
  inferInstanceAs (Decidable (_ ∧ _))

theorem amountOf_eq_ok {coins : Coins} {denom : String} {amount : ℤ} :
    amountOf coins denom = .ok amount ↔
      isValidDenom denom ∧ amountOfNoDenomValidation coins denom = amount := by
  unfold amountOf
  split <;> simp_all

theorem newCoin_eq_ok {denom : String} {amount : ℤ} {coin : Coin} :
    newCoin denom amount = .ok coin ↔
      isValidDenom denom ∧ 0 ≤ amount ∧ coin = ⟨denom, amount⟩ := by
  unfold newCoin
  by_cases valid : isValidDenom denom
  · by_cases negative : amount < 0
    · have : ¬0 ≤ amount := not_le.mpr negative
      simp [valid, negative, this]
    · simp only [valid, not_true_eq_false, if_false, negative, true_and, not_lt.mp negative,
        Except.ok.injEq]
      exact eq_comm
  · simp [valid]

theorem newCoins_valid {denom : String} {amount : ℤ} (hd : isValidDenom denom)
    (ha : 0 ≤ amount) : Coins.IsValid (newCoins ⟨denom, amount⟩) := by
  unfold newCoins
  split
  · exact ⟨by simp, List.Pairwise.nil⟩
  · rename_i nonzero
    refine ⟨fun coin mem => ?_, List.pairwise_singleton _ _⟩
    obtain rfl := List.mem_singleton.mp mem
    exact ⟨hd, lt_of_le_of_ne ha (Ne.symm nonzero)⟩

@[simp] theorem amountOf_newCoins (denom c : String) (amount : ℤ) :
    amountOfNoDenomValidation (newCoins ⟨denom, amount⟩) c = if c = denom then amount else 0 := by
  unfold newCoins amountOfNoDenomValidation
  by_cases same : denom = c
  · by_cases zero : amount = 0 <;> simp [same, zero]
  · have : ¬c = denom := fun h => same h.symm
    by_cases zero : amount = 0 <;> simp [same, zero, this]

theorem amountOf_cons (coin : Coin) (rest : Coins) (c : String) :
    amountOfNoDenomValidation (coin :: rest) c =
      if coin.denom = c then coin.amount else amountOfNoDenomValidation rest c := by
  unfold amountOfNoDenomValidation
  by_cases same : coin.denom = c <;> simp [same]

theorem amountOf_of_absent {coins : Coins} {c : String} (h : ∀ coin ∈ coins, coin.denom ≠ c) :
    amountOfNoDenomValidation coins c = 0 := by
  induction coins with
  | nil => rfl
  | cons coin rest ih =>
      obtain ⟨other, others⟩ := List.forall_mem_cons.mp h
      rw [amountOf_cons, if_neg other]
      exact ih others

theorem amountOf_mem {coins : Coins} (valid : Coins.IsValid coins) {coin : Coin}
    (mem : coin ∈ coins) : amountOfNoDenomValidation coins coin.denom = coin.amount := by
  obtain ⟨-, sorted⟩ := valid
  induction coins with
  | nil => cases mem
  | cons first rest ih =>
      obtain ⟨above, sorted⟩ := List.pairwise_cons.mp sorted
      rw [amountOf_cons]
      rcases List.mem_cons.mp mem with rfl | mem
      · rw [if_pos rfl]
      · rw [if_neg (above coin mem).ne, ih mem sorted]

theorem amountOf_nonneg {coins : Coins} (valid : Coins.IsValid coins) (c : String) :
    0 ≤ amountOfNoDenomValidation coins c := by
  unfold amountOfNoDenomValidation
  split
  · rename_i coin found
    exact (valid.1 coin (List.mem_of_find?_eq_some found)).2.le
  · rfl

/-! ## Expected keepers -/

structure AddressCodec (α : Type) where
  stringToBytes : String → Except String α
  bytesToString : α → Except String String

structure AuthKeeper (α : Type) where
  getModuleAddress : String → Option α

structure BankKeeper (β α : Type) where
  spendableCoins : β → α → Coins
  sendCoins : β → (fromAddr toAddr : α) → Coins → Except String β
  mintCoins : β → (moduleName : String) → Coins → Except String β

structure Keeper (β α : Type) where
  addressCodec : AddressCodec α
  authority : α
  authKeeper : AuthKeeper α
  bankKeeper : BankKeeper β α
  /-- The text of `collections.ErrNotFound` for a key. -/
  errNotFound : String → String

/-! ## The state -/

-- strings compare by code points, which is the byte order of their UTF-8 keys
abbrev DenomMap := Std.ExtTreeMap String Denom

structure Chain (β : Type) where
  params : Option Params
  port : Option String
  denom : DenomMap
  bank : β

/-- A handler keeps the writes it made before it failed: rolling back is left to the caller. -/
abbrev HandlerM (β : Type) := EStateM (Fault Err) (Chain β)

def Keeper.getDenom {β α : Type} (k : Keeper β α) (s : Chain β) (denom : String) :
    Except (Fault Err) Denom :=
  match s.denom[denom]? with
  | some val => .ok val
  | none => .error (wrap .errKeyNotFound ("denom not found: " ++ k.errNotFound denom))

def Keeper.getModuleAddr {β α : Type} (k : Keeper β α) : Except (Fault Err) α :=
  match k.authKeeper.getModuleAddress "tokenfactory" with
  | some moduleAddr => .ok moduleAddr
  | none => .error (wrap .errLogic "failed to get module address")

@[simp] theorem getDenom_eq_ok {β α : Type} {k : Keeper β α} {s : Chain β} {denom : String}
    {val : Denom} : k.getDenom s denom = .ok val ↔ s.denom[denom]? = some val := by
  unfold Keeper.getDenom
  cases s.denom[denom]? <;> simp

@[simp] theorem getModuleAddr_eq_ok {β α : Type} {k : Keeper β α} {addr : α} :
    k.getModuleAddr = .ok addr ↔ k.authKeeper.getModuleAddress "tokenfactory" = some addr := by
  unfold Keeper.getModuleAddr
  cases k.authKeeper.getModuleAddress "tokenfactory" <;> simp

/-! ## What the module relies on -/

/-- What can be read off a bank: `holders` covers every account with a balance. -/
structure BankView (β α : Type) where
  balance : β → α → String → ℤ
  supply : β → String → ℤ
  holders : β → Finset α

structure Lawful {β α : Type} [DecidableEq α] (k : Keeper β α) (view : BankView β α)
    (moduleAddr : α) : Prop where
  module_address : k.authKeeper.getModuleAddress "tokenfactory" = some moduleAddr
  balance_nonneg : ∀ b a c, 0 ≤ view.balance b a c
  balance_of_not_holder : ∀ b a c, a ∉ view.holders b → view.balance b a c = 0
  supply_eq : ∀ b c, view.supply b c = ∑ a ∈ view.holders b, view.balance b a c
  spendable_nonneg : ∀ b a c, 0 ≤ amountOfNoDenomValidation (k.bankKeeper.spendableCoins b a) c
  spendable_le : ∀ b a c,
    amountOfNoDenomValidation (k.bankKeeper.spendableCoins b a) c ≤ view.balance b a c
  spendable_module : ∀ b c,
    amountOfNoDenomValidation (k.bankKeeper.spendableCoins b moduleAddr) c =
      view.balance b moduleAddr c
  send_iff : ∀ b src dst amt, (∃ b', k.bankKeeper.sendCoins b src dst amt = .ok b') ↔
    Coins.IsValid amt ∧ ∀ c, amountOfNoDenomValidation amt c ≤
      amountOfNoDenomValidation (k.bankKeeper.spendableCoins b src) c
  send_balance : ∀ b src dst amt b', k.bankKeeper.sendCoins b src dst amt = .ok b' → ∀ a c,
    view.balance b' a c = view.balance b a c
      - (if a = src then amountOfNoDenomValidation amt c else 0)
      + (if a = dst then amountOfNoDenomValidation amt c else 0)
  send_supply : ∀ b src dst amt b', k.bankKeeper.sendCoins b src dst amt = .ok b' →
    view.supply b' = view.supply b
  mint_balance : ∀ b amt b', k.bankKeeper.mintCoins b "tokenfactory" amt = .ok b' → ∀ a c,
    view.balance b' a c = view.balance b a c
      + (if a = moduleAddr then amountOfNoDenomValidation amt c else 0)
  mint_supply : ∀ b amt b', k.bankKeeper.mintCoins b "tokenfactory" amt = .ok b' → ∀ c,
    view.supply b' c = view.supply b c + amountOfNoDenomValidation amt c

section Lawful

variable {β α : Type} [DecidableEq α] {k : Keeper β α} {view : BankView β α} {m : α}

def BankView.heldByOthers (view : BankView β α) (a : α) (b : β) (c : String) : ℤ :=
  ∑ holder ∈ (view.holders b).erase a, view.balance b holder c

namespace Lawful

theorem held_eq (law : Lawful k view m) (a : α) (b : β) (c : String) :
    view.heldByOthers a b c = view.supply b c - view.balance b a c := by
  unfold BankView.heldByOthers
  rw [law.supply_eq]
  by_cases holder : a ∈ view.holders b
  · rw [← Finset.sum_erase_add _ _ holder]
    ring
  · rw [Finset.erase_eq_of_notMem holder, law.balance_of_not_holder b a c holder, sub_zero]

theorem balance_le_held (law : Lawful k view m) {a holder : α} (other : holder ≠ a) (b : β)
    (c : String) : view.balance b holder c ≤ view.heldByOthers a b c := by
  by_cases mem : holder ∈ view.holders b
  · exact Finset.single_le_sum (fun x _ => law.balance_nonneg b x c)
      (Finset.mem_erase.mpr ⟨other, mem⟩)
  · rw [law.balance_of_not_holder b holder c mem]
    exact Finset.sum_nonneg fun x _ => law.balance_nonneg b x c

theorem held_nonneg (law : Lawful k view m) (a : α) (b : β) (c : String) :
    0 ≤ view.heldByOthers a b c :=
  Finset.sum_nonneg fun x _ => law.balance_nonneg b x c

theorem balance_le_supply (law : Lawful k view m) (a : α) (b : β) (c : String) :
    view.balance b a c ≤ view.supply b c := by
  have := law.held_eq a b c
  have := law.held_nonneg a b c
  omega

end Lawful

end Lawful

end Fandomchain.Tokenfactory
