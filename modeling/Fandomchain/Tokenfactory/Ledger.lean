import Fandomchain.Tokenfactory.Keeper

/-!
# A bank that is a list of balances

The laws of `Lawful` can be met: a bank that books each balance under its account and coin, with an
account module and an address codec around it. Runs on fixed inputs use this keeper.
-/

namespace Fandomchain.Tokenfactory

structure Entry where
  holder : String
  coin : String
  amount : ℤ
  deriving DecidableEq, Repr

abbrev Books := List Entry

namespace Books

def total (counts : String → String → Bool) : Books → ℤ
  | [] => 0
  | entry :: rest =>
      (if counts entry.holder entry.coin then entry.amount else 0) + total counts rest

def balance (books : Books) (account c : String) : ℤ :=
  total (fun holder coin => holder = account ∧ coin = c) books

def supply (books : Books) (c : String) : ℤ := total (fun _ coin => coin = c) books

def holders (books : Books) : Finset String := (books.map Entry.holder).toFinset

def credit (account c : String) (x : ℤ) : Books → Books
  | [] => [⟨account, c, x⟩]
  | entry :: rest =>
      if entry.holder = account ∧ entry.coin = c then
        { entry with amount := entry.amount + x } :: rest
      else entry :: credit account c x rest

def creditAll (account : String) (sign : ℤ) : Coins → Books → Books
  | [], books => books
  | coin :: rest, books =>
      creditAll account sign rest (credit account coin.denom (sign * coin.amount) books)

theorem total_credit (counts : String → String → Bool) (account c : String) (x : ℤ)
    (books : Books) : total counts (credit account c x books) =
      total counts books + if counts account c then x else 0 := by
  induction books with
  | nil => simp [credit, total]
  | cons entry rest ih =>
      unfold credit
      split
      · rename_i same
        obtain ⟨rfl, rfl⟩ := same
        simp only [total]
        split <;> ring
      · simp only [total, ih]
        ring

theorem balance_credit (account coin : String) (x : ℤ) (books : Books) (a c : String) :
    (credit account coin x books).balance a c =
      books.balance a c + if account = a ∧ coin = c then x else 0 := by
  unfold balance
  simp only [total_credit, decide_eq_true_eq]

theorem supply_credit (account coin : String) (x : ℤ) (books : Books) (c : String) :
    (credit account coin x books).supply c = books.supply c + if coin = c then x else 0 := by
  unfold supply
  simp only [total_credit, decide_eq_true_eq]

theorem balance_creditAll (account : String) (sign : ℤ) {amt : Coins}
    (sorted : amt.Pairwise (fun a b => a.denom < b.denom)) (books : Books) (a c : String) :
    (creditAll account sign amt books).balance a c =
      books.balance a c + if a = account then sign * amountOfNoDenomValidation amt c else 0 := by
  induction amt generalizing books with
  | nil => simp [creditAll, amountOfNoDenomValidation]
  | cons coin rest ih =>
      obtain ⟨above, sorted⟩ := List.pairwise_cons.mp sorted
      rw [creditAll, ih sorted, balance_credit, amountOf_cons]
      by_cases ha : a = account
      · subst ha
        by_cases hc : coin.denom = c
        · have absent : amountOfNoDenomValidation rest c = 0 :=
            amountOf_of_absent fun b hb => hc ▸ (above b hb).ne'
          simp [hc, absent]
        · simp [hc]
      · have : account ≠ a := Ne.symm ha
        simp [ha, this]

theorem supply_creditAll (account : String) (sign : ℤ) {amt : Coins}
    (sorted : amt.Pairwise (fun a b => a.denom < b.denom)) (books : Books) (c : String) :
    (creditAll account sign amt books).supply c =
      books.supply c + sign * amountOfNoDenomValidation amt c := by
  induction amt generalizing books with
  | nil => simp [creditAll, amountOfNoDenomValidation]
  | cons coin rest ih =>
      obtain ⟨above, sorted⟩ := List.pairwise_cons.mp sorted
      rw [creditAll, ih sorted, supply_credit, amountOf_cons]
      by_cases hc : coin.denom = c
      · have absent : amountOfNoDenomValidation rest c = 0 :=
          amountOf_of_absent fun b hb => hc ▸ (above b hb).ne'
        simp [hc, absent]
      · simp [hc]

theorem balance_of_not_holder {books : Books} {a : String} (h : a ∉ books.holders) (c : String) :
    books.balance a c = 0 := by
  induction books with
  | nil => rfl
  | cons entry rest ih =>
      simp only [holders, List.map_cons, List.toFinset_cons, Finset.mem_insert, not_or] at h
      have other : entry.holder ≠ a := Ne.symm h.1
      have := ih h.2
      simpa [balance, total, other] using this

theorem supply_eq_sum (books : Books) (c : String) :
    books.supply c = ∑ a ∈ books.holders, books.balance a c := by
  induction books with
  | nil => rfl
  | cons entry rest ih =>
      have grow : holders rest ⊆ holders (entry :: rest) := by
        intro a mem
        simpa [holders] using Or.inr (by simpa [holders] using mem)
      have head : entry.holder ∈ holders (entry :: rest) := by simp [holders]
      have old : ∑ a ∈ holders (entry :: rest), balance rest a c = supply rest c := by
        rw [ih]
        exact (Finset.sum_subset grow fun a _ absent => balance_of_not_holder absent c).symm
      have split : ∀ a, balance (entry :: rest) a c =
          (if entry.holder = a then (if entry.coin = c then entry.amount else 0) else 0)
            + balance rest a c := by
        intro a
        simp only [balance, total, decide_eq_true_eq, ite_and]
      simp only [split, Finset.sum_add_distrib, Finset.sum_ite_eq, head, if_true, old]
      simp only [supply, total, decide_eq_true_eq]

end Books

structure Ledger where
  books : Books
  nonneg : ∀ a c, 0 ≤ books.balance a c

namespace Ledger

def ofBooks (books : Books) (h : ∀ entry ∈ books, 0 ≤ entry.amount) : Ledger where
  books
  nonneg := by
    intro a c
    induction books with
    | nil => exact le_rfl
    | cons entry rest ih =>
        obtain ⟨first, others⟩ := List.forall_mem_cons.mp h
        have rest_nonneg : 0 ≤ Books.balance rest a c := ih others
        show 0 ≤ (if _ then entry.amount else 0) + Books.balance rest a c
        split <;> omega

def spendableCoins (b : Ledger) (addr : String) : Coins :=
  b.books.map fun entry => ⟨entry.coin, b.books.balance addr entry.coin⟩

theorem balance_of_no_entry {books : Books} {c : String} (h : ∀ entry ∈ books, entry.coin ≠ c)
    (a : String) : books.balance a c = 0 := by
  induction books with
  | nil => rfl
  | cons entry rest ih =>
      obtain ⟨other, others⟩ := List.forall_mem_cons.mp h
      have := ih others
      simpa [Books.balance, Books.total, other] using this

theorem amountOf_spendableCoins (b : Ledger) (addr c : String) :
    amountOfNoDenomValidation (b.spendableCoins addr) c = b.books.balance addr c := by
  unfold amountOfNoDenomValidation spendableCoins
  rw [List.find?_map]
  cases found : b.books.find? (_ ∘ _) with
  | some entry =>
      have coin : entry.coin = c := by simpa using List.find?_some found
      simp [coin]
  | none =>
      have absent : ∀ entry ∈ b.books, entry.coin ≠ c := by simpa using found
      simp [balance_of_no_entry absent]

theorem amountOf_le_of_forall {amt : Coins} {b : Ledger} {src : String}
    (enough : ∀ coin ∈ amt, coin.amount ≤ b.books.balance src coin.denom) (c : String) :
    amountOfNoDenomValidation amt c ≤ b.books.balance src c := by
  induction amt with
  | nil => exact b.nonneg src c
  | cons coin rest ih =>
      obtain ⟨first, others⟩ := List.forall_mem_cons.mp enough
      rw [amountOf_cons]
      split
      · rename_i same
        exact same ▸ first
      · exact ih others

def move (src dst : String) (amt : Coins) (books : Books) : Books :=
  (books.creditAll src (-1) amt).creditAll dst 1 amt

theorem balance_move {src dst : String} {amt : Coins} (valid : Coins.IsValid amt) (books : Books)
    (a c : String) : (move src dst amt books).balance a c =
      books.balance a c - (if a = src then amountOfNoDenomValidation amt c else 0)
        + (if a = dst then amountOfNoDenomValidation amt c else 0) := by
  unfold move
  rw [Books.balance_creditAll dst 1 valid.2, Books.balance_creditAll src (-1) valid.2]
  split <;> split <;> ring

def sendCoins (b : Ledger) (fromAddr toAddr : String) (amt : Coins) : Except String Ledger :=
  if h : Coins.IsValid amt ∧ ∀ coin ∈ amt, coin.amount ≤ b.books.balance fromAddr coin.denom then
    .ok {
      books := move fromAddr toAddr amt b.books
      nonneg := by
        intro a c
        have := b.nonneg a c
        have := amountOf_nonneg h.1 c
        have := amountOf_le_of_forall h.2 c
        rw [balance_move h.1]
        split
        · subst a
          split <;> omega
        · split <;> omega }
  else .error "insufficient funds"

def mintCoins (b : Ledger) (moduleName : String) (amt : Coins) : Except String Ledger :=
  if h : Coins.IsValid amt then
    .ok {
      books := b.books.creditAll moduleName 1 amt
      nonneg := by
        intro a c
        have := b.nonneg a c
        have := amountOf_nonneg h c
        rw [Books.balance_creditAll moduleName 1 h.2]
        split <;> omega }
  else .error "invalid coins"

def keeper : Keeper Ledger String where
  addressCodec :=
    { stringToBytes := fun text =>
        if text = "" then .error "empty address string is not allowed" else .ok text
      bytesToString := .ok }
  authority := "gov"
  authKeeper := { getModuleAddress := fun name => if name = "tokenfactory" then some name else none }
  bankKeeper := { spendableCoins, sendCoins, mintCoins }
  errNotFound := fun key => "collections: not found: key '" ++ key ++ "'"

def view : BankView Ledger String where
  balance b := b.books.balance
  supply b := b.books.supply
  holders b := b.books.holders

theorem sendCoins_eq_ok {b b' : Ledger} {src dst : String} {amt : Coins}
    (h : b.sendCoins src dst amt = .ok b') :
    Coins.IsValid amt ∧ b'.books = move src dst amt b.books := by
  unfold sendCoins at h
  split at h
  · rename_i accepted
    cases h
    exact ⟨accepted.1, rfl⟩
  · cases h

theorem mintCoins_eq_ok {b b' : Ledger} {name : String} {amt : Coins}
    (h : b.mintCoins name amt = .ok b') :
    Coins.IsValid amt ∧ b'.books = b.books.creditAll name 1 amt := by
  unfold mintCoins at h
  split at h
  · rename_i accepted
    cases h
    exact ⟨accepted, rfl⟩
  · cases h

theorem sendCoins_iff (b : Ledger) (src dst : String) (amt : Coins) :
    (∃ b', b.sendCoins src dst amt = .ok b') ↔ Coins.IsValid amt ∧
      ∀ c, amountOfNoDenomValidation amt c ≤ amountOfNoDenomValidation (b.spendableCoins src) c := by
  simp only [amountOf_spendableCoins]
  unfold sendCoins
  constructor
  · intro ⟨b', h⟩
    split at h
    · rename_i accepted
      exact ⟨accepted.1, amountOf_le_of_forall accepted.2⟩
    · cases h
  · intro ⟨valid, enough⟩
    have each : ∀ coin ∈ amt, coin.amount ≤ b.books.balance src coin.denom := by
      intro coin mem
      rw [← amountOf_mem valid mem]
      exact enough coin.denom
    rw [dif_pos ⟨valid, each⟩]
    exact ⟨_, rfl⟩

theorem lawful : Lawful keeper view "tokenfactory" where
  module_address := rfl
  balance_nonneg b := b.nonneg
  balance_of_not_holder b a c absent := Books.balance_of_not_holder absent c
  supply_eq b c := b.books.supply_eq_sum c
  spendable_nonneg b a c := (b.amountOf_spendableCoins a c).symm ▸ b.nonneg a c
  spendable_le b a c := (b.amountOf_spendableCoins a c).le
  spendable_module b c := b.amountOf_spendableCoins _ c
  send_iff := sendCoins_iff
  send_balance := by
    intro b src dst amt b' sent a c
    obtain ⟨valid, moved⟩ := sendCoins_eq_ok sent
    show b'.books.balance a c = _
    rw [moved, balance_move valid]
    rfl
  send_supply := by
    intro b src dst amt b' sent
    obtain ⟨valid, moved⟩ := sendCoins_eq_ok sent
    funext c
    show b'.books.supply c = b.books.supply c
    rw [moved, move, Books.supply_creditAll dst 1 valid.2, Books.supply_creditAll src (-1) valid.2]
    ring
  mint_balance := by
    intro b amt b' minted a c
    obtain ⟨valid, credited⟩ := mintCoins_eq_ok minted
    show b'.books.balance a c = _
    rw [credited, Books.balance_creditAll _ 1 valid.2, one_mul]
    rfl
  mint_supply := by
    intro b amt b' minted c
    obtain ⟨valid, credited⟩ := mintCoins_eq_ok minted
    show b'.books.supply c = _
    rw [credited, Books.supply_creditAll _ 1 valid.2, one_mul]
    rfl

end Ledger

end Fandomchain.Tokenfactory
