import Fandomchain.Proof.Frame
import Fandomchain.Proof.Panic
import Fandomchain.Proof.QueryServer
import Fandomchain.Proof.TxClient
import Fandomchain.Tokenfactory.CreateToken

/-!
# What the form shows and what the chain has

The form takes every response for a success and never reads its code. Behind a token that it shows as
created there is a lasting record when the code was 0. When it was another one the message did
nothing, and that is so for every name that is taken or of which the chain cannot mint a coin.
-/

namespace Fandomchain.Proof
open Library Tokenfactory Tokenfactory.TxClient Tokenfactory.CreateToken

variable {β α : Type} {k : Keeper β α} {w : BinaryWriter} {newURL : String → Bool}

/-! ## Names -/

def StartsWithLetter (name : String) : Prop := ∃ head ∈ name.toList.head?, head.isAlpha

instance (name : String) : Decidable (StartsWithLetter name) :=
  decidable_of_iff (name.toList.head?.any Char.isAlpha) (by
    unfold StartsWithLetter
    cases name.toList <;> simp)

structure Coinable (name : String) : Prop where
  letter : StartsWithLetter name
  long : 3 ≤ name.length
  short : name.length ≤ 128

theorem isAlphanum_of_denomRegex {c : Char}
    (h : (('a' ≤ c && c ≤ 'z') || ('0' ≤ c && c ≤ '9')) = true) : c.isAlphanum = true := by
  simp only [Bool.or_eq_true, Bool.and_eq_true, decide_eq_true_eq] at h
  simp only [Char.isAlphanum, Char.isAlpha, Char.isLower, Char.isDigit, Bool.or_eq_true,
    Bool.and_eq_true, decide_eq_true_eq]
  rcases h with lower | digit
  · exact .inl (.inr lower)
  · exact .inr digit

theorem isValidDenom_iff_coinable {name : String} (passed : denomRegex name) :
    isValidDenom name ↔ Coinable name := by
  have chars : ∀ c ∈ name.toList, isDenomChar c := by
    intro c mem
    simp only [denomRegex, Bool.and_eq_true, List.all_eq_true] at passed
    simp only [isDenomChar, isAlphanum_of_denomRegex (passed.2 c mem), Bool.true_or]
  have size : name.length = name.toList.length := String.length_toList.symm
  have parts : Coinable name ↔
      StartsWithLetter name ∧ 3 ≤ name.toList.length ∧ name.toList.length ≤ 128 := by
    rw [← size]
    exact ⟨fun h => ⟨h.letter, h.long, h.short⟩, fun h => ⟨h.1, h.2.1, h.2.2⟩⟩
  rw [parts]
  unfold isValidDenom StartsWithLetter
  cases split : name.toList with
  | nil => simp
  | cons head tail =>
      rw [split, List.forall_mem_cons] at chars
      have others : tail.all isDenomChar := List.all_eq_true.mpr chars.2
      have last : tail.length ≤ 127 ↔ tail.length < 128 := Nat.lt_succ_iff.symm
      simp [others, last, and_assoc]

theorem denomRegex_of_validateForm {form : CreateTokenForm}
    (valid : validateForm newURL form = .ok ()) : denomRegex form.denom := by
  unfold validateForm at valid
  split_ifs at valid
  rename_i passed _ _
  exact passed

theorem coinable_of_accepts {state : State} {address : String} {s : Chain β}
    (valid : validateForm newURL state.form = .ok ())
    (accepted : accepts (createDenom k (state.form.msg address)) s) : Coinable state.form.denom := by
  obtain ⟨s', created⟩ := createDenom_accepts_iff.mp accepted
  exact (isValidDenom_iff_coinable (denomRegex_of_validateForm valid)).mp created.coin_valid

variable [DecidableEq α]

theorem missing_of_not_coinable {name : String} (passed : denomRegex name) (named : ¬Coinable name)
    {t : Chain β} (reached : Reached k t) : t.denom[name]? = none := by
  cases found : t.denom[name]? with
  | none => rfl
  | some d =>
      have coin := (reached.issued name d found).valid_name
      rw [reached.keyed name d found] at coin
      exact absurd ((isValidDenom_iff_coinable passed).mp coin) named

/-! ## One submission -/

/-- An answer with the code 0 means that the message which the bytes decode to was executed in a block.
Whatever the answer, the chain moves by actions only: what the others do meanwhile, the fee, and
without an answer perhaps the message. -/
structure Executes (k : Keeper β α) (signAndBroadcast : Signer (Chain β)) : Prop where
  executed : ∀ bytes fee memo s response s',
    signAndBroadcast bytes fee memo s = (.ok response, s') → response.code = 0 →
    bytes.length < 2 ^ 63 ∧ ∀ msg : MsgCreateDenom, Pb.msgCreateDenom.decode bytes = .ok msg.toPb →
      ∃ before after : List (Action α), accepts (createDenom k msg) (before.foldl (step k) s) ∧
        s' = (before ++ .createDenom msg :: after).foldl (step k) s
  moves : ∀ bytes fee memo s answer s', signAndBroadcast bytes fee memo s = (answer, s') →
    ∃ others : List (Action α), s' = others.foldl (step k) s

/-- How a submission ends. -/
inductive Submitted (k : Keeper β α) (newURL : String → Bool) (address : String) (state : State)
    (s : Chain β) : Option DeliverTxResponse → State × Chain β → Prop
  | refused {message : Option Message} :
      Submitted k newURL address state s none ({ state with message }, s)
  | failed {message : Option Message} (others : List (Action α)) :
      Submitted k newURL address state s none
        ({ state with message, loading := false }, others.foldl (step k) s)
  | shown (valid : validateForm newURL state.form = .ok ()) {message : Option Message}
      {response : DeliverTxResponse} (others : List (Action α))
      (executed : response.code = 0 → ∃ before after : List (Action α),
        others = before ++ .createDenom (state.form.msg address) :: after ∧
        accepts (createDenom k (state.form.msg address)) (before.foldl (step k) s)) :
      Submitted k newURL address state s (some response)
        (⟨emptyForm, false, message, some state.form.denom⟩, others.foldl (step k) s)

/-- The response that a submission gets, if it is sent and gets one. -/
def answer (w : BinaryWriter) (newURL : String → Bool) (signAndBroadcast : Signer (Chain β))
    (address : String) (state : State) (s : Chain β) : Option DeliverTxResponse :=
  if address = "" then none
  else match validateForm newURL state.form with
    | .error _ => none
    | .ok () => (sendMsgCreateDenom w (some signAndBroadcast) (state.form.msg address) (some fee)
        (some "") s).1.toOption

/-- The record of `msg` is there for good, and it is what the query serves. -/
structure Served (k : Keeper β α) (msg : MsgCreateDenom) (t : Chain β) : Prop where
  lasting : Lasting k msg.denom (newDenom msg) t
  served : ∀ store d, Holds store t → t.denom[msg.denom]? = some d →
    (recordBytes d).length < 2 ^ 63 → store.queryGetDenom (some ⟨utf8 msg.denom⟩) = .ok ⟨d.toPb⟩

theorem served_run {msg : MsgCreateDenom} {s : Chain β} (keyed : Keyed s)
    (accepted : accepts (createDenom k msg) s) (as : List (Action α)) :
    Served k msg (as.foldl (step k) (step k s (.createDenom msg))) := by
  have created := step_created accepted
  refine ⟨lasting_run (keyed_step keyed _) created.record, fun store d holds found fits => ?_⟩
  simp only [KVStore.queryGetDenom, holds.getDenom_found found fits]

theorem Submitted.createdToken {address : String} {state : State} {s : Chain β}
    {response : DeliverTxResponse} {after : State × Chain β}
    (submitted : Submitted k newURL address state s (some response) after) :
    after.1.createdToken = some state.form.denom := by
  cases submitted
  rfl

section Submission

variable (lawful : w.Lawful) {signAndBroadcast : Signer (Chain β)}
  (executes : Executes k signAndBroadcast)
include lawful executes

theorem sendMsgCreateDenom_executed (msg : MsgCreateDenom) (s : Chain β) :
    (∃ response others, sendMsgCreateDenom w (some signAndBroadcast) msg (some fee) (some "") s =
      (.ok response, List.foldl (step k) s others) ∧
      (response.code = 0 → ∃ before after : List (Action α),
        others = before ++ .createDenom msg :: after ∧
        accepts (createDenom k msg) (before.foldl (step k) s))) ∨
    ∃ err others, sendMsgCreateDenom w (some signAndBroadcast) msg (some fee) (some "") s =
      (.error err, List.foldl (step k) s others) := by
  rcases broadcast : signAndBroadcast (w.finish (TxClient.MsgCreateDenom.encode w msg w.new)) fee
    (some "") s with ⟨err | response, s'⟩
  · obtain ⟨others, rfl⟩ := executes.moves _ _ _ _ _ _ broadcast
    right
    refine ⟨"TxClient:sendMsgCreateDenom: Could not broadcast Tx: " ++ err, others, ?_⟩
    simp only [sendMsgCreateDenom, Option.getD_some, broadcast]
  · left
    by_cases zero : response.code = 0
    · obtain ⟨fits, executed⟩ := executes.executed _ _ _ _ _ _ broadcast zero
      rw [finish_createDenom lawful] at fits executed
      obtain ⟨before, after, accepted, rfl⟩ := executed msg (MessageType.decode_encode fits)
      refine ⟨response, _, ?_, fun _ => ⟨before, after, rfl, accepted⟩⟩
      simp only [sendMsgCreateDenom, Option.getD_some, broadcast]
    · obtain ⟨others, rfl⟩ := executes.moves _ _ _ _ _ _ broadcast
      refine ⟨response, others, ?_, fun equal => absurd equal zero⟩
      simp only [sendMsgCreateDenom, Option.getD_some, broadcast]

theorem createToken_submitted (newURL : String → Bool) (address : String) (state : State)
    (s : Chain β) :
    Submitted k newURL address state s (answer w newURL signAndBroadcast address state s)
      (createToken w newURL (some signAndBroadcast) address state s) := by
  unfold createToken answer
  split
  · exact .refused
  · cases valid : validateForm newURL state.form with
    | error err => exact .refused
    | ok =>
        rcases sendMsgCreateDenom_executed lawful executes (state.form.msg address) s with
          ⟨response, others, sent, executed⟩ | ⟨err, others, sent⟩
        · simp only [sent]
          exact .shown valid others executed
        · simp only [sent]
          exact .failed others

/-- The form shows a token as soon as there is a response. Behind the code 0 there is the record of
the form, from then on; a name that is taken or that no coin can have is shown with another code. -/
theorem shown_creation {address : String} {state : State} {s : Chain β} (reached : Reached k s)
    (hidden : state.createdToken = none) :
    let msg := state.form.msg address
    let after := createToken w newURL (some signAndBroadcast) address state s
    (∀ name, after.1.createdToken = some name ↔
      name = msg.denom ∧ ∃ response, answer w newURL signAndBroadcast address state s = some response) ∧
    ∀ response, answer w newURL signAndBroadcast address state s = some response →
      (response.code = 0 → ∀ as : List (Action α), Served k msg (as.foldl (step k) after.2)) ∧
      (∀ d, s.denom[msg.denom]? = some d → response.code ≠ 0 ∧
        ∀ as : List (Action α), Lasting k msg.denom d (as.foldl (step k) after.2)) ∧
      (¬Coinable msg.denom → response.code ≠ 0 ∧ ∀ t, Reached k t → t.denom[msg.denom]? = none ∧
        ((∃ owner, k.addressCodec.stringToBytes address = .ok owner) →
          Panics (createDenom k msg) t)) := by
  intro msg after
  have submitted : Submitted k newURL address state s
      (answer w newURL signAndBroadcast address state s) after :=
    createToken_submitted lawful executes newURL address state s
  generalize answer w newURL signAndBroadcast address state s = answered at submitted
  generalize after = after at submitted
  cases submitted with
  | refused =>
      refine ⟨fun name => ?_, fun response none => by cases none⟩
      simp [hidden]
  | failed =>
      refine ⟨fun name => ?_, fun response none => by cases none⟩
      simp [hidden]
  | @shown valid _ response others executed =>
      have passed := denomRegex_of_validateForm valid
      refine ⟨fun name => ?_, ?_⟩
      · simp [msg, CreateTokenForm.msg, eq_comm]
      rintro _ ⟨⟩
      refine ⟨?_, ?_, ?_⟩
      · intro zero as
        obtain ⟨before, later, rfl, accepted⟩ := executed zero
        show Served k msg (as.foldl (step k) ((before ++ _ :: later).foldl (step k) s))
        rw [← List.foldl_append, List.append_assoc, List.foldl_append]
        exact served_run (reached.run before).keyed accepted (later ++ as)
      · intro d taken
        refine ⟨fun zero => ?_, fun as => ?_⟩
        · obtain ⟨before, later, rfl, accepted⟩ := executed zero
          exact (lasting_run reached.keyed taken).created_once msg rfl accepted
        · show Lasting k msg.denom d (as.foldl (step k) (others.foldl (step k) s))
          rw [← List.foldl_append]
          exact lasting_run reached.keyed taken
      · intro named
        refine ⟨fun zero => ?_, fun t reachedThere => ?_⟩
        · obtain ⟨before, later, rfl, accepted⟩ := executed zero
          exact named (coinable_of_accepts valid accepted)
        · have missing := missing_of_not_coinable passed named reachedThere
          refine ⟨missing, fun owner => createDenom_panics_iff.mpr ⟨owner, missing, fun coin => ?_⟩⟩
          exact named ((isValidDenom_iff_coinable passed).mp coin)

end Submission

/-! ## Sessions -/

inductive Use (α : Type) where
  | edit (form : CreateTokenForm)
  | resetForm
  | createToken (address : String)
  | act (a : Action α)

/-- The page over the chain; `response` is the one behind the last token that was shown, which the
page does not keep. -/
structure Page (β : Type) where
  state : State
  chain : Chain β
  response : Option DeliverTxResponse

def use (k : Keeper β α) (w : BinaryWriter) (newURL : String → Bool)
    (signAndBroadcast : Signer (Chain β)) (page : Page β) : Use α → Page β
  | .edit form => { page with state := { page.state with form } }
  | .resetForm => { page with state := CreateToken.resetForm page.state }
  | .createToken address =>
      let after := CreateToken.createToken w newURL (some signAndBroadcast) address page.state
        page.chain
      ⟨after.1, after.2,
        (answer w newURL signAndBroadcast address page.state page.chain).or page.response⟩
  | .act a => { page with chain := step k page.chain a }

def Page.initial (s : Chain β) : Page β := ⟨State.initial, s, none⟩

structure Shown (k : Keeper β α) (page : Page β) : Prop where
  reached : Reached k page.chain
  passed : ∀ name, page.state.createdToken = some name → denomRegex name
  behind : ∀ name, page.state.createdToken = some name → ∃ response, page.response = some response ∧
    (response.code = 0 → ∃ d, page.chain.denom[name]? = some d)

theorem found_run {s : Chain β} (keyed : Keyed s) {name : String}
    (found : ∃ d, s.denom[name]? = some d) (as : List (Action α)) :
    ∃ d, (as.foldl (step k) s).denom[name]? = some d := by
  obtain ⟨d, there⟩ := found
  obtain ⟨d', stays, -⟩ := (lasting_run (k := k) keyed there).record
  exact ⟨d', stays⟩

theorem Shown.run {state : State} {s : Chain β} {response : Option DeliverTxResponse}
    (h : Shown k ⟨state, s, response⟩) (as : List (Action α)) :
    Shown k ⟨state, as.foldl (step k) s, response⟩ := by
  refine ⟨h.reached.run as, h.passed, fun name shown => ?_⟩
  obtain ⟨response, behind, stored⟩ := h.behind name shown
  exact ⟨response, behind, fun zero => found_run h.reached.keyed (stored zero) as⟩

theorem Shown.submitted {address : String} {state : State} {s : Chain β}
    {response answered : Option DeliverTxResponse} (h : Shown k ⟨state, s, response⟩)
    {after : State × Chain β} (submitted : Submitted k newURL address state s answered after) :
    Shown k ⟨after.1, after.2, answered.or response⟩ := by
  cases submitted with
  | refused => exact ⟨h.reached, h.passed, h.behind⟩
  | failed others =>
      have later := h.run others
      exact ⟨later.reached, later.passed, later.behind⟩
  | @shown valid _ answered others executed =>
      refine ⟨h.reached.run others, ?_, ?_⟩
      · rintro _ ⟨⟩
        exact denomRegex_of_validateForm valid
      · rintro _ ⟨⟩
        refine ⟨answered, rfl, fun zero => ?_⟩
        obtain ⟨before, later, rfl, accepted⟩ := executed zero
        rw [List.foldl_append]
        have keyed := (h.reached.run before).keyed
        have created := step_created accepted
        exact found_run (keyed_step keyed _) ⟨_, created.record⟩ later

theorem Shown.use (lawful : w.Lawful) {signAndBroadcast : Signer (Chain β)}
    (executes : Executes k signAndBroadcast) {page : Page β} (h : Shown k page) (u : Use α) :
    Shown k (use k w newURL signAndBroadcast page u) := by
  obtain ⟨state, s, response⟩ := page
  cases u with
  | edit form => exact ⟨h.reached, h.passed, h.behind⟩
  | resetForm =>
      refine ⟨h.reached, ?_, ?_⟩
      · rintro _ ⟨⟩
      · rintro _ ⟨⟩
  | createToken address =>
      exact h.submitted (createToken_submitted lawful executes newURL address state s)
  | act a => exact h.run [a]

/-- However a user of the form and everybody else act: a token that is shown as created has a record
for good if the response behind it had the code 0, and one whose name no coin can have never gets one. -/
theorem shown_token_exists (lawful : w.Lawful) {signAndBroadcast : Signer (Chain β)}
    (executes : Executes k signAndBroadcast) {s : Chain β} (reached : Reached k s)
    (uses : List (Use α)) {name : String}
    (shown : (uses.foldl (use k w newURL signAndBroadcast) (.initial s)).state.createdToken =
      some name) :
    let page := uses.foldl (use k w newURL signAndBroadcast) (.initial s)
    ∃ response, page.response = some response ∧
      (response.code = 0 → Coinable name ∧
        ∀ as : List (Action α), ∃ d, (as.foldl (step k) page.chain).denom[name]? = some d) ∧
      (¬Coinable name → response.code ≠ 0 ∧
        ∀ as : List (Action α), (as.foldl (step k) page.chain).denom[name]? = none) := by
  intro page
  have kept : Shown k page := by
    refine run_preserves (P := fun _ _ => True) (fun _ u h _ => h.use lawful executes u) ?_
      (along_of_forall_mem fun _ _ => trivial)
    exact ⟨reached, by rintro _ ⟨⟩, by rintro _ ⟨⟩⟩
  obtain ⟨response, behind, stored⟩ := kept.behind name shown
  have passed := kept.passed name shown
  have missing : ¬Coinable name → ∀ as : List (Action α),
      (as.foldl (step k) page.chain).denom[name]? = none :=
    fun named as => missing_of_not_coinable passed named (kept.reached.run as)
  refine ⟨response, behind, fun zero => ⟨?_, found_run kept.reached.keyed (stored zero)⟩,
    fun named => ⟨fun zero => ?_, missing named⟩⟩
  · obtain ⟨d, found⟩ := stored zero
    by_contra named
    have none_there := missing named []
    rw [List.foldl_nil, found] at none_there
    cases none_there
  · obtain ⟨d, found⟩ := stored zero
    have none_there := missing named []
    rw [List.foldl_nil, found] at none_there
    cases none_there

/-! ## A network of one node -/

def textOf (m : Pb.MsgCreateDenom) : Option MsgCreateDenom := do
  return ⟨← ofUtf8 m.owner, ← ofUtf8 m.denom, ← ofUtf8 m.description, ← ofUtf8 m.ticker, ← ofUtf8 m.url⟩

theorem textOf_toPb (msg : MsgCreateDenom) : textOf msg.toPb = some msg := by
  simp only [textOf, MsgCreateDenom.toPb, ofUtf8_utf8, pure, bind, Option.bind]

/-- Executes what it can decode. -/
def node : Signer (Chain Ledger) := fun bytes _ _ s =>
  if bytes.length < 2 ^ 63 then
    match (Pb.msgCreateDenom.decode bytes).toOption.bind textOf with
    | some msg =>
        (.ok ⟨if accepts (createDenom Ledger.keeper msg) s then 0 else 1⟩,
          step Ledger.keeper s (.createDenom msg))
    | none => (.error "tx parse error", s)
  else (.error "tx too large", s)

/-- Answers with the code of a transaction that ran out of gas. -/
def exhausted : Signer (Chain Ledger) := fun _ _ _ s => (.ok ⟨11⟩, s)

theorem node_decoded {bytes : Bytes} {msg : MsgCreateDenom} (fits : bytes.length < 2 ^ 63)
    (decoded : Pb.msgCreateDenom.decode bytes = .ok msg.toPb) (fee : StdFee) (memo : Option String)
    (s : Chain Ledger) : node bytes fee memo s =
      (.ok ⟨if accepts (createDenom Ledger.keeper msg) s then 0 else 1⟩,
        step Ledger.keeper s (.createDenom msg)) := by
  simp only [node, fits, decoded, Except.toOption, Option.bind, textOf_toPb, if_true]

theorem node_executes : Executes Ledger.keeper node where
  executed bytes fee memo s response s' answered zero := by
    by_cases fits : bytes.length < 2 ^ 63
    · refine ⟨fits, fun msg decoded => ⟨[], [], ?_, ?_⟩⟩
      · rw [node_decoded fits decoded] at answered
        cases (Prod.mk.inj answered).1
        simpa using zero
      · rw [node_decoded fits decoded] at answered
        exact (Prod.mk.inj answered).2.symm
    · rw [node, if_neg fits] at answered
      cases (Prod.mk.inj answered).1
  moves bytes fee memo s answer s' answered := by
    unfold node at answered
    split at answered
    · split at answered
      · rename_i msg _
        exact ⟨[.createDenom msg], (Prod.mk.inj answered).2.symm⟩
      · exact ⟨[], (Prod.mk.inj answered).2.symm⟩
    · exact ⟨[], (Prod.mk.inj answered).2.symm⟩

theorem exhausted_executes : Executes Ledger.keeper exhausted where
  executed bytes fee memo s response s' answered zero := by
    cases (Prod.mk.inj answered).1
    cases zero
  moves bytes fee memo s answer s' answered := ⟨[], (Prod.mk.inj answered).2.symm⟩

theorem node_answer (newURL : String → Bool) (address : String) (state : State) (s : Chain Ledger)
    (connected : address ≠ "") (valid : validateForm newURL state.form = .ok ())
    (fits : Pb.msgCreateDenom.size (state.form.msg address).toPb < 2 ^ 63) :
    answer byteWriter newURL node address state s =
      some ⟨if accepts (createDenom Ledger.keeper (state.form.msg address)) s then 0 else 1⟩ := by
  rw [Schema.size_eq] at fits
  have sent := node_decoded fits (MessageType.decode_encode fits) fee (some "") s
  rw [← finish_createDenom byteWriter_lawful] at sent
  simp only [answer, connected, valid, sendMsgCreateDenom, Option.getD_some, sent, if_false,
    Except.toOption]

def roseForm : CreateTokenForm := ⟨"rose", "A flower", "ROSE", ""⟩

/-- A valid form with a name that is no coin. -/
def digitForm : CreateTokenForm := ⟨"1a", "A digit", "ONE", ""⟩

def noURL (_ : String) : Bool := false


def filledIn (form : CreateTokenForm) : State := ⟨form, false, none, none⟩

theorem rose_answer : answer byteWriter noURL node "alice" (filledIn roseForm) opening = some ⟨0⟩ := by
  rw [node_answer _ _ _ _ (by decide) (by decide) (by decide)]
  exact congrArg some (congrArg DeliverTxResponse.mk (if_pos (by decide +kernel)))

theorem digit_answer : answer byteWriter noURL node "alice" (filledIn digitForm) opening = some ⟨1⟩ := by
  rw [node_answer _ _ _ _ (by decide) (by decide) (by decide)]
  exact congrArg some (congrArg DeliverTxResponse.mk (if_neg (by decide +kernel)))

theorem rose_created :
    let rose := createToken byteWriter noURL (some node) "alice" (filledIn roseForm) opening
    let digit := createToken byteWriter noURL (some node) "alice" (filledIn digitForm) opening
    (rose.1.createdToken = some "rose" ∧ Served Ledger.keeper (roseForm.msg "alice")
      ([buying "bob" "rose" 5000, selling "bob" "rose" 70].foldl (step Ledger.keeper) rose.2)) ∧
    digit.1.createdToken = some "1a" ∧
      Panics (createDenom Ledger.keeper (digitForm.msg "alice")) opening := by
  intro rose digit
  have reached : Reached Ledger.keeper opening := Reachable.start opening_empty
  obtain ⟨shown, behind⟩ := @shown_creation _ _ Ledger.keeper _ noURL _ byteWriter_lawful _
    node_executes "alice" (filledIn roseForm) _ reached rfl
  obtain ⟨shown', behind'⟩ := @shown_creation _ _ Ledger.keeper _ noURL _ byteWriter_lawful _
    node_executes "alice" (filledIn digitForm) _ reached rfl
  have named : ¬Coinable "1a" := fun named => absurd named.letter (by decide)
  refine ⟨⟨?_, ?_⟩, ?_, ?_⟩
  · exact (shown _).mpr ⟨rfl, _, rose_answer⟩
  · exact (behind _ rose_answer).1 rfl _
  · exact (shown' _).mpr ⟨rfl, _, digit_answer⟩
  · exact (((behind' _ digit_answer).2.2 named).2 opening reached).2 ⟨"alice", rfl⟩

def submission (form : CreateTokenForm) : List (Use String) := [.edit form, .createToken "alice"]

/-- One name with a record, one that never has any, and one that has none when the gas ran out. -/
theorem digit_missing :
    let rose := (submission roseForm ++ [Use.act (buying "bob" "rose" 5000)]).foldl
      (use Ledger.keeper byteWriter noURL node) (.initial opening)
    let digit := (submission digitForm).foldl (use Ledger.keeper byteWriter noURL node)
      (.initial opening)
    let lost := (submission roseForm).foldl (use Ledger.keeper byteWriter noURL exhausted)
      (.initial opening)
    (rose.state.createdToken = some "rose" ∧ ∃ d, rose.chain.denom["rose"]? = some d) ∧
      (digit.state.createdToken = some "1a" ∧ digit.chain.denom["1a"]? = none) ∧
      Executes Ledger.keeper exhausted ∧ lost.state.createdToken = some "rose" ∧
        lost.chain.denom["rose"]? = none := by
  intro rose digit lost
  have reached : Reached Ledger.keeper opening := Reachable.start opening_empty
  have submitted (form : CreateTokenForm) :=
    createToken_submitted byteWriter_lawful node_executes noURL "alice" (filledIn form) opening
  have shown : rose.state.createdToken = some "rose" :=
    Submitted.createdToken (rose_answer ▸ submitted roseForm)
  have shown' : digit.state.createdToken = some "1a" :=
    Submitted.createdToken (digit_answer ▸ submitted digitForm)
  obtain ⟨response, behind, stored, -⟩ :=
    shown_token_exists byteWriter_lawful node_executes reached _ shown
  obtain ⟨_, -, -, missing⟩ :=
    shown_token_exists byteWriter_lawful node_executes reached _ shown'
  have named : ¬Coinable "1a" := fun named => absurd named.letter (by decide)
  have zero : response = ⟨0⟩ := by
    have known : rose.response = some ⟨0⟩ := congrArg (Option.or · none) rose_answer
    exact Option.some.inj (behind.symm.trans known)
  refine ⟨⟨shown, ?_⟩, ⟨shown', ?_⟩, exhausted_executes, ?_, ?_⟩
  · exact (stored (zero ▸ rfl)).2 []
  · exact (missing named).2 []
  · rfl
  · rfl

end Fandomchain.Proof
