import Fandomchain.Tokenfactory.TxClient

/-!
# The form that creates a token

`vue/src/def-composables/useCreateToken.ts`. The form is checked, sent and emptied again; a message
to the user goes away by itself after some seconds, which is not modelled.
-/

namespace Fandomchain.Tokenfactory.CreateToken
open TxClient

structure CreateTokenForm where
  denom : String
  description : String
  ticker : String
  url : String
  deriving DecidableEq, Repr

inductive Message where
  | error (text : String)
  | success (text : String)
  deriving DecidableEq, Repr

structure State where
  form : CreateTokenForm
  loading : Bool
  message : Option Message
  createdToken : Option String
  deriving DecidableEq, Repr

def emptyForm : CreateTokenForm := ⟨"", "", "", ""⟩

def State.initial : State := ⟨emptyForm, false, none, none⟩

/-! ## `validateForm` -/

/-- The white space and line ends of ECMAScript. -/
def isWhiteSpace (c : Char) : Bool :=
  c ∈ ['\t', '\n', '\x0b', '\x0c', '\r', ' ', '\xa0', '\u1680', '\u2028', '\u2029', '\u202f',
    '\u205f', '\u3000', '\ufeff'] || ('\u2000' ≤ c && c ≤ '\u200a')

def trim (text : String) : String :=
  String.ofList ((text.toList.dropWhile isWhiteSpace).reverse.dropWhile isWhiteSpace).reverse

/-- `/^[a-z0-9]+$/` -/
def denomRegex (text : String) : Bool :=
  text ≠ "" && text.toList.all fun c => ('a' ≤ c && c ≤ 'z') || ('0' ≤ c && c ≤ '9')

/-- `/^[A-Z0-9]+$/` -/
def tickerRegex (text : String) : Bool :=
  text ≠ "" && text.toList.all fun c => ('A' ≤ c && c ≤ 'Z') || ('0' ≤ c && c ≤ '9')

/-- `newURL` is whether the constructor of the platform takes the text. -/
def validateForm (newURL : String → Bool) (form : CreateTokenForm) : Except String Unit :=
  if form.denom = "" ∨ trim form.denom = "" then .error "Denom is required"
  else if form.ticker = "" ∨ trim form.ticker = "" then .error "Ticker is required"
  else if form.description = "" ∨ trim form.description = "" then .error "Description is required"
  else if ¬denomRegex form.denom then
    .error "Denom must contain only lowercase letters and numbers"
  else if ¬tickerRegex form.ticker then
    .error "Ticker must contain only uppercase letters and numbers"
  else if form.url ≠ "" ∧ trim form.url ≠ "" ∧ ¬newURL form.url then .error "Invalid URL format"
  else .ok ()

/-! ## `createToken` -/

def CreateTokenForm.msg (form : CreateTokenForm) (address : String) : MsgCreateDenom where
  owner := address
  denom := form.denom
  description := form.description
  ticker := form.ticker
  url := form.url

/-- The fee that the form always sends with its message. -/
def fee : StdFee where
  amount := [("ufandomChain", "5000")]
  gas := "200000"

variable {σ : Type} (w : BinaryWriter) (newURL : String → Bool) (signer : Option (Signer σ))

/-- Any response of the broadcast counts as success, whatever its code. -/
def createToken (address : String) (state : State) (world : σ) : State × σ :=
  if address = "" then
    ({ state with message := some (.error "Please connect your wallet first") }, world)
  else match validateForm newURL state.form with
    | .error err =>
        let text := if err = "" then "Invalid form data" else err
        ({ state with message := some (.error text) }, world)
    | .ok () =>
        match sendMsgCreateDenom w signer (state.form.msg address) (some fee) (some "") world with
        | (.ok _, world) =>
            let text := "Token \"" ++ state.form.ticker ++ "\" created successfully!"
            ({ createdToken := some state.form.denom
               message := some (.success text)
               form := emptyForm
               loading := false }, world)
        | (.error err, world) =>
            let text := if err = "" then "Failed to create token" else err
            ({ state with message := some (.error text), loading := false }, world)

def resetForm (state : State) : State :=
  { state with form := emptyForm, createdToken := none, message := none }

end Fandomchain.Tokenfactory.CreateToken
