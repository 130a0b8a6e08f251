import RaizStack.EventsClient
import RaizStack.Lts
import RaizStack.SignEnvelope

/-!
# One operation of the wallet

From the tap to the result card: `SobreViewModel.run` around an operation
of `CtWallet`, which has an envelope prepared in the WebView, signs it,
sends it and polls for its result. A stop of the machine is a place where
the source waits - for an HTTP exchange, for the WebView, in a
`Thread.sleep` - and a step is the end of the wait. The chain moves
between any two of them.

Between the phone and the ledger there are copies of the envelope: every
attempt to send adds one, a copy can get lost at any time, and while there
is one the ledger may apply the transaction, once, and not past its time
bound. Phone and ledger have clocks of their own. A view model that was
cleared is left out: its state is on no screen.
-/

namespace RaizStack

namespace WalletOp

/-! ## What the screen shows -/

inductive Op where
  | register
  | deposit (amountStroops : Int)
  | merge
  | transferToGoal (amountStroops : Int)
  deriving DecidableEq, Repr

namespace Op

/-- The method of the contract, which is also the name `run` is given. -/
def method : Op → String
  | register => "register"
  | deposit _ => "deposit"
  | merge => "merge"
  | transferToGoal _ => "confidential_transfer"

def label : Op → String
  | register => "Abriendo tu sobre"
  | deposit _ => "Sellando monedas"
  | merge => "Cosechando tu sobre"
  | transferToGoal _ => "Aportando a la meta"

/-- The operations that begin with `ensureFunded`. -/
def funds : Op → Bool
  | register | deposit _ => true
  | merge | transferToGoal _ => false

/-- The operations that copy the times of the proof into the outcome. -/
def proves : Op → Bool
  | register | transferToGoal _ => true
  | deposit _ | merge => false

def preparing : Op → String
  | register => "generando prueba de registro… (~10 s en este teléfono)"
  | deposit _ => "construyendo transacción de depósito…"
  | merge => "construyendo transacción de merge…"
  | transferToGoal _ => "sincronizando estado confidencial + generando prueba… (~15 s)"

end Op

inductive OpUiState where
  | running (op label phase : String) (startedAt : Int)
  | ok (op label : String) (ledger : Option Int) (txHash : Option String) (proveMs : Int)
      (note : String)
  | failed (op label message : String)
  deriving DecidableEq, Repr

/-! ## Calls that throw -/

/-- An exception. `retrying` lets an `RpcException` through. -/
inductive Thrown where
  | rpcException (message : String)
  | other (message : Option String) (simpleName : String)

/-- `e.message ?: e.javaClass.simpleName`. -/
def Thrown.text : Thrown → String
  | .rpcException message => message
  | .other message simpleName => message.getD simpleName

/-- The exceptions of `signEnvelope`. -/
def thrownBySigning : SignError → Thrown
  | .illegalArgument message => .other (some message) "IllegalArgumentException"
  | .illegalState message => .other (some message) "IllegalStateException"

/-- An HTTP exchange: an exception, or a code with a text and what
`JSONObject(text)` makes of it. -/
inductive Exchange where
  | failed (message : Option String) (simpleName : String)
  | answered (code : Int) (text : String) (json : Except String Json)

def take (n : Nat) (s : String) : String :=
  String.ofList (Text.takeUnits n s.toList)

section Calls

variable (lib : OrgJson)

/-- `optJSONObject(name)`. -/
def optJSONObject (o : Json) (name : String) : Option Json :=
  match o.get? name with
  | some (.obj fields) => some (.obj fields)
  | _ => none

/-- One attempt of `rpcCall`. -/
def rpcCall (method : String) : Exchange → Except Thrown Json
  | .failed message simpleName => .error (.other message simpleName)
  | .answered code text json =>
      if ¬ (200 ≤ code ∧ code ≤ 299) then
        .error (.other (some (method ++ " HTTP " ++ toString code ++ ": " ++ take 400 text))
          "IOException")
      else
        match json with
        | .error message => .error (.other (some message) "JSONException")
        | .ok json =>
            match optJSONObject json "error" with
            | some e => .error (.rpcException (method ++ " JSON-RPC error: " ++ lib.textOf e))
            | none =>
                match optJSONObject json "result" with
                | some result => .ok result
                | none =>
                    .error (.rpcException (method ++ ": no result in response: " ++ take 400 text))

/-- One attempt of `friendbotFund`; 400 is an account already funded. -/
def friendbotFund : Exchange → Except Thrown Unit
  | .failed message simpleName => .error (.other message simpleName)
  | .answered code _ _ =>
      if code ≠ 200 ∧ code ≠ 400 then
        .error (.other (some ("friendbot HTTP " ++ toString code)) "IOException")
      else .ok ()

/-- The statuses `sendTransaction` takes for accepted. -/
def accepted (res : Json) : Bool :=
  lib.optString res "status" == "PENDING" || lib.optString res "status" == "DUPLICATE"

/-- A text in a message of Kotlin, where nothing is printed as `null`. -/
def orNull (s : Option String) : String := s.getD "null"

def rejected (res : Json) : Thrown :=
  .rpcException ("sendTransaction rejected: status=" ++ lib.optString res "status"
    ++ " errorResultXdr="
    ++ orNull (EventsClient.ifEmptyNull (lib.optString res "errorResultXdr"))
    ++ " raw=" ++ lib.textOf res)

end Calls

/-! ## The machine -/

/-- Where the operation waits. -/
inductive Stop where
  /-- Attempt `i` of `friendbotFund`. -/
  | friendbot (i : Nat)
  /-- For the WebView. -/
  | prepare
  /-- Attempt `i` of `sendTransaction`. -/
  | send (tx : SignedTx) (prep : Json) (i : Nat)
  /-- Attempt `i` of `getTransaction` in the poll up to `deadline`. -/
  | get (tx : SignedTx) (prep : Json) (deadline : Int) (i : Nat)
  | sleep (wakeAt : Int) (next : Stop)
  | ended (ui : OpUiState)

/-- The phone, the copies on their way, and the ledger. -/
structure OpState where
  op : Op
  /-- `SystemClock.elapsedRealtime()` at the tap. -/
  startedAt : Int
  stop : Stop
  /-- `System.currentTimeMillis()`. -/
  now : Int
  /-- Copies of envelopes that left the phone, by transaction hash. -/
  copies : List String
  /-- What the ledger applied of them, and whether with `SUCCESS`. -/
  applied : List (String × Bool)
  /-- Closing time of the ledger, in seconds. -/
  ledgerTime : Int

/-- The progress line of a stop. -/
def phase (op : Op) : Stop → String
  | .friendbot _ => "fondeando cuenta con friendbot (idempotente)…"
  | .prepare => op.preparing
  | .send tx _ _ => "enviando a testnet… tx " ++ take 8 tx.txHashHex ++ "…"
  | .get _ _ _ _ => "confirmando (poll getTransaction)…"
  | .sleep _ next => phase op next
  | .ended _ => ""

def OpState.ui (s : OpState) : OpUiState :=
  match s.stop with
  | .ended ui => ui
  | stop => .running s.op.method s.op.label (phase s.op stop) s.startedAt

inductive Act where
  /-- Time passes on the phone. -/
  | tick (ms : Nat)
  /-- A ledger closes. -/
  | close (time : Int)
  /-- A copy gets lost, on the way or in the network. -/
  | lose (hash : String)
  /-- A transaction is applied. -/
  | apply (hash : String) (success : Bool)
  /-- The pending exchange is over. -/
  | reply (x : Exchange)
  /-- The WebView answers; what it prepared was built at `builtAt`. -/
  | prepared (builtAt : Int) (r : Except Thrown Json)
  /-- The sleep is over. -/
  | wake

namespace OpState

/-- `catch (e: Exception)` of `run`. -/
def fail (s : OpState) (e : Thrown) : OpState :=
  { s with stop := .ended (.failed s.op.method s.op.label e.text) }

/-- On to a stop; an attempt to send leaves a copy. -/
def enter (s : OpState) : Stop → OpState
  | .send tx prep i => { s with stop := .send tx prep i, copies := tx.txHashHex :: s.copies }
  | stop => { s with stop := stop }

/-- The `catch` blocks of `retrying`, after attempt `i`. -/
def retrying (s : OpState) (label : String) (i : Nat) (again : Nat → Stop) : Thrown → OpState
  | .rpcException message => s.fail (.rpcException message)
  | .other message _ =>
      if i < 4 then { s with stop := .sleep (s.now + 2000 * 2 ^ (i - 1)) (again (i + 1)) }
      else
        s.fail (.other (some (label ++ " failed after 4 attempts: " ++ orNull message))
          "IOException")

/-- The head of the loop of `pollUntilComplete`. -/
def poll (s : OpState) (tx : SignedTx) (prep : Json) (deadline : Int) : OpState :=
  if s.now < deadline then { s with stop := .sleep (s.now + 2000) (.get tx prep deadline 1) }
  else
    s.fail (.rpcException ("tx " ++ tx.txHashHex ++ " not confirmed within 120000 ms"))

section Outcomes

variable (lib : OrgJson)

/-- `optLong("ledger", -1)`, which is no ledger when negative. -/
def ledgerOf (res : Json) : Option Int :=
  let ledger := lib.optLong res "ledger" (-1)
  if 0 ≤ ledger then some ledger else none

/-- A sum of two `Long`s wraps. -/
def plusLong (m n : Int) : Int :=
  (m + n).bmod (2 ^ 64)

/-- `Ok`, with the outcome of `signAndSubmit`. -/
def succeed (s : OpState) (tx : SignedTx) (prep res : Json) : OpState :=
  let proveMs :=
    if s.op.proves then
      plusLong (lib.optLong prep "proveMs" 0) (lib.optLong prep "witnessMs" 0)
    else 0
  { s with
    stop := .ended (.ok s.op.method s.op.label (ledgerOf lib res) (some tx.txHashHex) proveMs
      ("fee " ++ lib.optString prep "feeStroops" ++ " stroops")) }

/-- After an answer of `sendTransaction`. -/
def sent (s : OpState) (tx : SignedTx) (prep res : Json) : OpState :=
  if accepted lib res then s.poll tx prep (s.now + 120000) else s.fail (rejected lib res)

/-- After an answer of `getTransaction`. -/
def polled (s : OpState) (tx : SignedTx) (prep : Json) (deadline : Int) (res : Json) : OpState :=
  if lib.optString res "status" = "SUCCESS" then s.succeed lib tx prep res
  else if lib.optString res "status" = "FAILED" then
    s.fail (.rpcException ("tx " ++ tx.txHashHex ++ " FAILED on-chain: " ++ lib.textOf res))
  else s.poll tx prep deadline

/-- `CtConfig.PASSPHRASE`. -/
def passphrase : String := "Test SDF Network ; September 2015"

/-- With what the WebView prepared: `signAndSubmit` up to the first send. -/
def signAndSubmit (signer : Signer) (s : OpState) (prep : Json) : OpState :=
  let unsignedXdr := lib.optString prep "unsignedXdrBase64"
  if s.op = .register ∧ lib.optBoolean prep "alreadyRegistered" false = true then
    { s with
      stop := .ended (.ok s.op.method s.op.label none none 0 "tu sobre ya estaba abierto") }
  else if unsignedXdr = "" then
    s.fail (.other (some (s.op.method ++ ": no unsignedXdrBase64 in prepare result: "
      ++ lib.textOf prep)) "IllegalStateException")
  else
    match signEnvelope signer unsignedXdr passphrase with
    | .error e => s.fail (thrownBySigning e)
    | .ok tx => s.enter (.send tx prep 1)

end Outcomes

end OpState

section Steps

variable (lib : OrgJson) (signer : Signer) (maxTime : String → Int)

/-- An exchange that ended, for the stop it was awaited at. -/
def onReply (s : OpState) (x : Exchange) : Option OpState :=
  match s.stop with
  | .friendbot i =>
      match friendbotFund x with
      | .ok () => some (s.enter .prepare)
      | .error e => some (s.retrying "friendbot" i .friendbot e)
  | .send tx prep i =>
      match rpcCall lib "sendTransaction" x with
      | .ok res => some (s.sent lib tx prep res)
      | .error e => some (s.retrying "sendTransaction" i (.send tx prep) e)
  | .get tx prep deadline i =>
      match rpcCall lib "getTransaction" x with
      | .ok res => some (s.polled lib tx prep deadline res)
      | .error e => some (s.retrying "getTransaction" i (.get tx prep deadline) e)
  | _ => none

/-- One step. The ledger applies a transaction it has a copy of, once,
and not when it closes past the time bound. -/
def next (s : OpState) : Act → Option OpState
  | .tick ms => some { s with now := s.now + ms }
  | .close time => if s.ledgerTime < time then some { s with ledgerTime := time } else none
  | .lose hash =>
      if hash ∈ s.copies then some { s with copies := s.copies.erase hash } else none
  | .apply hash success =>
      if hash ∈ s.copies ∧ hash ∉ s.applied.map Prod.fst ∧ s.ledgerTime ≤ maxTime hash then
        some { s with applied := s.applied ++ [(hash, success)] }
      else none
  | .reply x => onReply lib s x
  | .prepared _ r =>
      match s.stop with
      | .prepare =>
          match r with
          | .ok prep => some (s.signAndSubmit lib signer prep)
          | .error e => some (s.fail e)
      | _ => none
  | .wake =>
      match s.stop with
      | .sleep wakeAt stop => if wakeAt ≤ s.now then some (s.enter stop) else none
      | _ => none

/-- `setTimeout(180)` of `buildUnsignedInvoke`, which ran before its
answer arrived. -/
def Built (s : OpState) : Act → Prop
  | .prepared builtAt (.ok prep) => builtAt ≤ s.now ∧ ∀ tx,
      signEnvelope signer (lib.optString prep "unsignedXdrBase64") OpState.passphrase = .ok tx →
        maxTime tx.txHashHex = builtAt / 1000 + 180
  | _ => True

def step : OpState → Act → OpState → Prop :=
  Lts.ofNext (Built lib signer maxTime) (next lib signer maxTime)

end Steps

/-- The state right after the tap. -/
def tapped (op : Op) (startedAt now ledgerTime : Int) : OpState :=
  { op := op
    startedAt := startedAt
    stop := if op.funds then .friendbot 1 else .prepare
    now := now
    copies := []
    applied := []
    ledgerTime := ledgerTime }

def Tapped (s : OpState) : Prop :=
  ∃ op startedAt now ledgerTime, s = tapped op startedAt now ledgerTime

end WalletOp

end RaizStack
