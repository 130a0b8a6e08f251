import RaizStack.MetaVm
import RaizStack.WalletOp

/-!
# The view model of the envelope screen

`SobreViewModel` runs the wallet's operations, one card for each, and reads
the decrypted balances. Its calls and the ends of its coroutines run on the
main thread, each in one piece. The progress lines do not: `CtWallet` calls
`progress` from `Dispatchers.IO`, and the callback reads the state twice and
writes it once, with nothing to hold the main thread off in between. So a
progress line is three steps here - the look at the card, the copy of the
state, the write - and the whole copy is written back, other fields
included. The write can also be lost, when the main thread had read before
it and writes after it.

An operation itself is a parameter: what its block returns, and when
(`WalletOp` is one from the inside). The answers of `wallet.status` are the
shim's JSON.
-/

namespace RaizStack

/-! ## The screen -/

/-- `OpUiState.Running`. -/
structure RunningCard where
  op : String
  label : String
  phase : String
  /-- `SystemClock.elapsedRealtime()` at kickoff. -/
  startedAt : Int
  deriving DecidableEq, Repr

inductive OpCard where
  | idle
  | running (card : RunningCard)
  | ok (op label : String) (ledger : Option Int) (txHash : Option String) (proveMs : Int)
      (note : String) (finishedAt : Int)
  | failed (op label message : String) (finishedAt : Int)
  deriving DecidableEq, Repr

structure SobreUiState where
  accountId : Option String
  loadingStatus : Bool
  statusError : Option String
  registered : Option Bool
  spendableStroops : Option Int
  receivingStroops : Option Int
  syncedLedger : Option Int
  amountInput : String
  op : OpCard
  deriving DecidableEq, Repr

/-- `op is OpUiState.Running`. -/
def SobreUiState.busy (ui : SobreUiState) : Bool :=
  match ui.op with
  | .running _ => true
  | _ => false

/-- What a block returns. -/
structure TxOutcome where
  txHashHex : Option String
  ledger : Option Int
  alreadyDone : Bool
  proveMs : Int
  detail : String

/-- Of the device: its JSON, which characters are digits, and the amount a
text stands for. -/
structure SobreLib where
  json : OrgJson
  isDigit : Char → Bool
  parseXlmToStroops : String → Option Int

/-! ## The coroutines -/

/-- Where the callback of an operation is. -/
inductive Progress where
  | quiet
  /-- The card it saw was the operation's own. -/
  | checked (cur : RunningCard) (line : String)
  /-- The state it is about to write. -/
  | copied (ui : SobreUiState)

structure OpJob where
  op : WalletOp.Op
  startedAt : Int
  progress : Progress

/-- The view model. Of the coroutines that wait for `wallet.status`, which
are all alike, the number; `aportes` counts the calls of
`onAporteConfirmed`. -/
structure SobreVm where
  ui : SobreUiState
  initDone : Bool
  statuses : Nat
  ops : Tasks.Slot OpJob
  aportes : Nat

namespace SobreVm

/-- The view model as it is built, its `init` launched. -/
def create : SobreVm where
  ui :=
    { accountId := none
      loadingStatus := true
      statusError := none
      registered := none
      spendableStroops := none
      receivingStroops := none
      syncedLedger := none
      amountInput := ""
      op := .idle }
  initDone := false
  statuses := 0
  ops := .empty
  aportes := 0

section Calls

variable (lib : SobreLib)

/-! ## Calls from the screen -/

def onAmountChange (s : SobreVm) (raw : String) : SobreVm :=
  let filtered := raw.toList.filter fun c => lib.isDigit c || c == '.' || c == ','
  { s with
    ui := { s.ui with
      amountInput := String.ofList (filtered.take 12) } }

def dismissOp (s : SobreVm) : SobreVm :=
  if s.ui.busy then s
  else
    { s with
      ui := { s.ui with
        op := .idle } }

def refreshStatus (s : SobreVm) : SobreVm :=
  if s.ui.busy then s
  else
    { s with
      ui := { s.ui with
        loadingStatus := true
        statusError := none }
      statuses := s.statuses + 1 }

/-- The card an operation starts with. -/
def firstCard (op : WalletOp.Op) (now : Int) : RunningCard where
  op := op.method
  label := op.label
  phase := "preparando…"
  startedAt := now

/-- `run`: a card, and a coroutine in the slot. -/
def run (s : SobreVm) (op : WalletOp.Op) (now : Int) : SobreVm :=
  if s.ui.busy then s
  else
    { s with
      ui := { s.ui with
        op := .running (firstCard op now) }
      ops := s.ops.relaunch { op := op, startedAt := now, progress := .quiet } }

/-- The card of an operation that was not started. -/
def refusedCard (label : String) (now : Int) : OpCard :=
  .failed label.toLower label "Escribe un monto en XLM mayor que cero (por ejemplo 5)." now

def failAmount (s : SobreVm) (label : String) (now : Int) : SobreVm :=
  { s with
    ui := { s.ui with
      op := refusedCard label now } }

def amountStroops (ui : SobreUiState) : Option Int :=
  lib.parseXlmToStroops ui.amountInput

/-- `sellar` and `aportar` begin alike. -/
def runAmount (s : SobreVm) (label : String) (op : Int → WalletOp.Op) (now : Int) : SobreVm :=
  match amountStroops lib s.ui with
  | none => s.failAmount label now
  | some stroops => s.run (op stroops) now

def abrirSobre (s : SobreVm) (now : Int) : SobreVm := s.run .register now

def sellar (s : SobreVm) (now : Int) : SobreVm :=
  s.runAmount lib "Sellar" WalletOp.Op.deposit now

def aportar (s : SobreVm) (now : Int) : SobreVm :=
  s.runAmount lib "Aportar" WalletOp.Op.transferToGoal now

def cosecharMiSobre (s : SobreVm) (now : Int) : SobreVm := s.run .merge now

/-! ## The coroutines resume -/

/-- `init` has the account, or nothing if deriving it threw. -/
def initResumes (s : SobreVm) (id : Option String) : Option SobreVm :=
  if s.initDone then none
  else
    some
      { s with
        ui := { s.ui with
          accountId := id }
        initDone := true }.refreshStatus

/-- A coroutine of `refreshStatus` resumes after `wallet.status`. -/
def statusResumes (s : SobreVm) (r : Except String Json) : Option SobreVm :=
  match s.statuses with
  | 0 => none
  | n + 1 =>
      match r with
      | .ok answer => some { s with
          ui := { s.ui with
            loadingStatus := false
            statusError := none
            registered := some (lib.json.optBoolean answer "registered" false)
            spendableStroops :=
              Text.parseI64 (lib.json.optString answer "spendableStroops").toList
            receivingStroops :=
              Text.parseI64 (lib.json.optString answer "receivingStroops").toList
            syncedLedger := (some (lib.json.optLong answer "latestLedger" 0)).filter (0 < ·) }
          statuses := n }
      | .error message => some { s with
          ui := { s.ui with
            loadingStatus := false
            statusError := some message }
          statuses := n }

/-- What `abrirSobre` makes of an outcome, and the others leave. -/
def noteOf (op : WalletOp.Op) (o : TxOutcome) : String :=
  if op = .register ∧ o.alreadyDone = true then "tu sobre ya estaba abierto" else o.detail

/-- The operations whose amount is cleared from the field. -/
def clearsAmount : WalletOp.Op → Bool
  | .deposit _ | .transferToGoal _ => true
  | .register | .merge => false

/-- The operation with a callback of the shell's. -/
def confirmsAporte : WalletOp.Op → Bool
  | .transferToGoal _ => true
  | .register | .deposit _ | .merge => false

/-- The card of an operation that came to an outcome. -/
def okCard (op : WalletOp.Op) (o : TxOutcome) (now : Int) : OpCard :=
  .ok op.method op.label o.ledger o.txHashHex o.proveMs (noteOf op o) now

def opSucceeded (s : SobreVm) (j : Nat) (job : OpJob) (o : TxOutcome) (now : Int) : SobreVm :=
  { s with
    ui := { s.ui with
      op := okCard job.op o now
      amountInput := if clearsAmount job.op then "" else s.ui.amountInput }
    ops := s.ops.advance j job true
    aportes := if confirmsAporte job.op then s.aportes + 1 else s.aportes }.refreshStatus

/-- The card of an operation that threw. -/
def failedCard (op : WalletOp.Op) (message : String) (now : Int) : OpCard :=
  .failed op.method op.label message now

/-- `catch (e: Exception)` of `run`. -/
def opFailed (s : SobreVm) (j : Nat) (job : OpJob) (message : String) (now : Int) : SobreVm :=
  { s with
    ui := { s.ui with
      op := failedCard job.op message now }
    ops := s.ops.advance j job true }

/-- Operation `j` resumes after its block, in which no callback is open. -/
def opResumes (s : SobreVm) (j : Nat) (r : Except String TxOutcome) (now : Int) :
    Option SobreVm :=
  match s.ops.tasks[j]? with
  | none => none
  | some t =>
      if t.finished then none
      else
        match t.job.progress with
        | .quiet =>
            match MetaVm.resumed t r with
            | .ok o => some (s.opSucceeded j t.job o now)
            | .error message => some (s.opFailed j t.job message now)
        | _ => none

/-! ## The progress lines -/

/-- The callback of operation `j` goes from one place to another. -/
def atProgress (s : SobreVm) (j : Nat) (f : OpJob → Option SobreVm) : Option SobreVm :=
  match s.ops.tasks[j]? with
  | none => none
  | some t => if t.finished then none else f t.job

/-- The callback looks whether the card is its own. -/
def checkCard (s : SobreVm) (j : Nat) (line : String) : Option SobreVm :=
  s.atProgress j fun job =>
    match job.progress, s.ui.op with
    | .quiet, .running cur =>
        if cur.startedAt = job.startedAt then
          some { s with ops := s.ops.advance j { job with progress := .checked cur line } false }
        else some s
    | .quiet, _ => some s
    | _, _ => none

/-- It copies the state as it is by then, with the card it saw. -/
def copyState (s : SobreVm) (j : Nat) : Option SobreVm :=
  s.atProgress j fun job =>
    match job.progress with
    | .checked cur line =>
        let ui := { s.ui with op := .running { cur with phase := line } }
        some { s with ops := s.ops.advance j { job with progress := .copied ui } false }
    | _ => none

/-- It writes the copy, which the main thread may undo. -/
def writeState (s : SobreVm) (j : Nat) (undone : Bool) : Option SobreVm :=
  s.atProgress j fun job =>
    match job.progress with
    | .copied ui =>
        some { s with
          ui := if undone then s.ui else ui
          ops := s.ops.advance j { job with progress := .quiet } false }
    | _ => none

end Calls

/-! ## Runs -/

inductive Act where
  | onAmountChange (raw : String)
  | dismissOp
  | refreshStatus
  | abrirSobre (now : Int)
  | sellar (now : Int)
  | aportar (now : Int)
  | cosecharMiSobre (now : Int)
  | initResumes (id : Option String)
  | statusResumes (r : Except String Json)
  | opResumes (j : Nat) (r : Except String TxOutcome) (now : Int)
  | checkCard (j : Nat) (line : String)
  | copyState (j : Nat)
  | writeState (j : Nat) (undone : Bool)

def next (lib : SobreLib) (s : SobreVm) : Act → Option SobreVm
  | .onAmountChange raw => some (s.onAmountChange lib raw)
  | .dismissOp => some s.dismissOp
  | .refreshStatus => some s.refreshStatus
  | .abrirSobre now => some (s.abrirSobre now)
  | .sellar now => some (s.sellar lib now)
  | .aportar now => some (s.aportar lib now)
  | .cosecharMiSobre now => some (s.cosecharMiSobre now)
  | .initResumes id => s.initResumes id
  | .statusResumes r => s.statusResumes lib r
  | .opResumes j r now => s.opResumes j r now
  | .checkCard j line => s.checkCard j line
  | .copyState j => s.copyState j
  | .writeState j undone => s.writeState j undone

end SobreVm

end RaizStack
