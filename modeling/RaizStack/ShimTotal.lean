import RaizStack.Fallible
import RaizStack.CtWrapper

/-!
# The goal's total, as the shim computes it

`goalTotal`: check that the published key opens the published points,
replay the wrapper's events with it into two (value, randomness)
accumulators, re-commit them and compare with what the chain holds, once
more if the first comparison fails. The vendored SDK is a parameter; the
chain and the event source are the answers they gave.
-/

namespace RaizStack

/-! ## What the shim calls -/

/-- The vendored SDK: the commitment of the scheme, affine coordinates,
and the auditor channels a view key opens. -/
structure Sdk (R P C : Type) [Add R] [Add P] extends Commit.Scheme R P where
  pointCoords : P → Int × Int
  pointCoords_inj : Function.Injective pointCoords
  pointFromBytes : List UInt8 → Except String P
  auditorPublicKey : Int → P
  /-- The amount and randomness of an incoming transfer. -/
  auditTransferRecipientChannel : Int → C → Except String (Int × R)
  /-- The amount of an outgoing transfer and the balance it left. -/
  auditTransferSenderChannel : Int → C → Except String (Int × Int)
  /-- The balance a withdrawal left. -/
  auditWithdraw : Int → C → Except String Int

structure GoalTotalParams where
  tokenContractId : String
  goalAccount : String
  viewKeySecret : Int
  /-- `Number(p.fromLedger)`, when that is an integer. -/
  fromLedger : Option Int
  auditorContractId : Option String
  goalMetaContractId : Option String
  /-- `Number(p.goalMetaGoalId)`, when that is an integer. -/
  goalMetaGoalId : Option Int
  eventsUrl : Option String
  eventsSource : Option String

/-- `typeof s === "string" && s.length > 0`. -/
def nonEmpty (s : Option String) : Option String :=
  s.filter (· ≠ "")

/-- `get_goal`, as far as it is read. -/
structure GoalView where
  name : String
  target : Int
  goalAccount : String
  viewKey : List UInt8

/-- `confidential_balance`. -/
structure AccountView (P : Type) where
  auditorId : Nat
  spendableBalance : P
  receivingBalance : P

structure EventsRead (C : Type) where
  events : List (ConfidentialEvent C)
  latestLedger : Int
  oldestLedger : Option Int

/-- The answers one run gets, in the order it asks. -/
structure TotalAnswers (P C : Type) where
  getGoal : Except String GoalView
  balance : Except String (Option (AccountView P))
  auditorKey : Nat → Except String P
  events : Except String (EventsRead C)
  balanceAgain : Except String (Option (AccountView P))
  latestLedger : Except String Int

structure Check where
  name : String
  ok : Option Bool
  detail : String
  deriving DecidableEq, Repr

structure TimelineRow where
  kind : String
  sender : Option String
  recipient : Option String
  account : Option String
  stroops : Option String
  decrypted : Option Bool
  info : EventAt
  deriving DecidableEq, Repr

variable {R P C : Type} [AddMonoid R] [Add P]

section Run

variable (sdk : Sdk R P C)

def samePoint (a b : P) : Bool :=
  decide (sdk.pointCoords a = sdk.pointCoords b)

def dec (v : Int) : String := toString v

def check (name : String) (ok : Bool) (detail : String) : Check :=
  { name := name, ok := some ok, detail := detail }

def skip (name why : String) : Check :=
  { name := name, ok := none, detail := "skipped: " ++ why }

/-! ## The published key -/

def fromLedgerOf (p : GoalTotalParams) : Except String Int :=
  match p.fromLedger with
  | some n =>
      if 0 < n then .ok n
      else .error ("param 'fromLedger' (the CT wrapper's deployment ledger) is required — "
        ++ "the replay must start at the wrapper's first ledger or the openings are incomplete")
  | none =>
      .error ("param 'fromLedger' (the CT wrapper's deployment ledger) is required — "
        ++ "the replay must start at the wrapper's first ledger or the openings are incomplete")

structure GoalMetaRead where
  goalName : Option String
  targetStroops : Option String
  checks : List Check

/-- The key `goal_meta` published, if a registry was named. -/
def readGoalMeta (p : GoalTotalParams) (a : TotalAnswers P C) : Except String GoalMetaRead :=
  match nonEmpty p.goalMetaContractId with
  | none =>
      .ok { goalName := none, targetStroops := none,
            checks := [skip "goal_meta.view_key == k1·H" "no goalMetaContractId given"] }
  | some _ =>
      match p.goalMetaGoalId.filter (0 ≤ ·) with
      | none =>
          .error "param 'goalMetaGoalId' (u32) is required when goalMetaContractId is given"
      | some goalId => do
          let g ← a.getGoal
          let backsGoal := decide (g.goalAccount = p.goalAccount)
          let point ← sdk.pointFromBytes g.viewKey
          .ok
            { goalName := some g.name
              targetStroops := some (dec g.target)
              checks :=
                [ check "goal_meta backs this goal account" backsGoal
                    (if backsGoal then
                      "goal " ++ toString goalId ++ " \"" ++ g.name ++ "\" (target "
                        ++ dec g.target ++ " stroops)"
                     else
                      "goal " ++ toString goalId ++ " backs " ++ g.goalAccount ++ ", not "
                        ++ p.goalAccount),
                  check "goal_meta.view_key == k1·H"
                    (samePoint sdk point (sdk.auditorPublicKey p.viewKeySecret))
                    "the published secret opens exactly the point the goal registry published" ] }

/-- The first read of the commitments, before any event. -/
def readAccount (p : GoalTotalParams) (a : TotalAnswers P C) : Except String (AccountView P) := do
  match ← a.balance with
  | some account => .ok account
  | none =>
      .error ("goal account " ++ p.goalAccount ++ " is not registered on the CT wrapper "
        ++ p.tokenContractId)

/-- The key the wrapper's auditor registry serves. -/
def readRegistry (p : GoalTotalParams) (a : TotalAnswers P C) (account : AccountView P) :
    Except String Check :=
  match nonEmpty p.auditorContractId with
  | none => .ok (skip "CT auditor registry key == k1·H" "no auditorContractId given")
  | some _ => do
      let registryKey ← a.auditorKey account.auditorId
      .ok (check ("CT auditor registry key (id " ++ toString account.auditorId ++ ") == k1·H")
        (samePoint sdk registryKey (sdk.auditorPublicKey p.viewKeySecret))
        "the wrapper's own auditor registry serves the same point")

/-! ## The replay -/

/-- The openings of the goal's two commitments, and the public timeline. -/
structure Replay (R : Type) where
  spendV : Int
  spendR : R
  recvV : Int
  recvR : R
  /-- An outflow re-randomizes with owner-only randomness. -/
  spendableProvable : Bool
  contributions : List TimelineRow
  timeline : List TimelineRow

def Replay.start : Replay R :=
  { spendV := 0, spendR := 0, recvV := 0, recvR := 0, spendableProvable := true,
    contributions := [], timeline := [] }

/-- One event. The branch of an incoming transfer comes before that of an
outgoing one. -/
def replayStep (k1 : Int) (goal : String) (st : Replay R) :
    ConfidentialEvent C → Except String (Replay R)
  | .deposit info sender recipient amount =>
      if recipient = goal then
        let c : TimelineRow :=
          { kind := "deposit", sender := some sender, recipient := none, account := none
            stroops := some (dec amount), decrypted := some false, info := info }
        .ok { st with
          recvV := st.recvV + amount
          contributions := st.contributions ++ [c]
          timeline := st.timeline ++ [c] }
      else .ok st
  | .merge info account =>
      if account = goal then
        .ok { st with
          spendV := st.spendV + st.recvV
          spendR := st.spendR + st.recvR
          recvV := 0
          recvR := 0
          timeline := st.timeline ++
            [{ kind := "cosecha", sender := none, recipient := none, account := some account
               stroops := none, decrypted := none, info := info }] }
      else .ok st
  | .transfer info sender recipient data =>
      if recipient = goal then do
        let opened ← sdk.auditTransferRecipientChannel k1 data
        let c : TimelineRow :=
          { kind := "aporte", sender := some sender, recipient := none, account := none
            stroops := some (dec opened.1), decrypted := some true, info := info }
        .ok { st with
          recvV := st.recvV + opened.1
          recvR := st.recvR + opened.2
          contributions := st.contributions ++ [c]
          timeline := st.timeline ++ [c] }
      else if sender = goal then do
        let snd ← sdk.auditTransferSenderChannel k1 data
        .ok { st with
          spendV := snd.2
          spendableProvable := false
          timeline := st.timeline ++
            [{ kind := "salida", sender := none, recipient := some recipient, account := none
               stroops := some (dec snd.1), decrypted := none, info := info }] }
      else .ok st
  | .withdraw info sender recipient amount data =>
      if sender = goal then do
        let senderBalance ← sdk.auditWithdraw k1 data
        .ok { st with
          spendV := senderBalance
          spendableProvable := false
          timeline := st.timeline ++
            [{ kind := "retiro", sender := none, recipient := some recipient, account := none
               stroops := some (dec amount), decrypted := none, info := info }] }
      else .ok st
  | .register _ _ => .ok st

/-- The replay loop. -/
def replay (k1 : Int) (goal : String) (events : List (ConfidentialEvent C)) :
    Except String (Replay R) :=
  events.foldlM (replayStep sdk k1 goal) Replay.start

/-! ## The verification -/

def spendOk (st : Replay R) (account : AccountView P) : Bool :=
  st.spendableProvable && samePoint sdk (sdk.commit st.spendV st.spendR) account.spendableBalance

def recvOk (st : Replay R) (account : AccountView P) : Bool :=
  samePoint sdk (sdk.commit st.recvV st.recvR) account.receivingBalance

/-- The account the verdict is about: the one read first, or the one read
again when that one does not match. -/
structure LastRead (P : Type) where
  account : AccountView P
  reread : Bool

def settle (st : Replay R) (account : AccountView P)
    (again : Except String (Option (AccountView P))) : Except String (LastRead P) :=
  if (st.spendableProvable && !spendOk sdk st account) || !recvOk sdk st account then do
    match ← again with
    | some acc => .ok { account := acc, reread := true }
    | none => .ok { account := account, reread := false }
  else .ok { account := account, reread := false }

def rereadNote (reread : Bool) : String :=
  if reread then " (after one commitment re-read: a tx landed mid-verification)" else ""

def staleNote (useUrl : Bool) (eventsLatestLedger : Int) : String :=
  if useUrl && decide (0 < eventsLatestLedger) then
    " — the events source is at ledger " ++ toString eventsLatestLedger
      ++ "; if it lags the chain the openings are incomplete"
  else ""

def spendCheckName : String :=
  "commit(Σ spendable openings) == on-chain spendable commitment"

def recvCheckName : String :=
  "commit(Σ receiving openings) == on-chain receiving commitment"

/-- A re-commitment check and what it says. -/
def commitCheck (name : String) (ok : Bool) (v : Int) (reread : Bool) (stale : String) : Check :=
  check name ok
    (if ok then dec v ++ " stroops" ++ rereadNote reread
     else "MISMATCH at " ++ dec v ++ " stroops" ++ stale)

/-- The two checks against the chain. After an outflow the first is
skipped, not failed. -/
def commitChecks (st : Replay R) (last : LastRead P) (stale : String) : List Check :=
  [ if st.spendableProvable then
      commitCheck spendCheckName (spendOk sdk st last.account) st.spendV last.reread stale
    else
      { name := spendCheckName
        ok := none
        detail := "not point-verifiable after an outflow (the new commitment uses owner-only "
          ++ "randomness); value still tracked via the k1 sender channel = " ++ dec st.spendV
          ++ " stroops" },
    commitCheck recvCheckName (recvOk sdk st last.account) st.recvV last.reread stale ]

/-- `checks.every((c) => c.ok !== false)`. -/
def allPassed (checks : List Check) : Bool :=
  checks.all fun c => decide (c.ok ≠ some false)

structure GoalTotal where
  goalAccount : String
  tokenContractId : String
  auditorId : Nat
  goalName : Option String
  targetStroops : Option String
  totalStroops : String
  spendableStroops : String
  receivingStroops : String
  contributions : List TimelineRow
  timeline : List TimelineRow
  verified : Bool
  fullyPointVerified : Bool
  verifiedAtLedger : Int
  checks : List Check
  eventSource : String
  eventsUrl : Option String
  eventsLatestLedger : Int
  oldestLedger : Option Int
  eventsScanned : Nat

def noEventsError (p : GoalTotalParams) (fromLedger : Int) : String :=
  "no events touching " ++ p.goalAccount ++ " found from ledger " ++ toString fromLedger
    ++ (match nonEmpty p.eventsUrl with
        | some url => " in " ++ url ++ " — is the wrapper indexed there?"
        | none => " — outside the RPC's ~7-day retention window? "
            ++ "Point eventsUrl at a Raiz Memory instance.")

/-- `goalTotal`, with the account its verdict is about. -/
def goalTotalRun (p : GoalTotalParams) (a : TotalAnswers P C) :
    Except String (GoalTotal × LastRead P) := do
  let fromLedger ← fromLedgerOf p
  let goalMeta ← readGoalMeta sdk p a
  let account ← readAccount p a
  let registry ← readRegistry sdk p a account
  let read ← a.events
  let st ← replay sdk p.viewKeySecret p.goalAccount read.events
  if st.timeline = [] then .error (noEventsError p fromLedger)
  else do
    let last ← settle sdk st account a.balanceAgain
    let useUrl := (nonEmpty p.eventsUrl).isSome
    let checks := goalMeta.checks ++ [registry]
      ++ commitChecks sdk st last (staleNote useUrl read.latestLedger)
    let verifiedAtLedger ← a.latestLedger
    .ok
      ({ goalAccount := p.goalAccount
         tokenContractId := p.tokenContractId
         auditorId := last.account.auditorId
         goalName := goalMeta.goalName
         targetStroops := goalMeta.targetStroops
         totalStroops := dec (st.spendV + st.recvV)
         spendableStroops := dec st.spendV
         receivingStroops := dec st.recvV
         contributions := st.contributions
         timeline := st.timeline
         verified := allPassed checks
         fullyPointVerified := st.spendableProvable
         verifiedAtLedger := verifiedAtLedger
         checks := checks
         eventSource := if useUrl then "events-url" else "rpc"
         eventsUrl := nonEmpty p.eventsUrl
         eventsLatestLedger := read.latestLedger
         oldestLedger := if useUrl then read.oldestLedger else none
         eventsScanned := read.events.length },
        last)

/-- `goalTotal`. -/
def goalTotal (p : GoalTotalParams) (a : TotalAnswers P C) : Except String GoalTotal :=
  (goalTotalRun sdk p a).map Prod.fst

end Run

end RaizStack
