import Mathlib.Data.List.Dedup
import Mathlib.Data.List.Lex
import Mathlib.Data.Prod.Lex
import RaizStack.EventsClient
import RaizStack.Keyset
import RaizStack.ScVal

/-!
# The goal's timeline

`TimelineMapper` turns indexed events into rows, `GoalTimeline.build`
keeps the rows of one goal. The mapper decodes the value of every event
whose head topic is a symbol, also where no row shows it; shapes it does
not know are dropped. A decoder failure that is not a
`ScValDecodeException` leaves both.
-/

namespace RaizStack

open EventsClient

/-! ## Deployment -/

namespace CtConfig

def token : String := "CBWSANZN7YIMA4CWLNSAZO3HSD5NZDC2GZQJ434MOPQR7RDNVYQSDHAT"

/-- First ledger of the wrapper's life. -/
def deployedAtLedger : Int := 3950128

def goalAccount : String := "GAJPXAL725N44NMEZ3XIN66ZJ7XURJNLXIDGIOOR7D3E23DIRGLIM73X"

end CtConfig

namespace MetaConfig

def goalMeta : String := "CBNVY2AAHA4SP3MX4XKJAZGS63SF4GIFNHUAAQPRSKYAXY3XR6HKIQAZ"

def goalId : Int := 1

end MetaConfig

/-! ## Rows -/

/-- What every row says of its event. -/
structure EntryInfo where
  id : String
  contractId : String
  ledger : Int
  atIso : Option String
  txHash : Option String
  deriving DecidableEq, Repr

/-- An *aporte*: who and when. There is no amount. -/
structure Contribution where
  info : EntryInfo
  sender : String
  recipient : String
  deriving DecidableEq, Repr

inductive TimelineEntry where
  | contribution (c : Contribution)
  | merge (info : EntryInfo) (account : String) (byGoal : Bool)
  | registration (info : EntryInfo) (account : String) (auditorId : Option Int)
  | deposit (info : EntryInfo) (sender recipient : String) (amountStroops : Option Int)
  | goalCreated (info : EntryInfo) (goalId : Int) (goalAccount : Option String)
  | harvest (info : EntryInfo) (goalId : Int) (memo : String)
  | configuration (info : EntryInfo) (setting : String)
  deriving DecidableEq, Repr

inductive TimelineKind where
  | contribution
  | merge
  | registration
  | deposit
  | goalCreated
  | harvest
  | config
  deriving DecidableEq, Repr

namespace TimelineEntry

def info : TimelineEntry → EntryInfo
  | .contribution c => c.info
  | .merge info _ _ => info
  | .registration info _ _ => info
  | .deposit info _ _ _ => info
  | .goalCreated info _ _ => info
  | .harvest info _ _ => info
  | .configuration info _ => info

def kind : TimelineEntry → TimelineKind
  | .contribution _ => .contribution
  | .merge _ _ _ => .merge
  | .registration _ _ _ => .registration
  | .deposit _ _ _ _ => .deposit
  | .goalCreated _ _ _ => .goalCreated
  | .harvest _ _ _ => .harvest
  | .configuration _ _ => .config

/-- `as? TimelineEntry.Contribution`. -/
def asContribution : TimelineEntry → Option Contribution
  | .contribution c => some c
  | _ => none

/-- `atIso` of a `TimelineEntry.GoalCreated`. -/
def createdAt : TimelineEntry → Option (Option String)
  | .goalCreated info _ _ => some info.atIso
  | _ => none

/-- The key of `NEWEST_FIRST`: by ledger, then by event id, both
descending. -/
def newestFirst (e : TimelineEntry) : Lex (Intᵒᵈ × (List Nat)ᵒᵈ) :=
  toLex (OrderDual.toDual e.info.ledger, OrderDual.toDual (Text.codeUnits e.info.id))

end TimelineEntry

/-! ## The mapper -/

/-- `head.endsWith("_set")`, and the head without it. -/
def configSetting (head : String) : Option String :=
  if "_set".toList.isSuffixOf head.toList then
    some (String.ofList (head.toList.take (head.toList.length - 4)))
  else none

namespace TimelineMapper

def infoOf (e : EventRecord) : EntryInfo :=
  { id := e.id
    contractId := e.contractId
    ledger := e.ledger
    atIso := e.ledgerClosedAt
    txHash := e.txHash }

/-- The address in topic `i`. -/
def addressAt (topics : List ScVal) (i : Nat) : Option String :=
  topics[i]?.bind ScVal.asAddress

/-- The row of an event with this head topic and this value. -/
def entryOf (goalAccount : String) (e : EventRecord) (topics : List ScVal) (head : String)
    (value : Option ScVal) : Option TimelineEntry :=
  match head with
  | "transfer" => do
      let sender ← addressAt topics 1
      let recipient ← addressAt topics 2
      some (.contribution { info := infoOf e, sender := sender, recipient := recipient })
  | "merge" => do
      let account ← addressAt topics 1
      some (.merge (infoOf e) account (account == goalAccount))
  | "register" => do
      let account ← addressAt topics 1
      some (.registration (infoOf e) account
        ((value.bind (ScVal.mapField "auditor_id")).bind ScVal.asU32))
  | "deposit" => do
      let sender ← addressAt topics 1
      let recipient ← addressAt topics 2
      some (.deposit (infoOf e) sender recipient
        ((value.bind (ScVal.mapField "amount")).bind ScVal.asBigInteger))
  | "goal" =>
      match topics[1]?.bind ScVal.asSymbol with
      | some "created" => do
          let goalId ← topics[2]?.bind ScVal.asU32
          some (.goalCreated (infoOf e) goalId (value.bind ScVal.asAddress))
      | some "harvest" => do
          let goalId ← topics[2]?.bind ScVal.asU32
          some (.harvest (infoOf e) goalId ((value.bind ScVal.asString).getD ""))
      | _ => none
  | _ =>
      if topics.length = 1 then (configSetting head).map (.configuration (infoOf e)) else none

variable (lossy : List UInt8 → String) (goalAccount : String)

/-- `e.valueXdr?.let { ScVal.decodeOrNull(it) }`. -/
def valueOf (e : EventRecord) : Except Thrown (Option ScVal) :=
  match e.valueXdr with
  | none => .ok none
  | some xdr => ScVal.decodeOrNull lossy xdr

/-- `map`. -/
def map (e : EventRecord) : Except Thrown (Option TimelineEntry) := do
  let topics ← ScVal.decodeTopics lossy e.topics
  match topics.head?.bind ScVal.asSymbol with
  | none => .ok none
  | some head => do
      let value ← valueOf lossy e
      .ok (entryOf goalAccount e topics head value)

/-- `mapAll`: the rows of the events we recognize, newest first. -/
def mapAll (events : List EventRecord) : Except Thrown (List TimelineEntry) := do
  let rows ← events.mapM (map lossy goalAccount)
  .ok (Keyset.orderBy TimelineEntry.newestFirst rows.reduceOption)

end TimelineMapper

/-! ## The timeline -/

structure GoalTimeline where
  entries : List TimelineEntry
  contributions : List Contribution
  harvests : List TimelineEntry
  /-- Distinct contributor addresses, most recent contribution first. -/
  contributors : List String
  goalId : Int
  goalAccount : String
  createdAtIso : Option String
  latestLedger : Int
  oldestLedger : Option Int
  source : EventSource

namespace GoalTimeline

def contributionCount (t : GoalTimeline) : Nat := t.contributions.length

/-- The source declared a retention floor. -/
def truncated (t : GoalTimeline) : Bool := t.oldestLedger.isSome

/-- `realGoalId`: id 0 is a placeholder from the first run. -/
def realGoalId : Int := 1

/-- What `build` is told beside the events. -/
structure Request where
  source : EventSource
  latestLedger : Int := 0
  oldestLedger : Option Int := none
  goalAccount : String := CtConfig.goalAccount
  goalId : Int := realGoalId
  includeRegistrations : Bool := false

/-- What the loop over the wrapper's rows keeps: contributions into the
goal, merges by it, and registrations on demand. -/
def keepsCt (req : Request) : TimelineEntry → Bool
  | .contribution c => decide (c.recipient = req.goalAccount)
  | .merge _ _ byGoal => byGoal
  | .registration _ _ _ => req.includeRegistrations
  | _ => false

/-- What the loop over the rows of `goal_meta` keeps. -/
def keepsMeta (req : Request) : TimelineEntry → Bool
  | .goalCreated _ goalId _ => decide (goalId = req.goalId)
  | .harvest _ goalId _ => decide (goalId = req.goalId)
  | _ => false

/-- `distinct()`: the first of each. -/
def distinct (l : List String) : List String :=
  l.foldl (fun seen s => if s ∈ seen then seen else seen ++ [s]) []

/-- The timeline of the rows that were kept. -/
def assemble (req : Request) (kept : List TimelineEntry) : GoalTimeline :=
  let ordered := Keyset.orderBy TimelineEntry.newestFirst kept
  let contributions := ordered.filterMap TimelineEntry.asContribution
  { entries := ordered
    contributions := contributions
    harvests := ordered.filter fun e => e.kind = .harvest ∨ e.kind = .merge
    contributors := distinct (contributions.map Contribution.sender)
    goalId := req.goalId
    goalAccount := req.goalAccount
    createdAtIso := (ordered.filterMap TimelineEntry.createdAt).getLast?.join
    latestLedger := req.latestLedger
    oldestLedger := req.oldestLedger
    source := req.source }

/-- `GoalTimeline.build`. -/
def build (lossy : List UInt8 → String) (ctEvents goalMetaEvents : List EventRecord)
    (req : Request) : Except Thrown GoalTimeline := do
  let ct ← TimelineMapper.mapAll lossy req.goalAccount ctEvents
  let goalMeta ← TimelineMapper.mapAll lossy req.goalAccount goalMetaEvents
  .ok (assemble req (ct.filter (keepsCt req) ++ goalMeta.filter (keepsMeta req)))

end GoalTimeline

end RaizStack
