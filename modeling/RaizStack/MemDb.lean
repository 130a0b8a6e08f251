import Mathlib.Data.List.Dedup
import Mathlib.Data.String.Basic
import RaizStack.Keyed
import RaizStack.Keyset
import RaizStack.MemBackfill

/-!
# The index store

The three tables of `raiz-memory` and the statements issued against
them. A statement is one function on the database: what the tasks do
between two statements is the business of `MemIngest`. Primary keys are
carried by the tables themselves (`Keyed.Table`).
-/

namespace RaizStack

/-! ## Schema -/

structure EventRow where
  id : String
  contractId : String
  ledger : Int
  txHash : Option String
  topicsJson : String
  valueXdr : String
  ledgerClosedAt : Option String
  inSuccessfulTx : Option Int
  deriving DecidableEq, Repr

structure CursorRow where
  contractId : String
  cursor : Option String
  lastLedger : Int
  deriving DecidableEq, Repr

/-- Where a contract's history begins, separate from `CursorRow`, which
says how far forward the scan got. -/
structure BackfillMark where
  contractId : String
  mode : String
  requestedStartLedger : Option Int
  effectiveStartLedger : Int
  rpcOldestLedger : Option Int
  clamped : Int
  unreachableLedgers : Int
  recordedAt : String
  deriving DecidableEq, Repr

structure Db where
  events : Keyed.Table EventRow.id
  cursors : Keyed.Table CursorRow.contractId
  backfillMarks : Keyed.Table BackfillMark.contractId

def Db.empty : Db :=
  { events := .empty _, cursors := .empty _, backfillMarks := .empty _ }

namespace Db

variable (db : Db) (cid : String)

/-! ## Statements of the ingestor -/

def insertEvent (row : EventRow) : Db :=
  { db with events := db.events.insertOrIgnore row }

def getCursor : Option String × Int :=
  match db.cursors.find? cid with
  | some r => (r.cursor, r.lastLedger)
  | none => (none, 0)

def setCursor (cursor : String) (ledger : Int) : Db :=
  { db with cursors := db.cursors.upsert ⟨cid, some cursor, ledger⟩ }

/-- The row `record_backfill_mark` binds. -/
def markOf (plan : StartPlan) (now : String) : BackfillMark :=
  { contractId := cid
    mode := plan.mode
    requestedStartLedger := plan.requested
    effectiveStartLedger := plan.effective
    rpcOldestLedger := plan.rpcOldest
    clamped := if plan.clamped then 1 else 0
    unreachableLedgers := plan.unreachable
    recordedAt := now }

def recordBackfillMark (plan : StartPlan) (now : String) : Db :=
  { db with backfillMarks := db.backfillMarks.upsert (markOf cid plan now) }

/-- `requested_start_ledger IS NOT NULL AND requested_start_ledger < o`. -/
def requestedBelow (requested : Option Int) (o : Int) : Bool :=
  requested.any fun q => decide (q < o)

/-- The `SET` clause of `reclamp_backfill_mark`. -/
def reclamp (o : Int) (m : BackfillMark) : BackfillMark :=
  { m with
    effectiveStartLedger := o
    rpcOldestLedger := some o
    clamped := if requestedBelow m.requestedStartLedger o then 1 else m.clamped
    unreachableLedgers :=
      if requestedBelow m.requestedStartLedger o then o - m.requestedStartLedger.getD 0
      else m.unreachableLedgers }

def reclampBackfillMark (rpcOldest : Int) : Db :=
  { db with backfillMarks := db.backfillMarks.update cid (reclamp rpcOldest) fun _ => rfl }

/-! ## What a statement changes -/

variable {db cid} {x : String}

@[simp] theorem events_setCursor (c : String) (l : Int) :
    (db.setCursor cid c l).events = db.events := rfl

@[simp] theorem marks_setCursor (c : String) (l : Int) :
    (db.setCursor cid c l).backfillMarks = db.backfillMarks := rfl

theorem find?_cursors_setCursor (c : String) (l : Int) :
    (db.setCursor cid c l).cursors.find? x
      = if x = cid then some ⟨cid, some c, l⟩ else db.cursors.find? x :=
  Keyed.Table.find?_upsert _ _ _

theorem find?_marks_recordBackfillMark (plan : StartPlan) (now : String) :
    (db.recordBackfillMark cid plan now).backfillMarks.find? x
      = if x = cid then some (markOf cid plan now) else db.backfillMarks.find? x :=
  Keyed.Table.find?_upsert _ _ _

theorem find?_marks_reclampBackfillMark (o : Int) :
    (db.reclampBackfillMark cid o).backfillMarks.find? x
      = if x = cid then (db.backfillMarks.find? x).map (reclamp o)
        else db.backfillMarks.find? x :=
  Keyed.Table.find?_update _ _ (reclamp o) (fun _ => rfl) _

variable (db cid)

/-! ## Statements of the API -/

/-- `COALESCE(MAX(ledger), 0)`. -/
def latestLedger : Int :=
  ((db.events.rows.map EventRow.ledger).max?).getD 0

/-- The rows of one contract. -/
def eventsOf : List EventRow :=
  db.events.rows.filter fun r => r.contractId = cid

/-- The `backfill` object of one `/coverage` entry. -/
structure BackfillReport where
  mode : String
  requestedStartLedger : Option Int
  effectiveStartLedger : Option Int
  rpcOldestLedgerAtStart : Option Int
  clamped : Bool
  unreachableLedgers : Int
  recordedAt : Option String
  note : Option String
  deriving DecidableEq, Repr

/-- One entry of `/coverage`. -/
structure CoverageReport where
  contractId : String
  scannedThroughLedger : Int
  firstEventLedger : Int
  lastEventLedger : Int
  eventCount : Nat
  historyBeginsAtLedger : Int
  backfill : Option BackfillReport
  deriving DecidableEq, Repr

def clampNote (requested effective : Option Int) (unreachable : Int) : String :=
  "requested start ledger " ++ toString (requested.getD 0)
    ++ " predates this RPC's retention floor " ++ toString (effective.getD 0) ++ "; "
    ++ toString unreachable ++ " ledgers of history were already unreachable when indexing began"

def backfillReport (m : BackfillMark) : BackfillReport :=
  { mode := m.mode
    requestedStartLedger := m.requestedStartLedger
    effectiveStartLedger := some m.effectiveStartLedger
    rpcOldestLedgerAtStart := m.rpcOldestLedger
    clamped := decide (m.clamped ≠ 0)
    unreachableLedgers := m.unreachableLedgers
    recordedAt := some m.recordedAt
    note :=
      if m.clamped ≠ 0 then
        some (clampNote m.requestedStartLedger (some m.effectiveStartLedger) m.unreachableLedgers)
      else none }

/-- What the joined row of one contract turns into. -/
def coverageOf : CoverageReport :=
  let ledgers := (db.eventsOf cid).map EventRow.ledger
  let firstEvent := ledgers.min?.getD 0
  let mark := db.backfillMarks.find? cid
  { contractId := cid
    scannedThroughLedger := ((db.cursors.find? cid).map CursorRow.lastLedger).getD 0
    firstEventLedger := firstEvent
    lastEventLedger := ledgers.max?.getD 0
    eventCount := ledgers.length
    historyBeginsAtLedger := (mark.map BackfillMark.effectiveStartLedger).getD firstEvent
    backfill := mark.map backfillReport }

/-- The contracts `/coverage` reports: those with a cursor or a mark. -/
def coveredIds : List String :=
  ((db.cursors.rows.map CursorRow.contractId
    ++ db.backfillMarks.rows.map BackfillMark.contractId).dedup).insertionSort (· ≤ ·)

def coverage : List CoverageReport :=
  db.coveredIds.map db.coverageOf

/-- The rows one `/events` query selects. The cursor branch has no
`startLedger` condition: id order stands for ledger order. -/
def eventRows (startLedger : Option Int) (cursor : Option String) (limit : Int)
    (retentionFloor : Option Int) : List EventRow :=
  let floor := retentionFloor.getD 0
  match cursor with
  | some c =>
      Keyset.page EventRow.id
        (db.events.rows.filter fun r => r.contractId = cid ∧ c < r.id ∧ floor ≤ r.ledger) limit
  | none =>
      Keyset.page EventRow.id
        (db.events.rows.filter fun r =>
          r.contractId = cid ∧ max (startLedger.getD 0) floor ≤ r.ledger) limit

theorem eventRows_first (startLedger : Option Int) (limit : Int) (floor : Option Int) :
    db.eventRows cid startLedger none limit floor = Keyset.page EventRow.id
      (db.events.rows.filter fun r =>
        r.contractId = cid ∧ max (startLedger.getD 0) (floor.getD 0) ≤ r.ledger) limit := rfl

theorem eventRows_after (startLedger : Option Int) (c : String) (limit : Int)
    (floor : Option Int) :
    db.eventRows cid startLedger (some c) limit floor = Keyset.page EventRow.id
      (db.events.rows.filter fun r => r.contractId = cid ∧ c < r.id ∧ floor.getD 0 ≤ r.ledger)
      limit := rfl

end Db

/-! ## The `/events` answer -/

/-- One event as `/events` serves it. -/
structure EventJson where
  type : String
  id : String
  contractId : String
  ledger : Int
  txHash : Option String
  inSuccessfulContractCall : Bool
  topic : Json
  value : String
  ledgerClosedAt : Option String

/-- The JSON of a row; `parse` is `serde_json::from_str`. -/
def EventRow.toJson (parse : String → Option Json) (r : EventRow) : EventJson :=
  { type := "contract"
    id := r.id
    contractId := r.contractId
    ledger := r.ledger
    txHash := r.txHash
    inSuccessfulContractCall := decide (r.inSuccessfulTx.getD 1 ≠ 0)
    topic := (parse r.topicsJson).getD (.arr [])
    value := r.valueXdr
    ledgerClosedAt := r.ledgerClosedAt }

structure EventsQuery where
  contractId : String
  startLedger : Option Int
  cursor : Option String
  limit : Option Int
  source : Option String

structure EventsBody where
  latestLedger : Int
  events : List EventJson
  cursor : Option String
  oldestLedger : Option Int

/-- The simulated retention floor: only when the server is armed with a
window and the request opts in. -/
def simFloor (db : Db) (retentionSimulationLedgers : Option Int) (source : Option String) :
    Option Int :=
  match retentionSimulationLedgers with
  | some n => if source = some "rpc-simulation" then some (max (db.latestLedger - n + 1) 0) else none
  | none => none

/-- The rows behind the answer to one `/events` request. -/
def EventsQuery.rows (q : EventsQuery) (retentionSimulationLedgers : Option Int) (db : Db) :
    List EventRow :=
  db.eventRows q.contractId q.startLedger q.cursor (min (q.limit.getD 100) 1000)
    (simFloor db retentionSimulationLedgers q.source)

/-- The `events` handler. -/
def EventsQuery.answer (q : EventsQuery) (parse : String → Option Json)
    (retentionSimulationLedgers : Option Int) (db : Db) : EventsBody :=
  let rows := q.rows retentionSimulationLedgers db
  { latestLedger := db.latestLedger
    events := rows.map (EventRow.toJson parse)
    cursor := rows.getLast?.map EventRow.id
    oldestLedger := simFloor db retentionSimulationLedgers q.source }

end RaizStack
