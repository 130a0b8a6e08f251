import Mathlib.Logic.Function.Basic
import RaizStack.Lts
import RaizStack.MemDb

/-!
# The ingest tick, one await at a time

`ingest::tick` as a machine. It stops wherever the source awaits - a
statement of the store or a call to the RPC - and a step is what happens
when the answer arrives. A crash is an answer every stop can get: the
locals are gone, the store is as the last statement left it. Nothing is
atomic beyond one statement, so every state between two inserts, or
between the last insert and `set_cursor`, is a state of the machine.

Several tasks run over one store. `World` holds the store and the stop
of each task; `next` lets one task take its answer.
-/

namespace RaizStack

/-! ## What is stored of an event -/

/-- The text of an event's value: the base64 string, or the `xdr` field
older RPCs wrapped it in, or the JSON itself. -/
def valueText : Json → String
  | .str s => s
  | other => ((other.get? "xdr").bind Json.asStr?).getD other.toText

def topicsText (topic : List String) : String :=
  (Json.arr (topic.map Json.str)).toText

/-- The row `tick` inserts for an event. -/
def rowOf (e : RawEvent) : EventRow :=
  { id := e.id
    contractId := e.contractId
    ledger := e.ledger
    txHash := e.txHash
    topicsJson := topicsText e.topic
    valueXdr := valueText e.value
    ledgerClosedAt := e.ledgerClosedAt
    inSuccessfulTx := some (if e.inSuccessfulContractCall then 1 else 0) }

/-! ## One page -/

def pageLimit : Nat := 100

def maxClampRetries : Nat := 3

/-- How far a page scanned: the ledger in its cursor, else the ledger of
its last event, else nothing. -/
def scannedThrough (page : GetEventsResult) : Int :=
  ((page.next.bind cursorLedger).or (page.events.getLast?.map RawEvent.ledger)).getD 0

/-- Whether the scan reached the head. A cursor that cannot be decoded
falls back to page fullness. -/
def caughtUp (page : GetEventsResult) : Bool :=
  match page.next.bind cursorLedger with
  | some scanned =>
      if 0 < page.latestLedger then decide (page.latestLedger ≤ scanned)
      else decide (page.events.length < pageLimit)
  | none => decide (page.events.length < pageLimit)

/-! ## The machine -/

/-- The locals of the page loop. -/
structure Locals where
  start : Option Int
  cursor : Option String
  clampRetries : Nat

/-- Where a task waits. -/
inductive Pc where
  /-- Between two runs of the process. -/
  | idle
  /-- Between two ticks, with what the last one returned. -/
  | returned (result : Answer Unit)
  | getCursor (spec : StartSpec)
  | resolve (spec : StartSpec)
  | recordMark (plan : StartPlan)
  | getEvents (v : Locals)
  | reclampMark (v : Locals) (oldest : Int)
  /-- About to insert `e`, with the events of the page after it. -/
  | insertEvent (v : Locals) (page : GetEventsResult) (e : RawEvent) (rest : List RawEvent)
  | setCursor (v : Locals) (page : GetEventsResult) (c : String)

/-- What a waiting task is answered. `now` is the clock of the store. -/
inductive Reply where
  | crash
  | begin (spec : StartSpec)
  | dbOk (now : String)
  | dbError (e : String)
  | range (a : RangeAnswers)
  | page (answer : Answer GetEventsResult)

/-- After the page: stop at the head or when the cursor stands still,
else ask for the next page. -/
def afterPage (v : Locals) (page : GetEventsResult) : Pc :=
  if caughtUp page ∨ page.next = v.cursor then .returned (.ok ())
  else .getEvents { v with cursor := page.next }

/-- After the inserts: the cursor is written when the page has one. -/
def afterInserts (v : Locals) (page : GetEventsResult) : Pc :=
  match page.next with
  | some c => .setCursor v page c
  | none => afterPage v page

def insertNext (v : Locals) (page : GetEventsResult) : List RawEvent → Pc
  | [] => afterInserts v page
  | e :: rest => .insertEvent v page e rest

/-- Past the last insert a task writes the cursor or is done with the page. -/
theorem insertNext_nil (v : Locals) (page : GetEventsResult) :
    (∃ c, page.next = some c ∧ insertNext v page [] = .setCursor v page c)
      ∨ (page.next = none ∧ insertNext v page [] = afterPage v page) := by
  cases hnext : page.next with
  | some c => exact Or.inl ⟨c, rfl, by simp only [insertNext, afterInserts, hnext]⟩
  | none => exact Or.inr ⟨rfl, by simp only [insertNext, afterInserts, hnext]⟩

/-- The error arm: while the scan still starts by ledger, a message that
names a range moves the start to its oldest ledger, three times at most. -/
def onError (v : Locals) (e : String) : Pc :=
  match v.cursor, parseLedgerRangeError e with
  | none, some (oldest, _) =>
      if v.clampRetries < maxClampRetries then
        .reclampMark { v with start := some oldest, clampRetries := v.clampRetries + 1 } oldest
      else .returned (.error e)
  | _, _ => .returned (.error e)

/-- The first decision of a tick: a contract without cursor and without
scanned ledgers is on its first run. -/
def afterGetCursor (spec : StartSpec) (cursor : Option String) (lastLedger : Int) : Pc :=
  if cursor = none ∧ lastLedger = 0 then .resolve spec
  else .getEvents { start := some lastLedger, cursor := cursor, clampRetries := 0 }

/-- One answer, for the task of contract `cid`. -/
def resume (cid : String) (db : Db) (pc : Pc) : Reply → Option (Db × Pc)
  | .crash => some (db, .idle)
  | .begin spec =>
      match pc with
      | .idle => some (db, .getCursor spec)
      | .returned _ => some (db, .getCursor spec)
      | _ => none
  | .range a =>
      match pc with
      | .resolve spec =>
          match RaizStack.resolve a spec with
          | .ok plan => some (db, .recordMark plan)
          | .error e => some (db, .returned (.error e))
      | _ => none
  | .page answer =>
      match pc with
      | .getEvents v =>
          match answer with
          | .ok page => some (db, insertNext v page page.events)
          | .error e => some (db, onError v e)
      | _ => none
  | .dbOk now =>
      match pc with
      | .getCursor spec =>
          some (db, afterGetCursor spec (db.getCursor cid).1 (db.getCursor cid).2)
      | .recordMark plan =>
          some (db.recordBackfillMark cid plan now,
            .getEvents { start := some plan.effective, cursor := none, clampRetries := 0 })
      | .reclampMark v oldest => some (db.reclampBackfillMark cid oldest, .getEvents v)
      | .insertEvent v page e rest => some (db.insertEvent (rowOf e), insertNext v page rest)
      | .setCursor v page c =>
          some (db.setCursor cid c (max (scannedThrough page) 1), afterPage v page)
      | _ => none
  | .dbError e =>
      match pc with
      | .getCursor _ | .recordMark _ | .reclampMark _ _ | .insertEvent _ _ _ _
      | .setCursor _ _ _ => some (db, .returned (.error e))
      | _ => none

/-- What an answer did, case by case: everything the invariants need to
know about `resume`. -/
inductive Resumed (cid : String) (db : Db) : Pc → Reply → Db → Pc → Prop
  | crash (pc) : Resumed cid db pc .crash db .idle
  | begin (pc spec) : Resumed cid db pc (.begin spec) db (.getCursor spec)
  | dbError (pc e) : Resumed cid db pc (.dbError e) db (.returned (.error e))
  | gotCursor (spec now) : Resumed cid db (.getCursor spec) (.dbOk now) db
      (afterGetCursor spec (db.getCursor cid).1 (db.getCursor cid).2)
  | noRange (spec a e) : resolve a spec = .error e →
      Resumed cid db (.resolve spec) (.range a) db (.returned (.error e))
  | resolved (spec a plan) : resolve a spec = .ok plan →
      Resumed cid db (.resolve spec) (.range a) db (.recordMark plan)
  | marked (plan now) : Resumed cid db (.recordMark plan) (.dbOk now)
      (db.recordBackfillMark cid plan now)
      (.getEvents { start := some plan.effective, cursor := none, clampRetries := 0 })
  | refused (v e) : Resumed cid db (.getEvents v) (.page (.error e)) db (onError v e)
  | served (v page) : Resumed cid db (.getEvents v) (.page (.ok page)) db
      (insertNext v page page.events)
  | reclamped (v oldest now) : Resumed cid db (.reclampMark v oldest) (.dbOk now)
      (db.reclampBackfillMark cid oldest) (.getEvents v)
  | inserted (v page e rest now) : Resumed cid db (.insertEvent v page e rest) (.dbOk now)
      (db.insertEvent (rowOf e)) (insertNext v page rest)
  | advanced (v page c now) : Resumed cid db (.setCursor v page c) (.dbOk now)
      (db.setCursor cid c (max (scannedThrough page) 1)) (afterPage v page)

theorem resumed_of_resume {cid : String} {db db' : Db} {pc pc' : Pc} {reply : Reply}
    (h : resume cid db pc reply = some (db', pc')) : Resumed cid db pc reply db' pc' := by
  unfold resume at h
  split at h
  case h_1 =>
    cases h
    exact .crash _
  case h_2 =>
    split at h <;> cases h <;> exact .begin _ _
  case h_3 =>
    split at h
    · split at h
      · rename_i hplan
        cases h
        exact .resolved _ _ _ hplan
      · rename_i herr
        cases h
        exact .noRange _ _ _ herr
    · cases h
  case h_4 =>
    split at h
    · split at h <;> cases h
      · exact .served _ _
      · exact .refused _ _
    · cases h
  case h_5 =>
    split at h <;> cases h
    · exact .gotCursor _ _
    · exact .marked _ _
    · exact .reclamped _ _ _
    · exact .inserted _ _ _ _ _
    · exact .advanced _ _ _ _
  case h_6 =>
    split at h <;> cases h <;> exact .dbError _ _

/-- No answer takes a row away. -/
theorem Resumed.rows {cid : String} {db db' : Db} {pc pc' : Pc} {reply : Reply}
    (h : Resumed cid db pc reply db' pc') : ∀ r ∈ db.events.rows, r ∈ db'.events.rows := by
  cases h with
  | inserted v page e rest now => exact fun _ hr => Keyed.Table.mem_insertOrIgnore_of_mem hr
  | _ => exact fun _ hr => hr

/-! ## Tasks over one store -/

/-- The store and where each task waits. -/
structure World (ι : Type) where
  db : Db
  pcs : ι → Pc

/-- A store nothing was written to yet, and no process. -/
def World.fresh (ι : Type) : World ι :=
  { db := .empty, pcs := fun _ => .idle }

variable {ι : Type} [DecidableEq ι]

/-- Task `i`, indexing `cid i`, takes its answer. -/
def World.next (cid : ι → String) (w : World ι) (act : ι × Reply) : Option (World ι) :=
  (resume (cid act.1) w.db (w.pcs act.1) act.2).map fun t =>
    { db := t.1, pcs := Function.update w.pcs act.1 t.2 }

theorem World.next_eq_some {cid : ι → String} {w w' : World ι} {i : ι} {reply : Reply}
    (h : w.next cid (i, reply) = some w') :
    Resumed (cid i) w.db (w.pcs i) reply w'.db (w'.pcs i)
      ∧ ∀ j, j ≠ i → w'.pcs j = w.pcs j := by
  obtain ⟨⟨db', pc'⟩, hres, rfl⟩ := Option.map_eq_some_iff.mp h
  refine ⟨?_, fun j hj => Function.update_of_ne hj _ _⟩
  simpa using resumed_of_resume hres

theorem World.next_update {cid : ι → String} {db db' : Db} {pcs : ι → Pc} {i : ι} {reply : Reply}
    {pc pc' : Pc} (h : resume (cid i) db pc reply = some (db', pc')) :
    World.next cid ⟨db, Function.update pcs i pc⟩ (i, reply)
      = some ⟨db', Function.update pcs i pc'⟩ := by
  simp only [World.next, Function.update_self, h, Option.map_some, Function.update_idem]

/-- The request a task waiting in the page loop has sent. -/
def requestOf (cid : String) (v : Locals) : EventsRequest :=
  RaizStack.getEvents cid v.start v.cursor pageLimit

end RaizStack
