import RaizStack.EventSource
import RaizStack.Fallible
import RaizStack.MemDb

/-!
# The wallet's events client

`EventsClient`: one request to `/events`, the lenient reading of the JSON
it answers, and the loop that follows the cursor for a bounded number of
pages. The JSON tree crosses the wire; the HTTP calls with their retries
are a parameter, and so are the conversions of Android's `org.json` that
no field of the indexer needs.
-/

namespace RaizStack

/-! ## org.json -/

/-- What the library makes of a value that is not of the type asked for:
the number in it, the truth value in a string, its text. -/
structure OrgJson where
  longOf : Json → Option Int
  boolOf : String → Option Bool
  textOf : Json → String

namespace OrgJson

variable (lib : OrgJson)

/-- `optString(name)`. An explicit null is the text `null`. -/
def optString (o : Json) (name : String) : String :=
  match o.get? name with
  | none => ""
  | some .null => "null"
  | some (.str s) => s
  | some j => lib.textOf j

/-- `optLong(name, fallback)`. -/
def optLong (o : Json) (name : String) (fallback : Int) : Int :=
  match o.get? name with
  | some (.num text) => ((Text.parseI64 text.toList).or (lib.longOf (.num text))).getD fallback
  | some (.str s) => (lib.longOf (.str s)).getD fallback
  | _ => fallback

/-- `optBoolean(name, fallback)`. -/
def optBoolean (o : Json) (name : String) (fallback : Bool) : Bool :=
  match o.get? name with
  | some (.bool b) => b
  | some (.str s) => (lib.boolOf s).getD fallback
  | _ => fallback

/-- `optJSONArray(name)`. -/
def optJSONArray (o : Json) (name : String) : Option (List Json) :=
  match o.get? name with
  | some (.arr items) => some items
  | _ => none

/-- `has(name)`. -/
def has (o : Json) (name : String) : Bool :=
  (o.get? name).isSome

end OrgJson

namespace EventsClient

/-! ## Results -/

/-- One contract event. -/
structure EventRecord where
  id : String
  contractId : String
  ledger : Int
  txHash : Option String
  ledgerClosedAt : Option String
  topics : List String
  valueXdr : Option String
  inSuccessfulContractCall : Bool
  deriving DecidableEq, Repr

structure EventsPage where
  events : List EventRecord
  cursor : Option String
  latestLedger : Int
  /-- The retention floor the source admits to. -/
  oldestLedger : Option Int
  source : EventSource

inductive EventsException where
  /-- `Network` or `Http`: what the retries ended with. -/
  | transport (message : String)
  | upstream (url error : String)
  | malformed (url detail : String)
  /-- A `JSONException` out of `getJSONObject`. -/
  | json (message : String)

/-! ## Reading a page -/

variable (lib : OrgJson)

/-- `s.ifEmpty { null }`. -/
def ifEmptyNull (s : String) : Option String :=
  if s = "" then none else some s

def xdrString : Option Json → Option String
  | none => none
  | some .null => none
  | some (.str s) => ifEmptyNull s
  | some (.obj fields) => ifEmptyNull (lib.optString (.obj fields) "xdr")
  | some node => ifEmptyNull (lib.textOf node)

def xdrArray (arr : Option (List Json)) : List String :=
  (arr.getD []).filterMap fun node => xdrString lib (some node)

/-- One element of the `events` array. -/
def eventRecord (o : Json) : EventRecord :=
  { id := lib.optString o "id"
    contractId := lib.optString o "contractId"
    ledger := lib.optLong o "ledger" 0
    txHash := ifEmptyNull (lib.optString o "txHash")
    ledgerClosedAt := ifEmptyNull (lib.optString o "ledgerClosedAt")
    topics := xdrArray lib ((OrgJson.optJSONArray o "topic").or (OrgJson.optJSONArray o "topics"))
    valueXdr := xdrString lib (o.get? "value")
    inSuccessfulContractCall := lib.optBoolean o "inSuccessfulContractCall" true }

/-- `arr.getJSONObject(i)`, read. -/
def eventAt : Json → Except EventsException EventRecord
  | .obj fields => .ok (eventRecord lib (.obj fields))
  | node => .error (.json (lib.textOf node ++ " cannot be converted to JSONObject"))

/-- The paging token: ours, the older spelling, or the last id. -/
def cursorOf (json : Json) (events : List EventRecord) : Option String :=
  ((ifEmptyNull (lib.optString json "cursor")).or
    (ifEmptyNull (lib.optString json "pagingToken"))).or (events.getLast?.map EventRecord.id)

def parsePage (url : String) (json : Json) (src : EventSource) :
    Except EventsException EventsPage :=
  match OrgJson.optJSONArray json "events" with
  | none =>
      .error (.malformed url ("no 'events' array in "
        ++ String.ofList (Text.takeUnits 200 (lib.textOf json).toList)))
  | some arr => do
      let events ← arr.mapM (eventAt lib)
      .ok
        { events := events
          cursor := cursorOf lib json events
          latestLedger := lib.optLong json "latestLedger" 0
          oldestLedger :=
            if OrgJson.has json "oldestLedger" then some (lib.optLong json "oldestLedger" 0)
            else none
          source := src }

/-! ## Asking -/

/-- The HTTP side: the URL of a query and the JSON object in its answer. -/
structure Http where
  url : EventSource → EventsQuery → String
  get : EventSource → EventsQuery → Except EventsException Json

def maxPageSize : Int := 1000

def defaultPageSize : Nat := 200

def defaultMaxPages : Nat := 25

/-- `getJson`: a 200 that carries an `error` is a failure. -/
def getJson (http : Http) (src : EventSource) (q : EventsQuery) : Except EventsException Json := do
  let json ← http.get src q
  match ifEmptyNull (lib.optString json "error") with
  | some error => .error (.upstream (http.url src q) error)
  | none => .ok json

/-- The query of one request. The start ledger is dropped once a cursor
is in play. -/
def queryOf (contractId : String) (limit : Int) (cursor : Option String)
    (startLedger : Option Int) (src : EventSource) : EventsQuery :=
  { contractId := contractId
    startLedger := if cursor = none then startLedger else none
    cursor := cursor
    limit := some (min (max limit 1) maxPageSize)
    source := src.sourceParam }

/-- `events`: one page. -/
def events (http : Http) (contractId : String) (limit : Int) (cursor : Option String)
    (startLedger : Option Int) (src : EventSource) : Except EventsException EventsPage := do
  let q := queryOf contractId limit cursor startLedger src
  let json ← getJson lib http src q
  parsePage lib (http.url src q) json src

/-- The loop: a page, then the next unless the page was short, had no
cursor or did not advance. `left` is how many pages may still be asked
for. -/
def followCursor (fetch : Option String → Except EventsException EventsPage) (pageSize : Nat) :
    (left : Nat) → (cursor : Option String) → (all : List EventRecord) →
      (last : Option EventsPage) → Except EventsException (List EventRecord × Option EventsPage)
  | 0, _, all, last => .ok (all, last)
  | left + 1, cursor, all, _ => do
      let page ← fetch cursor
      if page.events.length < pageSize ∨ page.cursor = none ∨ page.cursor = cursor then
        .ok (all ++ page.events, some page)
      else
        followCursor fetch pageSize left page.cursor (all ++ page.events) (some page)

/-- `allEvents`: what up to `maxPages` pages held, under the labels of the
last one. Nothing says whether the loop ended or was cut off. -/
def allEvents (http : Http) (contractId : String) (startLedger : Option Int)
    (pageSize maxPages : Nat) (src : EventSource) : Except EventsException EventsPage := do
  let walked ← followCursor
    (fun cursor =>
      events lib http contractId pageSize cursor (if cursor = none then startLedger else none) src)
    pageSize maxPages none [] none
  .ok
    { events := walked.1
      cursor := walked.2.bind EventsPage.cursor
      latestLedger := (walked.2.map EventsPage.latestLedger).getD 0
      oldestLedger := walked.2.bind EventsPage.oldestLedger
      source := src }

end EventsClient

end RaizStack
