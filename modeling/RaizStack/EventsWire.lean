import RaizStack.EventsClient
import RaizStack.MemIngest

/-!
# An event across the wire

The JSON `db::events` and the `/events` handler build, and what
`EventsClient.parsePage` reads in it. Every column arrives as it was
stored but the two that may be NULL: the server writes an explicit null
for them, which `optString` reads as the text `null`.
-/

namespace RaizStack

open EventsClient

/-! ## What the server writes -/

/-- `json!` of an optional string: an explicit null when there is none. -/
def jsonOfOption : Option String → Json
  | none => .null
  | some s => .str s

/-- The object `db::events` builds of a row. -/
def EventJson.json (e : EventJson) : Json :=
  .obj
    [ ("type", .str e.type),
      ("id", .str e.id),
      ("contractId", .str e.contractId),
      ("ledger", .num (toString e.ledger)),
      ("txHash", jsonOfOption e.txHash),
      ("inSuccessfulContractCall", .bool e.inSuccessfulContractCall),
      ("topic", e.topic),
      ("value", .str e.value),
      ("ledgerClosedAt", jsonOfOption e.ledgerClosedAt) ]

/-- The body of the answer. Only a simulated floor is declared. -/
def EventsBody.json (b : EventsBody) : Json :=
  .obj
    ([ ("latestLedger", .num (toString b.latestLedger)),
       ("events", .arr (b.events.map EventJson.json)),
       ("cursor", jsonOfOption b.cursor) ]
      ++ (b.oldestLedger.map fun floor => ("oldestLedger", .num (toString floor))).toList)

/-! ## What the client reads -/

variable (lib : OrgJson)

/-- A machine integer. -/
def IsI64 (n : Int) : Prop := -2 ^ 63 ≤ n ∧ n < 2 ^ 63

theorem optLong_num {o : Json} {name : String} {n fallback : Int}
    (h : o.get? name = some (.num (toString n))) (hn : IsI64 n) :
    lib.optLong o name fallback = n := by
  rw [OrgJson.optLong, h]
  simp only
  rw [Text.parseI64_toString hn.1 hn.2]
  rfl

/-- The client's record of a row the server sent. -/
def EventJson.record (e : EventJson) : EventRecord :=
  eventRecord lib e.json

/-- A NULL column is read as the text `null`. -/
def readColumn (column : Option String) : Option String :=
  ifEmptyNull (column.getD "null")

theorem optString_ofOption {o : Json} {name : String} {column : Option String}
    (h : o.get? name = some (jsonOfOption column)) :
    lib.optString o name = column.getD "null" := by
  rw [OrgJson.optString, h]
  cases column with
  | none => rfl
  | some s => rfl

theorem xdrArray_strings {items : List String} (h : ∀ t ∈ items, t ≠ "") :
    xdrArray lib (some (items.map Json.str)) = items := by
  unfold xdrArray
  rw [Option.getD_some, List.filterMap_map]
  have hall : ∀ t ∈ items, ((fun node => xdrString lib (some node)) ∘ Json.str) t = some t :=
    fun t ht => if_neg (h t ht)
  rw [List.filterMap_congr hall, List.filterMap_some]

/-- What the record of a row says, column by column. -/
theorem record_eq {e : EventJson} {topics : List String} (hledger : IsI64 e.ledger)
    (htopic : e.topic = .arr (topics.map Json.str)) (htopics : ∀ t ∈ topics, t ≠ "") :
    e.record lib =
      { id := e.id
        contractId := e.contractId
        ledger := e.ledger
        txHash := readColumn e.txHash
        ledgerClosedAt := readColumn e.ledgerClosedAt
        topics := topics
        valueXdr := ifEmptyNull e.value
        inSuccessfulContractCall := e.inSuccessfulContractCall } := by
  have hl : lib.optLong e.json "ledger" 0 = e.ledger := optLong_num lib rfl hledger
  have hh : lib.optString e.json "txHash" = e.txHash.getD "null" := optString_ofOption lib rfl
  have hc : lib.optString e.json "ledgerClosedAt" = e.ledgerClosedAt.getD "null" :=
    optString_ofOption lib rfl
  have ha : OrgJson.optJSONArray e.json "topic" = some (topics.map Json.str) := by
    have hget : e.json.get? "topic" = some e.topic := rfl
    rw [OrgJson.optJSONArray, hget, htopic]
  unfold EventJson.record eventRecord
  rw [hl, hh, hc, ha, Option.some_or, xdrArray_strings lib htopics]
  rfl

/-- The page the client reads of a body. -/
def EventsBody.page (src : EventSource) (b : EventsBody) : EventsPage :=
  { events := b.events.map (EventJson.record lib)
    cursor := cursorOf lib b.json (b.events.map (EventJson.record lib))
    latestLedger := lib.optLong b.json "latestLedger" 0
    oldestLedger :=
      if OrgJson.has b.json "oldestLedger" then some (lib.optLong b.json "oldestLedger" 0)
      else none
    source := src }

/-- The client takes every event of a body, in order. -/
theorem parsePage_json (url : String) (src : EventSource) (b : EventsBody) :
    parsePage lib url b.json src = .ok (b.page lib src) := by
  have harr : OrgJson.optJSONArray b.json "events" = some (b.events.map EventJson.json) := rfl
  have hmap : (b.events.map EventJson.json).mapM (eventAt lib)
      = .ok ((b.events.map EventJson.json).map (eventRecord lib)) := by
    refine Fallible.mapM_eq_ok fun o ho => ?_
    obtain ⟨e, -, rfl⟩ := List.mem_map.mp ho
    rfl
  unfold parsePage
  rw [harr]
  simp only [hmap, Fallible.ok_bind, List.map_map]
  rfl

/-! ## Rows as ingestion stores them -/

/-- A row ingestion can store: its id, value and topics are there, and a
column that is not NULL is not empty. -/
structure EventRow.Storable (r : EventRow) (topics : List String) : Prop where
  id : r.id ≠ ""
  ledger : IsI64 r.ledger
  txHash : r.txHash ≠ some ""
  topicsJson : r.topicsJson = topicsText topics
  topics : ∀ t ∈ topics, t ≠ ""
  value : r.valueXdr ≠ ""
  ledgerClosedAt : r.ledgerClosedAt ≠ some ""

/-- What `tick` inserts is storable. -/
theorem rowOf_storable {e : RawEvent} (hid : e.id ≠ "") (hledger : IsI64 e.ledger)
    (hhash : e.txHash ≠ some "") (htopics : ∀ t ∈ e.topic, t ≠ "") (hvalue : valueText e.value ≠ "")
    (hclosed : e.ledgerClosedAt ≠ some "") : (rowOf e).Storable e.topic :=
  { id := hid
    ledger := hledger
    txHash := hhash
    topicsJson := rfl
    topics := htopics
    value := hvalue
    ledgerClosedAt := hclosed }

/-- The record says of the event what the row says. -/
structure AgreesWith (r : EventRow) (topics : List String) (e : EventRecord) : Prop where
  id : e.id = r.id
  contractId : e.contractId = r.contractId
  ledger : e.ledger = r.ledger
  txHash : e.txHash = r.txHash
  ledgerClosedAt : e.ledgerClosedAt = r.ledgerClosedAt
  topics : e.topics = topics
  value : e.valueXdr = some r.valueXdr
  success : e.inSuccessfulContractCall = decide (r.inSuccessfulTx.getD 1 ≠ 0)

theorem readColumn_eq_iff {column : Option String} (h : column ≠ some "") :
    readColumn column = column ↔ column ≠ none := by
  cases column with
  | none =>
      constructor
      · intro hnull
        cases hnull
      · intro hnone
        exact absurd rfl hnone
  | some s =>
      have hs : s ≠ "" := fun hempty => h (congrArg some hempty)
      exact ⟨fun _ => Option.some_ne_none s, fun _ => if_neg hs⟩

theorem record_of_storable {parse : String → Option Json} {r : EventRow} {topics : List String}
    (hr : r.Storable topics) (hparse : parse r.topicsJson = some (.arr (topics.map Json.str))) :
    (r.toJson parse).record lib =
      { id := r.id
        contractId := r.contractId
        ledger := r.ledger
        txHash := readColumn r.txHash
        ledgerClosedAt := readColumn r.ledgerClosedAt
        topics := topics
        valueXdr := some r.valueXdr
        inSuccessfulContractCall := decide (r.inSuccessfulTx.getD 1 ≠ 0) } := by
  have htopic : (r.toJson parse).topic = .arr (topics.map Json.str) := by
    rw [EventRow.toJson, hparse]
    rfl
  rw [record_eq lib hr.ledger htopic hr.topics]
  have hvalue : ifEmptyNull r.valueXdr = some r.valueXdr := if_neg hr.value
  simp only [EventRow.toJson, hvalue]

/-- **The record of a stored row agrees with it when neither nullable
column is NULL, and only then.** `parse` is `serde_json::from_str`, which
undoes the text ingestion stored for the topics. -/
theorem record_agrees_iff (parse : String → Option Json) (url : String) (src : EventSource)
    (b : EventsBody) (i : Nat) (r : EventRow) (topics : List String) (hr : r.Storable topics)
    (hparse : parse (topicsText topics) = some (.arr (topics.map Json.str)))
    (hi : b.events[i]? = some (r.toJson parse)) :
    ∃ page e, parsePage lib url b.json src = .ok page ∧ page.events[i]? = some e ∧
      (AgreesWith r topics e ↔ r.txHash ≠ none ∧ r.ledgerClosedAt ≠ none) := by
  rw [← hr.topicsJson] at hparse
  refine ⟨b.page lib src, (r.toJson parse).record lib, parsePage_json lib url src b, ?_, ?_⟩
  · rw [EventsBody.page, List.getElem?_map, hi]
    rfl
  · rw [record_of_storable lib hr hparse, ← readColumn_eq_iff hr.txHash,
      ← readColumn_eq_iff hr.ledgerClosedAt]
    constructor
    · intro h
      exact ⟨h.txHash, h.ledgerClosedAt⟩
    · rintro ⟨hhash, hclosed⟩
      exact ⟨rfl, rfl, rfl, hhash, hclosed, rfl, rfl, rfl⟩

/-- A merge as the RPC sends it. -/
def mergeEvent : RawEvent :=
  { id := "0016965675500376064-0000000001"
    contractId := "CBWSANZN7YIMA4CWLNSAZO3HSD5NZDC2GZQJ434MOPQR7RDNVYQSDHAT"
    ledger := 3950129
    txHash := some "58363138"
    topic := ["AAAADwAAAAVtZXJnZQAAAA=="]
    value := .str "AAAAEQAAAAEAAAAA"
    ledgerClosedAt := some "2026-08-03T19:29:15Z"
    inSuccessfulContractCall := true }

/-- The same merge from an RPC that leaves both out. -/
def bareMergeEvent : RawEvent :=
  { mergeEvent with
    txHash := none
    ledgerClosedAt := none }

/-- A body that serves one row. -/
def bodyOf (parse : String → Option Json) (r : EventRow) : EventsBody :=
  { latestLedger := r.ledger
    events := [r.toJson parse]
    cursor := some r.id
    oldestLedger := none }

/-- `serde_json::from_str` of one topic array, and nothing else. -/
def parseTopics (topics : List String) (text : String) : Option Json :=
  if text = topicsText topics then some (.arr (topics.map Json.str)) else none

/-- `org.json` where a value needs no conversion. -/
def plainJson : OrgJson :=
  { longOf := fun _ => none, boolOf := fun _ => none, textOf := Json.toText }

theorem record_agrees_merge :
    ∃ page e, parsePage plainJson "http://localhost:8090/events"
        (bodyOf (parseTopics mergeEvent.topic) (rowOf mergeEvent)).json (.raizMemory "")
          = .ok page ∧
      page.events[0]? = some e ∧
      (AgreesWith (rowOf mergeEvent) mergeEvent.topic e ↔
        (rowOf mergeEvent).txHash ≠ none ∧ (rowOf mergeEvent).ledgerClosedAt ≠ none) :=
  record_agrees_iff _ _ _ _ _ 0 (rowOf mergeEvent) mergeEvent.topic
    (rowOf_storable (by decide) ⟨by decide, by decide⟩ (by decide) (by decide) (by decide)
      (by decide))
    (if_pos rfl) rfl

/-- A row whose two columns are NULL: the client reads a transaction hash
and a closing time, both the text `null`. -/
theorem null_columns_misread :
    (rowOf bareMergeEvent).Storable bareMergeEvent.topic ∧
      ∃ page e, parsePage plainJson "http://localhost:8090/events"
          (bodyOf (parseTopics bareMergeEvent.topic) (rowOf bareMergeEvent)).json
          (.raizMemory "") = .ok page ∧
        page.events[0]? = some e ∧ e.txHash = some "null" ∧ e.ledgerClosedAt = some "null" ∧
        ¬ AgreesWith (rowOf bareMergeEvent) bareMergeEvent.topic e := by
  have hr : (rowOf bareMergeEvent).Storable bareMergeEvent.topic :=
    rowOf_storable (by decide) ⟨by decide, by decide⟩ nofun (by decide) (by decide) nofun
  have hparse : parseTopics bareMergeEvent.topic (rowOf bareMergeEvent).topicsJson
      = some (.arr (bareMergeEvent.topic.map Json.str)) := if_pos rfl
  have hrecord := record_of_storable plainJson hr hparse
  refine ⟨hr, _, _, parsePage_json _ _ _ _, congrArg some hrecord, rfl, rfl, ?_⟩
  intro h
  exact absurd h.txHash (Option.some_ne_none _)

end RaizStack
