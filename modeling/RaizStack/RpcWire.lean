import RaizStack.Fallible
import RaizStack.MemIngest

/-!
# From JSON-RPC to the tick

`rpc.rs` posts a request, takes `result` out of the JSON that comes back,
unless there is an `error`, and has `serde` make its structs of it. The
model of the tick starts behind that; this is what is before it, so that
a run can be told by the JSON on the wire.

The client is meant to get along with two generations of RPC: `cursor` was
`pagingToken`, an event's `value` was wrapped in an object, and there was
no `inSuccessfulContractCall`. What the client makes of either is the same
page but for the wrapping, which comes off when the row is built. So the
index does not depend on who speaks which (`dialects_alike`).
-/

namespace RaizStack

/-! ## Reading fields -/

/-- `Value::as_i64`: a negative zero is a float. -/
def asI64? : Json → Option Int
  | .num text => if text = "-0" then none else Text.parseI64 text.toList
  | _ => none

/-- A field of type `Option<T>`: absent, null, or a `T`. -/
def optional? {α : Type} (read : Json → Option α) : Option Json → Option (Option α)
  | none => some none
  | some .null => some none
  | some j => (read j).map some

/-- A field with a default, which a null does not stand for. -/
def default? {α : Type} (fallback : α) (read : Json → Option α) : Option Json → Option α
  | none => some fallback
  | some j => read j

def listOf? {α : Type} (read : Json → Option α) : Json → Option (List α)
  | .arr items => items.mapM read
  | _ => none

def asBool? : Json → Option Bool
  | .bool b => some b
  | _ => none

/-- A struct is an object, or an array of its fields in order, of which
those with a default may be left off the end. -/
def structFields (names : List String) (least : Nat) : Json → Option (String → Option Json)
  | .obj fields => some fun name => fields.lookup name
  | .arr items =>
      if least ≤ items.length ∧ items.length ≤ names.length then
        some fun name => (names.zip items).lookup name
      else none
  | _ => none

/-- `serde_json::from_value::<RawEvent>`. -/
def RawEvent.fromValue (j : Json) : Option RawEvent := do
  let field ← structFields ["id", "contractId", "ledger", "txHash", "topic", "value",
    "ledgerClosedAt", "inSuccessfulContractCall"] 7 j
  let id ← (field "id").bind Json.asStr?
  let contractId ← (field "contractId").bind Json.asStr?
  let ledger ← (field "ledger").bind asI64?
  let txHash ← optional? Json.asStr? (field "txHash")
  let topic ← default? [] (listOf? Json.asStr?) (field "topic")
  let value ← field "value"
  let ledgerClosedAt ← optional? Json.asStr? (field "ledgerClosedAt")
  let inSuccessfulContractCall ← default? true asBool? (field "inSuccessfulContractCall")
  some { id, contractId, ledger, txHash, topic, value, ledgerClosedAt, inSuccessfulContractCall }

/-- `serde_json::from_value::<GetEventsResult>`. -/
def GetEventsResult.fromValue (j : Json) : Option GetEventsResult := do
  let field ← structFields ["events", "latestLedger", "cursor", "pagingToken", "oldestLedger"] 5 j
  let events ← default? [] (listOf? RawEvent.fromValue) (field "events")
  let latestLedger ← default? 0 asI64? (field "latestLedger")
  let cursor ← optional? Json.asStr? (field "cursor")
  let pagingToken ← optional? Json.asStr? (field "pagingToken")
  let oldestLedger ← optional? asI64? (field "oldestLedger")
  some { events, latestLedger, cursor, pagingToken, oldestLedger }

/-! ## The client -/

/-- `call`, after the exchange: the text of what went wrong there, or the
JSON that came back. An `error` that is null is one too. -/
def call (method : String) (resp : Answer Json) : Answer Json := do
  let resp ← resp
  match resp.get? "error" with
  | some err => .error ("RPC error from " ++ method ++ ": " ++ err.toText)
  | none => .ok ((resp.get? "result").getD .null)

/-- `r.get(name).and_then(|v| v.as_i64())`. -/
def i64Field (r : Json) (name : String) : Option Int :=
  (r.get? name).bind asI64?

def getLatestLedger (resp : Answer Json) : Answer Int := do
  let r ← call "getLatestLedger" resp
  .ok ((i64Field r "sequence").getD 0)

section Client

-- the text of the error `serde` has for a value
variable (serdeError : Json → String)

def pageAnswer (resp : Answer Json) : Answer GetEventsResult := do
  let r ← call "getEvents" resp
  match GetEventsResult.fromValue r with
  | some page => .ok page
  | none => .error (serdeError r)

/-- The window `getHealth` reports, when it does. -/
def reportedRange (resp : Answer Json) : Option LedgerRange :=
  match call "getHealth" resp with
  | .error _ => none
  | .ok health =>
      let oldest := (i64Field health "oldestLedger").getD 0
      let latest := (i64Field health "latestLedger").getD 0
      if 0 < oldest ∧ 0 < latest then some { oldest := oldest, latest := latest } else none

/-- `ledger_range`, of what the three calls brought. -/
def RpcClient.ledgerRange (health latest probe : Answer Json) : Answer LedgerRange :=
  match reportedRange health with
  | some range => .ok range
  | none => do
      let head ← getLatestLedger latest
      let probe ← pageAnswer serdeError probe
      let latest := if 0 < probe.latestLedger then probe.latestLedger else head
      .ok { oldest := max (probe.oldestLedger.getD latest) 1, latest := latest }

/-- The answers as the tick takes them. -/
def RangeAnswers.ofWire (health latest probe : Answer Json) : RangeAnswers where
  health := (call "getHealth" health).map fun r =>
    (i64Field r "oldestLedger", i64Field r "latestLedger")
  head := (call "getLatestLedger" latest).map fun r => i64Field r "sequence"
  probe := pageAnswer serdeError probe

/-- The tick's window is the client's. -/
theorem ledgerRange_ofWire (health latest probe : Answer Json) :
    RaizStack.ledgerRange (.ofWire serdeError health latest probe)
      = RpcClient.ledgerRange serdeError health latest probe := by
  have hreported : healthRange (RangeAnswers.ofWire serdeError health latest probe).health
      = reportedRange health := by
    rw [RangeAnswers.ofWire, reportedRange]
    cases call "getHealth" health with
    | ok r => rfl
    | error e => rfl
  rw [RaizStack.ledgerRange, RpcClient.ledgerRange, hreported]
  cases reportedRange health with
  | some range => rfl
  | none =>
      rw [RangeAnswers.ofWire, getLatestLedger]
      cases call "getLatestLedger" latest with
      | ok head => rfl
      | error e => rfl

/-- What a waiting task is answered, as it comes over the wire. -/
inductive WireReply where
  | crash
  | begin (spec : StartSpec)
  | dbOk (now : String)
  | dbError (e : String)
  | range (health latest probe : Answer Json)
  | page (resp : Answer Json)

def Reply.ofWire : WireReply → Reply
  | .crash => .crash
  | .begin spec => .begin spec
  | .dbOk now => .dbOk now
  | .dbError e => .dbError e
  | .range health latest probe => .range (.ofWire serdeError health latest probe)
  | .page resp => .page (pageAnswer serdeError resp)

/-- A step of the index, with an answer off the wire. -/
def World.wireNext {ι : Type} [DecidableEq ι] (cid : ι → String) (w : World ι)
    (act : ι × WireReply) : Option (World ι) :=
  w.next cid (act.1, .ofWire serdeError act.2)

end Client

/-! ## Two ways to say a page -/

/-- What there is to say of an event. -/
structure EventContent where
  id : String
  contractId : String
  ledger : Int
  txHash : Option String
  topic : List String
  xdr : String
  ledgerClosedAt : Option String
  success : Bool

structure PageContent where
  events : List EventContent
  latestLedger : Int
  token : Option String
  oldestLedger : Int

/-- How an RPC says it. -/
structure Dialect where
  wrapsValue : Bool
  saysSuccess : Bool
  pagingToken : Bool
  saysOldest : Bool
  deriving DecidableEq

def Dialect.value (d : Dialect) (xdr : String) : Json :=
  if d.wrapsValue then .obj [("xdr", .str xdr)] else .str xdr

def Dialect.rawEvent (d : Dialect) (e : EventContent) : RawEvent where
  id := e.id
  contractId := e.contractId
  ledger := e.ledger
  txHash := e.txHash
  topic := e.topic
  value := d.value e.xdr
  ledgerClosedAt := e.ledgerClosedAt
  inSuccessfulContractCall := e.success

def Dialect.page (d : Dialect) (p : PageContent) : GetEventsResult where
  events := p.events.map d.rawEvent
  latestLedger := p.latestLedger
  cursor := if d.pagingToken then none else p.token
  pagingToken := if d.pagingToken then p.token else none
  oldestLedger := if d.saysOldest then some p.oldestLedger else none

/-- A field that has the text, or neither is there. -/
def TextField (field : Option Json) : Option String → Prop
  | some s => field = some (.str s)
  | none => field = none ∨ field = some .null

/-- A field that has the 64-bit number. -/
def NumField (field : Option Json) (n : Int) : Prop :=
  field = some (.num (toString n)) ∧ -2 ^ 63 ≤ n ∧ n < 2 ^ 63

/-- `j` is how the dialect says the event, among whatever else it has to
say. An RPC without the flag serves successful calls only. -/
structure Dialect.SaysEvent (d : Dialect) (e : EventContent) (j : Json) : Prop where
  object : ∃ fields, j = .obj fields
  id : j.get? "id" = some (.str e.id)
  contractId : j.get? "contractId" = some (.str e.contractId)
  ledger : NumField (j.get? "ledger") e.ledger
  txHash : TextField (j.get? "txHash") e.txHash
  topic : j.get? "topic" = some (.arr (e.topic.map Json.str))
  value : j.get? "value" = some (d.value e.xdr)
  ledgerClosedAt : TextField (j.get? "ledgerClosedAt") e.ledgerClosedAt
  success : j.get? "inSuccessfulContractCall"
    = if d.saysSuccess then some (.bool e.success) else none
  successful : d.saysSuccess = false → e.success = true

structure Dialect.SaysPage (d : Dialect) (p : PageContent) (j : Json) : Prop where
  object : ∃ fields, j = .obj fields
  events : ∃ items, j.get? "events" = some (.arr items) ∧
    List.Forall₂ d.SaysEvent p.events items
  latestLedger : NumField (j.get? "latestLedger") p.latestLedger
  cursor : TextField (j.get? "cursor") (if d.pagingToken then none else p.token)
  pagingToken : TextField (j.get? "pagingToken") (if d.pagingToken then p.token else none)
  oldestLedger : if d.saysOldest then NumField (j.get? "oldestLedger") p.oldestLedger
    else j.get? "oldestLedger" = none

/-- A whole response, with the page for a result and no error. -/
structure Dialect.Responds (d : Dialect) (p : PageContent) (resp : Json) : Prop where
  noError : resp.get? "error" = none
  result : ∃ j, resp.get? "result" = some j ∧ d.SaysPage p j

section Reading

variable {d : Dialect} {e : EventContent} {p : PageContent} {j : Json}

theorem asI64?_num {field : Option Json} {n : Int} (h : NumField field n) :
    field.bind asI64? = some n := by
  obtain ⟨rfl, hlo, hhi⟩ := h
  have hread := Text.parseI64_toString hlo hhi
  rw [Option.bind_some, asI64?, if_neg, hread]
  intro hzero
  rw [hzero] at hread
  have hn : n = 0 := (Option.some.inj hread).symm
  subst hn
  exact absurd hzero (by decide)

theorem optional?_text {field : Option Json} {v : Option String} (h : TextField field v) :
    optional? Json.asStr? field = some v := by
  cases v with
  | some s =>
      obtain rfl := h
      rfl
  | none => obtain rfl | rfl := h <;> rfl

theorem listOf?_strs (ss : List String) :
    listOf? Json.asStr? (.arr (ss.map Json.str)) = some ss := by
  rw [listOf?]
  induction ss with
  | nil => rfl
  | cons s ss ih => simp [Json.asStr?, ih]

/-- The fields of an object are what `get?` finds. -/
theorem structFields_get? {names : List String} {least : Nat} (h : ∃ fields, j = .obj fields) :
    structFields names least j = some j.get? := by
  obtain ⟨fields, rfl⟩ := h
  rfl

theorem fromValue_event (h : d.SaysEvent e j) : RawEvent.fromValue j = some (d.rawEvent e) := by
  have htopic : default? [] (listOf? Json.asStr?) (j.get? "topic") = some e.topic := by
    rw [h.topic]
    exact listOf?_strs e.topic
  have hsuccess : default? true asBool? (j.get? "inSuccessfulContractCall")
      = some e.success := by
    rw [h.success]
    cases hd : d.saysSuccess with
    | true => rfl
    | false =>
        rw [h.successful hd]
        rfl
  rw [RawEvent.fromValue, structFields_get? h.object]
  simp only [Option.bind_eq_bind, Option.bind_some, h.id, h.contractId, Json.asStr?,
    asI64?_num h.ledger, optional?_text h.txHash, optional?_text h.ledgerClosedAt, htopic,
    h.value, hsuccess]
  rfl

theorem mapM_events {es : List EventContent} {items : List Json}
    (h : List.Forall₂ d.SaysEvent es items) :
    items.mapM RawEvent.fromValue = some (es.map d.rawEvent) := by
  induction h with
  | nil => rfl
  | cons hhead _ ih =>
      rw [List.mapM_cons, fromValue_event hhead, ih]
      rfl

theorem fromValue_page (h : d.SaysPage p j) : GetEventsResult.fromValue j = some (d.page p) := by
  obtain ⟨items, hitems, hevents⟩ := h.events
  have heventsRead : default? [] (listOf? RawEvent.fromValue) (j.get? "events")
      = some (p.events.map d.rawEvent) := by
    rw [hitems]
    exact mapM_events hevents
  have hlatest : default? 0 asI64? (j.get? "latestLedger") = some p.latestLedger := by
    have hread := asI64?_num h.latestLedger
    rw [h.latestLedger.1] at hread ⊢
    exact hread
  have holdest : optional? asI64? (j.get? "oldestLedger")
      = some (if d.saysOldest then some p.oldestLedger else none) := by
    have htold := h.oldestLedger
    cases hd : d.saysOldest with
    | true =>
        rw [if_pos hd] at htold
        have hread := asI64?_num htold
        rw [htold.1] at hread ⊢
        simp only [optional?, ↓reduceIte, Option.map_eq_some_iff, Option.some.injEq, exists_eq_right]
        exact hread
    | false =>
        rw [if_neg (by rw [hd]; exact Bool.false_ne_true)] at htold
        rw [htold]
        rfl
  rw [GetEventsResult.fromValue, structFields_get? h.object]
  simp only [Option.bind_eq_bind, Option.bind_some, heventsRead, hlatest,
    optional?_text h.cursor, optional?_text h.pagingToken, holdest]
  rfl

/-- A page said in a dialect is read as that page. -/
theorem pageAnswer_responds (serdeError : Json → String) {resp : Json} (h : d.Responds p resp) :
    pageAnswer serdeError (.ok resp) = .ok (d.page p) := by
  obtain ⟨j, hresult, hsays⟩ := h.result
  have hcall : call "getEvents" (.ok resp) = .ok j := by
    simp only [call, bind, Except.bind, h.noError, hresult, Option.getD_some]
  rw [pageAnswer, hcall]
  simp only [bind, Except.bind, fromValue_page hsays]

end Reading

/-! ## Runs over pages that are alike -/

/-- Pages the index makes the same of. -/
structure PageAlike (a b : GetEventsResult) : Prop where
  rows : a.events.map rowOf = b.events.map rowOf
  next : a.next = b.next
  latest : a.latestLedger = b.latestLedger

/-- The same stop, but for how the page in hand was said. -/
inductive PcAlike : Pc → Pc → Prop
  | same (pc : Pc) : PcAlike pc pc
  | insertEvent (v : Locals) {a b : GetEventsResult} {e f : RawEvent} {es fs : List RawEvent} :
      PageAlike a b → (e :: es).map rowOf = (f :: fs).map rowOf →
      PcAlike (.insertEvent v a e es) (.insertEvent v b f fs)
  | setCursor (v : Locals) {a b : GetEventsResult} (c : String) :
      PageAlike a b → PcAlike (.setCursor v a c) (.setCursor v b c)

inductive ReplyAlike : Reply → Reply → Prop
  | same (reply : Reply) : ReplyAlike reply reply
  | range {a b : RangeAnswers} :
      RaizStack.ledgerRange a = RaizStack.ledgerRange b → ReplyAlike (.range a) (.range b)
  | page {a b : GetEventsResult} : PageAlike a b → ReplyAlike (.page (.ok a)) (.page (.ok b))

structure WorldAlike {ι : Type} (w u : World ι) : Prop where
  db : w.db = u.db
  pcs : ∀ i, PcAlike (w.pcs i) (u.pcs i)

section Alike

variable {a b : GetEventsResult} {es fs : List RawEvent} {v : Locals}

theorem PageAlike.lastLedger (h : PageAlike a b) :
    a.events.getLast?.map RawEvent.ledger = b.events.getLast?.map RawEvent.ledger := by
  have hlast : ∀ es : List RawEvent,
      es.getLast?.map RawEvent.ledger = (es.map rowOf).getLast?.map EventRow.ledger := by
    intro es
    rw [List.getLast?_map, Option.map_map]
    rfl
  rw [hlast, hlast, h.rows]

theorem PageAlike.scannedThrough (h : PageAlike a b) :
    RaizStack.scannedThrough a = RaizStack.scannedThrough b := by
  rw [RaizStack.scannedThrough, RaizStack.scannedThrough, h.next, h.lastLedger]

theorem PageAlike.caughtUp (h : PageAlike a b) : RaizStack.caughtUp a = RaizStack.caughtUp b := by
  have hlen : a.events.length = b.events.length := by
    rw [← List.length_map (f := rowOf), h.rows, List.length_map]
  rw [RaizStack.caughtUp, RaizStack.caughtUp, h.next, h.latest, hlen]

theorem PageAlike.afterPage (h : PageAlike a b) (v : Locals) :
    RaizStack.afterPage v a = RaizStack.afterPage v b := by
  rw [RaizStack.afterPage, RaizStack.afterPage, h.caughtUp, h.next]

theorem PageAlike.insertNext (h : PageAlike a b) (v : Locals)
    (hrest : es.map rowOf = fs.map rowOf) :
    PcAlike (RaizStack.insertNext v a es) (RaizStack.insertNext v b fs) := by
  cases es with
  | nil =>
      obtain rfl : fs = [] := List.map_eq_nil_iff.mp hrest.symm
      simp only [RaizStack.insertNext, afterInserts, h.next, h.afterPage v]
      cases b.next with
      | none => exact .same _
      | some c => exact .setCursor v c h
  | cons e es =>
      cases fs with
      | nil => cases hrest
      | cons f fs => exact .insertEvent v h hrest

/-- Stops that are alike ask for the same page, if they ask for one. -/
theorem PcAlike.getEvents_iff {pc qc : Pc} (h : PcAlike pc qc) (v : Locals) :
    qc = .getEvents v ↔ pc = .getEvents v := by
  cases h with
  | same pc => exact Iff.rfl
  | insertEvent v hpage hrest => exact ⟨nofun, nofun⟩
  | setCursor v c hpage => exact ⟨nofun, nofun⟩

theorem PcAlike.returned_iff {pc qc : Pc} (h : PcAlike pc qc) (result : Answer Unit) :
    qc = .returned result ↔ pc = .returned result := by
  cases h with
  | same pc => exact Iff.rfl
  | insertEvent v hpage hrest => exact ⟨nofun, nofun⟩
  | setCursor v c hpage => exact ⟨nofun, nofun⟩

/-- Stops that are alike answer replies that are alike by the same store. -/
theorem resume_alike {cid : String} {db db' : Db} {pc pc' qc : Pc} {r s : Reply}
    (hpc : PcAlike pc qc) (hreply : ReplyAlike r s) (h : resume cid db pc r = some (db', pc')) :
    ∃ qc', resume cid db qc s = some (db', qc') ∧ PcAlike pc' qc' := by
  cases hreply with
  | same r =>
      cases hpc with
      | same pc => exact ⟨pc', h, .same pc'⟩
      | insertEvent v hpage hrest =>
          obtain ⟨hrow, hrest⟩ := List.cons_eq_cons.mp hrest
          cases r with
          | crash =>
              cases h
              exact ⟨_, rfl, .same _⟩
          | dbOk now =>
              cases h
              refine ⟨_, ?_, hpage.insertNext v hrest⟩
              rw [resume, hrow]
          | dbError e =>
              cases h
              exact ⟨_, rfl, .same _⟩
          | begin spec => cases h
          | range a => cases h
          | page answer => cases h
      | setCursor v c hpage =>
          cases r with
          | crash =>
              cases h
              exact ⟨_, rfl, .same _⟩
          | dbOk now =>
              cases h
              refine ⟨_, ?_, .same _⟩
              rw [resume, hpage.scannedThrough, hpage.afterPage v]
          | dbError e =>
              cases h
              exact ⟨_, rfl, .same _⟩
          | begin spec => cases h
          | range a => cases h
          | page answer => cases h
  | range hrange =>
      cases hpc with
      | same pc =>
          refine ⟨pc', ?_, .same pc'⟩
          rw [← h]
          cases pc with
          | resolve spec => simp only [resume, resolve, hrange]
          | _ => rfl
      | insertEvent v hpage hrest => cases h
      | setCursor v c hpage => cases h
  | page hpages =>
      cases hpc with
      | same pc =>
          cases pc with
          | getEvents v =>
              cases h
              exact ⟨_, rfl, hpages.insertNext v hpages.rows⟩
          | _ => cases h
      | insertEvent v hpage hrest => cases h
      | setCursor v c hpage => cases h

end Alike

/-! ## The index over either -/

theorem Dialect.page_alike (d d' : Dialect) (p : PageContent) :
    PageAlike (d.page p) (d'.page p) where
  rows := by
    have hrow : ∀ e : EventContent, rowOf (d.rawEvent e) = rowOf (d'.rawEvent e) := by
      intro e
      have hvalue : ∀ d : Dialect, valueText (d.value e.xdr) = e.xdr := by
        intro d
        rw [Dialect.value]
        cases d.wrapsValue <;> rfl
      rw [rowOf, rowOf, Dialect.rawEvent, Dialect.rawEvent, hvalue d, hvalue d']
    simp only [Dialect.page, List.map_map]
    exact List.map_congr_left fun e _ => hrow e
  next := by
    have hnext : ∀ d : Dialect, (d.page p).next = p.token := by
      intro d
      rw [GetEventsResult.next, Dialect.page]
      cases d.pagingToken with
      | true => exact Option.none_or
      | false => exact Option.or_none
    rw [hnext d, hnext d']
  latest := rfl

/-- Two answers that tell the same: but for a page, which either dialect
may have said. Where the page is asked for its oldest ledger it counts
whether there is one. -/
inductive SaysSame : WireReply → WireReply → Prop
  | same (reply : WireReply) : SaysSame reply reply
  | page {d d' : Dialect} {p : PageContent} {resp resp' : Json} :
      d.Responds p resp → d'.Responds p resp' → SaysSame (.page (.ok resp)) (.page (.ok resp'))
  | range (health latest : Answer Json) {d d' : Dialect} {p : PageContent} {probe probe' : Json} :
      d.saysOldest = d'.saysOldest → d.Responds p probe → d'.Responds p probe' →
      SaysSame (.range health latest (.ok probe)) (.range health latest (.ok probe'))

theorem SaysSame.replyAlike {serdeError : Json → String} {r s : WireReply} (h : SaysSame r s) :
    ReplyAlike (.ofWire serdeError r) (.ofWire serdeError s) := by
  cases h with
  | same reply => exact .same _
  | page hd hd' =>
      rw [Reply.ofWire, Reply.ofWire, pageAnswer_responds serdeError hd,
        pageAnswer_responds serdeError hd']
      exact .page (Dialect.page_alike _ _ _)
  | range health latest hold hd hd' =>
      refine .range ?_
      rw [ledgerRange_ofWire, ledgerRange_ofWire, RpcClient.ledgerRange, RpcClient.ledgerRange,
        pageAnswer_responds serdeError hd, pageAnswer_responds serdeError hd']
      simp only [Dialect.page, hold]
      rfl

variable {ι : Type} [DecidableEq ι]

theorem wireNext_alike {serdeError : Json → String} {cid : ι → String} {w w' u : World ι}
    {a b : ι × WireReply} (hworld : WorldAlike w u) (hact : a.1 = b.1 ∧ SaysSame a.2 b.2)
    (h : w.wireNext serdeError cid a = some w') :
    ∃ u', u.wireNext serdeError cid b = some u' ∧ WorldAlike w' u' := by
  obtain ⟨i, r⟩ := a
  obtain ⟨i', s⟩ := b
  obtain ⟨rfl, hsays⟩ : i = i' ∧ SaysSame r s := hact
  obtain ⟨⟨db', pc'⟩, hres, rfl⟩ := Option.map_eq_some_iff.mp h
  obtain ⟨qc', hres', hpc⟩ := resume_alike (hworld.pcs i) hsays.replyAlike hres
  refine ⟨⟨db', Function.update u.pcs i qc'⟩, ?_, rfl, fun j => ?_⟩
  · simp only [World.wireNext, World.next, ← hworld.db, hres', Option.map_some]
  · change PcAlike (Function.update w.pcs i pc' j) (Function.update u.pcs i qc' j)
    by_cases hj : j = i
    · subst hj
      rw [Function.update_self, Function.update_self]
      exact hpc
    · rw [Function.update_of_ne hj, Function.update_of_ne hj]
      exact hworld.pcs j

/-- **The index does not depend on who speaks which.** In a run where any
of the pages were said otherwise, all goes on: the store is the same,
each tick that waits for a page has asked for the same one, and each
that is done has returned the same. -/
theorem dialects_alike (serdeError : Json → String) (cid : ι → String) (w : World ι)
    {as bs : List (ι × WireReply)}
    (hsame : List.Forall₂ (fun a b => a.1 = b.1 ∧ SaysSame a.2 b.2) as bs) {w' : World ι}
    (h : Lts.exec (World.wireNext serdeError cid) w as = some w') :
    ∃ u, Lts.exec (World.wireNext serdeError cid) w bs = some u ∧ u.db = w'.db ∧
      ∀ i, (∀ v, u.pcs i = .getEvents v ↔ w'.pcs i = .getEvents v) ∧
        ∀ result, u.pcs i = .returned result ↔ w'.pcs i = .returned result := by
  have hrefl : WorldAlike w w := ⟨rfl, fun i => .same _⟩
  have hstep : ∀ (w u : World ι) (a b : ι × WireReply) (w' : World ι), WorldAlike w u →
      a.1 = b.1 ∧ SaysSame a.2 b.2 → w.wireNext serdeError cid a = some w' →
      ∃ u', u.wireNext serdeError cid b = some u' ∧ WorldAlike w' u' :=
    fun _ _ _ _ _ hworld hact hnext => wireNext_alike hworld hact hnext
  obtain ⟨u, hu, halike⟩ := Lts.exec_sim hstep hsame hrefl h
  refine ⟨u, hu, halike.db.symm, fun i => ?_⟩
  exact ⟨(halike.pcs i).getEvents_iff, (halike.pcs i).returned_iff⟩

/-- A page as it is served today, and as an older RPC would have it. -/
def liveResponse : Json :=
  .obj [("jsonrpc", .str "2.0"), ("id", .num "1"), ("result", .obj
    [("events", .arr [.obj [("type", .str "contract"), ("ledger", .num "3820041"),
      ("ledgerClosedAt", .str "2026-07-27T02:18:13Z"), ("contractId", .str "CA"),
      ("id", .str "0016406951164395520-0000000000"), ("operationIndex", .num "0"),
      ("txHash", .str "846e21ff"), ("inSuccessfulContractCall", .bool true),
      ("topic", .arr [.str "AAAADwAAAAVtZXJnZQAAAA=="]), ("value", .str "AAAAAQ==")]]),
    ("cursor", .str "0016449724743679999-4294967295"), ("latestLedger", .num "3940684"),
    ("oldestLedger", .num "3819725")])]

def olderResponse : Json :=
  .obj [("jsonrpc", .str "2.0"), ("id", .num "1"), ("result", .obj
    [("latestLedger", .num "3940684"), ("oldestLedger", .num "3819725"),
    ("events", .arr [.obj [("type", .str "contract"), ("ledger", .num "3820041"),
      ("ledgerClosedAt", .str "2026-07-27T02:18:13Z"), ("contractId", .str "CA"),
      ("id", .str "0016406951164395520-0000000000"), ("txHash", .str "846e21ff"),
      ("topic", .arr [.str "AAAADwAAAAVtZXJnZQAAAA=="]),
      ("value", .obj [("xdr", .str "AAAAAQ==")])]]),
    ("pagingToken", .str "0016449724743679999-4294967295")])]

def livePage : PageContent where
  events := [{
    id := "0016406951164395520-0000000000", contractId := "CA", ledger := 3820041
    txHash := some "846e21ff", topic := ["AAAADwAAAAVtZXJnZQAAAA=="], xdr := "AAAAAQ=="
    ledgerClosedAt := some "2026-07-27T02:18:13Z", success := true }]
  latestLedger := 3940684
  token := some "0016449724743679999-4294967295"
  oldestLedger := 3819725

def liveDialect : Dialect :=
  { wrapsValue := false, saysSuccess := true, pagingToken := false, saysOldest := true }

def olderDialect : Dialect :=
  { wrapsValue := true, saysSuccess := false, pagingToken := true, saysOldest := true }

theorem livePage_said : liveDialect.Responds livePage liveResponse where
  noError := rfl
  result := ⟨_, rfl, {
    object := ⟨_, rfl⟩
    events := ⟨_, rfl, .cons {
      object := ⟨_, rfl⟩, id := rfl, contractId := rfl, ledger := ⟨rfl, by decide, by decide⟩
      txHash := rfl, topic := rfl, value := rfl, ledgerClosedAt := rfl, success := rfl
      successful := fun _ => rfl } .nil⟩
    latestLedger := ⟨rfl, by decide, by decide⟩
    cursor := rfl, pagingToken := .inl rfl, oldestLedger := ⟨rfl, by decide, by decide⟩ }⟩

theorem livePage_said_older : olderDialect.Responds livePage olderResponse where
  noError := rfl
  result := ⟨_, rfl, {
    object := ⟨_, rfl⟩
    events := ⟨_, rfl, .cons {
      object := ⟨_, rfl⟩, id := rfl, contractId := rfl, ledger := ⟨rfl, by decide, by decide⟩
      txHash := rfl, topic := rfl, value := rfl, ledgerClosedAt := rfl, success := rfl
      successful := fun _ => rfl } .nil⟩
    latestLedger := ⟨rfl, by decide, by decide⟩
    cursor := .inl rfl, pagingToken := rfl, oldestLedger := ⟨rfl, by decide, by decide⟩ }⟩

/-- A first tick up to its second page, without `getHealth`. -/
def firstPageActs (resp : Json) : List (Unit × WireReply) :=
  [((), .begin .oldest), ((), .dbOk ""),
    ((), .range (.error "timed out")
      (.ok (.obj [("result", .obj [("sequence", .num "3940684")])])) (.ok resp)),
    ((), .dbOk ""), ((), .page (.ok resp)), ((), .dbOk ""), ((), .dbOk "")]

/-- The two make the same row of it, and ask for the same page next. -/
theorem dialects_alike_live : ∃ w u : World Unit,
    Lts.exec (World.wireNext (fun _ => "") fun _ => "CA") (World.fresh Unit)
        (firstPageActs liveResponse) = some w ∧
      Lts.exec (World.wireNext (fun _ => "") fun _ => "CA") (World.fresh Unit)
        (firstPageActs olderResponse) = some u ∧
      w.db.events.rows.length = 1 ∧ u.db = w.db ∧
      u.pcs () = .getEvents ⟨some 3819725, some "0016449724743679999-4294967295", 0⟩ := by
  have hsame : List.Forall₂ (fun a b : Unit × WireReply => a.1 = b.1 ∧ SaysSame a.2 b.2)
      (firstPageActs liveResponse) (firstPageActs olderResponse) :=
    .cons ⟨rfl, .same _⟩ <| .cons ⟨rfl, .same _⟩ <|
      .cons ⟨rfl, @SaysSame.range _ _ liveDialect olderDialect livePage _ _ rfl livePage_said
        livePage_said_older⟩ <|
      .cons ⟨rfl, .same _⟩ <| .cons ⟨rfl, .page livePage_said livePage_said_older⟩ <|
      .cons ⟨rfl, .same _⟩ <| .cons ⟨rfl, .same _⟩ .nil
  obtain ⟨u, hu, hdb, hpcs⟩ := dialects_alike (fun _ => "") (fun _ => "CA") (World.fresh Unit)
    hsame rfl
  exact ⟨_, u, rfl, hu, rfl, hdb, ((hpcs ()).1 _).mpr rfl⟩

end RaizStack
