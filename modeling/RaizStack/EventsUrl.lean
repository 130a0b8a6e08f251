import RaizStack.FormUrl
import RaizStack.ProverBridge
import RaizStack.ScValCodec
import RaizStack.ShimFetch

/-!
# A query as text

What the app's client and the shim write into the URL of an `/events`
request, what the bridge forwards of it, and what the handler's
extractor reads. The extractor takes its five fields in any order, each
at most once, and skips names it does not know; `ofPairs_eq_ok_iff` says
that in one line a field and the rest is computing with it.
-/

namespace RaizStack

open EventsClient
open XdrReader (utf8Text)
open XdrVal (utf8)

/-! ## Writing -/

/-- A text as the form encoding takes it. -/
def formPair (p : String × String) : FormUrl.Pair :=
  (utf8 p.1, utf8 p.2)

/-- The pairs, encoded and joined with `&`. -/
def queryString (params : List (String × String)) : String :=
  String.ofList (FormUrl.serialize (params.map formPair))

/-- `EventsClient.buildUrl`. -/
def buildUrl (baseUrl path : String) (params : List (String × String)) : String :=
  let base := String.ofList (trimEndSlash baseUrl.toList)
  let query := queryString params
  if query = "" then base ++ path else base ++ path ++ "?" ++ query

def EventSource.endpoint (src : EventSource) (path : String) (params : List (String × String)) :
    String :=
  buildUrl src.baseUrl path params

/-- The parameters `EventsClient.events` collects. -/
def eventsParams (contractId : String) (limit : Int) (cursor : Option String)
    (startLedger : Option Int) (src : EventSource) : List (String × String) :=
  [("contractId", contractId)]
    ++ (match cursor with
        | some c => [("cursor", c)]
        | none => (startLedger.map fun l => ("startLedger", toString l)).toList)
    ++ [("limit", toString (min (max limit 1) maxPageSize))]
    ++ (src.sourceParam.map fun s => ("source", s)).toList

/-- The search parameters one request of `fetchEventsFromUrl` sets. -/
def searchParams (contractId : String) (startLedger : Option Int) (source : Option String)
    (pageLimit : Nat) (cursor : Option String) : List (String × String) :=
  [("contractId", contractId)]
    ++ (match nonEmpty cursor with
        | some c => [("cursor", c)]
        | none => (startLedger.map fun l => ("startLedger", toString l)).toList)
    ++ [("limit", toString (pageLimit : Int))]
    ++ ((nonEmpty source).map fun s => ("source", s)).toList

/-- The same request where the page's own origin stands for the indexer:
what `new URL("events", EVENTS_PROXY_URL)` has below the proxy's path. -/
def proxyRequest (params : List (String × String)) : ProxyRequest :=
  { tail := "events", encodedQuery := some (queryString params) }

/-! ## Reading -/

/-- What the extractor refuses a query for. -/
inductive QueryError where
  | missingField (name : String)
  | duplicateField (name : String)
  | invalidInteger (text : String)
  deriving DecidableEq, Repr

/-- The fields seen so far. -/
structure QueryFields where
  contractId : Option String
  startLedger : Option Int
  cursor : Option String
  limit : Option Int
  source : Option String

def QueryFields.none : QueryFields :=
  { contractId := .none, startLedger := .none, cursor := .none, limit := .none, source := .none }

/-- A field is read when its name comes for the first time. -/
def readField {α : Type} (name : String) (read : String → Except QueryError α) (old : Option α)
    (text : String) : Except QueryError (Option α) :=
  match old with
  | some _ => .error (.duplicateField name)
  | none => (read text).map some

def readText (text : String) : Except QueryError String :=
  .ok text

def readI64 (text : String) : Except QueryError Int :=
  match Text.parseI64 text.toList with
  | some n => .ok n
  | none => .error (.invalidInteger text)

/-- One pair. Names that are no field are skipped. -/
def QueryFields.visit (f : QueryFields) (p : String × String) : Except QueryError QueryFields :=
  if p.1 = "contractId" then do
    .ok { f with contractId := ← readField p.1 readText f.contractId p.2 }
  else if p.1 = "startLedger" then do
    .ok { f with startLedger := ← readField p.1 readI64 f.startLedger p.2 }
  else if p.1 = "cursor" then do
    .ok { f with cursor := ← readField p.1 readText f.cursor p.2 }
  else if p.1 = "limit" then do
    .ok { f with limit := ← readField p.1 readI64 f.limit p.2 }
  else if p.1 = "source" then do
    .ok { f with source := ← readField p.1 readText f.source p.2 }
  else .ok f

/-- The deserializer of `EventsQuery`. -/
def EventsQuery.ofPairs (pairs : List (String × String)) : Except QueryError EventsQuery := do
  let f ← pairs.foldlM QueryFields.visit .none
  match f.contractId with
  | none => .error (.missingField "contractId")
  | some contractId =>
      .ok
        { contractId := contractId
          startLedger := f.startLedger
          cursor := f.cursor
          limit := f.limit
          source := f.source }

/-- `Query<EventsQuery>`. Bytes that are not UTF-8 become `lossy`. -/
def EventsQuery.ofQuery (lossy : List UInt8 → String) (query : String) :
    Except QueryError EventsQuery :=
  EventsQuery.ofPairs ((FormUrl.parse query.toList).map fun p =>
    (utf8Text lossy p.1, utf8Text lossy p.2))

/-- The query of a URL: from the first `?` up to a `#`. -/
def urlQuery (url : String) : Option String :=
  (Text.cut ['?'] (Text.cut ['#'] url.toList).1).2.map String.ofList

/-! ## What the extractor accepts -/

section Fields

variable {α : Type} {name : String} {read : String → Except QueryError α} {old new : Option α}
  {p : String × String} {ps : List (String × String)}

/-- The texts given under a name. -/
def valuesOf (name : String) (ps : List (String × String)) : List String :=
  (ps.filter fun p => p.1 = name).map Prod.snd

/-- The texts given under a name, after what was read before, make `new`:
at most one, and it reads. -/
def Given (name : String) (read : String → Except QueryError α) (old : Option α)
    (ps : List (String × String)) (new : Option α) : Prop :=
  old.toList.map Except.ok ++ (valuesOf name ps).map read
    = (new.toList.map Except.ok : List (Except QueryError α))

theorem given_nil : Given name read old [] new ↔ old = new := by
  cases old <;> cases new <;> simp [Given, valuesOf]

/-- What one pair does to one field. -/
def stepField (name : String) (read : String → Except QueryError α) (old : Option α)
    (p : String × String) : Except QueryError (Option α) :=
  if p.1 = name then readField name read old p.2 else .ok old

/-- One more text makes the field, or is one too many; a pair of another
name is neither. -/
theorem given_cons : Given name read old (p :: ps) new
    ↔ ∃ mid, stepField name read old p = .ok mid ∧ Given name read mid ps new := by
  by_cases hname : p.1 = name
  · rw [Given, valuesOf, List.filter_cons_of_pos (by simpa using hname), List.map_cons,
      List.map_cons, stepField, if_pos hname]
    cases old with
    | some a =>
        refine iff_of_false (fun heq => ?_) ?_
        · have hlen := congrArg List.length heq
          cases new <;> simp at hlen
        · rintro ⟨mid, hmid, -⟩
          cases hmid
    | none =>
        rw [readField]
        cases hread : read p.2 with
        | error e =>
            refine iff_of_false (fun heq => ?_) ?_
            · cases new <;> simp at heq
            · rintro ⟨mid, hmid, -⟩
              cases hmid
        | ok a =>
            constructor
            · exact fun heq => ⟨some a, rfl, heq⟩
            · rintro ⟨mid, hmid, hgiven⟩
              cases hmid
              exact hgiven
  · rw [Given, valuesOf, List.filter_cons_of_neg (by simpa using hname), stepField, if_neg hname]
    constructor
    · exact fun hgiven => ⟨old, rfl, hgiven⟩
    · rintro ⟨mid, hmid, hgiven⟩
      cases hmid
      exact hgiven

end Fields

/-- What the five fields are after some pairs. -/
structure FieldsGiven (f : QueryFields) (ps : List (String × String)) (f' : QueryFields) : Prop where
  contractId : Given "contractId" readText f.contractId ps f'.contractId
  startLedger : Given "startLedger" readI64 f.startLedger ps f'.startLedger
  cursor : Given "cursor" readText f.cursor ps f'.cursor
  limit : Given "limit" readI64 f.limit ps f'.limit
  source : Given "source" readText f.source ps f'.source

theorem FieldsGiven.nil {f f' : QueryFields} : FieldsGiven f [] f' ↔ f = f' := by
  constructor
  · rintro ⟨h₁, h₂, h₃, h₄, h₅⟩
    rw [given_nil] at h₁ h₂ h₃ h₄ h₅
    cases f
    cases f'
    simp_all
  · rintro rfl
    exact ⟨given_nil.mpr rfl, given_nil.mpr rfl, given_nil.mpr rfl, given_nil.mpr rfl,
      given_nil.mpr rfl⟩

/-- A visit is one step of each field. -/
theorem QueryFields.visit_eq_ok {f f' : QueryFields} {p : String × String} :
    f.visit p = .ok f' ↔ stepField "contractId" readText f.contractId p = .ok f'.contractId
      ∧ stepField "startLedger" readI64 f.startLedger p = .ok f'.startLedger
      ∧ stepField "cursor" readText f.cursor p = .ok f'.cursor
      ∧ stepField "limit" readI64 f.limit p = .ok f'.limit
      ∧ stepField "source" readText f.source p = .ok f'.source := by
  obtain ⟨name, text⟩ := p
  obtain ⟨c, l, cur, lim, s⟩ := f
  obtain ⟨c', l', cur', lim', s'⟩ := f'
  simp only [QueryFields.visit, stepField]
  by_cases h₁ : name = "contractId"
  · subst h₁
    simp [Fallible.bind_eq_ok]
  by_cases h₂ : name = "startLedger"
  · subst h₂
    simp [Fallible.bind_eq_ok]
    tauto
  by_cases h₃ : name = "cursor"
  · subst h₃
    simp [Fallible.bind_eq_ok]
    tauto
  by_cases h₄ : name = "limit"
  · subst h₄
    simp [Fallible.bind_eq_ok]
    tauto
  by_cases h₅ : name = "source"
  · subst h₅
    simp [Fallible.bind_eq_ok]
    tauto
  simp [h₁, h₂, h₃, h₄, h₅]

/-- A pair is a visit. -/
theorem FieldsGiven.cons {f f' : QueryFields} {p : String × String} {ps : List (String × String)} :
    FieldsGiven f (p :: ps) f' ↔ ∃ f₁, f.visit p = .ok f₁ ∧ FieldsGiven f₁ ps f' := by
  constructor
  · rintro ⟨hc, hl, hcur, hlim, hs⟩
    obtain ⟨c, hc₁, hc⟩ := given_cons.mp hc
    obtain ⟨l, hl₁, hl⟩ := given_cons.mp hl
    obtain ⟨cur, hcur₁, hcur⟩ := given_cons.mp hcur
    obtain ⟨lim, hlim₁, hlim⟩ := given_cons.mp hlim
    obtain ⟨s, hs₁, hs⟩ := given_cons.mp hs
    exact ⟨⟨c, l, cur, lim, s⟩, QueryFields.visit_eq_ok.mpr ⟨hc₁, hl₁, hcur₁, hlim₁, hs₁⟩,
      hc, hl, hcur, hlim, hs⟩
  · rintro ⟨f₁, hf₁, h⟩
    obtain ⟨hc, hl, hcur, hlim, hs⟩ := QueryFields.visit_eq_ok.mp hf₁
    exact
      { contractId := given_cons.mpr ⟨_, hc, h.contractId⟩
        startLedger := given_cons.mpr ⟨_, hl, h.startLedger⟩
        cursor := given_cons.mpr ⟨_, hcur, h.cursor⟩
        limit := given_cons.mpr ⟨_, hlim, h.limit⟩
        source := given_cons.mpr ⟨_, hs, h.source⟩ }

theorem foldlM_visit_iff {ps : List (String × String)} {f f' : QueryFields} :
    ps.foldlM QueryFields.visit f = .ok f' ↔ FieldsGiven f ps f' := by
  induction ps generalizing f with
  | nil =>
      rw [List.foldlM_nil, FieldsGiven.nil]
      exact ⟨fun h => Except.ok.inj h, fun h => congrArg Except.ok h⟩
  | cons p ps ih =>
      rw [List.foldlM_cons, Fallible.bind_eq_ok, FieldsGiven.cons]
      exact exists_congr fun f₁ => and_congr_right fun _ => ih

/-- **What the extractor accepts.** A query is read exactly when the contract
is given once, each other field at most once, and the integers among them
read. Neither the order of the pairs matters nor what names there are
besides. -/
theorem EventsQuery.ofPairs_eq_ok_iff {ps : List (String × String)} {q : EventsQuery} :
    EventsQuery.ofPairs ps = .ok q ↔
      Given "contractId" readText none ps (some q.contractId)
        ∧ Given "startLedger" readI64 none ps q.startLedger
        ∧ Given "cursor" readText none ps q.cursor
        ∧ Given "limit" readI64 none ps q.limit
        ∧ Given "source" readText none ps q.source := by
  rw [EventsQuery.ofPairs, Fallible.bind_eq_ok]
  constructor
  · rintro ⟨⟨_ | c, l, cur, lim, s⟩, hf, hq⟩
    · cases hq
    · cases hq
      obtain ⟨hc, hl, hcur, hlim, hs⟩ := foldlM_visit_iff.mp hf
      exact ⟨hc, hl, hcur, hlim, hs⟩
  · rintro ⟨hc, hl, hcur, hlim, hs⟩
    exact ⟨⟨some q.contractId, q.startLedger, q.cursor, q.limit, q.source⟩,
      foldlM_visit_iff.mpr ⟨hc, hl, hcur, hlim, hs⟩, rfl⟩

/-! ## From the URL to the query -/

section Url

variable {lossy : List UInt8 → String} {src : EventSource}

theorem EventsQuery.ofQuery_queryString (params : List (String × String)) :
    EventsQuery.ofQuery lossy (queryString params) = EventsQuery.ofPairs params := by
  have hpair : ∀ p : String × String,
      (utf8Text lossy (formPair p).1, utf8Text lossy (formPair p).2) = p := fun p =>
    Prod.ext (utf8Text_utf8 lossy p.1) (utf8Text_utf8 lossy p.2)
  rw [EventsQuery.ofQuery, queryString, String.toList_ofList, FormUrl.parse_serialize,
    List.map_map]
  exact congrArg EventsQuery.ofPairs (List.map_id'' hpair params)

/-- The text of a query neither begins another one nor a fragment. -/
theorem urlQuery_append {front : String} (hask : '?' ∉ front.toList) (hhash : '#' ∉ front.toList)
    (params : List (String × String)) :
    urlQuery (front ++ "?" ++ queryString params) = some (queryString params) := by
  have hwhole : (front ++ "?" ++ queryString params).toList
      = front.toList ++ '?' :: (queryString params).toList := by
    simp
  have hquery : (queryString params).toList = FormUrl.serialize (params.map formPair) := by
    rw [queryString, String.toList_ofList]
  have hnohash : '#' ∉ FormUrl.serialize (params.map formPair) := FormUrl.not_mem_serialize.2
  have hbare : Text.cut ['#'] (front.toList ++ '?' :: (queryString params).toList)
      = (front.toList ++ '?' :: (queryString params).toList, none) := by
    refine Text.cut_of_not_mem ?_
    rw [List.mem_append, List.mem_cons, hquery]
    rintro (h | h | h)
    · exact hhash h
    · exact absurd h (by decide)
    · exact hnohash h
  rw [urlQuery, hwhole, hbare, Text.cut_append hask, Option.map_some, String.ofList_toList]

/-- The base URL of a source, when it is one without a query of its own. -/
structure PlainBase (baseUrl : String) : Prop where
  ask : '?' ∉ baseUrl.toList
  hash : '#' ∉ baseUrl.toList

theorem not_mem_trimEndSlash {c : Char} {s : List Char} (h : c ∉ s) : c ∉ trimEndSlash s :=
  fun hc => h ((s.rdropWhile_prefix (· == '/')).sublist.subset hc)

theorem endpoint_eq {src : EventSource} {params : List (String × String)} (hne : params ≠ []) :
    src.endpoint "/events" params
      = String.ofList (trimEndSlash src.baseUrl.toList) ++ "/events" ++ "?" ++ queryString params := by
  have hquery : queryString params ≠ "" := by
    intro h
    have hempty := congrArg String.toList h
    rw [queryString, String.toList_ofList] at hempty
    cases params with
    | nil => exact hne rfl
    | cons p ps => cases ps <;> simp [FormUrl.serialize, FormUrl.serializePair] at hempty
  rw [EventSource.endpoint, buildUrl]
  exact if_neg hquery

theorem urlQuery_endpoint {src : EventSource} (hbase : PlainBase src.baseUrl)
    {params : List (String × String)} (hne : params ≠ []) :
    urlQuery (src.endpoint "/events" params) = some (queryString params) := by
  rw [endpoint_eq hne]
  have hfront : (String.ofList (trimEndSlash src.baseUrl.toList) ++ "/events").toList
      = trimEndSlash src.baseUrl.toList ++ "/events".toList := by
    simp
  refine urlQuery_append ?_ ?_ params
  · rw [hfront, List.mem_append]
    rintro (h | h)
    · exact not_mem_trimEndSlash hbase.ask h
    · exact absurd h (by decide)
  · rw [hfront, List.mem_append]
    rintro (h | h)
    · exact not_mem_trimEndSlash hbase.hash h
    · exact absurd h (by decide)

/-! ## The two clients -/

theorem readI64_repr {n : Int} (h : IsI64 n) : readI64 n.repr = .ok n := by
  have hparse : Text.parseI64 n.repr.toList = some n := Text.parseI64_toString h.1 h.2
  rw [readI64, hparse]

theorem limit_isI64 (limit : Int) : IsI64 (min (max limit 1) maxPageSize) := by
  unfold IsI64 maxPageSize
  omega

/-- What the client writes is the query it means. -/
theorem ofPairs_eventsParams (contractId : String) (limit : Int) (cursor : Option String)
    {startLedger : Option Int} (hstart : ∀ l, startLedger = some l → IsI64 l) (src : EventSource) :
    EventsQuery.ofPairs (eventsParams contractId limit cursor startLedger src)
      = .ok (queryOf contractId limit cursor startLedger src) := by
  have hlimit := readI64_repr (limit_isI64 limit)
  unfold eventsParams
  rw [EventsQuery.ofPairs_eq_ok_iff, queryOf]
  cases cursor with
  | some c => cases src.sourceParam <;> simp [Given, valuesOf, readText, hlimit]
  | none =>
      cases startLedger with
      | none => cases src.sourceParam <;> simp [Given, valuesOf, readText, hlimit]
      | some l =>
          have hl := readI64_repr (hstart l rfl)
          cases src.sourceParam <;> simp [Given, valuesOf, readText, hlimit, hl]

theorem endpoint_read (hbase : PlainBase src.baseUrl) {params : List (String × String)}
    (hne : params ≠ []) :
    (urlQuery (src.endpoint "/events" params)).map (EventsQuery.ofQuery lossy)
      = some (EventsQuery.ofPairs params) := by
  rw [urlQuery_endpoint hbase hne, Option.map_some, EventsQuery.ofQuery_queryString]

/-- **What the client asks is what the index reads.** The URL of a page, for
any contract, page size, cursor and start ledger, whatever characters they
are made of, is read as the query the client meant. -/
theorem client_asks (hbase : PlainBase src.baseUrl) (contractId : String) (limit : Int)
    (cursor : Option String) {startLedger : Option Int}
    (hstart : ∀ l, startLedger = some l → IsI64 l) :
    (urlQuery (src.endpoint "/events" (eventsParams contractId limit cursor startLedger src))).map
        (EventsQuery.ofQuery lossy)
      = some (.ok (queryOf contractId limit cursor startLedger src)) := by
  have hne : eventsParams contractId limit cursor startLedger src ≠ [] := by
    simp [eventsParams]
  rw [endpoint_read hbase hne, ofPairs_eventsParams contractId limit cursor hstart]

/-- The source that forgets, on a server of the local network. -/
def lanSource : EventSource :=
  EventSource.rpcSimulation "http://192.168.1.20:8091/"

theorem lanSource_plain : PlainBase lanSource.baseUrl :=
  ⟨by decide, by decide⟩

theorem client_asks_lan :
    (urlQuery (lanSource.endpoint "/events"
        (eventsParams "C&A" 200 none (some 12) lanSource))).map
        (EventsQuery.ofQuery fun _ => "")
      = some (.ok (queryOf "C&A" 200 none (some 12) lanSource)) :=
  client_asks lanSource_plain "C&A" 200 none fun l hl => by
    cases hl
    exact ⟨by decide, by decide⟩

theorem nonEmpty_of_ne {o : Option String} (h : o ≠ some "") : nonEmpty o = o := by
  cases o with
  | none => rfl
  | some s => simpa [nonEmpty] using h

theorem searchParams_eq {contractId : String} {cursor : Option String} {startLedger : Option Int}
    (hsource : src.sourceParam ≠ some "") (hcursor : cursor ≠ some "") :
    searchParams contractId startLedger src.sourceParam fetchPageLimit cursor
      = eventsParams contractId fetchPageLimit cursor startLedger src := by
  unfold searchParams eventsParams
  rw [nonEmpty_of_ne hsource, nonEmpty_of_ne hcursor]
  rfl

/-- **The two clients ask alike.** What the bridge forwards for a request of
the shim is the URL the app's own client builds for that page, and the index
reads from it the query that the shim's loop meant. -/
theorem clients_ask_alike (hbase : PlainBase src.baseUrl) (contractId : String)
    {cursor : Option String} {startLedger : Option Int} (hsource : src.sourceParam ≠ some "")
    (hcursor : cursor ≠ some "") (hstart : ∀ l, startLedger = some l → IsI64 l) :
    ∃ url, proxyEvents (some src.baseUrl)
          (proxyRequest (searchParams contractId startLedger src.sourceParam fetchPageLimit cursor))
        = .fetched url
      ∧ src.endpoint "/events" (eventsParams contractId fetchPageLimit cursor startLedger src) = url
      ∧ (urlQuery url).map (EventsQuery.ofQuery lossy)
        = some (.ok (fetchQuery contractId startLedger src.sourceParam fetchPageLimit cursor)) := by
  have hne : eventsParams contractId fetchPageLimit cursor startLedger src ≠ [] := by
    simp [eventsParams]
  refine ⟨_, ?_, rfl, ?_⟩
  · rw [searchParams_eq hsource hcursor, endpoint_eq hne]
    refine congrArg ProxyReply.fetched ?_
    have hpath : ∀ front query : String,
        front ++ "/" ++ "events" ++ ("?" ++ query) = front ++ "/events" ++ "?" ++ query := by
      intro front query
      have hevents : "/" ++ "events" = "/events" := by decide
      rw [@String.append_assoc front "/" "events", hevents, String.append_assoc,
        String.append_assoc, String.append_assoc]
    exact hpath _ _
  · rw [endpoint_read hbase hne, ofPairs_eventsParams contractId fetchPageLimit cursor hstart,
      queryOf, fetchQuery, nonEmpty_of_ne hsource]
    rfl

theorem clients_ask_alike_lan :
    ∃ url, proxyEvents (some lanSource.baseUrl)
          (proxyRequest (searchParams "C" (some 12) lanSource.sourceParam fetchPageLimit
            (some "0000000001-01")))
        = .fetched url
      ∧ lanSource.endpoint "/events"
          (eventsParams "C" fetchPageLimit (some "0000000001-01") (some 12) lanSource) = url
      ∧ (urlQuery url).map (EventsQuery.ofQuery fun _ => "")
        = some (.ok (fetchQuery "C" (some 12) lanSource.sourceParam fetchPageLimit
            (some "0000000001-01"))) :=
  clients_ask_alike lanSource_plain "C" (by decide) (by decide) fun l hl => by
    cases hl
    exact ⟨by decide, by decide⟩

end Url

end RaizStack
