import RaizStack.MemEvents
import RaizStack.MemToken
import RaizStack.ShimEvents

/-!
# The shim's events loop

`fetchEventsFromUrl` follows the cursor of `/events` to the end, in pages
of 200, and throws rather than stop early: after 501 full pages, on an
answer that is no JSON or carries an error, on a row it cannot decode.
The store it reads is being written to meanwhile, so the `k`-th request
meets a store of its own. What the loop returns is all that is wanted of
the store its last request met.

The position of the loop is that of any walk (`Position.page`); this file
adds the ends of the loop and what the rows decode to.
-/

namespace RaizStack

open EventsClient

variable {C : Type}

/-! ## One answer -/

/-- The JSON of an answer, as far as the loop reads it. -/
structure FetchedPage where
  error : Option String
  latestLedger : Option Int
  oldestLedger : Option Int
  events : Option (List EventJson)
  cursor : Option String

/-- What `fetch` resolves to: the status, the text of the body and what
`JSON.parse` makes of it. -/
structure FetchAnswer where
  status : Nat
  body : String
  page : Option FetchedPage

/-- `resp.ok`. -/
def FetchAnswer.ok (a : FetchAnswer) : Bool :=
  decide (200 ≤ a.status ∧ a.status < 300)

/-- `body.slice(0, 200)`. -/
def bodyStart (body : String) : String :=
  String.ofList (Text.takeUnits 200 body.toList)

/-- The page in an answer. The error in the body counts whatever the
status is. -/
def readPage (href : String) (answer : Except String FetchAnswer) : Except String FetchedPage := do
  let resp ← answer
  match resp.page with
  | none =>
      .error ("events source " ++ href ++ " -> HTTP " ++ toString resp.status
        ++ ", non-JSON body: " ++ bodyStart resp.body)
  | some page =>
      if !resp.ok || (nonEmpty page.error).isSome then
        .error ("events source " ++ href ++ " -> HTTP " ++ toString resp.status ++ ": "
          ++ page.error.getD (bodyStart resp.body))
      else .ok page

/-! ## The loop -/

structure FetchResult (C : Type) where
  events : List (ConfidentialEvent C)
  latestLedger : Int
  oldestLedger : Option Int
  pages : Nat
  rows : Nat

def FetchResult.empty : FetchResult C :=
  { events := [], latestLedger := 0, oldestLedger := none, pages := 0, rows := 0 }

/-- What one page adds. -/
def FetchResult.add (got : FetchResult C) (page : FetchedPage)
    (events : List (ConfidentialEvent C)) : FetchResult C :=
  { events := got.events ++ events
    latestLedger := page.latestLedger.getD got.latestLedger
    oldestLedger := page.oldestLedger.or got.oldestLedger
    pages := got.pages + 1
    rows := got.rows + (page.events.getD []).length }

/-- The loop. `left` is how many pages may still be asked for; `ask` is
told how many came before. -/
def fetchPages (dec : EventDecoder C) (base : String) (pageLimit : Nat)
    (ask : Nat → Option String → Except String FetchedPage) :
    (left : Nat) → (cursor : Option String) → FetchResult C → Except String (FetchResult C)
  | 0, _, _ => .error ("events source " ++ base ++ " did not terminate after 500 pages")
  | left + 1, cursor, got => do
      let page ← ask got.pages cursor
      let events ← parseRows dec (page.events.getD [])
      if (page.events.getD []).length < pageLimit ∨ nonEmpty page.cursor = none
          ∨ page.cursor = cursor then
        .ok (got.add page events)
      else fetchPages dec base pageLimit ask left page.cursor (got.add page events)

/-- `baseUrl.replace(/\/?$/, "/")`. -/
def slashed (baseUrl : String) : String :=
  if baseUrl.toList.getLast? = some '/' then baseUrl else baseUrl ++ "/"

/-- The query of one request. The start ledger is left out once there is a
cursor. -/
def fetchQuery (contractId : String) (startLedger : Option Int) (source : Option String)
    (pageLimit : Nat) (cursor : Option String) : EventsQuery :=
  { contractId := contractId
    startLedger := if cursor = none then startLedger else none
    cursor := cursor
    limit := some pageLimit
    source := nonEmpty source }

def fetchPageLimit : Nat := 200

/-- `pages > 500` throws, so one page more than that may come. -/
def fetchMaxPages : Nat := 501

/-- `fetchEventsFromUrl`. The `k`-th request is answered by `fetch k`. -/
def fetchEventsFromUrl (dec : EventDecoder C) (href : String → EventsQuery → String)
    (fetch : Nat → EventsQuery → Except String FetchAnswer) (baseUrl contractId : String)
    (startLedger : Option Int) (source : Option String) : Except String (FetchResult C) :=
  fetchPages dec (slashed baseUrl) fetchPageLimit
    (fun k cursor =>
      let q := fetchQuery contractId startLedger source fetchPageLimit cursor
      readPage (href (slashed baseUrl) q) (fetch k q))
    fetchMaxPages none .empty

/-- What `goalTotal` keeps of it. -/
def FetchResult.read (r : FetchResult C) : EventsRead C :=
  { events := r.events, latestLedger := r.latestLedger, oldestLedger := r.oldestLedger }

/-! ## Answered by the index -/

/-- A body of `/events`, read by the loop. -/
def EventsBody.fetched (b : EventsBody) : FetchedPage :=
  { error := none
    latestLedger := some b.latestLedger
    oldestLedger := b.oldestLedger
    events := some b.events
    cursor := b.cursor }

/-- Whatever else happens to a request, a page that is read is the
handler's answer over the store the request met. -/
def PagesOf (parse : String → Option Json) (sim : Option Int) (stores : Nat → Db)
    (fetch : Nat → EventsQuery → Except String FetchAnswer) : Prop :=
  ∀ k q href page, readPage href (fetch k q) = .ok page →
    page = (q.answer parse sim (stores k)).fetched

/-- The wanted rows, oldest first. -/
def Db.wanted (db : Db) (q : EventsQuery) : List EventRow :=
  Keyset.orderBy EventRow.id
    (db.events.rows.filter fun r => r.contractId = q.contractId ∧ q.startLedger.getD 0 ≤ r.ledger)

variable {q : EventsQuery} {sim : Option Int} {db db' : Db} {r : EventRow}
  {parse : String → Option Json} {dec : EventDecoder C} {cursor : Option String}
  {seen : List EventRow}

theorem mem_wanted : r ∈ db.wanted q ↔ Wanted q db r := by
  rw [Db.wanted, Keyset.mem_orderBy, List.mem_filter, decide_eq_true_eq]
  exact Iff.rfl

theorem wanted_strict : (db.wanted q).Pairwise fun a b => a.id < b.id :=
  Keyset.orderBy_strict (nodup_filter_ids _ _)

/-- Rows in order that are the wanted ones are the wanted list. -/
theorem eq_wanted (hstrict : seen.Pairwise fun a b => a.id < b.id)
    (hsound : ∀ r ∈ seen, Wanted q db r) (hall : ∀ r, Wanted q db r → r ∈ seen) :
    seen = db.wanted q :=
  Keyset.eq_of_mem_iff hstrict wanted_strict fun r =>
    ⟨fun hr => mem_wanted.mpr (hsound r hr), fun hr => hall r (mem_wanted.mp hr)⟩

/-! ## Rows and events -/

theorem parseRows_append {rows rows' : List EventJson} {events events' : List (ConfidentialEvent C)}
    (h : parseRows dec rows = .ok events) (h' : parseRows dec rows' = .ok events') :
    parseRows dec (rows ++ rows') = .ok (events ++ events') := by
  obtain ⟨os, hos, rfl⟩ := Fallible.map_eq_ok.mp h
  obtain ⟨os', hos', rfl⟩ := Fallible.map_eq_ok.mp h'
  rw [parseRows, Fallible.mapM_append_eq_ok hos hos', Except.map, List.reduceOption_append]

theorem exists_parseRows {rows : List EventJson}
    (h : ∀ row ∈ rows, ∃ o, parseRawEvent dec row = .ok o) :
    ∃ events, parseRows dec rows = .ok events := by
  obtain ⟨os, hos⟩ := Fallible.exists_mapM_eq_ok h
  exact ⟨os.reduceOption, by rw [parseRows, hos]; rfl⟩

theorem parseRows_each {rows : List EventJson} {events : List (ConfidentialEvent C)}
    (h : parseRows dec rows = .ok events) {row : EventJson} (hrow : row ∈ rows) :
    ∃ o, parseRawEvent dec row = .ok o := by
  obtain ⟨os, hos, -⟩ := Fallible.map_eq_ok.mp h
  exact Fallible.of_mapM_eq_ok hos hrow

/-! ## One page of the loop -/

/-- The query the loop is about. Its requests differ in the start ledger,
which the handler does not look at once there is a cursor. -/
def wholeQuery (contractId : String) (startLedger : Option Int) (source : Option String) :
    EventsQuery :=
  fetchQuery contractId startLedger source fetchPageLimit none

theorem fetchQuery_answer (contractId : String) (startLedger : Option Int)
    (source cursor : Option String) (parse : String → Option Json) (sim : Option Int) (db : Db) :
    (fetchQuery contractId startLedger source fetchPageLimit cursor).answer parse sim db
      = ((wholeQuery contractId startLedger source).at cursor).answer parse sim db := by
  cases cursor <;> rfl

/-- What the loop holds before a request: whole pages, decoded. -/
structure Fetched (parse : String → Option Json) (dec : EventDecoder C) (q : EventsQuery) (db : Db)
    (cursor : Option String) (seen : List EventRow) (got : FetchResult C) : Prop where
  position : Position q db seen cursor
  strict : seen.Pairwise fun a b => a.id < b.id
  sound : ∀ r ∈ seen, Wanted q db r
  parsed : parseRows dec (seen.map (EventRow.toJson parse)) = .ok got.events
  rows : got.rows = seen.length
  full : got.rows = fetchPageLimit * got.pages

variable {got : FetchResult C}

theorem fetched_empty : Fetched parse dec q db none [] (.empty : FetchResult C) where
  position := rfl
  strict := .nil
  sound := fun _ hr => absurd hr List.not_mem_nil
  parsed := rfl
  rows := rfl
  full := rfl

theorem Fetched.grow (h : Fetched parse dec q db cursor seen got)
    (hgrow : GrowsLater q db db') : Fetched parse dec q db' cursor seen got :=
  { h with
    position := h.position.grow hgrow
    sound := fun r hr => hgrow.kept r (h.sound r hr) }

/-- The last row of a full page is not the row the page was asked past,
and its id is no empty text: there are rows of the page before it. -/
theorem last_advances {page : List EventRow} {y : EventRow}
    (hpos : Position q db seen cursor)
    (hstrict : (seen ++ page).Pairwise fun a b => a.id < b.id) (hlen : 2 ≤ page.length)
    (hlast : page.getLast? = some y) : nonEmpty (some y.id) ≠ none ∧ some y.id ≠ cursor := by
  obtain ⟨front, hfront⟩ := List.getLast?_eq_some_iff.mp hlast
  obtain ⟨-, hpage, hcross⟩ := List.pairwise_append.mp hstrict
  have hy : y ∈ page := List.mem_of_getLast? hlast
  constructor
  · obtain ⟨x, hx⟩ : ∃ x, x ∈ front := by
      refine List.exists_mem_of_length_pos ?_
      rw [hfront, List.length_append, List.length_singleton] at hlen
      omega
    rw [hfront, List.pairwise_append] at hpage
    have hlt : x.id < y.id := hpage.2.2 x hx y (List.mem_singleton_self y)
    have hne : y.id ≠ "" := by
      intro hempty
      rw [hempty] at hlt
      exact List.not_lt_nil _ (String.lt_iff_toList_lt.mp hlt)
    simp [nonEmpty, hne]
  · cases cursor with
    | none => exact Option.some_ne_none _
    | some c =>
        obtain ⟨-, x, hx, rfl⟩ := hpos
        intro heq
        have hlt : x.id < y.id := hcross x hx y hy
        rw [Option.some.inj heq] at hlt
        exact lt_irrefl _ hlt

theorem length_rows_le (hlimit : q.limit = some fetchPageLimit) :
    (q.rows sim db).length ≤ fetchPageLimit := by
  have hmin : min (q.limit.getD 100) 1000 = fetchPageLimit := by
    rw [hlimit]
    rfl
  unfold EventsQuery.rows Db.eventRows
  rw [hmin]
  cases q.cursor with
  | none => exact Keyset.length_page_le _
  | some c => exact Keyset.length_page_le _

/-- **One page.** A short one ends the loop with the wanted rows of the
store it was read from, a full one takes the loop on. -/
theorem Fetched.page (h : Fetched parse dec q db cursor seen got) (hsim : NotSimulated sim q)
    (hord : TokenOrdered q.contractId db) (hlimit : q.limit = some fetchPageLimit)
    {events : List (ConfidentialEvent C)}
    (hevents : parseRows dec ((q.at cursor).answer parse sim db).events = .ok events) :
    let page := ((q.at cursor).answer parse sim db).fetched
    let rows := (q.at cursor).rows sim db
    (rows.length < fetchPageLimit →
      seen ++ rows = db.wanted q ∧
        parseRows dec ((db.wanted q).map (EventRow.toJson parse))
          = .ok (got.add page events).events) ∧
    (¬ rows.length < fetchPageLimit →
      Fetched parse dec q db page.cursor (seen ++ rows) (got.add page events) ∧
        nonEmpty page.cursor ≠ none ∧ page.cursor ≠ cursor) := by
  intro page rows
  have hsize : q.pageSize = fetchPageLimit := by
    rw [EventsQuery.pageSize, hlimit]
    rfl
  have hone : 1 ≤ q.pageSize := by
    rw [hsize]
    decide
  obtain ⟨hstrict, hsound, hshort, hlong⟩ := h.position.page hsim hord hone
  rw [hsize, Int.ofNat_lt] at hshort hlong
  have hparsed : parseRows dec ((seen ++ rows).map (EventRow.toJson parse))
      = .ok (got.events ++ events) := by
    rw [List.map_append]
    exact parseRows_append h.parsed hevents
  refine ⟨fun hlen => ?_, fun hlen => ⟨?_, ?_⟩⟩
  · have hall : seen ++ rows = db.wanted q := eq_wanted hstrict hsound (hshort hlen)
    rw [hall] at hparsed
    exact ⟨hall, hparsed⟩
  · have hlen' : rows.length = fetchPageLimit :=
      le_antisymm (length_rows_le hlimit) (not_lt.mp hlen)
    have hadd : (got.add page events).rows = seen.length + rows.length := by
      simp only [FetchResult.add, h.rows, page, EventsBody.fetched, EventsQuery.answer,
        Option.getD_some, List.length_map, rows]
    exact
      { position := hlong hlen
        strict := hstrict
        sound := hsound
        parsed := hparsed
        rows := by rw [hadd, List.length_append]
        full := by
          rw [hadd, hlen', ← h.rows, h.full, FetchResult.add, Nat.mul_add, Nat.mul_one] }
  · obtain ⟨y, hlast⟩ := exists_getLast hone (by rw [hsize]; exact_mod_cast hlen)
    have hcursor : page.cursor = some y.id := by
      simp only [page, EventsBody.fetched, EventsQuery.answer]
      rw [hlast]
      rfl
    rw [hcursor]
    have htwo : 2 ≤ fetchPageLimit := by decide
    exact last_advances h.position hstrict (le_trans htwo (not_lt.mp hlen)) hlast

/-! ## The whole loop -/

/-- Everything wanted of the store `db`, which the last of `k + 1`
requests met. -/
structure FetchedAll (parse : String → Option Json) (dec : EventDecoder C) (q : EventsQuery)
    (db : Db) (k : Nat) (got : FetchResult C) : Prop where
  last : k < fetchMaxPages
  pages : got.pages = k + 1
  rows : got.rows = (db.wanted q).length
  perPage : fetchPageLimit * k ≤ got.rows ∧ got.rows < fetchPageLimit * (k + 1)
  parsed : parseRows dec ((db.wanted q).map (EventRow.toJson parse)) = .ok got.events
  latestLedger : got.latestLedger = db.latestLedger

section Loop

variable {stores : Nat → Db} {base : String} {ask : Nat → Option String → Except String FetchedPage}
  {got' : FetchResult C}

/-- What a returned loop holds, by the pages still allowed. -/
theorem fetchPages_returns (hsim : NotSimulated sim q) (hlimit : q.limit = some fetchPageLimit)
    (hord : ∀ k, TokenOrdered q.contractId (stores k))
    (hgrow : ∀ k, GrowsLater q (stores k) (stores (k + 1)))
    (hask : ∀ k cursor page, ask k cursor = .ok page →
      page = ((q.at cursor).answer parse sim (stores k)).fetched)
    {left : Nat} (hinv : Fetched parse dec q (stores got.pages) cursor seen got)
    (hleft : left + got.pages = fetchMaxPages)
    (hret : fetchPages dec base fetchPageLimit ask left cursor got = .ok got') :
    ∃ k, FetchedAll parse dec q (stores k) k got' := by
  induction left generalizing cursor seen got with
  | zero => cases hret
  | succ left ih =>
      obtain ⟨page, hpage, hret⟩ := Fallible.bind_eq_ok.mp hret
      obtain ⟨events, hevents, hret⟩ := Fallible.bind_eq_ok.mp hret
      obtain rfl := hask _ _ _ hpage
      obtain ⟨hshort, hlong⟩ := hinv.page hsim (hord _) hlimit hevents
      have hlen : ((((q.at cursor).answer parse sim (stores got.pages)).fetched.events).getD
          []).length = ((q.at cursor).rows sim (stores got.pages)).length := List.length_map _
      rw [hlen] at hret
      by_cases hend : ((q.at cursor).rows sim (stores got.pages)).length < fetchPageLimit
      · rw [if_pos (.inl hend)] at hret
        obtain rfl := Except.ok.inj hret
        obtain ⟨hall, hparsed⟩ := hshort hend
        have hrows : (got.add ((q.at cursor).answer parse sim (stores got.pages)).fetched
            events).rows = seen.length + ((q.at cursor).rows sim (stores got.pages)).length := by
          rw [← hlen, ← hinv.rows]
          rfl
        refine ⟨got.pages, by omega, rfl, ?_, ?_, hparsed, rfl⟩
        · rw [hrows, ← hall, List.length_append]
        · rw [hrows, ← hinv.rows, hinv.full, Nat.mul_add, Nat.mul_one]
          omega
      · obtain ⟨hnext, hcursor, hmoved⟩ := hlong hend
        rw [if_neg (not_or.mpr ⟨hend, not_or.mpr ⟨hcursor, hmoved⟩⟩)] at hret
        have hpages : (got.add ((q.at cursor).answer parse sim (stores got.pages)).fetched
            events).pages = got.pages + 1 := rfl
        exact ih (by rw [hpages]; exact hnext.grow (hgrow _)) (by rw [hpages]; omega) hret

/-- A loop whose requests are answered gets through when there are never
more rows than its pages hold and each of them decodes. -/
theorem fetchPages_total (hsim : NotSimulated sim q) (hlimit : q.limit = some fetchPageLimit)
    (hord : ∀ k, TokenOrdered q.contractId (stores k))
    (hgrow : ∀ k, GrowsLater q (stores k) (stores (k + 1)))
    (hask : ∀ k cursor, ask k cursor = .ok ((q.at cursor).answer parse sim (stores k)).fetched)
    (hdec : ∀ k r, Wanted q (stores k) r → ∃ o, parseRawEvent dec (r.toJson parse) = .ok o)
    (hfew : ∀ k, ((stores k).wanted q).length < fetchPageLimit * fetchMaxPages)
    {left : Nat} (hinv : Fetched parse dec q (stores got.pages) cursor seen got)
    (hleft : left + got.pages = fetchMaxPages) :
    ∃ got', fetchPages dec base fetchPageLimit ask left cursor got = .ok got' := by
  induction left generalizing cursor seen got with
  | zero =>
      -- as many rows as the pages hold, and all of them wanted
      have hle : seen.length ≤ ((stores got.pages).wanted q).length :=
        (List.subperm_of_subset (hinv.strict.imp fun h heq => by
          rw [heq] at h
          exact lt_irrefl _ h) fun r hr => mem_wanted.mpr (hinv.sound r hr)).length_le
      have hfull := hinv.full
      have hlt := hfew got.pages
      rw [Nat.zero_add] at hleft
      rw [hinv.rows, hleft] at hfull
      omega
  | succ left ih =>
      obtain ⟨-, hsound, -, -⟩ := hinv.position.page hsim (hord got.pages) (by
        rw [EventsQuery.pageSize, hlimit]
        decide)
      obtain ⟨events, hevents⟩ : ∃ events,
          parseRows dec ((q.at cursor).answer parse sim (stores got.pages)).events
            = .ok events := by
        refine exists_parseRows fun row hrow => ?_
        obtain ⟨r, hr, rfl⟩ := List.mem_map.mp hrow
        exact hdec _ r (hsound r (List.mem_append_right _ hr))
      obtain ⟨-, hlong⟩ := hinv.page hsim (hord got.pages) hlimit hevents
      rw [fetchPages, hask, Fallible.ok_bind]
      have hgiven : ((q.at cursor).answer parse sim (stores got.pages)).fetched.events.getD []
          = ((q.at cursor).answer parse sim (stores got.pages)).events := rfl
      rw [hgiven, hevents, Fallible.ok_bind]
      split
      · exact ⟨_, rfl⟩
      · rename_i hgo
        rw [not_or] at hgo
        have hlen : ((q.at cursor).answer parse sim (stores got.pages)).events.length
            = ((q.at cursor).rows sim (stores got.pages)).length := List.length_map _
        rw [hlen] at hgo
        have hpages : (got.add ((q.at cursor).answer parse sim (stores got.pages)).fetched
            events).pages = got.pages + 1 := rfl
        exact ih (by rw [hpages]; exact (hlong hgo.1).1.grow (hgrow _)) (by rw [hpages]; omega)

end Loop

section Stores

variable {stores : Nat → Db} {href : String → EventsQuery → String}
  {fetch : Nat → EventsQuery → Except String FetchAnswer} {baseUrl contractId : String}
  {startLedger : Option Int} {source : Option String} {got : FetchResult C}

theorem fetchedAll_of_pagesOf (hsim : NotSimulated sim (wholeQuery contractId startLedger source))
    (hord : ∀ k, TokenOrdered contractId (stores k))
    (hgrow : ∀ k,
      GrowsLater (wholeQuery contractId startLedger source) (stores k) (stores (k + 1)))
    (hfetch : PagesOf parse sim stores fetch)
    (hret : fetchEventsFromUrl dec href fetch baseUrl contractId startLedger source = .ok got) :
    ∃ k, FetchedAll parse dec (wholeQuery contractId startLedger source) (stores k) k got := by
  refine fetchPages_returns (q := wholeQuery contractId startLedger source) hsim rfl hord hgrow
    (fun k cursor page hpage => ?_) fetched_empty rfl hret
  rw [hfetch k _ _ page hpage, fetchQuery_answer]

theorem growsLater_first {q : EventsQuery} (hgrow : ∀ k, GrowsLater q (stores k) (stores (k + 1)))
    (k : Nat) : GrowsLater q (stores 0) (stores k) := by
  induction k with
  | zero => exact .refl _ _
  | succ k ih => exact ih.trans (hgrow k)

/-- **What the loop returns is everything.** Requests may fail, and between
two of them the store may get any rows past those it had: when
`fetchEventsFromUrl` returns, it holds every wanted event of the store its
last request met, once and oldest first, in 501 pages at most; so nothing
that was there at the first request is missing. -/
theorem fetchEventsFromUrl_complete
    (hsim : NotSimulated sim (wholeQuery contractId startLedger source))
    (hord : ∀ k, TokenOrdered contractId (stores k))
    (hgrow : ∀ k,
      GrowsLater (wholeQuery contractId startLedger source) (stores k) (stores (k + 1)))
    (hfetch : PagesOf parse sim stores fetch)
    (hret : fetchEventsFromUrl dec href fetch baseUrl contractId startLedger source = .ok got) :
    ∃ k, FetchedAll parse dec (wholeQuery contractId startLedger source) (stores k) k got ∧
      GrowsLater (wholeQuery contractId startLedger source) (stores 0) (stores k) := by
  obtain ⟨k, hall⟩ := fetchedAll_of_pagesOf hsim hord hgrow hfetch hret
  exact ⟨k, hall, growsLater_first hgrow k⟩

end Stores

/-- The `/events` handler over a store of its own for each request; `text`
prints the bodies. -/
def indexSite (text : EventsBody → String) (parse : String → Option Json) (sim : Option Int)
    (stores : Nat → Db) (k : Nat) (q : EventsQuery) : Except String FetchAnswer :=
  let body := q.answer parse sim (stores k)
  .ok { status := 200, body := text body, page := some body.fetched }

theorem indexSite_page (text : EventsBody → String) (parse : String → Option Json)
    (sim : Option Int) (stores : Nat → Db) (k : Nat) (q : EventsQuery) (href : String) :
    readPage href (indexSite text parse sim stores k q)
      = .ok (q.answer parse sim (stores k)).fetched := rfl

theorem pagesOf_indexSite (text : EventsBody → String) (parse : String → Option Json)
    (sim : Option Int) (stores : Nat → Db) :
    PagesOf parse sim stores (indexSite text parse sim stores) := by
  intro k q href page hpage
  rw [indexSite_page] at hpage
  exact (Except.ok.inj hpage).symm

/-- Over stores that grow and answer, the loop gets through when no store is
too large and every wanted row decodes. -/
theorem fetchEventsFromUrl_answered {stores : Nat → Db} (text : EventsBody → String)
    (href : String → EventsQuery → String) (baseUrl : String) {contractId : String}
    {startLedger : Option Int} {source : Option String}
    (hsim : NotSimulated sim (wholeQuery contractId startLedger source))
    (hord : ∀ k, TokenOrdered contractId (stores k))
    (hgrow : ∀ k,
      GrowsLater (wholeQuery contractId startLedger source) (stores k) (stores (k + 1)))
    (hdec : ∀ k r, Wanted (wholeQuery contractId startLedger source) (stores k) r →
      ∃ o, parseRawEvent dec (r.toJson parse) = .ok o)
    (hfew : ∀ k, ((stores k).wanted (wholeQuery contractId startLedger source)).length
      < fetchPageLimit * fetchMaxPages) :
    ∃ got, fetchEventsFromUrl dec href (indexSite text parse sim stores) baseUrl contractId
      startLedger source = .ok got := by
  refine fetchPages_total (q := wholeQuery contractId startLedger source) hsim rfl hord hgrow
    (fun k cursor => ?_) hdec hfew fetched_empty rfl
  rw [indexSite_page, fetchQuery_answer]

/-- **When the loop gets through.** Over a store that stays as it is and
answers, exactly when every wanted row decodes and there are fewer of them
than 501 pages hold; and it then returns all of them. -/
theorem fetchEventsFromUrl_succeeds_iff (text : EventsBody → String)
    (href : String → EventsQuery → String) (dec : EventDecoder C) (parse : String → Option Json)
    (db : Db) (baseUrl : String) {contractId : String} {startLedger : Option Int}
    {source : Option String} (hsim : NotSimulated sim (wholeQuery contractId startLedger source))
    (hord : TokenOrdered contractId db) :
    ((∃ got, fetchEventsFromUrl dec href (indexSite text parse sim fun _ => db) baseUrl contractId
        startLedger source = .ok got) ↔
      (∀ r, Wanted (wholeQuery contractId startLedger source) db r →
          ∃ o, parseRawEvent dec (r.toJson parse) = .ok o) ∧
        (db.wanted (wholeQuery contractId startLedger source)).length
          < fetchPageLimit * fetchMaxPages) ∧
    ∀ got, fetchEventsFromUrl dec href (indexSite text parse sim fun _ => db) baseUrl contractId
        startLedger source = .ok got →
      ∃ k, FetchedAll parse dec (wholeQuery contractId startLedger source) db k got := by
  have hreturns : ∀ got, fetchEventsFromUrl dec href (indexSite text parse sim fun _ => db) baseUrl
      contractId startLedger source = .ok got →
      ∃ k, FetchedAll parse dec (wholeQuery contractId startLedger source) db k got := fun _ =>
    fetchedAll_of_pagesOf hsim (fun _ => hord) (fun _ => .refl _ _)
      (pagesOf_indexSite text parse sim _)
  refine ⟨⟨?_, ?_⟩, hreturns⟩
  · rintro ⟨got, hgot⟩
    obtain ⟨k, hall⟩ := hreturns got hgot
    refine ⟨fun r hr => parseRows_each hall.parsed (List.mem_map_of_mem (mem_wanted.mpr hr)), ?_⟩
    calc (db.wanted (wholeQuery contractId startLedger source)).length
        = got.rows := hall.rows.symm
      _ < fetchPageLimit * (k + 1) := hall.perPage.2
      _ ≤ fetchPageLimit * fetchMaxPages := Nat.mul_le_mul_left _ hall.last
  · rintro ⟨hdec, hfew⟩
    exact fetchEventsFromUrl_answered text href baseUrl hsim (fun _ => hord) (fun _ => .refl _ _)
      (fun _ => hdec) fun _ => hfew

theorem pair_fetch_succeeds :
    ∃ got, fetchEventsFromUrl clearDecoder (fun base _ => base)
        (indexSite (fun _ => "") (fun _ => none) none fun _ => pairDb) "http://localhost:8090" "CA"
        none none = .ok got ∧
      ∃ k, FetchedAll (fun _ => none) clearDecoder (wholeQuery "CA" none none) pairDb k got := by
  have hord : TokenOrdered "CA" pairDb := ⟨by decide, by decide⟩
  have hfew : (pairDb.wanted (wholeQuery "CA" none none)).length
      < fetchPageLimit * fetchMaxPages := by decide
  obtain ⟨hiff, hall⟩ := fetchEventsFromUrl_succeeds_iff (fun _ => "") (fun base _ => base)
    clearDecoder (fun _ => none) pairDb "http://localhost:8090" (Or.inl rfl) hord
  obtain ⟨got, hgot⟩ := hiff.mpr ⟨fun r _ => ⟨none, rfl⟩, hfew⟩
  exact ⟨got, hgot, hall got hgot⟩

/-! ## A store that grows between two requests -/

def numberedRow (k : Nat) : EventRow :=
  plainRow (pagingToken k 0) k

/-- Rows 0 to `n - 1`, as they came. -/
def numberedDb : Nat → Db
  | 0 => .empty
  | n + 1 => (numberedDb n).insertEvent (numberedRow n)

theorem numberedRow_lt_iff {k n : Nat} (hk : k < 10 ^ 19) (hn : n < 10 ^ 19) :
    (numberedRow k).id < (numberedRow n).id ↔ k < n := by
  have hlt := pagingToken_lt_iff hk hn (by decide : 0 < 10 ^ 10) (by decide : 0 < 10 ^ 10)
  refine hlt.trans ⟨fun h => h.resolve_right fun heq => absurd heq.2 (lt_irrefl _), .inl⟩

theorem rows_numberedDb {n : Nat} (hn : n ≤ 10 ^ 19) :
    (numberedDb n).events.rows = (List.range n).map numberedRow := by
  induction n with
  | zero => rfl
  | succ n ih =>
      have hrows := ih (Nat.le_of_succ_le hn)
      have hfresh : (numberedRow n).id ∉ (numberedDb n).events.rows.map EventRow.id := by
        rw [hrows, List.map_map, List.mem_map]
        rintro ⟨k, hk, heq⟩
        have hlt : (numberedRow k).id < (numberedRow n).id :=
          (numberedRow_lt_iff ((List.mem_range.mp hk).trans hn) hn).mpr (List.mem_range.mp hk)
        have heq : (numberedRow k).id = (numberedRow n).id := heq
        exact absurd hlt (by rw [heq]; exact lt_irrefl _)
      rw [numberedDb, Db.insertEvent, Keyed.Table.insertOrIgnore, dif_neg hfresh, List.range_succ,
        List.map_append, ← hrows]
      rfl

theorem mem_numberedDb {n : Nat} (hn : n ≤ 10 ^ 19) {r : EventRow} :
    r ∈ (numberedDb n).events.rows ↔ ∃ k < n, numberedRow k = r := by
  simp only [rows_numberedDb hn, List.mem_map, List.mem_range]

theorem numberedDb_ordered {n : Nat} (hn : n ≤ 10 ^ 19) : TokenOrdered "CA" (numberedDb n) where
  agree := by
    intro r hr r' hr' _ _ hlt
    obtain ⟨k, hk, rfl⟩ := (mem_numberedDb hn).mp hr
    obtain ⟨k', hk', rfl⟩ := (mem_numberedDb hn).mp hr'
    exact Int.ofNat_le.mpr ((numberedRow_lt_iff (hk.trans_le hn) (hk'.trans_le hn)).mp hlt).le
  nonneg := by
    intro r hr _
    obtain ⟨k, -, rfl⟩ := (mem_numberedDb hn).mp hr
    exact Int.natCast_nonneg k

theorem numberedDb_grows {n : Nat} (hn : n < 10 ^ 19) :
    GrowsLater (wholeQuery "CA" none none) (numberedDb n) (numberedDb (n + 1)) where
  kept _ hr := hr.insert
  later r hr := by
    obtain ⟨k, hk, rfl⟩ := (mem_numberedDb hn).mp hr.1
    rcases Nat.lt_succ_iff_lt_or_eq.mp hk with hold | rfl
    · exact .inl ⟨(mem_numberedDb hn.le).mpr ⟨k, hold, rfl⟩, hr.2⟩
    · refine .inr fun r' hr' => ?_
      obtain ⟨j, hj, rfl⟩ := (mem_numberedDb hn.le).mp hr'.1
      exact (numberedRow_lt_iff (hj.trans hn) hn).mpr hj

theorem length_wanted_numberedDb {n : Nat} (hn : n ≤ 10 ^ 19) :
    ((numberedDb n).wanted (wholeQuery "CA" none none)).length = n := by
  have hall : (numberedDb n).events.rows.filter (fun r => r.contractId = "CA" ∧
      (wholeQuery "CA" none none).startLedger.getD 0 ≤ r.ledger) = (numberedDb n).events.rows := by
    refine List.filter_eq_self.mpr fun r hr => ?_
    obtain ⟨k, -, rfl⟩ := (mem_numberedDb hn).mp hr
    exact decide_eq_true ⟨rfl, Int.natCast_nonneg k⟩
  have hperm : (Keyset.orderBy EventRow.id (numberedDb n).events.rows).length
      = (numberedDb n).events.rows.length := Keyset.orderBy_perm.length_eq
  have hwanted : (wholeQuery "CA" none none).contractId = "CA" := rfl
  rw [Db.wanted, hwanted, hall, hperm, rows_numberedDb hn, List.length_map, List.length_range]

/-- A full page at first, one row more from the second request on. -/
def growingStores : Nat → Db
  | 0 => numberedDb 200
  | _ + 1 => numberedDb 201

theorem growingStores_eq (k : Nat) : growingStores k = numberedDb 200 ∨
    growingStores k = numberedDb 201 := by
  cases k with
  | zero => exact .inl rfl
  | succ k => exact .inr rfl

/-- The loop takes two pages, and the row that came between them. -/
theorem growing_stores_fetched :
    ∃ got, fetchEventsFromUrl clearDecoder (fun base _ => base)
        (indexSite (fun _ => "") (fun _ => none) none growingStores) "http://localhost:8090" "CA"
        none none = .ok got ∧
      FetchedAll (fun _ => none) clearDecoder (wholeQuery "CA" none none) (numberedDb 201) 1
        got := by
  have hord : ∀ k, TokenOrdered "CA" (growingStores k) := by
    intro k
    rcases growingStores_eq k with heq | heq
    · exact heq ▸ numberedDb_ordered (by decide)
    · exact heq ▸ numberedDb_ordered (by decide)
  have hgrow : ∀ k, GrowsLater (wholeQuery "CA" none none) (growingStores k)
      (growingStores (k + 1)) := by
    intro k
    cases k with
    | zero => exact numberedDb_grows (by decide)
    | succ k => exact .refl _ _
  have hfew : ∀ k, ((growingStores k).wanted (wholeQuery "CA" none none)).length ≤ 201 := by
    intro k
    rcases growingStores_eq k with heq | heq
    · rw [heq, length_wanted_numberedDb (by decide)]
      decide
    · rw [heq, length_wanted_numberedDb (by decide)]
  have hreturns : ∃ got, fetchEventsFromUrl clearDecoder (fun base _ => base)
      (indexSite (fun _ => "") (fun _ => none) none growingStores) "http://localhost:8090" "CA"
      none none = .ok got :=
    fetchEventsFromUrl_answered _ _ _ (.inl rfl) hord hgrow (fun _ _ _ => ⟨none, rfl⟩)
      fun k => (hfew k).trans_lt (by decide)
  obtain ⟨got, hgot⟩ := hreturns
  obtain ⟨k, hall, -⟩ := fetchEventsFromUrl_complete (.inl rfl) hord hgrow
    (pagesOf_indexSite _ _ none growingStores) hgot
  have hrows := hall.rows
  have hpages := hall.perPage
  have hlimit : fetchPageLimit = 200 := rfl
  rw [hlimit] at hpages
  cases k with
  | zero =>
      have hfirst : ((growingStores 0).wanted (wholeQuery "CA" none none)).length = 200 :=
        length_wanted_numberedDb (by decide)
      omega
  | succ k =>
      have hlater : growingStores (k + 1) = numberedDb 201 := rfl
      rw [hlater, length_wanted_numberedDb (by decide)] at hrows
      obtain rfl : k = 0 := by omega
      rw [hlater] at hall
      exact ⟨got, hgot, hall⟩

end RaizStack
