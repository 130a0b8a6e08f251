import RaizStack.TimelineLoad

/-!
# What `allEvents` promises and what it returns

The loop over the pages, for any start ledger, page size and number of
pages, against an indexer that may simulate retention. Two programs bound
a page: the request carries at most a thousand, while the loop compares
the page with the size it was called with. The pages after the first go
by id and look at the floor only, so the walk is one page
(`Keyset.page_append_filter`) of the rows it comes to; it is the promised
page exactly when the two selections agree below its end
(`Keyset.page_filter_eq_iff`).
-/

namespace RaizStack

open EventsClient

namespace Db

variable (db : Db)

/-- The contract's rows from the start ledger on, if one is given. -/
def asked (cid : String) (start : Option Int) : List EventRow :=
  db.events.rows.filter fun r => decide (r.contractId = cid) && start.all (· ≤ r.ledger)

/-- The first `n` of them by id. -/
def promised (cid : String) (start : Option Int) (n : Nat) : List EventRow :=
  (Keyset.orderBy EventRow.id (db.asked cid start)).take n

/-- The ledger a first request is answered from, over a floor. -/
def lowest (start : Option Int) (floor : Int) : Int :=
  max (start.getD 0) floor

/-- The walk comes to a row of the contract: it is from the first ledger
on, or from the floor on with a page of such rows below its id. -/
def served (cid : String) (start : Option Int) (floor : Int) (pageSize : Nat) (r : EventRow) :
    Bool :=
  decide (lowest start floor ≤ r.ledger) ||
    decide (floor ≤ r.ledger) &&
      decide (pageSize ≤ Keyset.countBelow EventRow.id (db.since cid (lowest start floor)) r)

/-- Up to the first `n` rows asked for, the walk comes to those and no others. -/
def Agrees (cid : String) (start : Option Int) (floor : Int) (pageSize n : Nat) : Prop :=
  ∀ r ∈ db.events.rows, r.contractId = cid →
    Keyset.countBelow EventRow.id (db.asked cid start) r < n →
      (db.served cid start floor pageSize r = true ↔ ∀ s ∈ start, s ≤ r.ledger)

end Db

/-- The floor of the answers to a source: zero when nothing is simulated. -/
def floorOf (db : Db) (sim : Option Int) (src : EventSource) : Int :=
  (simFloor db sim src.sourceParam).getD 0

/-- When the walk holds what is promised: the loop does not take a page
of a thousand for a short one while there is more, and up to the promised
count the walk comes to the rows asked for and no others. -/
structure HoldsPromise (db : Db) (sim : Option Int) (src : EventSource) (cid : String)
    (start : Option Int) (pageSize maxPages : Nat) : Prop where
  pages : pageSize ≤ 1000 ∨ maxPages = 1 ∨ (db.asked cid start).length ≤ 1000
  rows : db.Agrees cid start (floorOf db sim src) pageSize (maxPages * min pageSize 1000)

section Walk

variable {db : Db} {sim : Option Int} {src : EventSource} {cid : String} {start : Option Int}
  {pageSize : Nat} {lib : OrgJson} {parse : String → Option Json}

/-! ## The rows of a walk -/

variable (db) in
/-- The rows of a contract the walk comes to. -/
def walkRows (cid : String) (start : Option Int) (floor : Int) (pageSize : Nat) : List EventRow :=
  db.events.rows.filter fun r =>
    decide (r.contractId = cid) && db.served cid start floor pageSize r

/-- The walk's rows in the form the library compares pages in. -/
theorem walkRows_eq (floor : Int) :
    walkRows db cid start floor pageSize = db.events.rows.filter fun r =>
      decide (r.contractId = cid ∧ Db.lowest start floor ≤ r.ledger) ||
        decide (r.contractId = cid ∧ floor ≤ r.ledger) &&
          decide (pageSize
            ≤ Keyset.countBelow EventRow.id (db.since cid (Db.lowest start floor)) r) := by
  refine List.filter_congr fun r _ => ?_
  unfold Db.served
  by_cases hcid : r.contractId = cid
  · simp [hcid]
  · simp [hcid]

theorem walk_first (floor : Int) :
    Keyset.page EventRow.id (walkRows db cid start floor pageSize) pageSize
      = Keyset.page EventRow.id (db.since cid (Db.lowest start floor)) pageSize := by
  rw [walkRows_eq]
  exact Keyset.page_walk_first db.events.keysNodup _ _ pageSize

theorem walk_short {floor : Int} (m : Nat)
    (hshort : (Keyset.page EventRow.id (db.since cid (Db.lowest start floor)) pageSize).length
      < pageSize) :
    Keyset.page EventRow.id (db.since cid (Db.lowest start floor)) pageSize
      = Keyset.page EventRow.id (walkRows db cid start floor pageSize) (pageSize + m : Nat) := by
  rw [← walk_first] at hshort ⊢
  exact Keyset.page_of_short m hshort

theorem walk_full {floor : Int} (m : Nat) {x : EventRow}
    (hlast : (Keyset.page EventRow.id (db.since cid (Db.lowest start floor)) pageSize).getLast?
      = some x)
    (hfull : (Keyset.page EventRow.id (db.since cid (Db.lowest start floor)) pageSize).length
      = pageSize) :
    Keyset.page EventRow.id (db.since cid (Db.lowest start floor)) pageSize
        ++ Keyset.page EventRow.id ((db.since cid floor).filter fun r => x.id < r.id) m
      = Keyset.page EventRow.id (walkRows db cid start floor pageSize) (pageSize + m : Nat) := by
  rw [walkRows_eq]
  refine Keyset.page_append_filter db.events.keysNodup ?_ m hlast hfull
  intro r hr
  obtain ⟨hcid, hle⟩ := of_decide_eq_true hr
  exact decide_eq_true ⟨hcid, le_trans (le_max_right _ _) hle⟩

/-! ## The walk -/

/-- How the loop asks for a page, with or without a start ledger. -/
def fetchFrom (lib : OrgJson) (http : Http) (cid : String) (pageSize : Nat) (start : Option Int)
    (src : EventSource) (cursor : Option String) :
    Except EventsException EventsClient.EventsPage :=
  events lib http cid pageSize cursor (if cursor = none then start else none) src

/-- One page, whatever the size asked for. -/
theorem events_rows (lib : OrgJson) (url : EventSource → EventsQuery → String)
    (parse : String → Option Json) (cid : String) (hsize : 1 ≤ pageSize) (cursor : Option String)
    (start : Option Int) :
    ∃ page, events lib (indexer url parse sim db) cid pageSize cursor start src = .ok page ∧
      page.events = (db.eventRows cid (if cursor = none then start else none) cursor
        (min pageSize 1000 : Nat) (simFloor db sim src.sourceParam)).map
          (EventRow.record lib parse) ∧
      ∀ x, (db.eventRows cid (if cursor = none then start else none) cursor
        (min pageSize 1000 : Nat) (simFloor db sim src.sourceParam)).getLast? = some x →
          page.cursor = some x.id := by
  have hrows : (queryOf cid pageSize cursor start src).rows sim db
      = db.eventRows cid (if cursor = none then start else none) cursor (min pageSize 1000 : Nat)
          (simFloor db sim src.sourceParam) := by
    have hlimit : min (min (max (pageSize : Int) 1) maxPageSize) 1000
        = ((min pageSize 1000 : Nat) : Int) := by
      unfold maxPageSize
      omega
    unfold EventsQuery.rows queryOf
    simp only [Option.getD_some, hlimit]
  refine ⟨_, events_indexer cid pageSize cursor start, ?_, ?_⟩
  · rw [page_events, hrows]
  · intro x hx
    rw [← hrows] at hx
    exact page_cursor hx

theorem fetch_first (lib : OrgJson) (url : EventSource → EventsQuery → String)
    (parse : String → Option Json) (sim : Option Int) (db : Db) (src : EventSource) (cid : String)
    (start : Option Int) (hsize : 1 ≤ pageSize) :
    ∃ page, fetchFrom lib (indexer url parse sim db) cid pageSize start src none = .ok page ∧
      page.events = (Keyset.page EventRow.id
        (db.since cid (Db.lowest start (floorOf db sim src))) (min pageSize 1000 : Nat)).map
          (EventRow.record lib parse) ∧
      ∀ x, (Keyset.page EventRow.id (db.since cid (Db.lowest start (floorOf db sim src)))
        (min pageSize 1000 : Nat)).getLast? = some x → page.cursor = some x.id :=
  events_rows lib url parse cid hsize none start

theorem fetch_past (lib : OrgJson) (url : EventSource → EventsQuery → String)
    (parse : String → Option Json) (sim : Option Int) (db : Db) (src : EventSource) (cid : String)
    (start : Option Int) (hsize : 1 ≤ pageSize) (c : String) :
    ∃ page, fetchFrom lib (indexer url parse sim db) cid pageSize start src (some c) = .ok page ∧
      page.events = (Keyset.page EventRow.id ((db.since cid (floorOf db sim src)).filter
        fun r => c < r.id) (min pageSize 1000 : Nat)).map (EventRow.record lib parse) ∧
      ∀ x, (Keyset.page EventRow.id ((db.since cid (floorOf db sim src)).filter
        fun r => c < r.id) (min pageSize 1000 : Nat)).getLast? = some x →
          page.cursor = some x.id := by
  obtain ⟨page, hpage, hevents, hcursor⟩ : ∃ page, events lib (indexer url parse sim db) cid
      pageSize (some c) none src = .ok page ∧ page.events = _ ∧ _ :=
    events_rows lib url parse cid hsize (some c) none
  rw [eventRows_past] at hevents hcursor
  exact ⟨page, hpage, hevents, hcursor⟩

/-- A page of a thousand at most, past an id. -/
theorem fetch_past_of_le (lib : OrgJson) (url : EventSource → EventsQuery → String)
    (parse : String → Option Json) (sim : Option Int) (db : Db) (src : EventSource) (cid : String)
    (start : Option Int) (hsize : 1 ≤ pageSize) (hmax : pageSize ≤ 1000) (c : String) :
    ∃ page, fetchFrom lib (indexer url parse sim db) cid pageSize start src (some c) = .ok page ∧
      True ∧ page.events = (Keyset.page EventRow.id ((db.since cid (floorOf db sim src)).filter
        fun r => c < r.id) pageSize).map (EventRow.record lib parse) ∧
      ∀ x, (Keyset.page EventRow.id ((db.since cid (floorOf db sim src)).filter
        fun r => c < r.id) pageSize).getLast? = some x → page.cursor = some x.id := by
  have hpast := fetch_past lib url parse sim db src cid start hsize c
  rw [min_eq_left hmax] at hpast
  simpa only [true_and] using hpast

/-- The loop over pages of a thousand at most. -/
theorem followCursor_of_le (lib : OrgJson) (url : EventSource → EventsQuery → String)
    (parse : String → Option Json) (sim : Option Int) (db : Db) (src : EventSource) (cid : String)
    (start : Option Int) (hsize : 1 ≤ pageSize) (hmax : pageSize ≤ 1000) (pages : Nat) :
    ∃ last, followCursor (fetchFrom lib (indexer url parse sim db) cid pageSize start src) pageSize
        (pages + 1) none [] none
      = .ok ((Keyset.page EventRow.id (walkRows db cid start (floorOf db sim src) pageSize)
          (pageSize * (pages + 1) : Nat)).map (EventRow.record lib parse), last) := by
  obtain ⟨page, hfetch, hevents, hcursor⟩ := fetch_first lib url parse sim db src cid start hsize
  rw [min_eq_left hmax] at hevents hcursor
  rw [followCursor, hfetch, Fallible.ok_bind, List.nil_append]
  have hlen : page.events.length = (Keyset.page EventRow.id
      (db.since cid (Db.lowest start (floorOf db sim src))) pageSize).length := by
    rw [hevents, List.length_map]
  have hmul : pageSize * (pages + 1) = pageSize + pageSize * pages := by
    rw [Nat.mul_succ, Nat.add_comm]
  rw [hmul]
  by_cases hshort : page.events.length < pageSize
  · rw [if_pos (.inl hshort), hevents]
    rw [hlen] at hshort
    exact ⟨some page, by rw [walk_short (pageSize * pages) hshort]⟩
  · have hle : (Keyset.page EventRow.id
        (db.since cid (Db.lowest start (floorOf db sim src))) pageSize).length ≤ pageSize :=
      Keyset.length_page_le pageSize
    have hfull : (Keyset.page EventRow.id
        (db.since cid (Db.lowest start (floorOf db sim src))) pageSize).length = pageSize := by
      omega
    obtain ⟨x, hx⟩ : ∃ x, (Keyset.page EventRow.id
        (db.since cid (Db.lowest start (floorOf db sim src))) pageSize).getLast? = some x :=
      exists_getLast (n := pageSize) (by omega) (by omega)
    have hgo : ¬ (page.events.length < pageSize ∨ page.cursor = none ∨ page.cursor = none) := by
      rw [hcursor x hx]
      rintro (h | h | h)
      · exact hshort h
      · cases h
      · cases h
    have hkeys : ((db.since cid (floorOf db sim src)).map EventRow.id).Nodup :=
      nodup_filter_ids _ _
    obtain ⟨last, hrest, -⟩ := followCursor_pages (P := fun _ => True) hkeys hsize
      (fetch_past_of_le lib url parse sim db src cid start hsize hmax) pages x.id page.events trivial
    refine ⟨some last, ?_⟩
    rw [if_neg hgo, hcursor x hx, hrest, hevents, ← List.map_append, walk_full _ hx hfull]

/-- The loop over pages of more than a thousand: the first one is short. -/
theorem followCursor_of_gt (lib : OrgJson) (url : EventSource → EventsQuery → String)
    (parse : String → Option Json) (sim : Option Int) (db : Db) (src : EventSource) (cid : String)
    (start : Option Int) (hmax : 1000 < pageSize) (pages : Nat) :
    ∃ last, followCursor (fetchFrom lib (indexer url parse sim db) cid pageSize start src) pageSize
        (pages + 1) none [] none
      = .ok ((Keyset.page EventRow.id (db.since cid (Db.lowest start (floorOf db sim src)))
          (1000 : Nat)).map (EventRow.record lib parse), last) := by
  have hsize : 1 ≤ pageSize := by omega
  obtain ⟨page, hfetch, hevents, -⟩ := fetch_first lib url parse sim db src cid start hsize
  rw [min_eq_right hmax.le] at hevents
  rw [followCursor, hfetch, Fallible.ok_bind, List.nil_append]
  have hle : (Keyset.page EventRow.id
      (db.since cid (Db.lowest start (floorOf db sim src))) (1000 : Nat)).length ≤ 1000 :=
    Keyset.length_page_le 1000
  have hshort : page.events.length < pageSize := by
    rw [hevents, List.length_map]
    omega
  rw [if_pos (.inl hshort), hevents]
  exact ⟨some page, rfl⟩

/-- `allEvents` is the loop, under the labels of its last page. -/
theorem allEvents_of_followCursor {http : Http} {maxPages : Nat} {rows : List EventRecord}
    {last : Option EventsClient.EventsPage}
    (h : followCursor (fetchFrom lib http cid pageSize start src) pageSize maxPages none [] none
      = .ok (rows, last)) :
    ∃ page, allEvents lib http cid start pageSize maxPages src = .ok page ∧
      page.events = rows :=
  ⟨_, by rw [allEvents]; exact congrArg (· >>= _) h, rfl⟩

/-- The walk's rows: pages of a thousand at most are followed; a larger
size stops at the first page. -/
theorem allEvents_rows (lib : OrgJson) (url : EventSource → EventsQuery → String)
    (parse : String → Option Json) (sim : Option Int) (db : Db) (src : EventSource) (cid : String)
    (start : Option Int) (hsize : 1 ≤ pageSize) (pages : Nat) :
    ∃ page, allEvents lib (indexer url parse sim db) cid start pageSize (pages + 1) src
        = .ok page ∧
      page.events = (if pageSize ≤ 1000 then
          Keyset.page EventRow.id (walkRows db cid start (floorOf db sim src) pageSize)
            (pageSize * (pages + 1) : Nat)
        else Keyset.page EventRow.id (db.since cid (Db.lowest start (floorOf db sim src)))
          (1000 : Nat)).map (EventRow.record lib parse) := by
  split
  · rename_i hmax
    obtain ⟨last, hwalk⟩ := followCursor_of_le lib url parse sim db src cid start hsize hmax pages
    exact allEvents_of_followCursor hwalk
  · rename_i hmax
    obtain ⟨last, hwalk⟩ :=
      followCursor_of_gt lib url parse sim db src cid start (lt_of_not_ge hmax) pages
    exact allEvents_of_followCursor hwalk

/-! ## The promise -/

theorem record_id (lib : OrgJson) (parse : String → Option Json) (r : EventRow) :
    (r.record lib parse).id = r.id := rfl

/-- Rows of one store are told apart by their records. -/
theorem rows_eq_of_records {l l' : List EventRow} (hl : ∀ r ∈ l, r ∈ db.events.rows)
    (hl' : ∀ r ∈ l', r ∈ db.events.rows)
    (h : l.map (EventRow.record lib parse) = l'.map (EventRow.record lib parse)) : l = l' := by
  have hids : ∀ r ∈ db.events.rows, ∀ r' ∈ db.events.rows, r.id = r'.id → r = r' :=
    fun r hr r' hr' => List.inj_on_of_nodup_map db.events.keysNodup hr hr'
  induction l generalizing l' with
  | nil => exact (List.map_eq_nil_iff.mp h.symm).symm
  | cons r l ih =>
      obtain ⟨r', l'', rfl, hrec, hrest⟩ := List.map_eq_cons_iff.mp h.symm
      obtain rfl : r' = r := by
        refine hids r' (hl' r' List.mem_cons_self) r (hl r List.mem_cons_self) ?_
        rw [← record_id lib parse r', hrec, record_id]
      rw [ih (fun s hs => hl s (List.mem_cons_of_mem _ hs))
        (fun s hs => hl' s (List.mem_cons_of_mem _ hs)) hrest.symm]

theorem promised_eq_page (n : Nat) :
    db.promised cid start n = Keyset.page EventRow.id (db.asked cid start) n := by
  rw [Keyset.page_natCast, Db.promised]

/-- What is from the first ledger on was asked for. -/
theorem asked_of_lowest {floor : Int} {r : EventRow}
    (h : decide (r.contractId = cid ∧ Db.lowest start floor ≤ r.ledger) = true) :
    (decide (r.contractId = cid) && start.all (· ≤ r.ledger)) = true := by
  obtain ⟨hcid, hle⟩ := of_decide_eq_true h
  rw [decide_eq_true hcid, Bool.true_and]
  cases start with
  | none => rfl
  | some s => exact decide_eq_true (le_trans (le_max_left s floor) hle)

theorem countBelow_since_le {floor : Int} (r : EventRow) :
    Keyset.countBelow EventRow.id (db.since cid (Db.lowest start floor)) r
      ≤ Keyset.countBelow EventRow.id (db.asked cid start) r := by
  have hsub : (db.since cid (Db.lowest start floor)).Sublist (db.asked cid start) :=
    List.monotone_filter_right _ fun r hr => asked_of_lowest hr
  exact (hsub.filter _).length_le

/-- The rows below the `n`-th asked for, in the form the library compares. -/
theorem agrees_iff (floor : Int) (n : Nat) :
    db.Agrees cid start floor pageSize n ↔ ∀ r ∈ db.events.rows,
      Keyset.countBelow EventRow.id (db.asked cid start) r < n →
        (decide (r.contractId = cid) && db.served cid start floor pageSize r)
          = (decide (r.contractId = cid) && start.all (· ≤ r.ledger)) := by
  have hall : ∀ r : EventRow,
      start.all (fun s => decide (s ≤ r.ledger)) = true ↔ ∀ s ∈ start, s ≤ r.ledger := by
    intro r
    cases start <;> simp
  constructor
  · intro h r hr hcount
    by_cases hcid : r.contractId = cid
    · rw [Bool.eq_iff_iff, decide_eq_true hcid, Bool.true_and, Bool.true_and, hall]
      exact h r hr hcid hcount
    · rw [decide_eq_false hcid, Bool.false_and, Bool.false_and]
  · intro h r hr hcid hcount
    have heq := h r hr hcount
    rw [decide_eq_true hcid, Bool.true_and, Bool.true_and] at heq
    rw [heq, hall]

/-- Pages of a thousand at most: the walk is one page of its rows. -/
theorem walk_promise_iff (floor : Int) (n : Nat) :
    Keyset.page EventRow.id (walkRows db cid start floor pageSize) n = db.promised cid start n
      ↔ db.Agrees cid start floor pageSize n := by
  rw [promised_eq_page, agrees_iff]
  exact Keyset.page_filter_eq_iff db.events.keysNodup _ _ n

/-- The walk of a larger size comes to no more than its first page when
less than that page was asked for before. -/
theorem agrees_onePage_iff {floor : Int} {n : Nat} (hn : n ≤ pageSize) :
    db.Agrees cid start floor pageSize n ↔
      Keyset.page EventRow.id (db.since cid (Db.lowest start floor)) n
        = db.promised cid start n := by
  have hsame : Keyset.page EventRow.id (walkRows db cid start floor pageSize) n
      = Keyset.page EventRow.id (db.since cid (Db.lowest start floor)) n := by
    rw [walkRows_eq]
    refine (Keyset.page_filter_eq_iff db.events.keysNodup _ _ n).mpr fun r _ hcount => ?_
    have hshort : ¬ pageSize
        ≤ Keyset.countBelow EventRow.id (db.since cid (Db.lowest start floor)) r :=
      not_le_of_gt (lt_of_lt_of_le hcount hn)
    rw [decide_eq_false hshort, Bool.and_false, Bool.or_false]
  rw [← walk_promise_iff, hsame]

/-- Where all that was asked for fits `n` rows, looking further compares
nothing new. -/
theorem agrees_of_length_le {floor : Int} {n m : Nat} (hpage : n < pageSize)
    (hall : (db.asked cid start).length ≤ n) (h : db.Agrees cid start floor pageSize n) :
    db.Agrees cid start floor pageSize m := by
  rw [agrees_iff] at h ⊢
  intro r hr hcount
  by_cases hlt : Keyset.countBelow EventRow.id (db.asked cid start) r < n
  · exact h r hr hlt
  -- every row asked for is below `r`, so `r` is not one of them
  have hnot : (decide (r.contractId = cid) && start.all (· ≤ r.ledger)) = false := by
    by_contra hasked
    rw [Bool.not_eq_false] at hasked
    have hmem : r ∈ db.asked cid start := List.mem_filter.mpr ⟨hr, hasked⟩
    have hless : Keyset.countBelow EventRow.id (db.asked cid start) r
        < (db.asked cid start).length :=
      List.length_filter_lt_length_iff_exists.mpr ⟨r, hmem, by simp⟩
    omega
  have hfirst : decide (r.contractId = cid ∧ Db.lowest start floor ≤ r.ledger) = false := by
    by_contra hin
    rw [Bool.not_eq_false] at hin
    rw [asked_of_lowest hin] at hnot
    exact Bool.noConfusion hnot
  have hbelow : ¬ pageSize
      ≤ Keyset.countBelow EventRow.id (db.since cid (Db.lowest start floor)) r := by
    have hle : Keyset.countBelow EventRow.id (db.since cid (Db.lowest start floor)) r
        ≤ Keyset.countBelow EventRow.id (db.asked cid start) r := countBelow_since_le r
    have hlen : Keyset.countBelow EventRow.id (db.asked cid start) r
        ≤ (db.asked cid start).length := List.length_filter_le _ _
    omega
  rw [hnot, Db.served, decide_eq_false hbelow, Bool.and_false, Bool.or_false, ← Bool.decide_and]
  exact hfirst

/-- A store with nothing of the contract below the first ledger. -/
theorem agrees_of_lowest {floor : Int} {n : Nat}
    (h : ∀ r ∈ db.events.rows, r.contractId = cid → Db.lowest start floor ≤ r.ledger) :
    db.Agrees cid start floor pageSize n := by
  intro r hr hcid _
  have hle := h r hr hcid
  refine iff_of_true ?_ ?_
  · rw [Db.served, decide_eq_true hle, Bool.true_or]
  · rintro s rfl
    exact le_trans (le_max_left s floor) hle

/-- Where ids agree with ledgers and nothing is simulated, only the size
of the pages matters. -/
theorem holdsPromise_iff_of_tokenOrdered {maxPages : Nat} (hsize : 1 ≤ pageSize)
    (hord : TokenOrdered cid db) (hsim : simFloor db sim src.sourceParam = none) :
    HoldsPromise db sim src cid start pageSize maxPages ↔
      pageSize ≤ 1000 ∨ maxPages = 1 ∨ (db.asked cid start).length ≤ 1000 := by
  refine ⟨HoldsPromise.pages, fun h => ⟨h, ?_⟩⟩
  intro r hr hcid _
  rw [floorOf, hsim, Option.getD_none]
  have hnonneg := hord.nonneg r hr hcid
  have hfirst : Db.lowest start 0 ≤ r.ledger ↔ ∀ s ∈ start, s ≤ r.ledger := by
    cases start with
    | none => simpa [Db.lowest] using hnonneg
    | some s => simp [Db.lowest, hnonneg]
  rw [← hfirst, Db.served, Bool.or_eq_true, Bool.and_eq_true, decide_eq_true_eq,
    decide_eq_true_eq, decide_eq_true_eq]
  refine ⟨?_, .inl⟩
  rintro (hle | ⟨-, hbelow⟩)
  · exact hle
  -- some row from the first ledger on has a lower id, so a lower ledger
  obtain ⟨s, hs⟩ := List.exists_mem_of_length_pos (lt_of_lt_of_le hsize hbelow)
  obtain ⟨hsince, hlt⟩ := List.mem_filter.mp hs
  obtain ⟨hsin, hs⟩ := List.mem_filter.mp hsince
  rw [decide_eq_true_eq] at hlt hs
  exact le_trans hs.2 (hord.agree s hsin r hr hs.1 hcid hlt)

/-- A walk that stops within `n` rows holds the promised records exactly
when it holds the promised rows. -/
theorem records_promised_iff {keep : EventRow → Bool} (n m : Nat) :
    (Keyset.page EventRow.id (db.events.rows.filter keep) n).map (EventRow.record lib parse)
        = (db.promised cid start m).map (EventRow.record lib parse)
      ↔ Keyset.page EventRow.id (db.events.rows.filter keep) n = db.promised cid start m := by
  have hpage : ∀ {keep n}, ∀ r ∈ Keyset.page EventRow.id (db.events.rows.filter keep) n,
      r ∈ db.events.rows :=
    fun r hr => (List.mem_filter.mp (Keyset.mem_of_mem_page hr)).1
  have hpromised : ∀ r ∈ db.promised cid start m, r ∈ db.events.rows := by
    rw [promised_eq_page]
    exact hpage
  exact ⟨rows_eq_of_records hpage hpromised, congrArg _⟩

/-- The pages of a size up to a thousand. -/
theorem holdsPromise_iff_of_le {maxPages : Nat} (hmax : pageSize ≤ 1000) :
    HoldsPromise db sim src cid start pageSize maxPages ↔
      db.Agrees cid start (floorOf db sim src) pageSize (maxPages * pageSize) := by
  constructor
  · intro h
    have hrows := h.rows
    rwa [min_eq_left hmax] at hrows
  · intro h
    exact ⟨.inl hmax, by rwa [min_eq_left hmax]⟩

/-- No more than a thousand rows are promised. -/
theorem promised_eq_of_few {maxPages : Nat}
    (hfew : maxPages = 1 ∨ (db.asked cid start).length ≤ 1000) (hpages : 1 ≤ maxPages) :
    db.promised cid start (maxPages * 1000) = db.promised cid start 1000 := by
  rcases hfew with rfl | hlen
  · rw [Nat.one_mul]
  · have hsorted : (Keyset.orderBy EventRow.id (db.asked cid start)).length ≤ 1000 := by
      rwa [Keyset.orderBy_perm.length_eq]
    rw [Db.promised, Db.promised, List.take_of_length_le (by omega),
      List.take_of_length_le hsorted]

/-- The first page of a larger size is all there is of the walk. -/
theorem holdsPromise_iff_of_gt {maxPages : Nat} (hmax : 1000 < pageSize) (hpages : 1 ≤ maxPages) :
    HoldsPromise db sim src cid start pageSize maxPages ↔
      Keyset.page EventRow.id (db.since cid (Db.lowest start (floorOf db sim src))) (1000 : Nat)
        = db.promised cid start (maxPages * 1000) := by
  have hmin : min pageSize 1000 = 1000 := min_eq_right hmax.le
  constructor
  · intro h
    have hfew : maxPages = 1 ∨ (db.asked cid start).length ≤ 1000 :=
      h.pages.resolve_left (not_le_of_gt hmax)
    have hrows := h.rows
    rw [hmin] at hrows
    rw [promised_eq_of_few hfew hpages]
    exact (agrees_onePage_iff hmax.le).mp fun r hr hcid hcount => hrows r hr hcid (by omega)
  · intro heq
    have hfew : maxPages = 1 ∨ (db.asked cid start).length ≤ 1000 := by
      have hle : (db.promised cid start (maxPages * 1000)).length ≤ 1000 := by
        rw [← heq]
        exact Keyset.length_page_le 1000
      rw [Db.promised, List.length_take, Keyset.orderBy_perm.length_eq] at hle
      omega
    have hagree : db.Agrees cid start (floorOf db sim src) pageSize 1000 :=
      (agrees_onePage_iff hmax.le).mpr (heq.trans (promised_eq_of_few hfew hpages))
    refine ⟨.inr hfew, ?_⟩
    rw [hmin]
    rcases hfew with rfl | hlen
    · rwa [Nat.one_mul]
    · exact agrees_of_length_le hmax hlen hagree

/-- **What `allEvents` returns.** For every store, contract, start ledger,
page size and number of pages, the walk returns the promised rows, oldest
first and each once, exactly when no larger page was taken for the last
one and the pages by id come to the same rows. -/
theorem allEvents_promise_iff (lib : OrgJson) (url : EventSource → EventsQuery → String)
    (parse : String → Option Json) (sim : Option Int) (db : Db) (src : EventSource) (cid : String)
    (start : Option Int) {pageSize maxPages : Nat} (hsize : 1 ≤ pageSize) (hpages : 1 ≤ maxPages) :
    ∃ page, allEvents lib (indexer url parse sim db) cid start pageSize maxPages src = .ok page ∧
      (page.events = (db.promised cid start (maxPages * min pageSize 1000)).map
          (EventRow.record lib parse) ↔
        HoldsPromise db sim src cid start pageSize maxPages) := by
  obtain ⟨pages, rfl⟩ : ∃ pages, maxPages = pages + 1 := ⟨maxPages - 1, by omega⟩
  obtain ⟨page, hpage, hevents⟩ := allEvents_rows lib url parse sim db src cid start hsize pages
  refine ⟨page, hpage, ?_⟩
  rcases le_or_gt pageSize 1000 with hmax | hmax
  · rw [hevents, if_pos hmax, min_eq_left hmax, Nat.mul_comm pageSize, walkRows,
      records_promised_iff, ← walkRows, walk_promise_iff, holdsPromise_iff_of_le hmax]
  · rw [hevents, if_neg (not_le_of_gt hmax), min_eq_right hmax.le, Db.since,
      records_promised_iff, ← Db.since, holdsPromise_iff_of_gt hmax hpages]

end Walk

/-! ## On a store of harvests -/

theorem harvests_from {n : Nat} (hn : n ≤ 10 ^ 6) : ∀ r ∈ (harvestsDb n hn).events.rows,
    r.contractId = MetaConfig.goalMeta ∧ 0 ≤ r.ledger := by
  intro r hr
  obtain ⟨i, hi, rfl⟩ := List.mem_map.mp hr
  have hledger : (rowOf (harvestEvent i)).ledger = 3950128 + (i : Int) := rfl
  exact ⟨rfl, by omega⟩

/-- Three harvests, in pages of two. -/
theorem allEvents_promise_three :
    ∃ page, allEvents plainJson (indexer (fun _ _ => "http://localhost:8090/events") parseHarvest
        none (harvestsDb 3 (by decide))) MetaConfig.goalMeta none 2 25 (.raizMemory "") = .ok page ∧
      page.events = ((harvestsDb 3 (by decide)).promised MetaConfig.goalMeta none (25 * 2)).map
        (EventRow.record plainJson parseHarvest) := by
  obtain ⟨page, hpage, hiff⟩ := allEvents_promise_iff plainJson
    (fun _ _ => "http://localhost:8090/events") parseHarvest none (harvestsDb 3 (by decide))
    (.raizMemory "") MetaConfig.goalMeta none (by decide : 1 ≤ 2) (by decide : 1 ≤ 25)
  refine ⟨page, hpage, hiff.mpr ⟨.inl (by decide), ?_⟩⟩
  exact agrees_of_lowest fun r hr _ => (harvests_from _ r hr).2

/-- Of 1001 harvests asked for in two pages of 1001, the last is not
returned. -/
theorem allEvents_misses_one :
    ∃ page, allEvents plainJson (indexer (fun _ _ => "http://localhost:8090/events") parseHarvest
        none (harvestsDb 1001 (by decide))) MetaConfig.goalMeta none 1001 2 (.raizMemory "")
          = .ok page ∧
      page.events.length ≤ 1000 ∧
      page.events ≠ ((harvestsDb 1001 (by decide)).promised MetaConfig.goalMeta none
        (2 * min 1001 1000)).map (EventRow.record plainJson parseHarvest) := by
  obtain ⟨page, hpage, hevents⟩ := allEvents_rows plainJson
    (fun _ _ => "http://localhost:8090/events") parseHarvest none (harvestsDb 1001 (by decide))
    (.raizMemory "") MetaConfig.goalMeta none (by decide : 1 ≤ 1001) 1
  have hle : page.events.length ≤ 1000 := by
    rw [hevents, if_neg (by decide), List.length_map]
    exact Keyset.length_page_le 1000
  refine ⟨page, hpage, hle, fun heq => ?_⟩
  have hasked : (harvestsDb 1001 (by decide)).asked MetaConfig.goalMeta none
      = (harvestsDb 1001 (by decide)).events.rows :=
    List.filter_eq_self.mpr fun r hr => by
      rw [(harvests_from _ r hr).1]
      rfl
  have hrows : (harvestsDb 1001 (by decide)).events.rows.length = 1001 := by
    simp [harvestsDb]
  rw [heq, List.length_map, Db.promised, List.length_take, Keyset.orderBy_perm.length_eq, hasked,
    hrows] at hle
  omega

end RaizStack
