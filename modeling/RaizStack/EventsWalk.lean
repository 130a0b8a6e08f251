import RaizStack.EventsWire
import RaizStack.MemEvents

/-!
# The client's walk over a store

`EventsClient.allEvents` against the indexer over one store: a first page
from the start ledger, then pages by id, for a bounded number of pages.
The indexer filters every page after the first by id alone, so what the
pages hold is said by counting the rows the walk comes to.
-/

namespace RaizStack

open EventsClient

/-- The indexer as the client sees it: it answers every query over the
store. -/
def indexer (url : EventSource → EventsQuery → String) (parse : String → Option Json)
    (sim : Option Int) (db : Db) : Http :=
  { url := url
    get := fun _ q => .ok (q.answer parse sim db).json }

/-! ## The rows of a walk -/

namespace Db

variable (db : Db)

/-- The rows of a contract from a ledger on. -/
def since (cid : String) (start : Int) : List EventRow :=
  db.events.rows.filter fun r => r.contractId = cid ∧ start ≤ r.ledger

/-- The rows of a contract that `pages` pages of `size` can hold: the
first page from the start ledger and, when it is full, what follows its
last id. -/
def loadedRows (cid : String) (start : Int) (size pages : Nat) : List EventRow :=
  let first := db.eventRows cid (some start) none size none
  if first.length < size then first
  else
    match first.getLast? with
    | none => first
    | some x => first ++ db.eventRows cid none (some x.id) (size * (pages - 1) : Nat) none

/-- A walk from a ledger comes to this row: it is not before that ledger,
or a first page of such rows lies below its id. The pages after the first
filter by id alone. -/
def onWalk (start : Int) (size : Nat) (r : EventRow) : Bool :=
  decide (start ≤ r.ledger) ||
    (decide (0 ≤ r.ledger) &&
      decide (size ≤ ((db.since r.contractId start).filter fun s => s.id < r.id).length))

/-- How many rows of its contract a walk comes to before this row. -/
def ahead (start : Int) (size : Nat) (r : EventRow) : Nat :=
  (db.events.rows.filter fun s =>
    decide (s.contractId = r.contractId ∧ s.id < r.id) && db.onWalk start size s).length

variable {db} {cid : String} {start : Int} {size : Nat} {r : EventRow}

theorem eventRows_since (hstart : 0 ≤ start) (limit : Int) :
    db.eventRows cid (some start) none limit none
      = Keyset.page EventRow.id (db.since cid start) limit := by
  rw [eventRows_first, Option.getD_some, Option.getD_none, max_eq_left hstart]
  rfl

/-- Rows below a row with fewer than `size` rows before it since the
ledger are on the walk for their ledger only. -/
theorem onWalk_of_short
    (h : ((db.since r.contractId start).filter fun s => s.id < r.id).length < size) :
    db.onWalk start size r = decide (start ≤ r.ledger) := by
  rw [onWalk, decide_eq_false (not_le_of_gt h), Bool.and_false, Bool.or_false]

theorem onWalk_of_long (hstart : 0 ≤ start)
    (h : size ≤ ((db.since r.contractId start).filter fun s => s.id < r.id).length) :
    db.onWalk start size r = decide (0 ≤ r.ledger) := by
  rw [onWalk, decide_eq_true h, Bool.and_true, ← Bool.decide_or, decide_eq_decide]
  exact ⟨fun hr => hr.elim (le_trans hstart) id, .inr⟩

/-- Fewer rows lie below a lower id. -/
theorem length_below_le {l : List EventRow} {p q : EventRow → Prop} [DecidablePred p]
    [DecidablePred q] (h : ∀ s, p s → q s) :
    (l.filter fun s => p s).length ≤ (l.filter fun s => q s).length := by
  refine (List.monotone_filter_right l fun s hs => ?_).length_le
  rw [decide_eq_true_eq] at hs ⊢
  exact h s hs

/-- Where the walk comes to no row from before its ledger, what is ahead
is what lies below since that ledger. -/
theorem ahead_eq_since
    (h : ∀ s ∈ db.events.rows, s.contractId = r.contractId → s.id < r.id →
      db.onWalk start size s = decide (start ≤ s.ledger)) :
    db.ahead start size r = ((db.since r.contractId start).filter fun s => s.id < r.id).length := by
  have hsame : (db.events.rows.filter fun s =>
      decide (s.contractId = r.contractId ∧ s.id < r.id) && db.onWalk start size s)
      = (db.since r.contractId start).filter fun s => s.id < r.id := by
    rw [since, List.filter_filter]
    refine List.filter_congr fun s hs => ?_
    by_cases hbelow : s.contractId = r.contractId ∧ s.id < r.id
    · rw [h s hs hbelow.1 hbelow.2]
      simp [hbelow]
    · rw [decide_eq_false hbelow, Bool.false_and, ← Bool.decide_and]
      exact (decide_eq_false fun hs => hbelow ⟨hs.2.1, hs.1⟩).symm
  rw [ahead, hsame]

/-- Below a full first page a walk comes to the rows since its ledger. -/
theorem ahead_of_short
    (h : ((db.since r.contractId start).filter fun s => s.id < r.id).length < size) :
    db.ahead start size r = ((db.since r.contractId start).filter fun s => s.id < r.id).length := by
  refine ahead_eq_since fun s _ hcid hlt => onWalk_of_short ?_
  rw [hcid]
  exact lt_of_le_of_lt (length_below_le fun t ht => lt_trans ht hlt) h

/-- When ids agree with ledgers the walk comes to the rows since its
ledger and no others. -/
theorem ahead_of_tokenOrdered (hsize : 1 ≤ size) (hord : TokenOrdered r.contractId db) :
    db.ahead start size r = ((db.since r.contractId start).filter fun s => s.id < r.id).length := by
  refine ahead_eq_since fun s hs hcid _ => ?_
  by_cases hmany : size ≤ ((db.since s.contractId start).filter fun t => t.id < s.id).length
  · obtain ⟨t, ht⟩ := List.exists_mem_of_length_pos (lt_of_lt_of_le hsize hmany)
    obtain ⟨hsince, hts⟩ := List.mem_filter.mp ht
    obtain ⟨htin, ht⟩ := List.mem_filter.mp hsince
    rw [decide_eq_true_eq] at hts ht
    have hle : start ≤ s.ledger :=
      le_trans ht.2 (hord.agree t htin s hs (ht.1.trans hcid) hcid hts)
    rw [onWalk, decide_eq_true hle, Bool.true_or]
  · exact onWalk_of_short (not_le.mp hmany)

/-- Past a full first page with last row `x` a walk comes to the rows
after `x`, whatever their ledger. -/
theorem ahead_of_long {x : EventRow} (hstart : 0 ≤ start)
    (hlast : (Keyset.page EventRow.id (db.since r.contractId start) size).getLast? = some x)
    (hfull : (Keyset.page EventRow.id (db.since r.contractId start) size).length = size)
    (hlt : x.id < r.id) :
    db.ahead start size r = size + ((db.events.rows.filter fun s =>
      s.contractId = r.contractId ∧ x.id < s.id ∧ (0 : Int) ≤ s.ledger).filter
        fun s => s.id < r.id).length := by
  have hkeys : ((db.since r.contractId start).map EventRow.id).Nodup := nodup_filter_ids _ _
  have hx := List.mem_of_getLast? hlast
  have hupto : ((db.since r.contractId start).filter fun s => s.id ≤ x.id).length = size :=
    (Keyset.length_filter_le_getLast hkeys hlast).trans hfull
  have hbefore : ((db.since r.contractId start).filter fun s => s.id < x.id).length < size :=
    (Keyset.mem_page_iff_count hkeys (Keyset.mem_of_mem_page hx) size).mp hx
  have hfront : ((db.events.rows.filter fun s =>
      decide (s.contractId = r.contractId ∧ s.id < r.id) && db.onWalk start size s).filter
        fun s => s.id ≤ x.id) = (db.since r.contractId start).filter fun s => s.id ≤ x.id := by
    rw [since, List.filter_filter, List.filter_filter]
    refine List.filter_congr fun s _ => ?_
    by_cases hin : s.contractId = r.contractId ∧ s.id ≤ x.id
    · obtain ⟨hcid, hle⟩ := hin
      have hshort : ((db.since s.contractId start).filter fun t => t.id < s.id).length < size := by
        rw [hcid]
        exact lt_of_le_of_lt (length_below_le fun t ht => lt_of_lt_of_le ht hle) hbefore
      rw [onWalk_of_short hshort]
      simp [hcid, hle, lt_of_le_of_lt hle hlt]
    · grind
  have hback : ((db.events.rows.filter fun s =>
      decide (s.contractId = r.contractId ∧ s.id < r.id) && db.onWalk start size s).filter
        fun s => !decide (s.id ≤ x.id)) = (db.events.rows.filter fun s =>
      s.contractId = r.contractId ∧ x.id < s.id ∧ (0 : Int) ≤ s.ledger).filter
        fun s => s.id < r.id := by
    rw [List.filter_filter, List.filter_filter]
    refine List.filter_congr fun s _ => ?_
    by_cases hin : s.contractId = r.contractId ∧ x.id < s.id
    · obtain ⟨hcid, hgt⟩ := hin
      have hlong : size ≤ ((db.since s.contractId start).filter fun t => t.id < s.id).length := by
        rw [hcid, ← hupto]
        exact length_below_le fun t ht => lt_of_le_of_lt ht hgt
      rw [onWalk_of_long hstart hlong]
      simp [hcid, hgt]
    · grind
  rw [ahead, List.length_eq_length_filter_add fun s : EventRow => decide (s.id ≤ x.id), hfront,
    hback, hupto]

/-- **What the pages hold, by counting.** A row of a contract from the
start ledger on is on the pages exactly when the walk comes to fewer rows
before it than they hold. -/
theorem mem_loadedRows_iff {pages : Nat} (hstart : 0 ≤ start) (hsize : 1 ≤ size)
    (hr : r ∈ db.events.rows) (hledger : start ≤ r.ledger) :
    r ∈ db.loadedRows r.contractId start size (pages + 1)
      ↔ db.ahead start size r < size * (pages + 1) := by
  have hkeys : ((db.since r.contractId start).map EventRow.id).Nodup := nodup_filter_ids _ _
  have hsince : r ∈ db.since r.contractId start :=
    List.mem_filter.mpr ⟨hr, decide_eq_true ⟨rfl, hledger⟩⟩
  have hfirst := Keyset.mem_page_iff_count hkeys hsince size
  have hpages : size * (pages + 1) = size + size * pages := by
    rw [Nat.mul_succ, Nat.add_comm]
  rw [loadedRows, eventRows_since hstart]
  simp only [Nat.add_sub_cancel]
  by_cases hshort : ((db.since r.contractId start).filter fun s => s.id < r.id).length < size
  · -- on the first page
    have hahead := ahead_of_short hshort
    have hin := hfirst.mpr hshort
    refine iff_of_true ?_ (by omega)
    split
    · exact hin
    · split
      · exact hin
      · exact List.mem_append_left _ hin
  · have hout := mt hfirst.mp hshort
    have hfull : (Keyset.page EventRow.id (db.since r.contractId start) size).length = size := by
      refine le_antisymm (Keyset.length_page_le size) (not_lt.mp fun hlt => hout ?_)
      exact Keyset.mem_page_of_short (Int.ofNat_lt.mpr hlt) hsince
    obtain ⟨x, hx⟩ : ∃ x, (Keyset.page EventRow.id (db.since r.contractId start)
        size).getLast? = some x := exists_getLast (n := size) (by omega) (by omega)
    have hgt : x.id < r.id := by
      refine lt_of_not_ge fun hle => hout ?_
      exact Keyset.mem_page_of_le hkeys hsince (List.mem_of_getLast? hx) hle
    rw [if_neg (by omega), hx, ahead_of_long hstart hx hfull hgt]
    simp only [List.mem_append, or_iff_right hout, eventRows_after, Option.getD_none]
    by_cases hrow : r ∈ db.events.rows.filter fun s =>
        s.contractId = r.contractId ∧ x.id < s.id ∧ (0 : Int) ≤ s.ledger
    · rw [Keyset.mem_page_iff_count (nodup_filter_ids _ _) hrow]
      omega
    · exact absurd
        (List.mem_filter.mpr ⟨hr, decide_eq_true ⟨rfl, hgt, le_trans hstart hledger⟩⟩) hrow

theorem mem_rows_of_loaded {pages : Nat} (h : r ∈ db.loadedRows cid start size pages) :
    r ∈ db.events.rows := by
  have hpage : ∀ {startLedger : Option Int} {cursor : Option String} {limit : Int},
      r ∈ db.eventRows cid startLedger cursor limit none → r ∈ db.events.rows := by
    intro startLedger cursor limit hr
    cases cursor with
    | none => exact (List.mem_filter.mp (Keyset.mem_of_mem_page hr)).1
    | some c => exact (List.mem_filter.mp (Keyset.mem_of_mem_page hr)).1
  unfold Db.loadedRows at h
  simp only at h
  split at h
  · exact hpage h
  · split at h
    · exact hpage h
    · rcases List.mem_append.mp h with h | h
      · exact hpage h
      · exact hpage h

variable (db) in
theorem length_loadedRows_le (cid : String) (start : Int) (size pages : Nat) :
    (db.loadedRows cid start size (pages + 1)).length ≤ size * (pages + 1) := by
  have hfirst : (db.eventRows cid (some start) none size none).length ≤ size :=
    Keyset.length_page_le size
  have hrest : ∀ c, (db.eventRows cid none (some c) (size * pages : Nat) none).length
      ≤ size * pages := fun c => Keyset.length_page_le (size * pages)
  rw [Nat.mul_succ, Db.loadedRows]
  simp only [Nat.add_sub_cancel]
  split
  · omega
  · cases (db.eventRows cid (some start) none size none).getLast? with
    | none => exact le_add_left hfirst
    | some x =>
        have := hrest x.id
        simp only [List.length_append]
        omega

end Db

/-! ## One request -/

section Request

variable {lib : OrgJson} {url : EventSource → EventsQuery → String}
  {parse : String → Option Json} {sim : Option Int} {db : Db} {src : EventSource}

/-- The client's record of a row. -/
def EventRow.record (lib : OrgJson) (parse : String → Option Json) (r : EventRow) : EventRecord :=
  (r.toJson parse).record lib

theorem error_absent (b : EventsBody) : ifEmptyNull (lib.optString b.json "error") = none := by
  obtain ⟨latestLedger, events, cursor, oldestLedger⟩ := b
  cases oldestLedger <;> rfl

/-- A request gets the page of the indexer's answer. -/
theorem events_indexer (cid : String) (limit : Nat) (cursor : Option String)
    (start : Option Int) :
    events lib (indexer url parse sim db) cid limit cursor start src
      = .ok (((queryOf cid limit cursor start src).answer parse sim db).page lib src) := by
  unfold events getJson
  simp only [indexer, Fallible.ok_bind, error_absent]
  exact parsePage_json lib _ src _

theorem page_events (q : EventsQuery) :
    ((q.answer parse sim db).page lib src).events
      = (q.rows sim db).map (EventRow.record lib parse) := by
  simp only [EventsBody.page, EventsQuery.answer, List.map_map]
  rfl

/-- The cursor of a page that holds something is its last id. -/
theorem page_cursor {q : EventsQuery} {x : EventRow} (h : (q.rows sim db).getLast? = some x) :
    ((q.answer parse sim db).page lib src).cursor = some x.id := by
  have hcursor : lib.optString (q.answer parse sim db).json "cursor" = x.id := by
    have hget : (q.answer parse sim db).json.get? "cursor"
        = some (jsonOfOption ((q.rows sim db).getLast?.map EventRow.id)) := rfl
    rw [optString_ofOption lib hget, h]
    rfl
  have htoken : lib.optString (q.answer parse sim db).json "pagingToken" = "" := by
    unfold EventsQuery.answer
    cases simFloor db sim q.source <;> rfl
  have hlast : ((q.answer parse sim db).events.map (EventJson.record lib)).getLast?.map
      EventRecord.id = some x.id := by
    simp only [EventsQuery.answer, List.map_map, List.getLast?_map, h, Option.map_some]
    rfl
  unfold EventsBody.page cursorOf
  simp only [hcursor, htoken, hlast]
  by_cases hid : x.id = ""
  · rw [hid]
    rfl
  · rw [ifEmptyNull, if_neg hid]
    rfl

/-- A page declares a floor exactly when the server simulates one. -/
theorem page_oldestLedger (q : EventsQuery) :
    ((q.answer parse sim db).page lib src).oldestLedger.isSome
      = (simFloor db sim q.source).isSome := by
  unfold EventsBody.page EventsQuery.answer
  cases simFloor db sim q.source <;> rfl

theorem page_latestLedger (q : EventsQuery) (h : IsI64 db.latestLedger) :
    ((q.answer parse sim db).page lib src).latestLedger = db.latestLedger := by
  have hget : (q.answer parse sim db).json.get? "latestLedger"
      = some (.num (toString db.latestLedger)) := rfl
  exact optLong_num lib hget h

end Request

/-! ## The walk -/

section Walk

variable {lib : OrgJson} {url : EventSource → EventsQuery → String}
  {parse : String → Option Json} {sim : Option Int} {db : Db} {src : EventSource} {cid : String}
  {size : Nat}

/-- What every page of one load has in common. -/
structure FromIndexer (sim : Option Int) (db : Db) (src : EventSource)
    (page : EventsClient.EventsPage) : Prop where
  latestLedger : IsI64 db.latestLedger → page.latestLedger = db.latestLedger
  oldestLedger : page.oldestLedger.isSome = (simFloor db sim src.sourceParam).isSome

/-- How the loop asks for one page. -/
def fetchPage (lib : OrgJson) (http : Http) (cid : String) (size : Nat) (start : Int)
    (src : EventSource) (cursor : Option String) :
    Except EventsException EventsClient.EventsPage :=
  events lib http cid size cursor (if cursor = none then some start else none) src

/-- A page of the loop, when the server forgets nothing. -/
theorem fetchPage_indexer (lib : OrgJson) (url : EventSource → EventsQuery → String)
    (parse : String → Option Json) (cid : String) (hsize : 1 ≤ size)
    (hmax : (size : Int) ≤ maxPageSize) (start : Int)
    (hsim : simFloor db sim src.sourceParam = none) (cursor : Option String) :
    ∃ page, fetchPage lib (indexer url parse sim db) cid size start src cursor = .ok page ∧
      FromIndexer sim db src page ∧
      page.events = (db.eventRows cid (if cursor = none then some start else none) cursor size
        none).map (EventRow.record lib parse) ∧
      ∀ x, (db.eventRows cid (if cursor = none then some start else none) cursor size
        none).getLast? = some x → page.cursor = some x.id := by
  have hrows : (queryOf cid size cursor (if cursor = none then some start else none) src).rows
      sim db = db.eventRows cid (if cursor = none then some start else none) cursor size none := by
    have hlimit : min (min (max (size : Int) 1) maxPageSize) 1000 = size := by
      unfold maxPageSize at hmax ⊢
      omega
    unfold EventsQuery.rows queryOf
    simp only [Option.getD_some, hlimit, hsim]
    cases cursor <;> rfl
  refine ⟨_, events_indexer cid size cursor _, ⟨page_latestLedger _, page_oldestLedger _⟩, ?_, ?_⟩
  · rw [page_events, hrows]
  · intro x hx
    rw [← hrows] at hx
    exact page_cursor hx

/-- From a cursor on, `left` pages hold the first `size * left` rows past
it. The induction is on the pages left; a full page goes on from its last
id, which is past the cursor. -/
theorem followCursor_pages {rows : List EventRow} (hkeys : (rows.map EventRow.id).Nodup)
    {P : EventsClient.EventsPage → Prop}
    {fetch : Option String → Except EventsException EventsClient.EventsPage} (hsize : 1 ≤ size)
    (hfetch : ∀ c, ∃ page, fetch (some c) = .ok page ∧ P page ∧
      page.events = (Keyset.page EventRow.id (rows.filter fun r => c < r.id) size).map
        (EventRow.record lib parse) ∧
      ∀ x, (Keyset.page EventRow.id (rows.filter fun r => c < r.id) size).getLast? = some x →
        page.cursor = some x.id)
    (left : Nat) (c : String) (all : List EventRecord) {last : EventsClient.EventsPage}
    (hlast : P last) :
    ∃ page, followCursor fetch size left (some c) all (some last)
      = .ok (all ++ (Keyset.page EventRow.id (rows.filter fun r => c < r.id)
          (size * left : Nat)).map (EventRow.record lib parse), some page) ∧ P page := by
  induction left generalizing c all last with
  | zero =>
      refine ⟨last, ?_, hlast⟩
      rw [Nat.mul_zero, Keyset.page_natCast, List.take_zero, List.map_nil, List.append_nil]
      rfl
  | succ left ih =>
      obtain ⟨page, hpage, hP, hevents, hcursor⟩ := hfetch c
      have hlen : page.events.length
          = (Keyset.page EventRow.id (rows.filter fun r => c < r.id) size).length := by
        rw [hevents, List.length_map]
      have hmul : size * (left + 1) = size + size * left := by
        rw [Nat.mul_succ, Nat.add_comm]
      rw [followCursor, hpage, Fallible.ok_bind, hlen, hevents, hmul]
      by_cases hshort : (Keyset.page EventRow.id (rows.filter fun r => c < r.id) size).length < size
      · rw [if_pos (.inl hshort)]
        refine ⟨page, ?_, hP⟩
        rw [Keyset.page_of_short (size * left) hshort]
      · obtain ⟨x, hx⟩ : ∃ x, (Keyset.page EventRow.id (rows.filter fun r => c < r.id)
            size).getLast? = some x := exists_getLast (n := size) (by omega) (by omega)
        have hpast : c < x.id := by
          have hmem := Keyset.mem_of_mem_page (List.mem_of_getLast? hx)
          exact of_decide_eq_true (List.mem_filter.mp hmem).2
        have hgo : ¬ ((Keyset.page EventRow.id (rows.filter fun r => c < r.id) size).length < size ∨
            page.cursor = none ∨ page.cursor = some c) := by
          rw [hcursor x hx]
          rintro (h | h | h)
          · exact hshort h
          · cases h
          · exact absurd (Option.some.inj h) (ne_of_gt hpast)
        obtain ⟨page', hwalk, hP'⟩ := ih x.id (all ++ (Keyset.page EventRow.id
          (rows.filter fun r => c < r.id) size).map (EventRow.record lib parse)) hP
        have hrest : (rows.filter fun r => x.id < r.id)
            = (rows.filter fun r => c < r.id).filter fun r => x.id < r.id := by
          rw [List.filter_filter]
          refine List.filter_congr fun r _ => ?_
          by_cases hxr : x.id < r.id
          · rw [decide_eq_true hxr, decide_eq_true (lt_trans hpast hxr)]
            rfl
          · rw [decide_eq_false hxr, Bool.false_and]
        refine ⟨page', ?_, hP'⟩
        rw [if_neg hgo, hcursor x hx, hwalk, List.append_assoc, ← List.map_append, hrest,
          Keyset.page_append (hkeys.sublist (List.filter_sublist.map _)) _ hx]

/-- The pages of the indexer are pages of the rows from its floor on. -/
theorem eventRows_past (startLedger : Option Int) (c : String) (limit : Int)
    (floor : Option Int) :
    db.eventRows cid startLedger (some c) limit floor
      = Keyset.page EventRow.id ((db.since cid (floor.getD 0)).filter fun r => c < r.id) limit := by
  rw [Db.eventRows_after, Db.since, List.filter_filter]
  congr 1
  refine List.filter_congr fun r _ => ?_
  rw [← Bool.decide_and, decide_eq_decide]
  constructor
  · rintro ⟨hcid, hlt, hle⟩
    exact ⟨hlt, hcid, hle⟩
  · rintro ⟨hlt, hcid, hle⟩
    exact ⟨hcid, hlt, hle⟩

/-- The loop past a cursor, when the server forgets nothing. -/
theorem followCursor_after (lib : OrgJson) (url : EventSource → EventsQuery → String)
    (parse : String → Option Json) (cid : String) (hsize : 1 ≤ size)
    (hmax : (size : Int) ≤ maxPageSize) (start : Int)
    (hsim : simFloor db sim src.sourceParam = none) (left : Nat) (c : String)
    (all : List EventRecord) {last : EventsClient.EventsPage} (hlast : FromIndexer sim db src last) :
    ∃ page, followCursor (fetchPage lib (indexer url parse sim db) cid size start src) size left
        (some c) all (some last)
      = .ok (all ++ (db.eventRows cid none (some c) (size * left : Nat) none).map
          (EventRow.record lib parse), some page) ∧ FromIndexer sim db src page := by
  rw [eventRows_past]
  refine followCursor_pages (nodup_filter_ids _ _) hsize (fun c => ?_) left c all hlast
  obtain ⟨page, hpage, hfrom, hevents, hcursor⟩ :=
    fetchPage_indexer lib url parse cid hsize hmax start hsim (some c)
  rw [eventRows_past] at hevents hcursor
  exact ⟨page, hpage, hfrom, hevents, hcursor⟩

/-- What every page satisfies, the last page of a walk satisfies. -/
theorem followCursor_last {P : EventsClient.EventsPage → Prop}
    {fetch : Option String → Except EventsException EventsClient.EventsPage}
    (hfetch : ∀ c page, fetch c = .ok page → P page) {left : Nat} {cursor : Option String}
    {all evs : List EventRecord} {last o : Option EventsClient.EventsPage}
    (h : followCursor fetch size left cursor all last = .ok (evs, o))
    (hlast : left = 0 → ∃ page, last = some page ∧ P page) : ∃ page, o = some page ∧ P page := by
  induction left generalizing cursor all last with
  | zero =>
      cases h
      exact hlast rfl
  | succ left ih =>
      obtain ⟨page, hpage, h⟩ := Fallible.bind_eq_ok.mp h
      have hp : ∃ p, some page = some p ∧ P p := ⟨page, rfl, hfetch cursor page hpage⟩
      split at h
      · cases h
        exact hp
      · exact ih h fun _ => hp

/-- The walk of one contract: the rows its pages can hold, under labels
of the indexer. -/
theorem allEvents_indexer (lib : OrgJson) (url : EventSource → EventsQuery → String)
    (parse : String → Option Json) (cid : String) (size : Nat) (hsize : 1 ≤ size)
    (hmax : (size : Int) ≤ maxPageSize) (start : Int) (pages : Nat)
    (hsim : simFloor db sim src.sourceParam = none) :
    ∃ page, allEvents lib (indexer url parse sim db) cid (some start) size (pages + 1) src
        = .ok page ∧
      page.events = (db.loadedRows cid start size (pages + 1)).map (EventRow.record lib parse) ∧
      FromIndexer sim db src page := by
  obtain ⟨page, hpage, hfrom, hevents, hcursor⟩ :=
    fetchPage_indexer lib url parse cid hsize hmax start hsim none
  rw [if_pos rfl] at hevents hcursor
  have hlen : page.events.length = (db.eventRows cid (some start) none size none).length := by
    rw [hevents, List.length_map]
  have hwalk : ∃ last, followCursor (fetchPage lib (indexer url parse sim db) cid size start src)
      size (pages + 1) none [] none
      = .ok ((db.loadedRows cid start size (pages + 1)).map (EventRow.record lib parse), some last)
      ∧ FromIndexer sim db src last := by
    rw [followCursor, hpage, Fallible.ok_bind, hlen, hevents, Db.loadedRows]
    by_cases hshort : (db.eventRows cid (some start) none size none).length < size
    · exact ⟨page, by rw [if_pos (.inl hshort), if_pos hshort]; rfl, hfrom⟩
    · obtain ⟨x, hx⟩ : ∃ x, (db.eventRows cid (some start) none size none).getLast? = some x :=
        exists_getLast (n := size) (by omega) (by omega)
      have hgo : ¬ ((db.eventRows cid (some start) none size none).length < size ∨
          page.cursor = none ∨ page.cursor = none) := by
        rw [hcursor x hx]
        rintro (h | h | h)
        · exact hshort h
        · cases h
        · cases h
      obtain ⟨last, hafter, hlast⟩ := followCursor_after lib url parse cid hsize hmax start hsim
        pages x.id ([] ++ (db.eventRows cid (some start) none size
          none).map (EventRow.record lib parse)) hfrom
      refine ⟨last, ?_, hlast⟩
      rw [if_neg hgo, if_neg hshort, hcursor x hx, hafter, hx, List.nil_append, ← List.map_append]
      rfl
  obtain ⟨last, hwalk, hlast⟩ := hwalk
  refine ⟨_, by rw [allEvents]; exact congrArg (· >>= _) hwalk, rfl, ?_⟩
  exact ⟨hlast.latestLedger, hlast.oldestLedger⟩

theorem allEvents_oldestLedger {start : Option Int} {pages : Nat} {page : EventsClient.EventsPage}
    (h : allEvents lib (indexer url parse sim db) cid start size (pages + 1) src = .ok page) :
    page.oldestLedger.isSome = (simFloor db sim src.sourceParam).isSome := by
  obtain ⟨walked, hwalk, h⟩ := Fallible.bind_eq_ok.mp h
  cases h
  obtain ⟨last, hlast, hfrom⟩ := followCursor_last (P := fun p =>
    p.oldestLedger.isSome = (simFloor db sim src.sourceParam).isSome) (by
      intro c p hp
      rw [events_indexer] at hp
      cases hp
      exact page_oldestLedger _) hwalk nofun
  simp only [hlast, Option.bind_some]
  exact hfrom

end Walk

end RaizStack
