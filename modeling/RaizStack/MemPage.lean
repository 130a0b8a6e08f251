import RaizStack.MemEvents

/-!
# One `/events` answer

What a single answer holds, for any query and any store. `Matches` is the
selection in words of the request: the contract, the simulated floor, and
either the cursor or the start ledger. A query with a cursor goes on from
it and does not look at the start ledger, which is the rule of the RPC the
endpoint stands in for.

A limit that is not negative is capped at 1000 and kept. The cap is an
upper bound only and `LIMIT` takes a negative number for none, so a
negative limit serves everything (`answer_unlimited`).
-/

namespace RaizStack

/-! ## Selections -/

/-- The rows one query is about. No start ledger is ledger 0. -/
structure Matches (q : EventsQuery) (sim : Option Int) (db : Db) (r : EventRow) : Prop where
  stored : r ∈ db.events.rows
  contract : r.contractId = q.contractId
  floor : (simFloor db sim q.source).getD 0 ≤ r.ledger
  after : ∀ c, q.cursor = some c → c < r.id
  start : q.cursor = none → q.startLedger.getD 0 ≤ r.ledger

/-- The body lists the first `k` rows of a selection in id order, and its
cursor is the id of the last one. -/
def Lists (p : EventRow → Prop) (parse : String → Option Json) (k : Nat) (body : EventsBody) :
    Prop :=
  ∃ all : List EventRow, all.Pairwise (fun a b => a.id < b.id) ∧ (∀ r, r ∈ all ↔ p r)
    ∧ body.events = (all.take k).map (EventRow.toJson parse)
    ∧ body.cursor = body.events.getLast?.map EventJson.id

variable {q : EventsQuery} {sim : Option Int} {db : Db} {parse : String → Option Json}

/-- Both variants of the statement select the matching rows. -/
theorem rows_selects (q : EventsQuery) (sim : Option Int) (db : Db) :
    ∃ rows, q.rows sim db = Keyset.page EventRow.id rows q.pageSize
      ∧ (rows.map EventRow.id).Nodup ∧ ∀ r, r ∈ rows ↔ Matches q sim db r := by
  unfold EventsQuery.rows
  cases hcursor : q.cursor with
  | none =>
      rw [Db.eventRows_first]
      refine ⟨_, rfl, nodup_filter_ids _ _, fun r => ?_⟩
      rw [List.mem_filter, decide_eq_true_eq]
      constructor
      · rintro ⟨hr, hcid, hle⟩
        exact ⟨hr, hcid, le_trans (le_max_right _ _) hle, fun c hc => by simp [hcursor] at hc,
          fun _ => le_trans (le_max_left _ _) hle⟩
      · intro h
        exact ⟨h.stored, h.contract, max_le (h.start hcursor) h.floor⟩
  | some c =>
      rw [Db.eventRows_after]
      refine ⟨_, rfl, nodup_filter_ids _ _, fun r => ?_⟩
      rw [List.mem_filter, decide_eq_true_eq]
      constructor
      · rintro ⟨hr, hcid, hlt, hle⟩
        refine ⟨hr, hcid, hle, fun c' hc' => ?_, fun hnone => by simp [hcursor] at hnone⟩
        obtain rfl := Option.some.inj (hcursor.symm.trans hc')
        exact hlt
      · intro h
        exact ⟨h.stored, h.contract, h.after c hcursor, h.floor⟩

theorem answer_cursor (q : EventsQuery) (parse : String → Option Json) (sim : Option Int)
    (db : Db) :
    (q.answer parse sim db).cursor
      = (q.answer parse sim db).events.getLast?.map EventJson.id := by
  change (q.rows sim db).getLast?.map EventRow.id
    = ((q.rows sim db).map (EventRow.toJson parse)).getLast?.map EventJson.id
  rw [List.getLast?_map, Option.map_map]
  rfl

/-- A limit that keeps the first `k` rows of any list. -/
theorem lists_of_limit {k : Nat}
    (hk : ∀ rows : List EventRow, Keyset.limit q.pageSize rows = rows.take k) :
    Lists (Matches q sim db) parse k (q.answer parse sim db) := by
  obtain ⟨rows, hpage, hkeys, hrows⟩ := rows_selects q sim db
  refine ⟨Keyset.orderBy EventRow.id rows, Keyset.orderBy_strict hkeys,
    fun r => Keyset.mem_orderBy.trans (hrows r), ?_, answer_cursor q parse sim db⟩
  change (q.rows sim db).map (EventRow.toJson parse) = _
  rw [hpage, Keyset.page, hk]

/-! ## Limits -/

/-- **One page, exactly.** -/
theorem answer_exact (q : EventsQuery) (parse : String → Option Json) (sim : Option Int)
    (db : Db) (hlimit : 0 ≤ q.limit.getD 100) :
    (q.answer parse sim db).events.length ≤ 1000
      ∧ ∃ k : Nat, (k : Int) = min (q.limit.getD 100) 1000
          ∧ Lists (Matches q sim db) parse k (q.answer parse sim db) := by
  have hsize : 0 ≤ q.pageSize := le_min hlimit (by decide)
  obtain ⟨k, hk⟩ := Int.eq_ofNat_of_zero_le hsize
  have hlists : Lists (Matches q sim db) parse k (q.answer parse sim db) := by
    refine lists_of_limit fun rows => ?_
    rw [Keyset.limit_of_nonneg hsize, hk, Int.toNat_natCast]
  have hcap : (k : Int) ≤ 1000 := hk ▸ min_le_right _ _
  refine ⟨?_, k, hk.symm, hlists⟩
  obtain ⟨all, -, -, hevents, -⟩ := hlists
  rw [hevents, List.length_map]
  exact le_trans (List.length_take_le _ _) (Int.ofNat_le.mp hcap)

/-- A negative limit: whatever matches, however much it is. -/
theorem answer_unlimited (hlimit : q.limit.getD 100 < 0) :
    ∃ all : List EventRow, all.Pairwise (fun a b => a.id < b.id)
      ∧ (∀ r, r ∈ all ↔ Matches q sim db r)
      ∧ (q.answer parse sim db).events = all.map (EventRow.toJson parse) := by
  obtain ⟨rows, hpage, hkeys, hrows⟩ := rows_selects q sim db
  have hsize : q.pageSize < 0 := lt_of_le_of_lt (min_le_left _ _) hlimit
  refine ⟨Keyset.orderBy EventRow.id rows, Keyset.orderBy_strict hkeys,
    fun r => Keyset.mem_orderBy.trans (hrows r), ?_⟩
  change (q.rows sim db).map (EventRow.toJson parse) = _
  rw [hpage, Keyset.page, Keyset.limit, if_pos hsize]

/-- The second page of two, one event each. -/
def secondOfPair : EventsQuery :=
  { contractId := "CA", startLedger := none, cursor := some "e1", limit := some 1, source := none }

theorem answer_exact_second :
    (secondOfPair.answer (fun _ => none) none pairDb).events.length ≤ 1000
      ∧ ∃ k : Nat, (k : Int) = 1
          ∧ Lists (Matches secondOfPair none pairDb) (fun _ => none) k
              (secondOfPair.answer (fun _ => none) none pairDb) :=
  answer_exact secondOfPair (fun _ => none) none pairDb (by decide)

/-- A cursor in front of both rows, a start ledger between them. -/
def behindStart : EventsQuery :=
  { contractId := "CA", startLedger := some 6, cursor := some "e0", limit := none, source := none }

/-- The row below the start ledger is served. -/
theorem cursor_overrides_start :
    ¬ ∃ k : Nat, k ≤ 1000 ∧ (k : Int) ≤ behindStart.limit.getD 100
      ∧ Lists
          (fun r => Matches behindStart none pairDb r ∧ behindStart.startLedger.getD 0 ≤ r.ledger)
          (fun _ => none) k (behindStart.answer (fun _ => none) none pairDb) := by
  rintro ⟨k, -, -, all, -, hall, hevents, -⟩
  have hledgers : (behindStart.answer (fun _ => none) none pairDb).events.map EventJson.ledger
      = [5, 6] := by decide +kernel
  rw [hevents, List.map_map] at hledgers
  have hfive : (5 : Int) ∈ (all.take k).map (EventJson.ledger ∘ EventRow.toJson fun _ => none) := by
    rw [hledgers]
    exact List.mem_cons_self
  obtain ⟨r, hr, hledger⟩ := List.mem_map.mp hfive
  have hstart : (6 : Int) ≤ r.ledger := ((hall r).mp (List.mem_of_mem_take hr)).2
  have hfive' : r.ledger = 5 := hledger
  omega

end RaizStack
