import RaizStack.MemScan
import RaizStack.MemToken

/-!
# What `/coverage` claims

`/coverage` reports a contract as scanned from `historyBeginsAtLedger`
through `scannedThroughLedger`, in whole ledgers. The store keeps a
position, and a ledger is what remains of it after a shift. The report
is honest as long as every page ends between two ledgers; a page cut at
100 events in the middle of one makes it claim that ledger while the rest
of it is still to come.
-/

namespace RaizStack

/-! ## Reports -/

theorem mem_coverage {db : Db} {rep : Db.CoverageReport} :
    rep ∈ db.coverage ↔ ∃ cid ∈ db.coveredIds, rep = db.coverageOf cid := by
  simp only [Db.coverage, List.mem_map, eq_comm]

theorem mem_coveredIds {db : Db} {cid : String} :
    cid ∈ db.coveredIds ↔
      (∃ r, db.cursors.find? cid = some r) ∨ ∃ m, db.backfillMarks.find? cid = some m := by
  simp only [Db.coveredIds, List.mem_insertionSort, List.mem_dedup, List.mem_append,
    List.mem_map, Keyed.Table.find?_eq_some]

/-- The report of one contract is honest: every event of a ledger it
claims is stored. -/
def HonestReport (H : History) (db : Db) (rep : Db.CoverageReport) : Prop :=
  ∀ e ∈ H.events, e.contractId = rep.contractId → rep.historyBeginsAtLedger ≤ e.ledger →
    e.ledger ≤ rep.scannedThroughLedger → rowOf e ∈ db.events.rows

/-! ## Whole ledgers -/

/-- Pages are capped by the limit that was asked for. -/
def Capped (_ : Locals) (page : GetEventsResult) : Prop :=
  page.events.length ≤ pageLimit

/-- The condition on a page the indexer is answered: it ends between two
ledgers. (And should the scan have started over by ledger after a page
without a cursor, a rejection must not take the frozen mark back over
events that were never asked for.) -/
def WholeLedgers (H : History) (w : World String) (act : String × Reply) : Prop :=
  match w.pcs act.1, act.2 with
  | .getEvents _, .page (.ok page) => EndsLedger H act.1 page
  | .getEvents v, .page (.error e) => v.cursor = none →
      ∀ range r m, parseLedgerRangeError e = some range →
        w.db.cursors.find? act.1 = some r → w.db.backfillMarks.find? act.1 = some m →
        ∀ ev ∈ H.of act.1, range.1 ≤ ev.ledger → m.effectiveStartLedger ≤ ev.ledger
  | _, _ => True

theorem replyOk_of_wholeLedgers {H : History} {ok : Locals → GetEventsResult → Prop}
    {w : World String} {cid : String} {reply : Reply} (h : Honest H id ok w (cid, reply))
    (hwhole : WholeLedgers H w (cid, reply)) : ReplyOk True H w.db cid (w.pcs cid) reply := by
  cases hpc : w.pcs cid with
  | getEvents v =>
      cases reply with
      | page answer =>
          cases answer with
          | ok page =>
              simp only [Honest, WholeLedgers, hpc] at h hwhole
              exact ⟨h.1, Or.inl trivial, fun _ => hwhole⟩
          | error e =>
              simp only [WholeLedgers, hpc] at hwhole
              exact fun _ => hwhole
      | _ => trivial
  | _ => trivial

/-- A contract with a mark is reported honestly in every state the
invariant holds in. -/
theorem Scanned.honestReport {H : History} {db : Db} {cid : String}
    (hs : Scanned True H db cid) {m : BackfillMark}
    (hm : db.backfillMarks.find? cid = some m) : HonestReport H db (db.coverageOf cid) := by
  intro e he hcid hbegins hthrough
  have heff : m.effectiveStartLedger ≤ e.ledger := by
    simpa [Db.coverageOf, hm] using hbegins
  cases hcur : db.cursors.find? cid with
  | none =>
      have hle : e.ledger ≤ 0 := by simpa [Db.coverageOf, hcur] using hthrough
      have hpos : 1 ≤ e.ledger := H.ledgerPos e he
      omega
  | some r =>
      obtain ⟨c, m', -, hm', hcov, hclosed⟩ := hs r hcur
      obtain rfl := Option.some.inj (hm.symm.trans hm')
      have hle : e.ledger ≤ r.lastLedger := by simpa [Db.coverageOf, hcur] using hthrough
      exact hcov.of_level (hclosed trivial) ⟨he, hcid⟩ heff hle

/-- **Honest coverage, for whole ledgers.** In every run whose pages end
between two ledgers, every report of a contract with a mark is honest in
every state, mid-tick states and crashes included. -/
theorem coverage_honest (H : History) {w : World String}
    (h : Lts.Reach (· = World.fresh String)
      (Lts.During (WholeLedgers H) (ingestStep H id Capped)) w) :
    ∀ rep ∈ w.db.coverage, rep.backfill.isSome → HonestReport H w.db rep := by
  have hinv : ScanInv True H id w :=
    h.invariant (fun _ hs => hs ▸ scanInv_fresh True H id) fun _ _ _ _ hinv hst =>
      hinv.step Function.injective_id (replyOk_of_wholeLedgers hst.2.1 hst.1) hst.2.2
  intro rep hrep hsome
  obtain ⟨cid, -, rfl⟩ := mem_coverage.mp hrep
  cases hm : w.db.backfillMarks.find? cid with
  | none => simp [Db.coverageOf, hm] at hsome
  | some m => exact (hinv.scanned cid).honestReport hm

/-- Two ticks of a page each, through ledger 20 and through ledger 70, with
a crash between. -/
theorem coverage_honest_resumed :
    ∃ w : World String,
      Lts.Reach (· = World.fresh String)
        (Lts.During (WholeLedgers outageHistory) (ingestStep outageHistory id Capped)) w
      ∧ ∃ rep ∈ w.db.coverage, rep.historyBeginsAtLedger = 5 ∧ rep.scannedThroughLedger = 70
        ∧ HonestReport outageHistory w.db rep := by
  have hfresh : Lts.Reach (· = World.fresh String)
      (Lts.During (WholeLedgers outageHistory) (ingestStep outageHistory id Capped))
      (World.fresh String) := .init rfl
  have hcapped : ∀ {v page e}, page.events = [e] → Capped v page := by
    intro v page e hevents
    rw [Capped, hevents, List.length_singleton]
    decide
  have hlone : EndsLedger outageHistory "CA" lonePage := by
    rintro c hc e ⟨rfl | rfl, -⟩ hlt
    · obtain rfl := Option.some.inj hc
      exact absurd hlt (by decide)
    · decide
  have hlate : EndsLedger outageHistory "CA" latePage := by
    rintro c hc e ⟨rfl | rfl, -⟩ hlt
    · obtain rfl := Option.some.inj hc
      exact absurd hlt (by decide)
    · obtain rfl := Option.some.inj hc
      exact absurd hlt (by decide)
  have hreach := hfresh
    |>.next_during ("CA", .begin .oldest) trivial trivial rfl
    |>.next_during ("CA", .dbOk "") trivial trivial (World.next_update rfl)
    |>.next_during ("CA", .range ⟨.ok (some 5, some 20), .error "", .error ""⟩) trivial trivial
      (World.next_update rfl)
    |>.next_during ("CA", .dbOk "2026-08-03T00:00:00Z") trivial trivial (World.next_update rfl)
    |>.next_during ("CA", .page (.ok lonePage)) hlone ⟨lonePage_serves_outage, hcapped rfl⟩
      (World.next_update rfl)
    |>.next_during ("CA", .dbOk "") trivial trivial (World.next_update rfl)
    |>.next_during ("CA", .dbOk "") trivial trivial (World.next_update rfl)
    |>.next_during ("CA", .crash) trivial trivial (World.next_update rfl)
    |>.next_during ("CA", .begin .oldest) trivial trivial (World.next_update rfl)
    |>.next_during ("CA", .dbOk "") trivial trivial (World.next_update rfl)
    |>.next_during ("CA", .page (.ok latePage)) hlate ⟨latePage_serves _, hcapped rfl⟩
      (World.next_update rfl)
    |>.next_during ("CA", .dbOk "") trivial trivial (World.next_update rfl)
    |>.next_during ("CA", .dbOk "") trivial trivial (World.next_update rfl)
  refine ⟨_, hreach, _, mem_coverage.mpr ⟨"CA", mem_coveredIds.mpr (Or.inl ⟨_, rfl⟩), rfl⟩,
    rfl, rfl, ?_⟩
  exact coverage_honest outageHistory hreach _
    (mem_coverage.mpr ⟨"CA", mem_coveredIds.mpr (Or.inl ⟨_, rfl⟩), rfl⟩) rfl

/-! ## A ledger cut by the page limit -/

section Burst

/-- The run of inserts between a page and its cursor. -/
theorem reach_inserts {H : History} {ok : Locals → GetEventsResult → Prop} {w : World String}
    {cid c : String} {v : Locals} {page : GetEventsResult} {rest : List RawEvent}
    (h : Lts.Reach (· = World.fresh String) (ingestStep H id ok) w)
    (hpc : w.pcs cid = insertNext v page rest) (hc : page.next = some c) :
    ∃ w', Lts.Reach (· = World.fresh String) (ingestStep H id ok) w'
      ∧ w'.pcs cid = .setCursor v page c
      ∧ w'.db = rest.foldl (fun db e => db.insertEvent (rowOf e)) w.db := by
  induction rest generalizing w with
  | nil =>
      refine ⟨w, h, ?_, rfl⟩
      rw [hpc, insertNext, afterInserts, hc]
  | cons e rest ih =>
      have hnext : w.next id (cid, .dbOk "") = some
          { db := w.db.insertEvent (rowOf e)
            pcs := Function.update w.pcs cid (insertNext v page rest) } := by
        simp [World.next, hpc, insertNext, resume]
      have hallow : Honest H id ok w (cid, .dbOk "") := by
        simp [Honest, hpc, insertNext]
      exact ih (h.next _ hallow hnext) (Function.update_self ..)

/-- Inserting events adds only their rows. -/
theorem mem_rows_inserts {db : Db} {rest : List RawEvent} {r : EventRow}
    (hr : r ∈ (rest.foldl (fun db e => db.insertEvent (rowOf e)) db).events.rows) :
    r ∈ db.events.rows ∨ ∃ e ∈ rest, r = rowOf e := by
  induction rest generalizing db with
  | nil => exact Or.inl hr
  | cons e rest ih =>
      rcases ih hr with hin | ⟨e', he', rfl⟩
      · rcases Keyed.Table.mem_insertOrIgnore.mp hin with hold | ⟨rfl, -⟩
        · exact Or.inl hold
        · exact Or.inr ⟨e, List.mem_cons_self, rfl⟩
      · exact Or.inr ⟨e', List.mem_cons_of_mem _ he', rfl⟩

theorem marks_inserts (db : Db) (rest : List RawEvent) :
    (rest.foldl (fun db e => db.insertEvent (rowOf e)) db).backfillMarks = db.backfillMarks := by
  induction rest generalizing db with
  | nil => rfl
  | cons e rest ih =>
      rw [List.foldl_cons, ih]
      rfl

/-- The `k`-th event of one busy transaction of ledger 10. -/
def burstEvent (k : Nat) : RawEvent :=
  { id := pagingToken (10 <<< 32) k, contractId := "CA", ledger := 10, txHash := none,
    topic := [], value := .str "AAAAAQ==", ledgerClosedAt := none,
    inSuccessfulContractCall := true }

theorem burstEvent_lt {i j : Nat} (hi : i < 101) (hj : j < 101) :
    (burstEvent i).id < (burstEvent j).id ↔ i < j :=
  pagingToken_lt_iff_index _ (by omega) (by omega)

theorem burstEvent_le {i j : Nat} (hi : i < 101) (hj : j < 101) :
    (burstEvent i).id ≤ (burstEvent j).id ↔ i ≤ j :=
  pagingToken_le_iff_index _ (by omega) (by omega)

/-- A chain with 101 events of one contract in ledger 10. -/
def burstHistory : History where
  events := {e | ∃ k < 101, e = burstEvent k}
  idUnique := by
    rintro e ⟨i, hi, rfl⟩ e' ⟨j, hj, rfl⟩ hid
    have hij : i ≤ j := (burstEvent_le hi hj).mp (le_of_eq hid)
    have hji : j ≤ i := (burstEvent_le hj hi).mp (le_of_eq hid.symm)
    rw [le_antisymm hij hji]
  ledgerMono := by
    rintro e ⟨i, hi, rfl⟩ e' ⟨j, hj, rfl⟩ _
    exact le_rfl
  ledgerPos := by
    rintro e ⟨i, hi, rfl⟩
    exact (by decide : (1 : Int) ≤ 10)

/-- The first page of it: 100 events, and the last one as its cursor. -/
def burstPage : GetEventsResult :=
  { events := (List.range 100).map burstEvent, latestLedger := 20,
    cursor := some (burstEvent 99).id, pagingToken := none, oldestLedger := some 5 }

theorem burstPage_serves : Serves burstHistory
    (requestOf "CA" { start := some 5, cursor := none, clampRetries := 0 }) burstPage where
  ordered := by
    refine List.pairwise_map.mpr (List.pairwise_lt_range.imp_of_mem ?_)
    intro i j hi hj hlt
    rw [List.mem_range] at hi hj
    exact (burstEvent_lt (by omega) (by omega)).mpr hlt
  lists := fun e => by
    constructor
    · intro he
      obtain ⟨k, hk, rfl⟩ := List.mem_map.mp he
      rw [List.mem_range] at hk
      refine ⟨⟨k, by omega, rfl⟩, ⟨rfl, ?_⟩, ?_⟩
      · show max (5 : Int) 1 ≤ 10
        decide
      · show (burstEvent k).id ≤ (burstEvent 99).id
        exact (burstEvent_le (by omega) (by omega)).mpr (by omega)
    · rintro ⟨⟨k, hk, rfl⟩, -, hle⟩
      have hk99 : k ≤ 99 := (burstEvent_le hk (by omega)).mp hle
      exact List.mem_map.mpr ⟨k, List.mem_range.mpr (by omega), rfl⟩

theorem scannedThrough_burstPage : scannedThrough burstPage = 10 := by
  have hcur : cursorLedger (burstEvent 99).id = some 10 :=
    cursorLedger_of_token (by decide) 99
  have hnext : burstPage.next = some (burstEvent 99).id := rfl
  rw [scannedThrough, hnext, Option.bind_some, hcur]
  rfl

/-- The store of a first run that was told the window 5 - 20. -/
def burstStart : Db :=
  Db.empty.recordBackfillMark "CA" (StartPlan.resolve ⟨5, 20⟩ .oldest) "2026-08-03T00:00:00Z"

theorem reach_burstPage :
    ∃ w : World String,
      Lts.Reach (· = World.fresh String) (ingestStep burstHistory id Capped) w
      ∧ w.pcs "CA" = insertNext { start := some 5, cursor := none, clampRetries := 0 }
          burstPage burstPage.events
      ∧ w.db = burstStart := by
  have hfresh : Lts.Reach (· = World.fresh String) (ingestStep burstHistory id Capped)
      (World.fresh String) := .init rfl
  have hcapped : Capped { start := some 5, cursor := none, clampRetries := 0 } burstPage := by
    simp [Capped, burstPage, pageLimit]
  have hpaged := hfresh
    |>.next ("CA", .begin .oldest) trivial rfl
    |>.next ("CA", .dbOk "") trivial rfl
    |>.next ("CA", .range ⟨.ok (some 5, some 20), .error "", .error ""⟩) trivial rfl
    |>.next ("CA", .dbOk "2026-08-03T00:00:00Z") trivial rfl
    |>.next ("CA", .page (.ok burstPage)) ⟨burstPage_serves, hcapped⟩ rfl
  exact ⟨_, hpaged, rfl, rfl⟩

/-- **`/coverage` can overstate.** After the first page of a ledger with
101 events the contract is reported as scanned through that ledger, and
the last of its events is not stored. -/
theorem coverage_overstates :
    ∃ w : World String,
      Lts.Reach (· = World.fresh String) (ingestStep burstHistory id Capped) w
      ∧ ∃ rep ∈ w.db.coverage, rep.backfill.isSome
        ∧ ¬ HonestReport burstHistory w.db rep := by
  obtain ⟨w₀, hw₀, hpc₀, hdb₀⟩ := reach_burstPage
  obtain ⟨w, hw, hpc, hdb⟩ := reach_inserts hw₀ hpc₀ (rfl : burstPage.next = some _)
  rw [hdb₀] at hdb
  have hallow : Honest burstHistory id Capped w ("CA", .dbOk "") := by
    simp [Honest, hpc]
  have hnext : w.next id ("CA", .dbOk "") = some
      { db := w.db.setCursor "CA" (burstEvent 99).id 10
        pcs := Function.update w.pcs "CA"
          (afterPage { start := some 5, cursor := none, clampRetries := 0 } burstPage) } := by
    simp [World.next, hpc, resume, scannedThrough_burstPage]
  have hcur : (w.db.setCursor "CA" (burstEvent 99).id 10).cursors.find? "CA"
      = some ⟨"CA", some (burstEvent 99).id, 10⟩ :=
    Db.find?_cursors_setCursor _ _ |>.trans (if_pos rfl)
  obtain ⟨m, hm, heff⟩ : ∃ m, w.db.backfillMarks.find? "CA" = some m
      ∧ m.effectiveStartLedger = 5 := by
    rw [hdb, marks_inserts]
    exact ⟨_, rfl, rfl⟩
  refine ⟨_, hw.next _ hallow hnext, _, mem_coverage.mpr ⟨"CA", ?_, rfl⟩, ?_, fun hhonest => ?_⟩
  · exact mem_coveredIds.mpr (Or.inl ⟨_, hcur⟩)
  · simp [Db.coverageOf, hm]
  · have hstored := hhonest (burstEvent 100) ⟨100, by omega, rfl⟩ rfl
      (by simp [Db.coverageOf, hm, heff, burstEvent])
      (by simp [Db.coverageOf, Db.find?_cursors_setCursor, burstEvent])
    rw [Db.events_setCursor, hdb] at hstored
    rcases mem_rows_inserts hstored with hold | ⟨e, he, hrow⟩
    · cases hold
    · obtain ⟨k, hk, rfl⟩ := List.mem_map.mp he
      rw [List.mem_range] at hk
      have hid : (burstEvent 100).id = (burstEvent k).id := congrArg EventRow.id hrow
      have hle : 100 ≤ k := (burstEvent_le (by omega) (by omega)).mp (le_of_eq hid)
      omega

end Burst

end RaizStack
