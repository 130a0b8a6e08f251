import RaizStack.MemEvents
import RaizStack.MemReclamp
import RaizStack.MemScan

/-!
# No gap at any instant

`MemScan` says that nothing is missing up to the stored cursor. Between
two cursors the store is ahead of it, by the inserts of a page that is
being written or that a crash left half written. This file says that it
is ahead without a gap: a page is inserted in its order, so the rows of a
contract, from its mark on, are an initial part of the chain's events in
every state. A row that appears is then past all rows there were, which
is what a reader who pages while the index grows relies on.

A mark that moves back would claim events that were never asked for. Only
a first run writes it, and before there are rows it may move as it likes.
But a first run can stop between its first insert and its first cursor,
and the next one is a first run again: `StartsForward` asks of the ranges
the RPC then reports or names that they do not start it below the mark.
-/

namespace RaizStack

/-! ## The claim -/

/-- The rows of a contract from ledger `l` on have no gap. -/
def NoGap (H : History) (db : Db) (cid : String) (l : Int) : Prop :=
  Scan.Gapless RawEvent.id (H.of cid) (held db) (fromLedger l)

/-- What a first run is told of the RPC's range does not start it below the
mark `m`: neither the range that is reported nor that of a rejection. -/
def NotBefore (m : BackfillMark) : Pc → Reply → Prop
  | .resolve spec, .range a =>
      ∀ range, ledgerRange a = .ok range → m.effectiveStartLedger ≤ firstStart spec range
  | .getEvents v, .page (.error e) => v.cursor = none → v.clampRetries < maxClampRetries →
      ∀ oldest newest, parseLedgerRangeError e = some (oldest, newest) →
        m.effectiveStartLedger ≤ oldest
  | _, _ => True

/-- A contract that has rows is not started below its mark. -/
def StartsForward (w : World String) (act : String × Reply) : Prop :=
  ∀ m, w.db.backfillMarks.find? act.1 = some m →
    (∃ r ∈ w.db.events.rows, r.contractId = act.1) → NotBefore m (w.pcs act.1) act.2

/-- Runs against an RPC that lists in order and without omission, with
starts that do not move back. -/
def forwardStep (H : History) : World String → String × Reply → World String → Prop :=
  Lts.During StartsForward (ingestStep H id CursorOrEnd)

/-- A contract without a mark has no rows; one with a mark has no gap. -/
structure Unbroken (H : History) (db : Db) (cid : String) : Prop where
  unmarked : db.backfillMarks.find? cid = none → ∀ e ∈ H.of cid, e ∉ held db
  marked : ∀ m, db.backfillMarks.find? cid = some m → NoGap H db cid m.effectiveStartLedger

/-- What is left of a page to write is its end, and a mark that is about to
be written leaves no gap. -/
def PcNoGap (H : History) (db : Db) (cid : String) : Pc → Prop
  | .insertEvent _ page e rest => e :: rest <:+ page.events
  | .recordMark plan => NoGap H db cid plan.effective
  | .reclampMark _ oldest => NoGap H db cid oldest
  | _ => True

variable {H : History} {db db' : Db} {cid x : String} {pc pc' : Pc} {reply : Reply}

/-! ## Writing a page in its order -/

theorem pcNoGap_afterPage (v : Locals) (page : GetEventsResult) :
    PcNoGap H db cid (afterPage v page) := by
  unfold afterPage
  split <;> trivial

theorem pcNoGap_insertNext {v : Locals} {page : GetEventsResult} {rest : List RawEvent}
    (h : rest <:+ page.events) : PcNoGap H db cid (insertNext v page rest) := by
  cases rest with
  | cons e rest => exact h
  | nil =>
      rcases insertNext_nil v page with ⟨c, -, hpc⟩ | ⟨-, hpc⟩
      · rw [hpc]
        trivial
      · rw [hpc]
        exact pcNoGap_afterPage v page

theorem pcNoGap_afterGetCursor (spec : StartSpec) (cursor : Option String) (lastLedger : Int) :
    PcNoGap H db cid (afterGetCursor spec cursor lastLedger) := by
  unfold afterGetCursor
  split <;> trivial

/-- An insert holds nothing new but its event. -/
theorem held_insertEvent_sub {e a : RawEvent} (hmem : a ∈ H.events) (he : e ∈ H.events)
    (ha : a ∈ held (db.insertEvent (rowOf e))) : a ∈ held db ∨ a = e := by
  rcases Keyed.Table.mem_insertOrIgnore.mp ha with hold | ⟨heq, -⟩
  · exact Or.inl hold
  · exact Or.inr (H.idUnique a hmem e he (congrArg EventRow.id heq))

theorem Reached.mono {page : GetEventsResult} {i j : String} (h : Reached page j) (hle : i ≤ j) :
    Reached page i := by
  unfold Reached at h ⊢
  split
  · rename_i hnext
    simp only [hnext] at h
    exact le_trans hle h
  · rename_i hnext
    simp only [hnext] at h
    exact h.imp fun _ he => ⟨he.1, le_trans hle he.2⟩

section Write

variable {v : Locals} {page : GetEventsResult} {e : RawEvent} {rest : List RawEvent}

/-- An event the page was asked for, up to the one being written, is on the
page and not behind it. -/
theorem Writing.asked_upto (hw : Writing False H db cid v page (e :: rest))
    (hend : e :: rest <:+ page.events) (hrows : RowsOf H db) {a : RawEvent} (ha : a ∈ H.of cid)
    (hask : Asked (requestOf cid v) a) (hle : a.id ≤ e.id) :
    a ∈ held (db.insertEvent (rowOf e)) := by
  have he : e ∈ page.events := hend.subset List.mem_cons_self
  obtain ⟨hin, -, hreached⟩ := (hw.serves.lists e).mp he
  have hpage : a ∈ page.events :=
    (hw.serves.lists a).mpr ⟨ha.1, hask, hreached.mono hle⟩
  rcases hw.written a hpage with hleft | hheld
  · rcases List.mem_cons.mp hleft with rfl | hrest
    · exact held_insertEvent hrows hin
    · have hlater : e.id < a.id :=
        (List.pairwise_cons.mp (hw.serves.ordered.sublist hend.sublist)).1 a hrest
      exact absurd hle (not_le_of_gt hlater)
  · exact (Frame.insertEvent cid db (rowOf e)).held hheld

/-- Once an event is written, all from the mark up to it is held. -/
theorem Writing.upto (hw : Writing False H db cid v page (e :: rest))
    (hend : e :: rest <:+ page.events) (hrows : RowsOf H db) (hs : Scanned False H db cid)
    {m : BackfillMark} (hm : db.backfillMarks.find? cid = some m) :
    HeldBetween H (db.insertEvent (rowOf e)) cid m.effectiveStartLedger e.id := by
  have hgrown : held db ⊆ held (db.insertEvent (rowOf e)) :=
    (Frame.insertEvent cid db (rowOf e)).held
  intro a ha hfrom hle
  cases hv : v.cursor with
  | some c =>
      obtain ⟨l, hcur⟩ := hw.resuming.stored c hv
      obtain ⟨c', m', hc', hm', hcov, -⟩ := hs _ hcur
      obtain rfl : c = c' := Option.some.inj hc'
      obtain rfl : m' = m := Option.some.inj (hm'.symm.trans hm)
      rcases le_or_gt a.id c with hold | hpast
      · exact hgrown (hcov a ha hfrom hold)
      · exact hw.asked_upto hend hrows ha (asked_of_cursor hv ha.2 hpast) hle
  | none =>
      obtain ⟨m', s, hm', hstart, hbelow⟩ := hw.resuming.below (Or.inl hv)
      obtain rfl : m' = m := Option.some.inj (hm'.symm.trans hm)
      rcases lt_or_ge a.ledger s with hlt | hge
      · exact hgrown (hbelow a ha hfrom hlt)
      · have hpos : 1 ≤ a.ledger := H.ledgerPos a ha.1
        exact hw.asked_upto hend hrows ha (asked_of_start hv hstart ha.2 (max_le hge hpos)) hle

/-- A task that writes a page has a mark. -/
theorem Writing.marked (hw : Writing False H db cid v page (e :: rest))
    (hs : Scanned False H db cid) : ∃ m, db.backfillMarks.find? cid = some m := by
  cases hv : v.cursor with
  | some c =>
      obtain ⟨l, hcur⟩ := hw.resuming.stored c hv
      obtain ⟨-, m, -, hm, -⟩ := hs _ hcur
      exact ⟨m, hm⟩
  | none =>
      obtain ⟨m, -, hm, -⟩ := hw.resuming.below (Or.inl hv)
      exact ⟨m, hm⟩

end Write

/-! ## One answer -/

theorem Unbroken.congr (hu : Unbroken H db x) (hheld : held db' = held db)
    (hmark : db'.backfillMarks.find? x = db.backfillMarks.find? x) : Unbroken H db' x where
  unmarked := fun hnone => hheld ▸ hu.unmarked (hmark.symm.trans hnone)
  marked := fun m hm => by
    unfold NoGap
    rw [hheld]
    exact hu.marked m (hmark.symm.trans hm)

/-- A start leaves no gap where there are no rows, and none below the mark
that is not below it. -/
theorem Unbroken.start (hu : Unbroken H db cid) {l : Int}
    (hfwd : ∀ m, db.backfillMarks.find? cid = some m →
      (∃ r ∈ db.events.rows, r.contractId = cid) → m.effectiveStartLedger ≤ l) :
    NoGap H db cid l := by
  intro e he hheld
  cases hm : db.backfillMarks.find? cid with
  | none => exact absurd hheld (hu.unmarked hm e he)
  | some m =>
      have hle : m.effectiveStartLedger ≤ l := hfwd m hm ⟨rowOf e, hheld, he.2⟩
      exact (hu.marked m hm).mono_start (fun _ ha => le_trans hle ha) e he hheld

theorem pcNoGap_onError (hu : Unbroken H db cid) {v : Locals} {e : String}
    (hfwd : ∀ m, db.backfillMarks.find? cid = some m →
      (∃ r ∈ db.events.rows, r.contractId = cid) → NotBefore m (.getEvents v) (.page (.error e))) :
    PcNoGap H db cid (onError v e) := by
  unfold onError
  split
  · rename_i oldest newest hcursor hparse
    split
    · rename_i hretries
      exact hu.start fun m hm hrow => hfwd m hm hrow hcursor hretries oldest newest hparse
    · trivial
  · trivial

/-- What a task is about to write, after its answer. -/
theorem Resumed.pcNoGap (h : Resumed cid db pc reply db' pc') (hu : Unbroken H db cid)
    (hfwd : ∀ m, db.backfillMarks.find? cid = some m →
      (∃ r ∈ db.events.rows, r.contractId = cid) → NotBefore m pc reply)
    (hpc : PcNoGap H db cid pc) : PcNoGap H db' cid pc' := by
  cases h with
  | gotCursor spec now => exact pcNoGap_afterGetCursor _ _ _
  | resolved spec a plan hplan =>
      obtain ⟨range, hrange, rfl⟩ := resolve_eq_ok hplan
      refine hu.start fun m hm hrow => ?_
      rw [resolve_firstStart]
      exact hfwd m hm hrow range hrange
  | refused v e => exact pcNoGap_onError hu hfwd
  | served v page => exact pcNoGap_insertNext List.suffix_rfl
  | inserted v page e rest now =>
      exact pcNoGap_insertNext ((List.suffix_cons e rest).trans hpc)
  | advanced v page c now => exact pcNoGap_afterPage v page
  | _ => trivial

/-- **The step lemma.** A task's answer leaves its own contract without a
gap. -/
theorem Resumed.unbroken (h : Resumed cid db pc reply db' pc') (hrows : RowsOf H db)
    (hs : Scanned False H db cid) (hpc : PcOk False H db cid pc) (hgap : PcNoGap H db cid pc)
    (hu : Unbroken H db cid) : Unbroken H db' cid := by
  cases h with
  | marked plan now =>
      have hmark : (db.recordBackfillMark cid plan now).backfillMarks.find? cid
          = some (Db.markOf cid plan now) :=
        (Db.find?_marks_recordBackfillMark _ _).trans (if_pos rfl)
      refine ⟨fun hnone => absurd (hmark.symm.trans hnone) (Option.some_ne_none _), ?_⟩
      intro m hm
      obtain rfl := Option.some.inj (hmark.symm.trans hm)
      exact hgap
  | reclamped v oldest now =>
      have hmark : (db.reclampBackfillMark cid oldest).backfillMarks.find? cid
          = (db.backfillMarks.find? cid).map (Db.reclamp oldest) :=
        (Db.find?_marks_reclampBackfillMark _).trans (if_pos rfl)
      refine ⟨fun hnone => hu.unmarked (Option.map_eq_none_iff.mp (hmark.symm.trans hnone)), ?_⟩
      intro m hm
      obtain ⟨m₀, -, rfl⟩ := Option.map_eq_some_iff.mp (hmark.symm.trans hm)
      exact hgap
  | inserted v page e rest now =>
      have hin : e ∈ H.events := ((hpc.serves.lists e).mp (hpc.left e List.mem_cons_self)).1
      refine ⟨fun hnone => ?_, fun m hm => ?_⟩
      · obtain ⟨m, hm⟩ := hpc.marked hs
        exact absurd (hm.symm.trans hnone) (Option.some_ne_none _)
      · exact (hu.marked m hm).add (fun a ha => held_insertEvent_sub ha.1 hin)
          (Frame.insertEvent cid db (rowOf e)).held (hpc.upto hgap hrows hs hm)
  | _ => exact hu.congr rfl rfl

/-- Another contract's task brings no event of this one. -/
theorem Resumed.held_of_ne (h : Resumed cid db pc reply db' pc') (hx : x ≠ cid)
    (hpc : PcOk False H db cid pc) {a : RawEvent} (ha : a ∈ H.of x) (hheld : a ∈ held db') :
    a ∈ held db := by
  cases h with
  | inserted v page e rest now =>
      obtain ⟨hin, ⟨hcid, -⟩, -⟩ := (hpc.serves.lists e).mp (hpc.left e List.mem_cons_self)
      refine (held_insertEvent_sub ha.1 hin hheld).resolve_right ?_
      rintro rfl
      exact hx (ha.2.symm.trans hcid)
  | _ => exact hheld

theorem Resumed.noGap_of_ne (h : Resumed cid db pc reply db' pc') (hx : x ≠ cid)
    (hpc : PcOk False H db cid pc) {l : Int} (hgap : NoGap H db x l) : NoGap H db' x l :=
  hgap.mono_held (fun _ ha hheld => h.held_of_ne hx hpc ha hheld) (h.frame hx).held

theorem Resumed.unbroken_of_ne (h : Resumed cid db pc reply db' pc') (hx : x ≠ cid)
    (hpc : PcOk False H db cid pc) (hu : Unbroken H db x) : Unbroken H db' x where
  unmarked hnone e he hheld :=
    hu.unmarked ((h.frame hx).mark.symm.trans hnone) e he (h.held_of_ne hx hpc he hheld)
  marked m hm := h.noGap_of_ne hx hpc (hu.marked m ((h.frame hx).mark.symm.trans hm))

/-- What a task is about to write, while another one is answered. -/
theorem Resumed.pcNoGap_of_ne (h : Resumed cid db pc reply db' pc') (hx : x ≠ cid)
    (hpc : PcOk False H db cid pc) {own : Pc} (hown : PcNoGap H db x own) :
    PcNoGap H db' x own := by
  cases own with
  | recordMark plan => exact h.noGap_of_ne hx hpc hown
  | reclampMark v oldest => exact h.noGap_of_ne hx hpc hown
  | _ => exact hown

/-! ## Whole runs -/

structure NoGapInv (H : History) (w : World String) : Prop where
  scan : ScanInv False H id w
  unbroken : ∀ x, Unbroken H w.db x
  pcNoGap : ∀ x, PcNoGap H w.db x (w.pcs x)

variable {w w' : World String}

theorem noGapInv_fresh (H : History) : NoGapInv H (World.fresh String) where
  scan := scanInv_fresh False H id
  unbroken := fun _ =>
    { unmarked := fun _ _ _ hheld => List.not_mem_nil hheld
      marked := fun _ hm => absurd hm (by simp [World.fresh, Db.empty]) }
  pcNoGap := fun _ => trivial

theorem NoGapInv.step (hinv : NoGapInv H w) {act : String × Reply}
    (hst : forwardStep H w act w') : NoGapInv H w' := by
  obtain ⟨i, reply⟩ := act
  obtain ⟨hfwd, hhonest, hnext⟩ := hst
  obtain ⟨hres, hothers⟩ := World.next_eq_some hnext
  refine ⟨hinv.scan.step Function.injective_id (replyOk_of_honest hhonest) hnext,
    fun x => ?_, fun x => ?_⟩
  · by_cases hx : x = i
    · subst hx
      exact hres.unbroken hinv.scan.rowsOf (hinv.scan.scanned x) (hinv.scan.pcOk x)
        (hinv.pcNoGap x) (hinv.unbroken x)
    · exact hres.unbroken_of_ne hx (hinv.scan.pcOk i) (hinv.unbroken x)
  · by_cases hx : x = i
    · subst hx
      exact hres.pcNoGap (hinv.unbroken x) hfwd (hinv.pcNoGap x)
    · rw [hothers x hx]
      exact hres.pcNoGap_of_ne hx (hinv.scan.pcOk i) (hinv.pcNoGap x)

theorem NoGapInv.of_reach (h : Lts.Reach (· = World.fresh String) (forwardStep H) w) :
    NoGapInv H w :=
  h.invariant (fun _ hs => hs ▸ noGapInv_fresh H) fun _ _ _ _ hinv hst => hinv.step hst

theorem RowsOf.exists_held (hrows : RowsOf H db) {r : EventRow} (hr : r ∈ db.events.rows)
    (hcid : r.contractId = cid) : ∃ e ∈ H.of cid, r = rowOf e ∧ e ∈ held db := by
  obtain ⟨e, he, rfl⟩ := hrows r hr
  exact ⟨e, ⟨he, hcid⟩, rfl, hr⟩

/-- **No gap at any instant.** In every state of every run - half written
pages and crashes included - an event from the mark on that is not after
some stored row of its contract is one row of the store, with the fields
the RPC served. -/
theorem stored_without_gap (H : History) {w : World String}
    (h : Lts.Reach (· = World.fresh String) (forwardStep H) w) {cid : String} {m : BackfillMark}
    (hm : w.db.backfillMarks.find? cid = some m) {e : RawEvent} (he : e ∈ H.events)
    (hcid : e.contractId = cid) (hfrom : m.effectiveStartLedger ≤ e.ledger) {r : EventRow}
    (hr : r ∈ w.db.events.rows) (hrcid : r.contractId = cid) (hle : e.id ≤ r.id) :
    w.db.events.rows.filter (fun r => r.id = e.id) = [rowOf e] := by
  have hinv := NoGapInv.of_reach h
  obtain ⟨a, ha, rfl, hheld⟩ := hinv.scan.rowsOf.exists_held hr hrcid
  exact w.db.events.filter_key
    (((hinv.unbroken cid).marked m hm a ha hheld) e ⟨he, hcid⟩ hfrom hle)

/-- Rows of a chain are ordered as its events are. -/
theorem RowsOf.tokenOrdered (hrows : RowsOf H db) (cid : String) : TokenOrdered cid db where
  agree := by
    intro r hr r' hr' _ _ hlt
    obtain ⟨e, he, rfl⟩ := hrows r hr
    obtain ⟨e', he', rfl⟩ := hrows r' hr'
    exact H.ledgerMono e he e' he' hlt
  nonneg := by
    intro r hr _
    obtain ⟨e, he, rfl⟩ := hrows r hr
    exact le_trans (by decide) (H.ledgerPos e he)

/-! ## Rows appear at the end -/

theorem rows_stay (H : History) (h : Lts.Steps (forwardStep H) w w') :
    ∀ r ∈ w.db.events.rows, r ∈ w'.db.events.rows :=
  h.keeps (I := fun u => ∀ r ∈ w.db.events.rows, r ∈ u.db.events.rows)
    (fun _ _ _ hI hst r hr => (World.next_eq_some hst.2.2).1.rows r (hI r hr)) fun _ hr => hr

/-- What the store of a contract is while its mark stands. -/
structure Standing (q : EventsQuery) (m : BackfillMark) (db : Db) : Prop where
  cursor : ∃ r, db.cursors.find? q.contractId = some r
  mark : db.backfillMarks.find? q.contractId = some m

/-- A contract with a stored cursor keeps it and its mark. -/
theorem Resumed.standing {q : EventsQuery} {m : BackfillMark}
    (h : Resumed q.contractId db pc reply db' pc') (hpc : PcOk False H db q.contractId pc)
    (hstand : Standing q m db) : Standing q m db' := by
  obtain ⟨⟨r, hr⟩, hm⟩ := hstand
  cases h with
  | marked plan now => exact absurd (hpc.symm.trans hr) nofun
  | reclamped v oldest now =>
      obtain ⟨-, -, -, -, hcur | ⟨hfalse, -⟩⟩ := hpc
      · exact absurd (hcur.symm.trans hr) nofun
      · exact hfalse.elim
  | advanced v page c now =>
      exact ⟨⟨_, (Db.find?_cursors_setCursor _ _).trans (if_pos rfl)⟩, hm⟩
  | _ => exact ⟨⟨r, hr⟩, hm⟩

theorem Resumed.growsLater {q : EventsQuery} {m : BackfillMark}
    (h : Resumed x db pc reply db' pc') (hrows : RowsOf H db) (hpc : PcOk False H db x pc)
    (hu : Unbroken H db q.contractId) (hm : db.backfillMarks.find? q.contractId = some m)
    (hfrom : m.effectiveStartLedger ≤ q.startLedger.getD 0) : GrowsLater q db db' := by
  cases h with
  | inserted v page e rest now =>
      have hin : e ∈ H.events := ((hpc.serves.lists e).mp (hpc.left e List.mem_cons_self)).1
      refine ⟨fun r hr => hr.insert, fun r hr => ?_⟩
      rcases Keyed.Table.mem_insertOrIgnore.mp hr.1 with hold | ⟨rfl, hnew⟩
      · exact Or.inl ⟨hold, hr.2⟩
      · refine Or.inr fun r' hr' => ?_
        obtain ⟨a, ha, rfl, hheld⟩ := hrows.exists_held hr'.1 hr'.2.1
        have hnot : e ∉ held db := fun hheld => hnew (rowOf e) hheld rfl
        exact (hu.marked m hm).lt_of_not_held ⟨hin, hr.2.1⟩ (le_trans hfrom hr.2.2) hnot ha hheld
  | _ => exact ⟨fun _ hr => hr, fun _ hr => Or.inl hr⟩

/-- From a state where the contract has a cursor on, rows wanted from the
mark on appear only past those there were. -/
theorem grows_later (H : History) {w w' : World String} {q : EventsQuery} {m : BackfillMark}
    (h : Lts.Reach (· = World.fresh String) (forwardStep H) w)
    (hlater : Lts.Steps (forwardStep H) w w') (hstand : Standing q m w.db)
    (hfrom : m.effectiveStartLedger ≤ q.startLedger.getD 0) :
    Standing q m w'.db ∧ GrowsLater q w.db w'.db := by
  refine hlater.invariant (I := fun u => Standing q m u.db ∧ GrowsLater q w.db u.db) ?_ h
    ⟨hstand, .refl _ _⟩
  rintro u ⟨i, reply⟩ u' hu ⟨hs, hgrow⟩ ⟨-, -, hnext⟩
  have hinv := NoGapInv.of_reach hu
  obtain ⟨hres, -⟩ := World.next_eq_some hnext
  refine ⟨?_, hgrow.trans (hres.growsLater hinv.scan.rowsOf (hinv.scan.pcOk i)
    (hinv.unbroken _) hs.mark hfrom)⟩
  by_cases hi : q.contractId = i
  · subst hi
    exact hres.standing (hinv.scan.pcOk _) hs
  · have hframe := hres.frame hi
    exact ⟨hs.cursor.imp fun _ hr => hframe.cursor.trans hr, hframe.mark.trans hs.mark⟩

/-- The floor of the second first run is where the first one began. -/
theorem notBefore_five {m : BackfillMark} (hm : m.effectiveStartLedger = 5) :
    NotBefore m (.resolve .oldest) (.range ⟨.ok (some 5, some 20), .error "", .error ""⟩) := by
  intro range hrange
  cases hrange
  rw [hm]
  decide

/-- A crash before the first cursor, and one after the insert of the second
page: its row is there, the cursor is still that of the first page. -/
theorem stored_without_gap_cut :
    ∃ w : World String,
      Lts.Reach (· = World.fresh String) (forwardStep outageHistory) w
      ∧ (w.db.getCursor "CA").1 = some "0000000085899345920-0000000000"
      ∧ rowOf lateEvent ∈ w.db.events.rows
      ∧ w.db.events.rows.filter (fun r => r.id = loneEvent.id) = [rowOf loneEvent] := by
  have hfresh : Lts.Reach (· = World.fresh String) (forwardStep outageHistory)
      (World.fresh String) := .init rfl
  have hfirst := hfresh
    |>.next_during ("CA", .begin .oldest) (fun _ _ _ => trivial) trivial rfl
    |>.next_during ("CA", .dbOk "") (fun _ _ _ => trivial) trivial (World.next_update rfl)
    |>.next_during ("CA", .range ⟨.ok (some 5, some 20), .error "", .error ""⟩)
      (fun _ h => nomatch h) trivial (World.next_update rfl)
    |>.next_during ("CA", .dbOk "2026-08-03T00:00:00Z") (fun _ _ _ => trivial) trivial
      (World.next_update rfl)
    |>.next_during ("CA", .page (.ok lonePage)) (fun _ _ _ => trivial)
      ⟨lonePage_serves_outage, nofun⟩ (World.next_update rfl)
    |>.next_during ("CA", .dbOk "") (fun _ _ _ => trivial) trivial (World.next_update rfl)
    |>.next_during ("CA", .crash) (fun _ _ _ => trivial) trivial (World.next_update rfl)
  have hagain := hfirst
    |>.next_during ("CA", .begin .oldest) (fun _ _ _ => trivial) trivial (World.next_update rfl)
    |>.next_during ("CA", .dbOk "") (fun _ _ _ => trivial) trivial (World.next_update rfl)
    |>.next_during ("CA", .range ⟨.ok (some 5, some 20), .error "", .error ""⟩)
      (fun _ h _ => notBefore_five (Option.some.inj h ▸ rfl)) trivial (World.next_update rfl)
    |>.next_during ("CA", .dbOk "2026-08-04T00:00:00Z") (fun _ _ _ => trivial) trivial
      (World.next_update rfl)
    |>.next_during ("CA", .page (.ok lonePage)) (fun _ _ _ => trivial)
      ⟨lonePage_serves_outage, nofun⟩ (World.next_update rfl)
    |>.next_during ("CA", .dbOk "") (fun _ _ _ => trivial) trivial (World.next_update rfl)
    |>.next_during ("CA", .dbOk "") (fun _ _ _ => trivial) trivial (World.next_update rfl)
  have hreach := hagain
    |>.next_during ("CA", .begin .oldest) (fun _ _ _ => trivial) trivial (World.next_update rfl)
    |>.next_during ("CA", .dbOk "") (fun _ _ _ => trivial) trivial (World.next_update rfl)
    |>.next_during ("CA", .page (.ok latePage)) (fun _ _ _ => trivial) ⟨latePage_serves _, nofun⟩
      (World.next_update rfl)
    |>.next_during ("CA", .dbOk "") (fun _ _ _ => trivial) trivial (World.next_update rfl)
    |>.next_during ("CA", .crash) (fun _ _ _ => trivial) trivial (World.next_update rfl)
  have hlate : ∀ {rows}, rows = [rowOf loneEvent, rowOf lateEvent] → rowOf lateEvent ∈ rows := by
    rintro rows rfl
    exact List.mem_cons_of_mem _ (List.mem_singleton_self _)
  have hstored := @stored_without_gap outageHistory _ hreach "CA" _ rfl loneEvent (.inl rfl) rfl
    (by decide) (rowOf lateEvent) (hlate rfl) rfl (by decide)
  exact ⟨_, hreach, rfl, hlate rfl, hstored⟩

end RaizStack
