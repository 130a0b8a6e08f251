import RaizStack.Scan
import RaizStack.MemIngest

/-!
# Nothing is missing below the cursor

The indexer against an RPC that lists events in order and without
omission. The scan keeps a checkpoint (the stored cursor) and a start
(the backfill mark), and the invariant is `Scan.Covered` between the
two. It is stated per contract in two layers:

- `Scanned` - what the store says at rest, whatever the task is doing;
- `PcOk` - what the task knows at each stop: which cursor it holds, and
  how much of the page it is writing is already stored.

A statement of the task keeps both for its own contract
(`Resumed.keeps`); a statement of another contract's task only adds rows
(`Resumed.frame`). Every crash point is a stop, so nothing is said about
crashes separately.

The invariant comes in two strengths. A page without a cursor makes the
loop start over by ledger while a cursor is stored. Either no such page
occurs, or every page ends at the end of a ledger; then the stored
ledger is closed as well (`Scan.Closed`), starting over from it loses
nothing, and the ledger reported to the world is honest. The parameter
`closed` tells the two apart.
-/

namespace RaizStack

/-! ## The chain and the RPC over it -/

/-- The contract events of a chain, those still to come included. Ids are
unique, their text order is emission order, ledgers are numbered from 1. -/
structure History where
  events : Set RawEvent
  idUnique : ∀ e ∈ events, ∀ e' ∈ events, e.id = e'.id → e = e'
  ledgerMono : ∀ e ∈ events, ∀ e' ∈ events, e.id < e'.id → e.ledger ≤ e'.ledger
  ledgerPos : ∀ e ∈ events, 1 ≤ e.ledger

/-- The events of one contract. -/
def History.of (H : History) (cid : String) : Set RawEvent :=
  {e | e ∈ H.events ∧ e.contractId = cid}

/-- The events a request asks for. -/
def Asked (req : EventsRequest) (e : RawEvent) : Prop :=
  e.contractId = req.contractId ∧
    match req.startFrom with
    | .startLedger l => l ≤ e.ledger
    | .cursor c => c < e.id

/-- The positions a page speaks for: up to its cursor, or up to its last
event when it carries none. -/
def Reached (page : GetEventsResult) (id : String) : Prop :=
  match page.next with
  | some c => id ≤ c
  | none => ∃ e ∈ page.events, id ≤ e.id

/-- A page that lists, in id order and with no omission, the events asked
for up to the position it reached. -/
structure Serves (H : History) (req : EventsRequest) (page : GetEventsResult) : Prop where
  ordered : page.events.Pairwise fun a b => a.id < b.id
  lists : ∀ e, e ∈ page.events ↔ e ∈ H.events ∧ Asked req e ∧ Reached page e.id

variable {ι : Type}

/-- An RPC whose accepted pages serve `H` and meet `ok`. Errors, ranges
and everything about the store are arbitrary. -/
def Honest (H : History) (cid : ι → String) (ok : Locals → GetEventsResult → Prop)
    (w : World ι) (act : ι × Reply) : Prop :=
  match w.pcs act.1, act.2 with
  | .getEvents v, .page (.ok page) => Serves H (requestOf (cid act.1) v) page ∧ ok v page
  | _, _ => True

/-- The runs of the ingest tasks against such an RPC. -/
def ingestStep [DecidableEq ι] (H : History) (cid : ι → String)
    (ok : Locals → GetEventsResult → Prop) : World ι → ι × Reply → World ι → Prop :=
  Lts.ofNext (Honest H cid ok) (World.next cid)

/-- A page with a cursor, or one that ends the tick: the loop never
starts over by ledger. -/
def CursorOrEnd (v : Locals) (page : GetEventsResult) : Prop :=
  page.next = none → v.cursor = none ∨ page.events.length < pageLimit

/-- A page whose cursor is not inside a ledger: what follows the cursor
lies past the ledger that is stored with it. -/
def EndsLedger (H : History) (cid : String) (page : GetEventsResult) : Prop :=
  ∀ c, page.next = some c →
    Scan.Closed RawEvent.id RawEvent.ledger (H.of cid) c (max (scannedThrough page) 1)

/-! ## What the store holds -/

/-- The events whose rows are stored. -/
def held (db : Db) : Set RawEvent :=
  {e | rowOf e ∈ db.events.rows}

def fromLedger (l : Int) : Set RawEvent :=
  {e | l ≤ e.ledger}

/-- Every stored row is the row of an event of the chain. -/
def RowsOf (H : History) (db : Db) : Prop :=
  ∀ r ∈ db.events.rows, ∃ e ∈ H.events, r = rowOf e

/-- All events of the contract from ledger `l` on, up to `c`, are held. -/
def HeldBetween (H : History) (db : Db) (cid : String) (l : Int) (c : String) : Prop :=
  Scan.Covered RawEvent.id (H.of cid) (held db) (fromLedger l) c

/-- The scan of the contract from ledger `l` on lost nothing below `s`. -/
def HeldBelow (H : History) (db : Db) (cid : String) (l s : Int) : Prop :=
  ∀ e ∈ H.of cid, l ≤ e.ledger → e.ledger < s → e ∈ held db

section Invariant

variable (closed : Prop) (H : History) (db : Db) (cid : String)

/-- A stored cursor comes with a mark, and nothing is missing between. -/
def Scanned : Prop :=
  ∀ r, db.cursors.find? cid = some r → ∃ c m, r.cursor = some c
    ∧ db.backfillMarks.find? cid = some m
    ∧ HeldBetween H db cid m.effectiveStartLedger c
    ∧ (closed → Scan.Closed RawEvent.id RawEvent.ledger (H.of cid) c r.lastLedger)

/-- The locals agree with the store: the cursor held is the one stored,
and starting by ledger loses nothing. -/
structure Resuming (v : Locals) : Prop where
  stored : ∀ c, v.cursor = some c → ∃ l, db.cursors.find? cid = some ⟨cid, some c, l⟩
  first : v.cursor = none → closed ∨ db.cursors.find? cid = none
  below : v.cursor = none ∨ closed → ∃ m s, db.backfillMarks.find? cid = some m
    ∧ v.start = some s ∧ HeldBelow H db cid m.effectiveStartLedger s

/-- A served page with only the events of `rest` still to write. -/
structure Writing (v : Locals) (page : GetEventsResult) (rest : List RawEvent) : Prop where
  resuming : Resuming closed H db cid v
  serves : Serves H (requestOf cid v) page
  cursorOrEnd : closed ∨ CursorOrEnd v page
  endsLedger : closed → EndsLedger H cid page
  left : ∀ e ∈ rest, e ∈ page.events
  written : ∀ e ∈ page.events, e ∈ rest ∨ e ∈ held db

/-- What the task knows at each stop. -/
def PcOk : Pc → Prop
  | .resolve _ => db.cursors.find? cid = none
  | .recordMark _ => db.cursors.find? cid = none
  | .getEvents v => Resuming closed H db cid v
  | .reclampMark v oldest => v.cursor = none ∧ v.start = some oldest
      ∧ ∃ m, db.backfillMarks.find? cid = some m
        ∧ (db.cursors.find? cid = none ∨ (closed ∧ ∀ e ∈ H.of cid, oldest ≤ e.ledger →
          m.effectiveStartLedger ≤ e.ledger))
  | .insertEvent v page e rest => Writing closed H db cid v page (e :: rest)
  | .setCursor v page c => Writing closed H db cid v page [] ∧ page.next = some c
  | _ => True

/-- What the environment owes a task that waits for a page: a page that
serves the chain, and no rejection that takes a mark already frozen by a
cursor back over events. -/
def ReplyOk : Pc → Reply → Prop
  | .getEvents v, .page (.ok page) => Serves H (requestOf cid v) page
      ∧ (closed ∨ CursorOrEnd v page) ∧ (closed → EndsLedger H cid page)
  | .getEvents v, .page (.error e) => closed → v.cursor = none →
      ∀ range r m, parseLedgerRangeError e = some range → db.cursors.find? cid = some r →
        db.backfillMarks.find? cid = some m →
        ∀ e ∈ H.of cid, range.1 ≤ e.ledger → m.effectiveStartLedger ≤ e.ledger
  | _, _ => True

end Invariant

/-! ## Rows come and stay -/

variable {closed : Prop} {H : History} {db db' : Db} {cid x : String} {pc pc' : Pc}
  {reply : Reply}

theorem held_insertEvent (hrows : RowsOf H db) {e : RawEvent} (he : e ∈ H.events) :
    e ∈ held (db.insertEvent (rowOf e)) := by
  obtain ⟨r, hr, hid⟩ := Keyed.Table.exists_key_insertOrIgnore db.events (rowOf e)
  rcases Keyed.Table.mem_insertOrIgnore.mp hr with hold | ⟨rfl, -⟩
  · obtain ⟨e', he', rfl⟩ := hrows r hold
    obtain rfl := H.idUnique e' he' e he hid
    exact hr
  · exact hr

theorem RowsOf.insertEvent (hrows : RowsOf H db) {e : RawEvent} (he : e ∈ H.events) :
    RowsOf H (db.insertEvent (rowOf e)) := by
  intro r hr
  rcases Keyed.Table.mem_insertOrIgnore.mp hr with hold | ⟨rfl, -⟩
  · exact hrows r hold
  · exact ⟨e, he, rfl⟩

/-- What no statement of another contract's task can touch. -/
structure Frame (x : String) (db db' : Db) : Prop where
  rows : ∀ r ∈ db.events.rows, r ∈ db'.events.rows
  cursor : db'.cursors.find? x = db.cursors.find? x
  mark : db'.backfillMarks.find? x = db.backfillMarks.find? x

theorem Frame.refl (x : String) (db : Db) : Frame x db db :=
  ⟨fun _ hr => hr, rfl, rfl⟩

theorem Frame.insertEvent (x : String) (db : Db) (row : EventRow) :
    Frame x db (db.insertEvent row) :=
  ⟨fun _ hr => Keyed.Table.mem_insertOrIgnore_of_mem hr, rfl, rfl⟩

/-- **A task's answer leaves every other contract alone**, but for rows
that are added. -/
theorem Resumed.frame (h : Resumed cid db pc reply db' pc') (hx : x ≠ cid) :
    Frame x db db' := by
  cases h with
  | marked plan now =>
      refine ⟨fun _ hr => hr, rfl, ?_⟩
      exact Db.find?_marks_recordBackfillMark _ _ |>.trans (if_neg hx)
  | reclamped v oldest now =>
      refine ⟨fun _ hr => hr, rfl, ?_⟩
      exact Db.find?_marks_reclampBackfillMark _ |>.trans (if_neg hx)
  | inserted v page e rest now => exact .insertEvent _ _ _
  | advanced v page c now =>
      refine ⟨fun _ hr => hr, ?_, rfl⟩
      exact Db.find?_cursors_setCursor _ _ |>.trans (if_neg hx)
  | _ => exact .refl _ _

theorem Frame.held (h : Frame x db db') : held db ⊆ held db' :=
  fun _ he => h.rows _ he

theorem Frame.scanned (h : Frame x db db') (hs : Scanned closed H db x) :
    Scanned closed H db' x := by
  intro r hr
  obtain ⟨c, m, hc, hm, hcov, hclosed⟩ := hs r (h.cursor ▸ hr)
  exact ⟨c, m, hc, h.mark.trans hm, hcov.mono_held h.held, hclosed⟩

theorem Frame.resuming (h : Frame x db db') {v : Locals} (hv : Resuming closed H db x v) :
    Resuming closed H db' x v where
  stored := fun c hc => (hv.stored c hc).imp fun _ hl => h.cursor.trans hl
  first := fun hnone => (hv.first hnone).imp id h.cursor.trans
  below := fun hor => by
    obtain ⟨m, s, hm, hs, hheld⟩ := hv.below hor
    exact ⟨m, s, h.mark.trans hm, hs, fun e he hl hlt => h.held (hheld e he hl hlt)⟩

theorem Frame.writing (h : Frame x db db') {v : Locals} {page : GetEventsResult}
    {rest : List RawEvent} (hw : Writing closed H db x v page rest) :
    Writing closed H db' x v page rest :=
  { hw with
    resuming := h.resuming hw.resuming
    written := fun e he => (hw.written e he).imp id fun hin => h.held hin }

theorem Frame.pcOk (h : Frame x db db') (hpc : PcOk closed H db x pc) :
    PcOk closed H db' x pc := by
  cases pc with
  | resolve spec => exact h.cursor.trans hpc
  | recordMark plan => exact h.cursor.trans hpc
  | getEvents v => exact h.resuming hpc
  | reclampMark v oldest =>
      obtain ⟨hnone, hstart, m, hm, hor⟩ := hpc
      exact ⟨hnone, hstart, m, h.mark.trans hm, hor.imp h.cursor.trans id⟩
  | insertEvent v page e rest => exact h.writing hpc
  | setCursor v page c => exact ⟨h.writing hpc.1, hpc.2⟩
  | _ => trivial

/-! ## The stops a task moves to -/

/-- A first run starts from a contract without cursor, a later one from
the cursor it stored. -/
theorem afterGetCursor_ok (hs : Scanned closed H db cid) (spec : StartSpec) :
    PcOk closed H db cid
      (afterGetCursor spec (db.getCursor cid).1 (db.getCursor cid).2) := by
  unfold Db.getCursor afterGetCursor
  cases hcur : db.cursors.find? cid with
  | none => exact hcur
  | some r =>
      obtain ⟨c, m, hc, hm, hcov, hclosed⟩ := hs r hcur
      have hkey : r.contractId = cid := (Keyed.Table.find?_eq_some.mp hcur).2
      dsimp only
      rw [if_neg (by simp [hc])]
      refine { stored := fun c' hc' => ?_, first := fun hnone => ?_, below := fun hor => ?_ }
      · obtain ⟨rid, rc, rl⟩ := r
        dsimp only at hc' hkey
        subst hkey hc'
        exact ⟨rl, hcur⟩
      · exact absurd (hc.symm.trans hnone) nofun
      · have hclosed' := hclosed (hor.resolve_left fun hnone => absurd (hc.symm.trans hnone) nofun)
        refine ⟨m, r.lastLedger, hm, rfl, ?_⟩
        intro e he hl hlt
        exact hcov.of_level hclosed' he hl (le_of_lt hlt)

/-- A page without a cursor ends the tick or starts over by ledger. -/
theorem afterPage_ok_of_none {v : Locals} {page : GetEventsResult} {rest : List RawEvent}
    (hw : Writing closed H db cid v page rest) (hnone : page.next = none) :
    PcOk closed H db cid (afterPage v page) := by
  unfold afterPage
  split
  · trivial
  · rename_i hgo
    rw [not_or] at hgo
    have hc : closed := by
      refine hw.cursorOrEnd.resolve_right ?_
      intro h
      rcases h hnone with hv | hlen
      · exact hgo.2 (hnone.trans hv.symm)
      · exact hgo.1 (by simp [caughtUp, hnone, hlen])
    exact
      { stored := fun c hc' => absurd (hnone.symm.trans hc') nofun
        first := fun _ => Or.inl hc
        below := fun _ => hw.resuming.below (Or.inr hc) }

theorem insertNext_ok {v : Locals} {page : GetEventsResult} {rest : List RawEvent}
    (hw : Writing closed H db cid v page rest) :
    PcOk closed H db cid (insertNext v page rest) := by
  cases rest with
  | cons e rest => exact hw
  | nil =>
      cases hnext : page.next with
      | none =>
          simp only [insertNext, afterInserts, hnext]
          exact afterPage_ok_of_none hw hnext
      | some c =>
          simp only [insertNext, afterInserts, hnext]
          exact ⟨hw, hnext⟩

theorem onError_ok {v : Locals} {e : String} (hv : Resuming closed H db cid v)
    (hok : ReplyOk closed H db cid (.getEvents v) (.page (.error e))) :
    PcOk closed H db cid (onError v e) := by
  unfold onError
  split
  · rename_i oldest latest hnone hparse
    split
    · obtain ⟨m, s, hm, -, -⟩ := hv.below (Or.inl hnone)
      refine ⟨hnone, rfl, m, hm, ?_⟩
      rcases hv.first hnone with hc | hcur
      · cases hcur : db.cursors.find? cid with
        | none => exact Or.inl rfl
        | some r => exact Or.inr ⟨hc, hok hc hnone (oldest, latest) r m hparse hcur hm⟩
      · exact Or.inl hcur
    · trivial
  · trivial

/-! ## The cursor moves over held events only -/

theorem asked_of_cursor {v : Locals} {c : String} (hv : v.cursor = some c) {e : RawEvent}
    (hcid : e.contractId = cid) (hlt : c < e.id) : Asked (requestOf cid v) e := by
  simp [Asked, requestOf, getEvents, hv, hcid, hlt]

theorem asked_of_start {v : Locals} {s : Int} (hv : v.cursor = none) (hs : v.start = some s)
    {e : RawEvent} (hcid : e.contractId = cid) (hle : max s 1 ≤ e.ledger) :
    Asked (requestOf cid v) e := by
  simpa [Asked, requestOf, getEvents, hv, hs, hcid] using hle

/-- A served page, once written, holds what was asked for up to its cursor. -/
theorem Writing.asked_held {v : Locals} {page : GetEventsResult} {c : String}
    (hw : Writing closed H db cid v page []) (hc : page.next = some c) {e : RawEvent}
    (he : e ∈ H.of cid) (hask : Asked (requestOf cid v) e) (hle : e.id ≤ c) : e ∈ held db := by
  have hreached : Reached page e.id := by
    unfold Reached
    rw [hc]
    exact hle
  simpa using hw.written e ((hw.serves.lists e).mpr ⟨he.1, hask, hreached⟩)

/-- Asked by a cursor, it lists the contract from there to its own. -/
theorem Writing.lists {v : Locals} {page : GetEventsResult} {c₀ c : String}
    (hw : Writing closed H db cid v page []) (hv : v.cursor = some c₀) (hc : page.next = some c) :
    Scan.Lists RawEvent.id (H.of cid) {e | c₀ < e.id} c (held db) :=
  fun _ he hpast hle => hw.asked_held hc he (asked_of_cursor hv he.2 hpast) hle

/-- A served page, once written, covers the contract from its mark up to
the page's cursor. -/
theorem Writing.covers {v : Locals} {page : GetEventsResult} {c : String}
    (hw : Writing closed H db cid v page []) (hs : Scanned closed H db cid)
    (hc : page.next = some c) :
    ∃ m, db.backfillMarks.find? cid = some m
      ∧ HeldBetween H db cid m.effectiveStartLedger c := by
  cases hv : v.cursor with
  | some c₀ =>
      obtain ⟨l, hcur⟩ := hw.resuming.stored c₀ hv
      obtain ⟨c', m, hc', hm, hcov, -⟩ := hs _ hcur
      obtain rfl : c₀ = c' := Option.some.inj hc'
      exact ⟨m, hm, hcov.extend (hw.lists hv hc) subset_rfl⟩
  | none =>
      obtain ⟨m, s, hm, hstart, hbelow⟩ := hw.resuming.below (Or.inl hv)
      refine ⟨m, hm, ?_⟩
      intro e he hfrom hle
      rcases lt_or_ge e.ledger s with hlt | hge
      · exact hbelow e he hfrom hlt
      · have hpos : 1 ≤ e.ledger := H.ledgerPos e he.1
        exact hw.asked_held hc he (asked_of_start hv hstart he.2 (max_le hge hpos)) hle

/-! ## One answer keeps the invariant -/

theorem Resumed.rowsOf (h : Resumed cid db pc reply db' pc') (hrows : RowsOf H db)
    (hpc : PcOk closed H db cid pc) : RowsOf H db' := by
  cases h with
  | inserted v page e rest now =>
      have hmem : e ∈ page.events := hpc.left e List.mem_cons_self
      exact hrows.insertEvent ((hpc.serves.lists e).mp hmem).1
  | _ => exact hrows

/-- Moving a mark whose contract has no cursor, or moving it forward,
leaves nothing claimed that is not held. -/
theorem reclamp_ok {v : Locals} {oldest : Int} (hs : Scanned closed H db cid)
    (hpc : PcOk closed H db cid (.reclampMark v oldest)) :
    Scanned closed H (db.reclampBackfillMark cid oldest) cid
      ∧ PcOk closed H (db.reclampBackfillMark cid oldest) cid (.getEvents v) := by
  obtain ⟨hnone, hstart, m, hm, hor⟩ := hpc
  have hm' : (db.reclampBackfillMark cid oldest).backfillMarks.find? cid
      = some (Db.reclamp oldest m) := by
    rw [Db.find?_marks_reclampBackfillMark, if_pos rfl, hm]
    rfl
  refine ⟨fun r hr => ?_, ?_⟩
  · rcases hor with hcur | ⟨-, hle⟩
    · exact absurd (hcur.symm.trans hr) nofun
    · obtain ⟨c, m₀, hc, hm₀, hcov, hclosed⟩ := hs r hr
      obtain rfl : m₀ = m := Option.some.inj (hm₀.symm.trans hm)
      refine ⟨c, _, hc, hm', fun e he hfrom hid => ?_, hclosed⟩
      exact hcov e he (hle e he hfrom) hid
  · exact
      { stored := fun c hc => absurd (hnone.symm.trans hc) nofun
        first := fun _ => hor.symm.imp And.left id
        below := fun _ => ⟨_, oldest, hm', hstart, fun e _ hl hlt => absurd hl (not_le_of_gt hlt)⟩ }

/-- Writing the cursor of a page that is stored in full. -/
theorem advance_ok {v : Locals} {page : GetEventsResult} {c : String}
    (hs : Scanned closed H db cid) (hpc : PcOk closed H db cid (.setCursor v page c)) :
    Scanned closed H (db.setCursor cid c (max (scannedThrough page) 1)) cid
      ∧ PcOk closed H (db.setCursor cid c (max (scannedThrough page) 1)) cid
          (afterPage v page) := by
  obtain ⟨hw, hc⟩ := hpc
  obtain ⟨m, hm, hcov⟩ := hw.covers hs hc
  have hcur : (db.setCursor cid c (max (scannedThrough page) 1)).cursors.find? cid
      = some ⟨cid, some c, max (scannedThrough page) 1⟩ :=
    Db.find?_cursors_setCursor _ _ |>.trans (if_pos rfl)
  refine ⟨fun r hr => ?_, ?_⟩
  · rw [hcur] at hr
    obtain rfl := Option.some.inj hr
    exact ⟨c, m, rfl, hm, hcov, fun hcl => hw.endsLedger hcl c hc⟩
  · unfold afterPage
    split
    · trivial
    · exact
        { stored := fun c' hc' => by
            obtain rfl := Option.some.inj (hc.symm.trans hc')
            exact ⟨_, hcur⟩
          first := fun hnone => absurd (hc.symm.trans hnone) nofun
          below := fun hor => hw.resuming.below
            (Or.inr (hor.resolve_left fun hnone => absurd (hc.symm.trans hnone) nofun)) }

/-- **The step lemma.** A task's answer keeps what is claimed for its own
contract. -/
theorem Resumed.keeps (h : Resumed cid db pc reply db' pc')
    (hok : ReplyOk closed H db cid pc reply) (hrows : RowsOf H db)
    (hs : Scanned closed H db cid) (hpc : PcOk closed H db cid pc) :
    Scanned closed H db' cid ∧ PcOk closed H db' cid pc' := by
  cases h with
  | crash => exact ⟨hs, trivial⟩
  | begin => exact ⟨hs, trivial⟩
  | dbError => exact ⟨hs, trivial⟩
  | gotCursor spec now => exact ⟨hs, afterGetCursor_ok hs spec⟩
  | noRange => exact ⟨hs, trivial⟩
  | resolved spec a plan hplan => exact ⟨hs, hpc⟩
  | marked plan now =>
      refine ⟨fun r hr => absurd (hpc.symm.trans hr) nofun, ?_⟩
      exact
        { stored := nofun
          first := fun _ => Or.inr hpc
          below := fun _ => ⟨Db.markOf cid plan now, plan.effective,
            Db.find?_marks_recordBackfillMark _ _ |>.trans (if_pos rfl), rfl,
            fun e _ hl hlt => absurd hl (not_le_of_gt hlt)⟩ }
  | refused v e => exact ⟨hs, onError_ok hpc hok⟩
  | served v page =>
      obtain ⟨hserves, hend, hledger⟩ := hok
      exact ⟨hs, insertNext_ok
        ⟨hpc, hserves, hend, hledger, fun _ he => he, fun _ he => Or.inl he⟩⟩
  | reclamped v oldest now => exact reclamp_ok hs hpc
  | inserted v page e rest now =>
      have hframe : Frame cid db (db.insertEvent (rowOf e)) := .insertEvent _ _ _
      have hmem : e ∈ page.events := hpc.left e List.mem_cons_self
      have hheld : e ∈ held (db.insertEvent (rowOf e)) :=
        held_insertEvent hrows ((hpc.serves.lists e).mp hmem).1
      refine ⟨hframe.scanned hs, insertNext_ok ?_⟩
      refine { hframe.writing hpc with
        left := fun a ha => hpc.left a (List.mem_cons_of_mem _ ha)
        written := fun a ha => ?_ }
      rcases hpc.written a ha with hin | hin
      · rcases List.mem_cons.mp hin with rfl | hrest
        · exact Or.inr hheld
        · exact Or.inl hrest
      · exact Or.inr (hframe.held hin)
  | advanced v page c now => exact advance_ok hs hpc

/-! ## Whole runs -/

/-- The invariant of the store and all its tasks. -/
structure ScanInv (closed : Prop) (H : History) (cid : ι → String) (w : World ι) : Prop where
  rowsOf : RowsOf H w.db
  scanned : ∀ x, Scanned closed H w.db x
  pcOk : ∀ i, PcOk closed H w.db (cid i) (w.pcs i)

theorem scanInv_fresh (closed : Prop) (H : History) (cid : ι → String) :
    ScanInv closed H cid (World.fresh ι) where
  rowsOf := fun _ hr => absurd hr List.not_mem_nil
  scanned := fun _ _ hr => absurd hr (by simp [World.fresh, Db.empty])
  pcOk := fun _ => trivial

/-- One task per contract: a step keeps the invariant of every contract. -/
theorem ScanInv.step [DecidableEq ι] {cid : ι → String} (hcid : Function.Injective cid)
    {w w' : World ι} {i : ι} {reply : Reply} (hinv : ScanInv closed H cid w)
    (hok : ReplyOk closed H w.db (cid i) (w.pcs i) reply)
    (hnext : w.next cid (i, reply) = some w') : ScanInv closed H cid w' := by
  obtain ⟨hres, hothers⟩ := World.next_eq_some hnext
  obtain ⟨hsc, hpc⟩ := hres.keeps hok hinv.rowsOf (hinv.scanned (cid i)) (hinv.pcOk i)
  refine ⟨hres.rowsOf hinv.rowsOf (hinv.pcOk i), fun x => ?_, fun j => ?_⟩
  · by_cases hx : x = cid i
    · rw [hx]
      exact hsc
    · exact (hres.frame hx).scanned (hinv.scanned x)
  · by_cases hj : j = i
    · rw [hj]
      exact hpc
    · rw [hothers j hj]
      exact (hres.frame fun h => hj (hcid h)).pcOk (hinv.pcOk j)

/-! ## Everything below the cursor is stored, once -/

theorem replyOk_of_honest {cid : ι → String} {w : World ι} {i : ι}
    (h : Honest H cid CursorOrEnd w (i, reply)) :
    ReplyOk False H w.db (cid i) (w.pcs i) reply := by
  cases hpc : w.pcs i with
  | getEvents v =>
      cases reply with
      | page answer =>
          cases answer with
          | ok page =>
              simp only [Honest, hpc] at h
              exact ⟨h.1, Or.inr h.2, nofun⟩
          | error e => exact nofun
      | _ => trivial
  | _ => trivial

/-- The run lemma. -/
theorem ScanInv.of_reach {w : World String}
    (h : Lts.Reach (· = World.fresh String) (ingestStep H id CursorOrEnd) w) :
    ScanInv False H id w :=
  h.invariant (fun _ hs => hs ▸ scanInv_fresh False H id) fun _ _ _ _ hinv hst =>
    hinv.step Function.injective_id (replyOk_of_honest hst.1) hst.2

/-- **Nothing below the cursor is missing.** In every state of every run -
ticks, restarts, failed calls, rejected starts and crashes after any
single statement in any order - a stored cursor comes with the mark of
its contract, and each event between the two is one row of the store,
with the fields the RPC served. -/
theorem stored_up_to_cursor (H : History) {w : World String}
    (h : Lts.Reach (· = World.fresh String) (ingestStep H id CursorOrEnd) w)
    {cid c : String} (hcur : (w.db.getCursor cid).1 = some c) :
    ∃ m, w.db.backfillMarks.find? cid = some m ∧
      ∀ e ∈ H.events, e.contractId = cid → m.effectiveStartLedger ≤ e.ledger → e.id ≤ c →
        w.db.events.rows.filter (fun r => r.id = e.id) = [rowOf e] := by
  have hinv : ScanInv False H id w := .of_reach h
  cases hfind : w.db.cursors.find? cid with
  | none => simp [Db.getCursor, hfind] at hcur
  | some r =>
      obtain ⟨c', m, hc', hm, hcov, -⟩ := hinv.scanned cid r hfind
      have hcc : c' = c := by
        simpa [Db.getCursor, hfind, hc'] using hcur
      subst hcc
      refine ⟨m, hm, ?_⟩
      intro e he hcid hledger hle
      exact w.db.events.filter_key (hcov e ⟨he, hcid⟩ hledger hle)

/-- An event of ledger 10. -/
def loneEvent : RawEvent :=
  { id := "0000000042949672960-0000000000", contractId := "CA", ledger := 10,
    txHash := some "846e21ff", topic := ["AAAADwAAAAdkZXBvc2l0AA=="],
    value := .obj [("xdr", .str "AAAAAQ==")], ledgerClosedAt := none,
    inSuccessfulContractCall := true }

/-- The chain with that event alone. -/
def loneHistory : History where
  events := {loneEvent}
  idUnique := by
    rintro e rfl e' rfl _
    rfl
  ledgerMono := by
    rintro e rfl e' rfl _
    exact le_rfl
  ledgerPos := by
    rintro e rfl
    decide

/-- The page an RPC at ledger 20 serves of it. -/
def lonePage : GetEventsResult :=
  { events := [loneEvent], latestLedger := 20, cursor := some "0000000085899345920-0000000000",
    pagingToken := none, oldestLedger := some 5 }

theorem lonePage_serves : Serves loneHistory
    (requestOf "CA" { start := some 5, cursor := none, clampRetries := 0 }) lonePage where
  ordered := List.pairwise_singleton _ _
  lists := fun e => by
    constructor
    · intro he
      obtain rfl := List.mem_singleton.mp he
      refine ⟨rfl, ⟨rfl, ?_⟩, ?_⟩
      · show max (5 : Int) 1 ≤ 10
        decide
      · show "0000000042949672960-0000000000" ≤ "0000000085899345920-0000000000"
        decide
    · rintro ⟨rfl, -⟩
      exact List.mem_singleton_self _

/-- An event of ledger 60, after an outage. -/
def lateEvent : RawEvent :=
  { loneEvent with id := "0000000257698037760-0000000000", ledger := 60 }

/-- The chain with an event on each side of the outage. -/
def outageHistory : History where
  events := {loneEvent, lateEvent}
  idUnique := by
    rintro e (rfl | rfl) e' (rfl | rfl) hid
    · rfl
    · exact absurd hid (by decide)
    · exact absurd hid (by decide)
    · rfl
  ledgerMono := by
    rintro e (rfl | rfl) e' (rfl | rfl) hlt
    · exact le_rfl
    · decide
    · exact absurd hlt (by decide)
    · exact le_rfl
  ledgerPos := by
    rintro e (rfl | rfl) <;> decide

theorem lonePage_serves_outage : Serves outageHistory
    (requestOf "CA" { start := some 5, cursor := none, clampRetries := 0 }) lonePage where
  ordered := lonePage_serves.ordered
  lists := fun e => by
    rw [lonePage_serves.lists]
    constructor
    · rintro ⟨he, hreq⟩
      exact ⟨.inl he, hreq⟩
    · rintro ⟨rfl | rfl, hask, hreached⟩
      · exact ⟨rfl, hask, hreached⟩
      · exact absurd hreached (by decide : ¬ lateEvent.id ≤ "0000000085899345920-0000000000")

/-- The page an RPC at ledger 70 serves after the cursor of ledger 20. -/
def latePage : GetEventsResult :=
  { events := [lateEvent], latestLedger := 70, cursor := some "0000000300647710720-0000000000",
    pagingToken := none, oldestLedger := some 5 }

theorem latePage_serves (start : Option Int) : Serves outageHistory
    (requestOf "CA"
      { start := start, cursor := some "0000000085899345920-0000000000", clampRetries := 0 })
    latePage where
  ordered := List.pairwise_singleton _ _
  lists := fun e => by
    constructor
    · intro he
      obtain rfl := List.mem_singleton.mp he
      refine ⟨.inr rfl, ⟨rfl, ?_⟩, ?_⟩
      · show "0000000085899345920-0000000000" < lateEvent.id
        decide
      · show lateEvent.id ≤ "0000000300647710720-0000000000"
        decide
    · rintro ⟨rfl | rfl, ⟨-, hask⟩, -⟩
      · exact absurd hask (by decide : ¬ "0000000085899345920-0000000000" < loneEvent.id)
      · exact List.mem_singleton_self _

/-- A first tick reads the window 5 - 20; the second dies between its row
and its cursor, and the third is served the same page again. -/
theorem stored_up_to_cursor_resumed :
    ∃ w : World String,
      Lts.Reach (· = World.fresh String) (ingestStep outageHistory id CursorOrEnd) w
      ∧ (w.db.getCursor "CA").1 = some "0000000300647710720-0000000000"
      ∧ ∀ e ∈ [loneEvent, lateEvent],
        w.db.events.rows.filter (fun r => r.id = e.id) = [rowOf e] := by
  have hfresh : Lts.Reach (· = World.fresh String) (ingestStep outageHistory id CursorOrEnd)
      (World.fresh String) := .init rfl
  have hreach := hfresh
    |>.next ("CA", .begin .oldest) trivial rfl
    |>.next ("CA", .dbOk "") trivial (World.next_update rfl)
    |>.next ("CA", .range ⟨.ok (some 5, some 20), .error "", .error ""⟩) trivial
      (World.next_update rfl)
    |>.next ("CA", .dbOk "2026-08-03T00:00:00Z") trivial (World.next_update rfl)
    |>.next ("CA", .page (.ok lonePage)) ⟨lonePage_serves_outage, nofun⟩ (World.next_update rfl)
    |>.next ("CA", .dbOk "") trivial (World.next_update rfl)
    |>.next ("CA", .dbOk "") trivial (World.next_update rfl)
    |>.next ("CA", .begin .oldest) trivial (World.next_update rfl)
    |>.next ("CA", .dbOk "") trivial (World.next_update rfl)
    |>.next ("CA", .page (.ok latePage)) ⟨latePage_serves _, nofun⟩ (World.next_update rfl)
    |>.next ("CA", .dbOk "") trivial (World.next_update rfl)
    |>.next ("CA", .crash) trivial (World.next_update rfl)
    |>.next ("CA", .begin .oldest) trivial (World.next_update rfl)
    |>.next ("CA", .dbOk "") trivial (World.next_update rfl)
    |>.next ("CA", .page (.ok latePage)) ⟨latePage_serves _, nofun⟩ (World.next_update rfl)
    |>.next ("CA", .dbOk "") trivial (World.next_update rfl)
    |>.next ("CA", .dbOk "") trivial (World.next_update rfl)
  obtain ⟨m, hm, hstored⟩ :=
    @stored_up_to_cursor outageHistory _ hreach "CA" "0000000300647710720-0000000000" rfl
  have heff : m.effectiveStartLedger = 5 := by
    obtain rfl := Option.some.inj hm
    rfl
  refine ⟨_, hreach, rfl, fun e he => ?_⟩
  rcases List.mem_pair.mp he with rfl | rfl
  · exact hstored loneEvent (.inl rfl) rfl (heff.trans_le (by decide)) (by decide)
  · exact hstored lateEvent (.inr rfl) rfl (heff.trans_le (by decide)) (by decide)

end RaizStack
