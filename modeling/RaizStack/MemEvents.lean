import RaizStack.Lts
import RaizStack.MemDb

/-!
# Paging `/events`

One client follows the returned cursor while the ingestor keeps
inserting. Only the first request filters by start ledger; the others
rely on id order standing for ledger order. The walk is `Keyset.Seen`
over the rows the client wants, with the store moving underneath.
-/

namespace RaizStack

/-! ## A client and an ingestor over one store -/

/-- The cursor the client sends next, the events it was served so far,
and whether a short page ended its walk. -/
structure Walk where
  db : Db
  cursor : Option String
  got : List EventJson
  finished : Bool

inductive WalkAct where
  | insert (row : EventRow)
  | request

/-- The most events the handler serves for a query. -/
def EventsQuery.pageSize (q : EventsQuery) : Int :=
  min (q.limit.getD 100) 1000

/-- The request of a client that wants `q` and has got to `cursor`. -/
def EventsQuery.at (q : EventsQuery) (cursor : Option String) : EventsQuery :=
  { q with cursor := cursor }

def Walk.next (parse : String → Option Json) (sim : Option Int) (q : EventsQuery) (w : Walk) :
    WalkAct → Option Walk
  | .insert row => some { w with db := w.db.insertEvent row }
  | .request =>
      if w.finished then none
      else
        let body := (q.at w.cursor).answer parse sim w.db
        some { w with
          cursor := body.cursor
          got := w.got ++ body.events
          finished := decide ((body.events.length : Int) < q.pageSize) }

def Walk.start (db : Db) : Walk :=
  { db := db, cursor := none, got := [], finished := false }

/-- Ids agree with ledgers, as paging tokens do: the ledger is their
upper half. -/
structure TokenOrdered (cid : String) (db : Db) : Prop where
  agree : ∀ r ∈ db.events.rows, ∀ r' ∈ db.events.rows, r.contractId = cid → r'.contractId = cid →
    r.id < r'.id → r.ledger ≤ r'.ledger
  nonneg : ∀ r ∈ db.events.rows, r.contractId = cid → 0 ≤ r.ledger

/-- An ingestor whose rows come after all rows of the contract. -/
def IngestsLater (cid : String) (w : Walk) : WalkAct → Prop
  | .insert row => row.contractId = cid →
      0 ≤ row.ledger ∧ ∀ r ∈ w.db.events.rows, r.contractId = cid →
        r.id < row.id ∧ r.ledger ≤ row.ledger
  | .request => True

/-! ## The rows a query selects -/

/-- The rows the client is after. -/
def Wanted (q : EventsQuery) (db : Db) (r : EventRow) : Prop :=
  r ∈ db.events.rows ∧ r.contractId = q.contractId ∧ q.startLedger.getD 0 ≤ r.ledger

/-- A server that does not pretend to forget for this client. -/
def NotSimulated (sim : Option Int) (q : EventsQuery) : Prop :=
  sim = none ∨ q.source ≠ some "rpc-simulation"

variable {q : EventsQuery} {sim : Option Int} {db : Db} {r : EventRow}

theorem simFloor_none (h : NotSimulated sim q) : simFloor db sim q.source = none := by
  unfold simFloor
  split
  · exact if_neg (h.resolve_left nofun)
  · rfl

theorem nodup_filter_ids (T : Keyed.Table EventRow.id) (p : EventRow → Bool) :
    ((T.rows.filter p).map EventRow.id).Nodup :=
  T.keysNodup.sublist (List.filter_sublist.map _)

/-- The first request selects the wanted rows. -/
theorem rows_first (hsim : NotSimulated sim q) (hord : TokenOrdered q.contractId db) :
    ∃ rows, (q.at none).rows sim db = Keyset.page EventRow.id rows q.pageSize
      ∧ (rows.map EventRow.id).Nodup ∧ ∀ r, r ∈ rows ↔ Wanted q db r := by
  have hfloor : simFloor db sim (q.at none).source = none := simFloor_none hsim
  rw [EventsQuery.rows, hfloor, EventsQuery.at, Db.eventRows_first]
  refine ⟨_, rfl, nodup_filter_ids _ _, ?_⟩
  intro r
  simp only [List.mem_filter, decide_eq_true_eq, Wanted, Option.getD_none]
  constructor
  · rintro ⟨hr, hcid, hle⟩
    exact ⟨hr, hcid, le_trans (le_max_left _ _) hle⟩
  · rintro ⟨hr, hcid, hle⟩
    exact ⟨hr, hcid, max_le hle (hord.nonneg r hr hcid)⟩

/-- A request from the id of a wanted row selects the wanted rows past
it, though nothing in it looks at the start ledger. -/
theorem rows_next (hsim : NotSimulated sim q) (hord : TokenOrdered q.contractId db)
    {x : EventRow} (hx : Wanted q db x) :
    ∃ rows, (q.at (some x.id)).rows sim db = Keyset.page EventRow.id rows q.pageSize
      ∧ (rows.map EventRow.id).Nodup ∧ ∀ r, r ∈ rows ↔ Wanted q db r ∧ x.id < r.id := by
  have hfloor : simFloor db sim (q.at (some x.id)).source = none := simFloor_none hsim
  rw [EventsQuery.rows, hfloor, EventsQuery.at, Db.eventRows_after]
  refine ⟨_, rfl, nodup_filter_ids _ _, ?_⟩
  intro r
  simp only [List.mem_filter, decide_eq_true_eq, Wanted, Option.getD_none]
  constructor
  · rintro ⟨hr, hcid, hlt, -⟩
    have hledger : x.ledger ≤ r.ledger := hord.agree x hx.1 r hr hx.2.1 hcid hlt
    exact ⟨⟨hr, hcid, le_trans hx.2.2 hledger⟩, hlt⟩
  · rintro ⟨⟨hr, hcid, -⟩, hlt⟩
    exact ⟨hr, hcid, hlt, hord.nonneg r hr hcid⟩

/-- A page that is not short has a last row. -/
theorem exists_getLast {rows : List EventRow} {n : Int} (hn : 1 ≤ n)
    (hlong : ¬ (rows.length : Int) < n) : ∃ x, rows.getLast? = some x := by
  cases hlast : rows.getLast? with
  | some x => exact ⟨x, rfl⟩
  | none =>
      rw [List.getLast?_eq_none_iff] at hlast
      subst hlast
      exact absurd (lt_of_lt_of_le (by decide) hn) hlong

/-! ## The position of a walk -/

/-- The rows served so far and the cursor they leave the client with. -/
def Position (q : EventsQuery) (db : Db) (seen : List EventRow) : Option String → Prop
  | none => seen = []
  | some c => Keyset.Seen EventRow.id (Wanted q db) seen c ∧ ∃ x ∈ seen, x.id = c

/-- **What one page adds.** It continues the order, adds wanted rows only,
and either ends the walk with nothing left or moves the position to its
last row. -/
theorem Position.page {cursor : Option String} {seen : List EventRow}
    (hpos : Position q db seen cursor) (hsim : NotSimulated sim q)
    (hord : TokenOrdered q.contractId db) (hlimit : 1 ≤ q.pageSize) :
    (seen ++ (q.at cursor).rows sim db).Pairwise (fun a b => a.id < b.id)
      ∧ (∀ r ∈ seen ++ (q.at cursor).rows sim db, Wanted q db r)
      ∧ ((((q.at cursor).rows sim db).length : Int) < q.pageSize →
          ∀ r, Wanted q db r → r ∈ seen ++ (q.at cursor).rows sim db)
      ∧ (¬ (((q.at cursor).rows sim db).length : Int) < q.pageSize →
          Position q db (seen ++ (q.at cursor).rows sim db)
            (((q.at cursor).rows sim db).getLast?.map EventRow.id)) := by
  cases cursor with
  | none =>
      obtain rfl : seen = [] := hpos
      obtain ⟨rows, hpage, hkeys, hrows⟩ := rows_first hsim hord
      rw [hpage, List.nil_append]
      refine ⟨Keyset.page_strict hkeys, fun r hr => (hrows r).mp (Keyset.mem_of_mem_page hr),
        fun hshort r hr => Keyset.mem_page_of_short hshort ((hrows r).mpr hr), fun hlong => ?_⟩
      obtain ⟨x, hlast⟩ := exists_getLast hlimit hlong
      rw [hlast]
      exact ⟨Keyset.Seen.first hkeys hrows hlast, x, List.mem_of_getLast? hlast, rfl⟩
  | some c =>
      obtain ⟨hseen, x, hx, rfl⟩ := hpos
      obtain ⟨rows, hpage, hkeys, hrows⟩ := rows_next hsim hord (hseen.sound x hx).1
      rw [hpage]
      refine ⟨hseen.strict_append hkeys hrows, hseen.sound_append hrows,
        fun hshort => hseen.append_short hrows hshort, fun hlong => ?_⟩
      obtain ⟨y, hlast⟩ := exists_getLast hlimit hlong
      rw [hlast]
      refine ⟨hseen.append hkeys hrows hlast, y, ?_, rfl⟩
      exact List.mem_append_right _ (List.mem_of_getLast? hlast)

theorem Wanted.insert {row : EventRow} (h : Wanted q db r) : Wanted q (db.insertEvent row) r :=
  ⟨Keyed.Table.mem_insertOrIgnore_of_mem h.1, h.2⟩

/-- Rows that appear during the walk lie past its position. -/
theorem Position.insert {cursor : Option String} {seen : List EventRow} {row : EventRow}
    (hpos : Position q db seen cursor)
    (hrow : row.contractId = q.contractId → ∀ r ∈ db.events.rows, r.contractId = q.contractId →
      r.id < row.id) : Position q (db.insertEvent row) seen cursor := by
  cases cursor with
  | none => exact hpos
  | some c =>
      obtain ⟨hseen, x, hx, rfl⟩ := hpos
      refine ⟨hseen.grow (fun r hr => hr.insert) fun r hr => ?_, x, hx, rfl⟩
      obtain ⟨hin, hcid, hle⟩ := hr
      rcases Keyed.Table.mem_insertOrIgnore.mp hin with hold | ⟨rfl, -⟩
      · exact Or.inl ⟨hold, hcid, hle⟩
      · obtain ⟨hxin, hxcid, -⟩ := (hseen.sound x hx).1
        exact Or.inr (hrow hcid x hxin hxcid)

/-- The store got wanted rows only past those it had. -/
structure GrowsLater (q : EventsQuery) (db db' : Db) : Prop where
  kept : ∀ r, Wanted q db r → Wanted q db' r
  later : ∀ r, Wanted q db' r → Wanted q db r ∨ ∀ r', Wanted q db r' → r'.id < r.id

theorem GrowsLater.refl (q : EventsQuery) (db : Db) : GrowsLater q db db :=
  ⟨fun _ hr => hr, fun _ hr => Or.inl hr⟩

theorem GrowsLater.trans {q : EventsQuery} {db₁ db₂ db₃ : Db} (h : GrowsLater q db₁ db₂)
    (h' : GrowsLater q db₂ db₃) : GrowsLater q db₁ db₃ where
  kept := fun r hr => h'.kept r (h.kept r hr)
  later := fun r hr => (h'.later r hr).elim (h.later r) fun hpast =>
    Or.inr fun r' hr' => hpast r' (h.kept r' hr')

/-- A store that grows past its rows leaves a position where it is. -/
theorem Position.grow {db' : Db} {cursor : Option String} {seen : List EventRow}
    (hpos : Position q db seen cursor) (h : GrowsLater q db db') : Position q db' seen cursor := by
  cases cursor with
  | none => exact hpos
  | some c =>
      obtain ⟨hseen, x, hx, rfl⟩ := hpos
      refine ⟨hseen.grow h.kept fun r hr => ?_, x, hx, rfl⟩
      exact (h.later r hr).imp id fun hpast => hpast x (hseen.sound x hx).1

theorem TokenOrdered.insert {cid : String} {row : EventRow} (hord : TokenOrdered cid db)
    (hrow : row.contractId = cid → 0 ≤ row.ledger ∧ ∀ r ∈ db.events.rows, r.contractId = cid →
      r.id < row.id ∧ r.ledger ≤ row.ledger) : TokenOrdered cid (db.insertEvent row) where
  agree := by
    intro r hr r' hr' hcid hcid' hlt
    rcases Keyed.Table.mem_insertOrIgnore.mp hr with hold | ⟨rfl, -⟩ <;>
      rcases Keyed.Table.mem_insertOrIgnore.mp hr' with hold' | ⟨rfl, -⟩
    · exact hord.agree r hold r' hold' hcid hcid' hlt
    · exact ((hrow hcid').2 r hold hcid).2
    · exact absurd ((hrow hcid).2 r' hold' hcid').1 (not_lt_of_gt hlt)
    · exact le_rfl
  nonneg := by
    intro r hr hcid
    rcases Keyed.Table.mem_insertOrIgnore.mp hr with hold | ⟨rfl, -⟩
    · exact hord.nonneg r hold hcid
    · exact (hrow hcid).1

/-! ## Whole walks -/

/-- What the client holds, in terms of rows: everything wanted of the
store the walk began over once the walk has ended. -/
structure WalkInv (parse : String → Option Json) (q : EventsQuery) (db₀ : Db) (w : Walk)
    (seen : List EventRow) : Prop where
  ordered : TokenOrdered q.contractId w.db
  grown : ∀ r ∈ db₀.events.rows, r ∈ w.db.events.rows
  got : w.got = seen.map (EventRow.toJson parse)
  strict : seen.Pairwise fun a b => a.id < b.id
  sound : ∀ r ∈ seen, Wanted q w.db r
  complete : w.finished = true → ∀ r, Wanted q db₀ r → r ∈ seen
  position : w.finished = false → Position q w.db seen w.cursor

variable {parse : String → Option Json} {db₀ : Db} {w w' : Walk} {seen : List EventRow}

theorem WalkInv.insert (hinv : WalkInv parse q db₀ w seen) {row : EventRow}
    (hrow : IngestsLater q.contractId w (.insert row)) :
    WalkInv parse q db₀ { w with db := w.db.insertEvent row } seen where
  ordered := hinv.ordered.insert hrow
  grown := fun r hr => Keyed.Table.mem_insertOrIgnore_of_mem (hinv.grown r hr)
  got := hinv.got
  strict := hinv.strict
  sound := fun r hr => (hinv.sound r hr).insert
  complete := hinv.complete
  position := fun hnot => (hinv.position hnot).insert fun hcid r hr hrcid =>
    ((hrow hcid).2 r hr hrcid).1

theorem WalkInv.request (hinv : WalkInv parse q db₀ w seen) (hsim : NotSimulated sim q)
    (hlimit : 1 ≤ q.pageSize) (hst : Walk.next parse sim q w .request = some w') :
    ∃ seen', WalkInv parse q db₀ w' seen' := by
  cases hnot : w.finished with
  | true => simp [Walk.next, hnot] at hst
  | false =>
      simp only [Walk.next, hnot, Bool.false_eq_true, if_false] at hst
      obtain rfl := Option.some.inj hst
      obtain ⟨hstrict, hsound, hshort, hlong⟩ :=
        (hinv.position hnot).page hsim hinv.ordered hlimit
      have hlen : ((q.at w.cursor).answer parse sim w.db).events.length
          = ((q.at w.cursor).rows sim w.db).length := List.length_map _
      refine ⟨seen ++ (q.at w.cursor).rows sim w.db, hinv.ordered, hinv.grown, ?_, hstrict, hsound,
        fun hfin r hr => ?_, fun hgo => ?_⟩
      · rw [List.map_append, ← hinv.got]
        rfl
      · rw [decide_eq_true_eq, hlen] at hfin
        exact hshort hfin r ⟨hinv.grown r hr.1, hr.2⟩
      · rw [decide_eq_false_iff_not, hlen] at hgo
        exact hlong hgo

theorem walkInv_reach {db₀ : Db} (hsim : NotSimulated sim q) (hlimit : 1 ≤ q.pageSize)
    (hord : TokenOrdered q.contractId db₀)
    (h : Lts.Reach (· = Walk.start db₀)
      (Lts.ofNext (IngestsLater q.contractId) (Walk.next parse sim q)) w) :
    ∃ seen, WalkInv parse q db₀ w seen := by
  refine h.invariant (I := fun w => ∃ seen, WalkInv parse q db₀ w seen) ?_ ?_
  · rintro _ rfl
    exact ⟨[], hord, fun _ hr => hr, rfl, .nil, nofun, nofun, fun _ => rfl⟩
  · rintro w act w' - ⟨seen, hinv⟩ ⟨hallow, hst⟩
    cases act with
    | insert row =>
        obtain rfl := Option.some.inj hst
        exact ⟨seen, hinv.insert hallow⟩
    | request => exact hinv.request hsim hlimit hst

/-- **Paging loses and repeats nothing.** In every interleaving of a
client's requests with inserts past the rows of its contract: the ids it
is served strictly increase, it is never served another contract or a
ledger below its start, and once a page came back short, every event it
wants that was stored when the walk began has been served exactly once. -/
theorem walk_exact {db₀ : Db} (hsim : NotSimulated sim q) (hlimit : 1 ≤ q.limit.getD 100)
    (hord : TokenOrdered q.contractId db₀)
    (h : Lts.Reach (· = Walk.start db₀)
      (Lts.ofNext (IngestsLater q.contractId) (Walk.next parse sim q)) w) :
    (w.got.map EventJson.id).Pairwise (· < ·)
      ∧ (∀ j ∈ w.got, j.contractId = q.contractId ∧ q.startLedger.getD 0 ≤ j.ledger)
      ∧ (w.finished = true → ∀ r ∈ db₀.events.rows, r.contractId = q.contractId →
          q.startLedger.getD 0 ≤ r.ledger →
          w.got.filter (fun j => j.id = r.id) = [r.toJson parse]) := by
  have hsize : 1 ≤ q.pageSize := le_min hlimit (by decide)
  obtain ⟨seen, hinv⟩ := walkInv_reach hsim hsize hord h
  have hids : (seen.map EventRow.id).Pairwise (· < ·) := List.pairwise_map.mpr hinv.strict
  have hgot : w.got.map EventJson.id = seen.map EventRow.id := by
    rw [hinv.got, List.map_map]
    rfl
  refine ⟨hgot ▸ hids, fun j hj => ?_, fun hfin r hr hcid hle => ?_⟩
  · rw [hinv.got] at hj
    obtain ⟨r, hr, rfl⟩ := List.mem_map.mp hj
    exact (hinv.sound r hr).2
  · have hmem : r ∈ seen := hinv.complete hfin r ⟨hr, hcid, hle⟩
    let T : Keyed.Table EventRow.id := ⟨seen, hids.imp ne_of_lt⟩
    rw [hinv.got, List.filter_map]
    exact congrArg (List.map (EventRow.toJson parse)) (T.filter_key hmem)

/-- A row of contract `CA` in ledger `l`, as the `i`-th event of its chain. -/
def plainRow (i : String) (l : Int) : EventRow :=
  { id := i, contractId := "CA", ledger := l, txHash := none, topicsJson := "[]",
    valueXdr := "AAAAAQ==", ledgerClosedAt := none, inSuccessfulTx := some 1 }

def pairDb : Db :=
  (Db.empty.insertEvent (plainRow "e1" 5)).insertEvent (plainRow "e2" 6)

def pairQuery : EventsQuery :=
  { contractId := "CA", startLedger := some 6, cursor := none, limit := some 1, source := none }

/-- Of two rows the second is wanted; it is served alone, and a third that
arrives meanwhile after it. -/
theorem walk_exact_pair :
    ∃ w : Walk, w.finished = true ∧ (w.got.map EventJson.id).Pairwise (· < ·)
      ∧ w.got.filter (fun j => j.id = "e2") = [(plainRow "e2" 6).toJson fun _ => none] := by
  have hord : TokenOrdered "CA" pairDb := ⟨by decide, by decide⟩
  have hlimit : (1 : Int) ≤ pairQuery.limit.getD 100 := le_rfl
  have hlater : IngestsLater "CA" (Walk.start pairDb) (.insert (plainRow "e3" 9)) :=
    fun _ => ⟨by decide, by decide⟩
  have hstart : Lts.Reach (· = Walk.start pairDb)
      (Lts.ofNext (IngestsLater "CA") (Walk.next (fun _ => none) none pairQuery))
      (Walk.start pairDb) := .init rfl
  have hreach := hstart
    |>.next .request trivial rfl
    |>.next (.insert (plainRow "e3" 9)) hlater rfl
    |>.next .request trivial rfl
    |>.next .request trivial rfl
  obtain ⟨hstrict, -, hall⟩ := walk_exact (Or.inl rfl) hlimit hord hreach
  exact ⟨_, rfl, hstrict, hall rfl (plainRow "e2" 6) (by decide) rfl (by decide)⟩

end RaizStack
