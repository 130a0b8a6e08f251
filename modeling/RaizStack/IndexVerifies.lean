import RaizStack.MemNoGap
import RaizStack.ShimFetch

/-!
# From the chain to a verified total

The whole path of one figure: the wrapper's log on the chain, the RPC
that serves it, the ingest tasks that write it down while they crash and
resume, the `/events` pages the shim reads meanwhile, the replay and the
comparison with the commitments. Each part has its own file; what joins
them is that the rows the shim was served are an initial part of the log
(`wanted_eq_take`), because the store has no gap from its mark on and the
loop returns all of it.
-/

namespace RaizStack

variable {R P C : Type}

/-! ## The log of the wrapper -/

/-- An event of the wrapper and the transaction behind it, if it is of a
kind the shim reads. -/
structure LogEntry (R C : Type) where
  event : RawEvent
  tx : Option (Tx R C)

def txsIn (log : List (LogEntry R C)) : List (Tx R C) :=
  log.filterMap LogEntry.tx

/-- The row `/events` serves of an entry. -/
def LogEntry.row (parse : String → Option Json) (x : LogEntry R C) : EventJson :=
  (rowOf x.event).toJson parse

/-- The events of the contract, those still to come included, in order and
as the shim decodes them. -/
structure LogOf (H : History) (cid : String) (parse : String → Option Json)
    (dec : EventDecoder C) (log : List (LogEntry R C)) : Prop where
  lists : ∀ e, e ∈ H.of cid ↔ ∃ x ∈ log, x.event = e
  ordered : log.Pairwise fun a b => a.event.id < b.event.id
  decodes : ∀ x ∈ log, parseRawEvent dec (x.row parse) = .ok (x.tx.map Tx.event)

/-- What is selected of a list, once nothing selected follows anything that
is not, is its beginning. -/
theorem filter_eq_take {α : Type} {p : α → Bool} {l : List α}
    (h : l.Pairwise fun a b => p b = true → p a = true) :
    l.filter p = l.take (l.filter p).length := by
  induction l with
  | nil => rfl
  | cons a l ih =>
      rw [List.pairwise_cons] at h
      cases hp : p a with
      | true =>
          rw [List.filter_cons_of_pos hp, List.length_cons, List.take_succ_cons, ← ih h.2]
      | false =>
          have hnone : l.filter p = [] := List.filter_eq_nil_iff.mpr fun b hb hpb => by
            rw [h.1 b hb hpb] at hp
            cases hp
          rw [List.filter_cons_of_neg (by simp [hp]), hnone]
          rfl

/-! ## What the index serves of it -/

section Served

variable {H : History} {w : World String} {cid : String} {parse : String → Option Json}
  {dec : EventDecoder C} {log : List (LogEntry R C)} {start : Int} {source : Option String}
  {m : BackfillMark}

/-- Whether the store has the row of an entry. -/
def LogEntry.stored (db : Db) (x : LogEntry R C) : Bool :=
  decide (rowOf x.event ∈ db.events.rows)

theorem LogEntry.stored_iff {db : Db} {x : LogEntry R C} :
    x.stored db = true ↔ x.event ∈ held db :=
  decide_eq_true_iff

theorem LogOf.stored_initial (hlog : LogOf H cid parse dec log) (hinv : NoGapInv H w)
    (hm : w.db.backfillMarks.find? cid = some m)
    (hfrom : ∀ x ∈ log, m.effectiveStartLedger ≤ x.event.ledger) :
    log.Pairwise fun a b => b.stored w.db = true → a.stored w.db = true := by
  refine hlog.ordered.imp_of_mem fun {a b} ha hb hlt hstored => ?_
  have hain : a.event ∈ H.of cid := (hlog.lists _).mpr ⟨a, ha, rfl⟩
  have hbin : b.event ∈ H.of cid := (hlog.lists _).mpr ⟨b, hb, rfl⟩
  rw [LogEntry.stored_iff] at hstored ⊢
  exact (hinv.unbroken cid).marked m hm b.event hbin hstored a.event hain (hfrom a ha) hlt.le

/-- **The wanted rows are the beginning of the log**, as far as it is
stored. -/
theorem LogOf.wanted_eq_take (hlog : LogOf H cid parse dec log) (hinv : NoGapInv H w)
    (hm : w.db.backfillMarks.find? cid = some m) (hmark : m.effectiveStartLedger ≤ start)
    (hfrom : ∀ x ∈ log, start ≤ x.event.ledger) :
    w.db.wanted (wholeQuery cid (some start) source)
      = (log.take (log.filter (LogEntry.stored w.db)).length).map fun x => rowOf x.event := by
  have hinitial := hlog.stored_initial hinv hm fun x hx => le_trans hmark (hfrom x hx)
  rw [← filter_eq_take hinitial]
  refine Keyset.eq_of_mem_iff wanted_strict ?_ fun r => ?_
  · exact List.pairwise_map.mpr (hlog.ordered.sublist List.filter_sublist)
  · rw [mem_wanted, List.mem_map]
    constructor
    · rintro ⟨hr, hcid, -⟩
      obtain ⟨e, he, rfl, -⟩ := hinv.scan.rowsOf.exists_held hr hcid
      obtain ⟨x, hx, rfl⟩ := (hlog.lists e).mp he
      exact ⟨x, List.mem_filter.mpr ⟨hx, decide_eq_true hr⟩, rfl⟩
    · rintro ⟨x, hx, rfl⟩
      obtain ⟨hx, hstored⟩ := List.mem_filter.mp hx
      exact ⟨of_decide_eq_true hstored, ((hlog.lists _).mpr ⟨x, hx, rfl⟩).2, hfrom x hx⟩

/-- The rows of log entries decode to their transactions. -/
theorem LogOf.parseRows (hlog : LogOf H cid parse dec log) (n : Nat) :
    RaizStack.parseRows dec
        (((log.take n).map fun x => rowOf x.event).map (EventRow.toJson parse))
      = .ok ((txsIn (log.take n)).map Tx.event) := by
  have hmap : ((log.take n).map (LogEntry.row parse)).mapM (parseRawEvent dec)
      = .ok ((log.take n).map fun x => x.tx.map Tx.event) := by
    rw [Fallible.mapM_map]
    exact Fallible.mapM_eq_ok fun x hx => hlog.decodes x (List.mem_of_mem_take hx)
  have hrows : ((log.take n).map fun x => rowOf x.event).map (EventRow.toJson parse)
      = (log.take n).map (LogEntry.row parse) := List.map_map ..
  rw [hrows, RaizStack.parseRows, hmap]
  refine congrArg Except.ok ?_
  rw [List.reduceOption, List.filterMap_map, txsIn, List.map_filterMap]
  rfl

/-- A stored beginning of the log is no longer than what is stored. -/
theorem le_length_filter {α : Type} {p : α → Bool} {l : List α} {i : Nat} (hi : i ≤ l.length)
    (h : ∀ x ∈ l.take i, p x = true) : i ≤ (l.filter p).length :=
  calc i = (l.take i).length := by rw [List.length_take, min_eq_left hi]
    _ = ((l.take i).filter p).length := by rw [List.filter_eq_self.mpr h]
    _ ≤ (l.filter p).length := ((List.take_sublist i l).filter _).length_le

/-- Entries up to the stored cursor are stored. -/
theorem LogOf.stored_of_cursor (hlog : LogOf H cid parse dec log) (hinv : NoGapInv H w)
    (hm : w.db.backfillMarks.find? cid = some m)
    (hfrom : ∀ x ∈ log, m.effectiveStartLedger ≤ x.event.ledger) {c : String}
    (hcur : (w.db.getCursor cid).1 = some c) {i : Nat} (hi : i ≤ log.length)
    (hupto : ∀ x ∈ log.take i, x.event.id ≤ c) :
    i ≤ (log.filter (LogEntry.stored w.db)).length := by
  cases hfind : w.db.cursors.find? cid with
  | none => simp [Db.getCursor, hfind] at hcur
  | some r =>
      obtain ⟨c', m', hc', hm', hcov, -⟩ := hinv.scan.scanned cid r hfind
      obtain rfl : m' = m := Option.some.inj (hm'.symm.trans hm)
      have hcc : c' = c := by
        simpa [Db.getCursor, hfind, hc'] using hcur
      subst hcc
      refine le_length_filter hi fun x hx => LogEntry.stored_iff.mpr ?_
      have hxin := List.mem_of_mem_take hx
      exact hcov x.event ((hlog.lists _).mpr ⟨x, hxin, rfl⟩) (hfrom x hxin) (hupto x hx)

end Served

/-! ## An index that is read while it grows -/

section Index

/-- In one run of the ingest tasks the `k`-th request of the shim meets the
state `ws k`, all of them after `w`. -/
structure LiveIndex (H : History) (cid : String) (start : Int) (m : BackfillMark)
    (w : World String) (ws : Nat → World String) : Prop where
  reach : Lts.Reach (· = World.fresh String) (forwardStep H) w
  first : Lts.Steps (forwardStep H) w (ws 0)
  next : ∀ k, Lts.Steps (forwardStep H) (ws k) (ws (k + 1))
  mark : w.db.backfillMarks.find? cid = some m
  reaches : m.effectiveStartLedger ≤ start

variable {H : History} {w : World String} {ws : Nat → World String} {cid : String}
  {parse : String → Option Json} {dec : EventDecoder C} {log : List (LogEntry R C)} {start : Int}
  {source : Option String} {m : BackfillMark} {sim : Option Int} {c : String} {first last : Nat}

theorem LiveIndex.later (h : LiveIndex H cid start m w ws) (k : Nat) :
    Lts.Steps (forwardStep H) (ws 0) (ws k) := by
  induction k with
  | zero => exact .refl
  | succ k ih => exact ih.trans (h.next k)

theorem LiveIndex.steps (h : LiveIndex H cid start m w ws) (k : Nat) :
    Lts.Steps (forwardStep H) w (ws k) :=
  h.first.trans (h.later k)

/-- Each request meets a reachable state whose mark is still the one the
index started from, and whose store grows at its end only. -/
theorem LiveIndex.state (h : LiveIndex H cid start m w ws) (hcur : (w.db.getCursor cid).1 = some c)
    (k : Nat) :
    NoGapInv H (ws k) ∧ (ws k).db.backfillMarks.find? cid = some m
      ∧ GrowsLater (wholeQuery cid (some start) source) (ws k).db (ws (k + 1)).db := by
  have hstand : Standing (wholeQuery cid (some start) source) m w.db := by
    refine ⟨?_, h.mark⟩
    cases hfind : w.db.cursors.find? cid with
    | none => simp [Db.getCursor, hfind] at hcur
    | some r => exact ⟨r, hfind⟩
  have hreach : Lts.Reach (· = World.fresh String) (forwardStep H) (ws k) :=
    h.reach.steps (h.steps k)
  have hstandk := (grows_later H h.reach (h.steps k) hstand h.reaches).1
  exact ⟨.of_reach hreach, hstandk.mark, (grows_later H hreach (h.next k) hstandk h.reaches).2⟩

/-- What the shim is served while the index grows: a beginning of the log
that has all the index had when the shim began to read, and all it had at
the first request. -/
theorem LiveIndex.served (h : LiveIndex H cid start m w ws) (hlog : LogOf H cid parse dec log)
    (hcur : (w.db.getCursor cid).1 = some c) (hfirst : first ≤ log.length)
    (hupto : ∀ x ∈ log.take first, x.event.id ≤ c) (hfrom : ∀ x ∈ log, start ≤ x.event.ledger)
    (hfew : log.length < fetchPageLimit * fetchMaxPages)
    (hsim : NotSimulated sim (wholeQuery cid (some start) source))
    (href : String → EventsQuery → String) (text : EventsBody → String) (baseUrl : String) :
    ∃ got n, fetchEventsFromUrl dec href (indexSite text parse sim fun k => (ws k).db) baseUrl cid
        (some start) source = .ok got ∧
      first ≤ n ∧ n ≤ log.length ∧
      (∀ i ≤ log.length, (∀ x ∈ log.take i, x.stored (ws 0).db = true) → i ≤ n) ∧
      got.events = (txsIn (log.take n)).map Tx.event := by
  have hstate : ∀ k, NoGapInv H (ws k) ∧ (ws k).db.backfillMarks.find? cid = some m
      ∧ GrowsLater (wholeQuery cid (some start) source) (ws k).db (ws (k + 1)).db :=
    h.state hcur
  have hwanted : ∀ k, (ws k).db.wanted (wholeQuery cid (some start) source)
      = (log.take (log.filter (LogEntry.stored (ws k).db)).length).map fun x => rowOf x.event :=
    fun k => hlog.wanted_eq_take (hstate k).1 (hstate k).2.1 h.reaches hfrom
  have hord : ∀ k, TokenOrdered cid (ws k).db :=
    fun k => (hstate k).1.scan.rowsOf.tokenOrdered cid
  have hdec : ∀ k r, Wanted (wholeQuery cid (some start) source) (ws k).db r →
      ∃ o, parseRawEvent dec (r.toJson parse) = .ok o := by
    intro k r hr
    rw [← mem_wanted, hwanted k] at hr
    obtain ⟨x, hx, rfl⟩ := List.mem_map.mp hr
    exact ⟨_, hlog.decodes x (List.mem_of_mem_take hx)⟩
  have hshort : ∀ k, ((ws k).db.wanted (wholeQuery cid (some start) source)).length
      < fetchPageLimit * fetchMaxPages := by
    intro k
    rw [hwanted k, List.length_map, List.length_take]
    exact lt_of_le_of_lt (min_le_right _ _) hfew
  obtain ⟨got, hgot⟩ := fetchEventsFromUrl_answered text href baseUrl hsim hord
    (fun k => (hstate k).2.2) hdec hshort
  obtain ⟨k, hall⟩ := fetchedAll_of_pagesOf hsim hord (fun k => (hstate k).2.2)
    (pagesOf_indexSite text parse sim _) hgot
  refine ⟨got, (log.filter (LogEntry.stored (ws k).db)).length, hgot, ?_,
    List.length_filter_le _ _, fun i hi hstored => ?_, ?_⟩
  · -- the index had these entries, and rows stay
    have hmark : ∀ x ∈ log, m.effectiveStartLedger ≤ x.event.ledger :=
      fun x hx => le_trans h.reaches (hfrom x hx)
    refine le_trans (hlog.stored_of_cursor (.of_reach h.reach) h.mark hmark hcur hfirst hupto) ?_
    refine (List.monotone_filter_right log fun x hstored => ?_).length_le
    exact decide_eq_true (rows_stay H (h.steps k) _ (of_decide_eq_true hstored))
  · refine le_length_filter hi fun x hx => ?_
    exact decide_eq_true (rows_stay H (h.later k) _ (of_decide_eq_true (hstored x hx)))
  · have hparsed := hall.parsed
    rw [hwanted k, hlog.parseRows] at hparsed
    exact (Except.ok.inj hparsed).symm

end Index

/-! ## The run -/

variable [AddMonoid R] [Add P]

def payTopics : List String :=
  [XdrVal.symbol "deposit", .account payerKey, .account goalKey].map XdrVal.text

/-- The event behind the served row of a deposit. -/
def payEvent : RawEvent :=
  { id := "0016965675500376064-0000000001"
    contractId := CtConfig.token
    ledger := 3950129
    txHash := some "58363138"
    topic := payTopics
    value := .str paymentData.text
    ledgerClosedAt := none
    inSuccessfulContractCall := true }

/-- Another deposit of the same amount, past the first page. -/
def laterPayEvent : RawEvent :=
  { payEvent with id := "0016966005582462976-0000000000", ledger := 3950206 }

def payHistory : History where
  events := {payEvent, laterPayEvent}
  idUnique := by
    rintro e (rfl | rfl) e' (rfl | rfl) hid
    · rfl
    · exact absurd hid (by decide)
    · exact absurd hid (by decide)
    · rfl
  ledgerMono := by
    rintro e (rfl | rfl) e' (rfl | rfl) hlt
    · exact le_rfl
    · decide
    · exact absurd hlt (by decide)
    · exact le_rfl
  ledgerPos := by
    rintro e (rfl | rfl) <;> decide

def payCursor : String := "0016965979812659200-0000000000"

def payPage : GetEventsResult :=
  { events := [payEvent], latestLedger := 3950200, cursor := some payCursor, pagingToken := none,
    oldestLedger := some 3950000 }

theorem payPage_serves : Serves payHistory
    (requestOf CtConfig.token { start := some 3950000, cursor := none, clampRetries := 0 })
    payPage where
  ordered := List.pairwise_singleton _ _
  lists := fun e => by
    constructor
    · intro he
      obtain rfl := List.mem_singleton.mp he
      refine ⟨.inl rfl, ⟨rfl, ?_⟩, ?_⟩
      · show max (3950000 : Int) 1 ≤ 3950129
        decide
      · show payEvent.id ≤ payCursor
        decide
    · rintro ⟨rfl | rfl, -, hreached⟩
      · exact List.mem_singleton_self _
      · exact absurd hreached (by decide : ¬ laterPayEvent.id ≤ payCursor)

def laterPayPage : GetEventsResult :=
  { events := [laterPayEvent], latestLedger := 3950300,
    cursor := some "0016966409309388800-0000000000", pagingToken := none,
    oldestLedger := some 3950000 }

theorem laterPayPage_serves : Serves payHistory
    (requestOf CtConfig.token
      { start := some 3950200, cursor := some payCursor, clampRetries := 0 })
    laterPayPage where
  ordered := List.pairwise_singleton _ _
  lists := fun e => by
    constructor
    · intro he
      obtain rfl := List.mem_singleton.mp he
      refine ⟨.inr rfl, ⟨rfl, ?_⟩, ?_⟩
      · show payCursor < laterPayEvent.id
        decide
      · show laterPayEvent.id ≤ "0016966409309388800-0000000000"
        decide
    · rintro ⟨rfl | rfl, ⟨-, hask⟩, -⟩
      · exact absurd hask (by decide : ¬ payCursor < payEvent.id)
      · exact List.mem_singleton_self _

/-- The index after its first tick. -/
def payDb : Db :=
  ((Db.empty.recordBackfillMark CtConfig.token
      (StartPlan.resolve ⟨3950000, 3950200⟩ .oldest) "").insertEvent (rowOf payEvent)).setCursor
    CtConfig.token payCursor 3950200

def payWorld (db : Db) : World String :=
  { db := db, pcs := Function.update (fun _ => .idle) CtConfig.token (.returned (.ok ())) }

theorem payWorld_reach :
    Lts.Reach (· = World.fresh String) (forwardStep payHistory) (payWorld payDb) := by
  have hfresh : Lts.Reach (· = World.fresh String) (forwardStep payHistory)
      (World.fresh String) := .init rfl
  exact hfresh
    |>.next_during (CtConfig.token, .begin .oldest) (fun _ _ _ => trivial) trivial rfl
    |>.next_during (CtConfig.token, .dbOk "") (fun _ _ _ => trivial) trivial (World.next_update rfl)
    |>.next_during (CtConfig.token, .range ⟨.ok (some 3950000, some 3950200), .error "", .error ""⟩)
      (fun _ h => nomatch h) trivial (World.next_update rfl)
    |>.next_during (CtConfig.token, .dbOk "") (fun _ _ _ => trivial) trivial (World.next_update rfl)
    |>.next_during (CtConfig.token, .page (.ok payPage)) (fun _ _ _ => trivial)
      ⟨payPage_serves, nofun⟩ (World.next_update rfl)
    |>.next_during (CtConfig.token, .dbOk "") (fun _ _ _ => trivial) trivial (World.next_update rfl)
    |>.next_during (CtConfig.token, .dbOk "") (fun _ _ _ => trivial) trivial (World.next_update rfl)

/-- The index after its second tick. -/
def laterPayDb : Db :=
  (payDb.insertEvent (rowOf laterPayEvent)).setCursor CtConfig.token
    "0016966409309388800-0000000000" 3950300

theorem payWorld_steps :
    Lts.Steps (forwardStep payHistory) (payWorld payDb) (payWorld laterPayDb) := by
  have hhere : Lts.Steps (forwardStep payHistory) (payWorld payDb) (payWorld payDb) := .refl
  exact hhere
    |>.next_during (CtConfig.token, .begin .oldest) (fun _ _ _ => trivial) trivial
      (World.next_update rfl)
    |>.next_during (CtConfig.token, .dbOk "") (fun _ _ _ => trivial) trivial (World.next_update rfl)
    |>.next_during (CtConfig.token, .page (.ok laterPayPage)) (fun _ _ _ => trivial)
      ⟨laterPayPage_serves, nofun⟩ (World.next_update rfl)
    |>.next_during (CtConfig.token, .dbOk "") (fun _ _ _ => trivial) trivial (World.next_update rfl)
    |>.next_during (CtConfig.token, .dbOk "") (fun _ _ _ => trivial) trivial (World.next_update rfl)

theorem rows_payDb : payDb.events.rows = [rowOf payEvent] ∧
    laterPayDb.events.rows = [rowOf payEvent, rowOf laterPayEvent] := ⟨rfl, rfl⟩

/-- The mark of the first tick and its cursor. -/
theorem pay_marked : ∃ m, (payWorld payDb).db.backfillMarks.find? CtConfig.token = some m ∧
    m.effectiveStartLedger ≤ 3950000 ∧
    ((payWorld payDb).db.getCursor CtConfig.token).1 = some payCursor :=
  ⟨_, rfl, le_rfl, rfl⟩

def payParse (_ : String) : Option Json :=
  some (.arr (payTopics.map Json.str))

def payTx : Tx Int (Int × Int × Int) :=
  .deposit paymentInfo (strKey accountVersion payerKey.toList) goalStrkey 5

def laterPayTx : Tx Int (Int × Int × Int) :=
  .deposit { paymentInfo with ledger := 3950206 } (strKey accountVersion payerKey.toList)
    goalStrkey 5

def payLog : List (LogEntry Int (Int × Int × Int)) :=
  [⟨payEvent, some payTx⟩, ⟨laterPayEvent, some laterPayTx⟩]

theorem payLog_of : LogOf payHistory CtConfig.token payParse clearDecoder payLog where
  lists e := by
    constructor
    · rintro ⟨rfl | rfl, -⟩
      · exact ⟨_, List.mem_cons_self, rfl⟩
      · exact ⟨_, List.mem_cons_of_mem _ (List.mem_singleton_self _), rfl⟩
    · rintro ⟨x, hx, rfl⟩
      rcases List.mem_pair.mp hx with rfl | rfl
      · exact ⟨.inl rfl, rfl⟩
      · exact ⟨.inr rfl, rfl⟩
  ordered := by
    refine List.pairwise_pair.mpr ?_
    decide
  decodes := by
    have hbuild : ∀ ledger, clearDecoder.buildConfidentialEvent "deposit"
        { ledger := ledger, txHash := "58363138", ledgerClosedAt := none }
        (fun i => addressOf
          ([XdrVal.symbol "deposit", .account payerKey, .account goalKey].map XdrVal.value)[i]?)
        paymentData.value = .ok (.deposit { paymentInfo with ledger := ledger }
          (strKey accountVersion payerKey.toList) goalStrkey 5) := by
      intro ledger
      simp [clearDecoder, addressOf, XdrVal.value, paymentData, XdrVal.entryValues,
        ScVal.mapField, ScVal.asSymbol, ScVal.asBigInteger, paymentInfo, goalStrkey]
    intro x hx
    rcases List.mem_pair.mp hx with rfl | rfl
    · exact parse_paymentRow_at "deposit" payEvent.id 3950129 (by decide) rfl (hbuild _)
    · exact parse_paymentRow_at "deposit" laterPayEvent.id 3950206 (by decide) rfl (hbuild _)

theorem payLog_upto : ∀ x ∈ payLog.take 1, x.event.id ≤ payCursor := by
  intro x hx
  obtain rfl := List.mem_singleton.mp hx
  decide

theorem payLog_from : ∀ x ∈ payLog, (3950000 : Int) ≤ x.event.ledger := by
  intro x hx
  rcases List.mem_pair.mp hx with rfl | rfl
  · decide
  · decide

theorem payLog_stored : ∀ x ∈ payLog.take 2, x.stored (payWorld laterPayDb).db = true := by
  intro x hx
  refine decide_eq_true ?_
  rw [payWorld, rows_payDb.2]
  rcases List.mem_pair.mp hx with rfl | rfl
  · exact List.mem_cons_self
  · exact List.mem_cons_of_mem _ (List.mem_singleton_self _)

end RaizStack
