import RaizStack.MemIngest

/-!
# The first start ledger and its corrections

A first run resolves a start, records it, and asks for a page. Up to
three times the RPC may answer that the start is outside its range; each
time the start becomes the oldest ledger of that range and the mark is
rewritten by one `UPDATE`. The mark is followed through the whole
sequence: it is a fold of the starts that were tried, and what it says
at the end depends on the last of them and on whether any was above the
ledger asked for.

The `CASE` of the update was written for a floor that slid past the
start. It is not told that the start may also lie ahead of the RPC's
head, where the same rejection moves the scan backwards.
-/

namespace RaizStack

/-! ## A first run up to the accepted page -/

/-- The tick of one task as a function of its answers. -/
def tickStep (cid : String) (s : Db × Pc) (reply : Reply) : Option (Db × Pc) :=
  resume cid s.1 s.2 reply

/-- The answers to one rejected request and to the update it causes. -/
def rejection (msg : String) : List Reply :=
  [.page (.error msg), .dbOk ""]

/-- The answers up to the first accepted page. -/
def firstRun (spec : StartSpec) (a : RangeAnswers) (now : String) (msgs : List String) :
    List Reply :=
  [.begin spec, .dbOk "", .range a, .dbOk now] ++ msgs.flatMap rejection

/-- Where a contract starts by the range the RPC reports: at its head, at
its floor, or at the ledger asked for, raised to the floor. -/
def firstStart (spec : StartSpec) (range : LedgerRange) : Int :=
  match spec with
  | .head => max range.latest 1
  | .oldest => max range.oldest 1
  | .ledger n => max n range.oldest

/-- All starts that were tried: the resolved one and the oldest ledger of
every range the RPC named. -/
def starts (spec : StartSpec) (range : LedgerRange) (os : List (Int × Int)) : List Int :=
  firstStart spec range :: os.map Prod.fst

/-- The start the RPC accepted. -/
def lastStart (spec : StartSpec) (range : LedgerRange) (os : List (Int × Int)) : Int :=
  (os.map Prod.fst).getLast?.getD (firstStart spec range)

/-- What a mark must say about the request that was accepted. -/
structure MarkExact (spec : StartSpec) (range : LedgerRange) (req : EventsRequest)
    (m : BackfillMark) : Prop where
  effective : req.startFrom = .startLedger m.effectiveStartLedger
  ledger : ∀ n, spec = .ledger n → n ≤ m.effectiveStartLedger
  head : spec = .head → range.latest ≤ m.effectiveStartLedger
  clamped : m.clamped ≠ 0 ↔ ∃ n, spec.requested = some n ∧ n < m.effectiveStartLedger
  unreachable : m.unreachableLedgers =
    match spec.requested with
    | some n => if n < m.effectiveStartLedger then m.effectiveStartLedger - n else 0
    | none => 0

/-- When it does: the accepted start is a ledger, not below the head for
`head`, and for an explicit ledger above it - or that ledger itself, if
no start above it was tried before. -/
def LastStartFits (spec : StartSpec) (range : LedgerRange) (os : List (Int × Int)) : Prop :=
  1 ≤ lastStart spec range os ∧
    match spec with
    | .head => range.latest ≤ lastStart spec range os
    | .oldest => True
    | .ledger n => n < lastStart spec range os
        ∨ (lastStart spec range os = n ∧ ∀ s ∈ starts spec range os, s ≤ n)

/-! ## The mark as a fold of the starts -/

/-- What the mark says after the starts `ss` were tried for `requested`. -/
structure MarkAfter (requested : Option Int) (ss : List Int) (m : BackfillMark) : Prop where
  requested_eq : m.requestedStartLedger = requested
  effective : ss.getLast? = some m.effectiveStartLedger
  clamped : m.clamped ≠ 0 ↔ ∃ n, requested = some n ∧ ∃ s ∈ ss, n < s
  unreachable_of_lt : ∀ n, requested = some n → n < m.effectiveStartLedger →
    m.unreachableLedgers = m.effectiveStartLedger - n
  unreachable_of_le : (∀ n, requested = some n → ∀ s ∈ ss, s ≤ n) → m.unreachableLedgers = 0

/-- What `resolve` decides on. -/
theorem resolve_firstStart (spec : StartSpec) (range : LedgerRange) :
    (StartPlan.resolve range spec).effective = firstStart spec range :=
  resolve_effective range spec

theorem markAfter_first (cid : String) (spec : StartSpec) (range : LedgerRange) (now : String) :
    MarkAfter spec.requested [firstStart spec range]
      (Db.markOf cid (StartPlan.resolve range spec) now) where
  requested_eq := resolve_requested range spec
  effective := congrArg some (resolve_firstStart spec range).symm
  clamped := by
    have hclamped := resolve_clamped range spec
    have hmark : (Db.markOf cid (StartPlan.resolve range spec) now).clamped ≠ 0
        ↔ (StartPlan.resolve range spec).clamped = true := by
      cases hc : (StartPlan.resolve range spec).clamped <;> simp [Db.markOf, hc]
    rw [hmark, hclamped, resolve_firstStart]
    simp
  unreachable_of_lt := by
    intro n hn hlt
    have hunr := resolve_unreachable range spec
    rw [hn] at hunr
    exact hunr
  unreachable_of_le := by
    intro hall
    have hunr := resolve_unreachable range spec
    cases hreq : spec.requested with
    | none =>
        rw [hreq] at hunr
        exact hunr
    | some n =>
        have hle : firstStart spec range ≤ n := hall n hreq _ (List.mem_singleton_self _)
        have hge : n ≤ firstStart spec range := by
          cases spec with
          | head => cases hreq
          | oldest => cases hreq
          | ledger k =>
              obtain rfl := Option.some.inj hreq
              exact le_max_left _ _
        have hdist : (StartPlan.resolve range spec).unreachable = firstStart spec range - n := by
          rw [hreq, resolve_firstStart] at hunr
          exact hunr
        show (StartPlan.resolve range spec).unreachable = 0
        omega

theorem requestedBelow_iff {requested : Option Int} {o : Int} :
    Db.requestedBelow requested o = true ↔ ∃ n, requested = some n ∧ n < o := by
  simp [Db.requestedBelow, Option.any_eq_true]

/-- One more start: the update keeps what the mark says about all of them. -/
theorem MarkAfter.reclamp {requested : Option Int} {ss : List Int} {m : BackfillMark}
    (hm : MarkAfter requested ss m) (o : Int) :
    MarkAfter requested (ss ++ [o]) (Db.reclamp o m) where
  requested_eq := hm.requested_eq
  effective := by simp [Db.reclamp]
  clamped := by
    by_cases hbelow : Db.requestedBelow m.requestedStartLedger o = true
    · obtain ⟨n, hn, hlt⟩ := requestedBelow_iff.mp hbelow
      rw [hm.requested_eq] at hn
      have hset : (Db.reclamp o m).clamped = 1 := if_pos hbelow
      have hone : (1 : Int) ≠ 0 := by decide
      rw [hset]
      exact iff_of_true hone ⟨n, hn, o, by simp, hlt⟩
    · have hle : ∀ n, requested = some n → ¬ n < o := fun n hn hlt =>
        hbelow (requestedBelow_iff.mpr ⟨n, hm.requested_eq.trans hn, hlt⟩)
      have hsame : (Db.reclamp o m).clamped = m.clamped := if_neg hbelow
      rw [hsame, hm.clamped]
      constructor
      · rintro ⟨n, hn, s, hs, hlt⟩
        exact ⟨n, hn, s, List.mem_append_left _ hs, hlt⟩
      · rintro ⟨n, hn, s, hs, hlt⟩
        rcases List.mem_append.mp hs with hin | hin
        · exact ⟨n, hn, s, hin, hlt⟩
        · obtain rfl := List.mem_singleton.mp hin
          exact absurd hlt (hle n hn)
  unreachable_of_lt := by
    intro n hn hlt
    have hreq : m.requestedStartLedger = some n := hm.requested_eq.trans hn
    have hbelow : Db.requestedBelow m.requestedStartLedger o = true :=
      requestedBelow_iff.mpr ⟨n, hreq, hlt⟩
    have hset : (Db.reclamp o m).unreachableLedgers = o - m.requestedStartLedger.getD 0 :=
      if_pos hbelow
    rw [hset, hreq]
    rfl
  unreachable_of_le := by
    intro hall
    have hbelow : ¬ Db.requestedBelow m.requestedStartLedger o = true := by
      intro hb
      obtain ⟨n, hn, hlt⟩ := requestedBelow_iff.mp hb
      have hle : o ≤ n := hall n (hm.requested_eq.symm.trans hn) o (by simp)
      omega
    have hset : (Db.reclamp o m).unreachableLedgers = m.unreachableLedgers := if_neg hbelow
    rw [hset]
    exact hm.unreachable_of_le fun n hn s hs => hall n hn s (List.mem_append_left _ hs)

/-! ## Running the answers -/

/-- The rejections of one tick, from any point of the page loop that
still starts by ledger. -/
theorem exec_rejections {cid : String} {requested : Option Int} {os : List (Int × Int)}
    {msgs : List String} (hmsgs : msgs.map parseLedgerRangeError = os.map some)
    {db : Db} {v : Locals} {m : BackfillMark} {ss : List Int}
    (hcursor : v.cursor = none) (hretries : v.clampRetries + os.length ≤ maxClampRetries)
    (hmark : db.backfillMarks.find? cid = some m) (hafter : MarkAfter requested ss m)
    (hstart : v.start = some m.effectiveStartLedger) :
    ∃ db' v' m', Lts.exec (tickStep cid) (db, .getEvents v) (msgs.flatMap rejection)
        = some (db', .getEvents v')
      ∧ v'.cursor = none ∧ v'.start = some m'.effectiveStartLedger
      ∧ db'.backfillMarks.find? cid = some m'
      ∧ MarkAfter requested (ss ++ os.map Prod.fst) m' := by
  induction os generalizing msgs db v m ss with
  | nil =>
      have hnil : msgs = [] := by simpa using hmsgs
      subst hnil
      refine ⟨db, v, m, rfl, hcursor, hstart, hmark, ?_⟩
      simpa using hafter
  | cons ol os ih =>
      obtain ⟨o, l⟩ := ol
      cases msgs with
      | nil => simp at hmsgs
      | cons msg msgs =>
          obtain ⟨hparse, hrest⟩ := List.cons.inj hmsgs
          rw [List.length_cons] at hretries
          have hlt : v.clampRetries < maxClampRetries := by omega
          have herr : onError v msg = .reclampMark
              { v with start := some o, clampRetries := v.clampRetries + 1 } o := by
            simp [onError, hcursor, hparse, hlt]
          have hmark' : (db.reclampBackfillMark cid o).backfillMarks.find? cid
              = some (Db.reclamp o m) := by
            rw [Db.find?_marks_reclampBackfillMark, if_pos rfl, hmark]
            rfl
          obtain ⟨db', v', m', hexec, hv', hs', hm', hafter'⟩ :=
            ih (v := { v with start := some o, clampRetries := v.clampRetries + 1 })
              hrest hcursor (by dsimp only; omega) hmark' (hafter.reclamp o) rfl
          refine ⟨db', v', m', ?_, hv', hs', hm', ?_⟩
          · rw [List.flatMap_cons, Lts.exec_append]
            have hhead : Lts.exec (tickStep cid) (db, .getEvents v) (rejection msg)
                = some (db.reclampBackfillMark cid o,
                    .getEvents { v with start := some o, clampRetries := v.clampRetries + 1 }) := by
              simp [rejection, Lts.exec_cons, tickStep, resume, herr]
            rw [hhead]
            exact hexec
          · simpa using hafter'

/-- The whole first run: the start that was accepted and the mark beside it. -/
theorem exec_firstRun {cid : String} {db : Db} {spec : StartSpec} {a : RangeAnswers}
    {range : LedgerRange} {now : String} {msgs : List String} {os : List (Int × Int)}
    (hcur : db.cursors.find? cid = none) (hrange : ledgerRange a = .ok range)
    (hmsgs : msgs.map parseLedgerRangeError = os.map some)
    (hlen : os.length ≤ maxClampRetries) :
    ∃ db' v m, Lts.exec (tickStep cid) (db, .idle) (firstRun spec a now msgs)
        = some (db', .getEvents v)
      ∧ v.cursor = none ∧ v.start = some m.effectiveStartLedger
      ∧ db'.backfillMarks.find? cid = some m
      ∧ MarkAfter spec.requested (starts spec range os) m := by
  have hplan : resolve a spec = .ok (StartPlan.resolve range spec) := by
    rw [resolve, hrange]
    rfl
  have hmark : (db.recordBackfillMark cid (StartPlan.resolve range spec) now).backfillMarks.find? cid
      = some (Db.markOf cid (StartPlan.resolve range spec) now) :=
    Db.find?_marks_recordBackfillMark _ _ |>.trans (if_pos rfl)
  obtain ⟨db', v, m, hexec, hv, hs, hm, hafter⟩ :=
    exec_rejections
      (v := { start := some (StartPlan.resolve range spec).effective
              cursor := none
              clampRetries := 0 })
      hmsgs rfl (by dsimp only; omega) hmark (markAfter_first cid spec range now) rfl
  refine ⟨db', v, m, ?_, hv, hs, hm, hafter⟩
  have hhead : Lts.exec (tickStep cid) (db, .idle) [.begin spec, .dbOk "", .range a, .dbOk now]
      = some (db.recordBackfillMark cid (StartPlan.resolve range spec) now,
          .getEvents { start := some (StartPlan.resolve range spec).effective
                       cursor := none
                       clampRetries := 0 }) := by
    simp [Lts.exec_cons, tickStep, resume, Db.getCursor, hcur, afterGetCursor, hplan]
  rw [firstRun, Lts.exec_append, hhead]
  exact hexec

/-! ## When the mark is exact -/

section Exact

variable {cid : String} {spec : StartSpec} {range : LedgerRange} {os : List (Int × Int)}
  {v : Locals} {m : BackfillMark}

theorem MarkAfter.lastStart_eq (hafter : MarkAfter spec.requested (starts spec range os) m) :
    lastStart spec range os = m.effectiveStartLedger := by
  have hlast := hafter.effective
  rw [starts, List.getLast?_cons] at hlast
  exact Option.some.inj hlast

/-- The request carries the start, raised to ledger 1. -/
theorem requestOf_startFrom (cid : String) {s : Int} (hcursor : v.cursor = none)
    (hstart : v.start = some s) :
    (requestOf cid v).startFrom = .startLedger s ↔ 1 ≤ s := by
  simp only [requestOf, getEvents, hcursor, hstart, Option.getD_some, EventsFrom.startLedger.injEq]
  omega

theorem mem_starts_of_last (hafter : MarkAfter spec.requested (starts spec range os) m) :
    m.effectiveStartLedger ∈ starts spec range os :=
  List.mem_of_getLast? hafter.effective

theorem markExact_iff (hcursor : v.cursor = none)
    (hstart : v.start = some m.effectiveStartLedger)
    (hafter : MarkAfter spec.requested (starts spec range os) m) :
    MarkExact spec range (requestOf cid v) m ↔ LastStartFits spec range os := by
  have hlast := hafter.lastStart_eq
  have hreq := requestOf_startFrom cid hcursor hstart
  unfold LastStartFits
  rw [hlast]
  constructor
  · intro hm
    refine ⟨hreq.mp hm.effective, ?_⟩
    cases spec with
    | head => exact hm.head rfl
    | oldest => trivial
    | ledger n =>
        rcases lt_or_eq_of_le (hm.ledger n rfl) with hlt | heq
        · exact Or.inl hlt
        · refine Or.inr ⟨heq.symm, fun s hs => le_of_not_gt fun hgt => ?_⟩
          -- an earlier start above `n` left the mark clamped
          have hclamped := hm.clamped.mp (hafter.clamped.mpr ⟨n, rfl, s, hs, hgt⟩)
          obtain ⟨n', hn', hlt⟩ := hclamped
          obtain rfl := Option.some.inj hn'
          omega
  · rintro ⟨hpos, hfits⟩
    cases spec with
    | head =>
        have hnone : ∀ n, StartSpec.head.requested = some n → False := by
          intro n hn
          cases hn
        refine ⟨hreq.mpr hpos, (fun _ h => by cases h), fun _ => hfits, ?_, ?_⟩
        · rw [hafter.clamped]
          simp [StartSpec.requested]
        · exact hafter.unreachable_of_le fun n hn => (hnone n hn).elim
    | oldest =>
        have hnone : ∀ n, StartSpec.oldest.requested = some n → False := by
          intro n hn
          cases hn
        refine ⟨hreq.mpr hpos, (fun _ h => by cases h), (fun h => by cases h), ?_, ?_⟩
        · rw [hafter.clamped]
          simp [StartSpec.requested]
        · exact hafter.unreachable_of_le fun n hn => (hnone n hn).elim
    | ledger n =>
        have hclamped := hafter.clamped
        refine ⟨hreq.mpr hpos, fun k hk => ?_, (fun h => by cases h), ?_, ?_⟩
        · obtain rfl := StartSpec.ledger.inj hk
          rcases hfits with hlt | ⟨heq, -⟩ <;> omega
        · rw [hclamped]
          constructor
          · rintro ⟨k, hk, s, hs, hlt⟩
            obtain rfl := Option.some.inj hk
            refine ⟨n, rfl, hfits.elim id ?_⟩
            intro hall
            exact absurd (hall.2 s hs) (not_le_of_gt hlt)
          · rintro ⟨k, hk, hlt⟩
            exact ⟨k, hk, _, mem_starts_of_last hafter, hlt⟩
        · show m.unreachableLedgers = if n < m.effectiveStartLedger then _ else 0
          split
          · rename_i hlt
            exact hafter.unreachable_of_lt n rfl hlt
          · rename_i hge
            have hall := (hfits.resolve_left hge).2
            refine hafter.unreachable_of_le ?_
            intro k hk s hs
            obtain rfl := Option.some.inj hk
            exact hall s hs

end Exact

/-- **The mark after a first run.** For every start spec, every range the
RPC reports and every sequence of range rejections within the limit, the
mark is exact about the accepted request if and only if the last start
fits the spec. -/
theorem first_run_mark_exact_iff {cid : String} {db : Db} {spec : StartSpec} {a : RangeAnswers}
    {range : LedgerRange} {now : String} {msgs : List String} {os : List (Int × Int)}
    (hcur : db.cursors.find? cid = none) (hrange : ledgerRange a = .ok range)
    (hmsgs : msgs.map parseLedgerRangeError = os.map some)
    (hlen : os.length ≤ maxClampRetries) :
    ∃ db' v m, Lts.exec (tickStep cid) (db, .idle) (firstRun spec a now msgs)
        = some (db', .getEvents v)
      ∧ db'.backfillMarks.find? cid = some m
      ∧ (MarkExact spec range (requestOf cid v) m ↔ LastStartFits spec range os) := by
  obtain ⟨db', v, m, hexec, hcursor, hstart, hm, hafter⟩ :=
    exec_firstRun hcur hrange hmsgs hlen
  exact ⟨db', v, m, hexec, hm, markExact_iff hcursor hstart hafter⟩

/-- A floor that slid from 150 to 160 under a request for ledger 100. -/
theorem first_run_mark_exact_slid :
    ∃ db' v m, Lts.exec (tickStep "CA") (Db.empty, .idle)
        (firstRun (.ledger 100) ⟨.ok (some 150, some 300), .error "", .error ""⟩ "now"
          ["startLedger must be within the ledger range: 160 - 310"])
        = some (db', .getEvents v)
      ∧ db'.backfillMarks.find? "CA" = some m
      ∧ MarkExact (.ledger 100) ⟨150, 300⟩ (requestOf "CA" v) m := by
  have hfits : LastStartFits (.ledger 100) ⟨150, 300⟩ [(160, 310)] :=
    ⟨by decide, Or.inl (by decide)⟩
  obtain ⟨db', v, m, hexec, hm, hiff⟩ := @first_run_mark_exact_iff "CA" Db.empty (.ledger 100)
    ⟨.ok (some 150, some 300), .error "", .error ""⟩ ⟨150, 300⟩ "now"
    ["startLedger must be within the ledger range: 160 - 310"] [(160, 310)]
    rfl rfl (by decide) (by decide)
  exact ⟨db', v, m, hexec, hm, hiff.mpr hfits⟩

/-- **A start ahead of the head is taken for one behind the floor.** An
explicit ledger 2000 over a range 100 - 1000 is rejected once, and the
contract is indexed from ledger 100 under a mark that says so. -/
theorem first_run_starts_below_request :
    ∃ db' v m, Lts.exec (tickStep "CA") (Db.empty, .idle)
        (firstRun (.ledger 2000) ⟨.ok (some 100, some 1000), .error "", .error ""⟩ "now"
          ["startLedger must be within the ledger range: 100 - 1000"])
        = some (db', .getEvents v)
      ∧ db'.backfillMarks.find? "CA" = some m
      ∧ m.effectiveStartLedger = 100
      ∧ ¬ MarkExact (.ledger 2000) ⟨100, 1000⟩ (requestOf "CA" v) m := by
  refine ⟨_, _, _, rfl, rfl, rfl, ?_⟩
  intro hexact
  exact absurd (hexact.ledger 2000 rfl) (by decide)

end RaizStack
