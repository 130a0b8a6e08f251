import Mathlib.Data.List.ReduceOption
import RaizStack.Decimal
import RaizStack.EventsWalk
import RaizStack.TimelineBlind

/-!
# Loading the timeline from an index

`MetaViewModel.refresh` reads the events of the two contracts with
`allEvents` and builds the timeline. The walk over a contract ends on a
short page or after 25 pages, and the timeline does not say which: only a
floor the server declares makes it truncated.
-/

namespace RaizStack

open EventsClient

/-! ## The load -/

inductive LoadFailure where
  | events (e : EventsException)
  | decode (t : Thrown)

/-- What `refresh` asks `build` for, beside the two labels it sets. -/
def goalRequest (src : EventSource) (latestLedger : Int) (oldestLedger : Option Int) :
    GoalTimeline.Request :=
  { source := src
    latestLedger := latestLedger
    oldestLedger := oldestLedger
    goalId := MetaConfig.goalId }

section Load

variable (lib : OrgJson) (lossy : List UInt8 → String)

/-- All events of a contract since the deployment, as `refresh` asks for
them. -/
def contractEvents (http : Http) (contractId : String) (src : EventSource) :
    Except LoadFailure EventsClient.EventsPage :=
  (allEvents lib http contractId (some CtConfig.deployedAtLedger) defaultPageSize defaultMaxPages
    src).mapError .events

/-- The body of the job `refresh` launches. -/
def loadTimeline (http : Http) (src : EventSource) : Except LoadFailure GoalTimeline := do
  let ct ← contractEvents lib http CtConfig.token src
  let goalMeta ← contractEvents lib http MetaConfig.goalMeta src
  (GoalTimeline.build lossy ct.events goalMeta.events
    (goalRequest src (max ct.latestLedger goalMeta.latestLedger)
      (ct.oldestLedger.or goalMeta.oldestLedger))).mapError .decode

end Load

/-! ## What the timeline holds -/

section Timeline

variable {lib : OrgJson} {lossy : List UInt8 → String}
  {url : EventSource → EventsQuery → String} {parse : String → Option Json} {sim : Option Int}
  {db : Db} {src : EventSource}

/-- The row `e` of a stored event belongs in the goal's timeline: since
the deployment, a contribution to the goal or a merge by it of the
wrapper, a creation or harvest of the goal of `goal_meta`. -/
def Belongs (lib : OrgJson) (lossy : List UInt8 → String) (parse : String → Option Json)
    (src : EventSource) (r : EventRow) (e : TimelineEntry) : Prop :=
  CtConfig.deployedAtLedger ≤ r.ledger ∧
    TimelineMapper.map lossy CtConfig.goalAccount (r.record lib parse) = .ok (some e) ∧
    ((r.contractId = CtConfig.token ∧ GoalTimeline.keepsCt (goalRequest src 0 none) e = true) ∨
      (r.contractId = MetaConfig.goalMeta ∧
        GoalTimeline.keepsMeta (goalRequest src 0 none) e = true))

theorem keepsMeta_of_keepsCt {e : TimelineEntry}
    (h : GoalTimeline.keepsCt (goalRequest src 0 none) e = true) :
    GoalTimeline.keepsMeta (goalRequest src 0 none) e = false := by
  cases e with
  | goalCreated info goalId goalAccount => cases h
  | harvest info goalId memo => cases h
  | _ => rfl

theorem entryOf_info {goalAccount : String} {rec : EventRecord} {topics : List ScVal}
    {head : String} {value : Option ScVal} {e : TimelineEntry}
    (h : TimelineMapper.entryOf goalAccount rec topics head value = some e) :
    e.info = TimelineMapper.infoOf rec := by
  unfold TimelineMapper.entryOf at h
  split at h
  · obtain ⟨sender, -, h⟩ := Option.bind_eq_some_iff.mp h
    obtain ⟨recipient, -, h⟩ := Option.bind_eq_some_iff.mp h
    cases h
    rfl
  · obtain ⟨account, -, h⟩ := Option.bind_eq_some_iff.mp h
    cases h
    rfl
  · obtain ⟨account, -, h⟩ := Option.bind_eq_some_iff.mp h
    cases h
    rfl
  · obtain ⟨sender, -, h⟩ := Option.bind_eq_some_iff.mp h
    obtain ⟨recipient, -, h⟩ := Option.bind_eq_some_iff.mp h
    cases h
    rfl
  · split at h
    · obtain ⟨goalId, -, h⟩ := Option.bind_eq_some_iff.mp h
      cases h
      rfl
    · obtain ⟨goalId, -, h⟩ := Option.bind_eq_some_iff.mp h
      cases h
      rfl
    · cases h
  · split at h
    · obtain ⟨setting, -, h⟩ := Option.map_eq_some_iff.mp h
      cases h
      rfl
    · cases h

/-- A row carries the id of its event. -/
theorem map_info {goalAccount : String} {rec : EventRecord} {e : TimelineEntry}
    (h : TimelineMapper.map lossy goalAccount rec = .ok (some e)) : e.info.id = rec.id := by
  obtain ⟨topics, -, h⟩ := Fallible.bind_eq_ok.mp h
  split at h
  · cases h
  · obtain ⟨value, -, h⟩ := Fallible.bind_eq_ok.mp h
    rw [entryOf_info (Except.ok.inj h)]
    rfl

theorem mem_mapAll {goalAccount : String} {events : List EventRecord} {rows : List TimelineEntry}
    {e : TimelineEntry} (h : TimelineMapper.mapAll lossy goalAccount events = .ok rows) :
    e ∈ rows ↔ ∃ rec ∈ events, TimelineMapper.map lossy goalAccount rec = .ok (some e) := by
  obtain ⟨entries, hentries, h⟩ := Fallible.bind_eq_ok.mp h
  cases h
  rw [Keyset.mem_orderBy, List.reduceOption_mem_iff, Fallible.mem_of_mapM hentries]

/-- A timeline that shows no floor was loaded whole pages at a time from
the rows the pages can hold. -/
theorem loadTimeline_rows {t : GoalTimeline}
    (hload : loadTimeline lib lossy (indexer url parse sim db) src = .ok t)
    (hfull : t.truncated = false) :
    ∃ ct goalMeta, TimelineMapper.mapAll lossy CtConfig.goalAccount
        ((db.loadedRows CtConfig.token CtConfig.deployedAtLedger defaultPageSize
          defaultMaxPages).map (EventRow.record lib parse)) = .ok ct ∧
      TimelineMapper.mapAll lossy CtConfig.goalAccount
        ((db.loadedRows MetaConfig.goalMeta CtConfig.deployedAtLedger defaultPageSize
          defaultMaxPages).map (EventRow.record lib parse)) = .ok goalMeta ∧
      (∀ e, e ∈ t.entries ↔
        (e ∈ ct ∧ GoalTimeline.keepsCt (goalRequest src 0 none) e = true) ∨
        (e ∈ goalMeta ∧ GoalTimeline.keepsMeta (goalRequest src 0 none) e = true)) ∧
      (IsI64 db.latestLedger → t.latestLedger = db.latestLedger) := by
  obtain ⟨ctPage, hct, hload⟩ := Fallible.bind_eq_ok.mp hload
  obtain ⟨metaPage, hmeta, hload⟩ := Fallible.bind_eq_ok.mp hload
  rw [Fallible.mapError_eq_ok] at hload
  rw [contractEvents, Fallible.mapError_eq_ok] at hct hmeta
  obtain ⟨ct, hctRows, hload⟩ := Fallible.bind_eq_ok.mp hload
  obtain ⟨goalMeta, hmetaRows, hload⟩ := Fallible.bind_eq_ok.mp hload
  cases hload
  have hsim : simFloor db sim src.sourceParam = none := by
    have hnone : (ctPage.oldestLedger.or metaPage.oldestLedger).isSome = false := hfull
    rw [Option.isSome_or, Bool.or_eq_false_iff, allEvents_oldestLedger hct] at hnone
    exact Option.isSome_eq_false_iff.mp hnone.1 |> Option.isNone_iff_eq_none.mp
  obtain ⟨ctPage', hct', hctEvents, hctFrom⟩ := allEvents_indexer lib url parse CtConfig.token
    defaultPageSize (by decide) (by decide) CtConfig.deployedAtLedger 24 hsim
  obtain ⟨metaPage', hmeta', hmetaEvents, hmetaFrom⟩ := allEvents_indexer lib url parse
    MetaConfig.goalMeta defaultPageSize (by decide) (by decide)
    CtConfig.deployedAtLedger 24 hsim
  cases hct.symm.trans hct'
  cases hmeta.symm.trans hmeta'
  rw [hctEvents] at hctRows
  rw [hmetaEvents] at hmetaRows
  refine ⟨ct, goalMeta, hctRows, hmetaRows, ?_, ?_⟩
  · intro e
    simp only [GoalTimeline.assemble, Keyset.mem_orderBy, List.mem_append, List.mem_filter]
    rfl
  · intro hi64
    have hlatest : max ctPage.latestLedger metaPage.latestLedger = db.latestLedger := by
      rw [hctFrom.latestLedger hi64, hmetaFrom.latestLedger hi64, max_self]
    exact hlatest

/-- A server that forgets nothing and events that are legible load to a
timeline without a floor. -/
theorem loadTimeline_of_legible (hsim : simFloor db sim src.sourceParam = none)
    (hlegible : ∀ r ∈ db.events.rows,
      (∀ t ∈ (r.record lib parse).topics, Legible lossy t) ∧
        (r.record lib parse).LegibleValue lossy) :
    ∃ t, loadTimeline lib lossy (indexer url parse sim db) src = .ok t ∧ t.truncated = false := by
  obtain ⟨ct, hct, hctEvents, hctFrom⟩ := allEvents_indexer lib url parse CtConfig.token
    defaultPageSize (by decide) (by decide) CtConfig.deployedAtLedger 24 hsim
  obtain ⟨goalMeta, hmeta, hmetaEvents, hmetaFrom⟩ := allEvents_indexer lib url parse
    MetaConfig.goalMeta defaultPageSize (by decide) (by decide) CtConfig.deployedAtLedger 24 hsim
  have hrecords : ∀ e ∈ ct.events ++ goalMeta.events,
      (∀ t ∈ e.topics, Legible lossy t) ∧ e.LegibleValue lossy := by
    intro e he
    rw [hctEvents, hmetaEvents, ← List.map_append] at he
    obtain ⟨r, hr, rfl⟩ := List.mem_map.mp he
    rcases List.mem_append.mp hr with hr | hr
    · exact hlegible r (Db.mem_rows_of_loaded hr)
    · exact hlegible r (Db.mem_rows_of_loaded hr)
  obtain ⟨t, ht⟩ : ∃ t, GoalTimeline.build lossy ct.events goalMeta.events
      (goalRequest src (max ct.latestLedger goalMeta.latestLedger)
        (ct.oldestLedger.or goalMeta.oldestLedger)) = .ok t :=
    GoalTimeline.build_of_legible (fun e he => (hrecords e he).1) fun e he => (hrecords e he).2
  refine ⟨t, ?_, ?_⟩
  · rw [loadTimeline, contractEvents, contractEvents]
    rw [show allEvents lib (indexer url parse sim db) CtConfig.token
        (some CtConfig.deployedAtLedger) defaultPageSize defaultMaxPages src = .ok ct from hct,
      show allEvents lib (indexer url parse sim db) MetaConfig.goalMeta
        (some CtConfig.deployedAtLedger) defaultPageSize defaultMaxPages src = .ok goalMeta
        from hmeta]
    simp only [Except.mapError, Fallible.ok_bind, ht]
  · obtain ⟨rows, metaRows, -, -, rfl⟩ := GoalTimeline.build_eq_ok ht
    have hnone : (ct.oldestLedger.or goalMeta.oldestLedger).isSome = false := by
      rw [Option.isSome_or, hctFrom.oldestLedger, hmetaFrom.oldestLedger, hsim]
      rfl
    exact hnone

/-- A stored row whose entry came out of the loaded rows is one of them:
ids are unique. -/
theorem loaded_of_entry {cid : String} {start : Int} {size pages : Nat}
    {rows : List TimelineEntry} {r : EventRow} {e : TimelineEntry}
    (hrows : TimelineMapper.mapAll lossy CtConfig.goalAccount
      ((db.loadedRows cid start size pages).map (EventRow.record lib parse)) = .ok rows)
    (he : e ∈ rows) (hr : r ∈ db.events.rows)
    (hmap : TimelineMapper.map lossy CtConfig.goalAccount (r.record lib parse) = .ok (some e)) :
    r ∈ db.loadedRows cid start size pages := by
  obtain ⟨rec, hrec, hmap'⟩ := (mem_mapAll hrows).mp he
  obtain ⟨r', hr', rfl⟩ := List.mem_map.mp hrec
  have hid : r'.id = r.id := (map_info hmap').symm.trans (map_info hmap)
  rwa [db.events.eq_of_key_eq (Db.mem_rows_of_loaded hr') hr hid] at hr'

theorem le_latestLedger {r : EventRow} (hr : r ∈ db.events.rows) : r.ledger ≤ db.latestLedger := by
  have hmem : r.ledger ∈ db.events.rows.map EventRow.ledger := List.mem_map_of_mem hr
  cases hmax : (db.events.rows.map EventRow.ledger).max? with
  | none =>
      rw [List.max?_eq_none_iff] at hmax
      rw [hmax] at hmem
      cases hmem
  | some m =>
      rw [Db.latestLedger, hmax]
      exact (List.max?_eq_some_iff.mp hmax).2 _ hmem

theorem latestLedger_i64 (h : ∀ r ∈ db.events.rows, IsI64 r.ledger) : IsI64 db.latestLedger := by
  cases hmax : (db.events.rows.map EventRow.ledger).max? with
  | none =>
      rw [Db.latestLedger, hmax]
      exact ⟨by decide, by decide⟩
  | some m =>
      rw [Db.latestLedger, hmax]
      obtain ⟨r, hr, rfl⟩ := List.mem_map.mp (List.max?_eq_some_iff.mp hmax).1
      exact h r hr

/-- Every stored event whose row belongs in the timeline is in it, up to
the ledger the timeline reports. -/
def ShowsAll (lib : OrgJson) (lossy : List UInt8 → String) (parse : String → Option Json) (db : Db)
    (src : EventSource) (t : GoalTimeline) : Prop :=
  ∀ r ∈ db.events.rows, ∀ e, Belongs lib lossy parse src r e → r.ledger ≤ t.latestLedger →
    e ∈ t.entries

/-- Fewer rows than 25 pages of 200 hold come before any event whose row
belongs in the timeline. -/
def FitsPages (lib : OrgJson) (lossy : List UInt8 → String) (parse : String → Option Json) (db : Db)
    (src : EventSource) : Prop :=
  ∀ r ∈ db.events.rows, ∀ e, Belongs lib lossy parse src r e →
    db.ahead CtConfig.deployedAtLedger defaultPageSize r < defaultPageSize * defaultMaxPages

/-- What the load holds of a contract, by counting. -/
theorem mem_loaded_iff {r : EventRow} (hr : r ∈ db.events.rows)
    (hledger : CtConfig.deployedAtLedger ≤ r.ledger) :
    r ∈ db.loadedRows r.contractId CtConfig.deployedAtLedger defaultPageSize defaultMaxPages
      ↔ db.ahead CtConfig.deployedAtLedger defaultPageSize r < defaultPageSize * defaultMaxPages :=
  Db.mem_loadedRows_iff (by decide) (by decide) hr hledger

theorem fitsPages_of_showsAll {t : GoalTimeline} (hi64 : ∀ r ∈ db.events.rows, IsI64 r.ledger)
    (hload : loadTimeline lib lossy (indexer url parse sim db) src = .ok t)
    (hfull : t.truncated = false) (hall : ShowsAll lib lossy parse db src t) :
    FitsPages lib lossy parse db src := by
  obtain ⟨ct, goalMeta, hct, hmeta, hentries, hlatest⟩ := loadTimeline_rows hload hfull
  intro r hr e hbelongs
  have hshown : r.ledger ≤ t.latestLedger := by
    rw [hlatest (latestLedger_i64 hi64)]
    exact le_latestLedger hr
  have hmem := (hentries e).mp (hall r hr e hbelongs hshown)
  obtain ⟨hledger, hmap, hkind⟩ := hbelongs
  rw [← mem_loaded_iff hr hledger]
  rcases hkind with ⟨hcid, hkept⟩ | ⟨hcid, hkept⟩
  · rcases hmem with ⟨hin, -⟩ | ⟨-, hkept'⟩
    · rw [hcid]
      exact loaded_of_entry hct hin hr hmap
    · rw [keepsMeta_of_keepsCt hkept] at hkept'
      cases hkept'
  · rcases hmem with ⟨-, hkept'⟩ | ⟨hin, -⟩
    · rw [keepsMeta_of_keepsCt hkept'] at hkept
      cases hkept
    · rw [hcid]
      exact loaded_of_entry hmeta hin hr hmap

theorem showsAll_of_fitsPages {t : GoalTimeline}
    (hload : loadTimeline lib lossy (indexer url parse sim db) src = .ok t)
    (hfull : t.truncated = false) (hfits : FitsPages lib lossy parse db src) :
    ShowsAll lib lossy parse db src t := by
  obtain ⟨ct, goalMeta, hct, hmeta, hentries, -⟩ := loadTimeline_rows hload hfull
  intro r hr e hbelongs _
  have hloaded := (mem_loaded_iff hr hbelongs.1).mpr (hfits r hr e hbelongs)
  obtain ⟨-, hmap, hkind⟩ := hbelongs
  refine (hentries e).mpr ?_
  rcases hkind with ⟨hcid, hkept⟩ | ⟨hcid, hkept⟩
  · rw [hcid] at hloaded
    exact .inl ⟨(mem_mapAll hct).mpr ⟨_, List.mem_map_of_mem hloaded, hmap⟩, hkept⟩
  · rw [hcid] at hloaded
    exact .inr ⟨(mem_mapAll hmeta).mpr ⟨_, List.mem_map_of_mem hloaded, hmap⟩, hkept⟩

/-- **A timeline that admits no missing history has none, exactly when
what belongs in it fits the pages.** Over any store, with any answer of
the server to whether it simulates a floor. Where ids agree with ledgers
the rows that count are those since the deployment: `ahead_of_tokenOrdered`. -/
theorem showsAll_iff (lib : OrgJson) (lossy : List UInt8 → String)
    (url : EventSource → EventsQuery → String) (parse : String → Option Json) (sim : Option Int)
    (db : Db) (src : EventSource) (t : GoalTimeline)
    (hi64 : ∀ r ∈ db.events.rows, IsI64 r.ledger)
    (hload : loadTimeline lib lossy (indexer url parse sim db) src = .ok t)
    (hfull : t.truncated = false) :
    ShowsAll lib lossy parse db src t ↔ FitsPages lib lossy parse db src :=
  ⟨fitsPages_of_showsAll hi64 hload hfull, showsAll_of_fitsPages hload hfull⟩

/-- A store of no more rows than 25 pages hold always fits. -/
theorem fitsPages_of_length (h : db.events.rows.length ≤ defaultPageSize * defaultMaxPages) :
    FitsPages lib lossy parse db src := by
  intro r hr e _
  refine lt_of_lt_of_le (List.length_filter_lt_length_iff_exists.mpr ⟨r, hr, ?_⟩) h
  simp

end Timeline

/-! ## A store of harvests -/

def harvestTopics : List XdrVal :=
  [.symbol "goal", .symbol "harvest", .u32 1]

/-- The `i`-th harvest of goal 1, one in each ledger since the deployment. -/
def harvestEvent (i : Nat) : RawEvent :=
  { id := String.ofList (Decimal.fixedDigits 19 ((3950128 + i) * 2 ^ 32) ++ "-0000000001".toList)
    contractId := MetaConfig.goalMeta
    ledger := 3950128 + i
    txHash := some "58363138"
    topic := harvestTopics.map XdrVal.text
    value := .str (XdrVal.string "cosecha").text
    ledgerClosedAt := some "2026-08-03T19:29:15Z"
    inSuccessfulContractCall := true }

theorem harvestEvent_id_inj {i j : Nat} (hi : i < 10 ^ 6) (hj : j < 10 ^ 6)
    (h : (harvestEvent i).id = (harvestEvent j).id) : i = j := by
  have hdigits := List.append_cancel_right (String.ofList_injective h)
  have hvalue := congrArg Text.digitsValue hdigits
  rw [Decimal.digitsValue_fixedDigits (by omega), Decimal.digitsValue_fixedDigits (by omega)]
    at hvalue
  omega

/-- The store ingestion has of the first `n` harvests. -/
def harvestsDb (n : Nat) (hn : n ≤ 10 ^ 6) : Db :=
  { Db.empty with
    events :=
      { rows := (List.range n).map fun i => rowOf (harvestEvent i)
        keysNodup := by
          rw [List.map_map]
          refine List.Nodup.map_on (fun i hi j hj h => ?_) List.nodup_range
          exact harvestEvent_id_inj (lt_of_lt_of_le (List.mem_range.mp hi) hn)
            (lt_of_lt_of_le (List.mem_range.mp hj) hn) h } }

section Harvests

variable (lossy : List UInt8 → String) {n i : Nat}

/-- `serde_json::from_str` of the topics of a harvest. -/
def parseHarvest : String → Option Json :=
  parseTopics (harvestTopics.map XdrVal.text)

theorem harvestTopics_short : ∀ v ∈ harvestTopics, v.encode.length < 2 ^ 31 := by
  decide

theorem harvest_storable (hn : n ≤ 10 ^ 6) (hi : i < n) :
    (rowOf (harvestEvent i)).Storable (harvestTopics.map XdrVal.text) := by
  have hhash : some "58363138" ≠ some "" := by decide
  have hclosed : some "2026-08-03T19:29:15Z" ≠ some "" := by decide
  refine rowOf_storable ?_ ?_ hhash ?_ ?_ hclosed
  · intro hempty
    have hlen := congrArg (fun s => s.toList.length) hempty
    simp [harvestEvent] at hlen
  · have hledger : (harvestEvent i).ledger = 3950128 + (i : Int) := rfl
    unfold IsI64
    omega
  · intro t ht
    obtain ⟨v, hv, rfl⟩ := List.mem_map.mp ht
    exact text_ne_empty (harvestTopics_short v hv)
  · exact text_ne_empty (v := .string "cosecha") (by decide)

/-- The record of a harvest. -/
theorem harvest_record (hn : n ≤ 10 ^ 6) (hi : i < n) :
    ((rowOf (harvestEvent i)).record plainJson parseHarvest).topics
        = harvestTopics.map XdrVal.text ∧
      ((rowOf (harvestEvent i)).record plainJson parseHarvest).valueXdr
        = some (XdrVal.string "cosecha").text ∧
      ((rowOf (harvestEvent i)).record plainJson parseHarvest).contractId = MetaConfig.goalMeta := by
  have hparse : parseTopics (harvestTopics.map XdrVal.text) (rowOf (harvestEvent i)).topicsJson
      = some (.arr ((harvestTopics.map XdrVal.text).map Json.str)) := if_pos rfl
  rw [EventRow.record, parseHarvest,
    record_of_storable plainJson (harvest_storable hn hi) hparse]
  exact ⟨rfl, rfl, rfl⟩

theorem harvest_legible (hn : n ≤ 10 ^ 6) :
    ∀ r ∈ (harvestsDb n hn).events.rows,
      (∀ t ∈ (r.record plainJson parseHarvest).topics, Legible lossy t) ∧
        (r.record plainJson parseHarvest).LegibleValue lossy := by
  intro r hr
  obtain ⟨i, hi, rfl⟩ := List.mem_map.mp hr
  obtain ⟨htopics, hvalue, -⟩ := harvest_record hn (List.mem_range.mp hi)
  constructor
  · intro t ht
    rw [htopics] at ht
    obtain ⟨v, hv, rfl⟩ := List.mem_map.mp ht
    exact .of_text v (harvestTopics_short v hv)
  · intro xdr hxdr
    rw [hvalue] at hxdr
    obtain rfl := Option.some.inj hxdr
    exact .of_text (.string "cosecha") (by decide)

/-- Every harvest belongs in the timeline. -/
theorem harvest_belongs (src : EventSource) (hn : n ≤ 10 ^ 6) (hi : i < n) :
    ∃ e, Belongs plainJson lossy parseHarvest src (rowOf (harvestEvent i)) e := by
  obtain ⟨htopics, -, -⟩ := harvest_record hn hi
  have hrow : rowOf (harvestEvent i) ∈ (harvestsDb n hn).events.rows :=
    List.mem_map_of_mem (List.mem_range.mpr hi)
  obtain ⟨value, hvalue⟩ := (harvest_legible lossy hn _ hrow).2.valueOf
  refine ⟨.harvest (TimelineMapper.infoOf ((rowOf (harvestEvent i)).record plainJson parseHarvest))
    1 ((value.bind ScVal.asString).getD ""), ?_, ?_, .inr ⟨rfl, rfl⟩⟩
  · have hledger : (rowOf (harvestEvent i)).ledger = 3950128 + (i : Int) := rfl
    unfold CtConfig.deployedAtLedger
    omega
  · rw [TimelineMapper.map, htopics, decodeTopics_texts lossy harvestTopics_short, hvalue]
    rfl

theorem harvest_ledgers (hn : n ≤ 10 ^ 6) : ∀ r ∈ (harvestsDb n hn).events.rows, IsI64 r.ledger := by
  intro r hr
  obtain ⟨i, hi, rfl⟩ := List.mem_map.mp hr
  exact (harvest_storable hn (List.mem_range.mp hi)).ledger

/-- More harvests than 25 pages hold do not fit. -/
theorem harvests_do_not_fit (src : EventSource) (hn : n ≤ 10 ^ 6)
    (hmany : defaultPageSize * defaultMaxPages < n) :
    ¬ FitsPages plainJson lossy parseHarvest (harvestsDb n hn) src := by
  intro hfits
  have hloaded : (harvestsDb n hn).events.rows ⊆ (harvestsDb n hn).loadedRows MetaConfig.goalMeta
      CtConfig.deployedAtLedger defaultPageSize defaultMaxPages := by
    intro r hr
    obtain ⟨i, hi, rfl⟩ := List.mem_map.mp hr
    obtain ⟨e, he⟩ := harvest_belongs lossy src hn (List.mem_range.mp hi)
    exact (mem_loaded_iff hr he.1).mpr (hfits _ hr e he)
  have hnodup : (harvestsDb n hn).events.rows.Nodup :=
    .of_map EventRow.id (harvestsDb n hn).events.keysNodup
  have hle := (List.subperm_of_subset hnodup hloaded).length_le
  have hbound := (harvestsDb n hn).length_loadedRows_le MetaConfig.goalMeta
    CtConfig.deployedAtLedger defaultPageSize 24
  have hlen : (harvestsDb n hn).events.rows.length = n := by simp [harvestsDb]
  have hpages : defaultMaxPages = 24 + 1 := rfl
  rw [hpages] at hle hmany
  omega

theorem harvests_load (url : EventSource → EventsQuery → String) (src : EventSource)
    (hn : n ≤ 10 ^ 6) :
    ∃ t, loadTimeline plainJson lossy (indexer url parseHarvest none (harvestsDb n hn)) src
        = .ok t ∧ t.truncated = false :=
  loadTimeline_of_legible rfl (harvest_legible lossy hn)

end Harvests

/-- Three harvests are all shown. -/
theorem showsAll_iff_three :
    ∃ t, loadTimeline plainJson (fun _ => "\uFFFD")
        (indexer (fun _ _ => "http://localhost:8090/events") parseHarvest none
          (harvestsDb 3 (by decide))) (.raizMemory "") = .ok t ∧
      ShowsAll plainJson (fun _ => "\uFFFD") parseHarvest (harvestsDb 3 (by decide))
        (.raizMemory "") t := by
  obtain ⟨t, hload, hfull⟩ := harvests_load (n := 3) (fun _ => "\uFFFD")
    (fun _ _ => "http://localhost:8090/events") (.raizMemory "") (by decide)
  refine ⟨t, hload, ?_⟩
  exact (showsAll_iff _ _ _ _ _ _ _ t (harvest_ledgers _) hload hfull).mpr
    (fitsPages_of_length (by decide))

/-- Of 5001 harvests the timeline leaves one out, and says it has them
all. -/
theorem harvests_left_out :
    ∃ t, loadTimeline plainJson (fun _ => "\uFFFD")
        (indexer (fun _ _ => "http://localhost:8090/events") parseHarvest none
          (harvestsDb 5001 (by decide))) (.raizMemory "") = .ok t ∧
      t.truncated = false ∧
      ¬ ShowsAll plainJson (fun _ => "\uFFFD") parseHarvest (harvestsDb 5001 (by decide))
        (.raizMemory "") t := by
  obtain ⟨t, hload, hfull⟩ := harvests_load (n := 5001) (fun _ => "\uFFFD")
    (fun _ _ => "http://localhost:8090/events") (.raizMemory "") (by decide)
  refine ⟨t, hload, hfull, fun hall => ?_⟩
  exact harvests_do_not_fit _ _ (by decide) (by decide)
    (fitsPages_of_showsAll (harvest_ledgers _) hload hfull hall)

end RaizStack
