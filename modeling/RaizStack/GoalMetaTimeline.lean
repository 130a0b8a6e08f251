import RaizStack.GoalMetaEvents
import RaizStack.TimelineExact

/-!
# From the contract to the timeline

What the wallet's timeline shows of a goal when it is given all the
contract's events: the creation, and every harvest once with its memo,
newest first. The events travel as XDR, so the proof goes through the
encoding of `XdrVal` and the decoder of the mapper; the shape of the log
(`readLog_split`) says that there is one creation and what follows it.
-/

namespace RaizStack

open EventsClient

/-! ## One goal in the log -/

section Log

variable {Addr : Type} {events : List (GoalEvent Addr)} {accounts : List Addr} {e : GoalEvent Addr}

/-- What a reader takes is one of the two kinds. -/
theorem readEvent_eq_some {accounts' : List Addr} (h : readEvent accounts e = some accounts') :
    (∃ a, e = createdEvent accounts.length a ∧ accounts' = accounts ++ [a])
      ∨ ∃ id memo, e = harvestEventOf id memo ∧ id < accounts.length ∧ accounts' = accounts := by
  obtain ⟨kind, id, data⟩ := e
  cases data with
  | account a =>
      obtain ⟨⟨rfl, rfl⟩, hread⟩ := Option.ite_none_right_eq_some.mp h
      exact .inl ⟨a, rfl, (Option.some.inj hread).symm⟩
  | memo m =>
      obtain ⟨⟨rfl, hid⟩, hread⟩ := Option.ite_none_right_eq_some.mp h
      exact .inr ⟨id, m, rfl, hid, (Option.some.inj hread).symm⟩

theorem readLog_concat_eq_some {accounts' : List Addr}
    (h : readLog (events ++ [e]) = some accounts') :
    ∃ accounts, readLog events = some accounts ∧ readEvent accounts e = some accounts' := by
  cases hread : readLog events with
  | none =>
      rw [readLog, List.foldlM_append, ← readLog, hread] at h
      cases h
  | some accounts =>
      rw [readLog_concat hread] at h
      exact ⟨accounts, rfl, h⟩

/-- No event names a goal that is not there. -/
theorem readLog_below (h : readLog events = some accounts) : ∀ e ∈ events, e.id < accounts.length := by
  induction events using List.reverseRecOn generalizing accounts with
  | nil => nofun
  | append_singleton events e ih =>
      obtain ⟨before, hbefore, hread⟩ := readLog_concat_eq_some h
      have hold := ih hbefore
      rcases readEvent_eq_some hread with ⟨a, rfl, rfl⟩ | ⟨id, memo, rfl, hid, rfl⟩
      · intro e he
        rw [List.length_append, List.length_singleton]
        rcases List.mem_append.mp he with he | he
        · exact Nat.lt_succ_of_lt (hold e he)
        · obtain rfl := List.mem_singleton.mp he
          exact Nat.lt_succ_self _
      · intro e he
        rcases List.mem_append.mp he with he | he
        · exact hold e he
        · obtain rfl := List.mem_singleton.mp he
          exact hid

theorem readLog_forms (h : readLog events = some accounts) :
    ∀ e ∈ events, (∃ id a, e = createdEvent id a) ∨ ∃ id memo, e = harvestEventOf id memo := by
  induction events using List.reverseRecOn generalizing accounts with
  | nil => nofun
  | append_singleton events e ih =>
      obtain ⟨before, hbefore, hread⟩ := readLog_concat_eq_some h
      intro e' he'
      rcases List.mem_append.mp he' with he' | he'
      · exact ih hbefore e' he'
      · obtain rfl := List.mem_singleton.mp he'
        rcases readEvent_eq_some hread with ⟨a, rfl, -⟩ | ⟨id, memo, rfl, -, -⟩
        · exact .inl ⟨_, a, rfl⟩
        · exact .inr ⟨id, memo, rfl⟩

/-- One creation, and after it nothing but harvests. -/
theorem readLog_split {g : Nat} {a : Addr} (h : readLog events = some accounts)
    (hg : accounts[g]? = some a) :
    ∃ pre post, events = pre ++ createdEvent g a :: post ∧ (∀ e ∈ pre, e.id ≠ g)
      ∧ ∀ e ∈ post, e.id = g → ∃ memo, e = harvestEventOf g memo := by
  induction events using List.reverseRecOn generalizing accounts with
  | nil =>
      cases h
      cases hg
  | append_singleton events e ih =>
      obtain ⟨before, hbefore, hread⟩ := readLog_concat_eq_some h
      rcases readEvent_eq_some hread with ⟨a', rfl, rfl⟩ | ⟨id, memo, rfl, -, rfl⟩
      · rcases Register.getElem?_concat_iff.mp hg with hold | ⟨rfl, rfl⟩
        · obtain ⟨pre, post, rfl, hpre, hpost⟩ := ih hbefore hold
          refine ⟨pre, post ++ [createdEvent before.length a'], by simp, hpre, fun e he hid => ?_⟩
          rcases List.mem_append.mp he with he | he
          · exact hpost e he hid
          · obtain rfl := List.mem_singleton.mp he
            have hlt := (List.getElem?_eq_some_iff.mp hold).1
            exact absurd hid (Nat.ne_of_gt hlt)
        · exact ⟨events, [], rfl, fun e he => Nat.ne_of_lt (readLog_below hbefore e he), nofun⟩
      · obtain ⟨pre, post, rfl, hpre, hpost⟩ := ih hbefore hg
        refine ⟨pre, post ++ [harvestEventOf id memo], by simp, hpre, fun e he hid => ?_⟩
        rcases List.mem_append.mp he with he | he
        · exact hpost e he hid
        · obtain rfl := List.mem_singleton.mp he
          obtain rfl : id = g := hid
          exact ⟨memo, rfl⟩

end Log

/-! ## The events on the wire -/

/-- An address, as the host encodes it. -/
inductive ScAddress where
  | account (key : Vector UInt8 32)
  | contract (id : Vector UInt8 32)
  deriving DecidableEq

def ScAddress.xdr : ScAddress → XdrVal
  | .account key => .account key
  | .contract id => .contract id

def ScAddress.strKey : ScAddress → String
  | .account key => RaizStack.strKey accountVersion key.toList
  | .contract id => RaizStack.strKey contractVersion id.toList

/-- The topics `("goal", kind, id)`. -/
def GoalEvent.topics (e : GoalEvent ScAddress) : List XdrVal :=
  [.symbol "goal", .symbol e.kind, .u32 (BitVec.ofNat 32 e.id)]

def GoalEventData.xdr : GoalEventData ScAddress → XdrVal
  | .account a => a.xdr
  | .memo m => .string m

/-- The record a source serves of a published event. -/
structure RecordOf (e : GoalEvent ScAddress) (r : EventRecord) : Prop where
  topics : r.topics = e.topics.map XdrVal.text
  value : r.valueXdr = some e.data.xdr.text
  short : e.data.xdr.encode.length < 2 ^ 31

/-- The row of an event of the contract. -/
def goalRow (x : GoalEvent ScAddress × EventRecord) : TimelineEntry :=
  match x.1.data with
  | .account a => .goalCreated (TimelineMapper.infoOf x.2) x.1.id (some a.strKey)
  | .memo m => .harvest (TimelineMapper.infoOf x.2) x.1.id m

variable {lossy : List UInt8 → String}

theorem RecordOf.valueOf {e : GoalEvent ScAddress} {r : EventRecord} (h : RecordOf e r) :
    TimelineMapper.valueOf lossy r = .ok (some e.data.xdr.value) := by
  unfold TimelineMapper.valueOf ScVal.decodeOrNull
  simp only [h.value, decode_text lossy _ h.short]

theorem topics_short {kind : String} {id : Nat} (hkind : kind = "created" ∨ kind = "harvest") :
    ∀ v ∈ [XdrVal.symbol "goal", .symbol kind, .u32 (BitVec.ofNat 32 id)],
      v.encode.length < 2 ^ 31 := by
  have hgoal : (XdrVal.symbol "goal").encode.length < 2 ^ 31 := by decide
  have hid : (XdrVal.u32 (BitVec.ofNat 32 id)).encode.length < 2 ^ 31 := by
    rw [XdrVal.encode, XdrVal.length_word32_append, XdrVal.word32, BigEndian.length_toBE]
    decide
  have hname : (XdrVal.symbol kind).encode.length < 2 ^ 31 := by
    rcases hkind with rfl | rfl <;> decide
  intro v hv
  simp only [List.mem_cons, List.not_mem_nil, or_false] at hv
  rcases hv with rfl | rfl | rfl
  · exact hgoal
  · exact hname
  · exact hid

/-- The mapper makes the row of either event. -/
theorem map_goalEvent {e : GoalEvent ScAddress} {r : EventRecord} (goalAccount : String)
    (h : RecordOf e r) (hid : e.id < 2 ^ 32)
    (hform : (∃ id a, e = createdEvent id a) ∨ ∃ id memo, e = harvestEventOf id memo) :
    TimelineMapper.map lossy goalAccount r = .ok (some (goalRow (e, r))) := by
  have hword : (BitVec.ofNat 32 e.id).toNat = e.id := by
    rw [BitVec.toNat_ofNat, Nat.mod_eq_of_lt hid]
  have hkind : e.kind = "created" ∨ e.kind = "harvest" := by
    rcases hform with ⟨id, a, rfl⟩ | ⟨id, memo, rfl⟩
    · exact .inl rfl
    · exact .inr rfl
  have htopics : ScVal.decodeTopics lossy r.topics
      = .ok [.sym "goal", .sym e.kind, .u32 e.id] := by
    rw [h.topics, GoalEvent.topics, decodeTopics_texts lossy (topics_short hkind)]
    simp only [List.map_cons, List.map_nil, XdrVal.value, hword]
  rw [TimelineMapper.map, htopics]
  simp only [Fallible.ok_bind, h.valueOf]
  rcases hform with ⟨id, a, rfl⟩ | ⟨id, memo, rfl⟩
  · cases a <;> rfl
  · rfl

/-! ## The rows of one goal -/

/-- The row of an event that is a harvest of goal `g`. -/
def harvestRow (g : Nat) (x : GoalEvent ScAddress × EventRecord) : Option TimelineEntry :=
  match x.1.data with
  | .memo m => if x.1.id = g then some (.harvest (TimelineMapper.infoOf x.2) g m) else none
  | .account _ => none

def harvestRows (g : Nat) (log : List (GoalEvent ScAddress × EventRecord)) : List TimelineEntry :=
  log.filterMap (harvestRow g)

section Rows

variable {log : List (GoalEvent ScAddress × EventRecord)} {g : Nat}

theorem isGoalRow_goalRow (x : GoalEvent ScAddress × EventRecord) :
    (goalRow x).isGoalRow = true := by
  obtain ⟨⟨kind, id, _ | _⟩, r⟩ := x <;> rfl

theorem info_goalRow (x : GoalEvent ScAddress × EventRecord) :
    (goalRow x).info = TimelineMapper.infoOf x.2 := by
  obtain ⟨⟨kind, id, _ | _⟩, r⟩ := x <;> rfl

theorem keepsMeta_goalRow {req : GoalTimeline.Request} (hreq : req.goalId = g)
    (x : GoalEvent ScAddress × EventRecord) :
    GoalTimeline.keepsMeta req (goalRow x) = decide (x.1.id = g) := by
  obtain ⟨⟨kind, id, _ | _⟩, r⟩ := x <;>
    simp [goalRow, GoalTimeline.keepsMeta, hreq]

theorem harvestRow_harvest (memo : String) (r : EventRecord) :
    harvestRow g (harvestEventOf g memo, r) = some (goalRow (harvestEventOf g memo, r)) :=
  if_pos rfl

theorem harvestRow_of_ne {x : GoalEvent ScAddress × EventRecord} (h : x.1.id ≠ g) :
    harvestRow g x = none := by
  unfold harvestRow
  split
  · exact if_neg h
  · rfl

/-- Where the goal's events are harvests, its rows are these. -/
theorem harvestRows_eq (h : ∀ x ∈ log, x.1.id = g → ∃ memo, x.1 = harvestEventOf g memo) :
    (log.filter fun x => x.1.id = g).map goalRow = harvestRows g log := by
  induction log with
  | nil => rfl
  | cons x log ih =>
      have hrest := ih fun y hy => h y (List.mem_cons_of_mem _ hy)
      unfold harvestRows at hrest ⊢
      by_cases hid : x.1.id = g
      · obtain ⟨memo, hx⟩ := h x List.mem_cons_self hid
        obtain ⟨e, r⟩ := x
        obtain rfl : e = harvestEventOf g memo := hx
        rw [List.filter_cons_of_pos (by simpa using hid), List.map_cons, hrest,
          List.filterMap_cons_some (harvestRow_harvest memo r)]
      · rw [List.filter_cons_of_neg (by simpa using hid), hrest,
          List.filterMap_cons_none (harvestRow_of_ne hid)]

end Rows

/-! ## The timeline of a goal -/

section Timeline

variable {log : List (GoalEvent ScAddress × EventRecord)} {g : Nat} {req : GoalTimeline.Request}

/-- The events of a contract with the records a source serves of them, in
the order of the chain. -/
structure ServedLog (events : List (GoalEvent ScAddress))
    (log : List (GoalEvent ScAddress × EventRecord)) : Prop where
  all : log.map Prod.fst = events
  record : ∀ x ∈ log, RecordOf x.1 x.2
  ordered : log.Pairwise fun x y =>
    (TimelineMapper.infoOf y.2).Newer (TimelineMapper.infoOf x.2)

theorem ServedLog.mapAll {accounts : List ScAddress} {events : List (GoalEvent ScAddress)}
    (h : ServedLog events log) (hread : readLog events = some accounts)
    (hfits : accounts.length ≤ u32Max) (goalAccount : String) :
    TimelineMapper.mapAll lossy goalAccount (log.map Prod.snd)
      = .ok (Keyset.orderBy TimelineEntry.newestFirst (log.map goalRow)) := by
  have hrows : (log.map Prod.snd).mapM (TimelineMapper.map lossy goalAccount)
      = .ok (log.map fun x => some (goalRow x)) := by
    rw [Fallible.mapM_map]
    refine Fallible.mapM_eq_ok fun x hx => ?_
    have he : x.1 ∈ events := h.all ▸ List.mem_map_of_mem hx
    have hid := readLog_below hread x.1 he
    unfold u32Max at hfits
    exact map_goalEvent goalAccount (h.record x hx) (by omega) (readLog_forms hread x.1 he)
  have hsome : (log.map fun x => some (goalRow x)).reduceOption = log.map goalRow := by
    rw [List.reduceOption, List.filterMap_map]
    exact congrFun List.filterMap_eq_map log
  rw [TimelineMapper.mapAll, hrows, Fallible.ok_bind, hsome]

/-- The rows of the goal, whatever the rows of the fund are. -/
theorem ServedLog.goalRows {events : List (GoalEvent ScAddress)}
    (h : ServedLog events log) (hreq : req.goalId = g) (rows : List TimelineEntry) :
    (GoalTimeline.assemble req (rows.filter (GoalTimeline.keepsCt req)
        ++ (Keyset.orderBy TimelineEntry.newestFirst (log.map goalRow)).filter
          (GoalTimeline.keepsMeta req))).entries.filter TimelineEntry.isGoalRow
      = ((log.filter fun x => x.1.id = g).map goalRow).reverse := by
  have hkept : (log.map goalRow).filter (GoalTimeline.keepsMeta req)
      = (log.filter fun x => x.1.id = g).map goalRow := by
    rw [List.filter_map]
    refine congrArg (List.map goalRow) (List.filter_congr fun x _ => ?_)
    exact keepsMeta_goalRow hreq x
  have hall : ((log.filter fun x => x.1.id = g).map goalRow).filter TimelineEntry.isGoalRow
      = (log.filter fun x => x.1.id = g).map goalRow := by
    refine List.filter_eq_self.mpr fun e he => ?_
    obtain ⟨x, -, rfl⟩ := List.mem_map.mp he
    exact isGoalRow_goalRow x
  have hnewest : (((log.filter fun x => x.1.id = g).map goalRow).reverse).Pairwise
      fun a b => a.newestFirst < b.newestFirst := by
    rw [List.pairwise_reverse, List.pairwise_map]
    refine (h.ordered.sublist List.filter_sublist).imp fun {x y} hxy => ?_
    rw [newestFirst_lt, info_goalRow, info_goalRow]
    exact hxy
  rw [GoalTimeline.filter_entries, GoalTimeline.goalRows_of_ct, List.nil_append,
    Keyset.filter_orderBy, Keyset.filter_orderBy, hkept, hall]
  refine Keyset.orderBy_eq_of_perm ?_ hnewest
  exact Keyset.orderBy_perm.trans (List.reverse_perm _).symm

/-- The rows of a goal, oldest first: its creation and its harvests. -/
theorem rows_of_goal {accounts : List ScAddress} {a : ScAddress}
    (hread : readLog (log.map Prod.fst) = some accounts) (hacc : accounts[g]? = some a) :
    ∃ r, (createdEvent g a, r) ∈ log
      ∧ (log.filter fun x => x.1.id = g).map goalRow
        = .goalCreated (TimelineMapper.infoOf r) g (some a.strKey) :: harvestRows g log := by
  obtain ⟨pre, post, hsplit, hpre, hpost⟩ := readLog_split hread hacc
  obtain ⟨lpre, lrest, rfl, rfl, hlrest⟩ := List.map_eq_append_iff.mp hsplit
  obtain ⟨⟨e, r⟩, lpost, rfl, hcreated, rfl⟩ := List.map_eq_cons_iff.mp hlrest
  obtain rfl : e = createdEvent g a := hcreated
  have hbefore : ∀ x ∈ lpre, x.1.id ≠ g := fun x hx => hpre x.1 (List.mem_map_of_mem hx)
  have hfilter : (lpre ++ (createdEvent g a, r) :: lpost).filter (fun x => x.1.id = g)
      = (createdEvent g a, r) :: lpost.filter fun x => x.1.id = g := by
    rw [List.filter_append,
      List.filter_eq_nil_iff.mpr fun x hx => by simpa using hbefore x hx, List.nil_append]
    exact List.filter_cons_of_pos (decide_eq_true rfl)
  have hharvests : harvestRows g (lpre ++ (createdEvent g a, r) :: lpost)
      = harvestRows g lpost := by
    unfold harvestRows
    rw [List.filterMap_append,
      List.filterMap_eq_nil_iff.mpr fun x hx => harvestRow_of_ne (hbefore x hx), List.nil_append]
    exact List.filterMap_cons_none rfl
  refine ⟨r, List.mem_append_right _ List.mem_cons_self, ?_⟩
  rw [hfilter, List.map_cons, hharvests,
    harvestRows_eq fun x hx => hpost x.1 (List.mem_map_of_mem hx)]
  rfl

/-- The creation date is read off the goal's rows. -/
theorem createdAtIso_eq (kept : List TimelineEntry) :
    (GoalTimeline.assemble req kept).createdAtIso
      = (((GoalTimeline.assemble req kept).entries.filter TimelineEntry.isGoalRow).filterMap
          TimelineEntry.createdAt).getLast?.join := by
  have hdate : (fun x : TimelineEntry => if x.isGoalRow then x.createdAt else none)
      = TimelineEntry.createdAt := by
    funext x
    cases x <;> rfl
  rw [List.filterMap_filter, hdate]
  rfl

theorem createdAt_harvestRows (log : List (GoalEvent ScAddress × EventRecord)) :
    (harvestRows g log).filterMap TimelineEntry.createdAt = [] := by
  rw [harvestRows, List.filterMap_filterMap]
  refine List.filterMap_eq_nil_iff.mpr fun x _ => ?_
  unfold harvestRow
  split
  · split <;> rfl
  · rfl

/-- **The timeline tells the goal.** Given every event a contract published
and whatever of the wrapper, the timeline of goal `g` has, of the contract's
rows, each of its harvests once with its memo, newest first, and below them
its creation with the account that is stored; of an id without a goal it has
none. -/
theorem timeline_tells_goal {cfg : Rent.Config} {s : GoalChain ScAddress}
    (h : Lts.Reach Deployed (goalStep cfg) s) (hlog : ServedLog s.contract.events log)
    (hreq : req.goalId = g) {ct : List EventRecord} {rows : List TimelineEntry}
    (hct : TimelineMapper.mapAll lossy req.goalAccount ct = .ok rows) :
    ∃ t, GoalTimeline.build lossy ct (log.map Prod.snd) req = .ok t
      ∧ (∀ goal, s.contract.goal? g = some goal →
          ∃ r, (createdEvent g goal.goalAccount, r) ∈ log
            ∧ t.entries.filter TimelineEntry.isGoalRow = (harvestRows g log).reverse
                ++ [.goalCreated (TimelineMapper.infoOf r) g (some goal.goalAccount.strKey)]
            ∧ t.createdAtIso = r.ledgerClosedAt)
      ∧ (s.contract.goal? g = none →
          t.entries.filter TimelineEntry.isGoalRow = [] ∧ t.createdAtIso = none) := by
  obtain ⟨gs, htells⟩ := logTells_reach h
  have hrep := htells.registry.represents
  have hread := htells.read
  have hfits : (gs.map Goal.goalAccount).length ≤ u32Max := by
    rw [List.length_map, ← hrep.count_eq]
    exact htells.fits
  refine ⟨_, GoalTimeline.build_of_mapAll hct (hlog.mapAll hread hfits req.goalAccount), ?_, ?_⟩
  · intro goal hgoal
    have hacc : (gs.map Goal.goalAccount)[g]? = some goal.goalAccount := by
      rw [List.getElem?_map, ← hrep.get_eq, hgoal]
      rfl
    obtain ⟨r, hr, hone⟩ := rows_of_goal (hlog.all ▸ hread) hacc
    have hrows := hlog.goalRows hreq rows
    rw [hone, List.reverse_cons] at hrows
    refine ⟨r, hr, hrows, ?_⟩
    rw [createdAtIso_eq, hrows, List.filterMap_append, List.filterMap_reverse,
      createdAt_harvestRows]
    rfl
  · intro hnone
    have hids : ∀ x ∈ log, x.1.id ≠ g := by
      intro x hx hid
      have hlt := readLog_below hread x.1 (hlog.all ▸ List.mem_map_of_mem hx)
      rw [hid, List.length_map, ← hrep.count_eq, ← hrep.isSome_iff, hnone] at hlt
      cases hlt
    have hnil : (log.filter fun x => x.1.id = g) = [] :=
      List.filter_eq_nil_iff.mpr fun x hx => by simpa using hids x hx
    have hrows := hlog.goalRows hreq rows
    rw [hnil] at hrows
    refine ⟨hrows, ?_⟩
    rw [createdAtIso_eq, hrows]
    rfl

end Timeline

/-! ## A goal with one harvest -/

def potAddress : ScAddress :=
  .account (.replicate 32 1)

def potAdmin : ScAddress :=
  .contract (.replicate 32 2)

/-- The record of an event published in ledger `ledger`. -/
def goalRecord (ledger : Int) (e : GoalEvent ScAddress) : EventRecord :=
  { id := "0016965675500376064-0000000001"
    contractId := MetaConfig.goalMeta
    ledger := ledger
    txHash := none
    ledgerClosedAt := some "2026-08-03T19:29:15Z"
    topics := e.topics.map XdrVal.text
    valueXdr := some e.data.xdr.text
    inSuccessfulContractCall := true }

def potLog : List (GoalEvent ScAddress × EventRecord) :=
  [(createdEvent 0 potAddress, goalRecord 3950200 (createdEvent 0 potAddress)),
    (harvestEventOf 0 "cosecha", goalRecord 3950300 (harvestEventOf 0 "cosecha"))]

theorem potLog_served : ServedLog (potLog.map Prod.fst) potLog where
  all := rfl
  record := by
    intro x hx
    simp only [potLog, List.mem_cons, List.not_mem_nil, or_false] at hx
    rcases hx with rfl | rfl
    · exact ⟨rfl, rfl, by decide⟩
    · exact ⟨rfl, rfl, by decide⟩
  ordered := by
    refine List.pairwise_pair.mpr (Or.inl ?_)
    decide

theorem timeline_tells_goal_harvested :
    ∃ t, GoalTimeline.build (fun _ => "") [] (potLog.map Prod.snd)
        { source := .raizMemory "", goalId := 0 } = .ok t
      ∧ t.entries.filter TimelineEntry.isGoalRow
        = [.harvest (TimelineMapper.infoOf (goalRecord 3950300 (harvestEventOf 0 "cosecha"))) 0
            "cosecha",
          .goalCreated (TimelineMapper.infoOf (goalRecord 3950200 (createdEvent 0 potAddress))) 0
            (some potAddress.strKey)] := by
  have hstart : Lts.Reach Deployed (goalStep ⟨120960, 3110400⟩)
      ({ ledger := ⟨3950042, 1785789293⟩, contract := .deployed 4468442 } :
        GoalChain ScAddress) :=
    .init ⟨4468442, rfl⟩
  have hreach := hstart
    |>.next (.call (fun a => a = potAdmin)
      (.createGoal potAdmin "Techo" 5000 1790000000 potAddress (List.replicate 64 1))) trivial rfl
    |>.next (.call (fun a => a = potAdmin) (.recordHarvest 0 "cosecha")) trivial rfl
  obtain ⟨t, hbuild, htold, -⟩ := @timeline_tells_goal (fun _ => "") potLog 0
    { source := .raizMemory "", goalId := 0 } _ _ hreach potLog_served rfl [] [] rfl
  obtain ⟨r, hr, hrows, -⟩ := htold _ rfl
  have hrecord : r = goalRecord 3950200 (createdEvent 0 potAddress) := by
    rcases List.mem_cons.mp hr with heq | hr
    · exact congrArg Prod.snd heq
    · have hkind : "created" = "harvest" :=
        congrArg (fun x => x.1.kind) (List.mem_singleton.mp hr)
      exact absurd hkind (by decide)
  rw [hrecord] at hrows
  exact ⟨t, hbuild, hrows⟩

end RaizStack
