import Mathlib.Data.List.ReduceOption
import RaizStack.GoalTimeline
import RaizStack.ScValCodec

/-!
# The timeline shows no amount

Two events that differ in their values are mapped to rows that differ at
most in what was read from the value. No row of that kind is kept of the
wrapper's events, and neither the order nor any field derived from the
rows looks at it, so the timelines are equal. The rows of the two
contracts are kept apart by their constructors.
-/

namespace RaizStack

open EventsClient

/-! ## Events and rows without their values -/

/-- An event without its value. -/
def EventsClient.EventRecord.hideValue (e : EventRecord) : EventRecord :=
  { e with valueXdr := none }

/-- A text the decoder accepts or rejects with a `ScValDecodeException`. -/
def Legible (lossy : List UInt8 → String) (text : String) : Prop :=
  (∃ v, ScVal.decode lossy text = .ok v) ∨
    ∃ rawMessage base64, ScVal.decode lossy text = .error (.scVal rawMessage base64)

/-- An event with a legible value, or none. -/
def EventsClient.EventRecord.LegibleValue (lossy : List UInt8 → String) (e : EventRecord) : Prop :=
  ∀ xdr, e.valueXdr = some xdr → Legible lossy xdr

/-- A row without what was read from the value. -/
def TimelineEntry.hideValue : TimelineEntry → TimelineEntry
  | .registration info account _ => .registration info account none
  | .deposit info sender recipient _ => .deposit info sender recipient none
  | .goalCreated info goalId _ => .goalCreated info goalId none
  | .harvest info goalId _ => .harvest info goalId ""
  | e => e

/-- Goal-creation and harvest rows. -/
def TimelineEntry.isGoalRow (e : TimelineEntry) : Bool :=
  e.kind = .goalCreated ∨ e.kind = .harvest

/-- Contribution and merge rows. -/
def TimelineEntry.isFundRow (e : TimelineEntry) : Bool :=
  e.kind = .contribution ∨ e.kind = .merge

@[simp] theorem TimelineEntry.hideValue_info (e : TimelineEntry) : e.hideValue.info = e.info := by
  cases e <;> rfl

@[simp] theorem TimelineEntry.hideValue_newestFirst (e : TimelineEntry) :
    e.hideValue.newestFirst = e.newestFirst := by
  simp [newestFirst]

/-! ## The decoder -/

section Mapper

variable {lossy : List UInt8 → String} {goalAccount : String}

theorem Legible.of_ok {text : String} {v : ScVal} (h : ScVal.decode lossy text = .ok v) :
    Legible lossy text :=
  .inl ⟨v, h⟩

/-- What is encoded is legible. -/
theorem Legible.of_text (v : XdrVal) (hlen : v.encode.length < 2 ^ 31) : Legible lossy v.text :=
  .of_ok (decode_of_reads lossy (reads_scVal lossy _ v le_rfl hlen))

theorem Legible.decodeOrNull {text : String} (h : Legible lossy text) :
    ∃ o, ScVal.decodeOrNull lossy text = .ok o := by
  unfold ScVal.decodeOrNull
  rcases h with ⟨v, hv⟩ | ⟨rawMessage, base64, hv⟩
  · exact ⟨some v, by rw [hv]⟩
  · exact ⟨none, by rw [hv]⟩

theorem Legible.decodeTopic {text : String} (h : Legible lossy text) :
    ∃ v, ScVal.decodeTopic lossy text = .ok v := by
  unfold ScVal.decodeTopic
  rcases h with ⟨v, hv⟩ | ⟨rawMessage, base64, hv⟩
  · exact ⟨v, by rw [hv]⟩
  · exact ⟨.undecodable text rawMessage, by rw [hv]⟩

theorem EventsClient.EventRecord.LegibleValue.valueOf {e : EventRecord} (h : e.LegibleValue lossy) :
    ∃ value, TimelineMapper.valueOf lossy e = .ok value := by
  unfold TimelineMapper.valueOf
  cases hxdr : e.valueXdr with
  | none => exact ⟨none, rfl⟩
  | some xdr => exact (h xdr hxdr).decodeOrNull

/-! ## The mapper -/

/-- A row depends on the value only in what `hideValue` clears. -/
theorem entryOf_hideValue {e e' : EventRecord} (he : e.hideValue = e'.hideValue)
    (topics : List ScVal) (head : String) (value value' : Option ScVal) :
    (TimelineMapper.entryOf goalAccount e topics head value).map TimelineEntry.hideValue
      = (TimelineMapper.entryOf goalAccount e' topics head value').map
          TimelineEntry.hideValue := by
  have hinfo : TimelineMapper.infoOf e = TimelineMapper.infoOf e' := by
    change TimelineMapper.infoOf e.hideValue = TimelineMapper.infoOf e'.hideValue
    rw [he]
  unfold TimelineMapper.entryOf
  rw [hinfo]
  split
  · rfl
  · rfl
  · cases TimelineMapper.addressAt topics 1 <;> rfl
  · cases TimelineMapper.addressAt topics 1 <;> cases TimelineMapper.addressAt topics 2 <;> rfl
  · split
    · cases topics[2]?.bind ScVal.asU32 <;> rfl
    · cases topics[2]?.bind ScVal.asU32 <;> rfl
    · rfl
  · rfl

/-- Of a legible event the mapper returns a row, or drops it; which, and
what the row says beside the value, does not depend on the value. -/
theorem map_hideValue {e e' : EventRecord} (he : e.hideValue = e'.hideValue)
    (hv : e.LegibleValue lossy) (hv' : e'.LegibleValue lossy) :
    (TimelineMapper.map lossy goalAccount e).map (Option.map TimelineEntry.hideValue)
      = (TimelineMapper.map lossy goalAccount e').map (Option.map TimelineEntry.hideValue) := by
  have htopics : e.topics = e'.topics := by
    change e.hideValue.topics = e'.hideValue.topics
    rw [he]
  obtain ⟨value, hvalue⟩ := hv.valueOf
  obtain ⟨value', hvalue'⟩ := hv'.valueOf
  unfold TimelineMapper.map
  rw [htopics, hvalue, hvalue']
  cases ScVal.decodeTopics lossy e'.topics with
  | error t => rfl
  | ok topics =>
      simp only [Fallible.ok_bind]
      cases topics.head?.bind ScVal.asSymbol with
      | none => rfl
      | some head => exact congrArg Except.ok (entryOf_hideValue he topics head value value')

theorem mapAll_hideValue (goalAccount : String) {ct ct' : List EventRecord}
    (h : ct.map EventRecord.hideValue = ct'.map EventRecord.hideValue)
    (hv : ∀ e ∈ ct, e.LegibleValue lossy) (hv' : ∀ e ∈ ct', e.LegibleValue lossy) :
    (TimelineMapper.mapAll lossy goalAccount ct).map (List.map TimelineEntry.hideValue)
      = (TimelineMapper.mapAll lossy goalAccount ct').map (List.map TimelineEntry.hideValue) := by
  have hpairs : List.Forall₂ (fun e e' =>
      (TimelineMapper.map lossy goalAccount e).map (Option.map TimelineEntry.hideValue)
        = (TimelineMapper.map lossy goalAccount e').map (Option.map TimelineEntry.hideValue))
      ct ct' := by
    have hlen : ct.length = ct'.length := by simpa using congrArg List.length h
    refine List.forall₂_iff_get.mpr ⟨hlen, fun i hi hi' => ?_⟩
    refine map_hideValue ?_ (hv _ (List.get_mem ct ⟨i, hi⟩)) (hv' _ (List.get_mem ct' ⟨i, hi'⟩))
    have hget := congrArg (fun l => l[i]?) h
    simpa [hi, hi'] using hget
  unfold TimelineMapper.mapAll
  rcases Fallible.map_eq_map (Fallible.map_mapM_congr hpairs) with
    ⟨t, hl, hl'⟩ | ⟨rows, rows', hl, hl', hrows⟩
  · rw [hl, hl']
  · rw [hl, hl']
    simp only [Fallible.ok_bind, Except.map]
    have hkey : ∀ e : TimelineEntry, e.hideValue.newestFirst = e.newestFirst :=
      TimelineEntry.hideValue_newestFirst
    rw [Keyset.map_orderBy _ hkey, Keyset.map_orderBy _ hkey, ← List.reduceOption_map,
      ← List.reduceOption_map, hrows]

theorem mapAll_of_legible (goalAccount : String) {events : List EventRecord}
    (htopics : ∀ e ∈ events, ∀ t ∈ e.topics, Legible lossy t)
    (hv : ∀ e ∈ events, e.LegibleValue lossy) :
    ∃ rows, TimelineMapper.mapAll lossy goalAccount events = .ok rows := by
  have hmap : ∀ e ∈ events, ∃ row, TimelineMapper.map lossy goalAccount e = .ok row := by
    intro e he
    obtain ⟨topics, hdecoded⟩ : ∃ topics, ScVal.decodeTopics lossy e.topics = .ok topics :=
      Fallible.exists_mapM_eq_ok fun t ht => (htopics e he t ht).decodeTopic
    obtain ⟨value, hvalue⟩ := (hv e he).valueOf
    unfold TimelineMapper.map
    rw [hdecoded, hvalue]
    simp only [Fallible.ok_bind]
    cases topics.head?.bind ScVal.asSymbol with
    | none => exact ⟨_, rfl⟩
    | some head => exact ⟨_, rfl⟩
  obtain ⟨rows, hrows⟩ := Fallible.exists_mapM_eq_ok hmap
  exact ⟨_, by rw [TimelineMapper.mapAll, hrows]; rfl⟩

end Mapper

/-! ## What is kept -/

namespace GoalTimeline

variable {req : Request} {e : TimelineEntry}

theorem keepsCt_hideValue : keepsCt req e.hideValue = keepsCt req e := by
  cases e <;> rfl

/-- Nothing is hidden in a row kept of the wrapper's events. -/
theorem hideValue_of_keepsCt (hreg : req.includeRegistrations = false)
    (h : keepsCt req e = true) : e.hideValue = e := by
  cases e with
  | contribution c => rfl
  | merge info account byGoal => rfl
  | registration info account auditorId => exact absurd (hreg.symm.trans h) nofun
  | deposit info sender recipient amountStroops => cases h
  | goalCreated info goalId goalAccount => cases h
  | harvest info goalId memo => cases h
  | configuration info setting => cases h

/-- Rows that agree up to their values are kept alike. -/
theorem filter_keepsCt_congr {rows rows' : List TimelineEntry}
    (hreg : req.includeRegistrations = false)
    (h : rows.map TimelineEntry.hideValue = rows'.map TimelineEntry.hideValue) :
    rows.filter (keepsCt req) = rows'.filter (keepsCt req) := by
  have hkept : ∀ l : List TimelineEntry,
      l.filter (keepsCt req) = (l.map TimelineEntry.hideValue).filter (keepsCt req) := by
    intro l
    have hfun : keepsCt req ∘ TimelineEntry.hideValue = keepsCt req :=
      funext fun _ => keepsCt_hideValue
    have hself : ∀ e ∈ l.filter (keepsCt req), e.hideValue = id e := fun e he =>
      hideValue_of_keepsCt hreg (List.mem_filter.mp he).2
    rw [List.filter_map, hfun, List.map_congr_left hself, List.map_id]
  rw [hkept rows, hkept rows', h]

theorem isGoalRow_of_keepsCt (h : keepsCt req e = true) : e.isGoalRow = false := by
  cases e with
  | goalCreated info goalId goalAccount => cases h
  | harvest info goalId memo => cases h
  | _ => rfl

theorem isFundRow_of_keepsMeta (h : keepsMeta req e = true) : e.isFundRow = false := by
  cases e with
  | contribution c => cases h
  | merge info account byGoal => cases h
  | _ => rfl

/-- Selecting from the ordered rows is ordering what is selected of each
part. -/
theorem filter_entries (p : TimelineEntry → Bool) (ct goalMeta : List TimelineEntry) :
    (assemble req (ct ++ goalMeta)).entries.filter p
      = Keyset.orderBy TimelineEntry.newestFirst (ct.filter p ++ goalMeta.filter p) := by
  rw [assemble, Keyset.filter_orderBy, List.filter_append]

theorem goalRows_of_ct (rows : List TimelineEntry) :
    (rows.filter (keepsCt req)).filter TimelineEntry.isGoalRow = [] := by
  refine List.filter_eq_nil_iff.mpr fun e he => ?_
  rw [isGoalRow_of_keepsCt (List.mem_filter.mp he).2]
  exact Bool.false_ne_true

theorem fundRows_of_meta (rows : List TimelineEntry) :
    (rows.filter (keepsMeta req)).filter TimelineEntry.isFundRow = [] := by
  refine List.filter_eq_nil_iff.mpr fun e he => ?_
  rw [isFundRow_of_keepsMeta (List.mem_filter.mp he).2]
  exact Bool.false_ne_true

/-! ## Two runs -/

variable {lossy : List UInt8 → String}

theorem build_eq_ok {ct goalMeta : List EventRecord} {t : GoalTimeline}
    (h : build lossy ct goalMeta req = .ok t) :
    ∃ rows metaRows, TimelineMapper.mapAll lossy req.goalAccount ct = .ok rows ∧
      TimelineMapper.mapAll lossy req.goalAccount goalMeta = .ok metaRows ∧
      t = assemble req (rows.filter (keepsCt req) ++ metaRows.filter (keepsMeta req)) := by
  obtain ⟨rows, hrows, h⟩ := Fallible.bind_eq_ok.mp h
  obtain ⟨metaRows, hmeta, h⟩ := Fallible.bind_eq_ok.mp h
  cases h
  exact ⟨rows, metaRows, hrows, hmeta, rfl⟩

theorem build_of_mapAll {ct goalMeta : List EventRecord} {rows metaRows : List TimelineEntry}
    (hrows : TimelineMapper.mapAll lossy req.goalAccount ct = .ok rows)
    (hmeta : TimelineMapper.mapAll lossy req.goalAccount goalMeta = .ok metaRows) :
    build lossy ct goalMeta req
      = .ok (assemble req (rows.filter (keepsCt req) ++ metaRows.filter (keepsMeta req))) := by
  rw [build, hrows, hmeta]
  rfl

/-- Legible events always make a timeline. -/
theorem build_of_legible {ct goalMeta : List EventRecord}
    (htopics : ∀ e ∈ ct ++ goalMeta, ∀ t ∈ e.topics, Legible lossy t)
    (hv : ∀ e ∈ ct ++ goalMeta, e.LegibleValue lossy) :
    ∃ t, build lossy ct goalMeta req = .ok t := by
  obtain ⟨rows, hrows⟩ := mapAll_of_legible req.goalAccount
    (fun e he => htopics e (List.mem_append_left goalMeta he))
    (fun e he => hv e (List.mem_append_left goalMeta he))
  obtain ⟨metaRows, hmeta⟩ := mapAll_of_legible req.goalAccount
    (fun e he => htopics e (List.mem_append_right ct he))
    (fun e he => hv e (List.mem_append_right ct he))
  exact ⟨_, build_of_mapAll hrows hmeta⟩

/-- The values of the wrapper's events do not reach the timeline. -/
theorem build_hideValue {ct ct' : List EventRecord} (goalMeta : List EventRecord)
    (hreg : req.includeRegistrations = false)
    (h : ct.map EventRecord.hideValue = ct'.map EventRecord.hideValue)
    (hv : ∀ e ∈ ct, e.LegibleValue lossy) (hv' : ∀ e ∈ ct', e.LegibleValue lossy) :
    build lossy ct goalMeta req = build lossy ct' goalMeta req := by
  unfold build
  rcases Fallible.map_eq_map (mapAll_hideValue req.goalAccount h hv hv') with
    ⟨t, hl, hl'⟩ | ⟨rows, rows', hl, hl', hrows⟩
  · rw [hl, hl']
  · rw [hl, hl']
    simp only [Fallible.ok_bind]
    rw [filter_keepsCt_congr hreg hrows]

/-- The wrapper's events have no part in the rows of the goal. -/
theorem goalRows_congr {ct ct' goalMeta : List EventRecord} {t t' : GoalTimeline}
    (h : build lossy ct goalMeta req = .ok t) (h' : build lossy ct' goalMeta req = .ok t') :
    t.entries.filter TimelineEntry.isGoalRow = t'.entries.filter TimelineEntry.isGoalRow := by
  obtain ⟨rows, metaRows, -, hmeta, rfl⟩ := build_eq_ok h
  obtain ⟨rows', metaRows', -, hmeta', rfl⟩ := build_eq_ok h'
  cases hmeta.symm.trans hmeta'
  rw [filter_entries, filter_entries, goalRows_of_ct, goalRows_of_ct]

/-- The events of `goal_meta` have no part in the rows of the fund. -/
theorem fundRows_congr {ct goalMeta goalMeta' : List EventRecord} {t t' : GoalTimeline}
    (h : build lossy ct goalMeta req = .ok t) (h' : build lossy ct goalMeta' req = .ok t') :
    t.entries.filter TimelineEntry.isFundRow = t'.entries.filter TimelineEntry.isFundRow := by
  obtain ⟨rows, metaRows, hrows, -, rfl⟩ := build_eq_ok h
  obtain ⟨rows', metaRows', hrows', -, rfl⟩ := build_eq_ok h'
  cases hrows.symm.trans hrows'
  rw [filter_entries, filter_entries, fundRows_of_meta, fundRows_of_meta]

/-- **The timeline depends on no amount.** Without registrations, events
of the wrapper that differ in their values only make the same timeline;
and whatever the events of one contract are, the rows of the other stay
the same. -/
theorem build_blind (lossy : List UInt8 → String) (req : Request) :
    (∀ ct ct' goalMeta, req.includeRegistrations = false →
        ct.map EventRecord.hideValue = ct'.map EventRecord.hideValue →
        (∀ e ∈ ct, e.LegibleValue lossy) → (∀ e ∈ ct', e.LegibleValue lossy) →
        build lossy ct goalMeta req = build lossy ct' goalMeta req) ∧
      (∀ ct ct' goalMeta t t', build lossy ct goalMeta req = .ok t →
        build lossy ct' goalMeta req = .ok t' →
        t.entries.filter TimelineEntry.isGoalRow = t'.entries.filter TimelineEntry.isGoalRow) ∧
      ∀ ct goalMeta goalMeta' t t', build lossy ct goalMeta req = .ok t →
        build lossy ct goalMeta' req = .ok t' →
        t.entries.filter TimelineEntry.isFundRow = t'.entries.filter TimelineEntry.isFundRow := by
  refine ⟨?_, ?_, ?_⟩
  · intro ct ct' goalMeta hreg h hv hv'
    exact build_hideValue goalMeta hreg h hv hv'
  · intro ct ct' goalMeta t t' h h'
    exact goalRows_congr h h'
  · intro ct goalMeta goalMeta' t t' h h'
    exact fundRows_congr h h'

/-- An event with encoded topics and a value. -/
def sampleEvent (topics : List XdrVal) (value : Option XdrVal) : EventRecord :=
  { id := "0016965675500376064-0000000001"
    contractId := CtConfig.token
    ledger := 3950128
    txHash := none
    ledgerClosedAt := none
    topics := topics.map XdrVal.text
    valueXdr := value.map XdrVal.text
    inSuccessfulContractCall := true }

theorem sampleEvent_legible {topics : List XdrVal} {value : Option XdrVal}
    (h : ∀ v ∈ topics ++ value.toList, v.encode.length < 2 ^ 31) :
    (∀ t ∈ (sampleEvent topics value).topics, Legible lossy t) ∧
      (sampleEvent topics value).LegibleValue lossy := by
  constructor
  · intro t ht
    obtain ⟨v, hv, rfl⟩ := List.mem_map.mp ht
    exact .of_text v (h v (List.mem_append_left _ hv))
  · intro xdr hxdr
    obtain ⟨v, hv, rfl⟩ := Option.map_eq_some_iff.mp hxdr
    exact .of_text v (h v (List.mem_append_right _ (Option.mem_toList.mpr hv)))

/-- A deposit, its amount there or not, beside the creation of the goal. -/
theorem build_blind_sample :
    let lossy : List UInt8 → String := fun _ => "\uFFFD"
    let req : Request := { source := .raizMemory "" }
    let deposit := sampleEvent
      [.symbol "deposit", .account (.replicate 32 1), .account (.replicate 32 2)]
    let created := sampleEvent [.symbol "goal", .symbol "created", .u32 1] none
    build lossy [deposit (some (.i128 7))] [created] req
        = build lossy [deposit none] [created] req ∧
      (∃ t t', build lossy [deposit none] [created] req = .ok t ∧
        build lossy [] [created] req = .ok t' ∧
        t.entries.filter TimelineEntry.isGoalRow = t'.entries.filter TimelineEntry.isGoalRow) ∧
      ∃ t t', build lossy [deposit none] [created] req = .ok t ∧
        build lossy [deposit none] [] req = .ok t' ∧
        t.entries.filter TimelineEntry.isFundRow
          = t'.entries.filter TimelineEntry.isFundRow := by
  intro lossy req deposit created
  have hpaid : (deposit (some (.i128 7))).LegibleValue lossy := (sampleEvent_legible (by decide)).2
  have hbare : (∀ t ∈ (deposit none).topics, Legible lossy t) ∧
      (deposit none).LegibleValue lossy := sampleEvent_legible (by decide)
  have hcreated : (∀ t ∈ created.topics, Legible lossy t) ∧ created.LegibleValue lossy :=
    sampleEvent_legible (by decide)
  have hbuild : ∀ ct goalMeta, ct ++ goalMeta ⊆ [deposit none, created] →
      ∃ t, build lossy ct goalMeta req = .ok t := by
    intro ct goalMeta hsub
    have hboth : ∀ e ∈ [deposit none, created],
        (∀ t ∈ e.topics, Legible lossy t) ∧ e.LegibleValue lossy :=
      List.forall_mem_cons.mpr ⟨hbare, List.forall_mem_singleton.mpr hcreated⟩
    exact build_of_legible (fun e he => (hboth e (hsub he)).1) fun e he => (hboth e (hsub he)).2
  obtain ⟨t, ht⟩ := hbuild [deposit none] [created] (List.Subset.refl _)
  obtain ⟨t₁, ht₁⟩ := hbuild [] [created] (List.subset_cons_self _ _)
  obtain ⟨t₂, ht₂⟩ := hbuild [deposit none] [] (List.cons_subset_cons _ (List.nil_subset _))
  refine ⟨?_, ⟨t, t₁, ht, ht₁, ?_⟩, t, t₂, ht, ht₂, ?_⟩
  · exact (build_blind lossy req).1 _ _ _ rfl rfl (List.forall_mem_singleton.mpr hpaid)
      (List.forall_mem_singleton.mpr hbare.2)
  · exact (build_blind lossy req).2.1 _ _ _ _ _ ht ht₁
  · exact (build_blind lossy req).2.2 _ _ _ _ _ ht ht₂

end GoalTimeline

end RaizStack
