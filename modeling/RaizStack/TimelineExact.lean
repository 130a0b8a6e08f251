import Mathlib.Data.List.Perm.Subperm
import RaizStack.TimelineLoad

/-!
# The timeline is exact

What `build` returns is said without the passes that compute it: which
rows are in it, in which order, and what the derived fields are of those
rows. Rows carry the id of their event, so events with different ids make
rows with different keys; a list in strict key order is determined by its
rows, and with it everything `assemble` reads off it. That is why neither
the order of the two lists of events nor the sorting of each of them
matters.
-/

namespace RaizStack

open EventsClient

/-! ## The first of each -/

section Distinct

variable {l : List String} {s : String}

theorem distinct_append_singleton (l : List String) (s : String) :
    GoalTimeline.distinct (l ++ [s])
      = if s ∈ GoalTimeline.distinct l then GoalTimeline.distinct l
        else GoalTimeline.distinct l ++ [s] := by
  unfold GoalTimeline.distinct
  rw [List.foldl_append]
  rfl

theorem mem_distinct : s ∈ GoalTimeline.distinct l ↔ s ∈ l := by
  induction l using List.reverseRecOn with
  | nil => rfl
  | append_singleton l x ih =>
      rw [distinct_append_singleton, List.mem_append, List.mem_singleton, ← ih]
      split
      · rename_i hx
        constructor
        · exact .inl
        · rintro (h | rfl)
          · exact h
          · exact hx
      · rw [List.mem_append, List.mem_singleton]

theorem distinct_nodup : (GoalTimeline.distinct l).Nodup := by
  induction l using List.reverseRecOn with
  | nil => exact List.nodup_nil
  | append_singleton l x ih =>
      rw [distinct_append_singleton]
      split
      · exact ih
      · rename_i hx
        exact List.nodup_append.mpr ⟨ih, List.nodup_singleton x, fun a ha b hb heq =>
          hx (List.mem_singleton.mp hb ▸ heq ▸ ha)⟩

/-- What is kept stands in the order of first occurrence. -/
theorem distinct_pairwise : (GoalTimeline.distinct l).Pairwise fun a b =>
    ∃ front back, l = front ++ a :: back ∧ b ∉ front := by
  induction l using List.reverseRecOn with
  | nil => exact List.Pairwise.nil
  | append_singleton l x ih =>
      have hold : (GoalTimeline.distinct l).Pairwise fun a b =>
          ∃ front back, l ++ [x] = front ++ a :: back ∧ b ∉ front := by
        refine ih.imp ?_
        rintro a b ⟨front, back, rfl, hb⟩
        exact ⟨front, back ++ [x], by simp, hb⟩
      rw [distinct_append_singleton]
      split
      · exact hold
      · rename_i hx
        refine List.pairwise_append.mpr ⟨hold, List.pairwise_singleton _ _, ?_⟩
        intro a ha b hb
        obtain rfl := List.mem_singleton.mp hb
        obtain ⟨front, back, rfl⟩ := List.append_of_mem (mem_distinct.mp ha)
        refine ⟨front, back ++ [b], by simp, ?_⟩
        intro hfront
        exact hx (mem_distinct.mpr (List.mem_append_left _ hfront))

end Distinct

/-! ## What the timeline should be -/

/-- By ledger, then by event id, both descending. -/
def EntryInfo.Newer (a b : EntryInfo) : Prop :=
  b.ledger < a.ledger ∨
    a.ledger = b.ledger ∧ Text.codeUnits b.id < Text.codeUnits a.id

namespace GoalTimeline

/-- The rows of the wrapper the goal shows: contributions into its
account, merges by it, and registrations when asked. -/
def OfFund (req : Request) : TimelineEntry → Prop
  | .contribution c => c.recipient = req.goalAccount
  | .merge _ account _ => account = req.goalAccount
  | .registration _ _ _ => req.includeRegistrations = true
  | _ => False

/-- The rows of `goal_meta` the goal shows. -/
def OfGoal (req : Request) : TimelineEntry → Prop
  | .goalCreated _ goalId _ => goalId = req.goalId
  | .harvest _ goalId _ => goalId = req.goalId
  | _ => False

/-- The goal's rows among the mapped events, and what is read off them. -/
structure Exact (lossy : List UInt8 → String) (req : Request) (ct goalMeta : List EventRecord)
    (t : GoalTimeline) : Prop where
  entries : ∀ x, x ∈ t.entries ↔
    (∃ e ∈ ct, TimelineMapper.map lossy req.goalAccount e = .ok (some x) ∧ OfFund req x) ∨
      ∃ e ∈ goalMeta, TimelineMapper.map lossy req.goalAccount e = .ok (some x) ∧ OfGoal req x
  ids : (t.entries.map fun x => x.info.id).Nodup
  sorted : t.entries.Pairwise fun x y => x.info.Newer y.info
  senders : ∀ a, a ∈ t.contributors ↔ ∃ c, .contribution c ∈ t.entries ∧ c.sender = a
  senders_nodup : t.contributors.Nodup
  /-- An earlier sender has a contribution newer than all of a later one. -/
  senders_sorted : t.contributors.Pairwise fun a b =>
    ∃ c, .contribution c ∈ t.entries ∧ c.sender = a ∧
      ∀ d, .contribution d ∈ t.entries → d.sender = b → c.info.Newer d.info
  /-- The oldest creation, where there is one. -/
  createdAt : (t.createdAtIso = none ∧ ∀ x ∈ t.entries, x.kind ≠ .goalCreated) ∨
    ∃ x ∈ t.entries, x.kind = .goalCreated ∧ t.createdAtIso = x.info.atIso ∧
      ∀ y ∈ t.entries, y.kind = .goalCreated → y ≠ x → y.info.Newer x.info

end GoalTimeline

/-! ## Keys and ids -/

theorem newestFirst_lt {x y : TimelineEntry} :
    x.newestFirst < y.newestFirst ↔ x.info.Newer y.info := by
  unfold TimelineEntry.newestFirst EntryInfo.Newer
  rw [Prod.Lex.toLex_lt_toLex, OrderDual.toDual_lt_toDual, OrderDual.toDual_lt_toDual,
    OrderDual.toDual_inj]

theorem id_of_newestFirst {x y : TimelineEntry} (h : x.newestFirst = y.newestFirst) :
    x.info.id = y.info.id := by
  have hids := congrArg Prod.snd (toLex_inj.mp h)
  exact Text.codeUnits_injective (OrderDual.toDual_inj.mp hids)

theorem newestFirst_nodup {rows : List TimelineEntry}
    (h : (rows.map fun x => x.info.id).Nodup) : (rows.map TimelineEntry.newestFirst).Nodup := by
  refine List.pairwise_map.mpr ((List.pairwise_map.mp h).imp ?_)
  intro x y hne heq
  exact hne (id_of_newestFirst heq)

section Mapper

variable {lossy : List UInt8 → String} {goalAccount : String}

/-- The rows of a list of events, each with its event's id, in order. -/
theorem ids_of_mapM {events : List EventRecord} {rows : List (Option TimelineEntry)}
    (h : events.mapM (TimelineMapper.map lossy goalAccount) = .ok rows) :
    (rows.reduceOption.map fun x => x.info.id).Sublist (events.map EventRecord.id) := by
  induction events generalizing rows with
  | nil =>
      obtain rfl := Except.ok.inj h
      exact List.Sublist.slnil
  | cons e events ih =>
      rw [Fallible.mapM_cons] at h
      obtain ⟨row, hrow, h⟩ := Fallible.bind_eq_ok.mp h
      obtain ⟨rest, hrest, h⟩ := Fallible.bind_eq_ok.mp h
      obtain rfl := Except.ok.inj h
      cases row with
      | none => exact (ih hrest).cons _
      | some x =>
          rw [List.reduceOption_cons_of_some, List.map_cons, List.map_cons, map_info hrow]
          exact (ih hrest).cons_cons _

/-- Sorting and selecting keep at most the ids there were. -/
theorem ids_of_mapAll {events : List EventRecord} {rows : List TimelineEntry}
    (h : TimelineMapper.mapAll lossy goalAccount events = .ok rows) (p : TimelineEntry → Bool) :
    List.Subperm ((rows.filter p).map fun x => x.info.id) (events.map EventRecord.id) := by
  obtain ⟨mapped, hmapped, h⟩ := Fallible.bind_eq_ok.mp h
  obtain rfl := Except.ok.inj h
  have hselect := (List.filter_sublist (p := p)
    (l := Keyset.orderBy TimelineEntry.newestFirst mapped.reduceOption)).map fun x => x.info.id
  have hsort : ((Keyset.orderBy TimelineEntry.newestFirst mapped.reduceOption).map
      fun x => x.info.id).Perm (mapped.reduceOption.map fun x => x.info.id) :=
    Keyset.orderBy_perm.map _
  exact hselect.subperm.trans (hsort.subperm.trans (ids_of_mapM hmapped).subperm)

/-- The mapper marks the merges of its account. -/
theorem byGoal_of_map {e : EventRecord} {info : EntryInfo} {account : String} {byGoal : Bool}
    (h : TimelineMapper.map lossy goalAccount e = .ok (some (.merge info account byGoal))) :
    byGoal = (account == goalAccount) := by
  obtain ⟨topics, -, h⟩ := Fallible.bind_eq_ok.mp h
  split at h
  · cases h
  · obtain ⟨value, -, h⟩ := Fallible.bind_eq_ok.mp h
    have hrow := Except.ok.inj h
    unfold TimelineMapper.entryOf at hrow
    split at hrow
    · obtain ⟨sender, -, hrow⟩ := Option.bind_eq_some_iff.mp hrow
      obtain ⟨recipient, -, hrow⟩ := Option.bind_eq_some_iff.mp hrow
      cases hrow
    · obtain ⟨account, -, hrow⟩ := Option.bind_eq_some_iff.mp hrow
      cases hrow
      rfl
    · obtain ⟨account, -, hrow⟩ := Option.bind_eq_some_iff.mp hrow
      cases hrow
    · obtain ⟨sender, -, hrow⟩ := Option.bind_eq_some_iff.mp hrow
      obtain ⟨recipient, -, hrow⟩ := Option.bind_eq_some_iff.mp hrow
      cases hrow
    · split at hrow
      · obtain ⟨goalId, -, hrow⟩ := Option.bind_eq_some_iff.mp hrow
        cases hrow
      · obtain ⟨goalId, -, hrow⟩ := Option.bind_eq_some_iff.mp hrow
        cases hrow
      · cases hrow
    · split at hrow
      · obtain ⟨setting, -, hrow⟩ := Option.map_eq_some_iff.mp hrow
        cases hrow
      · cases hrow

end Mapper

namespace GoalTimeline

variable {lossy : List UInt8 → String} {req : Request} {ct goalMeta : List EventRecord}
  {t : GoalTimeline}

theorem keepsCt_iff {e : EventRecord} {x : TimelineEntry}
    (h : TimelineMapper.map lossy req.goalAccount e = .ok (some x)) :
    keepsCt req x = true ↔ OfFund req x := by
  cases x with
  | contribution c => exact decide_eq_true_iff
  | merge info account byGoal =>
      rw [byGoal_of_map h]
      exact beq_iff_eq
  | registration info account auditorId => exact Iff.rfl
  | _ => exact iff_of_false Bool.false_ne_true id

theorem keepsMeta_iff {x : TimelineEntry} : keepsMeta req x = true ↔ OfGoal req x := by
  cases x with
  | goalCreated info goalId goalAccount => exact decide_eq_true_iff
  | harvest info goalId memo => exact decide_eq_true_iff
  | _ => exact iff_of_false Bool.false_ne_true id

/-! ## What is read off the rows -/

/-- The fields of a timeline that depend on its rows. -/
structure ReadOff (t : GoalTimeline) : Prop where
  contributions : t.contributions = t.entries.filterMap TimelineEntry.asContribution
  contributors : t.contributors = distinct (t.contributions.map Contribution.sender)
  createdAt : t.createdAtIso = (t.entries.filterMap TimelineEntry.createdAt).getLast?.join

theorem assemble_readOff (req : Request) (kept : List TimelineEntry) :
    ReadOff (assemble req kept) :=
  ⟨rfl, rfl, rfl⟩

theorem mem_contributions (h : ReadOff t) {c : Contribution} :
    c ∈ t.contributions ↔ .contribution c ∈ t.entries := by
  rw [h.contributions, List.mem_filterMap]
  constructor
  · rintro ⟨x, hx, hc⟩
    cases x with
    | contribution c' =>
        obtain rfl := Option.some.inj hc
        exact hx
    | _ => cases hc
  · intro hc
    exact ⟨_, hc, rfl⟩

theorem mem_contributors (h : ReadOff t) {a : String} :
    a ∈ t.contributors ↔ ∃ c, .contribution c ∈ t.entries ∧ c.sender = a := by
  rw [h.contributors, mem_distinct, List.mem_map]
  simp only [mem_contributions h]

/-- The contributions stand in the order of the rows. -/
theorem contributions_sorted (h : ReadOff t)
    (hsorted : t.entries.Pairwise fun x y => x.info.Newer y.info) :
    t.contributions.Pairwise fun c d => c.info.Newer d.info := by
  rw [h.contributions, List.pairwise_filterMap]
  refine hsorted.imp ?_
  intro x y hxy c hc d hd
  cases x with
  | contribution c' =>
      cases y with
      | contribution d' =>
          obtain rfl := Option.some.inj hc
          obtain rfl := Option.some.inj hd
          exact hxy
      | _ => cases hd
  | _ => cases hc

/-- A sender's first contribution in the list is newer than all those of
a sender who comes later. -/
theorem contributors_sorted (h : ReadOff t)
    (hsorted : t.entries.Pairwise fun x y => x.info.Newer y.info) :
    t.contributors.Pairwise fun a b => ∃ c, .contribution c ∈ t.entries ∧ c.sender = a ∧
      ∀ d, .contribution d ∈ t.entries → d.sender = b → c.info.Newer d.info := by
  have hdistinct := distinct_pairwise.and
    (distinct_nodup (l := t.contributions.map Contribution.sender))
  rw [← h.contributors] at hdistinct
  refine hdistinct.imp ?_
  rintro a b ⟨⟨front, back, hsplit, hb⟩, hne⟩
  obtain ⟨cs, rest, hcs, rfl, hrest⟩ := List.map_eq_append_iff.mp hsplit
  obtain ⟨c, ds, rfl, rfl, -⟩ := List.map_eq_cons_iff.mp hrest
  have hcontributions := contributions_sorted h hsorted
  rw [hcs] at hcontributions
  have hafter := List.pairwise_cons.mp (List.pairwise_append.mp hcontributions).2.1
  refine ⟨c, ?_, rfl, ?_⟩
  · rw [← mem_contributions h, hcs]
    exact List.mem_append_right _ List.mem_cons_self
  · rintro d hd rfl
    rw [← mem_contributions h, hcs] at hd
    rcases List.mem_append.mp hd with hfront | hd
    · exact absurd (List.mem_map_of_mem hfront) hb
    rcases List.mem_cons.mp hd with rfl | hback
    · exact absurd rfl hne
    · exact hafter.1 d hback

/-- The last creation in the list is the oldest. -/
theorem createdAt_oldest (h : ReadOff t)
    (hsorted : t.entries.Pairwise fun x y => x.info.Newer y.info) :
    (t.createdAtIso = none ∧ ∀ x ∈ t.entries, x.kind ≠ .goalCreated) ∨
      ∃ x ∈ t.entries, x.kind = .goalCreated ∧ t.createdAtIso = x.info.atIso ∧
        ∀ y ∈ t.entries, y.kind = .goalCreated → y ≠ x → y.info.Newer x.info := by
  have hkind : ∀ x : TimelineEntry, x.kind = .goalCreated → x.createdAt = some x.info.atIso := by
    intro x hx
    cases x with
    | goalCreated info goalId goalAccount => rfl
    | _ => cases hx
  rw [h.createdAt]
  cases hlast : (t.entries.filterMap TimelineEntry.createdAt).getLast? with
  | none =>
      refine .inl ⟨rfl, ?_⟩
      intro x hx hcreated
      have hnone := List.filterMap_eq_nil_iff.mp (List.getLast?_eq_none_iff.mp hlast) x hx
      rw [hkind x hcreated] at hnone
      cases hnone
  | some iso =>
      obtain ⟨isos, hisos⟩ := List.getLast?_eq_some_iff.mp hlast
      obtain ⟨front, rest, hsplit, -, hrest⟩ := List.filterMap_eq_append_iff.mp hisos
      obtain ⟨between, x, back, rfl, -, hx, hback⟩ := List.filterMap_eq_cons_iff.mp hrest
      rw [hsplit] at hsorted ⊢
      have hiso : x.kind = .goalCreated ∧ x.info.atIso = iso := by
        cases x with
        | goalCreated info goalId goalAccount => exact ⟨rfl, Option.some.inj hx⟩
        | _ => cases hx
      refine .inr ⟨x, by simp, hiso.1, hiso.2.symm, ?_⟩
      intro y hy hcreated hne
      have hyiso := hkind y hcreated
      have hnotback : y ∉ back := by
        intro hin
        rw [List.filterMap_eq_nil_iff.mp hback y hin] at hyiso
        cases hyiso
      rw [← List.append_assoc] at hsorted hy
      refine (List.pairwise_append.mp hsorted).2.2 y ?_ x List.mem_cons_self
      rcases List.mem_append.mp hy with hin | hin
      · exact hin
      · rcases List.mem_cons.mp hin with rfl | hin
        · exact absurd rfl hne
        · exact absurd hin hnotback

/-! ## Exactness -/

/-- A timeline built of events with different ids is exact. -/
theorem exact_of_build (hids : ((ct ++ goalMeta).map EventRecord.id).Nodup)
    (h : build lossy ct goalMeta req = .ok t) : Exact lossy req ct goalMeta t := by
  obtain ⟨rows, metaRows, hrows, hmeta, rfl⟩ := build_eq_ok h
  have hread := assemble_readOff req (rows.filter (keepsCt req) ++ metaRows.filter (keepsMeta req))
  have hkept : ((rows.filter (keepsCt req) ++ metaRows.filter (keepsMeta req)).map
      fun x => x.info.id).Nodup := by
    rw [List.map_append] at hids ⊢
    obtain ⟨ids, hperm, hsub⟩ :=
      List.Subperm.append (ids_of_mapAll hrows (keepsCt req)) (ids_of_mapAll hmeta (keepsMeta req))
    exact hperm.nodup_iff.mp (hids.sublist hsub)
  have hsorted : (assemble req (rows.filter (keepsCt req) ++
      metaRows.filter (keepsMeta req))).entries.Pairwise fun x y => x.info.Newer y.info :=
    (Keyset.orderBy_strict (newestFirst_nodup hkept)).imp newestFirst_lt.mp
  refine ⟨?_, ?_, hsorted, fun a => mem_contributors hread, ?_, contributors_sorted hread hsorted,
    createdAt_oldest hread hsorted⟩
  · intro x
    have hmem : x ∈ (assemble req (rows.filter (keepsCt req) ++
        metaRows.filter (keepsMeta req))).entries ↔
        x ∈ rows ∧ keepsCt req x = true ∨ x ∈ metaRows ∧ keepsMeta req x = true := by
      rw [assemble, Keyset.mem_orderBy, List.mem_append, List.mem_filter, List.mem_filter]
    rw [hmem, mem_mapAll hrows, mem_mapAll hmeta]
    constructor
    · rintro (⟨⟨e, he, hx⟩, hkeep⟩ | ⟨⟨e, he, hx⟩, hkeep⟩)
      · exact .inl ⟨e, he, hx, (keepsCt_iff hx).mp hkeep⟩
      · exact .inr ⟨e, he, hx, keepsMeta_iff.mp hkeep⟩
    · rintro (⟨e, he, hx, hof⟩ | ⟨e, he, hx, hof⟩)
      · exact .inl ⟨⟨e, he, hx⟩, (keepsCt_iff hx).mpr hof⟩
      · exact .inr ⟨⟨e, he, hx⟩, keepsMeta_iff.mpr hof⟩
  · exact ((Keyset.orderBy_perm.map _).nodup_iff).mpr hkept
  · rw [hread.contributors]
    exact distinct_nodup

/-- Two exact timelines of events with the same members have the same rows. -/
theorem Exact.entries_eq {ct' goalMeta' : List EventRecord} {t' : GoalTimeline}
    (h : Exact lossy req ct goalMeta t) (h' : Exact lossy req ct' goalMeta' t')
    (hct : ∀ e, e ∈ ct' ↔ e ∈ ct) (hmeta : ∀ e, e ∈ goalMeta' ↔ e ∈ goalMeta) :
    t'.entries = t.entries := by
  refine Keyset.eq_of_mem_iff (h'.sorted.imp newestFirst_lt.mpr)
    (h.sorted.imp newestFirst_lt.mpr) ?_
  intro x
  rw [h.entries, h'.entries]
  simp only [hct, hmeta]

/-- Everything else is read off the rows. -/
theorem eq_of_entries {ct' goalMeta' : List EventRecord} {t' : GoalTimeline}
    (h : build lossy ct goalMeta req = .ok t) (h' : build lossy ct' goalMeta' req = .ok t')
    (hentries : t'.entries = t.entries) : t' = t := by
  obtain ⟨rows, metaRows, -, -, rfl⟩ := build_eq_ok h
  obtain ⟨rows', metaRows', -, -, rfl⟩ := build_eq_ok h'
  simp only [assemble] at hentries ⊢
  rw [hentries]

/-- **The timeline of a goal.** Events with pairwise different ids that the
decoder accepts or refuses make a timeline: the qualifying rows, each once,
newest first, with the senders by their latest contribution and the date of
the oldest creation. The events in any other order make the same one. -/
theorem build_exact (lossy : List UInt8 → String) (req : Request)
    {ct goalMeta : List EventRecord}
    (hids : ((ct ++ goalMeta).map EventRecord.id).Nodup)
    (htopics : ∀ e ∈ ct ++ goalMeta, ∀ t ∈ e.topics, Legible lossy t)
    (hvalues : ∀ e ∈ ct ++ goalMeta, e.LegibleValue lossy) :
    ∃ t, build lossy ct goalMeta req = .ok t ∧ Exact lossy req ct goalMeta t ∧
      ∀ ct' goalMeta', ct'.Perm ct → goalMeta'.Perm goalMeta →
        build lossy ct' goalMeta' req = .ok t := by
  obtain ⟨t, ht⟩ : ∃ t, build lossy ct goalMeta req = .ok t := build_of_legible htopics hvalues
  have hexact := exact_of_build hids ht
  refine ⟨t, ht, hexact, ?_⟩
  intro ct' goalMeta' hct hmeta
  have hperm := hct.append hmeta
  obtain ⟨t', ht'⟩ : ∃ t', build lossy ct' goalMeta' req = .ok t' := build_of_legible
    (fun e he => htopics e (hperm.mem_iff.mp he)) fun e he => hvalues e (hperm.mem_iff.mp he)
  have hexact' := exact_of_build (((hperm.map _).nodup_iff).mpr hids) ht'
  rw [ht', eq_of_entries ht ht' (hexact.entries_eq hexact' (fun _ => hct.mem_iff)
    fun _ => hmeta.mem_iff)]

/-- A transfer of account `payer` into the account with key 2, 2, 2 ... -/
def sampleTransfer (id : String) (payer : Vector UInt8 32) : EventRecord :=
  { sampleEvent [.symbol "transfer", .account payer, .account (.replicate 32 2)] none with id := id }

/-- The contribution it is. -/
def sampleContribution (id : String) (payer : Vector UInt8 32) : TimelineEntry :=
  .contribution
    { info := TimelineMapper.infoOf (sampleTransfer id payer)
      sender := strKey accountVersion payer.toList
      recipient := strKey accountVersion (List.replicate 32 2) }

theorem sampleTransfer_short {payer : Vector UInt8 32}
    (h : (XdrVal.account payer).encode.length < 2 ^ 31) :
    ∀ v ∈ [XdrVal.symbol "transfer", .account payer, .account (.replicate 32 2)],
      v.encode.length < 2 ^ 31 := by
  intro v hv
  simp only [List.mem_cons, List.not_mem_nil, or_false] at hv
  rcases hv with rfl | rfl | rfl
  · decide
  · exact h
  · decide

theorem sampleTransfer_legible {lossy : List UInt8 → String} (id : String)
    {payer : Vector UInt8 32} (h : (XdrVal.account payer).encode.length < 2 ^ 31) :
    (∀ t ∈ (sampleTransfer id payer).topics, Legible lossy t) ∧
      (sampleTransfer id payer).LegibleValue lossy := by
  have hsample : (∀ t ∈ (sampleEvent [.symbol "transfer", .account payer,
        .account (.replicate 32 2)] none).topics, Legible lossy t) ∧
      (sampleEvent [.symbol "transfer", .account payer,
        .account (.replicate 32 2)] none).LegibleValue lossy :=
    sampleEvent_legible (by simpa using sampleTransfer_short h)
  exact hsample

theorem map_sampleTransfer (lossy : List UInt8 → String) (goalAccount id : String)
    {payer : Vector UInt8 32} (h : (XdrVal.account payer).encode.length < 2 ^ 31) :
    TimelineMapper.map lossy goalAccount (sampleTransfer id payer)
      = .ok (some (sampleContribution id payer)) := by
  have htopics : (sampleTransfer id payer).topics
      = [XdrVal.symbol "transfer", .account payer, .account (.replicate 32 2)].map XdrVal.text :=
    rfl
  rw [TimelineMapper.map, htopics, decodeTopics_texts lossy (sampleTransfer_short h)]
  rfl

/-- Contributions of two accounts and a creation, the contributions in
either order. -/
theorem build_exact_swapped :
    let lossy : List UInt8 → String := fun _ => "\uFFFD"
    let first := Vector.replicate 32 1
    let second := Vector.replicate 32 3
    let created := sampleEvent [.symbol "goal", .symbol "created", .u32 1] none
    let req : Request :=
      { source := .raizMemory "", goalAccount := strKey accountVersion (List.replicate 32 2) }
    ∃ t, build lossy [sampleTransfer "a" first, sampleTransfer "b" second] [created] req = .ok t ∧
      Exact lossy req [sampleTransfer "a" first, sampleTransfer "b" second] [created] t ∧
      build lossy [sampleTransfer "b" second, sampleTransfer "a" first] [created] req = .ok t ∧
      sampleContribution "a" first ∈ t.entries ∧ sampleContribution "b" second ∈ t.entries := by
  intro lossy first second created req
  have hcreated : (∀ t ∈ created.topics, Legible lossy t) ∧ created.LegibleValue lossy :=
    sampleEvent_legible (by decide)
  have hall : ∀ e ∈ [sampleTransfer "a" first, sampleTransfer "b" second] ++ [created],
      (∀ t ∈ e.topics, Legible lossy t) ∧ e.LegibleValue lossy :=
    List.forall_mem_cons.mpr ⟨sampleTransfer_legible "a" (by decide), List.forall_mem_cons.mpr
      ⟨sampleTransfer_legible "b" (by decide), List.forall_mem_singleton.mpr hcreated⟩⟩
  obtain ⟨t, ht, hexact, hswap⟩ := build_exact lossy req (by decide)
    (fun e he => (hall e he).1) fun e he => (hall e he).2
  have hshown : ∀ id payer, (XdrVal.account payer).encode.length < 2 ^ 31 →
      sampleTransfer id payer ∈ [sampleTransfer "a" first, sampleTransfer "b" second] →
      sampleContribution id payer ∈ t.entries := fun id payer hshort hmem =>
    (hexact.entries _).mpr (.inl ⟨_, hmem, map_sampleTransfer lossy _ id hshort, rfl⟩)
  exact ⟨t, ht, hexact, hswap _ _ (.swap _ _ _) (.refl _),
    hshown "a" first (by decide) List.mem_cons_self,
    hshown "b" second (by decide) (List.mem_cons_of_mem _ List.mem_cons_self)⟩

end GoalTimeline

end RaizStack
