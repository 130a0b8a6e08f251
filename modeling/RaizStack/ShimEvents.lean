import Mathlib.Data.List.ReduceOption
import RaizStack.EventsWire
import RaizStack.ShimComplete
import RaizStack.TimelineBlind

/-!
# One stream of events, two views

The shim decodes the rows of the event source with `parseRawEvent` and
lists what came into the goal; the timeline decodes the same rows with
the mapper. Both name a transfer by its head topic and its parties by the
next two, so they find the same transfers into the goal. Only the shim
lists the deposits: they count towards the total, and the timeline drops
them because their amounts are public.
-/

namespace RaizStack

open EventsClient

variable {R P C : Type}

/-! ## The shim's decoder -/

/-- `ev.type`. -/
def ConfidentialEvent.type : ConfidentialEvent C → String
  | .register _ _ => "register"
  | .deposit _ _ _ _ => "deposit"
  | .merge _ _ => "merge"
  | .transfer _ _ _ _ => "transfer"
  | .withdraw _ _ _ _ _ => "withdraw"

def ConfidentialEvent.info : ConfidentialEvent C → EventAt
  | .register info _ => info
  | .deposit info _ _ _ => info
  | .merge info _ => info
  | .transfer info _ _ _ => info
  | .withdraw info _ _ _ _ => info

/-- What the decoder takes from elsewhere: the XDR library, `BigInt`, and
the vendored list of names and builder of events. -/
structure EventDecoder (C : Type) where
  fromXDR : String → Except String ScVal
  bigInt : String → Except String Int
  known : String → Bool
  buildConfidentialEvent : String → EventAt → (addr : Nat → Except String String) →
    (data : ScVal) → Except String (ConfidentialEvent C)

/-- `row.topic ?? row.topics ?? []`, as far as it has a length or a map. -/
def rawTopics (row : EventJson) : Except String (List Json) :=
  match row.topic with
  | .null => .ok []
  | .str "" => .ok []
  | .arr items => .ok items
  | _ => .error "rawTopics.map is not a function"

/-- A topic as a string, or wrapped in `xdr`. -/
def b64 : Json → Except String String
  | .str s => .ok s
  | v =>
      match v.get? "xdr" with
      | some (.str s) => .ok s
      | _ => .error "XDR Read Error"

def symbolOf : Option ScVal → Except String String
  | some (.sym s) => .ok s
  | _ => .error "sym not set"

/-- `Address.fromScVal(_).toString()`. -/
def addressOf : Option ScVal → Except String String
  | some (.addr s) => .ok s
  | _ => .error "Unsupported address type"

/-- `parseRawEvent`. Names the SDK does not know are skipped. Of the
paging token only what can fail is here. -/
def parseRawEvent (dec : EventDecoder C) (row : EventJson) :
    Except String (Option (ConfidentialEvent C)) := do
  let raw ← rawTopics row
  if raw.isEmpty then .ok none
  else do
    let topics ← raw.mapM fun v => b64 v >>= dec.fromXDR
    let name ← symbolOf topics[0]?
    if dec.known name then do
      let _ ← dec.bigInt (String.ofList (Text.cut ['-'] row.id.toList).1)
      let data ← dec.fromXDR row.value
      let base : EventAt :=
        { ledger := row.ledger
          txHash := row.txHash.getD ""
          ledgerClosedAt := row.ledgerClosedAt }
      let e ← dec.buildConfidentialEvent name base (fun i => addressOf topics[i]?) data
      .ok (some e)
    else .ok none

/-- The rows of all pages, in order. -/
def parseRows (dec : EventDecoder C) (rows : List EventJson) :
    Except String (List (ConfidentialEvent C)) :=
  (rows.mapM (parseRawEvent dec)).map List.reduceOption

/-- What is relied on: the library decodes what is encoded, transfers are
known, and an event has the type and base it was built with and the
parties its topics name. -/
structure EventDecoder.Lawful (dec : EventDecoder C) : Prop where
  fromXDR_text : ∀ v : XdrVal, v.encode.length < 2 ^ 31 → dec.fromXDR v.text = .ok v.value
  known_transfer : dec.known "transfer" = true
  built : ∀ {name base addr data e}, dec.buildConfidentialEvent name base addr data = .ok e →
    e.type = name ∧ e.info = base
  parties : ∀ {name base addr data info sender recipient c},
    dec.buildConfidentialEvent name base addr data = .ok (.transfer info sender recipient c) →
    addr 1 = .ok sender ∧ addr 2 = .ok recipient

/-! ## What came into the goal -/

/-- The transaction of a transfer into the goal. -/
def ConfidentialEvent.aporteTx (goal : String) : ConfidentialEvent C → Option String
  | .transfer info _ recipient _ => if recipient = goal then some info.txHash else none
  | _ => none

/-- The transaction of a deposit into the goal. -/
def ConfidentialEvent.depositTx (goal : String) : ConfidentialEvent C → Option String
  | .deposit info _ recipient _ => if recipient = goal then some info.txHash else none
  | _ => none

/-- The transactions among the contributions of one kind. -/
def txsOf (kind : String) (rows : List TimelineRow) : List String :=
  (rows.filter fun c => c.kind = kind).map fun c => c.info.txHash

/-- An opened amount is marked as decrypted, a public one is not. -/
def TimelineRow.Marked (c : TimelineRow) : Prop :=
  (c.kind = "aporte" ∧ c.decrypted = some true) ∨
    (c.kind = "deposit" ∧ c.decrypted = some false)

section Replay

variable [AddMonoid R] [Add P] {sdk : Sdk R P C} {k1 : Int} {goal : String}

/-- An event lists what it brings into the goal, once. -/
theorem replayStep_contributions {st st' : Replay R} {e : ConfidentialEvent C}
    (h : replayStep sdk k1 goal st e = .ok st') :
    txsOf "aporte" st'.contributions
        = txsOf "aporte" st.contributions ++ (e.aporteTx goal).toList ∧
      txsOf "deposit" st'.contributions
        = txsOf "deposit" st.contributions ++ (e.depositTx goal).toList ∧
      st'.contributions.length = st.contributions.length
        + (e.aporteTx goal).toList.length + (e.depositTx goal).toList.length := by
  cases e with
  | register info account =>
      obtain rfl := Except.ok.inj h
      simp [ConfidentialEvent.aporteTx, ConfidentialEvent.depositTx]
  | deposit info sender recipient amount =>
      simp only [replayStep] at h
      split at h <;> obtain rfl := Except.ok.inj h <;>
        simp_all [ConfidentialEvent.aporteTx, ConfidentialEvent.depositTx, txsOf]
  | merge info account =>
      simp only [replayStep] at h
      split at h <;> obtain rfl := Except.ok.inj h <;>
        simp [ConfidentialEvent.aporteTx, ConfidentialEvent.depositTx]
  | transfer info sender recipient data =>
      simp only [replayStep] at h
      split at h
      · obtain ⟨opened, -, h⟩ := Fallible.bind_eq_ok.mp h
        obtain rfl := Except.ok.inj h
        simp_all [ConfidentialEvent.aporteTx, ConfidentialEvent.depositTx, txsOf]
      · split at h
        · obtain ⟨snd, -, h⟩ := Fallible.bind_eq_ok.mp h
          obtain rfl := Except.ok.inj h
          simp_all [ConfidentialEvent.aporteTx, ConfidentialEvent.depositTx]
        · obtain rfl := Except.ok.inj h
          simp_all [ConfidentialEvent.aporteTx, ConfidentialEvent.depositTx]
  | withdraw info sender recipient amount data =>
      simp only [replayStep] at h
      split at h
      · obtain ⟨left, -, h⟩ := Fallible.bind_eq_ok.mp h
        obtain rfl := Except.ok.inj h
        simp [ConfidentialEvent.aporteTx, ConfidentialEvent.depositTx]
      · obtain rfl := Except.ok.inj h
        simp [ConfidentialEvent.aporteTx, ConfidentialEvent.depositTx]

theorem replayStep_marked {st st' : Replay R} {e : ConfidentialEvent C}
    (h : replayStep sdk k1 goal st e = .ok st') (hst : ∀ c ∈ st.contributions, c.Marked) :
    ∀ c ∈ st'.contributions, c.Marked := by
  have happend : ∀ c : TimelineRow, c.Marked →
      ∀ c' ∈ st.contributions ++ [c], c'.Marked := by
    intro c hc c' hmem
    rcases List.mem_append.mp hmem with hmem | hmem
    · exact hst c' hmem
    · rwa [List.mem_singleton.mp hmem]
  cases e with
  | register info account =>
      obtain rfl := Except.ok.inj h
      exact hst
  | deposit info sender recipient amount =>
      simp only [replayStep] at h
      split at h <;> obtain rfl := Except.ok.inj h
      · exact happend _ (.inr ⟨rfl, rfl⟩)
      · exact hst
  | merge info account =>
      simp only [replayStep] at h
      split at h <;> obtain rfl := Except.ok.inj h
      · exact hst
      · exact hst
  | transfer info sender recipient data =>
      simp only [replayStep] at h
      split at h
      · obtain ⟨opened, -, h⟩ := Fallible.bind_eq_ok.mp h
        obtain rfl := Except.ok.inj h
        exact happend _ (.inl ⟨rfl, rfl⟩)
      · split at h
        · obtain ⟨snd, -, h⟩ := Fallible.bind_eq_ok.mp h
          obtain rfl := Except.ok.inj h
          exact hst
        · obtain rfl := Except.ok.inj h
          exact hst
  | withdraw info sender recipient amount data =>
      simp only [replayStep] at h
      split at h
      · obtain ⟨left, -, h⟩ := Fallible.bind_eq_ok.mp h
        obtain rfl := Except.ok.inj h
        exact hst
      · obtain rfl := Except.ok.inj h
        exact hst

theorem foldlM_marked {st st' : Replay R} {events : List (ConfidentialEvent C)}
    (h : events.foldlM (replayStep sdk k1 goal) st = .ok st')
    (hst : ∀ c ∈ st.contributions, c.Marked) : ∀ c ∈ st'.contributions, c.Marked := by
  induction events generalizing st with
  | nil =>
      obtain rfl := Except.ok.inj h
      exact hst
  | cons e events ih =>
      rw [List.foldlM_cons] at h
      obtain ⟨st₁, hstep, hrest⟩ := Fallible.bind_eq_ok.mp h
      exact ih hrest (replayStep_marked hstep hst)

theorem foldlM_contributions {st st' : Replay R} {events : List (ConfidentialEvent C)}
    (h : events.foldlM (replayStep sdk k1 goal) st = .ok st') :
    txsOf "aporte" st'.contributions
        = txsOf "aporte" st.contributions ++ events.filterMap (·.aporteTx goal) ∧
      txsOf "deposit" st'.contributions
        = txsOf "deposit" st.contributions ++ events.filterMap (·.depositTx goal) ∧
      st'.contributions.length = st.contributions.length
        + (events.filterMap (·.aporteTx goal)).length
        + (events.filterMap (·.depositTx goal)).length := by
  induction events generalizing st with
  | nil =>
      obtain rfl := Except.ok.inj h
      simp
  | cons e events ih =>
      rw [List.foldlM_cons] at h
      obtain ⟨st₁, hstep, hrest⟩ := Fallible.bind_eq_ok.mp h
      obtain ⟨haporte, hdeposit, hlen⟩ := replayStep_contributions hstep
      obtain ⟨haportes, hdeposits, hlens⟩ := ih hrest
      refine ⟨?_, ?_, ?_⟩
      · rw [haportes, haporte, List.append_assoc]
        cases he : e.aporteTx goal <;> simp [he]
      · rw [hdeposits, hdeposit, List.append_assoc]
        cases he : e.depositTx goal <;> simp [he]
      · rw [hlens, hlen]
        cases ha : e.aporteTx goal <;> cases hd : e.depositTx goal <;> simp [ha, hd] <;> omega

theorem goalTotal_contributions {p : GoalTotalParams} {a : TotalAnswers P C} {g : GoalTotal}
    (read : EventsRead C) (h : goalTotal sdk p a = .ok g) (hread : a.events = .ok read) :
    ∃ st, replay sdk p.viewKeySecret p.goalAccount read.events = .ok st ∧
      g.contributions = st.contributions := by
  obtain ⟨⟨g', last⟩, hrun, rfl⟩ : ∃ x, goalTotalRun sdk p a = .ok x ∧ x.1 = g := by
    unfold goalTotal at h
    cases hrun : goalTotalRun sdk p a with
    | error e => rw [hrun] at h; cases h
    | ok x => rw [hrun] at h; exact ⟨x, rfl, Except.ok.inj h⟩
  obtain ⟨fromLedger, -, hrun⟩ := Fallible.bind_eq_ok.mp hrun
  obtain ⟨goalMetaRead, -, hrun⟩ := Fallible.bind_eq_ok.mp hrun
  obtain ⟨account, -, hrun⟩ := Fallible.bind_eq_ok.mp hrun
  obtain ⟨registry, -, hrun⟩ := Fallible.bind_eq_ok.mp hrun
  obtain ⟨read', hread', hrun⟩ := Fallible.bind_eq_ok.mp hrun
  cases hread.symm.trans hread'
  obtain ⟨st, hst, hrun⟩ := Fallible.bind_eq_ok.mp hrun
  split at hrun
  · cases hrun
  · obtain ⟨last', -, hrun⟩ := Fallible.bind_eq_ok.mp hrun
    obtain ⟨ledger, -, hrun⟩ := Fallible.bind_eq_ok.mp hrun
    obtain ⟨rfl, -⟩ := Prod.mk.inj (Except.ok.inj hrun)
    exact ⟨st, hst, rfl⟩

end Replay

/-! ## What the timeline keeps of a row -/

open GoalTimeline TimelineMapper

/-- The transaction of a row that is kept as a contribution. -/
def TimelineEntry.contributionTx (req : Request) (entry : Option TimelineEntry) :
    Option (Option String) :=
  ((entry.filter (keepsCt req)).bind TimelineEntry.asContribution).map fun c => c.info.txHash

theorem contributionTxs (req : Request) (entries : List (Option TimelineEntry)) :
    ((entries.reduceOption.filter (keepsCt req)).filterMap TimelineEntry.asContribution).map
        (fun c => c.info.txHash)
      = entries.filterMap (TimelineEntry.contributionTx req) := by
  induction entries with
  | nil => rfl
  | cons entry entries ih =>
      cases entry with
      | none =>
          rw [List.reduceOption_cons_of_none, ih]
          rfl
      | some e =>
          rw [List.reduceOption_cons_of_some, List.filter_cons, List.filterMap_cons, ← ih]
          cases hkept : keepsCt req e with
          | false => simp [TimelineEntry.contributionTx, Option.filter, hkept]
          | true =>
              cases hc : e.asContribution with
              | none => simp [TimelineEntry.contributionTx, Option.filter, hkept, hc]
              | some c => simp [TimelineEntry.contributionTx, Option.filter, hkept, hc]

theorem contributionTx_of_not {req : Request} {e : TimelineEntry} (h : e.asContribution = none) :
    TimelineEntry.contributionTx req (some e) = none := by
  unfold TimelineEntry.contributionTx
  cases hkept : keepsCt req e with
  | false => rw [Option.filter_some_neg (by simp [hkept])]; rfl
  | true => rw [Option.filter_some_pos hkept, Option.bind_some, h]; rfl

/-- Only a transfer becomes a contribution. -/
theorem contributionTx_of_ne {req : Request} {goalAccount : String} {e : EventRecord}
    {topics : List ScVal} {head : String} {value : Option ScVal} (h : head ≠ "transfer") :
    TimelineEntry.contributionTx req (entryOf goalAccount e topics head value) = none := by
  unfold entryOf
  split
  · exact absurd rfl h
  · cases addressAt topics 1 with
    | none => rfl
    | some account => exact contributionTx_of_not rfl
  · cases addressAt topics 1 with
    | none => rfl
    | some account => exact contributionTx_of_not rfl
  · cases addressAt topics 1 <;> cases addressAt topics 2 <;> rfl
  · split
    · cases topics[2]?.bind ScVal.asU32 <;> rfl
    · cases topics[2]?.bind ScVal.asU32 <;> rfl
    · rfl
  · split
    · cases configSetting _ <;> rfl
    · rfl

theorem contributionTx_transfer {req : Request} {goalAccount sender recipient : String}
    {e : EventRecord} {topics : List ScVal} {value : Option ScVal}
    (hs : addressAt topics 1 = some sender) (hr : addressAt topics 2 = some recipient) :
    TimelineEntry.contributionTx req (entryOf goalAccount e topics "transfer" value)
      = if recipient = req.goalAccount then some e.txHash else none := by
  unfold entryOf
  simp only [hs, hr, Option.bind_eq_bind, Option.bind_some]
  by_cases h : recipient = req.goalAccount
  · simp [TimelineEntry.contributionTx, Option.filter, keepsCt, TimelineEntry.asContribution, h,
      infoOf]
  · simp [TimelineEntry.contributionTx, Option.filter, keepsCt, h]

/-! ## One row, both views -/

/-- A row as a source serves a wrapper event: it has a transaction, and
its topics are encoded values. -/
structure ServedRow (row : EventJson) : Prop where
  ledger : IsI64 row.ledger
  txHash : ∃ h, row.txHash = some h ∧ h ≠ ""
  topics : ∃ vs : List XdrVal, row.topic = .arr ((vs.map XdrVal.text).map Json.str) ∧
    ∀ v ∈ vs, v.encode.length < 2 ^ 31

variable {lib : OrgJson} {dec : EventDecoder C} {lossy : List UInt8 → String}

theorem fromXDR_texts (hdec : dec.Lawful) {vs : List XdrVal}
    (h : ∀ v ∈ vs, v.encode.length < 2 ^ 31) :
    ((vs.map XdrVal.text).map Json.str).mapM (fun v => b64 v >>= dec.fromXDR)
      = .ok (vs.map XdrVal.value) := by
  rw [Fallible.mapM_map, Fallible.mapM_map]
  exact Fallible.mapM_eq_ok fun v hv => hdec.fromXDR_text v (h v hv)

/-- What the client's record says of a served row. -/
theorem record_served (lib : OrgJson) {row : EventJson} {vs : List XdrVal}
    (hledger : IsI64 row.ledger) (htopic : row.topic = .arr ((vs.map XdrVal.text).map Json.str))
    (hsize : ∀ v ∈ vs, v.encode.length < 2 ^ 31) :
    (row.record lib).topics = vs.map XdrVal.text ∧
      (row.record lib).txHash = readColumn row.txHash := by
  have hne : ∀ t ∈ vs.map XdrVal.text, t ≠ "" := by
    intro t ht
    obtain ⟨v, hv, rfl⟩ := List.mem_map.mp ht
    exact text_ne_empty (hsize v hv)
  rw [record_eq lib hledger htopic hne]
  exact ⟨rfl, rfl⟩

theorem addressOf_eq_ok {v : Option ScVal} {s : String} (h : addressOf v = .ok s) :
    v.bind ScVal.asAddress = some s := by
  unfold addressOf at h
  split at h
  · cases h
    rfl
  · cases h

theorem symbolOf_eq_ok {v : Option ScVal} {s : String} (h : symbolOf v = .ok s) :
    v.bind ScVal.asSymbol = some s := by
  unfold symbolOf at h
  split at h
  · cases h
    rfl
  · cases h

/-- What the shim does with the topics of a row. -/
theorem parseRawEvent_eq_ok (hdec : dec.Lawful) {row : EventJson} {vs : List XdrVal}
    {o : Option (ConfidentialEvent C)}
    (htopic : row.topic = .arr ((vs.map XdrVal.text).map Json.str))
    (hsize : ∀ v ∈ vs, v.encode.length < 2 ^ 31) (h : parseRawEvent dec row = .ok o) :
    (vs = [] ∧ o = none) ∨
      ∃ name, (vs.map XdrVal.value).head?.bind ScVal.asSymbol = some name ∧
        ((dec.known name = false ∧ o = none) ∨
          ∃ data e, dec.buildConfidentialEvent name
              { ledger := row.ledger, txHash := row.txHash.getD ""
                ledgerClosedAt := row.ledgerClosedAt }
              (fun i => addressOf (vs.map XdrVal.value)[i]?) data = .ok e ∧ o = some e) := by
  have hraw : rawTopics row = .ok ((vs.map XdrVal.text).map Json.str) := by
    rw [rawTopics, htopic]
  unfold parseRawEvent at h
  rw [hraw, Fallible.ok_bind] at h
  cases vs with
  | nil => exact .inl ⟨rfl, (Except.ok.inj h).symm⟩
  | cons v vs =>
      refine .inr ?_
      rw [fromXDR_texts hdec hsize, Fallible.ok_bind] at h
      obtain ⟨name, hname, h⟩ := Fallible.bind_eq_ok.mp h
      refine ⟨name, symbolOf_eq_ok hname, ?_⟩
      split at h
      · obtain ⟨opIndex, -, h⟩ := Fallible.bind_eq_ok.mp h
        obtain ⟨data, -, h⟩ := Fallible.bind_eq_ok.mp h
        obtain ⟨e, he, h⟩ := Fallible.bind_eq_ok.mp h
        exact .inr ⟨data, e, he, (Except.ok.inj h).symm⟩
      · rename_i hunknown
        exact .inl ⟨by simpa using hunknown, (Except.ok.inj h).symm⟩

/-- An event of another type brings no contribution. -/
theorem aporteTx_of_type {e : ConfidentialEvent C} {goal : String} (h : e.type ≠ "transfer") :
    e.aporteTx goal = none := by
  cases e with
  | transfer info sender recipient data => exact absurd rfl h
  | _ => rfl

/-- **Both views find the same contribution in a row, or none.** The cases
are the shim's: a row without topics, a name it skips, a transfer, another
name. -/
theorem row_agrees (req : Request) (hdec : dec.Lawful) {row : EventJson} (hrow : ServedRow row)
    {o : Option (ConfidentialEvent C)} {entry : Option TimelineEntry}
    (hshim : parseRawEvent dec row = .ok o)
    (hmap : TimelineMapper.map lossy req.goalAccount (row.record lib) = .ok entry) :
    TimelineEntry.contributionTx req entry
      = (o.bind fun e => e.aporteTx req.goalAccount).map some := by
  obtain ⟨hledger, ⟨tx, htx, hne⟩, vs, htopic, hsize⟩ := hrow
  obtain ⟨htopics, hhash⟩ := record_served lib hledger htopic hsize
  have hrecordTx : (row.record lib).txHash = some tx := by
    rw [hhash, htx]
    exact if_neg hne
  unfold TimelineMapper.map at hmap
  rw [htopics, decodeTopics_texts lossy hsize, Fallible.ok_bind] at hmap
  rcases parseRawEvent_eq_ok hdec htopic hsize hshim with
    ⟨rfl, rfl⟩ | ⟨name, hname, hcases⟩
  · cases hmap
    rfl
  · rw [hname] at hmap
    obtain ⟨value, -, hmap⟩ := Fallible.bind_eq_ok.mp hmap
    cases hmap
    rcases hcases with ⟨hunknown, rfl⟩ | ⟨data, e, he, rfl⟩
    · have hother : name ≠ "transfer" := by
        rintro rfl
        rw [hdec.known_transfer] at hunknown
        cases hunknown
      rw [contributionTx_of_ne hother]
      rfl
    · by_cases hkind : name = "transfer"
      · subst hkind
        cases e with
        | transfer info sender recipient c =>
            obtain ⟨hsender, hrecipient⟩ := hdec.parties he
            have hinfo : info.txHash = tx := by
              rw [show info = _ from (hdec.built he).2, htx]
              rfl
            rw [contributionTx_transfer (addressOf_eq_ok hsender) (addressOf_eq_ok hrecipient),
              hrecordTx, Option.bind_some, ConfidentialEvent.aporteTx, hinfo]
            split <;> rfl
        | _ => exact absurd (hdec.built he).1 (by simp [ConfidentialEvent.type])
      · have htype : e.type ≠ "transfer" := by
          rw [(hdec.built he).1]
          exact hkind
        rw [contributionTx_of_ne hkind, Option.bind_some, aporteTx_of_type htype]
        rfl

/-! ## The two counts -/

/-- The contributions of a timeline are those of the wrapper's rows. -/
theorem contributions_perm {ct goalMeta : List EventRecord} {req : Request} {t : GoalTimeline}
    (h : build lossy ct goalMeta req = .ok t) :
    ∃ entries, ct.mapM (TimelineMapper.map lossy req.goalAccount) = .ok entries ∧
      (t.contributions.map fun c => c.info.txHash).Perm
        (entries.filterMap (TimelineEntry.contributionTx req)) := by
  obtain ⟨rows, hrows, h⟩ := Fallible.bind_eq_ok.mp h
  obtain ⟨metaRows, -, h⟩ := Fallible.bind_eq_ok.mp h
  cases h
  obtain ⟨entries, hentries, hrows⟩ := Fallible.bind_eq_ok.mp hrows
  cases hrows
  refine ⟨entries, hentries, ?_⟩
  have hnone : (metaRows.filter (keepsMeta req)).filterMap TimelineEntry.asContribution = [] := by
    refine List.filterMap_eq_nil_iff.mpr fun e he => ?_
    have hkept := (List.mem_filter.mp he).2
    cases e with
    | contribution c => cases hkept
    | _ => rfl
  rw [← contributionTxs]
  refine List.Perm.map _ ?_
  refine (Keyset.orderBy_perm.filterMap TimelineEntry.asContribution).trans ?_
  rw [List.filterMap_append, hnone, List.append_nil]
  exact (Keyset.orderBy_perm.filter (keepsCt req)).filterMap TimelineEntry.asContribution

/-- The timeline's contributions are the transfers into the goal the shim
decoded. -/
theorem contributions_aporteTx (hdec : dec.Lawful) {rows : List EventJson}
    (hrows : ∀ row ∈ rows, ServedRow row) {events : List (ConfidentialEvent C)}
    (hread : parseRows dec rows = .ok events) {goalMeta : List EventRecord} {req : Request}
    {t : GoalTimeline}
    (ht : build lossy (rows.map (EventJson.record lib)) goalMeta req = .ok t) :
    (t.contributions.map fun c => c.info.txHash).Perm
      ((events.filterMap fun e => e.aporteTx req.goalAccount).map some) := by
  obtain ⟨entries, hentries, hperm⟩ := contributions_perm ht
  obtain ⟨os, hos, hreduce⟩ : ∃ os, rows.mapM (parseRawEvent dec) = .ok os ∧
      os.reduceOption = events := by
    unfold parseRows at hread
    cases hos : rows.mapM (parseRawEvent dec) with
    | error e => rw [hos] at hread; cases hread
    | ok os => rw [hos] at hread; exact ⟨os, rfl, Except.ok.inj hread⟩
  rw [Fallible.mapM_map] at hentries
  have hmap := Fallible.map_eq_of_mapM hentries hos fun row hrow entry o hentry ho =>
    row_agrees req hdec (hrows row hrow) ho hentry
  have hreduced := congrArg List.reduceOption hmap
  simp only [List.reduceOption, List.filterMap_map] at hreduced
  have hsame : entries.filterMap (TimelineEntry.contributionTx req)
      = (events.filterMap fun e => e.aporteTx req.goalAccount).map some := by
    rw [← hreduce, List.reduceOption, List.filterMap_filterMap, List.map_filterMap]
    refine Eq.trans hreduced (List.filterMap_congr fun o _ => ?_)
    cases o <;> rfl
  rwa [hsame] at hperm

/-- **The aportes of the shim are the contributions of the timeline.** In
number and transactions, for the same goal account; what else the shim
lists are the deposits into the goal, not decrypted, which the timeline
drops. -/
theorem aportes_agree [AddMonoid R] [Add P] (lib : OrgJson) (lossy : List UInt8 → String)
    (dec : EventDecoder C) (sdk : Sdk R P C) (hdec : dec.Lawful) (rows : List EventJson)
    (hrows : ∀ row ∈ rows, ServedRow row) (p : GoalTotalParams) (a : TotalAnswers P C)
    (read : EventsRead C) (hevents : a.events = .ok read)
    (hread : parseRows dec rows = .ok read.events) (g : GoalTotal) (hg : goalTotal sdk p a = .ok g)
    (goalMeta : List EventRecord) (req : Request) (hreq : req.goalAccount = p.goalAccount)
    (t : GoalTimeline)
    (ht : build lossy (rows.map (EventJson.record lib)) goalMeta req = .ok t) :
    t.contributionCount = (txsOf "aporte" g.contributions).length ∧
      (t.contributions.map fun c => c.info.txHash).Perm
        ((txsOf "aporte" g.contributions).map some) ∧
      txsOf "deposit" g.contributions
        = read.events.filterMap (fun e => e.depositTx p.goalAccount) ∧
      g.contributions.length = t.contributionCount
        + (read.events.filterMap fun e => e.depositTx p.goalAccount).length ∧
      ∀ c ∈ g.contributions, c.Marked := by
  obtain ⟨st, hst, hcontributions⟩ := goalTotal_contributions read hg hevents
  obtain ⟨haportes, hdeposits, hlen⟩ := foldlM_contributions hst
  have haporte : txsOf "aporte" g.contributions
      = read.events.filterMap fun e => e.aporteTx p.goalAccount := by
    rw [hcontributions, haportes]
    rfl
  have hperm := contributions_aporteTx hdec hrows hread ht
  rw [hreq, ← haporte] at hperm
  have hcount : t.contributionCount = (txsOf "aporte" g.contributions).length := by
    have hlength := hperm.length_eq
    rwa [List.length_map, List.length_map] at hlength
  refine ⟨hcount, hperm, ?_, ?_, ?_⟩
  · rw [hcontributions, hdeposits]
    rfl
  · rw [hcount, haporte, hcontributions, hlen]
    exact congrArg (· + _) (Nat.zero_add _)
  · rw [hcontributions]
    exact foldlM_marked hst (List.forall_mem_nil _)

/-! ## A transfer and a deposit -/

def payerKey : Vector UInt8 32 := .replicate 32 9

def goalKey : Vector UInt8 32 := .replicate 32 7

def goalStrkey : String := strKey accountVersion goalKey.toList

def paymentData : XdrVal := .map (some [(.symbol "amount", .i128 5)])

/-- A row with the two parties after its name, and an amount. -/
def paymentRow (name : String) : EventJson :=
  { type := "contract"
    id := "0016965675500376064-0000000001"
    contractId := CtConfig.token
    ledger := 3950129
    txHash := some "58363138"
    inSuccessfulContractCall := true
    topic := .arr
      (([.symbol name, .account payerKey, .account goalKey].map XdrVal.text).map Json.str)
    value := paymentData.text
    ledgerClosedAt := none }

/-- A decoder for events in the clear. -/
def clearDecoder : EventDecoder (Int × Int × Int) where
  fromXDR s :=
    match ScVal.decode (fun _ => "") s with
    | .ok v => .ok v
    | .error _ => .error "XDR Read Error"
  bigInt s := .ok (Text.digitsValue s.toList)
  known name := ["register", "deposit", "merge", "transfer", "withdraw"].contains name
  buildConfidentialEvent name base addr data := do
    let amount := ((data.mapField "amount").bind ScVal.asBigInteger).getD 0
    let sender ← addr 1
    let recipient ← addr 2
    if name = "deposit" then .ok (.deposit base sender recipient amount)
    else if name = "transfer" then .ok (.transfer base sender recipient (amount, 0, 0))
    else .error "not a payment"

theorem clearDecoder_lawful : clearDecoder.Lawful where
  fromXDR_text v hlen := by
    have hdecode := decode_of_reads (fun _ => "") (reads_scVal (fun _ => "") _ v le_rfl hlen)
    simp only [clearDecoder, XdrVal.text, hdecode]
  known_transfer := rfl
  built h := by
    obtain ⟨sender, -, h⟩ := Fallible.bind_eq_ok.mp h
    obtain ⟨recipient, -, h⟩ := Fallible.bind_eq_ok.mp h
    split at h
    · cases h
      exact ⟨by simp [ConfidentialEvent.type, *], rfl⟩
    · split at h
      · cases h
        exact ⟨by simp [ConfidentialEvent.type, *], rfl⟩
      · cases h
  parties h := by
    obtain ⟨sender, hs, h⟩ := Fallible.bind_eq_ok.mp h
    obtain ⟨recipient, hr, h⟩ := Fallible.bind_eq_ok.mp h
    split at h
    · cases h
    · split at h
      · cases h
        exact ⟨hs, hr⟩
      · cases h

theorem paymentRow_size {name : String} (h : (XdrVal.symbol name).encode.length < 2 ^ 31) :
    ∀ v ∈ [XdrVal.symbol name, .account payerKey, .account goalKey],
      v.encode.length < 2 ^ 31 := by
  intro v hv
  simp only [List.mem_cons, List.not_mem_nil, or_false] at hv
  rcases hv with rfl | rfl | rfl
  · exact h
  · decide
  · decide

theorem paymentRow_served {name : String} (h : (XdrVal.symbol name).encode.length < 2 ^ 31) :
    ServedRow (paymentRow name) where
  ledger := ⟨by simp [paymentRow], by simp [paymentRow]⟩
  txHash := ⟨_, rfl, by decide⟩
  topics := ⟨_, rfl, paymentRow_size h⟩

/-- What the decoder makes of a payment row, wherever it is in the log. -/
theorem parse_paymentRow_at (name id : String) (ledger : Int)
    {e : ConfidentialEvent (Int × Int × Int)}
    (h : (XdrVal.symbol name).encode.length < 2 ^ 31) (hknown : clearDecoder.known name = true)
    (hbuild : clearDecoder.buildConfidentialEvent name
      { ledger := ledger, txHash := "58363138", ledgerClosedAt := none }
      (fun i => addressOf
        ([XdrVal.symbol name, .account payerKey, .account goalKey].map XdrVal.value)[i]?)
      paymentData.value = .ok e) :
    parseRawEvent clearDecoder { paymentRow name with id := id, ledger := ledger }
      = .ok (some e) := by
  have hraw : rawTopics { paymentRow name with id := id, ledger := ledger }
      = .ok (([XdrVal.symbol name, .account payerKey, .account goalKey].map XdrVal.text).map
        Json.str) := rfl
  have hdata : clearDecoder.fromXDR paymentData.text = .ok paymentData.value :=
    clearDecoder_lawful.fromXDR_text paymentData (by decide)
  have hvalue : (paymentRow name).value = paymentData.text := rfl
  have hname : symbolOf ([XdrVal.symbol name, .account payerKey, .account goalKey].map
      XdrVal.value)[0]? = .ok name := by
    simp [XdrVal.value, symbolOf]
  unfold parseRawEvent
  rw [hraw, Fallible.ok_bind, if_neg (by simp),
    fromXDR_texts clearDecoder_lawful (paymentRow_size h), Fallible.ok_bind, hname,
    Fallible.ok_bind, if_pos hknown, hvalue, hdata]
  exact congrArg (· >>= fun e => Except.ok (some e)) hbuild

theorem parse_paymentRow (name : String) {e : ConfidentialEvent (Int × Int × Int)}
    (h : (XdrVal.symbol name).encode.length < 2 ^ 31) (hknown : clearDecoder.known name = true)
    (hbuild : clearDecoder.buildConfidentialEvent name
      { ledger := 3950129, txHash := "58363138", ledgerClosedAt := none }
      (fun i => addressOf
        ([XdrVal.symbol name, .account payerKey, .account goalKey].map XdrVal.value)[i]?)
      paymentData.value = .ok e) :
    parseRawEvent clearDecoder (paymentRow name) = .ok (some e) :=
  parse_paymentRow_at name "0016965675500376064-0000000001" 3950129 h hknown hbuild

def paymentInfo : EventAt :=
  { ledger := 3950129, txHash := "58363138", ledgerClosedAt := none }

/-- What the source serves: a transfer into the goal and a deposit into
it. -/
def payments (payer goal : String) : List (ConfidentialEvent (Int × Int × Int)) :=
  [.transfer paymentInfo payer goal (5, 0, 0), .deposit paymentInfo payer goal 5]

theorem parse_payments :
    parseRows clearDecoder (["transfer", "deposit"].map paymentRow)
      = .ok (payments (strKey accountVersion payerKey.toList) goalStrkey) := by
  have htransfer := parse_paymentRow "transfer" (by decide) rfl (e := .transfer paymentInfo
    (strKey accountVersion payerKey.toList) goalStrkey (5, 0, 0)) (by
      simp [clearDecoder, addressOf, XdrVal.value, paymentData, XdrVal.entryValues,
        ScVal.mapField, ScVal.asSymbol, ScVal.asBigInteger, paymentInfo, goalStrkey])
  have hdeposit := parse_paymentRow "deposit" (by decide) rfl (e := .deposit paymentInfo
    (strKey accountVersion payerKey.toList) goalStrkey 5) (by
      simp [clearDecoder, addressOf, XdrVal.value, paymentData, XdrVal.entryValues,
        ScVal.mapField, ScVal.asSymbol, ScVal.asBigInteger, paymentInfo, goalStrkey])
  simp only [parseRows, List.map_cons, List.map_nil, Fallible.mapM_cons, Fallible.mapM_nil,
    htransfer, hdeposit, Fallible.ok_bind]
  rfl

theorem payments_total (payer goal : String) :
    ∃ g, goalTotal clearSdk { paramsG with goalAccount := goal }
      (answersG (payments payer goal) (0, 0) (10, 0)) = .ok g := by
  obtain ⟨st, hst, hst'⟩ : ∃ st, replay clearSdk 1 goal (payments payer goal) = .ok st ∧
      st.spendableProvable = true ∧ st.timeline ≠ [] ∧ st.spendV = 0 ∧ st.spendR = 0 ∧
        st.recvV = 10 ∧ st.recvR = 0 := by
    simp [replay, payments, replayStep, clearSdk, Replay.start, bind, Except.bind]
    exact ⟨_, rfl, rfl, List.cons_ne_nil _ _, rfl, rfl, rfl, rfl⟩
  obtain ⟨hprovable, htimeline, hspendV, hspendR, hrecvV, hrecvR⟩ := hst'
  have hspend : spendOk clearSdk st ⟨0, (0, 0), (10, 0)⟩ = true := by
    simp [spendOk, hprovable, hspendV, hspendR, samePoint, clearSdk]
  have hrecv : recvOk clearSdk st ⟨0, (0, 0), (10, 0)⟩ = true := by
    simp [recvOk, hrecvV, hrecvR, samePoint, clearSdk]
  have hlast : settle clearSdk st ⟨0, (0, 0), (10, 0)⟩
      (answersG (payments payer goal) (0, 0) (10, 0)).balanceAgain
        = .ok ⟨⟨0, (0, 0), (10, 0)⟩, false⟩ := by
    simp [settle, hspend, hrecv]
  obtain ⟨g, hg, -⟩ := goalTotal_of_parts
    (p := { paramsG with goalAccount := goal }) ⟨⟨1, rfl, by decide⟩, ⟨5, rfl⟩⟩
    ⟨fun h => absurd rfl h, fun h => absurd rfl h⟩ (fun h => absurd rfl h) rfl rfl hst htimeline
    hlast fun stale => commitChecks_passed.mpr ⟨fun _ => hspend, hrecv⟩
  exact ⟨g, hg⟩

theorem paymentRow_legible {name : String} (h : (XdrVal.symbol name).encode.length < 2 ^ 31) :
    (∀ t ∈ ((paymentRow name).record lib).topics, Legible lossy t) ∧
      ((paymentRow name).record lib).LegibleValue lossy := by
  have hserved := paymentRow_served h
  have hsize := paymentRow_size h
  constructor
  · rw [(record_served lib hserved.ledger rfl hsize).1]
    intro t ht
    obtain ⟨v, hv, rfl⟩ := List.mem_map.mp ht
    exact .of_text v (hsize v hv)
  · intro xdr hxdr
    have hvalue : ((paymentRow name).record lib).valueXdr = ifEmptyNull paymentData.text := rfl
    rw [hvalue, ifEmptyNull] at hxdr
    split at hxdr
    · cases hxdr
    · cases hxdr
      exact .of_text paymentData (by decide)

/-- The timeline of the rows with these names. -/
theorem payments_timeline (lossy : List UInt8 → String) (lib : OrgJson) {names : List String}
    (h : ∀ name ∈ names, (XdrVal.symbol name).encode.length < 2 ^ 31) (req : Request) :
    ∃ t, build lossy ((names.map paymentRow).map (EventJson.record lib)) [] req = .ok t := by
  have hall : ∀ e ∈ (names.map paymentRow).map (EventJson.record lib),
      (∀ t ∈ e.topics, Legible lossy t) ∧ e.LegibleValue lossy := by
    intro e he
    obtain ⟨row, hrow, rfl⟩ := List.mem_map.mp he
    obtain ⟨name, hname, rfl⟩ := List.mem_map.mp hrow
    exact paymentRow_legible (h name hname)
  refine build_of_legible ?_ ?_
  · intro e he
    exact (hall e (by simpa using he)).1
  · intro e he
    exact (hall e (by simpa using he)).2

theorem payments_sizes : ∀ name ∈ ["transfer", "deposit"],
    (XdrVal.symbol name).encode.length < 2 ^ 31 := by
  decide

theorem payments_served : ∀ row ∈ ["transfer", "deposit"].map paymentRow, ServedRow row :=
  List.forall_mem_map.mpr fun name hname => paymentRow_served (payments_sizes name hname)

/-- One aporte on both sides, and a deposit on one. -/
theorem aportes_agree_payments :
    ∃ g t, goalTotal clearSdk { paramsG with goalAccount := goalStrkey }
        (answersG (payments (strKey accountVersion payerKey.toList) goalStrkey) (0, 0) (10, 0))
          = .ok g ∧
      build (fun _ => "") ((["transfer", "deposit"].map paymentRow).map
        (EventJson.record plainJson)) [] { source := .raizMemory "", goalAccount := goalStrkey }
          = .ok t ∧
      t.contributionCount = (txsOf "aporte" g.contributions).length := by
  obtain ⟨g, hg⟩ := payments_total (strKey accountVersion payerKey.toList) goalStrkey
  obtain ⟨t, ht⟩ := payments_timeline (fun _ => "") plainJson payments_sizes
    { source := .raizMemory "", goalAccount := goalStrkey }
  refine ⟨g, t, hg, ht, ?_⟩
  exact (aportes_agree plainJson (fun _ => "") clearDecoder clearSdk clearDecoder_lawful
    (["transfer", "deposit"].map paymentRow) payments_served
    { paramsG with goalAccount := goalStrkey }
    (answersG (payments (strKey accountVersion payerKey.toList) goalStrkey) (0, 0) (10, 0))
    ⟨payments (strKey accountVersion payerKey.toList) goalStrkey, 5, none⟩ rfl parse_payments g hg
    [] { source := .raizMemory "", goalAccount := goalStrkey } rfl t ht).1

/-- The transfer and the deposit make two contributions for the shim, and
one for the timeline. -/
theorem deposit_counts_once :
    ∃ g t, parseRows clearDecoder (["transfer", "deposit"].map paymentRow)
        = .ok (payments (strKey accountVersion payerKey.toList) goalStrkey) ∧
      goalTotal clearSdk { paramsG with goalAccount := goalStrkey }
        (answersG (payments (strKey accountVersion payerKey.toList) goalStrkey) (0, 0) (10, 0))
          = .ok g ∧
      build (fun _ => "") ((["transfer", "deposit"].map paymentRow).map
        (EventJson.record plainJson)) [] { source := .raizMemory "", goalAccount := goalStrkey }
          = .ok t ∧
      g.contributions.length = 2 ∧ t.contributionCount = 1 := by
  obtain ⟨g, hg⟩ := payments_total (strKey accountVersion payerKey.toList) goalStrkey
  obtain ⟨t, ht⟩ := payments_timeline (fun _ => "") plainJson payments_sizes
    { source := .raizMemory "", goalAccount := goalStrkey }
  obtain ⟨st, hst, hcontributions⟩ := goalTotal_contributions
    ⟨payments (strKey accountVersion payerKey.toList) goalStrkey, 5, none⟩ hg rfl
  have hlen := (foldlM_contributions hst).2.2
  have hperm := (contributions_aporteTx clearDecoder_lawful payments_served parse_payments
    ht).length_eq
  refine ⟨g, t, parse_payments, hg, ht, ?_, ?_⟩
  · rw [hcontributions, hlen]
    simp [payments, ConfidentialEvent.aporteTx, ConfidentialEvent.depositTx, Replay.start]
  · rw [List.length_map, List.length_map] at hperm
    rw [GoalTimeline.contributionCount, hperm]
    simp [payments, ConfidentialEvent.aporteTx]

end RaizStack
