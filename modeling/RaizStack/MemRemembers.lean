import RaizStack.IndexVerifies

/-!
# What was read once is read again

The purpose of the index, end to end: what one read of the shim returned
is the beginning of what every later read returns. Between the two the
ingest tasks go on, crash and restart; rows are never changed or taken
away (`rows_exec`, whatever the RPC answers), and while the RPC lists in
order new ones come after those a reader has seen (`reads_extend`).
-/

namespace RaizStack

/-! ## Rows -/

section Rows

variable {ι : Type} [DecidableEq ι] {cid : ι → String} {acts acts' : List (ι × Reply)}
  {w w' : World ι} {e : RawEvent}

/-- The events a task is still to insert. -/
def Pc.toInsert : Pc → List RawEvent
  | .insertEvent _ _ e rest => e :: rest
  | _ => []

/-- An event that some page of the run listed. -/
def ServedIn (acts : List (ι × Reply)) (e : RawEvent) : Prop :=
  ∃ i page, (i, Reply.page (.ok page)) ∈ acts ∧ e ∈ page.events

omit [DecidableEq ι] in
theorem ServedIn.append (h : ServedIn acts e) (acts' : List (ι × Reply)) :
    ServedIn (acts ++ acts') e := by
  obtain ⟨i, page, hpage, he⟩ := h
  exact ⟨i, page, List.mem_append_left _ hpage, he⟩

theorem toInsert_afterPage (v : Locals) (page : GetEventsResult) :
    (afterPage v page).toInsert = [] := by
  unfold afterPage
  split <;> rfl

theorem toInsert_insertNext (v : Locals) (page : GetEventsResult) (l : List RawEvent) :
    (insertNext v page l).toInsert = l := by
  cases l with
  | cons e rest => rfl
  | nil =>
      rcases insertNext_nil v page with ⟨c, -, hnext⟩ | ⟨-, hnext⟩
      · rw [hnext]
        rfl
      · rw [hnext, toInsert_afterPage]

theorem toInsert_onError (v : Locals) (e : String) : (onError v e).toInsert = [] := by
  unfold onError
  split
  · split <;> rfl
  · rfl

theorem toInsert_afterGetCursor (spec : StartSpec) (cursor : Option String) (last : Int) :
    (afterGetCursor spec cursor last).toInsert = [] := by
  unfold afterGetCursor
  split <;> rfl

/-- What is stored and what is about to be comes from the pages of the run. -/
structure Provenance (acts : List (ι × Reply)) (w : World ι) : Prop where
  rows : ∀ r ∈ w.db.events.rows, ∃ e, ServedIn acts e ∧ r = rowOf e
  toInsert : ∀ i, ∀ e ∈ (w.pcs i).toInsert, ServedIn acts e

theorem Provenance.next {i : ι} {reply : Reply} (h : Provenance acts w)
    (hst : w.next cid (i, reply) = some w') : Provenance (acts ++ [(i, reply)]) w' := by
  obtain ⟨hres, hothers⟩ := World.next_eq_some hst
  have hold := h.toInsert i
  have hstep : (∀ r ∈ w'.db.events.rows, ∃ e, ServedIn (acts ++ [(i, reply)]) e ∧ r = rowOf e)
      ∧ ∀ e ∈ (w'.pcs i).toInsert, ServedIn (acts ++ [(i, reply)]) e := by
    have hrows : ∀ r ∈ w.db.events.rows, ∃ e, ServedIn (acts ++ [(i, reply)]) e ∧ r = rowOf e := by
      intro r hr
      obtain ⟨e, he, rfl⟩ := h.rows r hr
      exact ⟨e, he.append _, rfl⟩
    generalize w.pcs i = pc at hres hold
    generalize w'.pcs i = pc' at hres
    generalize hdb : w.db = db at hres hrows
    generalize w'.db = db' at hres
    cases hres with
    | served v page =>
        refine ⟨hrows, fun e he => ?_⟩
        rw [toInsert_insertNext] at he
        exact ⟨i, page, List.mem_append_right _ (List.mem_singleton_self _), he⟩
    | inserted v page e rest now =>
        refine ⟨fun r hr => ?_, fun e' he' => ?_⟩
        · rcases Keyed.Table.mem_insertOrIgnore.mp hr with hr | ⟨rfl, -⟩
          · exact hrows r hr
          · exact ⟨e, (hold e List.mem_cons_self).append _, rfl⟩
        · rw [toInsert_insertNext] at he'
          exact (hold e' (List.mem_cons_of_mem e he')).append _
    | gotCursor spec now =>
        refine ⟨hrows, fun e he => ?_⟩
        rw [toInsert_afterGetCursor] at he
        cases he
    | refused v message =>
        refine ⟨hrows, fun e he => ?_⟩
        rw [toInsert_onError] at he
        cases he
    | advanced v page c now =>
        refine ⟨hrows, fun e he => ?_⟩
        rw [toInsert_afterPage] at he
        cases he
    | _ => exact ⟨hrows, nofun⟩
  refine ⟨hstep.1, fun j e he => ?_⟩
  by_cases hj : j = i
  · subst hj
    exact hstep.2 e he
  · rw [hothers j hj] at he
    exact (h.toInsert j e he).append _

theorem Provenance.exec (h : Provenance acts w)
    (hrun : Lts.exec (World.next cid) w acts' = some w') : Provenance (acts ++ acts') w' := by
  induction acts' generalizing acts w with
  | nil =>
      obtain rfl := Option.some.inj hrun
      rwa [List.append_nil]
  | cons a acts' ih =>
      rw [Lts.exec_cons] at hrun
      obtain ⟨u, hu, hrest⟩ := Option.bind_eq_some_iff.mp hrun
      have hnext := ih (h.next hu) hrest
      rwa [List.append_assoc] at hnext

theorem rows_exec (hrun : Lts.exec (World.next cid) w acts = some w') {r : EventRow}
    (hr : r ∈ w.db.events.rows) : r ∈ w'.db.events.rows := by
  induction acts generalizing w with
  | nil =>
      obtain rfl := Option.some.inj hrun
      exact hr
  | cons a acts ih =>
      rw [Lts.exec_cons] at hrun
      obtain ⟨u, hu, hrest⟩ := Option.bind_eq_some_iff.mp hrun
      exact ih hrest ((World.next_eq_some hu).1.rows r hr)

/-- **Nothing invented, nothing changed, nothing forgotten.** Whatever an RPC
answers to however many tasks - other fields for an id it served before,
pages out of order, errors - and wherever the process crashes: a stored row
is what some page of the run listed, field by field, and in every later
state it is that row, the only one of its id. -/
theorem index_faithful (cid : ι → String)
    (h : Lts.exec (World.next cid) (World.fresh ι) acts = some w)
    (h' : Lts.exec (World.next cid) w acts' = some w') :
    (∀ r ∈ w.db.events.rows, ∃ e, ServedIn acts e ∧ r = rowOf e)
      ∧ ∀ r ∈ w.db.events.rows, w'.db.events.rows.filter (fun x => x.id = r.id) = [r] := by
  have hfresh : Provenance ([] : List (ι × Reply)) (World.fresh ι) := ⟨nofun, nofun⟩
  exact ⟨(hfresh.exec h).rows, fun r hr => w'.db.events.filter_key (rows_exec h' hr)⟩

end Rows

/-- An event is stored, the process dies, and the RPC lists the id again with
other fields. -/
def firstActs : List (String × Reply) :=
  [("CA", .begin .oldest), ("CA", .dbOk ""),
    ("CA", .range ⟨.ok (some 5, some 20), .error "", .error ""⟩), ("CA", .dbOk ""),
    ("CA", .page (.ok lonePage)), ("CA", .dbOk "")]

def forgedActs : List (String × Reply) :=
  [("CA", .crash), ("CA", .begin .oldest), ("CA", .dbOk ""),
    ("CA", .range ⟨.ok (some 5, some 20), .error "", .error ""⟩), ("CA", .dbOk ""),
    ("CA", .page (.ok { lonePage with events := [{ loneEvent with txHash := some "forged" }] })),
    ("CA", .dbOk "")]

theorem index_faithful_forged :
    ∃ w w' : World String, Lts.exec (World.next id) (World.fresh String) firstActs = some w ∧
      Lts.exec (World.next id) w forgedActs = some w' ∧
      w'.db.events.rows.filter (fun r => r.id = loneEvent.id) = [rowOf loneEvent] := by
  obtain ⟨-, hkept⟩ := @index_faithful String _ firstActs forgedActs _ _ id rfl rfl
  exact ⟨_, _, rfl, rfl, hkept (rowOf loneEvent) List.mem_cons_self⟩

/-! ## Reads -/

section Reads

variable {q : EventsQuery} {db db' : Db} {C : Type} {dec : EventDecoder C}

/-- A store that grows past its rows is wanted from the same beginning. -/
theorem wanted_grows (h : GrowsLater q db db') : db.wanted q <+: db'.wanted q := by
  classical
  refine ⟨(db'.wanted q).filter fun r => r ∉ db.wanted q, eq_wanted ?_ ?_ ?_⟩
  · refine List.pairwise_append.mpr
      ⟨wanted_strict, wanted_strict.sublist List.filter_sublist, fun a ha b hb => ?_⟩
    obtain ⟨hb, hnew⟩ := List.mem_filter.mp hb
    rcases h.later b (mem_wanted.mp hb) with hold | hpast
    · exact absurd (mem_wanted.mpr hold) (of_decide_eq_true hnew)
    · exact hpast a (mem_wanted.mp ha)
  · intro r hr
    rcases List.mem_append.mp hr with hr | hr
    · exact h.kept r (mem_wanted.mp hr)
    · exact mem_wanted.mp (List.mem_filter.mp hr).1
  · intro r hr
    by_cases hold : r ∈ db.wanted q
    · exact List.mem_append_left _ hold
    · exact List.mem_append_right _
        (List.mem_filter.mpr ⟨mem_wanted.mpr hr, decide_eq_true hold⟩)

/-- A longer list of rows decodes to a longer list of events. -/
theorem parseRows_grows {rows rows' : List EventJson} {events events' : List (ConfidentialEvent C)}
    (hle : rows <+: rows') (h : parseRows dec rows = .ok events)
    (h' : parseRows dec rows' = .ok events') : events <+: events' := by
  obtain ⟨rest, rfl⟩ := hle
  obtain ⟨more, hmore⟩ := exists_parseRows fun row hrow =>
    parseRows_each h' (List.mem_append_right rows hrow)
  rw [parseRows_append h hmore] at h'
  exact ⟨more, Except.ok.inj h'⟩

theorem growsLater_of_le {stores : Nat → Db} (hgrow : ∀ k, GrowsLater q (stores k) (stores (k + 1)))
    {k k' : Nat} (hle : k ≤ k') : GrowsLater q (stores k) (stores k') := by
  obtain ⟨d, rfl⟩ := Nat.exists_eq_add_of_le hle
  have hfirst : GrowsLater q ((fun j => stores (k + j)) 0) ((fun j => stores (k + j)) d) :=
    growsLater_first (fun j => hgrow (k + j)) d
  exact hfirst

end Reads

/-- **A later read goes on where an earlier one ended.** The tasks of an index
with a cursor on the contract go on as they may; the shim reads it twice,
the second time not before the first read's last request. What the first
read returned is the beginning of what the second returns. -/
theorem reads_extend {H : History} {w : World String} {ws : Nat → World String} {cid : String}
    {parse : String → Option Json} {C : Type} {dec : EventDecoder C} {start : Int} {m : BackfillMark}
    {sim : Option Int} {c : String} {source : Option String} {got got' : FetchResult C} {n : Nat}
    (href : String → EventsQuery → String) (text : EventsBody → String) (baseUrl : String)
    (hindex : LiveIndex H cid start m w ws) (hcur : (w.db.getCursor cid).1 = some c)
    (hsim : NotSimulated sim (wholeQuery cid (some start) source))
    (hread : fetchEventsFromUrl dec href (indexSite text parse sim fun k => (ws k).db) baseUrl cid
      (some start) source = .ok got)
    (hlater : got.pages ≤ n + 1)
    (hread' : fetchEventsFromUrl dec href (indexSite text parse sim fun k => (ws (n + k)).db)
      baseUrl cid (some start) source = .ok got') :
    got.events <+: got'.events := by
  have hstate : ∀ k, NoGapInv H (ws k) ∧ (ws k).db.backfillMarks.find? cid = some m
      ∧ GrowsLater (wholeQuery cid (some start) source) (ws k).db (ws (k + 1)).db :=
    hindex.state hcur
  have hord : ∀ k, TokenOrdered cid (ws k).db :=
    fun k => (hstate k).1.scan.rowsOf.tokenOrdered cid
  have hgrow := fun k => (hstate k).2.2
  obtain ⟨k, hall⟩ := fetchedAll_of_pagesOf hsim hord hgrow
    (pagesOf_indexSite text parse sim _) hread
  obtain ⟨k', hall'⟩ := fetchedAll_of_pagesOf hsim (fun j => hord (n + j)) (fun j => hgrow (n + j))
    (pagesOf_indexSite text parse sim _) hread'
  have hk : k ≤ n + k' := by
    have hpages := hall.pages
    omega
  exact parseRows_grows ((wanted_grows (growsLater_of_le hgrow hk)).map _) hall.parsed hall'.parsed

/-- The first request of the first read meets the index before its second
tick, all later ones after it. -/
def payStates (k : Nat) : World String :=
  payWorld (if k = 0 then payDb else laterPayDb)

/-- One deposit is read, and then two. -/
theorem reads_extend_payments :
    ∃ got got' : FetchResult (Int × Int × Int),
      fetchEventsFromUrl clearDecoder (fun base _ => base)
          (indexSite (fun _ => "") payParse none fun k => (payStates k).db)
          "http://localhost:8090" CtConfig.token (some 3950000) none = .ok got ∧
      got.events <+: got'.events ∧ got'.events = [payTx, laterPayTx].map Tx.event := by
  obtain ⟨m, hm, heff, hcur⟩ := pay_marked
  have hgrows : ∀ k, Lts.Steps (forwardStep payHistory) (payStates k) (payStates (k + 1)) := by
    intro k
    cases k with
    | zero => exact payWorld_steps
    | succ k => exact .refl
  have hindex : LiveIndex payHistory CtConfig.token 3950000 m (payWorld payDb) payStates :=
    ⟨payWorld_reach, .refl, hgrows, hm, heff⟩
  have hgrown : LiveIndex payHistory CtConfig.token 3950000 m (payWorld payDb)
      fun _ => payWorld laterPayDb :=
    ⟨payWorld_reach, payWorld_steps, fun _ => .refl, hm, heff⟩
  have hsim : NotSimulated none (wholeQuery CtConfig.token (some 3950000) none) := Or.inl rfl
  obtain ⟨got, -, hread, -⟩ := hindex.served payLog_of hcur (by decide) payLog_upto payLog_from
    (by decide) hsim (fun base _ => base) (fun _ => "") "http://localhost:8090"
  obtain ⟨got', n, hread', -, hlen, hhad, hevents⟩ := hgrown.served payLog_of hcur (by decide)
    payLog_upto payLog_from (by decide) hsim (fun base _ => base) (fun _ => "")
    "http://localhost:8090"
  obtain rfl : n = 2 := le_antisymm hlen (hhad 2 le_rfl payLog_stored)
  have hlater : (fun k => (payStates (got.pages + 1 + k)).db)
      = fun _ => (payWorld laterPayDb).db := by
    funext k
    rw [payStates, if_neg (by omega)]
  have hextends : got.events <+: got'.events :=
    reads_extend (fun base _ => base) (fun _ => "") "http://localhost:8090" hindex hcur hsim hread
      (Nat.le_add_right _ 2) (by rw [hlater]; exact hread')
  exact ⟨got, got', hread, hextends, hevents⟩

end RaizStack
