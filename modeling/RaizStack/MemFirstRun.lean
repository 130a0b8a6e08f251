import RaizStack.MemScan

/-!
# Backfill is decided once

A tick decides at its start whether it is a first run, from the stored
cursor. The page loop then keeps a cursor of its own. As long as the two
agree, only a contract without a stored cursor is ever asked for by
ledger, and only such a contract has its mark written. `InStep` is that
agreement, stop by stop, and it needs nothing of the RPC but one thing:
no full page without a cursor in answer to a request by cursor. Such a
page clears the loop's cursor and leaves the stored one, and both guards
of the loop - `cursor.is_none()` in the error arm, the choice of
`startLedger` in `get_events` - read the loop's.

Ticks of one contract follow each other here, as the ticks of one task
do; ticks of different contracts interleave statement by statement. The
store the process starts on is arbitrary.
-/

namespace RaizStack

/-! ## Ticks in turn -/

/-- A task between two ticks or two processes. -/
def Pc.AtRest : Pc → Prop
  | .idle => True
  | .returned _ => True
  | _ => False

variable {ι : Type}

/-- A tick of a contract begins when no other tick of it is under way. -/
def TicksInTurn (cid : ι → String) (w : World ι) (act : ι × Reply) : Prop :=
  match act.2 with
  | .begin _ => ∀ j, j ≠ act.1 → cid j = cid act.1 → (w.pcs j).AtRest
  | _ => True

/-- A process that has just started, on any store. -/
def World.Started (w : World ι) : Prop :=
  ∀ i, (w.pcs i).AtRest

/-- Pages that meet `ok`, whatever else the RPC and the store answer. -/
def OnPages (ok : Locals → GetEventsResult → Prop) (w : World ι) (act : ι × Reply) : Prop :=
  match w.pcs act.1, act.2 with
  | .getEvents v, .page (.ok page) => ok v page
  | _, _ => True

theorem onPages_of_ne {ok : Locals → GetEventsResult → Prop} {w : World ι} {i : ι} {reply : Reply}
    (h : ∀ page, reply ≠ .page (.ok page)) : OnPages ok w (i, reply) := by
  unfold OnPages
  split
  · rename_i v page hpc hreply
    exact absurd hreply (h page)
  · trivial

/-! ## The loop's cursor is the stored one -/

/-- What a stop knows of the stored cursor. -/
def InStep (db : Db) (cid : String) : Pc → Prop
  | .resolve _ => (db.getCursor cid).1 = none
  | .recordMark _ => (db.getCursor cid).1 = none
  | .getEvents v => (db.getCursor cid).1 = v.cursor
  | .reclampMark v _ => (db.getCursor cid).1 = v.cursor ∧ v.cursor = none
  | .insertEvent v page _ _ => (db.getCursor cid).1 = v.cursor ∧ CursorOrEnd v page
  | .setCursor v page c => (db.getCursor cid).1 = v.cursor ∧ page.next = some c
  | _ => True

variable {db db' : Db} {cid x : String} {pc pc' : Pc} {reply : Reply}

theorem getCursor_setCursor (c : String) (l : Int) :
    (db.setCursor cid c l).getCursor cid = (some c, l) := by
  rw [Db.getCursor, Db.find?_cursors_setCursor, if_pos rfl]

theorem getCursor_congr (h : db'.cursors.find? x = db.cursors.find? x) :
    db'.getCursor x = db.getCursor x := by
  rw [Db.getCursor, Db.getCursor, h]

theorem inStep_congr (h : db'.getCursor cid = db.getCursor cid) :
    InStep db' cid pc ↔ InStep db cid pc := by
  cases pc <;> simp only [InStep, h]

theorem inStep_of_atRest (h : pc.AtRest) : InStep db cid pc := by
  cases pc <;> trivial

theorem afterGetCursor_inStep (spec : StartSpec) :
    InStep db cid (afterGetCursor spec (db.getCursor cid).1 (db.getCursor cid).2) := by
  unfold afterGetCursor
  split
  · rename_i hfirst
    exact hfirst.1
  · rfl

theorem onError_inStep {v : Locals} (hv : (db.getCursor cid).1 = v.cursor) (e : String) :
    InStep db cid (onError v e) := by
  unfold onError
  split
  · rename_i hnone _
    split
    · exact ⟨hv, hnone⟩
    · trivial
  · trivial

/-- The only way past a page that carries no cursor is out of the tick. -/
theorem afterPage_of_none {v : Locals} {page : GetEventsResult} (hok : CursorOrEnd v page)
    (hnone : page.next = none) : afterPage v page = .returned (.ok ()) := by
  unfold afterPage
  rw [if_pos]
  rcases hok hnone with hv | hlen
  · exact Or.inr (hnone.trans hv.symm)
  · exact Or.inl (by simp [caughtUp, hnone, hlen])

theorem insertNext_inStep {v : Locals} {page : GetEventsResult}
    (hv : (db.getCursor cid).1 = v.cursor) (hok : CursorOrEnd v page) (rest : List RawEvent) :
    InStep db cid (insertNext v page rest) := by
  cases rest with
  | cons e rest => exact ⟨hv, hok⟩
  | nil =>
      rcases insertNext_nil v page with ⟨c, hnext, heq⟩ | ⟨hnext, heq⟩
      · rw [heq]
        exact ⟨hv, hnext⟩
      · rw [heq, afterPage_of_none hok hnext]
        trivial

/-- **The step lemma.** An answer keeps the loop's cursor and the stored
one together. -/
theorem Resumed.inStep (h : Resumed cid db pc reply db' pc')
    (hok : ∀ v page, pc = .getEvents v → reply = .page (.ok page) → CursorOrEnd v page)
    (hpc : InStep db cid pc) : InStep db' cid pc' := by
  cases h with
  | crash => trivial
  | begin => trivial
  | dbError => trivial
  | gotCursor spec now => exact afterGetCursor_inStep spec
  | noRange => trivial
  | resolved spec a plan hplan => exact hpc
  | marked plan now => exact hpc
  | refused v e => exact onError_inStep hpc e
  | served v page => exact insertNext_inStep hpc (hok v page rfl rfl) _
  | reclamped v oldest now => exact hpc.1
  | inserted v page e rest now => exact insertNext_inStep hpc.1 hpc.2 rest
  | advanced v page c now =>
      unfold afterPage
      split
      · trivial
      · show ((db.setCursor cid c _).getCursor cid).1 = page.next
        rw [getCursor_setCursor, hpc.2]

/-! ## Whose turn it is -/

/-- Only a tick under way writes. -/
theorem Resumed.writes (h : Resumed cid db pc reply db' pc') : db' = db ∨ ¬ pc.AtRest := by
  cases h with
  | marked => exact Or.inr id
  | reclamped => exact Or.inr id
  | inserted => exact Or.inr id
  | advanced => exact Or.inr id
  | _ => exact Or.inl rfl

/-- A task gets under way by beginning a tick. -/
theorem Resumed.begins (h : Resumed cid db pc reply db' pc') :
    pc'.AtRest ∨ ¬ pc.AtRest ∨ ∃ spec, reply = .begin spec := by
  cases h with
  | crash => exact Or.inl trivial
  | dbError => exact Or.inl trivial
  | begin pc spec => exact Or.inr (Or.inr ⟨spec, rfl⟩)
  | _ => exact Or.inr (Or.inl id)

/-- The invariant of the store and all its tasks. -/
structure Turns (cid : ι → String) (w : World ι) : Prop where
  alone : ∀ i j, i ≠ j → cid i = cid j → (w.pcs i).AtRest ∨ (w.pcs j).AtRest
  inStep : ∀ i, InStep w.db (cid i) (w.pcs i)

theorem turns_started {cid : ι → String} {w : World ι} (h : w.Started) : Turns cid w where
  alone := fun i _ _ _ => Or.inl (h i)
  inStep := fun i => inStep_of_atRest (h i)

section Steps

variable [DecidableEq ι] {cid : ι → String} {w w' : World ι} {i : ι}

theorem Turns.step (hinv : Turns cid w) (hturn : TicksInTurn cid w (i, reply))
    (hpage : OnPages CursorOrEnd w (i, reply)) (hnext : w.next cid (i, reply) = some w') :
    Turns cid w' := by
  obtain ⟨hres, hothers⟩ := World.next_eq_some hnext
  -- the task that moved, beside any other of its contract
  have hpair : ∀ j, j ≠ i → cid j = cid i → (w'.pcs i).AtRest ∨ (w'.pcs j).AtRest := by
    intro j hj hcid
    rw [hothers j hj]
    rcases hres.begins with hrest | hbusy | ⟨spec, rfl⟩
    · exact Or.inl hrest
    · exact Or.inr ((hinv.alone i j hj.symm hcid.symm).resolve_left hbusy)
    · exact Or.inr (hturn j hj hcid)
  refine ⟨fun a b hab hcid => ?_, fun j => ?_⟩
  · by_cases ha : a = i
    · subst ha
      exact hpair b hab.symm hcid.symm
    · by_cases hb : b = i
      · subst hb
        exact (hpair a hab hcid).symm
      · rw [hothers a ha, hothers b hb]
        exact hinv.alone a b hab hcid
  · by_cases hj : j = i
    · subst hj
      refine hres.inStep ?_ (hinv.inStep j)
      rintro v page hpc rfl
      simpa [OnPages, hpc] using hpage
    · rw [hothers j hj]
      by_cases hcid : cid j = cid i
      · rcases hres.writes with hsame | hbusy
        · rw [hsame]
          exact hinv.inStep j
        · exact inStep_of_atRest ((hinv.alone i j (Ne.symm hj) hcid.symm).resolve_left hbusy)
      · exact (inStep_congr (getCursor_congr (hres.frame hcid).cursor)).mpr (hinv.inStep j)

/-! ## After the first cursor -/

/-- A contract with a stored cursor keeps one, and keeps its mark. -/
theorem Turns.mark_kept (hinv : Turns cid w) (hnext : w.next cid (i, reply) = some w')
    (hc : (w.db.getCursor x).1 ≠ none) :
    (w'.db.getCursor x).1 ≠ none
      ∧ w'.db.backfillMarks.find? x = w.db.backfillMarks.find? x := by
  obtain ⟨hres, -⟩ := World.next_eq_some hnext
  have hpc := hinv.inStep i
  by_cases hx : x = cid i
  · subst hx
    generalize w.pcs i = pc at hres hpc
    generalize w'.pcs i = pc' at hres
    generalize w.db = db at hres hpc hc ⊢
    generalize w'.db = db' at hres ⊢
    cases hres with
    | marked plan now => exact absurd hpc hc
    | reclamped v oldest now => exact absurd (hpc.1.trans hpc.2) hc
    | advanced v page c now =>
        rw [getCursor_setCursor]
        exact ⟨nofun, rfl⟩
    | inserted v page e rest now => exact ⟨hc, rfl⟩
    | _ => exact ⟨hc, rfl⟩
  · have hframe := hres.frame hx
    rw [getCursor_congr hframe.cursor]
    exact ⟨hc, hframe.mark⟩

end Steps

/-! ## Whole runs -/

/-- The ticks and restarts of the tasks over one store, each contract's
in turn, against any RPC. -/
def tickSteps [DecidableEq ι] (cid : ι → String) : World ι → ι × Reply → World ι → Prop :=
  Lts.ofNext (TicksInTurn cid) (World.next cid)

/-- Those in which a request by cursor is never answered by a full page
without a cursor. -/
def cursorSteps [DecidableEq ι] (cid : ι → String) : World ι → ι × Reply → World ι → Prop :=
  Lts.During (OnPages CursorOrEnd) (tickSteps cid)

/-- Backfill is over for contract `x`: its mark is `m`, and what it waits
for was asked for by cursor. -/
structure BackfillOver (cid : ι → String) (x : String) (m : Option BackfillMark) (w : World ι) :
    Prop where
  mark : w.db.backfillMarks.find? x = m
  byCursor : ∀ i v, cid i = x → w.pcs i = .getEvents v →
    ∃ c, (requestOf x v).startFrom = .cursor c

/-- **Backfill is a first-run decision.** In every run over any store -
start specs, page shapes, range errors, failures and crashes in any
order - without a full cursorless page in answer to a cursor: from the
state in which a contract has a cursor on, its mark stays as it is and
no request for it carries a start ledger. -/
theorem backfill_decided_once [DecidableEq ι] {cid : ι → String} {w w' : World ι}
    (h : Lts.Reach World.Started (cursorSteps cid) w) (hlater : Lts.Steps (cursorSteps cid) w w')
    {x c : String} (hc : (w.db.getCursor x).1 = some c) :
    BackfillOver cid x (w.db.backfillMarks.find? x) w' := by
  have hturns : ∀ s, Lts.Reach World.Started (cursorSteps cid) s → Turns cid s := by
    intro s hs
    refine hs.invariant (fun _ hst => turns_started hst) ?_
    rintro s ⟨i, reply⟩ t - hinv ⟨hpage, hturn, hnext⟩
    exact hinv.step hturn hpage hnext
  have hkept : Turns cid w' ∧ (w'.db.getCursor x).1 ≠ none
      ∧ w'.db.backfillMarks.find? x = w.db.backfillMarks.find? x := by
    refine Lts.Steps.invariant (I := fun s => Turns cid s ∧ (s.db.getCursor x).1 ≠ none
      ∧ s.db.backfillMarks.find? x = w.db.backfillMarks.find? x)
      ?_ h ⟨hturns w h, by simp [hc], rfl⟩ hlater
    rintro s ⟨i, reply⟩ t - ⟨hinv, hcur, hmark⟩ ⟨hpage, hturn, hnext⟩
    obtain ⟨hcur', hmark'⟩ := hinv.mark_kept hnext hcur
    exact ⟨hinv.step hturn hpage hnext, hcur', hmark'.trans hmark⟩
  obtain ⟨hinv, hcur, hmark⟩ := hkept
  refine ⟨hmark, ?_⟩
  rintro i v rfl hpc
  have hstored : (w'.db.getCursor (cid i)).1 = v.cursor := by
    simpa [InStep, hpc] using hinv.inStep i
  obtain ⟨c', hc'⟩ := Option.ne_none_iff_exists'.mp (hstored ▸ hcur)
  refine ⟨c', ?_⟩
  simp only [requestOf, getEvents, hc']

/-! ## A first tick and a restart -/

/-- A page from the middle of the window, with no event in it. -/
def midPage : GetEventsResult :=
  { events := [], latestLedger := 20, cursor := some "0000000042949672960-0000000000",
    pagingToken := none, oldestLedger := some 5 }

/-- The loop after a first tick got that page. -/
def midLocals : Locals :=
  { start := some 5, cursor := some "0000000042949672960-0000000000", clampRetries := 0 }

/-- The world of that tick, with the other tasks at `pcs`. -/
def midWorld (pcs : String → Pc) (pc : Pc) : World String :=
  { db := (Db.empty.recordBackfillMark "CA" (StartPlan.resolve ⟨5, 20⟩ .oldest)
      "2026-08-03T00:00:00Z").setCursor "CA" "0000000042949672960-0000000000" 10
    pcs := Function.update pcs "CA" pc }

theorem mid_run :
    Lts.Reach World.Started (cursorSteps id) (midWorld (fun _ => .idle) (.getEvents midLocals)) := by
  have hfresh : Lts.Reach World.Started (cursorSteps id)
      ⟨Db.empty, Function.update (fun _ => .idle) "CA" .idle⟩ :=
    .init fun i => by by_cases hi : i = "CA" <;> simp [hi, Pc.AtRest]
  exact hfresh
    |>.next_during ("CA", .begin .oldest) (onPages_of_ne nofun) (fun _ hj h => absurd h hj)
      (World.next_update rfl)
    |>.next_during ("CA", .dbOk "") (onPages_of_ne nofun) trivial (World.next_update rfl)
    |>.next_during ("CA", .range ⟨.ok (some 5, some 20), .error "", .error ""⟩)
      (onPages_of_ne nofun) trivial (World.next_update rfl)
    |>.next_during ("CA", .dbOk "2026-08-03T00:00:00Z") (onPages_of_ne nofun) trivial
      (World.next_update rfl)
    |>.next_during ("CA", .page (.ok midPage)) nofun trivial (World.next_update rfl)
    |>.next_during ("CA", .dbOk "") (onPages_of_ne nofun) trivial (World.next_update rfl)

/-- A restart in the middle of that tick resumes from the cursor. -/
theorem backfill_decided_once_restart :
    ∃ w w' : World String, Lts.Reach World.Started (cursorSteps id) w
      ∧ Lts.Steps (cursorSteps id) w w'
      ∧ w'.pcs "CA" = .getEvents { midLocals with start := some 10 }
      ∧ BackfillOver id "CA" (w.db.backfillMarks.find? "CA") w' := by
  have hhere : Lts.Steps (cursorSteps id) (midWorld (fun _ => .idle) (.getEvents midLocals)) _ :=
    .refl
  have hlater := hhere
    |>.next_during ("CA", .crash) (onPages_of_ne nofun) trivial (World.next_update rfl)
    |>.next_during ("CA", .begin .head) (onPages_of_ne nofun) (fun _ hj h => absurd h hj)
      (World.next_update rfl)
    |>.next_during ("CA", .dbOk "") (onPages_of_ne nofun) trivial (World.next_update rfl)
  exact ⟨_, _, mid_run, hlater, rfl, backfill_decided_once mid_run hlater rfl⟩

/-! ## A full page without a cursor -/

/-- The inserts of a page, up to the cursor. -/
theorem inserts_run [DecidableEq ι] {cid : ι → String} {i : ι} {v : Locals}
    {page : GetEventsResult} (db : Db) (pcs : ι → Pc) (rest : List RawEvent) :
    ∃ db', Lts.Steps (tickSteps cid) ⟨db, Function.update pcs i (insertNext v page rest)⟩
        ⟨db', Function.update pcs i (afterInserts v page)⟩
      ∧ db'.cursors = db.cursors ∧ db'.backfillMarks = db.backfillMarks := by
  induction rest generalizing db with
  | nil => exact ⟨db, .refl, rfl, rfl⟩
  | cons e rest ih =>
      obtain ⟨db', hsteps, hcur, hmark⟩ := ih (db.insertEvent (rowOf e))
      refine ⟨db', .head ⟨(i, .dbOk ""), trivial, World.next_update rfl⟩ hsteps, hcur, hmark⟩

/-- A hundred events and neither `cursor` nor `pagingToken`. -/
def fullPage : GetEventsResult :=
  { events := (List.range 100).map fun k => { loneEvent with id := toString k },
    latestLedger := 20, cursor := none, pagingToken := none, oldestLedger := some 5 }

theorem afterInserts_fullPage :
    afterInserts midLocals fullPage = .getEvents { midLocals with cursor := none } := by
  show afterPage midLocals fullPage = _
  unfold afterPage
  rw [if_neg]
  · rfl
  · simp [caughtUp, GetEventsResult.next, fullPage, midLocals, pageLimit]

/-- **A page without a cursor reopens the backfill.** A contract whose
cursor is stored is asked for by start ledger in the same tick, and the
range error that meets the request rewrites its mark. -/
theorem full_page_reopens_backfill :
    ∃ w w₁ w₂ : World String, Lts.Reach World.Started (tickSteps id) w
      ∧ (w.db.getCursor "CA").1 = some "0000000042949672960-0000000000"
      ∧ Lts.Steps (tickSteps id) w w₁ ∧ Lts.Steps (tickSteps id) w w₂
      ∧ (∃ v, w₁.pcs "CA" = .getEvents v ∧ (requestOf "CA" v).startFrom = .startLedger 5)
      ∧ w₂.db.backfillMarks.find? "CA" ≠ w.db.backfillMarks.find? "CA" := by
  obtain ⟨db', hinserts, -, hmarks⟩ :=
    @inserts_run _ _ id "CA" midLocals fullPage (midWorld (fun _ => .idle) .idle).db
      (fun _ => .idle) fullPage.events
  rw [afterInserts_fullPage] at hinserts
  have hserved : Lts.Steps (tickSteps id) (midWorld (fun _ => .idle) (.getEvents midLocals)) _ :=
    .head ⟨("CA", .page (.ok fullPage)), trivial, World.next_update rfl⟩ hinserts
  -- the range error that meets a start at ledger 5
  have hreclamped := hserved
    |>.next ("CA", .page (.error "startLedger must be within the ledger range: 8 - 30")) trivial
      (World.next_update rfl)
    |>.next ("CA", .dbOk "") trivial (World.next_update rfl)
  refine ⟨_, _, _, mid_run.of_during, rfl, hserved, hreclamped, ⟨_, rfl, rfl⟩, ?_⟩
  show (db'.reclampBackfillMark "CA" 8).backfillMarks.find? "CA" ≠ _
  rw [Db.find?_marks_reclampBackfillMark, if_pos rfl, hmarks]
  decide

end RaizStack
