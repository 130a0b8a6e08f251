import RaizStack.MemFirstRun

/-!
# The scan position never moves back

Next to a cursor the store keeps the ledger it stands for, read off the
cursor's TOID, else off the last event of the page, else 0. The RPC's
cursors have positions of their own; an RPC that scans forward never
answers with a cursor behind what it was asked. The stored ledger
follows, as long as the fallbacks do: a page whose cursor cannot be
decoded must say through its last event where the scan stands. An empty
one says nothing, and the ledger falls to 1 while the scan goes on.

Two more things can hand a contract a position behind the stored one: a
request by start ledger after a cursor was stored, and a second task for
the same contract that still waits for an older page. The first takes a
full page without a cursor (`CursorOrEnd`), the second a contract that
is listed twice (`TicksInTurn`).
-/

namespace RaizStack

variable {ι : Type}

/-! ## Positions -/

/-- The ledger a request starts from, for cursors that stand at `pos`. -/
def EventsFrom.position (pos : String → Int) : EventsFrom → Int
  | .startLedger l => l
  | .cursor c => pos c

/-- Cursors that can be decoded stand where they say. -/
def Decodes (pos : String → Int) : Prop :=
  ∀ c l, cursorLedger c = some l → pos c = l

/-- A page whose cursor is not behind what was asked for. -/
def NotBehind (pos : String → Int) (req : EventsRequest) (page : GetEventsResult) : Prop :=
  ∀ c, page.next = some c → req.startFrom.position pos ≤ pos c

/-- A page that locates its cursor: the cursor decodes, or the last event
of the page lies in the stretch that was scanned. -/
def Locates (pos : String → Int) (req : EventsRequest) (page : GetEventsResult) : Prop :=
  ∀ c, page.next = some c → cursorLedger c = none →
    ∃ e, page.events.getLast? = some e ∧ req.startFrom.position pos ≤ e.ledger ∧ e.ledger ≤ pos c

/-- What is stored with a cursor lies between what was asked for and the
position of the cursor. -/
def Between (pos : String → Int) (req : EventsRequest) (page : GetEventsResult) : Prop :=
  ∀ c, page.next = some c →
    req.startFrom.position pos ≤ scannedThrough page ∧ scannedThrough page ≤ pos c

variable {pos : String → Int}

/-- Both ways of reading the ledger agree with the positions. -/
theorem between_of_locates (hpos : Decodes pos) {req : EventsRequest} {page : GetEventsResult}
    (hnot : NotBehind pos req page) (hloc : Locates pos req page) : Between pos req page := by
  intro c hc
  have hfwd := hnot c hc
  cases hdec : cursorLedger c with
  | some l =>
      have hscan : scannedThrough page = l := by simp [scannedThrough, hc, hdec]
      have hat := hpos c l hdec
      rw [hscan]
      exact ⟨hat ▸ hfwd, hat.ge⟩
  | none =>
      obtain ⟨e, he, hfrom, hto⟩ := hloc c hc hdec
      have hscan : scannedThrough page = e.ledger := by simp [scannedThrough, hc, hdec, he]
      rw [hscan]
      exact ⟨hfrom, hto⟩

/-! ## The stored ledger against the stored cursor -/

/-- No stored ledger is past the cursor it is stored with. -/
def Trailing (pos : String → Int) (db : Db) (x : String) : Prop :=
  ∀ r, db.cursors.find? x = some r → ∃ c, r.cursor = some c ∧ r.lastLedger ≤ max (pos c) 1

/-- A page being written is one that lies between. -/
def Placed (pos : String → Int) (cid : String) : Pc → Prop
  | .insertEvent v page _ _ => Between pos (requestOf cid v) page
  | .setCursor v page _ => Between pos (requestOf cid v) page
  | _ => True

variable {db db' : Db} {cid x : String} {pc pc' : Pc} {reply : Reply}

theorem afterPage_placed (v : Locals) (page : GetEventsResult) :
    Placed pos cid (afterPage v page) := by
  unfold afterPage
  split <;> trivial

theorem insertNext_placed {v : Locals} {page : GetEventsResult}
    (h : Between pos (requestOf cid v) page) (rest : List RawEvent) :
    Placed pos cid (insertNext v page rest) := by
  cases rest with
  | cons e rest => exact h
  | nil =>
      rcases insertNext_nil v page with ⟨c, -, heq⟩ | ⟨-, heq⟩
      · rw [heq]
        exact h
      · rw [heq]
        exact afterPage_placed v page

theorem Resumed.placed (h : Resumed cid db pc reply db' pc')
    (hok : ∀ v page, pc = .getEvents v → reply = .page (.ok page) →
      Between pos (requestOf cid v) page)
    (hpc : Placed pos cid pc) : Placed pos cid pc' := by
  cases h with
  | gotCursor spec now =>
      unfold afterGetCursor
      split <;> trivial
  | refused v e =>
      unfold onError
      split
      · split <;> trivial
      · trivial
  | served v page => exact insertNext_placed (hok v page rfl rfl) _
  | inserted v page e rest now => exact insertNext_placed hpc rest
  | advanced v page c now => exact afterPage_placed v page
  | _ => trivial

/-- Asking by the stored cursor asks from its position. -/
theorem lastLedger_le_asked {v : Locals} (htrail : Trailing pos db cid)
    (hv : (db.getCursor cid).1 = v.cursor) :
    (db.getCursor cid).2 ≤ max ((requestOf cid v).startFrom.position pos) 1 := by
  unfold Db.getCursor at hv ⊢
  cases hfind : db.cursors.find? cid with
  | none =>
      show 0 ≤ max _ 1
      omega
  | some r =>
      obtain ⟨c, hc, hle⟩ := htrail r hfind
      rw [hfind] at hv
      have hvc : v.cursor = some c := hv.symm.trans hc
      simpa only [requestOf, getEvents, hvc, EventsFrom.position] using hle

/-- **The step lemma.** An answer leaves the stored ledger of its contract
where it is, or moves it forward with the cursor. -/
theorem Resumed.forward (h : Resumed cid db pc reply db' pc') (hin : InStep db cid pc)
    (hpl : Placed pos cid pc) (htrail : Trailing pos db cid) :
    Trailing pos db' cid ∧ (db.getCursor cid).2 ≤ (db'.getCursor cid).2 := by
  cases h with
  | advanced v page c now =>
      obtain ⟨hv, hc⟩ := hin
      obtain ⟨hfrom, hto⟩ := hpl c hc
      refine ⟨fun r hr => ?_, ?_⟩
      · rw [Db.find?_cursors_setCursor, if_pos rfl] at hr
        obtain rfl := Option.some.inj hr
        refine ⟨c, rfl, ?_⟩
        show max (scannedThrough page) 1 ≤ _
        omega
      · have hle := lastLedger_le_asked htrail hv
        rw [getCursor_setCursor]
        show _ ≤ max (scannedThrough page) 1
        omega
  | inserted v page e rest now => exact ⟨htrail, le_rfl⟩
  | marked plan now => exact ⟨htrail, le_rfl⟩
  | reclamped v oldest now => exact ⟨htrail, le_rfl⟩
  | _ => exact ⟨htrail, le_rfl⟩

/-! ## Whole runs -/

/-- The condition: ticks of one contract in turn, no full page without a
cursor in answer to a cursor, and every cursor located by its page. -/
def Located (pos : String → Int) (cid : ι → String) (w : World ι) (act : ι × Reply) : Prop :=
  TicksInTurn cid w act ∧ OnPages CursorOrEnd w act
    ∧ OnPages (fun v page => Locates pos (requestOf (cid act.1) v) page) w act

/-- All tasks over one store, against an RPC that scans forward. -/
def forwardSteps [DecidableEq ι] (pos : String → Int) (cid : ι → String) :
    World ι → ι × Reply → World ι → Prop :=
  Lts.ofNext (fun w act => OnPages (fun v page => NotBehind pos (requestOf (cid act.1) v) page) w act)
    (World.next cid)

structure PositionInv (pos : String → Int) (cid : ι → String) (w : World ι) : Prop where
  turns : Turns cid w
  placed : ∀ i, Placed pos (cid i) (w.pcs i)
  trailing : ∀ x, Trailing pos w.db x

section Steps

variable [DecidableEq ι] {cid : ι → String} {w w' : World ι} {i : ι}

theorem PositionInv.step (hpos : Decodes pos) (hinv : PositionInv pos cid w)
    (hloc : Located pos cid w (i, reply))
    (hfwd : OnPages (fun v page => NotBehind pos (requestOf (cid i) v) page) w (i, reply))
    (hnext : w.next cid (i, reply) = some w') :
    PositionInv pos cid w' ∧ ∀ x, (w.db.getCursor x).2 ≤ (w'.db.getCursor x).2 := by
  obtain ⟨hturn, hpage, hlocates⟩ := hloc
  obtain ⟨hres, hothers⟩ := World.next_eq_some hnext
  obtain ⟨htrail, hle⟩ := hres.forward (hinv.turns.inStep i) (hinv.placed i)
    (hinv.trailing (cid i))
  refine ⟨⟨hinv.turns.step hturn hpage hnext, fun j => ?_, fun x => ?_⟩, fun x => ?_⟩
  · by_cases hj : j = i
    · subst hj
      refine hres.placed ?_ (hinv.placed j)
      rintro v page hpc rfl
      simp only [OnPages, hpc] at hlocates hfwd
      exact between_of_locates hpos hfwd hlocates
    · rw [hothers j hj]
      exact hinv.placed j
  · by_cases hx : x = cid i
    · rw [hx]
      exact htrail
    · intro r hr
      exact hinv.trailing x r ((hres.frame hx).cursor ▸ hr)
  · by_cases hx : x = cid i
    · rw [hx]
      exact hle
    · rw [getCursor_congr (hres.frame hx).cursor]

end Steps

theorem positionInv_fresh (pos : String → Int) (cid : ι → String) :
    PositionInv pos cid (World.fresh ι) where
  turns := turns_started fun _ => trivial
  placed := fun _ => trivial
  trailing := fun _ _ hr => absurd hr (by simp [World.fresh, Db.empty])

/-- What `/coverage` reports as scanned is the stored ledger. -/
theorem scannedThroughLedger_eq (db : Db) (x : String) :
    (db.coverageOf x).scannedThroughLedger = (db.getCursor x).2 := by
  unfold Db.coverageOf Db.getCursor
  cases db.cursors.find? x <;> rfl

/-- **The scan position never moves back**, for any list of contracts, any
interleaving of their tasks and any restarts, against an RPC that scans
forward, as long as every cursor is located by its page. -/
theorem lastLedger_mono [DecidableEq ι] (hpos : Decodes pos) {cid : ι → String} {w w' : World ι}
    (h : Lts.Reach (· = World.fresh ι) (Lts.During (Located pos cid) (forwardSteps pos cid)) w)
    (hlater : Lts.Steps (Lts.During (Located pos cid) (forwardSteps pos cid)) w w') (x : String) :
    (w.db.getCursor x).2 ≤ (w'.db.getCursor x).2
      ∧ (w.db.coverageOf x).scannedThroughLedger ≤ (w'.db.coverageOf x).scannedThroughLedger := by
  have hinv : PositionInv pos cid w := by
    refine h.invariant (fun _ hs => hs ▸ positionInv_fresh pos cid) ?_
    rintro s ⟨i, reply⟩ t - hinv ⟨hloc, hfwd, hnext⟩
    exact (hinv.step hpos hloc hfwd hnext).1
  have hmono : PositionInv pos cid w' ∧ (w.db.getCursor x).2 ≤ (w'.db.getCursor x).2 := by
    refine Lts.Steps.invariant
      (I := fun s => PositionInv pos cid s ∧ (w.db.getCursor x).2 ≤ (s.db.getCursor x).2)
      ?_ h ⟨hinv, le_rfl⟩ hlater
    rintro s ⟨i, reply⟩ t - ⟨hinv, hle⟩ ⟨hloc, hfwd, hnext⟩
    obtain ⟨hinv', hle'⟩ := hinv.step hpos hloc hfwd hnext
    exact ⟨hinv', hle.trans (hle' x)⟩
  rw [scannedThroughLedger_eq, scannedThroughLedger_eq]
  exact ⟨hmono.2, hmono.2⟩

/-! ## A cursor nobody can read -/

/-- Positions of an RPC that also hands out the cursor `opaque-15`. -/
def opaquePos (c : String) : Int :=
  if c = "opaque-15" then 15 else (cursorLedger c).getD 0

theorem opaque_unread : cursorLedger "opaque-15" = none := by decide

theorem opaquePos_decodes : Decodes opaquePos := by
  intro c l hl
  have hne : c ≠ "opaque-15" := by
    rintro rfl
    exact absurd (opaque_unread.symm.trans hl) nofun
  simp [opaquePos, hne, hl]

/-- The first tick of `midWorld`, seen from this RPC. -/
theorem mid_run_forward :
    Lts.Reach (· = World.fresh String)
      (Lts.During (Located opaquePos id) (forwardSteps opaquePos id))
      (midWorld (fun _ => .idle) (.getEvents midLocals)) := by
  have hfresh : Lts.Reach (· = World.fresh String)
      (Lts.During (Located opaquePos id) (forwardSteps opaquePos id))
      ⟨Db.empty, Function.update (fun _ => .idle) "CA" .idle⟩ :=
    .init (by simp [World.fresh])
  have hquiet : ∀ (w : World String) (reply : Reply), (∀ page, reply ≠ .page (.ok page)) →
      TicksInTurn id w ("CA", reply) → Located opaquePos id w ("CA", reply) :=
    fun w reply hne hturn => ⟨hturn, onPages_of_ne hne, onPages_of_ne hne⟩
  have hlocates : Locates opaquePos (requestOf "CA" ⟨some 5, none, 0⟩) midPage := by
    rintro c ⟨⟩ hnone
    exact absurd hnone (by decide)
  have hfwd : NotBehind opaquePos (requestOf "CA" ⟨some 5, none, 0⟩) midPage := by
    rintro c ⟨⟩
    decide
  have hbegin : ∀ page, Reply.begin .oldest ≠ .page (.ok page) := by
    intro page h
    cases h
  have hrange : ∀ answers page, Reply.range answers ≠ .page (.ok page) := by
    intro answers page h
    cases h
  have hdb : ∀ now page, Reply.dbOk now ≠ .page (.ok page) := by
    intro now page h
    cases h
  have hcursor : CursorOrEnd ⟨some 5, none, 0⟩ midPage := by
    intro h
    cases h
  exact hfresh
    |>.next_during ("CA", .begin .oldest) (hquiet _ _ hbegin fun _ hj h => absurd h hj)
      (onPages_of_ne hbegin) (World.next_update rfl)
    |>.next_during ("CA", .dbOk "") (hquiet _ _ (hdb _) trivial) (onPages_of_ne (hdb _))
      (World.next_update rfl)
    |>.next_during ("CA", .range ⟨.ok (some 5, some 20), .error "", .error ""⟩)
      (hquiet _ _ (hrange _) trivial) (onPages_of_ne (hrange _)) (World.next_update rfl)
    |>.next_during ("CA", .dbOk "2026-08-03T00:00:00Z") (hquiet _ _ (hdb _) trivial)
      (onPages_of_ne (hdb _)) (World.next_update rfl)
    |>.next_during ("CA", .page (.ok midPage)) ⟨trivial, hcursor, hlocates⟩ hfwd
      (World.next_update rfl)
    |>.next_during ("CA", .dbOk "") (hquiet _ _ (hdb _) trivial) (onPages_of_ne (hdb _))
      (World.next_update rfl)

/-- The page of the next request: nothing up to ledger 20. -/
def headPage : GetEventsResult :=
  { midPage with cursor := some "0000000085899345920-0000000000" }

/-- Its position is stored in place of ledger 10. -/
theorem lastLedger_mono_headPage :
    ∃ w w' : World String, Lts.Reach (· = World.fresh String)
        (Lts.During (Located opaquePos id) (forwardSteps opaquePos id)) w
      ∧ Lts.Steps (Lts.During (Located opaquePos id) (forwardSteps opaquePos id)) w w'
      ∧ (w'.db.getCursor "CA").2 = 20
      ∧ (w.db.getCursor "CA").2 ≤ (w'.db.getCursor "CA").2 := by
  have hlocates : Locates opaquePos (requestOf "CA" midLocals) headPage := by
    rintro c ⟨⟩ hnone
    exact absurd hnone (by decide)
  have hfwd : NotBehind opaquePos (requestOf "CA" midLocals) headPage := by
    rintro c ⟨⟩
    decide
  have hhere : Lts.Steps (Lts.During (Located opaquePos id) (forwardSteps opaquePos id))
      (midWorld (fun _ => .idle) (.getEvents midLocals)) _ := .refl
  have hlater := hhere
    |>.next_during ("CA", .page (.ok headPage)) ⟨trivial, nofun, hlocates⟩ hfwd
      (World.next_update rfl)
    |>.next_during ("CA", .dbOk "") ⟨trivial, onPages_of_ne nofun, onPages_of_ne nofun⟩
      (onPages_of_ne nofun) (World.next_update rfl)
  exact ⟨_, _, mid_run_forward, hlater, rfl,
    (lastLedger_mono opaquePos_decodes mid_run_forward hlater "CA").1⟩

/-- The same stretch under a cursor that cannot be decoded. -/
def opaquePage : GetEventsResult :=
  { midPage with cursor := some "opaque-15" }

/-- **An empty page under an unreadable cursor takes the ledger back.**
The scan goes from ledger 10 to 15, the stored ledger from 10 to 1. -/
theorem unread_cursor_rewinds :
    Decodes opaquePos ∧ ∃ w w' : World String,
      Lts.Reach (· = World.fresh String) (forwardSteps opaquePos id) w
      ∧ Lts.Steps (forwardSteps opaquePos id) w w'
      ∧ (w.db.getCursor "CA").2 = 10 ∧ (w'.db.getCursor "CA").2 = 1
      ∧ (w'.db.coverageOf "CA").scannedThroughLedger
        < (w.db.coverageOf "CA").scannedThroughLedger := by
  have hfwd : NotBehind opaquePos (requestOf "CA" midLocals) opaquePage := by
    rintro c ⟨⟩
    decide
  have hhere : Lts.Steps (forwardSteps opaquePos id)
      (midWorld (fun _ => .idle) (.getEvents midLocals)) _ := .refl
  have hlater := hhere
    |>.next ("CA", .page (.ok opaquePage)) hfwd (World.next_update rfl)
    |>.next ("CA", .dbOk "") (onPages_of_ne nofun) (World.next_update rfl)
  refine ⟨opaquePos_decodes, _, _, mid_run_forward.of_during, hlater, rfl, rfl, ?_⟩
  rw [scannedThroughLedger_eq, scannedThroughLedger_eq]
  decide

end RaizStack
