import RaizStack.MemEnds
import RaizStack.MemPosition

/-!
# After an outage

A tick against an RPC that serves a window of ledgers, in order and
without omission, and rejects every start outside the window - a start
ledger or a cursor - by naming the window. The indexer takes such a
rejection as an answer only while it starts by ledger, and three times:
the start becomes the oldest ledger. A cursor outside the window is the
end of the tick, and the store keeps the cursor.

So a tick recovers when it is never asked to give up a cursor
(`WithinReach`): it ends (`MemEnds`), with the last page's head behind
it, and with the events from its old position on (`Gained`). The other
tasks run meanwhile; what they may do to the store is what their
statements do to it (`Frame`).
-/

namespace RaizStack

/-! ## A tick over a shared store -/

/-- A tick of contract `cid`, answered until it returns, over a store the
other tasks write to between two answers. -/
structure StoreRun (H : History) (cid : String) (spec : StartSpec) (pcs : ℕ → Pc)
    (replies : ℕ → Reply) (before after : ℕ → Db) : Prop where
  starts : pcs 0 = .getCursor spec
  answered : ∀ n, ¬ (pcs n).Returned → (replies n).WithinTick ∧
    resume cid (before n) (pcs n) (replies n) = some (after n, pcs (n + 1))
  others : ∀ n, Frame cid (after n) (before (n + 1))
  rows : ∀ n, RowsOf H (before n)

/-! ## An RPC with a window -/

/-- The ledger a request starts from: for a cursor the one in its TOID. -/
def EventsFrom.ledger : EventsFrom → Option Int
  | .startLedger l => some l
  | .cursor c => cursorLedger c

def LedgerRange.Has (win : LedgerRange) (req : EventsRequest) : Prop :=
  ∃ l, req.startFrom.ledger = some l ∧ win.oldest ≤ l ∧ l ≤ win.latest

section Rpc

variable (H : History) (pos : String → ℕ) (bound : ℕ) (cid : String)

/-- A page of the window: the events in order, the head, and a cursor
that stands at the head, or ahead of the one asked by and within the
bound; what lies in earlier ledgers than the cursor lies before it. -/
structure Page (win : LedgerRange) (v : Locals) (page : GetEventsResult) : Prop where
  serves : Serves H (requestOf cid v) page
  latest : page.latestLedger = win.latest
  latest_pos : 0 < win.latest
  cursor : ∃ c l, page.next = some c ∧ cursorLedger c = some l ∧
    (l < win.latest → Ahead pos v page ∧ pos c < bound) ∧
    ∀ e ∈ H.of cid, e.ledger < l → e.id ≤ c

/-- An answer of the RPC while it serves the window `win`. -/
inductive WindowAnswer (win : LedgerRange) (v : Locals) : Answer GetEventsResult → Prop
  | refused (e : String) (hout : ¬ win.Has (requestOf cid v))
      (hrange : parseLedgerRangeError e = some (win.oldest, win.latest)) :
      WindowAnswer win v (.error e)
  | served (page : GetEventsResult) (hin : win.Has (requestOf cid v))
      (hpage : Page H pos bound cid win v page) : WindowAnswer win v (.ok page)

/-- Every call is answered: the statements by the store, the window of a
first run, and each page by an RPC whose window moves as it likes. -/
structure AllAnswered (pcs : ℕ → Pc) (replies : ℕ → Reply) (win : ℕ → LedgerRange) : Prop where
  store : ∀ n e, replies n ≠ .dbError e
  range : ∀ n a, replies n = .range a → ∃ range, ledgerRange a = .ok range
  pages : ∀ n v answer, pcs n = .getEvents v → replies n = .page answer →
    WindowAnswer H pos bound cid (win n) v answer

/-- The condition: a request by cursor finds its cursor in the window, a
request by ledger its start, unless there is a retry left. -/
def WithinReach (pcs : ℕ → Pc) (win : ℕ → LedgerRange) : Prop :=
  ∀ n v, pcs n = .getEvents v →
    (win n).Has (requestOf cid v) ∨ v.cursor = none ∧ v.clampRetries < maxClampRetries

end Rpc

variable {H : History} {pos : String → ℕ} {bound : ℕ} {cid : String} {win : LedgerRange}
  {v : Locals} {page : GetEventsResult}

theorem Page.onward (h : Page H pos bound cid win v page) : Onward pos bound v page := by
  obtain ⟨c, l, hc, hl, hshort, -⟩ := h.cursor
  rcases lt_or_ge l win.latest with hlt | hge
  · obtain ⟨hahead, hbound⟩ := hshort hlt
    refine .inr (.inr ⟨hahead, fun c' hc' => ?_⟩)
    obtain rfl := Option.some.inj (hc.symm.trans hc')
    exact hbound
  · refine .inl ?_
    have hpos := h.latest_pos
    simp [caughtUp, hc, hl, h.latest, hpos, hge]

/-- A page that ends the loop is one that reached the head. -/
theorem Page.reached (h : Page H pos bound cid win v page) {result : Answer Unit}
    (hret : afterPage v page = .returned result) :
    result = .ok () ∧ page.latestLedger ≤ scannedThrough page ∧
      ∀ c, page.next = some c → ∀ e ∈ H.of cid, e.ledger < page.latestLedger → e.id ≤ c := by
  obtain ⟨c, l, hc, hl, hshort, horder⟩ := h.cursor
  have hscan : scannedThrough page = l := by simp [scannedThrough, hc, hl]
  have hlatest := h.latest
  have hge : win.latest ≤ l := by
    by_contra hlt
    obtain ⟨⟨c', hc', hahead⟩, hbound⟩ := hshort (by omega)
    unfold afterPage at hret
    split at hret
    · rename_i hends
      rcases hends with hup | hsame
      · simp [caughtUp, hc, hl, h.latest, h.latest_pos] at hup
        omega
      · exact absurd (hahead c' (hsame.symm.trans hc')) (lt_irrefl _)
    · cases hret
  refine ⟨?_, by omega, fun c' hc' e he hlt => ?_⟩
  · unfold afterPage at hret
    split at hret
    · cases hret
      rfl
    · cases hret
  · obtain rfl := Option.some.inj (hc.symm.trans hc')
    exact horder e he (by omega)

/-! ## What the tick holds since its old position -/

/-- From the cursor `c₀` on, nothing is missing up to the cursor held. -/
def Gained (H : History) (cid c₀ : String) (db : Db) : Pc → Prop
  | .getCursor _ => (db.getCursor cid).1 = some c₀
  | .resolve _ | .recordMark _ | .reclampMark _ _ => False
  | .getEvents v | .insertEvent v _ _ _ | .setCursor v _ _ => ∃ c, v.cursor = some c ∧
      Scan.Covered RawEvent.id (H.of cid) (held db) {e | c₀ < e.id} c
  | _ => True

/-- A page being written is one the RPC served. -/
def OnPage (H : History) (pos : String → ℕ) (bound : ℕ) (cid : String) : Pc → Prop
  | .insertEvent v page _ _ | .setCursor v page _ => ∃ win, Page H pos bound cid win v page
  | _ => True

section Steps

variable {c₀ : String} {db db' : Db} {pc pc' : Pc} {reply : Reply}

theorem Frame.gained (h : Frame cid db db') (hg : Gained H cid c₀ db pc) :
    Gained H cid c₀ db' pc := by
  cases pc with
  | getCursor spec => exact (congrArg Prod.fst (getCursor_congr h.cursor)).trans hg
  | getEvents v =>
      obtain ⟨c, hc, hcov⟩ := hg
      exact ⟨c, hc, hcov.mono_held h.held⟩
  | insertEvent v page e rest =>
      obtain ⟨c, hc, hcov⟩ := hg
      exact ⟨c, hc, hcov.mono_held h.held⟩
  | setCursor v page c =>
      obtain ⟨c', hc, hcov⟩ := hg
      exact ⟨c', hc, hcov.mono_held h.held⟩
  | _ => exact hg

/-- The page is written event by event and ends with its cursor. -/
theorem insertNext_of_page (h : Page H pos bound cid win v page) (rest : List RawEvent) :
    (∃ e rest', insertNext v page rest = .insertEvent v page e rest') ∨
      ∃ c, insertNext v page rest = .setCursor v page c := by
  cases rest with
  | cons e rest => exact .inl ⟨e, rest, rfl⟩
  | nil =>
      obtain ⟨c, -, hc, -⟩ := h.cursor
      rcases insertNext_nil v page with ⟨c', -, heq⟩ | ⟨hnone, -⟩
      · exact .inr ⟨c', heq⟩
      · exact absurd (hc.symm.trans hnone) nofun

theorem insertNext_onPage (h : Page H pos bound cid win v page) (rest : List RawEvent) :
    OnPage H pos bound cid (insertNext v page rest) := by
  rcases insertNext_of_page h rest with ⟨e, rest', heq⟩ | ⟨c, heq⟩
  · rw [heq]
    exact ⟨win, h⟩
  · rw [heq]
    exact ⟨win, h⟩

theorem insertNext_gained (h : Page H pos bound cid win v page) (rest : List RawEvent)
    (hg : ∃ c, v.cursor = some c ∧
      Scan.Covered RawEvent.id (H.of cid) (held db) {e | c₀ < e.id} c) :
    Gained H cid c₀ db (insertNext v page rest) := by
  rcases insertNext_of_page h rest with ⟨e, rest', heq⟩ | ⟨c, heq⟩
  · rw [heq]
    exact hg
  · rw [heq]
    exact hg

/-- The cursor that is stored leaves nothing behind it. -/
theorem setCursor_covered {c : String} (hpc : PcOk False H db cid (.setCursor v page c))
    (hg : Gained H cid c₀ db (.setCursor v page c)) :
    Scan.Covered RawEvent.id (H.of cid) (held db) {e | c₀ < e.id} c := by
  obtain ⟨hwriting, hc⟩ := hpc
  obtain ⟨c', hv, hcov⟩ := hg
  exact hcov.extend (hwriting.lists hv hc) subset_rfl

theorem Resumed.onPage (h : Resumed cid db pc reply db' pc')
    (hpage : OnPage H pos bound cid pc)
    (hserved : ∀ v page, pc = .getEvents v → reply = .page (.ok page) →
      ∃ win, Page H pos bound cid win v page) :
    OnPage H pos bound cid pc' := by
  cases h with
  | gotCursor spec now =>
      unfold afterGetCursor
      split <;> trivial
  | refused v e =>
      unfold onError
      split
      · split <;> trivial
      · trivial
  | served v page =>
      obtain ⟨win, hwin⟩ := hserved v page rfl rfl
      exact insertNext_onPage hwin _
  | inserted v page e rest now =>
      obtain ⟨win, hwin⟩ := hpage
      exact insertNext_onPage hwin _
  | advanced v page c now =>
      unfold afterPage
      split <;> trivial
  | _ => trivial

/-- **The step lemma.** -/
theorem Resumed.gains (h : Resumed cid db pc reply db' pc') (hwithin : reply.WithinTick)
    (hpc : PcOk False H db cid pc) (hpage : OnPage H pos bound cid pc)
    (hserved : ∀ v page, pc = .getEvents v → reply = .page (.ok page) →
      ∃ win, Page H pos bound cid win v page)
    (hg : Gained H cid c₀ db pc) : Gained H cid c₀ db' pc' := by
  cases h with
  | crash => cases hwithin
  | begin => cases hwithin
  | dbError => trivial
  | noRange => trivial
  | gotCursor spec now =>
      have hcur : (db.getCursor cid).1 = some c₀ := hg
      unfold afterGetCursor
      rw [if_neg (by simp [hcur])]
      exact ⟨c₀, hcur, fun e _ hpast hle => absurd hpast (not_lt_of_ge hle)⟩
  | resolved => cases hg
  | marked => cases hg
  | reclamped => cases hg
  | refused v e =>
      obtain ⟨c, hc, -⟩ := hg
      unfold onError
      rw [hc]
      trivial
  | served v page =>
      obtain ⟨win, hwin⟩ := hserved v page rfl rfl
      exact insertNext_gained hwin _ hg
  | inserted v page e rest now =>
      obtain ⟨win, hwin⟩ := hpage
      obtain ⟨c, hc, hcov⟩ := hg
      exact insertNext_gained hwin _
        ⟨c, hc, hcov.mono_held (Frame.insertEvent cid db (rowOf e)).held⟩
  | advanced v page c now =>
      have hcov := setCursor_covered hpc hg
      unfold afterPage
      split
      · trivial
      · exact ⟨c, hpc.2, hcov⟩

end Steps

/-! ## Whole ticks -/

section Runs

variable {spec : StartSpec} {pcs : ℕ → Pc} {replies : ℕ → Reply} {before after : ℕ → Db}
  {wins : ℕ → LedgerRange} {n : ℕ}

theorem StoreRun.tickRun (h : StoreRun H cid spec pcs replies before after) :
    TickRun cid spec pcs replies :=
  ⟨h.starts, fun n hn => ⟨(h.answered n hn).1, before n, after n, (h.answered n hn).2⟩⟩

theorem AllAnswered.served (h : AllAnswered H pos bound cid pcs replies wins)
    (hpc : pcs n = .getEvents v) (hreply : replies n = .page (.ok page)) :
    Page H pos bound cid (wins n) v page := by
  cases h.pages n v _ hpc hreply with
  | served page hin hpage => exact hpage

theorem AllAnswered.onward (h : AllAnswered H pos bound cid pcs replies wins) :
    PagesOnward pos bound pcs replies :=
  fun _ _ _ hpc hreply => (h.served hpc hreply).onward

theorem AllAnswered.replyOk (h : AllAnswered H pos bound cid pcs replies wins) (db : Db) :
    ReplyOk False H db cid (pcs n) (replies n) := by
  cases hpc : pcs n with
  | getEvents v =>
      cases hreply : replies n with
      | page answer =>
          cases answer with
          | ok page =>
              have hpage := h.served hpc hreply
              obtain ⟨c, -, hc, -⟩ := hpage.cursor
              exact ⟨hpage.serves, .inr fun hnone => absurd (hc.symm.trans hnone) nofun, nofun⟩
          | error e => exact nofun
      | _ => trivial
  | _ => trivial

/-- What is known of a tick that has not returned yet. -/
structure Along (H : History) (pos : String → ℕ) (bound : ℕ) (cid : String)
    (old : Option String) (db : Db) (pc : Pc) : Prop where
  scanned : Scanned False H db cid
  pcOk : PcOk False H db cid pc
  onPage : OnPage H pos bound cid pc
  gained : ∀ c₀, old = some c₀ → Gained H cid c₀ db pc

theorem StoreRun.along (h : StoreRun H cid spec pcs replies before after)
    (hans : AllAnswered H pos bound cid pcs replies wins)
    (hfirst : Scanned False H (before 0) cid) (hn : ∀ k < n, ¬ (pcs k).Returned) :
    Along H pos bound cid ((before 0).getCursor cid).1 (before n) (pcs n) := by
  induction n with
  | zero =>
      rw [h.starts]
      exact ⟨hfirst, trivial, trivial, fun _ => id⟩
  | succ n ih =>
      have hal := ih fun k hk => hn k (Nat.lt_succ_of_lt hk)
      obtain ⟨hwithin, hresume⟩ := h.answered n (hn n (Nat.lt_succ_self n))
      have hres := resumed_of_resume hresume
      obtain ⟨hscanned, hpcOk⟩ := hres.keeps (hans.replyOk _) (h.rows n) hal.scanned hal.pcOk
      have hserved : ∀ v page, pcs n = .getEvents v → replies n = .page (.ok page) →
          ∃ win, Page H pos bound cid win v page :=
        fun v page hpc hreply => ⟨wins n, hans.served hpc hreply⟩
      have hframe := h.others n
      exact
        { scanned := hframe.scanned hscanned
          pcOk := hframe.pcOk hpcOk
          onPage := hres.onPage hal.onPage hserved
          gained := fun c₀ hc₀ => hframe.gained
            (hres.gains hwithin hal.pcOk hal.onPage hserved (hal.gained c₀ hc₀)) }

/-- Within reach, a tick returns only past a page it has written. -/
theorem StoreRun.last_step (h : StoreRun H cid spec pcs replies before after)
    (hans : AllAnswered H pos bound cid pcs replies wins) (hreach : WithinReach cid pcs wins)
    (hpage : OnPage H pos bound cid (pcs n)) (hn : ¬ (pcs n).Returned)
    (hret : (pcs (n + 1)).Returned) :
    ∃ v page c, pcs n = .setCursor v page c ∧
      after n = (before n).setCursor cid c (max (scannedThrough page) 1) ∧
      pcs (n + 1) = afterPage v page := by
  obtain ⟨hwithin, hresume⟩ := h.answered n hn
  have hres := resumed_of_resume hresume
  have hnot : ∀ {v page rest win}, Page H pos bound cid win v page →
      ¬ (insertNext v page rest).Returned := by
    intro v page rest win hwin ⟨result, hresult⟩
    rcases insertNext_of_page hwin rest with ⟨e, rest', heq⟩ | ⟨c, heq⟩
    · cases heq.symm.trans hresult
    · cases heq.symm.trans hresult
  have hserved := fun v page => @AllAnswered.served H pos bound cid v page pcs replies wins n hans
  have hrefused := hans.pages n
  have hrange := hans.range n
  have hstore := hans.store n
  have hreach' := hreach n
  generalize pcs n = pc at *
  generalize pcs (n + 1) = pc' at *
  generalize replies n = reply at *
  generalize before n = db at *
  generalize after n = db' at *
  cases hres with
  | crash => cases hwithin
  | begin => cases hwithin
  | dbError => exact absurd rfl (hstore _)
  | gotCursor spec now =>
      obtain ⟨result, hresult⟩ := hret
      unfold afterGetCursor at hresult
      split at hresult <;> cases hresult
  | noRange spec a e herr =>
      obtain ⟨range, hok⟩ := hrange a rfl
      rw [RaizStack.resolve, hok] at herr
      cases herr
  | refused v e =>
      -- a refused request starts by ledger, and there is a retry left
      cases hrefused v _ rfl rfl with
      | refused e hout hparse =>
          obtain ⟨hnone, hretry⟩ := (hreach' v rfl).resolve_left hout
          obtain ⟨result, hresult⟩ := hret
          rw [onError, hnone, hparse] at hresult
          simp only [if_pos hretry] at hresult
          cases hresult
  | served v page => exact absurd hret (hnot (hserved v page rfl rfl))
  | inserted v page e rest now =>
      obtain ⟨win, hwin⟩ := hpage
      exact absurd hret (hnot hwin)
  | advanced v page c now => exact ⟨v, page, c, rfl, rfl, rfl⟩
  | resolved => exact absurd hret (by rintro ⟨_, ⟨⟩⟩)
  | marked => exact absurd hret (by rintro ⟨_, ⟨⟩⟩)
  | reclamped => exact absurd hret (by rintro ⟨_, ⟨⟩⟩)

/-- What a tick leaves when it recovers. -/
structure Recovered (H : History) (cid : String) (old : Option String) (latest : Int) (db : Db) :
    Prop where
  head : latest ≤ (db.coverageOf cid).scannedThroughLedger
  stored : ∃ c m, (db.getCursor cid).1 = some c ∧ db.backfillMarks.find? cid = some m ∧
    (∀ e ∈ H.of cid, e.ledger < latest → e.id ≤ c) ∧
    ∀ e ∈ H.of cid, (∀ c₀, old = some c₀ → c₀ < e.id) →
      (old = none → m.effectiveStartLedger ≤ e.ledger) → e.id ≤ c → rowOf e ∈ db.events.rows

/-- The page that ends the tick leaves it recovered. -/
theorem StoreRun.recovered (h : StoreRun H cid spec pcs replies before after)
    (hans : AllAnswered H pos bound cid pcs replies wins)
    (hfirst : Scanned False H (before 0) cid) (hlive : ∀ k < n + 1, ¬ (pcs k).Returned)
    {c : String} (hpc : pcs n = .setCursor v page c)
    (hafter : after n = (before n).setCursor cid c (max (scannedThrough page) 1))
    {result : Answer Unit} (hret : afterPage v page = .returned result) :
    result = .ok () ∧ Recovered H cid ((before 0).getCursor cid).1 page.latestLedger (after n) := by
  have hal := h.along hans hfirst fun k hk => hlive k (Nat.lt_succ_of_lt hk)
  obtain ⟨hwithin, hresume⟩ := h.answered n (hlive n (Nat.lt_succ_self n))
  obtain ⟨hscanned, -⟩ :=
    (resumed_of_resume hresume).keeps (hans.replyOk _) (h.rows n) hal.scanned hal.pcOk
  have hpcOk := hal.pcOk
  have hon := hal.onPage
  have hgained := hal.gained
  rw [hpc] at hpcOk hon hgained
  obtain ⟨win, hpage⟩ := hon
  obtain ⟨hok, hhead, horder⟩ := hpage.reached hret
  have hcursor : (after n).getCursor cid = (some c, max (scannedThrough page) 1) := by
    rw [hafter, getCursor_setCursor]
  refine ⟨hok, ?_, ?_⟩
  · rw [scannedThroughLedger_eq, hcursor]
    exact hhead.trans (le_max_left _ _)
  · have hfind : (after n).cursors.find? cid
        = some ⟨cid, some c, max (scannedThrough page) 1⟩ := by
      rw [hafter, Db.find?_cursors_setCursor, if_pos rfl]
    obtain ⟨c', m, hc', hm, hcov, -⟩ := hscanned _ hfind
    obtain rfl := Option.some.inj hc'
    refine ⟨c, m, congrArg Prod.fst hcursor, hm, horder c hpcOk.2, ?_⟩
    intro e he hafter₀ hmark hle
    cases hold : ((before 0).getCursor cid).1 with
    | none => exact hcov e he (hmark hold) hle
    | some c₀ =>
        have hheld := setCursor_covered hpcOk (hgained c₀ hold) e he (hafter₀ c₀ hold) hle
        rw [hafter]
        exact hheld

/-- **A tick within reach recovers**: it returns `Ok` after it has written
a page, with that page's head behind it and the events from the old
position to the new one stored. One that asks by a cursor out of reach is
over, and the store is as it was. -/
theorem tick_recovers {w : World String}
    (hw : Lts.Reach (· = World.fresh String) (ingestStep H id CursorOrEnd) w)
    (hrun : StoreRun H cid spec pcs replies before after) (hstart : before 0 = w.db)
    (hans : AllAnswered H pos bound cid pcs replies wins) :
    (WithinReach cid pcs wins →
      ∃ n v page c, pcs n = .setCursor v page c ∧ pcs (n + 1) = .returned (.ok ()) ∧
        Recovered H cid (w.db.getCursor cid).1 page.latestLedger (after n)) ∧
    ∀ n v c e, pcs n = .getEvents v → v.cursor = some c → replies n = .page (.error e) →
      pcs (n + 1) = .returned (.error e) ∧ after n = before n := by
  constructor
  · intro hreach
    have hfirst : Scanned False H (before 0) cid := hstart ▸ (ScanInv.of_reach hw).scanned cid
    rw [← hstart]
    obtain ⟨n, hlive, hret⟩ := hrun.tickRun.exists_last hans.onward
    have hal := hrun.along hans hfirst fun k hk => hlive k (Nat.lt_succ_of_lt hk)
    obtain ⟨v, page, c, hpc, hafter, hnext⟩ :=
      hrun.last_step hans hreach hal.onPage (hlive n (Nat.lt_succ_self n)) hret
    obtain ⟨result, hresult⟩ := hret
    obtain ⟨rfl, hrecovered⟩ :=
      hrun.recovered hans hfirst hlive hpc hafter (hnext.symm.trans hresult)
    exact ⟨n, v, page, c, hpc, hresult, hrecovered⟩
  · intro n v c e hpc hcur hreply
    obtain ⟨hwithin, hresume⟩ := hrun.answered n (by rw [hpc]; rintro ⟨_, ⟨⟩⟩)
    rw [hpc, hreply] at hresume
    have hstep : some (before n, onError v e) = some (after n, pcs (n + 1)) := hresume
    obtain ⟨hdb, hpc'⟩ := Prod.mk.inj (Option.some.inj hstep)
    refine ⟨hpc'.symm.trans ?_, hdb.symm⟩
    rw [onError, hcur]

end Runs

/-- The stores of a first tick that reads the window 5 - 70 in two pages. -/
def openedDb : Db :=
  Db.empty.recordBackfillMark "CA" (StartPlan.resolve ⟨5, 70⟩ .oldest) ""

def halfwayDb : Db :=
  (openedDb.insertEvent (rowOf loneEvent)).setCursor "CA" "0000000085899345920-0000000000" 20

def catchUpDb : ℕ → Db
  | 0 | 1 | 2 => .empty
  | 3 | 4 => openedDb
  | 5 => openedDb.insertEvent (rowOf loneEvent)
  | 6 | 7 => halfwayDb
  | 8 => halfwayDb.insertEvent (rowOf lateEvent)
  | _ => (halfwayDb.insertEvent (rowOf lateEvent)).setCursor "CA"
      "0000000300647710720-0000000000" 70

/-- The first of the two pages. -/
def earlyPage : GetEventsResult := { lonePage with latestLedger := 70 }

def atStart : Locals := { start := some 5, cursor := none, clampRetries := 0 }

def atCursor : Locals :=
  { start := some 5, cursor := some "0000000085899345920-0000000000", clampRetries := 0 }

def catchUpPc : ℕ → Pc
  | 0 => .getCursor .oldest
  | 1 => .resolve .oldest
  | 2 => .recordMark (StartPlan.resolve ⟨5, 70⟩ .oldest)
  | 3 => .getEvents atStart
  | 4 => .insertEvent atStart earlyPage loneEvent []
  | 5 => .setCursor atStart earlyPage "0000000085899345920-0000000000"
  | 6 => .getEvents atCursor
  | 7 => .insertEvent atCursor latePage lateEvent []
  | 8 => .setCursor atCursor latePage "0000000300647710720-0000000000"
  | _ => .returned (.ok ())

def catchUpReply : ℕ → Reply
  | 1 => .range ⟨.ok (some 5, some 70), .error "", .error ""⟩
  | 3 => .page (.ok earlyPage)
  | 6 => .page (.ok latePage)
  | _ => .dbOk ""

theorem catchUp_run :
    StoreRun outageHistory "CA" .oldest catchUpPc catchUpReply catchUpDb
      (fun n => catchUpDb (n + 1)) where
  starts := rfl
  answered := fun n hn => by
    match n with
    | 0 | 1 | 2 | 3 | 4 | 5 | 6 | 7 | 8 => exact ⟨trivial, rfl⟩
    | n + 9 => exact absurd ⟨.ok (), rfl⟩ hn
  others := fun _ => .refl _ _
  rows := fun n => by
    have hrows : ∀ db : Db, (∀ r ∈ db.events.rows, r ∈ [rowOf loneEvent, rowOf lateEvent]) →
        RowsOf outageHistory db := by
      intro db hsub r hr
      rcases List.mem_pair.mp (hsub r hr) with rfl | rfl
      · exact ⟨loneEvent, .inl rfl, rfl⟩
      · exact ⟨lateEvent, .inr rfl, rfl⟩
    refine hrows _ fun r hr => ?_
    match n with
    | 0 | 1 | 2 | 3 | 4 => cases hr
    | 5 | 6 | 7 => exact List.mem_cons.mpr (.inl (List.mem_singleton.mp hr))
    | 8 => exact hr
    | n + 9 => exact hr

theorem earlyPage_window :
    Page outageHistory ledgerNumber 70 "CA" ⟨5, 70⟩ atStart earlyPage where
  serves := ⟨lonePage_serves_outage.ordered, lonePage_serves_outage.lists⟩
  latest := rfl
  latest_pos := by decide
  cursor := by
    refine ⟨"0000000085899345920-0000000000", 20, rfl, by decide, fun _ => ⟨⟨_, rfl, nofun⟩, ?_⟩, ?_⟩
    · decide
    · rintro e ⟨rfl | rfl, -⟩ hlt
      · decide
      · exact absurd hlt (by decide)

theorem latePage_window :
    Page outageHistory ledgerNumber 70 "CA" ⟨5, 70⟩ atCursor latePage where
  serves := latePage_serves _
  latest := rfl
  latest_pos := by decide
  cursor := by
    refine ⟨"0000000300647710720-0000000000", 70, rfl, by decide, ?_, ?_⟩
    · exact fun hlt => absurd hlt (lt_irrefl _)
    · rintro e ⟨rfl | rfl, -⟩ - <;> decide

/-- A first tick over the window 5 - 70 comes to its head in two pages. -/
theorem tick_recovers_catchUp :
    Lts.Reach (· = World.fresh String) (ingestStep outageHistory id CursorOrEnd)
        (World.fresh String) ∧
      ∃ n v page c, catchUpPc n = .setCursor v page c ∧ catchUpPc (n + 1) = .returned (.ok ()) ∧
        Recovered outageHistory "CA" none page.latestLedger (catchUpDb (n + 1)) := by
  have hstart : LedgerRange.Has ⟨5, 70⟩ (requestOf "CA" atStart) :=
    ⟨5, rfl, by decide, by decide⟩
  have hcursor : LedgerRange.Has ⟨5, 70⟩ (requestOf "CA" atCursor) :=
    ⟨20, by decide, by decide, by decide⟩
  have hans : AllAnswered outageHistory ledgerNumber 70 "CA" catchUpPc catchUpReply
      (fun _ => ⟨5, 70⟩) := by
    refine ⟨fun n e h => ?_, fun n a h => ?_, fun n v answer hpc hreply => ?_⟩
    · match n with
      | 0 | 1 | 2 | 3 | 4 | 5 | 6 => cases h
      | n + 7 => cases h
    · match n with
      | 1 =>
          cases h
          exact ⟨_, rfl⟩
      | 0 | 2 | 3 | 4 | 5 | 6 => cases h
      | n + 7 => cases h
    · match n with
      | 3 =>
          cases hpc
          cases hreply
          exact .served _ hstart earlyPage_window
      | 6 =>
          cases hpc
          cases hreply
          exact .served _ hcursor latePage_window
      | 0 | 1 | 2 | 4 | 5 | 7 | 8 => cases hpc
      | n + 9 => cases hpc
  have hreach : WithinReach "CA" catchUpPc (fun _ => ⟨5, 70⟩) := by
    intro n v hpc
    match n with
    | 3 =>
        cases hpc
        exact .inl hstart
    | 6 =>
        cases hpc
        exact .inl hcursor
    | 0 | 1 | 2 | 4 | 5 | 7 | 8 => cases hpc
    | n + 9 => cases hpc
  exact ⟨.init rfl, (tick_recovers (.init rfl) catchUp_run rfl hans).1 hreach⟩

/-- The stores of a first tick over the window 5 - 20. -/
def markedDb : Db :=
  Db.empty.recordBackfillMark "CA" (StartPlan.resolve ⟨5, 20⟩ .oldest) ""

def caughtUpDb : Db :=
  (markedDb.insertEvent (rowOf loneEvent)).setCursor "CA" "0000000085899345920-0000000000" 20

/-! ## A cursor the window has passed -/

/-- The window after the outage is 50 - 100, the stored cursor in ledger 20. -/
def rangeError : String := "startLedger must be within the ledger range: 50 - 100"

def outagePc : ℕ → Pc
  | 0 => .getCursor .oldest
  | 1 => .getEvents ⟨some 20, some "0000000085899345920-0000000000", 0⟩
  | _ => .returned (.error rangeError)

def outageReply : ℕ → Reply
  | 1 => .page (.error rangeError)
  | _ => .dbOk ""

/-- A first tick over a window that moves on before each request. -/
def movingPc : ℕ → Pc
  | 0 => .getCursor .oldest
  | 1 => .resolve .oldest
  | 2 => .recordMark (StartPlan.resolve ⟨5, 20⟩ .oldest)
  | 3 => .getEvents ⟨some 5, none, 0⟩
  | 4 => .reclampMark ⟨some 50, none, 1⟩ 50
  | 5 => .getEvents ⟨some 50, none, 1⟩
  | 6 => .reclampMark ⟨some 60, none, 2⟩ 60
  | 7 => .getEvents ⟨some 60, none, 2⟩
  | 8 => .reclampMark ⟨some 70, none, 3⟩ 70
  | 9 => .getEvents ⟨some 70, none, 3⟩
  | _ => .returned (.error "startLedger must be within the ledger range: 80 - 130")

def movingReply : ℕ → Reply
  | 1 => .range ⟨.ok (some 5, some 20), .error "", .error ""⟩
  | 3 => .page (.error rangeError)
  | 5 => .page (.error "startLedger must be within the ledger range: 60 - 110")
  | 7 => .page (.error "startLedger must be within the ledger range: 70 - 120")
  | 9 => .page (.error "startLedger must be within the ledger range: 80 - 130")
  | _ => .dbOk ""

def movingWindow : ℕ → LedgerRange
  | 3 => ⟨50, 100⟩
  | 5 => ⟨60, 110⟩
  | 7 => ⟨70, 120⟩
  | _ => ⟨80, 130⟩

def movingDb : ℕ → Db
  | 0 | 1 | 2 => .empty
  | 3 | 4 => markedDb
  | 5 | 6 => markedDb.reclampBackfillMark "CA" 50
  | 7 | 8 => (markedDb.reclampBackfillMark "CA" 50).reclampBackfillMark "CA" 60
  | _ => ((markedDb.reclampBackfillMark "CA" 50).reclampBackfillMark "CA" 60).reclampBackfillMark
      "CA" 70

theorem moving_run :
    StoreRun outageHistory "CA" .oldest movingPc movingReply movingDb
      (fun n => movingDb (n + 1)) where
  starts := rfl
  answered := fun n hn => by
    match n with
    | 0 | 1 | 2 | 3 | 4 | 5 | 6 | 7 | 8 | 9 => exact ⟨trivial, rfl⟩
    | n + 10 => exact absurd ⟨.error _, rfl⟩ hn
  others := fun _ => .refl _ _
  rows := fun n r hr => by
    match n with
    | 0 | 1 | 2 | 3 | 4 | 5 | 6 | 7 | 8 => cases hr
    | n + 9 => cases hr

theorem moving_answered :
    AllAnswered outageHistory (fun _ => 0) 1 "CA" movingPc movingReply movingWindow := by
  have hout : ∀ {l oldest latest : Int}, l < oldest → max l 1 = l →
      ∀ retries, ¬ LedgerRange.Has ⟨oldest, latest⟩ (requestOf "CA" ⟨some l, none, retries⟩) := by
    rintro l oldest latest hlt hmax retries ⟨l', hl, hge, -⟩
    obtain rfl : max l 1 = l' := Option.some.inj hl
    exact absurd (hge.trans_eq hmax) (not_le_of_gt hlt)
  refine ⟨fun n e h => ?_, fun n a h => ?_, fun n v answer hpc hreply => ?_⟩
  · match n with
    | 0 | 1 | 2 | 3 | 4 | 5 | 6 | 7 | 8 | 9 => cases h
    | n + 10 => cases h
  · match n with
    | 1 =>
        cases h
        exact ⟨_, rfl⟩
    | 0 | 2 | 3 | 4 | 5 | 6 | 7 | 8 | 9 => cases h
    | n + 10 => cases h
  · match n with
    | 3 | 5 | 7 | 9 =>
        cases hpc
        cases hreply
        exact .refused _ (hout (by decide) (by decide) _) (by decide)
    | 0 | 1 | 2 | 4 | 6 | 8 => cases hpc
    | n + 10 => cases hpc

/-- **A tick does not always recover.** After an outage longer than the
window it returns the range error, the scan stays at ledger 20, and the
event of ledger 60 is not stored though the RPC holds it. And a first
tick gives up when the window has moved past its start four times. -/
theorem outage_not_recovered :
    (∃ w : World String,
      Lts.Reach (· = World.fresh String) (ingestStep outageHistory id CursorOrEnd) w ∧
      (w.db.getCursor "CA").1 = some "0000000085899345920-0000000000" ∧
      StoreRun outageHistory "CA" .oldest outagePc outageReply (fun _ => w.db) (fun _ => w.db) ∧
      AllAnswered outageHistory (fun _ => 0) 1 "CA" outagePc outageReply (fun _ => ⟨50, 100⟩) ∧
      outagePc 2 = .returned (.error rangeError) ∧
      (w.db.coverageOf "CA").scannedThroughLedger = 20 ∧
      lateEvent ∈ outageHistory.of "CA" ∧ 50 ≤ lateEvent.ledger ∧
      "0000000085899345920-0000000000" < lateEvent.id ∧ rowOf lateEvent ∉ w.db.events.rows) ∧
    StoreRun outageHistory "CA" .oldest movingPc movingReply movingDb
      (fun n => movingDb (n + 1)) ∧
    movingDb 0 = (World.fresh String).db ∧
    AllAnswered outageHistory (fun _ => 0) 1 "CA" movingPc movingReply movingWindow ∧
    (∃ e, movingPc 10 = .returned (.error e)) ∧
    ((movingDb 10).coverageOf "CA").scannedThroughLedger = 0 := by
  refine ⟨?_, moving_run, rfl, moving_answered, ⟨_, rfl⟩, rfl⟩
  have hfresh : Lts.Reach (· = World.fresh String) (ingestStep outageHistory id CursorOrEnd)
      (World.fresh String) := .init rfl
  have hreach := hfresh
    |>.next ("CA", .begin .oldest) trivial rfl
    |>.next ("CA", .dbOk "") trivial rfl
    |>.next ("CA", .range ⟨.ok (some 5, some 20), .error "", .error ""⟩) trivial rfl
    |>.next ("CA", .dbOk "") trivial rfl
    |>.next ("CA", .page (.ok lonePage)) ⟨lonePage_serves_outage, nofun⟩ rfl
    |>.next ("CA", .dbOk "") trivial rfl
    |>.next ("CA", .dbOk "") trivial rfl
  have hrun : StoreRun outageHistory "CA" .oldest outagePc outageReply (fun _ => caughtUpDb)
      (fun _ => caughtUpDb) :=
    { starts := rfl
      answered := fun n hn => by
        match n with
        | 0 | 1 => exact ⟨trivial, rfl⟩
        | n + 2 => exact absurd ⟨.error rangeError, rfl⟩ hn
      others := fun _ => .refl _ _
      rows := fun _ r hr => ⟨loneEvent, .inl rfl, List.mem_singleton.mp hr⟩ }
  have hans : AllAnswered outageHistory (fun _ => 0) 1 "CA" outagePc outageReply
      (fun _ => ⟨50, 100⟩) := by
    refine ⟨fun n e h => ?_, fun n a h => ?_, fun n v answer hpc hreply => ?_⟩
    · match n with
      | 0 | 1 => cases h
      | n + 2 => cases h
    · match n with
      | 0 | 1 => cases h
      | n + 2 => cases h
    · match n with
      | 0 => cases hpc
      | 1 =>
          cases hpc
          cases hreply
          refine .refused _ ?_ (by decide)
          rintro ⟨l, hl, hge, -⟩
          obtain rfl : (20 : Int) = l := Option.some.inj hl
          exact absurd hge (by decide)
      | n + 2 => cases hpc
  refine ⟨_, hreach, rfl, hrun, hans, rfl, rfl, ⟨.inr rfl, rfl⟩, by decide, by decide, ?_⟩
  intro hrow
  have hid : lateEvent.id = loneEvent.id := congrArg EventRow.id (List.mem_singleton.mp hrow)
  exact absurd hid (by decide)

end RaizStack
