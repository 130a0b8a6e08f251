import Mathlib.Data.Nat.Count
import Mathlib.Data.Prod.Lex
import Mathlib.Order.WellFounded
import RaizStack.MemIngest

/-!
# When a tick ends

The page loop has no bound of its own. It stops at the head, or when a
cursor repeats the one before it; a cursor that is merely not ahead does
not stop it. With pages that are `Onward` - at the head, under the same
cursor, or under one that is ahead in some numbering - every round leaves
fewer positions below the bound, and each error that is retried leaves
fewer retries. So there is a budget of requests (`budget`), and between
two requests a tick has only the rows of its page to write (`pending`).

Ahead is meant of the scan: the numbering follows the positions that the
cursors encode (`AlongScan`), and a page moves the scan on when its cursor
encodes a later position than the request started from (`Advances`).

Whatever the store holds, and whatever other tasks do to it meanwhile: a
`TickRun` takes a store of its own at each step.
-/

namespace RaizStack

/-! ## One tick -/

def Pc.Returned (pc : Pc) : Prop :=
  ∃ result, pc = .returned result

/-- An answer to a tick that goes on. -/
def Reply.WithinTick : Reply → Prop
  | .crash | .begin _ => False
  | _ => True

/-- A tick of contract `cid`, answered until it returns. -/
structure TickRun (cid : String) (spec : StartSpec) (pcs : ℕ → Pc) (replies : ℕ → Reply) :
    Prop where
  starts : pcs 0 = .getCursor spec
  answered : ∀ n, ¬ (pcs n).Returned → (replies n).WithinTick ∧
    ∃ db db', resume cid db (pcs n) (replies n) = some (db', pcs (n + 1))

/-- Waiting for a `getEvents` request. The window of a first run may take
one, for its probe. -/
def Pc.asks : Pc → Bool
  | .getEvents _ | .resolve _ => true
  | _ => false

/-- The requests a tick sent before step `n`. -/
def requests (pcs : ℕ → Pc) (n : ℕ) : ℕ :=
  Nat.count (fun k => (pcs k).asks = true) n

/-! ## Pages that get on -/

/-- The cursor of the page is ahead of the one it was asked by. -/
def Ahead (pos : String → ℕ) (v : Locals) (page : GetEventsResult) : Prop :=
  ∃ c, page.next = some c ∧ ∀ c₀, v.cursor = some c₀ → pos c₀ < pos c

/-- A page at the head, one under the same cursor, or one under a cursor
ahead that is within the bound. -/
def Onward (pos : String → ℕ) (bound : ℕ) (v : Locals) (page : GetEventsResult) : Prop :=
  caughtUp page = true ∨ page.next = v.cursor ∨
    Ahead pos v page ∧ ∀ c, page.next = some c → pos c < bound

section Measure

variable (pos : String → ℕ) (bound : ℕ)

/-- The positions up to a cursor. -/
def rank : Option String → ℕ
  | none => 0
  | some c => pos c + 1

/-- The requests that can follow those of these locals. -/
def more (v : Locals) : ℕ :=
  (maxClampRetries - v.clampRetries) + (bound - rank pos v.cursor)

/-- The requests a tick can still send. -/
def budget : Pc → ℕ
  | .idle | .returned _ => 0
  | .getCursor _ | .resolve _ => bound + maxClampRetries + 2
  | .recordMark _ => bound + maxClampRetries + 1
  | .getEvents v | .reclampMark v _ => more pos bound v + 1
  | .insertEvent v _ _ _ | .setCursor v _ _ => more pos bound v

/-- The statements a tick still runs before its next request. -/
def pending : Pc → ℕ
  | .getCursor _ => 3
  | .resolve _ => 2
  | .recordMark _ | .reclampMark _ _ | .setCursor _ _ _ => 1
  | .insertEvent _ _ _ rest => rest.length + 2
  | _ => 0

/-- Within a tick, and any page being written is one that gets on. -/
def TickOk : Pc → Prop
  | .idle => False
  | .insertEvent v page _ _ => Onward pos bound v page
  | .setCursor v page _ => Onward pos bound v page
  | _ => True

variable {pos bound}

theorem rank_some (c : String) : rank pos (some c) = pos c + 1 := rfl

theorem afterPage_budget {v : Locals} {page : GetEventsResult} (h : Onward pos bound v page) :
    budget pos bound (afterPage v page) ≤ more pos bound v ∧ pending (afterPage v page) = 0 ∧
      TickOk pos bound (afterPage v page) := by
  unfold afterPage
  split
  · exact ⟨Nat.zero_le _, rfl, trivial⟩
  rename_i hloop
  obtain ⟨⟨c, hc, hahead⟩, hbound⟩ :=
    (h.resolve_left fun hup => hloop (.inl hup)).resolve_left fun hsame => hloop (.inr hsame)
  have hlt := hbound c hc
  have hrank : rank pos v.cursor ≤ pos c := by
    cases hcur : v.cursor with
    | none => exact Nat.zero_le _
    | some c₀ => exact hahead c₀ hcur
  refine ⟨?_, rfl, trivial⟩
  simp only [budget, more, hc, rank_some]
  omega

theorem insertNext_budget {v : Locals} {page : GetEventsResult} (h : Onward pos bound v page)
    (rest : List RawEvent) :
    budget pos bound (insertNext v page rest) ≤ more pos bound v ∧
      pending (insertNext v page rest) ≤ rest.length + 1 ∧
      TickOk pos bound (insertNext v page rest) := by
  cases rest with
  | cons e rest => exact ⟨le_rfl, le_rfl, h⟩
  | nil =>
      rcases insertNext_nil v page with ⟨c, -, heq⟩ | ⟨-, heq⟩
      · rw [heq]
        exact ⟨le_rfl, le_rfl, h⟩
      · rw [heq]
        obtain ⟨hbudget, hpending, hok⟩ := afterPage_budget h
        exact ⟨hbudget, by omega, hok⟩

theorem onError_budget (v : Locals) (e : String) :
    budget pos bound (onError v e) ≤ more pos bound v ∧ TickOk pos bound (onError v e) := by
  unfold onError
  split
  · split
    · refine ⟨?_, trivial⟩
      simp only [budget, more]
      omega
    · exact ⟨Nat.zero_le _, trivial⟩
  · exact ⟨Nat.zero_le _, trivial⟩

theorem afterGetCursor_budget (spec : StartSpec) (cursor : Option String) (lastLedger : Int) :
    budget pos bound (afterGetCursor spec cursor lastLedger) ≤ bound + maxClampRetries + 2 ∧
      pending (afterGetCursor spec cursor lastLedger) ≤ 2 ∧
      TickOk pos bound (afterGetCursor spec cursor lastLedger) := by
  unfold afterGetCursor
  split
  · exact ⟨le_rfl, le_rfl, trivial⟩
  · refine ⟨?_, Nat.zero_le _, trivial⟩
    simp only [budget, more]
    omega

/-- What an answer does to the budget: it pays for the request it
answers, and leaves less to do. -/
structure Pays (pos : String → ℕ) (bound : ℕ) (pc pc' : Pc) : Prop where
  paid : (if pc.asks = true then 1 else 0) + budget pos bound pc' ≤ budget pos bound pc
  less : toLex (budget pos bound pc', pending pc') < toLex (budget pos bound pc, pending pc)
  ok : TickOk pos bound pc'

/-- The answer to a request. -/
theorem Pays.of_asks {pc pc' : Pc} (hlt : budget pos bound pc' < budget pos bound pc)
    (hok : TickOk pos bound pc') : Pays pos bound pc pc' where
  paid := by split <;> omega
  less := Prod.Lex.toLex_lt_toLex.mpr (.inl hlt)
  ok := hok

/-- The answer to a statement. -/
theorem Pays.of_pending {pc pc' : Pc} (hasks : pc.asks = false)
    (hle : budget pos bound pc' ≤ budget pos bound pc) (hlt : pending pc' < pending pc)
    (hok : TickOk pos bound pc') : Pays pos bound pc pc' where
  paid := by simpa [hasks] using hle
  less := Prod.Lex.toLex_lt_toLex.mpr (hle.lt_or_eq.imp_right fun heq => ⟨heq, hlt⟩)
  ok := hok

/-- **The step lemma.** -/
theorem Resumed.pays {cid : String} {db db' : Db} {pc pc' : Pc} {reply : Reply}
    (h : Resumed cid db pc reply db' pc') (hwithin : reply.WithinTick)
    (hok : TickOk pos bound pc) (hrun : ¬ pc.Returned)
    (hpage : ∀ v page, pc = .getEvents v → reply = .page (.ok page) → Onward pos bound v page) :
    Pays pos bound pc pc' := by
  cases h with
  | crash => cases hwithin
  | begin => cases hwithin
  | dbError e =>
      cases pc with
      | idle => cases hok
      | returned result => exact absurd ⟨result, rfl⟩ hrun
      | getEvents v => exact .of_asks (Nat.succ_pos _) trivial
      | resolve spec => exact .of_asks (Nat.succ_pos _) trivial
      | _ => exact .of_pending rfl (Nat.zero_le _) (Nat.succ_pos _) trivial
  | gotCursor spec now =>
      obtain ⟨hle, hpending, hok'⟩ :=
        @afterGetCursor_budget pos bound spec (db.getCursor cid).1 (db.getCursor cid).2
      exact .of_pending rfl hle (Nat.lt_succ_of_le hpending) hok'
  | noRange spec a e herr => exact .of_asks (Nat.succ_pos _) trivial
  | resolved spec a plan hplan => exact .of_asks (Nat.lt_succ_self _) trivial
  | marked plan now =>
      refine .of_pending rfl ?_ Nat.one_pos trivial
      simp only [budget, more]
      omega
  | refused v e =>
      obtain ⟨hle, hok'⟩ := @onError_budget pos bound v e
      exact .of_asks (Nat.lt_succ_of_le hle) hok'
  | served v page =>
      obtain ⟨hle, -, hok'⟩ := insertNext_budget (hpage v page rfl rfl) page.events
      exact .of_asks (Nat.lt_succ_of_le hle) hok'
  | reclamped v oldest now => exact .of_pending rfl le_rfl Nat.one_pos trivial
  | inserted v page e rest now =>
      obtain ⟨hle, hpending, hok'⟩ := insertNext_budget hok rest
      exact .of_pending rfl hle (Nat.lt_succ_of_le hpending) hok'
  | advanced v page c now =>
      obtain ⟨hle, hpending, hok'⟩ := afterPage_budget hok
      exact .of_pending rfl hle (by rw [hpending]; exact Nat.one_pos) hok'

end Measure

/-! ## Every such tick -/

/-- The condition: the pages of the run get on. -/
def PagesOnward (pos : String → ℕ) (bound : ℕ) (pcs : ℕ → Pc) (replies : ℕ → Reply) : Prop :=
  ∀ n v page, pcs n = .getEvents v → replies n = .page (.ok page) → Onward pos bound v page

section Runs

variable {pos : String → ℕ} {bound : ℕ} {cid : String} {spec : StartSpec} {pcs : ℕ → Pc}
  {replies : ℕ → Reply}

/-- Until the tick returns, what was sent and what can be sent is within
the budget. -/
theorem TickRun.budgeted (h : TickRun cid spec pcs replies)
    (hpages : PagesOnward pos bound pcs replies) {n : ℕ} (hn : ∀ k < n, ¬ (pcs k).Returned) :
    TickOk pos bound (pcs n) ∧
      requests pcs n + budget pos bound (pcs n) ≤ bound + maxClampRetries + 2 := by
  induction n with
  | zero =>
      rw [h.starts, requests, Nat.count_zero, Nat.zero_add]
      exact ⟨trivial, le_rfl⟩
  | succ n ih =>
      obtain ⟨hok, hle⟩ := ih fun k hk => hn k (Nat.lt_succ_of_lt hk)
      have hrun := hn n (Nat.lt_succ_self n)
      obtain ⟨hwithin, db, db', hresume⟩ := h.answered n hrun
      have hpays : Pays pos bound (pcs n) (pcs (n + 1)) :=
        (resumed_of_resume hresume).pays hwithin hok hrun (hpages n)
      have hpaid := hpays.paid
      refine ⟨hpays.ok, ?_⟩
      rw [requests, Nat.count_succ]
      rw [requests] at hle
      omega

/-- The tick comes to its end. -/
theorem TickRun.returns (h : TickRun cid spec pcs replies)
    (hpages : PagesOnward pos bound pcs replies) : ∃ n, (pcs n).Returned := by
  by_contra hnever
  have hrun : ∀ k, ¬ (pcs k).Returned := fun k hk => hnever ⟨k, hk⟩
  have hfalls : ∀ n, toLex (budget pos bound (pcs (n + 1)), pending (pcs (n + 1)))
      < toLex (budget pos bound (pcs n), pending (pcs n)) := by
    intro n
    obtain ⟨hwithin, db, db', hresume⟩ := h.answered n (hrun n)
    exact ((resumed_of_resume hresume).pays hwithin (h.budgeted hpages fun k _ => hrun k).1
      (hrun n) (hpages n)).less
  obtain ⟨n, hn⟩ := WellFounded.not_rel_apply_succ (r := (· < ·))
    fun n => toLex (budget pos bound (pcs n), pending (pcs n))
  exact hn (hfalls n)

/-- The step that ends the tick. -/
theorem TickRun.exists_last (h : TickRun cid spec pcs replies)
    (hpages : PagesOnward pos bound pcs replies) :
    ∃ n, (∀ k < n + 1, ¬ (pcs k).Returned) ∧ (pcs (n + 1)).Returned := by
  classical
  have hreturns := h.returns hpages
  obtain ⟨n, hn⟩ : ∃ n, Nat.find hreturns = n + 1 := by
    refine Nat.exists_eq_succ_of_ne_zero fun hzero => ?_
    obtain ⟨result, hresult⟩ := (Nat.find_eq_zero hreturns).mp hzero
    cases h.starts.symm.trans hresult
  exact ⟨n, fun k hk => Nat.find_min hreturns (hn ▸ hk), hn ▸ Nat.find_spec hreturns⟩

/-! ## Pages that move the scan on -/

/-- Where the scan stands at a cursor "TOID-eventIndex". -/
def scanPosition (c : String) : Option (ℕ ×ₗ ℕ) :=
  let parts := Text.cut ['-'] c.toList
  (Text.parseU64 parts.1).map fun toid => toLex (toid, (parts.2.bind Text.parseU64).getD 0)

/-- Where the scan stands before a request. A start ledger stands where the
cursor does that the RPC hands out at the end of the ledger before. -/
def EventsFrom.scanPosition : EventsFrom → Option (ℕ ×ₗ ℕ)
  | .startLedger l => some (toLex (l.toNat * 2 ^ 32 - 1, 2 ^ 32 - 1))
  | .cursor c => RaizStack.scanPosition c

example : scanPosition "0016449724743679999-4294967295"
    = (EventsFrom.startLedger 3830000).scanPosition := by decide

/-- Cursors are numbered along the scan, as far as they can be decoded. -/
def AlongScan (pos : String → ℕ) : Prop :=
  ∀ c c' p p', scanPosition c = some p → scanPosition c' = some p' → p ≤ p' → pos c ≤ pos c'

/-- The page moves the scan on: its cursor is ahead of the one it was asked
by, and encodes a later position than the request started from. -/
def Advances (pos : String → ℕ) (cid : String) (v : Locals) (page : GetEventsResult) : Prop :=
  Ahead pos v page ∧ ∀ c p₀ p, page.next = some c →
    (requestOf cid v).startFrom.scanPosition = some p₀ → scanPosition c = some p → p₀ < p

/-- The condition: a page is at the head, or comes under the cursor it was
asked by, or moves the scan on within the bound. -/
structure PagesAdvance (pos : String → ℕ) (bound : ℕ) (cid : String) (pcs : ℕ → Pc)
    (replies : ℕ → Reply) : Prop where
  along : AlongScan pos
  pages : ∀ n v page, pcs n = .getEvents v → replies n = .page (.ok page) →
    caughtUp page = true ∨ page.next = v.cursor ∨
      Advances pos cid v page ∧ ∀ c, page.next = some c → pos c < bound

theorem PagesAdvance.onward (h : PagesAdvance pos bound cid pcs replies) :
    PagesOnward pos bound pcs replies := by
  intro n v page hpc hreply
  refine (h.pages n v page hpc hreply).imp_right (Or.imp_right ?_)
  rintro ⟨hadv, hbound⟩
  exact ⟨hadv.1, hbound⟩

/-- What one answer keeps holds until the tick returns. -/
theorem TickRun.kept {P : Pc → Prop} {n m : ℕ} (h : TickRun cid spec pcs replies)
    (hstep : ∀ k, n < k → ∀ db db', Resumed cid db (pcs k) (replies k) db' (pcs (k + 1)) →
      (replies k).WithinTick → P (pcs k) → P (pcs (k + 1)))
    (hfirst : P (pcs (n + 1))) (hlt : n < m) (hlive : ∀ k < m, ¬ (pcs k).Returned) :
    P (pcs m) := by
  induction m, hlt using Nat.le_induction with
  | base => exact hfirst
  | succ m hlt ih =>
      obtain ⟨hwithin, db, db', hresume⟩ := h.answered m (hlive m (Nat.lt_succ_self m))
      exact hstep m hlt db db' (resumed_of_resume hresume) hwithin
        (ih fun k hk => hlive k (Nat.lt_succ_of_lt hk))

/-- The request at step `n` is the last of its tick. -/
def LastRequest (pcs : ℕ → Pc) (n : ℕ) : Prop :=
  ∀ m, n < m → (∀ k < m, ¬ (pcs k).Returned) → (pcs m).asks = false

/-- Writing a page that ends the loop. -/
def WritesLast (v : Locals) (page : GetEventsResult) : Pc → Prop
  | .insertEvent v' page' _ _ | .setCursor v' page' _ => v' = v ∧ page' = page
  | .returned _ => True
  | _ => False

theorem insertNext_writesLast {v : Locals} {page : GetEventsResult} {result : Answer Unit}
    (hends : afterPage v page = .returned result) (rest : List RawEvent) :
    WritesLast v page (insertNext v page rest) := by
  cases rest with
  | cons e rest => exact ⟨rfl, rfl⟩
  | nil =>
      rcases insertNext_nil v page with ⟨c, -, heq⟩ | ⟨-, heq⟩
      · rw [heq]
        exact ⟨rfl, rfl⟩
      · rw [heq, hends]
        trivial

theorem Resumed.writesLast {db db' : Db} {pc pc' : Pc} {reply : Reply} {v : Locals}
    {page : GetEventsResult} {result : Answer Unit} (h : Resumed cid db pc reply db' pc')
    (hwithin : reply.WithinTick) (hends : afterPage v page = .returned result)
    (hpc : WritesLast v page pc) : WritesLast v page pc' := by
  cases h with
  | crash => cases hwithin
  | begin => cases hwithin
  | dbError => trivial
  | inserted v' page' e rest now =>
      obtain ⟨rfl, rfl⟩ := hpc
      exact insertNext_writesLast hends rest
  | advanced v' page' c now =>
      obtain ⟨rfl, rfl⟩ := hpc
      rw [hends]
      trivial
  | _ => exact hpc.elim

/-- A page after which the loop is over is answered by no other request. -/
theorem TickRun.lastRequest (h : TickRun cid spec pcs replies) {n : ℕ} {v : Locals}
    {page : GetEventsResult} (hpc : pcs n = .getEvents v) (hreply : replies n = .page (.ok page))
    {result : Answer Unit} (hends : afterPage v page = .returned result) :
    LastRequest pcs n := by
  intro m hlt hlive
  have hserved : pcs (n + 1) = insertNext v page page.events := by
    obtain ⟨-, db, db', hresume⟩ := h.answered n (hlive n hlt)
    rw [hpc, hreply] at hresume
    exact (Prod.mk.inj (Option.some.inj hresume)).2.symm
  have hlast : WritesLast v page (pcs m) :=
    h.kept (fun k _ db db' hres hwithin => hres.writesLast hwithin hends)
      (hserved ▸ insertNext_writesLast hends page.events) hlt hlive
  generalize pcs m = pc at hlast
  cases pc with
  | getEvents v' => exact hlast.elim
  | resolve spec' => exact hlast.elim
  | _ => rfl

/-- Past a request by a cursor numbered `p`. -/
def PastCursor (pos : String → ℕ) (bound : ℕ) (p : ℕ) : Pc → Prop
  | .getEvents v => ∃ c, v.cursor = some c ∧ p < pos c
  | .insertEvent v page _ _ | .setCursor v page _ =>
      (∃ c, v.cursor = some c ∧ p ≤ pos c) ∧ Onward pos bound v page
  | .returned _ => True
  | _ => False

theorem afterPage_pastCursor {p : ℕ} {v : Locals} {page : GetEventsResult}
    (hfrom : ∃ c, v.cursor = some c ∧ p ≤ pos c) (h : Onward pos bound v page) :
    PastCursor pos bound p (afterPage v page) := by
  unfold afterPage
  split
  · trivial
  rename_i hloop
  obtain ⟨⟨c, hc, hahead⟩, -⟩ :=
    (h.resolve_left fun hup => hloop (.inl hup)).resolve_left fun hsame => hloop (.inr hsame)
  obtain ⟨c₀, hc₀, hle⟩ := hfrom
  exact ⟨c, hc, lt_of_le_of_lt hle (hahead c₀ hc₀)⟩

theorem insertNext_pastCursor {p : ℕ} {v : Locals} {page : GetEventsResult}
    (hfrom : ∃ c, v.cursor = some c ∧ p ≤ pos c) (h : Onward pos bound v page)
    (rest : List RawEvent) : PastCursor pos bound p (insertNext v page rest) := by
  cases rest with
  | cons e rest => exact ⟨hfrom, h⟩
  | nil =>
      rcases insertNext_nil v page with ⟨c, -, heq⟩ | ⟨-, heq⟩
      · rw [heq]
        exact ⟨hfrom, h⟩
      · rw [heq]
        exact afterPage_pastCursor hfrom h

/-- An error under a cursor ends the tick. -/
theorem onError_of_cursor {v : Locals} {c : String} (hc : v.cursor = some c) (e : String) :
    onError v e = .returned (.error e) := by
  rw [onError, hc]

theorem Resumed.pastCursor {db db' : Db} {pc pc' : Pc} {reply : Reply} {p : ℕ}
    (h : Resumed cid db pc reply db' pc') (hwithin : reply.WithinTick)
    (hpage : ∀ v page, pc = .getEvents v → reply = .page (.ok page) → Onward pos bound v page)
    (hpc : PastCursor pos bound p pc) : PastCursor pos bound p pc' := by
  cases h with
  | crash => cases hwithin
  | begin => cases hwithin
  | dbError => trivial
  | refused v e =>
      obtain ⟨c, hc, -⟩ := hpc
      rw [onError_of_cursor hc]
      trivial
  | served v page =>
      obtain ⟨c, hc, hlt⟩ := hpc
      exact insertNext_pastCursor ⟨c, hc, hlt.le⟩ (hpage v page rfl rfl) page.events
  | inserted v page e rest now => exact insertNext_pastCursor hpc.1 hpc.2 rest
  | advanced v page c now => exact afterPage_pastCursor hpc.1 hpc.2
  | _ => exact hpc.elim

/-- The cursors a tick asks by only go up. -/
theorem TickRun.cursors_lt (h : TickRun cid spec pcs replies)
    (hpages : PagesOnward pos bound pcs replies) {n m : ℕ} {v v' : Locals} {c c' : String}
    (hpc : pcs n = .getEvents v) (hc : v.cursor = some c) (hlt : n < m)
    (hlive : ∀ k < m, ¬ (pcs k).Returned) (hpc' : pcs m = .getEvents v')
    (hc' : v'.cursor = some c') : pos c < pos c' := by
  have hfirst : PastCursor pos bound (pos c) (pcs (n + 1)) := by
    obtain ⟨hwithin, db, db', hresume⟩ := h.answered n (hlive n hlt)
    have hres := resumed_of_resume hresume
    have hpage := hpages n
    rw [hpc] at hres hpage
    generalize replies n = reply at *
    generalize pcs (n + 1) = pc' at *
    cases hres with
    | crash => cases hwithin
    | begin => cases hwithin
    | dbError => trivial
    | refused v e =>
        rw [onError_of_cursor hc]
        trivial
    | served v page =>
        exact insertNext_pastCursor ⟨c, hc, le_rfl⟩ (hpage v page rfl rfl) page.events
  have hpast : PastCursor pos bound (pos c) (pcs m) :=
    h.kept (fun k _ db db' hres hwithin => hres.pastCursor hwithin (hpages k)) hfirst hlt hlive
  rw [hpc'] at hpast
  obtain ⟨c'', hc'', hlt'⟩ := hpast
  obtain rfl := Option.some.inj (hc'.symm.trans hc'')
  exact hlt'

/-- **A tick whose pages move the scan on ends**, after no more requests
than there are positions below the bound, three retries, the first request
and the probe of a first run. A page that does not move the scan on was
its last, and the positions it asked from, where they can be read, only
went up. -/
theorem tick_ends (h : TickRun cid spec pcs replies)
    (hpages : PagesAdvance pos bound cid pcs replies) :
    (∃ n, (pcs n).Returned ∧ requests pcs n ≤ bound + 5) ∧
    (∀ n v page, pcs n = .getEvents v → replies n = .page (.ok page) →
      ¬ Advances pos cid v page → LastRequest pcs n) ∧
    ∀ n m v v' c c' p p', n < m → (∀ k < m, ¬ (pcs k).Returned) →
      pcs n = .getEvents v → v.cursor = some c → scanPosition c = some p →
      pcs m = .getEvents v' → v'.cursor = some c' → scanPosition c' = some p' → p < p' := by
  refine ⟨?_, ?_, ?_⟩
  · obtain ⟨n, hlive, hret⟩ := h.exists_last hpages.onward
    refine ⟨n + 1, hret, ?_⟩
    have hle := (h.budgeted hpages.onward hlive).2
    have hretries : maxClampRetries = 3 := rfl
    omega
  · intro n v page hpc hreply hadvances
    rcases hpages.pages n v page hpc hreply with hup | hsame | ⟨hadv, -⟩
    · exact h.lastRequest hpc hreply (if_pos (.inl hup))
    · exact h.lastRequest hpc hreply (if_pos (.inr hsame))
    · exact absurd hadv hadvances
  · intro n m v v' c c' p p' hlt hlive hpc hc hp hpc' hc' hp'
    have hnumber := h.cursors_lt hpages.onward hpc hc hlt hlive hpc' hc'
    by_contra hback
    exact absurd (hpages.along c' c p' p hp' hp (not_lt.mp hback)) (not_le.mpr hnumber)

end Runs

/-- Ledger 10 and ledger 20 as cursors, below a head of 100. -/
def lowCursor : String := "0000000042949672960-0000000000"

def highCursor : String := "0000000085899345920-0000000000"

/-- An empty page under a cursor. -/
def emptyPage (c : String) : GetEventsResult :=
  { events := [], latestLedger := 100, cursor := some c, pagingToken := none,
    oldestLedger := some 5 }

def scanAt (c : Option String) : Locals :=
  { start := some 5, cursor := c, clampRetries := 0 }

def firstPlan : StartPlan := StartPlan.resolve { oldest := 5, latest := 100 } .oldest

/-- A first tick that reads to ledger 20 and then to the head. -/
def endingPc : ℕ → Pc
  | 0 => .getCursor .oldest
  | 1 => .resolve .oldest
  | 2 => .recordMark firstPlan
  | 3 => .getEvents (scanAt none)
  | 4 => .setCursor (scanAt none) (emptyPage lowCursor) lowCursor
  | 5 => .getEvents (scanAt (some lowCursor))
  | 6 => .setCursor (scanAt (some lowCursor)) { emptyPage highCursor with latestLedger := 20 }
      highCursor
  | _ => .returned (.ok ())

def endingReply : ℕ → Reply
  | 1 => .range ⟨.ok (some 5, some 20), .error "", .error ""⟩
  | 3 => .page (.ok (emptyPage lowCursor))
  | 5 => .page (.ok { emptyPage highCursor with latestLedger := 20 })
  | _ => .dbOk "2026-08-03T00:00:00Z"

theorem ending_answered {n : ℕ} (hn : ¬ (endingPc n).Returned) :
    (endingReply n).WithinTick ∧
      ∃ db, resume "CA" .empty (endingPc n) (endingReply n) = some (db, endingPc (n + 1)) := by
  match n with
  | 0 | 1 | 2 | 3 | 4 | 5 | 6 => exact ⟨trivial, _, rfl⟩
  | n + 7 => exact absurd ⟨.ok (), rfl⟩ hn

/-- A cursor numbered by its ledger. -/
def ledgerNumber (c : String) : ℕ :=
  (cursorLedger c).elim 0 Int.toNat

theorem ledgerNumber_alongScan : AlongScan ledgerNumber := by
  intro c c' p p' hp hp' hle
  obtain ⟨toid, htoid, rfl⟩ := Option.map_eq_some_iff.mp hp
  obtain ⟨toid', htoid', rfl⟩ := Option.map_eq_some_iff.mp hp'
  have hle' : toid ≤ toid' := by
    rcases Prod.Lex.toLex_le_toLex.mp hle with hlt | ⟨heq, -⟩
    · exact hlt.le
    · exact heq.le
  rw [ledgerNumber, ledgerNumber, cursorLedger, cursorLedger, htoid, htoid']
  simp only [Option.map_some, Option.elim_some, Int.toNat_natCast, Nat.shiftRight_eq_div_pow]
  exact Nat.div_le_div_right hle'

theorem scanFrom_five (cid : String) :
    (requestOf cid (scanAt none)).startFrom.scanPosition
      = some (toLex (5 * 2 ^ 32 - 1, 2 ^ 32 - 1)) := rfl

theorem scanPosition_low : scanPosition lowCursor = some (toLex (10 * 2 ^ 32, 0)) := by decide

/-- With the cursors numbered by their ledgers, below 30. -/
theorem tick_ends_ending :
    ∃ n, (endingPc n).Returned ∧ requests endingPc n ≤ 30 + 5 := by
  have hrun : TickRun "CA" .oldest endingPc endingReply :=
    ⟨rfl, fun n hn => ⟨(ending_answered hn).1, _, (ending_answered hn).2⟩⟩
  have hpages : PagesAdvance ledgerNumber 30 "CA" endingPc endingReply := by
    refine ⟨ledgerNumber_alongScan, fun n v page hpc hreply => ?_⟩
    match n with
    | 3 =>
        cases hpc
        cases hreply
        refine .inr (.inr ⟨⟨⟨lowCursor, rfl, nofun⟩, ?_⟩, ?_⟩)
        · intro c p₀ p hc hp₀ hp
          obtain rfl : lowCursor = c := Option.some.inj hc
          obtain rfl := Option.some.inj ((scanFrom_five "CA").symm.trans hp₀)
          obtain rfl := Option.some.inj (scanPosition_low.symm.trans hp)
          exact Prod.Lex.toLex_lt_toLex.mpr (.inl (by decide))
        · rintro c ⟨⟩
          decide
    | 5 =>
        cases hpc
        cases hreply
        exact .inl (by decide)
  exact (tick_ends hrun hpages).1

/-! ## Two cursors in turn -/

/-- A first tick that is shown ledger 10, ledger 20, and ledger 10 again,
for ever. -/
def turningPc : ℕ → Pc
  | 0 => .getCursor .oldest
  | 1 => .resolve .oldest
  | 2 => .recordMark firstPlan
  | 3 => .getEvents (scanAt none)
  | 4 => .setCursor (scanAt none) (emptyPage highCursor) highCursor
  | 5 => .getEvents (scanAt (some highCursor))
  | 6 => .setCursor (scanAt (some highCursor)) (emptyPage lowCursor) lowCursor
  | 7 => .getEvents (scanAt (some lowCursor))
  | 8 => .setCursor (scanAt (some lowCursor)) (emptyPage highCursor) highCursor
  | n + 9 => turningPc (n + 5)

def turningReply : ℕ → Reply
  | 1 => .range ⟨.ok (some 5, some 100), .error "", .error ""⟩
  | 3 => .page (.ok (emptyPage highCursor))
  | 5 => .page (.ok (emptyPage lowCursor))
  | 7 => .page (.ok (emptyPage highCursor))
  | 0 | 2 | 4 | 6 | 8 => .dbOk "2026-08-03T00:00:00Z"
  | n + 9 => turningReply (n + 5)

theorem turning_answered (n : ℕ) :
    ¬ (turningPc n).Returned ∧ (turningReply n).WithinTick ∧
      ∃ db, resume "CA" .empty (turningPc n) (turningReply n) = some (db, turningPc (n + 1)) := by
  have hrun : ∀ {pc : Pc}, (∀ result, pc ≠ .returned result) → ¬ pc.Returned :=
    fun h ⟨result, hresult⟩ => h result hresult
  induction n using Nat.strongRecOn with
  | ind n ih =>
      match n with
      | 0 | 1 | 2 | 3 | 4 | 5 | 6 | 7 | 8 =>
          exact ⟨hrun nofun, trivial, _, rfl⟩
      | n + 9 => exact ih (n + 5) (by omega)

theorem turningReply_latestLedger {n : ℕ} {page : GetEventsResult}
    (h : turningReply n = .page (.ok page)) : page.latestLedger = 100 := by
  induction n using Nat.strongRecOn with
  | ind n ih =>
      match n with
      | 3 | 5 | 7 =>
          cases h
          rfl
      | n + 9 => exact ih (n + 5) (by omega) h

theorem turning_asks (k : ℕ) : (turningPc (2 * k + 3)).asks = true := by
  induction k using Nat.strongRecOn with
  | ind k ih =>
      match k with
      | 0 | 1 | 2 => rfl
      | k + 3 => exact ih (k + 1) (by omega)

theorem turning_requests (k : ℕ) : k ≤ requests turningPc (2 * k + 3) := by
  induction k with
  | zero => exact Nat.zero_le _
  | succ k ih =>
      have hask := turning_asks k
      have hstep : requests turningPc (2 * (k + 1) + 3)
          = requests turningPc (2 * k + 3) + 1
            + if (turningPc (2 * k + 4)).asks = true then 1 else 0 := by
        rw [requests, show 2 * (k + 1) + 3 = 2 * k + 3 + 1 + 1 by omega, Nat.count_succ,
          Nat.count_succ, if_pos hask]
        rfl
      omega

/-- **A tick that never ends**: the head stays at ledger 100, the requests
have no bound, and the page that moves the scan back from 20 to 10 is
followed by another request. -/
theorem tick_turns_for_ever :
    ∃ (pcs : ℕ → Pc) (replies : ℕ → Reply), TickRun "CA" .oldest pcs replies ∧
      (∀ n page, replies n = .page (.ok page) → page.latestLedger = 100) ∧
      (∀ n, ¬ (pcs n).Returned) ∧ (∀ k, ∃ n, k ≤ requests pcs n) ∧
      afterPage (scanAt (some highCursor)) (emptyPage lowCursor)
        = .getEvents (scanAt (some lowCursor)) :=
  ⟨turningPc, turningReply, ⟨rfl, fun n _ => ⟨(turning_answered n).2.1, _,
      (turning_answered n).2.2⟩⟩, fun _ _ => turningReply_latestLedger,
    fun n => (turning_answered n).1, fun k => ⟨_, turning_requests k⟩, rfl⟩

end RaizStack
