import RaizStack.MemScan

/-!
# Contracts do not interfere

All tasks write to the same three tables. Marks and cursors are keyed by
the contract, events by their id alone and filed under the contract the
RPC names in them. So two tasks stay apart if an id belongs to one
contract - `owner` says which - and the RPC answers a request with
events of its contract only.

`SameFor` is what a contract sees of a store: its rows in the order they
were inserted, its cursor, its mark. A step of its own tasks depends on
nothing else, a step of another contract's task changes none of it, and
the run lemma is the projection rule of `Lts`: take the steps of one
contract's tasks out of any interleaving and run them alone, from the
same store, with the same answers.
-/

namespace RaizStack

/-! ## What a contract sees of a store -/

structure SameFor (x : String) (db db' : Db) : Prop where
  rows : db.eventsOf x = db'.eventsOf x
  cursor : db.cursors.find? x = db'.cursors.find? x
  mark : db.backfillMarks.find? x = db'.backfillMarks.find? x

theorem SameFor.refl (x : String) (db : Db) : SameFor x db db :=
  ⟨rfl, rfl, rfl⟩

/-- Rows filed under the contract their id belongs to. -/
def Filed (owner : String → String) (db : Db) : Prop :=
  ∀ r ∈ db.events.rows, owner r.id = r.contractId

/-- An event the RPC may send for contract `cid`. -/
def OwnEvent (owner : String → String) (cid : String) (e : RawEvent) : Prop :=
  e.contractId = cid ∧ owner e.id = cid

/-- The events a task still has to insert are its contract's. -/
def Pending (owner : String → String) (cid : String) : Pc → Prop
  | .insertEvent _ _ e rest => ∀ a ∈ e :: rest, OwnEvent owner cid a
  | _ => True

variable {ι : Type}

/-- The RPC answers with events of the contract asked for only. -/
def AnswersOwn (owner : String → String) (cid : ι → String) (act : ι × Reply) : Prop :=
  match act.2 with
  | .page (.ok page) => ∀ e ∈ page.events, OwnEvent owner (cid act.1) e
  | _ => True

variable {owner : String → String} {db db' u : Db} {cid x : String} {pc pc' : Pc} {reply : Reply}

theorem Filed.insertEvent (h : Filed owner db) {e : RawEvent} (he : OwnEvent owner cid e) :
    Filed owner (db.insertEvent (rowOf e)) := by
  intro r hr
  rcases Keyed.Table.mem_insertOrIgnore.mp hr with hold | ⟨rfl, -⟩
  · exact h r hold
  · exact he.2.trans he.1.symm

/-- An own insert does the same to two stores the contract cannot tell
apart. -/
theorem SameFor.insertEvent (h : SameFor cid db u) (hdb : Filed owner db) (hu : Filed owner u)
    {e : RawEvent} (he : OwnEvent owner cid e) :
    SameFor cid (db.insertEvent (rowOf e)) (u.insertEvent (rowOf e)) := by
  have hown : ∀ {d : Db}, Filed owner d → ∀ y ∈ d.events.rows, y.id = (rowOf e).id →
      decide (y.contractId = cid) = true := by
    intro d hd y hy hid
    have hcid : owner y.id = cid := by
      rw [hid]
      exact he.2
    simpa using (hd y hy).symm.trans hcid
  exact ⟨Keyed.Table.filter_insertOrIgnore_congr (hown hdb) (hown hu) h.rows, h.cursor, h.mark⟩

/-! ## An own step -/

theorem pending_afterPage (v : Locals) (page : GetEventsResult) :
    Pending owner cid (afterPage v page) := by
  unfold afterPage
  split <;> trivial

theorem pending_insertNext {v : Locals} {page : GetEventsResult} {rest : List RawEvent}
    (h : ∀ a ∈ rest, OwnEvent owner cid a) : Pending owner cid (insertNext v page rest) := by
  cases rest with
  | cons e rest => exact h
  | nil =>
      rcases insertNext_nil v page with ⟨c, -, heq⟩ | ⟨-, heq⟩
      · rw [heq]
        trivial
      · rw [heq]
        exact pending_afterPage v page

/-- What is left to insert stays the contract's own. -/
theorem Resumed.pending (h : Resumed cid db pc reply db' pc')
    (hok : ∀ page, reply = .page (.ok page) → ∀ e ∈ page.events, OwnEvent owner cid e)
    (hpc : Pending owner cid pc) : Pending owner cid pc' := by
  cases h with
  | gotCursor spec now =>
      unfold afterGetCursor
      split <;> trivial
  | refused v e =>
      unfold onError
      split
      · split <;> trivial
      · trivial
  | served v page => exact pending_insertNext (hok page rfl)
  | inserted v page e rest now =>
      exact pending_insertNext fun a ha => hpc a (List.mem_cons_of_mem e ha)
  | advanced v page c now => exact pending_afterPage v page
  | _ => trivial

theorem Resumed.filed (h : Resumed cid db pc reply db' pc') (hdb : Filed owner db)
    (hpc : Pending owner cid pc) : Filed owner db' := by
  cases h with
  | inserted v page e rest now => exact hdb.insertEvent (hpc e List.mem_cons_self)
  | _ => exact hdb

/-- **The own step.** A task's answer does the same to any store its
contract cannot tell from the one it is on. -/
theorem resume_sameFor (h : SameFor cid db u) (hdb : Filed owner db) (hu : Filed owner u)
    (hpc : Pending owner cid pc) (hres : resume cid db pc reply = some (db', pc')) :
    ∃ u', resume cid u pc reply = some (u', pc') ∧ SameFor cid db' u' := by
  cases reply with
  | crash =>
      cases hres
      exact ⟨u, rfl, h⟩
  | begin spec => cases pc <;> cases hres <;> exact ⟨u, rfl, h⟩
  | dbError e => cases pc <;> cases hres <;> exact ⟨u, rfl, h⟩
  | range a =>
      cases pc with
      | resolve spec =>
          simp only [resume] at hres ⊢
          split at hres <;> cases hres <;> exact ⟨u, rfl, h⟩
      | _ => cases hres
  | page answer =>
      cases pc with
      | getEvents v => cases answer <;> cases hres <;> exact ⟨u, rfl, h⟩
      | _ => cases hres
  | dbOk now =>
      cases pc with
      | getCursor spec =>
          cases hres
          refine ⟨u, ?_, h⟩
          simp only [resume, Db.getCursor, h.cursor]
      | recordMark plan =>
          cases hres
          refine ⟨_, rfl, h.rows, h.cursor, ?_⟩
          rw [Db.find?_marks_recordBackfillMark, Db.find?_marks_recordBackfillMark, if_pos rfl,
            if_pos rfl]
      | reclampMark v oldest =>
          cases hres
          refine ⟨_, rfl, h.rows, h.cursor, ?_⟩
          rw [Db.find?_marks_reclampBackfillMark, Db.find?_marks_reclampBackfillMark, h.mark]
      | insertEvent v page e rest =>
          cases hres
          exact ⟨_, rfl, h.insertEvent hdb hu (hpc e List.mem_cons_self)⟩
      | setCursor v page c =>
          cases hres
          refine ⟨_, rfl, h.rows, ?_, h.mark⟩
          rw [Db.find?_cursors_setCursor, Db.find?_cursors_setCursor, if_pos rfl, if_pos rfl]
      | _ => cases hres

/-- **Another contract's step** changes nothing the contract sees. -/
theorem Resumed.sameFor (h : Resumed cid db pc reply db' pc') (hpc : Pending owner cid pc)
    (hx : x ≠ cid) : SameFor x db' db := by
  have hframe := h.frame hx
  refine ⟨?_, hframe.cursor, hframe.mark⟩
  cases h with
  | inserted v page e rest now =>
      refine Keyed.Table.filter_insertOrIgnore_of_neg ?_
      have hcid : e.contractId = cid := (hpc e List.mem_cons_self).1
      simpa [rowOf, hcid] using hx.symm
  | _ => rfl

/-! ## Whole runs -/

/-- The store and the pending inserts of all tasks are filed right. -/
structure Kept (owner : String → String) (cid : ι → String) (w : World ι) : Prop where
  filed : Filed owner w.db
  pending : ∀ i, Pending owner (cid i) (w.pcs i)

/-- Two worlds contract `x` and its tasks cannot tell apart. -/
structure Alike (owner : String → String) (cid : ι → String) (x : String) (w u : World ι) :
    Prop where
  kept : Kept owner cid w
  filed : Filed owner u.db
  same : SameFor x w.db u.db
  pcs : ∀ i, cid i = x → w.pcs i = u.pcs i

section Steps

variable [DecidableEq ι] {cid : ι → String} {w w' u : World ι} {act : ι × Reply}

theorem Kept.step (h : Kept owner cid w) (hrpc : AnswersOwn owner cid act)
    (hnext : w.next cid act = some w') : Kept owner cid w' := by
  obtain ⟨i, reply⟩ := act
  obtain ⟨hres, hothers⟩ := World.next_eq_some hnext
  refine ⟨hres.filed h.filed (h.pending i), fun j => ?_⟩
  by_cases hj : j = i
  · subst hj
    refine hres.pending ?_ (h.pending j)
    rintro page rfl
    exact hrpc
  · rw [hothers j hj]
    exact h.pending j

theorem Alike.own (h : Alike owner cid x w u) (hrpc : AnswersOwn owner cid act)
    (hx : cid act.1 = x) (hnext : w.next cid act = some w') :
    ∃ u', u.next cid act = some u' ∧ Alike owner cid x w' u' := by
  obtain ⟨i, reply⟩ := act
  obtain rfl : cid i = x := hx
  obtain ⟨⟨db', pc'⟩, hres, rfl⟩ := Option.map_eq_some_iff.mp hnext
  obtain ⟨v, hv, hsame⟩ := resume_sameFor h.same h.kept.filed h.filed (h.kept.pending i) hres
  rw [h.pcs i rfl] at hv
  have hpend : Pending owner (cid i) (u.pcs i) := h.pcs i rfl ▸ h.kept.pending i
  refine ⟨_, by rw [World.next, hv]; rfl, h.kept.step hrpc hnext, ?_, hsame, fun j hj => ?_⟩
  · exact (resumed_of_resume hv).filed h.filed hpend
  · by_cases hji : j = i
    · subst hji
      simp
    · simp [Function.update_of_ne hji, h.pcs j hj]

/-- A step of a task of another contract. -/
theorem Kept.sameFor (h : Kept owner cid w) (hx : cid act.1 ≠ x)
    (hnext : w.next cid act = some w') :
    SameFor x w'.db w.db ∧ ∀ i, cid i = x → w'.pcs i = w.pcs i := by
  obtain ⟨i, reply⟩ := act
  obtain ⟨hres, hothers⟩ := World.next_eq_some hnext
  refine ⟨hres.sameFor (h.pending i) (Ne.symm hx), fun j hj => hothers j ?_⟩
  rintro rfl
  exact hx hj

theorem Alike.other (h : Alike owner cid x w u) (hrpc : AnswersOwn owner cid act)
    (hx : cid act.1 ≠ x) (hnext : w.next cid act = some w') : Alike owner cid x w' u := by
  obtain ⟨hsame, hpcs⟩ := h.kept.sameFor hx hnext
  refine ⟨h.kept.step hrpc hnext, h.filed, ?_, fun i hi => (hpcs i hi).trans (h.pcs i hi)⟩
  exact ⟨hsame.rows.trans h.same.rows, hsame.cursor.trans h.same.cursor,
    hsame.mark.trans h.same.mark⟩

end Steps

/-- **Contracts do not interfere.** Take any interleaving of the database
steps, answers, errors and restarts of any tasks, over any store that is
filed right. For each contract the same steps of its own tasks alone,
from the same store, lead to the same rows, cursor and mark and leave
its tasks at the same stops; and wherever the run ends, no step of
another contract's task, an error included, changes any of it. -/
theorem runs_alone [DecidableEq ι] {cid : ι → String} {w w' : World ι} (hw : ∀ i, w.pcs i = .idle)
    (hfiled : Filed owner w.db) {acts : List (ι × Reply)}
    (hrpc : ∀ act ∈ acts, AnswersOwn owner cid act)
    (h : Lts.exec (World.next cid) w acts = some w') (x : String) :
    (∃ u, Lts.exec (World.next cid) w (acts.filter fun act => cid act.1 = x) = some u
      ∧ SameFor x w'.db u.db ∧ ∀ i, cid i = x → w'.pcs i = u.pcs i)
    ∧ ∀ act w'', cid act.1 ≠ x → w'.next cid act = some w'' →
      SameFor x w''.db w'.db ∧ ∀ i, cid i = x → w''.pcs i = w'.pcs i := by
  have hkept : Kept owner cid w := ⟨hfiled, fun i => by rw [hw i]; trivial⟩
  have hstart : Alike owner cid x w w := ⟨hkept, hfiled, .refl _ _, fun _ _ => rfl⟩
  have hown : ∀ s t u act, Alike owner cid x s u → AnswersOwn owner cid act →
      decide (cid act.1 = x) = true → s.next cid act = some t →
      ∃ v, u.next cid act = some v ∧ Alike owner cid x t v :=
    fun _ _ _ _ hR hok hmine hst => hR.own hok (of_decide_eq_true hmine) hst
  have hother : ∀ s t u act, Alike owner cid x s u → AnswersOwn owner cid act →
      decide (cid act.1 = x) = false → s.next cid act = some t → Alike owner cid x t u :=
    fun _ _ _ _ hR hok hmine hst => hR.other hok (of_decide_eq_false hmine) hst
  obtain ⟨u, hu, halike⟩ := Lts.exec_filter hown hother hrpc hstart h
  refine ⟨⟨u, hu, halike.same, halike.pcs⟩, ?_⟩
  intro act w'' hx hnext
  exact halike.kept.sameFor hx hnext

/-- A first tick of `CA` with the ticks of `CB` in between: one that the
store fails, and one the RPC refuses. -/
def mixedActs : List (String × Reply) :=
  [("CA", .begin .oldest), ("CB", .begin .head), ("CA", .dbOk ""),
   ("CA", .range ⟨.ok (some 5, some 20), .error "", .error ""⟩), ("CB", .dbError "busy"),
   ("CB", .begin .head), ("CA", .dbOk "2026-08-03T00:00:00Z"), ("CB", .dbOk ""),
   ("CA", .page (.ok lonePage)), ("CB", .range ⟨.error "", .error "down", .error ""⟩),
   ("CA", .dbOk ""), ("CA", .dbOk "")]

theorem runs_alone_mixed :
    ∃ w' u : World String, Lts.exec (World.next id) (World.fresh String) mixedActs = some w'
      ∧ Lts.exec (World.next id) (World.fresh String)
          (mixedActs.filter fun act => id act.1 = "CA") = some u
      ∧ SameFor "CA" w'.db u.db
      ∧ u.db.eventsOf "CA" = [rowOf loneEvent] := by
  have hrpc : ∀ act ∈ mixedActs, AnswersOwn (fun _ => "CA") id act := by
    simp [mixedActs, AnswersOwn, OwnEvent, lonePage, loneEvent]
  obtain ⟨⟨u, hu, hsame, -⟩, -⟩ := @runs_alone String (fun _ => "CA") _ id (World.fresh String) _
    (fun _ => rfl) (fun _ hr => absurd hr List.not_mem_nil) mixedActs hrpc rfl "CA"
  refine ⟨_, u, rfl, hu, hsame, ?_⟩
  rw [← hsame.rows]
  rfl

end RaizStack
