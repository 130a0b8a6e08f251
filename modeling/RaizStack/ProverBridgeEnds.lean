import Mathlib.Data.List.Perm.Basic
import RaizStack.ProverBridgeInv

/-!
# Every call of the bridge ends

A page that hangs, JS that never calls back, a destroyed bridge: none of
them keeps a caller. The call in the mutex has at most seven statements of
its own left (`ProverPc.left`), nobody else adds to them, and whenever
somebody has not returned there is a statement that needs neither the page
nor its JS. So the callers' own statements are bounded by the calls that
were made, and when none is left each call has returned, once.

What a step does to the callers is said once (`CallerStep`); the bound and
the bookkeeping are read off it.
-/

namespace RaizStack

variable {J : Type}

/-! ## Statements left -/

/-- The statements a call has left to its end, at most. -/
def ProverPc.left : ProverPc J → Nat
  | .locked => 7
  | .numbered _ => 6
  | .assigned _ => 5
  | .built _ => 4
  | .awaiting _ => 3
  | .leaving _ _ => 2
  | .cleared _ _ => 1

namespace BridgeAct

/-- A statement of a caller that asked for the mutex. -/
def moves : BridgeAct → Bool
  | .giveUp _ => true
  | .lock _ => true
  | .notReady _ => true
  | .ready => true
  | .assignPending => true
  | .buildJs => true
  | .post => true
  | .timeout => true
  | .cancel => true
  | .resume => true
  | .clearPending => true
  | .unlock => true
  | _ => false

/-- One that waits for neither the page nor its JS nor a cancellation. -/
def alone : BridgeAct → Bool
  | .lock _ => true
  | .notReady _ => true
  | .assignPending => true
  | .buildJs => true
  | .post => true
  | .timeout => true
  | .clearPending => true
  | .unlock => true
  | _ => false

/-- The call that is made. -/
def made? : BridgeAct → Option ProverCall
  | .call c => some c
  | _ => none

end BridgeAct

namespace ProverBridge

variable {parse : String → Except String J} {s t : ProverBridge J}

/-- The statements all callers have left. -/
def left (s : ProverBridge J) : Nat :=
  (s.active.map fun a => a.pc.left).getD 0 + 8 * s.waiting.length

/-- Everyone who called: those who returned, who holds the mutex, who waits. -/
def callers (s : ProverBridge J) : List ProverCall :=
  s.returned.map ReturnedCall.call ++ (s.active.map ActiveCall.call).toList ++ s.waiting

/-! ## What a step does to the callers -/

/-- What a step does to the mutex and to who has returned. -/
inductive CallerStep (s t : ProverBridge J) : BridgeAct → Prop
  | call (c : ProverCall) : t.waiting = s.waiting ++ [c] → t.active = s.active →
      t.returned = s.returned → CallerStep s t (.call c)
  | giveUp (k : Nat) (c : ProverCall) (id : Option Nat) (e : CallEnd J) :
      s.waiting[k]? = some c → t.waiting = s.waiting.eraseIdx k → t.active = s.active →
      t.returned = s.returned ++ [⟨c, id, e⟩] → CallerStep s t (.giveUp k)
  | lock (k : Nat) (c : ProverCall) : s.waiting[k]? = some c → t.waiting = s.waiting.eraseIdx k →
      s.active = none → t.active = some ⟨c, .locked⟩ → t.returned = s.returned →
      CallerStep s t (.lock k)
  | advance (a : BridgeAct) (c : ProverCall) (pc pc' : ProverPc J) : a.made? = none →
      s.active = some ⟨c, pc⟩ → t.active = some ⟨c, pc'⟩ → pc'.left < pc.left →
      t.waiting = s.waiting → t.returned = s.returned → CallerStep s t a
  | unlock (c : ProverCall) (id : Option Nat) (e : CallEnd J) : s.active = some ⟨c, .cleared id e⟩ →
      t.active = none → t.waiting = s.waiting → t.returned = s.returned ++ [⟨c, id, e⟩] →
      CallerStep s t .unlock
  | other (a : BridgeAct) : a.moves = false → a.made? = none → t.waiting = s.waiting →
      t.active = s.active → t.returned = s.returned → CallerStep s t a

theorem callerStep_abandon {e : ProverCall → CallEnd J} {a : BridgeAct} (ha : a.made? = none)
    (h : s.abandon e = some t) : CallerStep s t a := by
  unfold abandon at h
  split at h
  · rename_i c hactive
    cases h
    exact .advance a c .locked _ ha hactive rfl (by simp [ProverPc.left]) rfl rfl
  · rename_i c id hactive
    cases h
    exact .advance a c (.awaiting id) _ ha hactive rfl (by simp [ProverPc.left]) rfl rfl
  · cases h

theorem callerStep (a : BridgeAct) (h : next parse s a = some t) : CallerStep s t a := by
  cases a with
  | call c =>
      cases h
      exact .call c rfl rfl rfl
  | giveUp k =>
      obtain ⟨c, hk, rfl⟩ := Option.map_eq_some_iff.mp h
      exact .giveUp k c none .cancelled hk rfl rfl rfl
  | lock k =>
      simp only [next, lock] at h
      split at h
      · rename_i c hactive hk
        cases h
        exact .lock k c hk rfl hactive rfl rfl
      · cases h
  | notReady detail =>
      simp only [next, notReady] at h
      split at h
      · exact callerStep_abandon rfl h
      · cases h
  | ready =>
      simp only [next, ready] at h
      split at h
      · rename_i c hactive
        cases h
        exact .advance _ c .locked _ rfl hactive rfl (by simp [ProverPc.left]) rfl rfl
      · cases h
  | assignPending =>
      simp only [next, assignPending] at h
      split at h
      · rename_i c id hactive
        cases h
        exact .advance _ c (.numbered id) _ rfl hactive rfl (by simp [ProverPc.left]) rfl rfl
      · cases h
  | buildJs =>
      simp only [next, buildJs] at h
      split at h
      · rename_i c id hactive
        cases h
        exact .advance _ c (.assigned id) _ rfl hactive rfl (by simp [ProverPc.left]) rfl rfl
      · cases h
  | post =>
      simp only [next, post] at h
      split at h
      · rename_i c id hactive
        cases h
        exact .advance _ c (.built id) _ rfl hactive rfl (by simp [ProverPc.left]) rfl rfl
      · cases h
  | timeout =>
      simp only [next, timeout] at h
      split at h
      · exact callerStep_abandon rfl h
      · cases h
  | cancel => exact callerStep_abandon rfl h
  | resume =>
      simp only [next, resume] at h
      split at h
      · rename_i c id hactive
        obtain ⟨e, -, rfl⟩ := Option.map_eq_some_iff.mp h
        exact .advance _ c (.awaiting id) _ rfl hactive rfl (by simp [ProverPc.left]) rfl rfl
      · cases h
  | clearPending =>
      simp only [next, clearPending] at h
      split at h
      · rename_i c id e hactive
        cases h
        exact .advance _ c (.leaving id e) _ rfl hactive rfl (by simp [ProverPc.left]) rfl rfl
      · cases h
  | unlock =>
      simp only [next, unlock] at h
      split at h
      · rename_i c id e hactive
        cases h
        exact .unlock c id e hactive rfl rfl rfl
      · cases h
  | runPosted =>
      simp only [next, runPosted] at h
      split at h
      · cases h
      · cases h
        exact .other _ rfl rfl rfl rfl rfl
  | request id r =>
      simp only [next, request] at h
      split at h
      · cases h
        exact .other _ rfl rfl rfl rfl rfl
      · cases h
  | reply k =>
      obtain ⟨f, -, rfl⟩ := Option.map_eq_some_iff.mp h
      exact .other _ rfl rfl rfl rfl rfl
  | callBack id answer =>
      simp only [next, callBack] at h
      split at h
      · cases h
        exact .other _ rfl rfl rfl rfl rfl
      · cases h
  | complete k =>
      obtain ⟨x, -, rfl⟩ := Option.map_eq_some_iff.mp h
      exact .other _ rfl rfl rfl rfl rfl
  | destroyRead =>
      cases h
      exact .other _ rfl rfl rfl rfl rfl
  | destroyClear =>
      cases h
      exact .other _ rfl rfl rfl rfl rfl

/-! ## Bounded and never stuck -/

theorem left_pos (pc : ProverPc J) : 0 < pc.left := by
  cases pc <;> exact Nat.succ_pos _

theorem length_eraseIdx {α : Type} {l : List α} {k : Nat} {x : α} (h : l[k]? = some x) :
    (l.eraseIdx k).length + 1 = l.length := by
  have hk : k < l.length := (List.getElem?_eq_some_iff.mp h).1
  rw [List.length_eraseIdx_of_lt hk]
  omega

theorem left_of_active {c : ProverCall} {pc : ProverPc J} (h : s.active = some ⟨c, pc⟩) :
    s.left = pc.left + 8 * s.waiting.length := by
  rw [left, h]
  rfl

theorem left_of_none (h : s.active = none) : s.left = 8 * s.waiting.length := by
  rw [left, h, Option.map_none, Option.getD_none, Nat.zero_add]

/-- A statement of a caller leaves fewer of them; only a new call adds. -/
theorem left_step (a : BridgeAct) (h : next parse s a = some t) :
    (if a.moves then 1 else 0) + t.left ≤ s.left + if a.made?.isSome then 8 else 0 := by
  cases callerStep a h with
  | call c hw ha _ =>
      rw [left, left, hw, ha, List.length_append, List.length_singleton]
      exact Nat.le_of_eq (by simp [BridgeAct.moves, BridgeAct.made?, Nat.mul_add, Nat.add_assoc])
  | giveUp k c id e hk hw ha _ =>
      have hlen := length_eraseIdx hk
      rw [left, left, hw, ha]
      simp only [BridgeAct.moves, if_true]
      omega
  | lock k c hk hw hnone ha _ =>
      have hlen := length_eraseIdx hk
      rw [left_of_none hnone, left_of_active ha, hw]
      simp only [BridgeAct.moves, if_true, ProverPc.left]
      omega
  | advance _ c pc pc' hmade hs ht hlt hw _ =>
      rw [left_of_active hs, left_of_active ht, hw]
      split <;> omega
  | unlock c id e hs ht hw _ =>
      rw [left_of_active hs, left_of_none ht, hw]
      simp only [BridgeAct.moves, if_true, ProverPc.left]
      omega
  | other _ hmoves hmade hw ha _ =>
      rw [left, left, hmoves, hw, ha]
      simp only [Bool.false_eq_true, if_false]
      omega

/-- While somebody has not returned, a statement can be taken that needs
nobody else. -/
theorem exists_alone (parse : String → Except String J) (h : s.left ≠ 0) :
    ∃ a, a.alone = true ∧ (next parse s a).isSome := by
  cases hactive : s.active with
  | none =>
      cases hwaiting : s.waiting with
      | nil =>
          rw [left, hactive, hwaiting] at h
          exact absurd rfl h
      | cons c rest => exact ⟨.lock 0, rfl, by simp [next, lock, hactive, hwaiting]⟩
  | some a =>
      obtain ⟨c, pc⟩ := a
      cases pc with
      | locked => exact ⟨.notReady "", rfl, by simp [next, notReady, abandon, hactive]⟩
      | numbered id => exact ⟨.assignPending, rfl, by simp [next, assignPending, hactive]⟩
      | assigned id => exact ⟨.buildJs, rfl, by simp [next, buildJs, hactive]⟩
      | built id => exact ⟨.post, rfl, by simp [next, post, hactive]⟩
      | awaiting id => exact ⟨.timeout, rfl, by simp [next, timeout, abandon, hactive]⟩
      | leaving id e => exact ⟨.clearPending, rfl, by simp [next, clearPending, hactive]⟩
      | cleared id e => exact ⟨.unlock, rfl, by simp [next, unlock, hactive]⟩

/-! ## Nobody is lost -/

theorem perm_eraseIdx {α : Type} {l : List α} {k : Nat} {x : α} (h : l[k]? = some x) :
    (x :: l.eraseIdx k).Perm l := by
  obtain ⟨hk, rfl⟩ := List.getElem?_eq_some_iff.mp h
  exact List.getElem_cons_eraseIdx_perm hk

/-- A step loses no caller and makes up none. -/
theorem callers_step (a : BridgeAct) (h : next parse s a = some t) :
    t.callers.Perm (s.callers ++ a.made?.toList) := by
  unfold callers
  cases callerStep a h with
  | call c hw ha hr =>
      rw [hw, ha, hr]
      simp [BridgeAct.made?]
  | giveUp k c id e hk hw ha hr =>
      rw [hw, ha, hr, List.map_append, List.append_assoc, List.append_assoc, List.append_assoc,
        List.append_assoc]
      refine List.Perm.append_left _ ?_
      have hmiddle : (c :: ((s.active.map ActiveCall.call).toList ++ s.waiting.eraseIdx k)).Perm
          ((s.active.map ActiveCall.call).toList ++ c :: s.waiting.eraseIdx k) :=
        List.perm_middle.symm
      refine hmiddle.trans (List.Perm.append_left _ ?_)
      simpa [BridgeAct.made?] using perm_eraseIdx hk
  | lock k c hk hw hnone ha hr =>
      rw [hw, ha, hnone, hr]
      simpa [BridgeAct.made?] using (perm_eraseIdx hk).append_left _
  | advance _ c pc pc' hmade hs ht hlt hw hr =>
      rw [hs, ht, hw, hr, hmade]
      simp
  | unlock c id e hs ht hw hr =>
      rw [hs, ht, hw, hr]
      simp [BridgeAct.made?]
  | other _ hmoves hmade hw ha hr =>
      rw [hmade, hw, ha, hr]
      simp

/-! ## Every run -/

theorem callers_exec {acts : List BridgeAct} (h : Lts.exec (next parse) s acts = some t) :
    t.callers.Perm (s.callers ++ acts.filterMap BridgeAct.made?) := by
  induction acts generalizing s with
  | nil =>
      obtain rfl := Option.some.inj h
      rw [List.filterMap_nil, List.append_nil]
  | cons a acts ih =>
      rw [Lts.exec_cons] at h
      obtain ⟨u, hu, hrest⟩ := Option.bind_eq_some_iff.mp h
      refine (ih hrest).trans (((callers_step a hu).append_right _).trans ?_)
      rw [List.append_assoc]
      cases hmade : a.made? with
      | none => rw [List.filterMap_cons_none hmade]; rfl
      | some c => rw [List.filterMap_cons_some hmade]; rfl

/-- Nothing left: nobody holds the mutex, nobody waits for it. -/
theorem idle_of_left (h : s.left = 0) : s.active = none ∧ s.waiting = [] := by
  cases hactive : s.active with
  | none =>
      rw [left_of_none hactive] at h
      exact ⟨rfl, List.eq_nil_of_length_eq_zero (by omega)⟩
  | some a =>
      have hpos := left_pos a.pc
      rw [left_of_active hactive] at h
      omega

/-- **Every call ends.** In every run, whatever the page and its JS do or fail
to do, the callers have taken at most eight statements for each call that was
made; while there are statements left one can be taken without the page; and
when there is none every call made has returned, once, and nothing is
pending. -/
theorem every_call_returns {acts : List BridgeAct}
    (h : Lts.exec (next parse) start acts = some t) :
    acts.countP BridgeAct.moves + t.left ≤ 8 * (acts.filterMap BridgeAct.made?).length
      ∧ (t.left ≠ 0 → ∃ a, a.alone = true ∧ (next parse t a).isSome)
      ∧ (t.left = 0 → t.pending = none ∧
          (t.returned.map ReturnedCall.call).Perm (acts.filterMap BridgeAct.made?)) := by
  refine ⟨?_, exists_alone parse, fun hleft => ?_⟩
  · have hbound := Lts.exec_potential (fun s a t hst => left_step a hst) h
    rw [List.length_filterMap_eq_countP]
    exact hbound.trans (Nat.le_of_eq (Nat.zero_add _))
  · obtain ⟨hactive, hwaiting⟩ := idle_of_left hleft
    have hreach : Lts.Reach Started (Step parse) t := Lts.Reach.exec (.init rfl) acts h
    refine ⟨(bridgeInv_of_reach hreach).inSection.pending_none hactive, ?_⟩
    have hperm := callers_exec h
    rw [callers, hactive, hwaiting, Option.map_none, Option.toList_none, List.append_nil,
      List.append_nil] at hperm
    exact hperm

theorem every_call_returns_overlap :
    ∃ s : ProverBridge (List (String × String)),
      Lts.exec (next emptyObject) start overlap = some s ∧ s.pending = none ∧
        (s.returned.map ReturnedCall.call).Perm (overlap.filterMap BridgeAct.made?) := by
  have hrun : Lts.exec (next emptyObject) start overlap = some _ := rfl
  obtain ⟨-, -, hdone⟩ := every_call_returns hrun
  exact ⟨_, hrun, hdone rfl⟩

end ProverBridge

end RaizStack
