import RaizStack.ShimReplay

/-!
# The replay of a list with gaps

A source may forget. What the replay makes of the list it is served is
then no longer what the chain holds, but it is still said in the clear
(`Told`): the receiving value is what arrived in the list since its last
merge, the spendable value what the merges of the list moved - counted
from the last outflow in it, which brings the balance it left with it.
-/

namespace RaizStack

variable {R P C : Type}

/-! ## What a list tells -/

/-- Something leaves the account for good. -/
def Tx.Leaves (goal : String) : Tx R C → Prop
  | .transfer _ sender recipient _ _ _ _ => sender = goal ∧ recipient ≠ goal
  | .withdraw _ sender _ _ _ _ => sender = goal
  | _ => False

/-- The event says so as well. -/
def ConfidentialEvent.Leaves (goal : String) : ConfidentialEvent C → Prop
  | .transfer _ sender recipient _ => sender = goal ∧ recipient ≠ goal
  | .withdraw _ sender _ _ _ => sender = goal
  | _ => False

theorem Tx.event_leaves {goal : String} {tx : Tx R C} :
    tx.event.Leaves goal ↔ tx.Leaves goal := by
  cases tx <;> rfl

/-- What the merges of a list move, and what has arrived since. -/
structure Told where
  merged : Int
  pending : Int
  deriving DecidableEq, Repr

def Told.zero : Told := { merged := 0, pending := 0 }

def Told.step (goal : String) (t : Told) : Tx R C → Told
  | .deposit _ _ recipient amount =>
      if recipient = goal then { t with pending := t.pending + amount } else t
  | .transfer _ _ recipient amount _ _ _ =>
      if recipient = goal then { t with pending := t.pending + amount } else t
  | .merge _ account =>
      if account = goal then { merged := t.merged + t.pending, pending := 0 } else t
  | _ => t

def Told.run (goal : String) (t : Told) (txs : List (Tx R C)) : Told :=
  txs.foldl (Told.step goal) t

theorem Told.run_append (goal : String) (t : Told) (txs txs' : List (Tx R C)) :
    t.run goal (txs ++ txs') = (t.run goal txs).run goal txs' :=
  List.foldl_append

/-- Each of a list's transactions is one of the history. -/
def TakenFrom (chain served : List (Tx R C)) : Prop :=
  ∀ tx ∈ served, ∃ pre post, chain = pre ++ tx :: post

theorem TakenFrom.of_sublist {chain served : List (Tx R C)} (h : served.Sublist chain) :
    TakenFrom chain served :=
  fun _ htx => List.append_of_mem (h.subset htx)

/-- A list with an outflow has a last one. -/
theorem exists_last_leaves {goal : String} {txs : List (Tx R C)}
    (h : ∃ tx ∈ txs, tx.Leaves goal) :
    ∃ told out later, txs = told ++ out :: later ∧ out.Leaves goal ∧
      ∀ tx ∈ later, ¬ tx.Leaves goal := by
  induction txs with
  | nil =>
      obtain ⟨tx, htx, -⟩ := h
      cases htx
  | cons tx txs ih =>
      by_cases hrest : ∃ t ∈ txs, t.Leaves goal
      · obtain ⟨told, out, later, rfl, hout, hlater⟩ := ih hrest
        exact ⟨tx :: told, out, later, rfl, hout, hlater⟩
      · obtain ⟨t, ht, hleaves⟩ := h
        rcases List.mem_cons.mp ht with rfl | ht
        · exact ⟨[], t, txs, rfl, hleaves, fun x hx hx' => hrest ⟨x, hx, hx'⟩⟩
        · exact absurd ⟨t, ht, hleaves⟩ hrest

/-! ## The replay of it -/

variable [AddMonoid R] [Add P] {sdk : Sdk R P C} {k1 : Int} {goal : String}

/-- The channels of a transaction of a history open, in the state it was
made in. -/
theorem ChannelsDecrypt.opens {w : Wallets sdk.toScheme} {pre post : List (Tx R C)} {tx : Tx R C}
    (h : ChannelsDecrypt sdk k1 goal w (pre ++ tx :: post)) :
    ChannelsOpen sdk k1 goal (w.run pre goal) tx :=
  (ChannelsDecrypt.append.mp h).2.1

/-- What one event does to a replay, told in the clear. -/
structure StepTold (w : Wallets sdk.toScheme) (goal : String) (tx : Tx R C) (t : Told)
    (st st' : Replay R) : Prop where
  recvV : st'.recvV = (t.step goal tx).pending
  stays : ¬ tx.Leaves goal → st'.spendV - (t.step goal tx).merged = st.spendV - t.merged
  leaves : tx.Leaves goal → st'.spendV = (w.apply tx goal).spendable.value ∧
    (t.step goal tx).merged = t.merged

theorem replayStep_told {w : Wallets sdk.toScheme} {tx : Tx R C} {t : Told} {st st' : Replay R}
    (hopen : ChannelsOpen sdk k1 goal (w goal) tx)
    (hst : replayStep sdk k1 goal st tx.event = .ok st') (hrecv : st.recvV = t.pending) :
    StepTold w goal tx t st st' := by
  cases tx with
  | register info account =>
      obtain rfl := Except.ok.inj hst
      exact ⟨hrecv, fun _ => rfl, fun h => h.elim⟩
  | deposit info sender recipient amount =>
      simp only [Tx.event, replayStep] at hst
      by_cases hto : recipient = goal
      · rw [if_pos hto] at hst
        obtain rfl := Except.ok.inj hst
        exact ⟨by simp [Told.step, hto, hrecv], fun _ => by simp [Told.step, hto],
          fun h => h.elim⟩
      · rw [if_neg hto] at hst
        obtain rfl := Except.ok.inj hst
        exact ⟨by simp [Told.step, hto, hrecv], fun _ => by simp [Told.step, hto],
          fun h => h.elim⟩
  | merge info account =>
      simp only [Tx.event, replayStep] at hst
      by_cases hacc : account = goal
      · rw [if_pos hacc] at hst
        obtain rfl := Except.ok.inj hst
        refine ⟨by simp [Told.step, hacc], fun _ => ?_, fun h => h.elim⟩
        simp only [Told.step, if_pos hacc]
        omega
      · rw [if_neg hacc] at hst
        obtain rfl := Except.ok.inj hst
        exact ⟨by simp [Told.step, hacc, hrecv], fun _ => by simp [Told.step, hacc],
          fun h => h.elim⟩
  | transfer info sender recipient amount rTx rNew data =>
      obtain ⟨hin, hout⟩ := hopen
      simp only [Tx.event, replayStep] at hst
      by_cases hto : recipient = goal
      · -- also of the goal's transfers to itself
        rw [if_pos hto, hin hto, Fallible.ok_bind] at hst
        obtain rfl := Except.ok.inj hst
        exact ⟨by simp [Told.step, hto, hrecv], fun _ => by simp [Told.step, hto],
          fun h => absurd hto h.2⟩
      · rw [if_neg hto] at hst
        by_cases hfrom : sender = goal
        · subst hfrom
          rw [if_pos rfl, hout rfl, Fallible.ok_bind] at hst
          obtain rfl := Except.ok.inj hst
          refine ⟨by simp [Told.step, hto, hrecv], fun h => absurd ⟨rfl, hto⟩ h, fun _ => ⟨?_, ?_⟩⟩
          · rw [Wallets.apply_transfer_out w info amount rTx rNew data hto]
            rfl
          · simp [Told.step, hto]
        · rw [if_neg hfrom] at hst
          obtain rfl := Except.ok.inj hst
          exact ⟨by simp [Told.step, hto, hrecv], fun _ => by simp [Told.step, hto],
            fun h => absurd h.1 hfrom⟩
  | withdraw info sender recipient amount rNew data =>
      simp only [Tx.event, replayStep] at hst
      by_cases hfrom : sender = goal
      · subst hfrom
        rw [if_pos rfl, hopen rfl, Fallible.ok_bind] at hst
        obtain rfl := Except.ok.inj hst
        refine ⟨hrecv, fun h => absurd rfl h, fun _ => ⟨?_, rfl⟩⟩
        rw [Wallets.apply_withdraw_self]
        rfl
      · rw [if_neg hfrom] at hst
        obtain rfl := Except.ok.inj hst
        exact ⟨hrecv, fun _ => rfl, fun h => absurd h hfrom⟩

section Served

variable {chain served : List (Tx R C)} {t : Told} {st st' : Replay R}

/-- The receiving value is what has arrived since the last merge; while
nothing leaves, the spendable value grows by what the merges move. -/
theorem foldlM_told (hopen : ChannelsDecrypt sdk k1 goal (Wallets.genesis _) chain)
    (htaken : TakenFrom chain served)
    (hst : (served.map Tx.event).foldlM (replayStep sdk k1 goal) st = .ok st')
    (hrecv : st.recvV = t.pending) :
    st'.recvV = (t.run goal served).pending ∧
      ((∀ tx ∈ served, ¬ tx.Leaves goal) →
        st'.spendV - (t.run goal served).merged = st.spendV - t.merged) := by
  induction served generalizing st t with
  | nil =>
      obtain rfl := Except.ok.inj hst
      exact ⟨hrecv, fun _ => rfl⟩
  | cons tx served ih =>
      obtain ⟨pre, post, rfl⟩ := htaken tx List.mem_cons_self
      rw [List.map_cons, List.foldlM_cons] at hst
      obtain ⟨st₁, hstep, hrest⟩ := Fallible.bind_eq_ok.mp hst
      have htold := replayStep_told hopen.opens hstep hrecv
      obtain ⟨hpending, hmerged⟩ :=
        ih (fun x hx => htaken x (List.mem_cons_of_mem _ hx)) hrest htold.recvV
      refine ⟨hpending, fun hnone => ?_⟩
      have hlater := hmerged fun x hx => hnone x (List.mem_cons_of_mem _ hx)
      exact hlater.trans (htold.stays (hnone tx List.mem_cons_self))

/-- **The spendable value told since the last outflow**: the balance that
outflow left, and what the merges after it move. -/
theorem replay_told_after {pre post told later : List (Tx R C)} {out : Tx R C}
    (hopen : ChannelsDecrypt sdk k1 goal (Wallets.genesis _) (pre ++ out :: post))
    (htaken : TakenFrom (pre ++ out :: post) (told ++ out :: later)) (hout : out.Leaves goal)
    (hlater : ∀ tx ∈ later, ¬ tx.Leaves goal)
    (hst : replay sdk k1 goal ((told ++ out :: later).map Tx.event) = .ok st) :
    st.spendV = ((Wallets.genesis sdk.toScheme).run (pre ++ [out]) goal).spendable.value
      + ((Told.zero.run goal (told ++ out :: later)).merged
        - (Told.zero.run goal told).merged) := by
  rw [replay, List.map_append, List.foldlM_append] at hst
  obtain ⟨st₁, htold, hst⟩ := Fallible.bind_eq_ok.mp hst
  rw [List.map_cons, List.foldlM_cons] at hst
  obtain ⟨st₂, hstep, hst⟩ := Fallible.bind_eq_ok.mp hst
  have hrecv₁ := (foldlM_told hopen (fun x hx => htaken x (List.mem_append_left _ hx)) htold
    (t := Told.zero) rfl).1
  have htold₂ := replayStep_told hopen.opens hstep hrecv₁
  have hlast := (foldlM_told hopen
    (fun x hx => htaken x (List.mem_append_right _ (List.mem_cons_of_mem _ hx))) hst
    htold₂.recvV).2 hlater
  obtain ⟨hspend, hmerged⟩ := htold₂.leaves hout
  rw [Wallets.run_append, Told.run_append]
  have hrun : ((Told.zero.run goal told).run goal (out :: later))
      = ((Told.zero.run goal told).step goal out).run goal later := rfl
  have happly : ((Wallets.genesis sdk.toScheme).run pre).run [out]
      = ((Wallets.genesis sdk.toScheme).run pre).apply out := rfl
  rw [hrun, happly, ← hspend]
  omega

end Served

end RaizStack
