import RaizStack.VerifyGoalTotal

/-!
# The goal's total as the audit prints it

`audit.mjs` reads the same events with the same key, but keeps one
running total where `verify-goal-total.mjs` keeps two accumulators.
Deposits, incoming transfers and withdrawals move both alike, and a merge
moves neither total. An outgoing transfer sets the audit's total to the
balance it left, which is the spendable one alone: what was pending at
that moment is gone from the total, and nothing brings it back.

So the audit trails the other script by what was pending when the goal
last sent a transfer (`behind`), in every history, and the two totals are
equal exactly when that was nothing (`totals_agree_iff`).
-/

namespace RaizStack

variable {R P C : Type}

/-- Transfers an account sends. -/
def Tx.Sends (goal : String) : Tx R C → Prop
  | .transfer _ sender _ _ _ _ _ => sender = goal
  | _ => False

namespace Audit

/-! ## The script -/

/-- The running total, and the lines printed so far. -/
structure GoalLedger where
  total : Int
  lines : List String
  deriving DecidableEq, Repr

section Script

variable [AddMonoid R] [Add P] (sdk : Sdk R P C)

/-- `fmt`; `xlm` prints `Number(stroops) / 1e7`. -/
def fmt (xlm : Int → String) (stroops : Int) : String :=
  xlm stroops ++ " XLM (" ++ toString stroops ++ " stroops)"

/-- `tx.slice(0, 8)…`. -/
def shortTx (info : EventAt) : String :=
  String.ofList (Text.takeUnits 8 info.txHash.toList) ++ "…"

def GoalLedger.start : GoalLedger :=
  { total := 0, lines := [] }

/-- The four `if`s of the loop. A transfer may pass two of them. -/
def ledgerStep (xlm : Int → String) (k1 : Int) (goal : String) (s : GoalLedger) :
    ConfidentialEvent C → Except String GoalLedger
  | .deposit _ _ recipient amount =>
      if recipient = goal then
        .ok
          { total := s.total + amount
            lines := s.lines ++ ["  + deposit (public amount)      " ++ fmt xlm amount] }
      else .ok s
  | .transfer info sender recipient data => do
      let s ←
        if recipient = goal then do
          let opened ← sdk.auditTransferRecipientChannel k1 data
          .ok
            { total := s.total + opened.1
              lines := s.lines ++
                ["  + transfer tx " ++ shortTx info ++ " decrypted via k1 recipient channel: "
                  ++ fmt xlm opened.1] }
        else .ok s
      if sender = goal then do
        let snd ← sdk.auditTransferSenderChannel k1 data
        .ok
          { total := snd.2
            lines := s.lines ++ ["  = outgoing transfer checkpoint " ++ fmt xlm snd.2] }
      else .ok s
  | .withdraw _ sender _ amount _ =>
      if sender = goal then
        .ok
          { total := s.total - amount
            lines := s.lines ++ ["  - withdraw (public amount)     " ++ fmt xlm amount] }
      else .ok s
  | .register _ _ | .merge _ _ => .ok s

/-- The loop. -/
def goalLedger (xlm : Int → String) (k1 : Int) (goal : String)
    (events : List (ConfidentialEvent C)) : Except String GoalLedger :=
  events.foldlM (ledgerStep sdk xlm k1 goal) GoalLedger.start

/-- What is printed of the goal, beside the balance its owner decrypted. -/
def report (xlm : Int → String) (ownerValue : Int) (s : GoalLedger) : List String :=
  s.lines ++
    [ "  GOAL TOTAL per view key = " ++ fmt xlm s.total,
      "  owner-decrypted balance (flow.mjs StateEngine) = " ++ fmt xlm ownerValue,
      "  MATCH: " ++ if s.total = ownerValue then "true" else "false" ]

end Script

/-! ## How far it trails -/

variable [AddMonoid R] [Add P]

section Behind

variable {S : Commit.Scheme R P} (goal : String)

/-- What is pending in an account as it sends a transfer, `n` otherwise. -/
def pendingAt (a : CtAccount S) (n : Int) : Tx R C → Int
  | .transfer _ sender _ _ _ _ _ => if sender = goal then a.receiving.value else n
  | _ => n

/-- What was pending when the goal last sent a transfer, `n` if it has
not. -/
def behind : Wallets S → Int → List (Tx R C) → Int
  | _, n, [] => n
  | w, n, tx :: txs => behind (w.apply tx) (pendingAt goal (w goal) n tx) txs

/-- Nothing was pending when the goal last sent a transfer. -/
def NothingPending (w : Wallets S) (txs : List (Tx R C)) : Prop :=
  ∀ pre tx post, txs = pre ++ tx :: post → tx.Sends goal → (∀ t ∈ post, ¬ t.Sends goal) →
    (w.run pre goal).receiving.value = 0

variable {goal}

theorem pendingAt_of_sends {a : CtAccount S} {n : Int} {tx : Tx R C} (h : tx.Sends goal) :
    pendingAt goal a n tx = a.receiving.value := by
  cases tx with
  | transfer => exact if_pos h
  | _ => exact h.elim

theorem pendingAt_of_not_sends {a : CtAccount S} {n : Int} {tx : Tx R C} (h : ¬ tx.Sends goal) :
    pendingAt goal a n tx = n := by
  cases tx with
  | transfer => exact if_neg h
  | _ => rfl

theorem behind_eq_zero_iff {w : Wallets S} {n : Int} {txs : List (Tx R C)} :
    behind goal w n txs = 0 ↔
      NothingPending goal w txs ∧ ((∀ tx ∈ txs, ¬ tx.Sends goal) → n = 0) := by
  induction txs generalizing w n with
  | nil =>
      refine ⟨fun h => ⟨fun pre tx post heq => ?_, fun _ => h⟩, fun h => h.2 nofun⟩
      exact absurd heq.symm (List.append_ne_nil_of_right_ne_nil _ (List.cons_ne_nil _ _))
  | cons tx txs ih =>
      rw [behind, ih, List.forall_mem_cons]
      constructor
      · rintro ⟨hlater, hquiet⟩
        refine ⟨?_, ?_⟩
        · rintro (_ | ⟨t, pre⟩) tx' post heq hsends hnone
          · obtain ⟨rfl, rfl⟩ := List.cons.inj heq
            have hzero := hquiet hnone
            rwa [pendingAt_of_sends hsends] at hzero
          · obtain ⟨rfl, rfl⟩ := List.cons.inj heq
            exact hlater pre tx' post rfl hsends hnone
        · rintro ⟨hnot, hnone⟩
          have hzero := hquiet hnone
          rwa [pendingAt_of_not_sends hnot] at hzero
      · rintro ⟨hall, hquiet⟩
        refine ⟨?_, fun hnone => ?_⟩
        · rintro pre tx' post rfl hsends hnone
          exact hall (tx :: pre) tx' post rfl hsends hnone
        · by_cases hsends : tx.Sends goal
          · rw [pendingAt_of_sends hsends]
            exact hall [] tx txs rfl hsends hnone
          · rw [pendingAt_of_not_sends hsends]
            exact hquiet ⟨hsends, hnone⟩

end Behind

/-! ## The loop beside the account -/

variable {sdk : Sdk R P C} {xlm : Int → String} {k1 : Int} {goal : String}

/-- The total lacks `n` of what the account holds. -/
def Trails {S : Commit.Scheme R P} (a : CtAccount S) (n : Int) (s : GoalLedger) : Prop :=
  s.total + n = a.spendable.value + a.receiving.value

theorem ledgerStep_trails {w : Wallets sdk.toScheme} {tx : Tx R C} {n : Int} {s : GoalLedger}
    (hopen : ChannelsOpen sdk k1 goal (w goal) tx) (hself : ¬ tx.SelfMoves goal)
    (ht : Trails (w goal) n s) :
    ∃ s', ledgerStep sdk xlm k1 goal s tx.event = .ok s' ∧
      Trails (w.apply tx goal) (pendingAt goal (w goal) n tx) s' := by
  unfold Trails at ht ⊢
  cases tx with
  | register info account => exact ⟨s, rfl, ht⟩
  | deposit info sender recipient amount =>
      simp only [Tx.event, ledgerStep]
      by_cases hto : recipient = goal
      · subst hto
        rw [if_pos rfl, Wallets.apply_deposit_self]
        refine ⟨_, rfl, ?_⟩
        simp only [pendingAt, CtAccount.credit_spendable, CtAccount.credit_receiving,
          Commit.Opened.add_value, Commit.Opened.ofOpening_value]
        omega
      · rw [if_neg hto, Wallets.apply_of_not_touches (by exact hto)]
        exact ⟨s, rfl, ht⟩
  | merge info account =>
      refine ⟨s, rfl, ?_⟩
      by_cases hacc : account = goal
      · -- what was pending is spendable now
        subst hacc
        rw [Wallets.apply_merge_self]
        simp only [pendingAt, CtAccount.merged, Commit.Opened.add_value,
          Commit.Opened.ofOpening_value]
        omega
      · rw [Wallets.apply_of_not_touches (by exact hacc)]
        exact ht
  | transfer info sender recipient amount rTx rNew data =>
      obtain ⟨hin, hout⟩ := hopen
      simp only [Tx.event, ledgerStep]
      by_cases hto : recipient = goal
      · rw [if_pos hto, hin hto, Fallible.ok_bind, Fallible.ok_bind]
        subst hto
        by_cases hfrom : sender = recipient
        · have hzero : amount = 0 := by
            by_contra hne
            exact hself ⟨hfrom, rfl, hne⟩
          subst hfrom hzero
          rw [if_pos rfl, hout rfl, Fallible.ok_bind, Wallets.apply_transfer_self]
          refine ⟨_, rfl, ?_⟩
          simp only [pendingAt, if_pos, CtAccount.credit_spendable, CtAccount.debit_spendable,
            CtAccount.credit_receiving, CtAccount.debit_receiving, Commit.Opened.add_value,
            Commit.Opened.ofOpening_value]
          omega
        · rw [if_neg hfrom, Wallets.apply_transfer_in w info amount rTx rNew data hfrom]
          refine ⟨_, rfl, ?_⟩
          simp only [pendingAt, if_neg hfrom, CtAccount.credit_spendable,
            CtAccount.credit_receiving, Commit.Opened.add_value, Commit.Opened.ofOpening_value]
          omega
      · rw [if_neg hto, Fallible.ok_bind]
        by_cases hfrom : sender = goal
        · -- the checkpoint: what is pending is not in it
          subst hfrom
          rw [if_pos rfl, hout rfl, Fallible.ok_bind,
            Wallets.apply_transfer_out w info amount rTx rNew data hto]
          refine ⟨_, rfl, ?_⟩
          simp only [pendingAt, if_pos, CtAccount.debit_spendable, CtAccount.debit_receiving,
            Commit.Opened.ofOpening_value]
        · rw [if_neg hfrom, Wallets.apply_of_not_touches (by exact not_or.mpr ⟨hfrom, hto⟩)]
          refine ⟨s, rfl, ?_⟩
          simpa only [pendingAt, if_neg hfrom] using ht
  | withdraw info sender recipient amount rNew data =>
      simp only [Tx.event, ledgerStep]
      by_cases hfrom : sender = goal
      · subst hfrom
        rw [if_pos rfl, Wallets.apply_withdraw_self]
        refine ⟨_, rfl, ?_⟩
        simp only [pendingAt, CtAccount.debit_spendable, CtAccount.debit_receiving,
          Commit.Opened.ofOpening_value]
        omega
      · rw [if_neg hfrom, Wallets.apply_of_not_touches (by exact hfrom)]
        exact ⟨s, rfl, ht⟩

theorem foldlM_trails {w : Wallets sdk.toScheme} {txs : List (Tx R C)} {n : Int} {s : GoalLedger}
    (hopen : ChannelsDecrypt sdk k1 goal w txs) (hself : ∀ tx ∈ txs, ¬ tx.SelfMoves goal)
    (ht : Trails (w goal) n s) :
    ∃ s', (txs.map Tx.event).foldlM (ledgerStep sdk xlm k1 goal) s = .ok s' ∧
      Trails (w.run txs goal) (behind goal w n txs) s' := by
  induction txs generalizing w n s with
  | nil => exact ⟨s, rfl, ht⟩
  | cons tx txs ih =>
      rw [List.forall_mem_cons] at hself
      obtain ⟨s₁, hstep, ht₁⟩ := ledgerStep_trails hopen.1 hself.1 ht
      obtain ⟨s₂, hrest, ht₂⟩ := ih hopen.2 hself.2 ht₁
      refine ⟨s₂, ?_, ht₂⟩
      rw [List.map_cons, List.foldlM_cons, hstep]
      exact hrest

/-- The audit of a complete history, and what it lacks. -/
theorem goalLedger_trails {txs : List (Tx R C)}
    (hopen : ChannelsDecrypt sdk k1 goal (Wallets.genesis _) txs)
    (hself : ∀ tx ∈ txs, ¬ tx.SelfMoves goal) :
    ∃ s, goalLedger sdk xlm k1 goal (txs.map Tx.event) = .ok s ∧
      Trails ((Wallets.genesis sdk.toScheme).run txs goal)
        (behind goal (Wallets.genesis sdk.toScheme) 0 txs) s :=
  foldlM_trails hopen hself rfl

/-- The accumulators of the other script hold all of it. -/
theorem replay_holds {txs : List (Tx R C)}
    (hopen : ChannelsDecrypt sdk k1 goal (Wallets.genesis _) txs)
    (hself : ∀ tx ∈ txs, ¬ tx.SelfMoves goal) :
    ∃ o, VerifyGoalTotal.replay sdk k1 goal (txs.map Tx.event) = .ok o ∧
      o.spendV + o.recvV = ((Wallets.genesis sdk.toScheme).run txs goal).spendable.value
        + ((Wallets.genesis sdk.toScheme).run txs goal).receiving.value := by
  obtain ⟨st, hst, hf⟩ := replay_follows hopen
  obtain ⟨o, ho, hstep⟩ := (VerifyGoalTotal.replay_both k1 goal _).exists_left hst
  have hoff : (Drift.zero.run goal txs).off = 0 := off_run_of_not_selfMoves rfl hself
  refine ⟨o, ho, ?_⟩
  rw [hstep.spendV, hstep.recvV, hf.spendV, hf.recvV, hoff, Int.add_zero]

/-- **Two scripts, one total?** Over every history in which the goal moves
nothing to itself both scripts come to a total, and the totals are equal
exactly when nothing was pending as the goal last sent a transfer. -/
theorem totals_agree_iff {txs : List (Tx R C)}
    (hopen : ChannelsDecrypt sdk k1 goal (Wallets.genesis _) txs)
    (hself : ∀ tx ∈ txs, ¬ tx.SelfMoves goal) :
    ∃ s o, goalLedger sdk xlm k1 goal (txs.map Tx.event) = .ok s ∧
      VerifyGoalTotal.replay sdk k1 goal (txs.map Tx.event) = .ok o ∧
      (s.total = o.spendV + o.recvV ↔
        NothingPending goal (Wallets.genesis sdk.toScheme) txs) := by
  obtain ⟨s, hs, ht⟩ : ∃ s, goalLedger sdk xlm k1 goal (txs.map Tx.event) = .ok s ∧
      Trails ((Wallets.genesis sdk.toScheme).run txs goal)
        (behind goal (Wallets.genesis sdk.toScheme) 0 txs) s := goalLedger_trails hopen hself
  obtain ⟨o, ho, hholds⟩ := replay_holds hopen hself
  refine ⟨s, o, hs, ho, ?_⟩
  have hbehind : s.total = o.spendV + o.recvV ↔
      behind goal (Wallets.genesis sdk.toScheme) 0 txs = 0 := by
    unfold Trails at ht
    omega
  rw [hbehind, behind_eq_zero_iff]
  exact and_iff_left fun _ => rfl

/-! ## Two histories -/

/-- 100 in and merged, `pending` in and left pending, 30 sent to `B`. -/
def sentOver (pending : Int) : List (Tx Int (Int × Int × Int)) :=
  [ .deposit (inLedger 1) "A" "G" 100, .merge (inLedger 2) "G",
    .deposit (inLedger 3) "A" "G" pending, .transfer (inLedger 4) "G" "B" 30 5 7 (30, 5, 70) ]

theorem sentOver_decrypts (pending : Int) :
    ChannelsDecrypt clearSdk 1 "G" (Wallets.genesis _) (sentOver pending) :=
  ⟨trivial, trivial, trivial, ⟨fun _ => rfl, fun _ => rfl⟩, trivial⟩

theorem sentOver_not_selfMoves (pending : Int) :
    ∀ tx ∈ sentOver pending, ¬ tx.SelfMoves "G" := by
  simp [sentOver, Tx.SelfMoves]

/-- Nothing pending: 70 for both. -/
theorem totals_agree_sentOver :
    ∃ s o, goalLedger clearSdk toString 1 "G" ((sentOver 0).map Tx.event) = .ok s ∧
      VerifyGoalTotal.replay clearSdk 1 "G" ((sentOver 0).map Tx.event) = .ok o ∧
      s.total = o.spendV + o.recvV := by
  have hnone : behind "G" (Wallets.genesis clearSdk.toScheme) 0 (sentOver 0) = 0 := rfl
  obtain ⟨s, o, hs, ho, hiff⟩ := totals_agree_iff (sentOver_decrypts 0) (sentOver_not_selfMoves 0)
  exact ⟨s, o, hs, ho, hiff.mpr (behind_eq_zero_iff.mp hnone).1⟩

/-- Sent while 50 are pending: the audit says 70, the other script 120. -/
theorem audit_drops_pending :
    ChannelsDecrypt clearSdk 1 "G" (Wallets.genesis _) (sentOver 50) ∧
    (∀ tx ∈ sentOver 50, ¬ tx.SelfMoves "G") ∧
    ∃ s o, goalLedger clearSdk toString 1 "G" ((sentOver 50).map Tx.event) = .ok s ∧
      VerifyGoalTotal.replay clearSdk 1 "G" ((sentOver 50).map Tx.event) = .ok o ∧
      s.total = 70 ∧ o.spendV + o.recvV = 120 ∧ s.total ≠ o.spendV + o.recvV :=
  ⟨sentOver_decrypts 50, sentOver_not_selfMoves 50, _, _, rfl, rfl, rfl, rfl, by decide⟩

end Audit

end RaizStack
