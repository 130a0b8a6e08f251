import Mathlib.Algebra.Group.Int.Defs
import Mathlib.Algebra.Group.Prod
import RaizStack.ShimTotal

/-!
# The replay against the chain

The replay loop never sees the wrapper, only its events. This file runs
the two side by side, under the assumption that the channels decrypt what
the transactions carried, and says how far the openings are from the
chain after any history: the receiving opening is always exact, the
spendable value is off by exactly what the goal has sent to itself since
its last other outflow (`Drift`). A transfer of the goal to itself takes
the branch of an incoming transfer and never that of an outgoing one, so
`replay_exact_iff` is an equivalence: the value replay is exact, after
every prefix, when the goal never moves a positive amount to itself, and
only then.
-/

namespace RaizStack

variable {R P C : Type}

/-! ## How far the replay is from the chain -/

/-- `off`: how much the replayed spendable value exceeds the real one.
`kept`: the spendable commitment is still a sum of openings. -/
structure Drift where
  off : Int
  kept : Bool
  deriving DecidableEq, Repr

def Drift.zero : Drift := { off := 0, kept := true }

def Drift.step (goal : String) (d : Drift) : Tx R C → Drift
  | .transfer _ sender recipient amount _ _ _ =>
      if sender = goal then
        { off := if recipient = goal then d.off + amount else 0, kept := false }
      else d
  | .withdraw _ sender _ _ _ _ => if sender = goal then { off := 0, kept := false } else d
  | _ => d

def Drift.run (goal : String) (d : Drift) (txs : List (Tx R C)) : Drift :=
  txs.foldl (Drift.step goal) d

variable {goal : String}

theorem off_step_of_not_selfMoves {d : Drift} {tx : Tx R C} (hd : d.off = 0)
    (htx : ¬ tx.SelfMoves goal) : (d.step goal tx).off = 0 := by
  cases tx with
  | transfer info sender recipient amount rTx rNew data =>
      simp only [Drift.step]
      split
      · split
        · have hzero : amount = 0 := by
            by_contra hne
            exact htx ⟨‹_›, ‹_›, hne⟩
          simp only [hd, hzero, Int.add_zero]
        · rfl
      · exact hd
  | withdraw info sender recipient amount rNew data =>
      simp only [Drift.step]
      split
      · rfl
      · exact hd
  | register info account => exact hd
  | deposit info sender recipient amount => exact hd
  | merge info account => exact hd

theorem off_step_of_selfMoves {d : Drift} {tx : Tx R C} (hd : d.off = 0)
    (htx : tx.SelfMoves goal) : (d.step goal tx).off ≠ 0 := by
  cases tx with
  | transfer info sender recipient amount rTx rNew data =>
      obtain ⟨hfrom, hto, hne⟩ := htx
      simp only [Drift.step, if_pos hfrom, if_pos hto, hd, Int.zero_add]
      exact hne
  | register info account => exact htx.elim
  | deposit info sender recipient amount => exact htx.elim
  | merge info account => exact htx.elim
  | withdraw info sender recipient amount rNew data => exact htx.elim

theorem off_run_of_not_selfMoves {d : Drift} {txs : List (Tx R C)} (hd : d.off = 0)
    (htxs : ∀ tx ∈ txs, ¬ tx.SelfMoves goal) : (d.run goal txs).off = 0 := by
  induction txs generalizing d with
  | nil => exact hd
  | cons tx txs ih =>
      have hstep : (d.step goal tx).off = 0 :=
        off_step_of_not_selfMoves hd (htxs tx List.mem_cons_self)
      exact ih hstep fun t ht => htxs t (List.mem_cons_of_mem _ ht)

variable [AddMonoid R] [Add P]

/-! ## Channels that decrypt -/

section Channels

variable (sdk : Sdk R P C) (k1 : Int) (goal : String)

/-- The channels of one transaction open to its plaintext, for an account
in a given state. -/
def ChannelsOpen (a : CtAccount sdk.toScheme) : Tx R C → Prop
  | .transfer _ sender recipient amount rTx _ data =>
      (recipient = goal → sdk.auditTransferRecipientChannel k1 data = .ok (amount, rTx)) ∧
      (sender = goal →
        sdk.auditTransferSenderChannel k1 data = .ok (amount, a.spendable.value - amount))
  | .withdraw _ sender _ amount _ data =>
      sender = goal → sdk.auditWithdraw k1 data = .ok (a.spendable.value - amount)
  | _ => True

/-- So do those of a history, each in the state it was made in. -/
def ChannelsDecrypt : Wallets sdk.toScheme → List (Tx R C) → Prop
  | _, [] => True
  | w, tx :: txs => ChannelsOpen sdk k1 goal (w goal) tx ∧ ChannelsDecrypt (w.apply tx) txs

variable {sdk k1 goal}

theorem ChannelsDecrypt.append {w : Wallets sdk.toScheme} {txs txs' : List (Tx R C)} :
    ChannelsDecrypt sdk k1 goal w (txs ++ txs') ↔
      ChannelsDecrypt sdk k1 goal w txs ∧ ChannelsDecrypt sdk k1 goal (w.run txs) txs' := by
  induction txs generalizing w with
  | nil => simp [ChannelsDecrypt]
  | cons tx txs ih =>
      have hrun : w.run (tx :: txs) = (w.apply tx).run txs := rfl
      simp only [List.cons_append, ChannelsDecrypt, ih, hrun, and_assoc]

end Channels

/-! ## The invariant -/

/-- A replay state beside the account it replays. -/
structure Follows {S : Commit.Scheme R P} (a : CtAccount S) (d : Drift) (st : Replay R) :
    Prop where
  spendV : st.spendV = a.spendable.value + d.off
  recvV : st.recvV = a.receiving.value
  recvR : st.recvR = a.receiving.rand
  kept : d.kept = true → st.spendableProvable = true ∧ st.spendR = a.spendable.rand

variable {sdk : Sdk R P C} {k1 : Int}

theorem follows_start :
    Follows (Wallets.genesis sdk.toScheme goal) Drift.zero (Replay.start : Replay R) where
  spendV := rfl
  recvV := rfl
  recvR := rfl
  kept _ := ⟨rfl, rfl⟩

/-! ## One event -/

theorem replayStep_follows {w : Wallets sdk.toScheme} {tx : Tx R C} {d : Drift} {st : Replay R}
    (hopen : ChannelsOpen sdk k1 goal (w goal) tx) (hf : Follows (w goal) d st) :
    ∃ st', replayStep sdk k1 goal st tx.event = .ok st' ∧
      Follows (w.apply tx goal) (d.step goal tx) st' := by
  obtain ⟨hsv, hrv, hrr, hkept⟩ := hf
  cases tx with
  | register info account => exact ⟨st, rfl, hsv, hrv, hrr, hkept⟩
  | deposit info sender recipient amount =>
      simp only [Tx.event, replayStep]
      by_cases hto : recipient = goal
      · subst hto
        rw [if_pos rfl, Wallets.apply_deposit_self]
        exact ⟨_, rfl, hsv, by simp [hrv], by simp [hrr], hkept⟩
      · rw [if_neg hto, Wallets.apply_of_not_touches (by exact hto)]
        exact ⟨st, rfl, hsv, hrv, hrr, hkept⟩
  | merge info account =>
      simp only [Tx.event, replayStep]
      by_cases hacc : account = goal
      · subst hacc
        rw [if_pos rfl, Wallets.apply_merge_self]
        refine ⟨_, rfl, ?_, rfl, rfl, fun hk => ⟨(hkept hk).1, ?_⟩⟩
        · simp only [CtAccount.merged_spendable, Commit.Opened.add_value, Drift.step]
          omega
        · simp only [CtAccount.merged_spendable, Commit.Opened.add_rand]
          rw [(hkept hk).2, hrr]
      · rw [if_neg hacc, Wallets.apply_of_not_touches (by exact hacc)]
        exact ⟨st, rfl, hsv, hrv, hrr, hkept⟩
  | transfer info sender recipient amount rTx rNew data =>
      obtain ⟨hin, hout⟩ := hopen
      simp only [Tx.event, replayStep, Drift.step]
      by_cases hto : recipient = goal
      · rw [if_pos hto, hin hto, Fallible.ok_bind]
        refine ⟨_, rfl, ?_⟩
        subst hto
        by_cases hfrom : sender = recipient
        · -- the goal on both sides: credited, never debited
          subst hfrom
          rw [if_pos rfl, if_pos rfl, Wallets.apply_transfer_self]
          refine ⟨?_, by simp [hrv], by simp [hrr], nofun⟩
          simp only [CtAccount.credit_spendable, CtAccount.debit_spendable,
            Commit.Opened.ofOpening_value]
          omega
        · rw [if_neg hfrom, Wallets.apply_transfer_in w info amount rTx rNew data hfrom]
          exact ⟨hsv, by simp [hrv], by simp [hrr], hkept⟩
      · rw [if_neg hto]
        by_cases hfrom : sender = goal
        · subst hfrom
          rw [if_pos rfl, hout rfl, Fallible.ok_bind, if_pos rfl, if_neg hto,
            Wallets.apply_transfer_out w info amount rTx rNew data hto]
          exact ⟨_, rfl, by simp, hrv, hrr, nofun⟩
        · rw [if_neg hfrom, if_neg hfrom,
            Wallets.apply_of_not_touches (by exact not_or.mpr ⟨hfrom, hto⟩)]
          exact ⟨st, rfl, hsv, hrv, hrr, hkept⟩
  | withdraw info sender recipient amount rNew data =>
      simp only [Tx.event, replayStep, Drift.step]
      by_cases hfrom : sender = goal
      · subst hfrom
        rw [if_pos rfl, hopen rfl, Fallible.ok_bind, if_pos rfl, Wallets.apply_withdraw_self]
        exact ⟨_, rfl, by simp, hrv, hrr, nofun⟩
      · rw [if_neg hfrom, if_neg hfrom, Wallets.apply_of_not_touches (by exact hfrom)]
        exact ⟨st, rfl, hsv, hrv, hrr, hkept⟩

/-! ## A history -/

theorem foldlM_follows {w : Wallets sdk.toScheme} {txs : List (Tx R C)} {d : Drift}
    {st : Replay R} (hopen : ChannelsDecrypt sdk k1 goal w txs) (hf : Follows (w goal) d st) :
    ∃ st', (txs.map Tx.event).foldlM (replayStep sdk k1 goal) st = .ok st' ∧
      Follows (w.run txs goal) (d.run goal txs) st' := by
  induction txs generalizing w d st with
  | nil => exact ⟨st, rfl, hf⟩
  | cons tx txs ih =>
      obtain ⟨st₁, hstep, hf₁⟩ := replayStep_follows hopen.1 hf
      obtain ⟨st₂, hrest, hf₂⟩ := ih hopen.2 hf₁
      refine ⟨st₂, ?_, hf₂⟩
      rw [List.map_cons, List.foldlM_cons, hstep]
      exact hrest

/-- The replay of a complete history succeeds, and this is how far it is
from the chain. -/
theorem replay_follows {txs : List (Tx R C)}
    (hopen : ChannelsDecrypt sdk k1 goal (Wallets.genesis _) txs) :
    ∃ st, replay sdk k1 goal (txs.map Tx.event) = .ok st ∧
      Follows ((Wallets.genesis sdk.toScheme).run txs goal) (Drift.zero.run goal txs) st :=
  foldlM_follows hopen follows_start

/-! ## When the value replay is exact -/

/-- The replay of a history carries the goal's two values. -/
def ReplaysTo (sdk : Sdk R P C) (k1 : Int) (goal : String) (txs : List (Tx R C)) : Prop :=
  ∃ st, replay sdk k1 goal (txs.map Tx.event) = .ok st ∧
    st.spendV = ((Wallets.genesis sdk.toScheme).run txs goal).spendable.value ∧
    st.recvV = ((Wallets.genesis sdk.toScheme).run txs goal).receiving.value

theorem replaysTo_iff {txs : List (Tx R C)}
    (hopen : ChannelsDecrypt sdk k1 goal (Wallets.genesis _) txs) :
    ReplaysTo sdk k1 goal txs ↔ (Drift.zero.run goal txs).off = 0 := by
  obtain ⟨st, hst, hf⟩ := replay_follows hopen
  constructor
  · rintro ⟨st', hst', hsv, -⟩
    obtain rfl : st = st' := Except.ok.inj (hst.symm.trans hst')
    have hoff := hf.spendV
    omega
  · intro hoff
    refine ⟨st, hst, ?_, hf.recvV⟩
    rw [hf.spendV, hoff, Int.add_zero]

/-- Over a complete history and every prefix of it, the replay carries the
values of the goal's two balances exactly when no transfer in the history
moves a non-zero amount from the goal to itself. -/
theorem replay_exact_iff {txs : List (Tx R C)}
    (hopen : ChannelsDecrypt sdk k1 goal (Wallets.genesis _) txs) :
    (∀ pre, pre <+: txs → ReplaysTo sdk k1 goal pre) ↔ ∀ tx ∈ txs, ¬ tx.SelfMoves goal := by
  have hat : ∀ pre, pre <+: txs →
      (ReplaysTo sdk k1 goal pre ↔ (Drift.zero.run goal pre).off = 0) := by
    rintro pre ⟨post, rfl⟩
    exact replaysTo_iff (ChannelsDecrypt.append.mp hopen).1
  constructor
  · intro hall tx htx hself
    obtain ⟨pre, post, hsplit⟩ := List.append_of_mem htx
    have hpre : pre <+: txs := ⟨tx :: post, hsplit.symm⟩
    have hnext : pre ++ [tx] <+: txs := ⟨post, by rw [hsplit, List.append_assoc]; rfl⟩
    have hoff := (hat pre hpre).mp (hall pre hpre)
    have hoff' := (hat (pre ++ [tx]) hnext).mp (hall _ hnext)
    rw [Drift.run, List.foldl_append] at hoff'
    exact off_step_of_selfMoves hoff hself hoff'
  · intro hnone pre hpre
    refine (hat pre hpre).mpr (off_run_of_not_selfMoves rfl ?_)
    intro tx htx
    exact hnone tx (hpre.subset htx)

/-! ## An SDK in the clear

Points are openings and nothing is encrypted; for concrete runs. A
transfer carries its amount, its randomness and the balance left. -/

def clearSdk : Sdk Int (Int × Int) (Int × Int × Int) where
  commit v r := (v, r)
  commit_add _ _ _ _ := rfl
  pointCoords := id
  pointCoords_inj := Function.injective_id
  pointFromBytes
    | [b] => .ok (b.toNat, 0)
    | _ => .error "bad point"
  auditorPublicKey k := (k, 0)
  auditTransferRecipientChannel _ data := .ok (data.1, data.2.1)
  auditTransferSenderChannel _ data := .ok (data.1, data.2.2)
  auditWithdraw _ data := .ok data.2.2

theorem clearSdk_binding : clearSdk.Binding :=
  fun _ _ _ _ h => congrArg Prod.fst h

def inLedger (n : Int) : EventAt :=
  { ledger := n, txHash := "", ledgerClosedAt := none }

/-- 100 arrive and are merged; 30 are sent on to `recipient`. -/
def sentOn (recipient : String) : List (Tx Int (Int × Int × Int)) :=
  [ .deposit (inLedger 1) "A" "G" 100, .merge (inLedger 2) "G",
    .transfer (inLedger 3) "G" recipient 30 5 7 (30, 5, 70) ]

theorem sentOn_decrypts (recipient : String) :
    ChannelsDecrypt clearSdk 1 "G" (Wallets.genesis _) (sentOn recipient) :=
  ⟨trivial, trivial, ⟨fun _ => rfl, fun _ => rfl⟩, trivial⟩

theorem replay_exact_sentOn :
    ReplaysTo clearSdk 1 "G" (sentOn "B") :=
  (replay_exact_iff (sentOn_decrypts "B")).mpr
    (by
      intro tx htx
      simp only [sentOn, List.mem_cons, List.not_mem_nil, or_false] at htx
      rcases htx with rfl | rfl | rfl
      · exact id
      · exact id
      · exact fun h => absurd h.2.1 (by decide))
    _ (List.prefix_refl _)

/-- Sent to the goal itself, the 30 are counted twice. -/
theorem replay_counts_self_transfer_twice :
    ChannelsDecrypt clearSdk 1 "G" (Wallets.genesis _) (sentOn "G") ∧
    ¬ ReplaysTo clearSdk 1 "G" (sentOn "G") ∧
    ((Wallets.genesis clearSdk.toScheme).run (sentOn "G") "G").spendable.value = 70 ∧
    (∃ st, replay clearSdk 1 "G" ((sentOn "G").map Tx.event) = .ok st ∧ st.spendV = 100) := by
  refine ⟨sentOn_decrypts "G", ?_, rfl, _, rfl, rfl⟩
  rintro ⟨st, hst, hsv, -⟩
  obtain rfl := Except.ok.inj hst
  revert hsv
  decide

end RaizStack
