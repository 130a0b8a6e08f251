import RaizStack.ShimTold
import RaizStack.Text

/-!
# What a verified total is worth

The verdict compares two re-commitments with two points of the chain, so
under a binding scheme what it compared is right. What it did not compare
is only replayed: after an outflow the check of the spendable commitment
is skipped, not failed, and a served list that lost an inflow and the
merge after it still passes. `goalTotal_sound` is what remains: the
receiving part always, the total when no outflow was served, and the total
of a list that is complete since some merge before its last outflow. For a
list with gaps it is an equivalence: the total is right exactly when the
balance the last served outflow left, and the merges served after it,
account for what the goal holds (`AccountsFor`).
-/

namespace RaizStack

variable {R P C : Type} [AddMonoid R] [Add P]

/-! ## What the run read of the chain -/

/-- An account read shows the two points of an account. -/
def AccountView.Shows {S : Commit.Scheme R P} (acc : AccountView P) (a : CtAccount S) : Prop :=
  acc.spendableBalance = a.spendable.point ∧ acc.receivingBalance = a.receiving.point

/-- The commitments were read when the history was `before`, and again,
if at all, when it was `before ++ between`. -/
structure ChainReads (S : Commit.Scheme R P) (goal : String) (before between : List (Tx R C))
    (a : TotalAnswers P C) : Prop where
  first : ∀ acc, a.balance = .ok (some acc) → acc.Shows ((Wallets.genesis S).run before goal)
  again : ∀ acc, a.balanceAgain = .ok (some acc) →
    acc.Shows ((Wallets.genesis S).run (before ++ between) goal)

theorem ChainReads.of_shows {S : Commit.Scheme R P} {goal : String} {before between : List (Tx R C)}
    {a : TotalAnswers P C} {acc acc' : AccountView P} (hfirst : a.balance = .ok (some acc))
    (hshows : acc.Shows ((Wallets.genesis S).run before goal))
    (hagain : a.balanceAgain = .ok (some acc'))
    (hshows' : acc'.Shows ((Wallets.genesis S).run (before ++ between) goal)) :
    ChainReads S goal before between a where
  first x hx := by
    obtain rfl := Option.some.inj (Except.ok.inj (hfirst.symm.trans hx))
    exact hshows
  again x hx := by
    obtain rfl := Option.some.inj (Except.ok.inj (hagain.symm.trans hx))
    exact hshows'

/-- The history at the read the verdict is about. -/
def historyAt (before between : List (Tx R C)) (reread : Bool) : List (Tx R C) :=
  if reread then before ++ between else before

/-- Two instants of one history with nothing of the account between them. -/
def QuietBetween (goal : String) (txs txs' : List (Tx R C)) : Prop :=
  ∃ quiet, (txs' = txs ++ quiet ∨ txs = txs' ++ quiet) ∧ ∀ tx ∈ quiet, ¬ tx.Touches goal

theorem QuietBetween.run_eq {S : Commit.Scheme R P} {goal : String} {w : Wallets S}
    {txs txs' : List (Tx R C)} (h : QuietBetween goal txs txs') :
    w.run txs goal = w.run txs' goal := by
  obtain ⟨quiet, rfl | rfl, hquiet⟩ := h
  · rw [Wallets.run_append, Wallets.run_of_not_touches hquiet]
  · rw [Wallets.run_append, Wallets.run_of_not_touches hquiet]

/-! ## A run that returned -/

variable {sdk : Sdk R P C} {p : GoalTotalParams} {a : TotalAnswers P C}

/-- What a returned total was computed from. -/
structure RunFacts (sdk : Sdk R P C) (p : GoalTotalParams) (a : TotalAnswers P C)
    (g : GoalTotal) (last : LastRead P) (account : AccountView P) (read : EventsRead C)
    (st : Replay R) : Prop where
  balance : a.balance = .ok (some account)
  events : a.events = .ok read
  replayed : replay sdk p.viewKeySecret p.goalAccount read.events = .ok st
  settled : settle sdk st account a.balanceAgain = .ok last
  total : g.totalStroops = dec (st.spendV + st.recvV)
  receiving : g.receivingStroops = dec st.recvV
  provable : g.fullyPointVerified = st.spendableProvable
  verdict : ∃ others stale, g.verified = allPassed (others ++ commitChecks sdk st last stale)

omit [Add P] in
theorem readAccount_eq_ok {account : AccountView P} (h : readAccount p a = .ok account) :
    a.balance = .ok (some account) := by
  obtain ⟨acc, hacc, h⟩ := Fallible.bind_eq_ok.mp h
  cases acc with
  | none => cases h
  | some acc => rw [hacc, Except.ok.inj h]

theorem goalTotalRun_eq_ok {g : GoalTotal} {last : LastRead P}
    (h : goalTotalRun sdk p a = .ok (g, last)) :
    ∃ account read st, RunFacts sdk p a g last account read st := by
  obtain ⟨fromLedger, -, h⟩ := Fallible.bind_eq_ok.mp h
  obtain ⟨goalMeta, -, h⟩ := Fallible.bind_eq_ok.mp h
  obtain ⟨account, haccount, h⟩ := Fallible.bind_eq_ok.mp h
  obtain ⟨registry, -, h⟩ := Fallible.bind_eq_ok.mp h
  obtain ⟨read, hread, h⟩ := Fallible.bind_eq_ok.mp h
  obtain ⟨st, hst, h⟩ := Fallible.bind_eq_ok.mp h
  split at h
  · cases h
  · obtain ⟨last', hlast, h⟩ := Fallible.bind_eq_ok.mp h
    obtain ⟨ledger, -, h⟩ := Fallible.bind_eq_ok.mp h
    obtain ⟨rfl, rfl⟩ := Prod.mk.inj (Except.ok.inj h)
    exact ⟨account, read, st,
      { balance := readAccount_eq_ok haccount
        events := hread
        replayed := hst
        settled := hlast
        total := rfl
        receiving := rfl
        provable := rfl
        verdict := ⟨_, _, rfl⟩ }⟩

/-- The verdict is about the account first read or the one read again. -/
theorem settle_eq_ok {st : Replay R} {account : AccountView P} {last : LastRead P}
    {again : Except String (Option (AccountView P))}
    (h : settle sdk st account again = .ok last) :
    (last.reread = false ∧ last.account = account) ∨
      (last.reread = true ∧ again = .ok (some last.account)) := by
  unfold settle at h
  split at h
  · obtain ⟨acc, hacc, h⟩ := Fallible.bind_eq_ok.mp h
    cases acc with
    | none =>
        obtain rfl := Except.ok.inj h
        exact Or.inl ⟨rfl, rfl⟩
    | some acc =>
        obtain rfl := Except.ok.inj h
        exact Or.inr ⟨rfl, hacc⟩
  · obtain rfl := Except.ok.inj h
    exact Or.inl ⟨rfl, rfl⟩

theorem last_shows {g : GoalTotal} {last : LastRead P} {account : AccountView P}
    {read : EventsRead C} {st : Replay R} {before between : List (Tx R C)}
    (hrun : RunFacts sdk p a g last account read st)
    (hreads : ChainReads sdk.toScheme p.goalAccount before between a) :
    last.account.Shows ((Wallets.genesis sdk.toScheme).run
      (historyAt before between last.reread) p.goalAccount) := by
  rcases settle_eq_ok hrun.settled with ⟨hfirst, hacc⟩ | ⟨hagain, hacc⟩
  · rw [hacc, hfirst]
    exact hreads.first account hrun.balance
  · rw [hagain]
    exact hreads.again last.account hacc

/-! ## What a passed check shows -/

theorem allPassed_append {cs cs' : List Check} :
    allPassed (cs ++ cs') = true ↔ allPassed cs = true ∧ allPassed cs' = true := by
  simp only [allPassed, List.all_append, Bool.and_eq_true]

theorem commitChecks_passed {st : Replay R} {last : LastRead P} {stale : String} :
    allPassed (commitChecks sdk st last stale) = true ↔
      (st.spendableProvable = true → spendOk sdk st last.account = true) ∧
      recvOk sdk st last.account = true := by
  cases hp : st.spendableProvable <;>
    cases hs : spendOk sdk st last.account <;>
    cases hr : recvOk sdk st last.account <;>
    simp [allPassed, commitChecks, commitCheck, check, hp, hs, hr]

theorem samePoint_eq_true {x y : P} : samePoint sdk x y = true ↔ x = y := by
  rw [samePoint, decide_eq_true_eq]
  exact ⟨fun h => sdk.pointCoords_inj h, fun h => congrArg _ h⟩

theorem recvOk_value {st : Replay R} {acc : AccountView P} {c : CtAccount sdk.toScheme}
    (hb : sdk.Binding) (hshows : acc.Shows c) (h : recvOk sdk st acc = true) :
    st.recvV = c.receiving.value := by
  have hpoint : sdk.commit st.recvV st.recvR = c.receiving.point :=
    (samePoint_eq_true.mp h).trans hshows.2
  exact c.receiving.value_eq_of_commit hb hpoint

theorem spendOk_value {st : Replay R} {acc : AccountView P} {c : CtAccount sdk.toScheme}
    (hb : sdk.Binding) (hshows : acc.Shows c) (h : spendOk sdk st acc = true) :
    st.spendV = c.spendable.value := by
  have hsame := (Bool.and_eq_true_iff.mp h).2
  have hpoint : sdk.commit st.spendV st.spendR = c.spendable.point :=
    (samePoint_eq_true.mp hsame).trans hshows.1
  exact c.spendable.value_eq_of_commit hb hpoint

/-! ## Lists that are complete where it counts -/

/-- Nothing is missing after some merge that an outflow follows; what is
served of the time before it does not matter. -/
def CompleteSinceMerge (goal : String) (txs : List (Tx R C))
    (events : List (ConfidentialEvent C)) : Prop :=
  ∃ older info recent served, txs = older ++ .merge info goal :: recent ∧
    events = served ++ .merge info goal :: recent.map Tx.event ∧ ∃ tx ∈ recent, tx.Leaves goal

/-- The list is complete, or complete since a merge, for the history at
some instant that differs from `txs` by nothing of the account. -/
def CompleteFor (goal : String) (chain txs : List (Tx R C))
    (events : List (ConfidentialEvent C)) : Prop :=
  ∃ full, full <+: chain ∧ QuietBetween goal full txs ∧
    (events = full.map Tx.event ∨ CompleteSinceMerge goal full events)

section Off

omit [AddMonoid R] [Add P]
variable {goal : String}

theorem off_step_of_leaves {d : Drift} {tx : Tx R C} (h : tx.Leaves goal) :
    (d.step goal tx).off = 0 := by
  cases tx with
  | transfer info sender recipient amount rTx rNew data =>
      simp only [Drift.step, if_pos h.1, if_neg h.2]
  | withdraw info sender recipient amount rNew data =>
      simp only [Drift.step]
      rw [if_pos (by exact h)]
  | register info account => exact h.elim
  | deposit info sender recipient amount => exact h.elim
  | merge info account => exact h.elim

/-- The first thing that leaves the account ends every drift. -/
theorem off_run_of_leaves {d : Drift} {txs : List (Tx R C)} (hleaves : ∃ tx ∈ txs, tx.Leaves goal)
    (hself : ∀ tx ∈ txs, ¬ tx.SelfMoves goal) : (d.run goal txs).off = 0 := by
  induction txs generalizing d with
  | nil =>
      obtain ⟨tx, htx, -⟩ := hleaves
      cases htx
  | cons tx txs ih =>
      have hrest : ∀ t ∈ txs, ¬ t.SelfMoves goal := fun t ht => hself t (List.mem_cons_of_mem _ ht)
      obtain ⟨t, ht, hlv⟩ := hleaves
      rcases List.mem_cons.mp ht with rfl | ht
      · have hoff : ((d.step goal t).run goal txs).off = 0 :=
          off_run_of_not_selfMoves (off_step_of_leaves hlv) hrest
        exact hoff
      · exact ih ⟨t, ht, hlv⟩ hrest

end Off

/-- After a merge the replay follows the account, up to its drift,
whatever it was before. -/
theorem follows_after_merge (k1 : Int) (goal : String) (w : Wallets sdk.toScheme) (info : EventAt)
    (st : Replay R) :
    ∃ d st', replayStep sdk k1 goal st (.merge info goal) = .ok st' ∧
      Follows (w.apply (.merge info goal : Tx R C) goal) d st' := by
  refine ⟨{ off := st.spendV + st.recvV - (w goal).merged.spendable.value, kept := false }, ?_⟩
  rw [replayStep, if_pos rfl, Wallets.apply_merge_self]
  refine ⟨_, rfl, ?_, rfl, rfl, fun h => absurd h Bool.false_ne_true⟩
  simp only
  omega

theorem replay_value_of_complete {k1 : Int} {goal : String} {full : List (Tx R C)}
    {events : List (ConfidentialEvent C)} {st : Replay R}
    (hopen : ChannelsDecrypt sdk k1 goal (Wallets.genesis _) full)
    (hself : ∀ tx ∈ full, ¬ tx.SelfMoves goal)
    (hcomplete : events = full.map Tx.event ∨ CompleteSinceMerge goal full events)
    (hst : replay sdk k1 goal events = .ok st) :
    st.spendV = ((Wallets.genesis sdk.toScheme).run full goal).spendable.value := by
  rcases hcomplete with rfl | ⟨older, info, recent, served, rfl, rfl, hleaves⟩
  · obtain ⟨st', hst', hf⟩ := replay_follows hopen
    obtain rfl := Except.ok.inj (hst.symm.trans hst')
    rw [hf.spendV, off_run_of_not_selfMoves rfl hself, Int.add_zero]
  · rw [replay, List.foldlM_append] at hst
    obtain ⟨st₀, -, hst⟩ := Fallible.bind_eq_ok.mp hst
    rw [List.foldlM_cons] at hst
    obtain ⟨-, hopen⟩ := ChannelsDecrypt.append.mp hopen
    obtain ⟨d, st₁, hst₁, hf₁⟩ :=
      follows_after_merge k1 goal ((Wallets.genesis sdk.toScheme).run older) info st₀
    rw [hst₁, Fallible.ok_bind] at hst
    obtain ⟨st', hst', hf⟩ := foldlM_follows hopen.2 hf₁
    obtain rfl := Except.ok.inj (hst.symm.trans hst')
    have hrecent : ∀ tx ∈ recent, ¬ tx.SelfMoves goal := fun tx htx =>
      hself tx (List.mem_append_right _ (List.mem_cons_of_mem _ htx))
    rw [Wallets.run_append, hf.spendV, off_run_of_leaves hleaves hrecent, Int.add_zero]
    rfl

/-! ## Lists that account for the balance -/

/-- The last outflow that was served left the account with a balance which,
with what the merges served after it move, makes `v`. -/
def AccountsFor (S : Commit.Scheme R P) (goal : String) (chain served : List (Tx R C))
    (v : Int) : Prop :=
  ∃ pre out post told later, chain = pre ++ out :: post ∧ served = told ++ out :: later ∧
    out.Leaves goal ∧ (∀ tx ∈ later, ¬ tx.Leaves goal) ∧
    ((Wallets.genesis S).run (pre ++ [out]) goal).spendable.value
      + ((Told.zero.run goal served).merged - (Told.zero.run goal told).merged) = v

theorem accountsFor_iff {k1 : Int} {goal : String} {chain served : List (Tx R C)} {st : Replay R}
    {v : Int} (hopen : ChannelsDecrypt sdk k1 goal (Wallets.genesis _) chain)
    (htaken : TakenFrom chain served) (hleaves : ∃ tx ∈ served, tx.Leaves goal)
    (hst : replay sdk k1 goal (served.map Tx.event) = .ok st) :
    st.spendV = v ↔ AccountsFor sdk.toScheme goal chain served v := by
  constructor
  · rintro rfl
    obtain ⟨told, out, later, rfl, hout, hlater⟩ := exists_last_leaves hleaves
    obtain ⟨pre, post, rfl⟩ := htaken out (by simp)
    exact ⟨pre, out, post, told, later, rfl, rfl, hout, hlater,
      (replay_told_after hopen htaken hout hlater hst).symm⟩
  · rintro ⟨pre, out, post, told, later, rfl, rfl, hout, hlater, hv⟩
    exact (replay_told_after hopen htaken hout hlater hst).trans hv

theorem provable_step {k1 : Int} {goal : String} {e : ConfidentialEvent C} {st₀ st : Replay R}
    (hstep : replayStep sdk k1 goal st₀ e = .ok st) (hprov : st₀.spendableProvable = true)
    (hnone : ¬ e.Leaves goal) : st.spendableProvable = true := by
  cases e with
  | register info account =>
      obtain rfl := Except.ok.inj hstep
      exact hprov
  | deposit info sender recipient amount =>
      simp only [replayStep] at hstep
      split at hstep
      · obtain rfl := Except.ok.inj hstep
        exact hprov
      · obtain rfl := Except.ok.inj hstep
        exact hprov
  | merge info account =>
      simp only [replayStep] at hstep
      split at hstep
      · obtain rfl := Except.ok.inj hstep
        exact hprov
      · obtain rfl := Except.ok.inj hstep
        exact hprov
  | transfer info sender recipient data =>
      simp only [replayStep] at hstep
      split at hstep
      · obtain ⟨opened, -, hstep⟩ := Fallible.bind_eq_ok.mp hstep
        obtain rfl := Except.ok.inj hstep
        exact hprov
      · rename_i hto
        split at hstep
        · rename_i hfrom
          exact absurd ⟨hfrom, hto⟩ hnone
        · obtain rfl := Except.ok.inj hstep
          exact hprov
  | withdraw info sender recipient amount data =>
      have hfrom : ¬ sender = goal := hnone
      simp only [replayStep, if_neg hfrom] at hstep
      obtain rfl := Except.ok.inj hstep
      exact hprov

/-- The check of the spendable commitment is skipped by outflows alone. -/
theorem provable_replay {k1 : Int} {goal : String} {events : List (ConfidentialEvent C)}
    {st₀ st : Replay R} (hst : events.foldlM (replayStep sdk k1 goal) st₀ = .ok st)
    (hprov : st₀.spendableProvable = true) (hnone : ∀ e ∈ events, ¬ e.Leaves goal) :
    st.spendableProvable = true := by
  induction events generalizing st₀ with
  | nil =>
      obtain rfl := Except.ok.inj hst
      exact hprov
  | cons e events ih =>
      rw [List.foldlM_cons] at hst
      obtain ⟨st₁, hstep, hrest⟩ := Fallible.bind_eq_ok.mp hst
      refine ih hrest ?_ fun x hx => hnone x (List.mem_cons_of_mem _ hx)
      exact provable_step hstep hprov (hnone e List.mem_cons_self)

/-! ## The verdict -/

/-- The account as it was at the read a verdict is about. -/
def heldAt (sdk : Sdk R P C) (p : GoalTotalParams) (before between : List (Tx R C))
    (last : LastRead P) : CtAccount sdk.toScheme :=
  (Wallets.genesis sdk.toScheme).run (historyAt before between last.reread) p.goalAccount

/-- **What a verified total is worth**, whatever the source served. The
receiving part is right. The total is right when no outflow of the goal is
in the list, and when the list is complete where an outflow kept the
spendable commitment from being compared. Of a list with gaps it is right
exactly when it has no outflow or accounts for the spendable balance. -/
theorem goalTotal_sound {chain before between : List (Tx R C)} {g : GoalTotal} {last : LastRead P}
    {read : EventsRead C} (hb : sdk.Binding)
    (hopen : ChannelsDecrypt sdk p.viewKeySecret p.goalAccount (Wallets.genesis _) chain)
    (hreads : ChainReads sdk.toScheme p.goalAccount before between a)
    (hread : a.events = .ok read)
    (hrun : goalTotalRun sdk p a = .ok (g, last)) (hver : g.verified = true) :
    let held := heldAt sdk p before between last
    let total := dec (held.spendable.value + held.receiving.value)
    g.receivingStroops = dec held.receiving.value ∧
    ((∀ e ∈ read.events, ¬ e.Leaves p.goalAccount) → g.totalStroops = total) ∧
    (CompleteFor p.goalAccount chain (historyAt before between last.reread) read.events →
      (∀ tx ∈ chain, ¬ tx.SelfMoves p.goalAccount) → g.totalStroops = total) ∧
    ∀ served, read.events = served.map Tx.event → served.Sublist chain →
      (g.totalStroops = total ↔ (∀ tx ∈ served, ¬ tx.Leaves p.goalAccount) ∨
        AccountsFor sdk.toScheme p.goalAccount chain served held.spendable.value) := by
  intro held total
  obtain ⟨account, read', st, hfacts⟩ := goalTotalRun_eq_ok hrun
  obtain rfl : read' = read := Except.ok.inj (hfacts.events.symm.trans hread)
  have hshows : last.account.Shows held := last_shows hfacts hreads
  obtain ⟨others, stale, hverdict⟩ := hfacts.verdict
  rw [hverdict, allPassed_append, commitChecks_passed] at hver
  obtain ⟨-, hspend, hrecv⟩ := hver
  have hrecvV : st.recvV = held.receiving.value := recvOk_value hb hshows hrecv
  have htotal : g.totalStroops = total ↔ st.spendV = held.spendable.value := by
    rw [hfacts.total, hrecvV]
    constructor
    · intro heq
      have hsum := Text.toString_int_inj heq
      omega
    · intro heq
      rw [heq]
  have hnoOutflow : (∀ e ∈ read'.events, ¬ e.Leaves p.goalAccount) →
      g.totalStroops = total := by
    intro hnone
    have hprov : st.spendableProvable = true := provable_replay hfacts.replayed rfl hnone
    exact htotal.mpr (spendOk_value hb hshows (hspend hprov))
  refine ⟨by rw [hfacts.receiving, hrecvV], hnoOutflow, ?_, ?_⟩
  · rintro ⟨full, ⟨later, rfl⟩, hquiet, hcomplete⟩ hself
    refine htotal.mpr ?_
    have hfull := replay_value_of_complete (ChannelsDecrypt.append.mp hopen).1
      (fun tx htx => hself tx (List.mem_append_left _ htx)) hcomplete hfacts.replayed
    rw [hfull, hquiet.run_eq]
    rfl
  · intro served hserved hsub
    by_cases hleaves : ∃ tx ∈ served, tx.Leaves p.goalAccount
    · have hst : replay sdk p.viewKeySecret p.goalAccount (served.map Tx.event) = .ok st :=
        hserved ▸ hfacts.replayed
      rw [htotal, accountsFor_iff hopen (.of_sublist hsub) hleaves hst, or_iff_right]
      intro hnone
      obtain ⟨tx, htx, hout⟩ := hleaves
      exact hnone tx htx hout
    · have hnone : ∀ tx ∈ served, ¬ tx.Leaves p.goalAccount :=
        fun tx htx hout => hleaves ⟨tx, htx, hout⟩
      refine iff_of_true (hnoOutflow fun e he => ?_) (.inl hnone)
      rw [hserved] at he
      obtain ⟨tx, htx, rfl⟩ := List.mem_map.mp he
      exact mt Tx.event_leaves.mp (hnone tx htx)

/-! ## A forgetful source that passes -/

/-- 100 in and merged, 30 sent to `B`, then 50 in and merged. -/
def laterInflow : List (Tx Int (Int × Int × Int)) :=
  sentOn "B" ++ [.deposit (inLedger 4) "A" "G" 50, .merge (inLedger 5) "G"]

def paramsG : GoalTotalParams where
  tokenContractId := "T"
  goalAccount := "G"
  viewKeySecret := 1
  fromLedger := some 1
  auditorContractId := none
  goalMetaContractId := none
  goalMetaGoalId := none
  eventsUrl := some "rpc"
  eventsSource := none

/-- The answers of a run whose source serves `events` while the account
holds the two openings. -/
def answersG (events : List (ConfidentialEvent (Int × Int × Int))) (spendable receiving : Int × Int) :
    TotalAnswers (Int × Int) (Int × Int × Int) where
  getGoal := .error "not asked"
  balance := .ok (some
    { auditorId := 0, spendableBalance := spendable, receivingBalance := receiving })
  auditorKey _ := .error "not asked"
  events := .ok { events := events, latestLedger := 5, oldestLedger := none }
  balanceAgain := .ok (some
    { auditorId := 0, spendableBalance := spendable, receivingBalance := receiving })
  latestLedger := .ok 5

theorem laterInflow_reads (events : List (ConfidentialEvent (Int × Int × Int))) :
    ChainReads clearSdk.toScheme "G" laterInflow [] (answersG events (120, 7) (0, 0)) :=
  .of_shows rfl ⟨rfl, rfl⟩ rfl ⟨rfl, rfl⟩

theorem laterInflow_decrypts :
    ChannelsDecrypt clearSdk 1 "G" (Wallets.genesis _) laterInflow :=
  ChannelsDecrypt.append.mpr ⟨sentOn_decrypts "B", trivial, trivial, trivial⟩

/-- The whole list: 120 is verified and 120 is held. -/
theorem goalTotal_sound_laterInflow :
    ∃ g last, goalTotalRun clearSdk paramsG
        (answersG (laterInflow.map Tx.event) (120, 7) (0, 0)) = .ok (g, last) ∧
      g.verified = true ∧ g.totalStroops = dec (120 + 0) := by
  have hret : ∃ g last, goalTotalRun clearSdk paramsG
        (answersG (laterInflow.map Tx.event) (120, 7) (0, 0)) = .ok (g, last) ∧
      g.verified = true ∧ last.reread = false := ⟨_, _, rfl, rfl, rfl⟩
  obtain ⟨g, last, hrun, hver, hfirst⟩ := hret
  have hself : ∀ tx ∈ laterInflow, ¬ tx.SelfMoves "G" := by
    intro tx htx
    simp only [laterInflow, sentOn, List.cons_append, List.nil_append, List.mem_cons,
      List.not_mem_nil, or_false] at htx
    rcases htx with rfl | rfl | rfl | rfl | rfl
    · exact id
    · exact id
    · exact fun h => absurd h.2.1 (by decide)
    · exact id
    · exact id
  have hcomplete : CompleteFor "G" laterInflow laterInflow (laterInflow.map Tx.event) :=
    ⟨laterInflow, List.prefix_refl _, ⟨[], Or.inl (List.append_nil _).symm, List.forall_mem_nil _⟩,
      Or.inl rfl⟩
  have hsound := goalTotal_sound clearSdk_binding laterInflow_decrypts
    (laterInflow_reads _) rfl hrun hver
  refine ⟨g, last, hrun, hver, ?_⟩
  have htotal := hsound.2.2.1 (by rw [hfirst]; exact hcomplete) hself
  rw [heldAt, hfirst] at htotal
  exact htotal

/-- The last deposit and merge forgotten: still verified, 50 short. -/
theorem truncated_total_verified :
    clearSdk.Binding ∧
    ChannelsDecrypt clearSdk 1 "G" (Wallets.genesis _) laterInflow ∧
    ChainReads clearSdk.toScheme "G" laterInflow []
      (answersG ((sentOn "B").map Tx.event) (120, 7) (0, 0)) ∧
    ((sentOn "B").map Tx.event).Sublist (laterInflow.map Tx.event) ∧
    ∃ g last, goalTotalRun clearSdk paramsG
        (answersG ((sentOn "B").map Tx.event) (120, 7) (0, 0)) = .ok (g, last) ∧
      g.verified = true ∧ g.totalStroops = "70" ∧
      (heldAt clearSdk paramsG laterInflow [] last).spendable.value = 120 ∧
      (heldAt clearSdk paramsG laterInflow [] last).receiving.value = 0 := by
  refine ⟨clearSdk_binding, laterInflow_decrypts, laterInflow_reads _, ?_, _, _, rfl, rfl, ?_,
    rfl, rfl⟩
  · exact (List.sublist_append_left _ _).map _
  · decide

end RaizStack
