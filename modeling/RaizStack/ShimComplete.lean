import RaizStack.ShimSound

/-!
# An honest source verifies

The commitments are read before the events, so whatever lands while the
events are read makes the openings run ahead of the first read, never
behind it, and one more read catches up. For an account that nothing has
left, a list complete to some instant after the first read and no
transaction of the account between that instant and the second read,
`goalTotal_complete` says that the run ends verified, with the value at
that instant. It needs two things more: some transaction of the account
in the list, since a run that has seen none refuses to answer, and a
registry goal that backs this account.
-/

namespace RaizStack

variable {R P C : Type} [AddMonoid R] [Add P]
variable {sdk : Sdk R P C} {p : GoalTotalParams} {a : TotalAnswers P C} {k1 : Int} {goal : String}

/-! ## The timeline -/

theorem replayStep_timeline {st st' : Replay R} {tx : Tx R C}
    (h : replayStep sdk k1 goal st tx.event = .ok st') :
    st'.timeline = [] ↔ st.timeline = [] ∧ ¬ tx.Touches goal := by
  cases tx with
  | register info account =>
      obtain rfl := Except.ok.inj h
      simp [Tx.Touches]
  | deposit info sender recipient amount =>
      simp only [Tx.event, replayStep] at h
      split at h <;> obtain rfl := Except.ok.inj h <;> simp_all [Tx.Touches]
  | merge info account =>
      simp only [Tx.event, replayStep] at h
      split at h <;> obtain rfl := Except.ok.inj h <;> simp_all [Tx.Touches]
  | transfer info sender recipient amount rTx rNew data =>
      simp only [Tx.event, replayStep] at h
      split at h
      · obtain ⟨opened, -, h⟩ := Fallible.bind_eq_ok.mp h
        obtain rfl := Except.ok.inj h
        simp_all [Tx.Touches]
      · split at h
        · obtain ⟨snd, -, h⟩ := Fallible.bind_eq_ok.mp h
          obtain rfl := Except.ok.inj h
          simp_all [Tx.Touches]
        · obtain rfl := Except.ok.inj h
          simp_all [Tx.Touches]
  | withdraw info sender recipient amount rNew data =>
      simp only [Tx.event, replayStep] at h
      split at h
      · obtain ⟨left, -, h⟩ := Fallible.bind_eq_ok.mp h
        obtain rfl := Except.ok.inj h
        simp_all [Tx.Touches]
      · obtain rfl := Except.ok.inj h
        simp_all [Tx.Touches]

theorem foldlM_timeline {st st' : Replay R} {txs : List (Tx R C)}
    (h : (txs.map Tx.event).foldlM (replayStep sdk k1 goal) st = .ok st') :
    st'.timeline = [] ↔ st.timeline = [] ∧ ∀ tx ∈ txs, ¬ tx.Touches goal := by
  induction txs generalizing st with
  | nil =>
      obtain rfl := Except.ok.inj h
      simp
  | cons tx txs ih =>
      rw [List.map_cons, List.foldlM_cons] at h
      obtain ⟨st₁, hstep, hrest⟩ := Fallible.bind_eq_ok.mp h
      rw [ih hrest, replayStep_timeline hstep, List.forall_mem_cons, and_assoc]

/-- The timeline is empty when no replayed transaction is the goal's. -/
theorem replay_timeline {st : Replay R} {txs : List (Tx R C)}
    (h : replay sdk k1 goal (txs.map Tx.event) = .ok st) :
    st.timeline = [] ↔ ∀ tx ∈ txs, ¬ tx.Touches goal := by
  rw [foldlM_timeline h]
  exact and_iff_right rfl

/-! ## Without outflows nothing drifts -/

omit [AddMonoid R] [Add P] in
theorem drift_run_of_not_outflow {d : Drift} {txs : List (Tx R C)}
    (h : ∀ tx ∈ txs, ¬ tx.Outflow goal) : d.run goal txs = d := by
  induction txs with
  | nil => rfl
  | cons tx txs ih =>
      have hstep : d.step goal tx = d := by
        have htx := h tx List.mem_cons_self
        cases tx with
        | transfer info sender recipient amount rTx rNew data => exact if_neg htx
        | withdraw info sender recipient amount rNew data => exact if_neg htx
        | register info account => rfl
        | deposit info sender recipient amount => rfl
        | merge info account => rfl
      have hrun : d.run goal (tx :: txs) = (d.step goal tx).run goal txs := rfl
      rw [hrun, hstep]
      exact ih fun t ht => h t (List.mem_cons_of_mem _ ht)

/-- Openings of an account that nothing has left. -/
structure Opens {S : Commit.Scheme R P} (st : Replay R) (c : CtAccount S) : Prop where
  follows : Follows c Drift.zero st
  provable : st.spendableProvable = true

theorem Opens.spendV {S : Commit.Scheme R P} {st : Replay R} {c : CtAccount S} (h : Opens st c) :
    st.spendV = c.spendable.value :=
  h.follows.spendV.trans (Int.add_zero _)

theorem replay_opens {txs : List (Tx R C)}
    (hopen : ChannelsDecrypt sdk k1 goal (Wallets.genesis _) txs)
    (hout : ∀ tx ∈ txs, ¬ tx.Outflow goal) :
    ∃ st, replay sdk k1 goal (txs.map Tx.event) = .ok st ∧
      Opens st ((Wallets.genesis sdk.toScheme).run txs goal) := by
  obtain ⟨st, hst, hf⟩ := replay_follows hopen
  rw [drift_run_of_not_outflow hout] at hf
  exact ⟨st, hst, hf, (hf.kept rfl).1⟩

/-! ## The checks -/

theorem recvOk_of_opens {st : Replay R} {acc : AccountView P} {c : CtAccount sdk.toScheme}
    (h : Opens st c) (hshows : acc.Shows c) : recvOk sdk st acc = true := by
  rw [recvOk, samePoint_eq_true, hshows.2]
  exact c.receiving.commit_eq_point h.follows.recvV h.follows.recvR

theorem spendOk_of_opens {st : Replay R} {acc : AccountView P} {c : CtAccount sdk.toScheme}
    (h : Opens st c) (hshows : acc.Shows c) : spendOk sdk st acc = true := by
  rw [spendOk, h.provable, Bool.true_and, samePoint_eq_true, hshows.1]
  exact c.spendable.commit_eq_point h.spendV (h.follows.kept rfl).2

/-- One more read that shows what the openings open is enough, whatever
the first one showed. -/
theorem settle_of_again {st : Replay R} {account acc : AccountView P}
    {c : CtAccount sdk.toScheme} (h : Opens st c) (hshows : acc.Shows c) :
    ∃ last, settle sdk st account (.ok (some acc)) = .ok last ∧
      ∀ stale, allPassed (commitChecks sdk st last stale) = true := by
  by_cases hagree : spendOk sdk st account = true ∧ recvOk sdk st account = true
  · refine ⟨{ account := account, reread := false }, ?_, fun stale => ?_⟩
    · rw [settle, hagree.1, hagree.2]
      simp only [Bool.not_true, Bool.and_false, Bool.or_false, Bool.false_eq_true, if_false]
    · exact commitChecks_passed.mpr ⟨fun _ => hagree.1, hagree.2⟩
  · refine ⟨{ account := acc, reread := true }, ?_, fun stale => ?_⟩
    · rw [settle, if_pos]
      · rfl
      · simp only [h.provable, Bool.true_and, Bool.or_eq_true, Bool.not_eq_true']
        rw [not_and_or, Bool.not_eq_true, Bool.not_eq_true] at hagree
        exact hagree
    · exact commitChecks_passed.mpr
        ⟨fun _ => spendOk_of_opens h hshows, recvOk_of_opens h hshows⟩

/-- The key is the one the goal registry and the auditor registry
published, where these are named. -/
structure KeyPublished (sdk : Sdk R P C) (p : GoalTotalParams) (a : TotalAnswers P C)
    (account : AccountView P) : Prop where
  goalMeta : nonEmpty p.goalMetaContractId ≠ none →
    ∃ goalId g, p.goalMetaGoalId = some goalId ∧ 0 ≤ goalId ∧ a.getGoal = .ok g ∧
      sdk.pointFromBytes g.viewKey = .ok (sdk.auditorPublicKey p.viewKeySecret)
  registry : nonEmpty p.auditorContractId ≠ none →
    a.auditorKey account.auditorId = .ok (sdk.auditorPublicKey p.viewKeySecret)

/-- The goal the registry serves backs the account. -/
def BacksGoal (p : GoalTotalParams) (a : TotalAnswers P C) : Prop :=
  nonEmpty p.goalMetaContractId ≠ none → ∀ g, a.getGoal = .ok g → g.goalAccount = p.goalAccount

theorem readGoalMeta_passed {account : AccountView P} (h : KeyPublished sdk p a account)
    (hbacks : BacksGoal p a) :
    ∃ goalMeta, readGoalMeta sdk p a = .ok goalMeta ∧ allPassed goalMeta.checks = true := by
  cases hid : nonEmpty p.goalMetaContractId with
  | none =>
      refine ⟨_, by rw [readGoalMeta, hid], rfl⟩
  | some contract =>
      have hgiven : nonEmpty p.goalMetaContractId ≠ none := by simp [hid]
      obtain ⟨goalId, g, hgoal, hpos, hg, hkey⟩ := h.goalMeta hgiven
      have hacc : g.goalAccount = p.goalAccount := hbacks hgiven g hg
      have hfilter : p.goalMetaGoalId.filter (0 ≤ ·) = some goalId := by
        rw [hgoal, Option.filter_some, if_pos (decide_eq_true hpos)]
      refine ⟨_, by
        rw [readGoalMeta, hid, hfilter, hg]
        simp only [Fallible.ok_bind, hkey]
        rfl, ?_⟩
      simp [allPassed, check, hacc, samePoint]

theorem readRegistry_passed {account : AccountView P} (h : KeyPublished sdk p a account) :
    ∃ registry, readRegistry sdk p a account = .ok registry ∧ allPassed [registry] = true := by
  cases hid : nonEmpty p.auditorContractId with
  | none => exact ⟨_, by rw [readRegistry, hid], rfl⟩
  | some contract =>
      have hkey := h.registry (by simp [hid])
      refine ⟨_, by rw [readRegistry, hid, hkey]; rfl, ?_⟩
      simp [allPassed, check, samePoint]

/-! ## The run -/

/-- The answers that do not depend on the history. -/
structure Answered (p : GoalTotalParams) (a : TotalAnswers P C) : Prop where
  fromLedger : ∃ n, p.fromLedger = some n ∧ 0 < n
  latestLedger : ∃ n, a.latestLedger = .ok n

/-- A run that gets all its answers, whose openings are right and whose
last read agrees with them. -/
theorem goalTotal_of_parts {account : AccountView P} {read : EventsRead C} {st : Replay R}
    {last : LastRead P} (hans : Answered p a) (hkey : KeyPublished sdk p a account)
    (hbacks : BacksGoal p a) (hbalance : a.balance = .ok (some account)) (hread : a.events = .ok read)
    (hst : replay sdk p.viewKeySecret p.goalAccount read.events = .ok st)
    (htimeline : st.timeline ≠ [])
    (hlast : settle sdk st account a.balanceAgain = .ok last)
    (hchecks : ∀ stale, allPassed (commitChecks sdk st last stale) = true) :
    ∃ g, goalTotal sdk p a = .ok g ∧ g.verified = true ∧
      g.totalStroops = dec (st.spendV + st.recvV) := by
  obtain ⟨⟨from₀, hfrom, hpos⟩, ledger, hledger⟩ := hans
  obtain ⟨goalMeta, hmeta, hmetaOk⟩ := readGoalMeta_passed hkey hbacks
  obtain ⟨registry, hreg, hregOk⟩ := readRegistry_passed hkey
  have hfromLedger : fromLedgerOf p = .ok from₀ := by
    rw [fromLedgerOf, hfrom]
    exact if_pos hpos
  have haccount : readAccount p a = .ok account := by
    rw [readAccount, hbalance]
    rfl
  refine ⟨_, by
    rw [goalTotal, goalTotalRun, hfromLedger, Fallible.ok_bind, hmeta, Fallible.ok_bind,
      haccount, Fallible.ok_bind, hreg, Fallible.ok_bind, hread, Fallible.ok_bind, hst,
      Fallible.ok_bind, if_neg htimeline, hlast, Fallible.ok_bind, hledger, Fallible.ok_bind]
    rfl, ?_, rfl⟩
  exact allPassed_append.mpr ⟨allPassed_append.mpr ⟨hmetaOk, hregOk⟩, hchecks _⟩

/-- The chain around one run: `pre` is in when the commitments are first
read, `pre ++ mid` is what the source serves, `post` lands before the
second read. Nothing leaves the goal, and `post` has nothing of it. -/
structure HonestRun (sdk : Sdk R P C) (p : GoalTotalParams) (a : TotalAnswers P C)
    (pre mid post : List (Tx R C)) : Prop where
  answered : Answered p a
  reads : ChainReads sdk.toScheme p.goalAccount pre (mid ++ post) a
  balance : ∃ account, a.balance = .ok (some account) ∧ KeyPublished sdk p a account
  served : ∃ read, a.events = .ok read ∧ read.events = (pre ++ mid).map Tx.event
  balanceAgain : ∃ account, a.balanceAgain = .ok (some account)
  decrypts : ChannelsDecrypt sdk p.viewKeySecret p.goalAccount (Wallets.genesis _) (pre ++ mid)
  noOutflow : ∀ tx ∈ pre ++ mid, ¬ tx.Outflow p.goalAccount
  quiet : ∀ tx ∈ post, ¬ tx.Touches p.goalAccount

/-- An honest run ends verified, with the value of the instant the list is
complete to, if the list has a transaction of the goal and the registry's
goal is this one. -/
theorem goalTotal_complete {pre mid post : List (Tx R C)} (hrun : HonestRun sdk p a pre mid post)
    (hsome : ∃ tx ∈ pre ++ mid, tx.Touches p.goalAccount) (hbacks : BacksGoal p a) :
    let held := (Wallets.genesis sdk.toScheme).run (pre ++ mid) p.goalAccount
    ∃ g, goalTotal sdk p a = .ok g ∧ g.verified = true ∧
      g.totalStroops = dec (held.spendable.value + held.receiving.value) := by
  intro held
  obtain ⟨read, hread, hserved⟩ := hrun.served
  obtain ⟨account, hbalance, hkey⟩ := hrun.balance
  obtain ⟨again, hagain⟩ := hrun.balanceAgain
  obtain ⟨st, hst, hopens⟩ := replay_opens hrun.decrypts hrun.noOutflow
  have htimeline : st.timeline ≠ [] := by
    rw [Ne, replay_timeline hst]
    push Not
    exact hsome
  have hshows : again.Shows held := by
    have hlater := hrun.reads.again again hagain
    rw [← List.append_assoc, Wallets.run_append, Wallets.run_of_not_touches hrun.quiet] at hlater
    exact hlater
  obtain ⟨last, hlast, hchecks⟩ := settle_of_again hopens hshows
  rw [← hserved] at hst
  rw [← hagain] at hlast
  obtain ⟨g, hg, hver, htotal⟩ :=
    goalTotal_of_parts hrun.answered hkey hbacks hbalance hread hst htimeline hlast hchecks
  refine ⟨g, hg, hver, ?_⟩
  rw [htotal, hopens.spendV, hopens.follows.recvV]

/-! ## Three runs -/

/-- 100 merged before the first read, 50 while the events are read, 5 to
another account before the second read; the registry's goal backs
`backed`. -/
def answersLate (backed : String) : TotalAnswers (Int × Int) (Int × Int × Int) where
  getGoal := .ok { name := "trip", target := 1000, goalAccount := backed, viewKey := [1] }
  balance := .ok (some
    { auditorId := 3, spendableBalance := (100, 0), receivingBalance := (0, 0) })
  auditorKey _ := .ok (1, 0)
  events := .ok
    { events := [.deposit (inLedger 1) "A" "G" 100, .merge (inLedger 2) "G",
        .deposit (inLedger 3) "A" "G" 50]
      latestLedger := 3
      oldestLedger := none }
  balanceAgain := .ok (some
    { auditorId := 3, spendableBalance := (100, 0), receivingBalance := (50, 0) })
  latestLedger := .ok 4

def paramsChecked : GoalTotalParams :=
  { paramsG with
    auditorContractId := some "AUD"
    goalMetaContractId := some "META"
    goalMetaGoalId := some 0 }

def paidIn : List (Tx Int (Int × Int × Int)) :=
  [.deposit (inLedger 1) "A" "G" 100, .merge (inLedger 2) "G"]

def paidLate : List (Tx Int (Int × Int × Int)) :=
  [.deposit (inLedger 3) "A" "G" 50]

def paidElsewhere : List (Tx Int (Int × Int × Int)) :=
  [.deposit (inLedger 4) "A" "B" 5]

theorem answersLate_honest (backed : String) :
    HonestRun clearSdk paramsChecked (answersLate backed) paidIn paidLate paidElsewhere where
  answered := ⟨⟨1, rfl, by decide⟩, ⟨4, rfl⟩⟩
  reads := .of_shows rfl ⟨rfl, rfl⟩ rfl ⟨rfl, rfl⟩
  balance := ⟨_, rfl, fun _ => ⟨0, _, rfl, by decide, rfl, rfl⟩, fun _ => rfl⟩
  served := ⟨_, rfl, rfl⟩
  balanceAgain := ⟨_, rfl⟩
  decrypts := ⟨trivial, trivial, trivial, trivial⟩
  noOutflow := by
    intro tx htx
    simp only [paidIn, paidLate, List.cons_append, List.nil_append, List.mem_cons,
      List.not_mem_nil, or_false] at htx
    rcases htx with rfl | rfl | rfl <;> exact id
  quiet := by
    intro tx htx
    obtain rfl := List.mem_singleton.mp htx
    exact (by decide : "B" ≠ "G")

theorem goalTotal_complete_late :
    ∃ g, goalTotal clearSdk paramsChecked (answersLate "G") = .ok g ∧ g.verified = true ∧
      g.totalStroops = dec (100 + 50) := by
  have hsome : ∃ tx ∈ paidIn ++ paidLate, tx.Touches "G" := ⟨_, List.mem_cons_self, rfl⟩
  have hbacks : BacksGoal paramsChecked (answersLate "G") := by
    intro _ g hg
    obtain rfl := Except.ok.inj hg
    rfl
  exact goalTotal_complete (answersLate_honest "G") hsome hbacks

/-- An account that was registered and nothing more. -/
def opened : List (Tx Int (Int × Int × Int)) :=
  [.register (inLedger 1) "G"]

theorem opened_honest :
    HonestRun clearSdk paramsG (answersG (opened.map Tx.event) (0, 0) (0, 0)) opened [] [] where
  answered := ⟨⟨1, rfl, by decide⟩, ⟨5, rfl⟩⟩
  reads := .of_shows rfl ⟨rfl, rfl⟩ rfl ⟨rfl, rfl⟩
  balance := ⟨_, rfl, nofun, nofun⟩
  served := ⟨_, rfl, rfl⟩
  balanceAgain := ⟨_, rfl⟩
  decrypts := ⟨trivial, trivial⟩
  noOutflow := by
    intro tx htx
    obtain rfl := List.mem_singleton.mp htx
    exact id
  quiet := by
    rintro tx ⟨⟩

/-- Two honest runs that do not end verified: without a transaction of the
goal the run refuses, and a registry whose goal backs another account
fails its check, the key being right. -/
theorem honest_run_unverified :
    (HonestRun clearSdk paramsG (answersG (opened.map Tx.event) (0, 0) (0, 0)) opened [] [] ∧
      goalTotal clearSdk paramsG (answersG (opened.map Tx.event) (0, 0) (0, 0))
        = .error (noEventsError paramsG 1)) ∧
    (HonestRun clearSdk paramsChecked (answersLate "H") paidIn paidLate paidElsewhere ∧
      ∃ g, goalTotal clearSdk paramsChecked (answersLate "H") = .ok g ∧ g.verified = false) :=
  ⟨⟨opened_honest, rfl⟩, answersLate_honest "H", _, rfl, rfl⟩

end RaizStack
