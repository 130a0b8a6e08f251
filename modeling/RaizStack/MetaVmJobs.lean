import RaizStack.MetaVm

/-!
# What a superseded job does to the screen

Both jobs end in `catch (e: Exception)`, which also catches the
`CancellationException` a superseded job resumes with: it then writes its
message over whatever the newer job has put on the screen
(`cancelled_load_writes_error`). So a superseded job is silent only where
there is none, in runs in which no call cuts short a job that is still in
flight; that this is exact is `cut_job_writes`.
-/

namespace RaizStack

namespace MetaVm

variable {Ev T : Type} {ops : TimelineOps Ev T}

/-! ## The property -/

/-- The resumption of a cancelled job. -/
def ResumesCancelled (s : MetaVm Ev T) : MetaAct Ev → Prop
  | .loadResumes j _ _ => ∃ t, s.loads.tasks[j]? = some t ∧ t.cancelled = true
  | .totalResumes j _ => ∃ t, s.totals.tasks[j]? = some t ∧ t.cancelled = true
  | _ => False

/-- No step of a cancelled job changes the screen, and when all is done
the screen shows what the newest load loaded. -/
structure SupersededSilent (ops : TimelineOps Ev T) (s : MetaVm Ev T) : Prop where
  cancelled : ∀ a s', ResumesCancelled s a → s.next ops a = some s' → s'.ui = s.ui
  newest : s.loads.Idle → s.totals.Idle → ∀ job timeline, s.loads.newest = some job →
    job.pc = .loaded timeline → s.ui.error = none ∧ s.ui.timeline = timeline

/-- `verifyTotal` returns at its guard or finds no total job in flight. -/
def VerifiesFreely (s : MetaVm Ev T) : Prop :=
  s.ui.total.isRunning = true ∨ s.totals.Idle

/-- No call cuts short a job in flight: the screen reloads when no load
is, and the total is verified, also by a load that ends well, when no
verification is. -/
def NothingCut (s : MetaVm Ev T) : MetaAct Ev → Prop
  | .selectSource _ => s.loads.Idle
  | .setBaseUrl _ => s.loads.Idle
  | .refresh _ => s.loads.Idle
  | .verifyTotal _ => VerifiesFreely s
  | .loadResumes j (.ok _) _ => ∀ t : Tasks.Task (LoadJob Ev T), s.loads.tasks[j]? = some t →
      t.Live → (∃ ct, t.job.pc = .fetchMeta ct) → t.job.autoVerify = true → VerifiesFreely s
  | _ => True

/-! ## The invariant -/

/-- No job was cut, what is live waits, and a load that ended well is what
the screen shows. -/
structure JobsInv (s : MetaVm Ev T) : Prop where
  loads : s.loads.Uncut
  totals : s.totals.Uncut
  waiting : s.loads.AllLive fun job => job.pc.Waiting
  shown : ∀ job timeline, s.loads.newest = some job → job.pc = .loaded timeline →
    s.ui.error = none ∧ s.ui.timeline = timeline

theorem refresh_jobsInv {s : MetaVm Ev T} {autoVerify : Bool} (hloads : s.loads.Uncut)
    (htotals : s.totals.Uncut) (hidle : s.loads.Idle) : JobsInv (s.refresh ops autoVerify) where
  loads := hloads.relaunch hidle
  totals := htotals
  waiting := .relaunch trivial
  shown job timeline hnew hpc := by
    have hjob : (s.refresh ops autoVerify).loads.newest = some _ := Tasks.Slot.newest_relaunch _ _
    obtain rfl := Option.some.inj (hjob.symm.trans hnew)
    cases hpc

theorem verifyTotal_jobsInv {s : MetaVm Ev T} {now : Int} (h : JobsInv s)
    (hfree : VerifiesFreely s) : JobsInv (s.verifyTotal now) := by
  unfold verifyTotal
  split
  · exact h
  · rename_i hrunning
    have hidle : s.totals.Idle := hfree.resolve_left hrunning
    exact ⟨h.loads, h.totals.relaunch hidle, h.waiting, h.shown⟩

theorem loadResumes_jobsInv {s s' : MetaVm Ev T} {j : Nat} {r : Except String (EventsPage Ev)}
    {now : Int} (h : JobsInv s) (hcut : NothingCut s (.loadResumes j r now))
    (hs : s.loadResumes ops j r now = some s') : JobsInv s' := by
  obtain ⟨t, hj, hfin, -, hcases⟩ := loadResumes_cases hs
  have hlive : t.Live := ⟨hfin, h.loads j t hj⟩
  -- the job that resumes is the newest, so what it is at is all there is to show
  rcases hcases with ⟨ct, -, -, rfl, rfl⟩ | ⟨ct, goalMeta, hpc, -, rfl, rfl⟩ | ⟨message, -, rfl⟩
  · refine ⟨h.loads.advance, h.totals, h.waiting.advance fun _ _ _ _ => trivial, ?_⟩
    intro job timeline hnew hloaded
    obtain rfl := Option.some.inj ((Tasks.Slot.newest_advance hj hlive).symm.trans hnew)
    cases hloaded
  · have hdone : ∀ ui : MetaUiState T, ∀ timeline, ui.error = none → ui.timeline = timeline →
        JobsInv { s with
          ui := ui
          loads := s.loads.advance j { t.job with pc := .loaded timeline } true } := by
      intro ui timeline herror htimeline
      refine ⟨h.loads.advance, h.totals, h.waiting.advance nofun, ?_⟩
      intro job timeline' hnew hloaded
      obtain rfl := Option.some.inj ((Tasks.Slot.newest_advance hj hlive).symm.trans hnew)
      obtain rfl := LoadPc.loaded.inj hloaded
      exact ⟨herror, htimeline⟩
    unfold loadSucceeded
    split
    · rename_i hauto
      have hfree := hcut t hj hlive ⟨ct, hpc⟩ hauto
      exact verifyTotal_jobsInv (hdone _ _ rfl rfl) hfree
    · exact hdone _ _ rfl rfl
  · refine ⟨h.loads.advance, h.totals, h.waiting.advance nofun, ?_⟩
    intro job timeline hnew hloaded
    obtain rfl := Option.some.inj ((Tasks.Slot.newest_advance hj hlive).symm.trans hnew)
    cases hloaded

theorem totalResumes_jobsInv {s s' : MetaVm Ev T} {j : Nat} {r : Except String TotalResult}
    (h : JobsInv s) (hs : s.totalResumes j r = some s') : JobsInv s' := by
  obtain ⟨t, hj, -, hcases⟩ := totalResumes_cases hs
  rcases hcases with ⟨result, -, -, rfl⟩ | ⟨message, -, rfl⟩
  · exact ⟨h.loads, h.totals.advance, h.waiting, h.shown⟩
  · exact ⟨h.loads, h.totals.advance, h.waiting, h.shown⟩

theorem next_jobsInv {s s' : MetaVm Ev T} {a : MetaAct Ev} (h : JobsInv s) (hcut : NothingCut s a)
    (hs : s.next ops a = some s') : JobsInv s' := by
  cases a with
  | selectSource id =>
      obtain rfl := Option.some.inj hs
      exact refresh_jobsInv h.loads h.totals hcut
  | setBaseUrl raw =>
      obtain rfl := Option.some.inj hs
      exact refresh_jobsInv h.loads h.totals hcut
  | refresh autoVerify =>
      obtain rfl := Option.some.inj hs
      exact refresh_jobsInv h.loads h.totals hcut
  | verifyTotal now =>
      obtain rfl := Option.some.inj hs
      exact verifyTotal_jobsInv h hcut
  | loadResumes j r now => exact loadResumes_jobsInv h hcut hs
  | totalResumes j r => exact totalResumes_jobsInv h hs

theorem jobsInv_of_reach {s : MetaVm Ev T}
    (h : Lts.Reach (Started ops) (Lts.During NothingCut (Step ops)) s) : JobsInv s := by
  refine h.invariant (I := JobsInv) ?_ ?_
  · rintro s ⟨prefs, rfl⟩
    exact refresh_jobsInv Tasks.Slot.empty_uncut Tasks.Slot.empty_uncut nofun
  · rintro s a s' - hs ⟨hcut, -, hnext⟩
    exact next_jobsInv hs hcut hnext

/-- In every run in which no call cuts a job short that is still in
flight, superseded jobs are silent. -/
theorem superseded_jobs_silent {s : MetaVm Ev T}
    (h : Lts.Reach (Started ops) (Lts.During NothingCut (Step ops)) s) :
    SupersededSilent ops s := by
  have hinv := jobsInv_of_reach h
  refine ⟨?_, fun _ _ => hinv.shown⟩
  intro a s' hres hnext
  cases a with
  | loadResumes j r now =>
      obtain ⟨t, hj, hcancelled⟩ := hres
      rw [hinv.loads j t hj] at hcancelled
      cases hcancelled
  | totalResumes j r =>
      obtain ⟨t, hj, hcancelled⟩ := hres
      rw [hinv.totals j t hj] at hcancelled
      cases hcancelled
  | selectSource id => exact hres.elim
  | setBaseUrl raw => exact hres.elim
  | refresh autoVerify => exact hres.elim
  | verifyTotal now => exact hres.elim

/-! ## The condition is exact -/

/-- A cancelled job has a resumption that changes the screen. -/
def CancelledWrites (ops : TimelineOps Ev T) (s : MetaVm Ev T) : Prop :=
  ∃ a s', ResumesCancelled s a ∧ s.next ops a = some s' ∧ s'.ui ≠ s.ui

theorem cancelled_load_fails {s : MetaVm Ev T} {j : Nat} {t : Tasks.Task (LoadJob Ev T)}
    (hj : s.loads.tasks[j]? = some t) (hfin : t.finished = false) (hcan : t.cancelled = true)
    (hwait : t.job.pc.Waiting) (r : Except String (EventsPage Ev)) (now : Int) :
    s.loadResumes ops j r now = some (s.loadFailed j t.job cancelledMessage) := by
  have hres : resumed t r = .error cancelledMessage := if_pos hcan
  rw [loadResumes, hj]
  simp only [hfin, Bool.false_eq_true, if_false, hres]
  cases hpc : t.job.pc with
  | fetchCt => rfl
  | fetchMeta ct => rfl
  | loaded timeline =>
      rw [hpc] at hwait
      exact hwait.elim
  | gaveUp =>
      rw [hpc] at hwait
      exact hwait.elim

theorem cancelled_total_fails {s : MetaVm Ev T} {j : Nat} {t : Tasks.Task TotalJob}
    (hj : s.totals.tasks[j]? = some t) (hfin : t.finished = false) (hcan : t.cancelled = true)
    (r : Except String TotalResult) :
    ∃ s', s.totalResumes j r = some s' ∧ s'.ui.total = .failed cancelledMessage := by
  have hres : resumed t r = .error cancelledMessage := if_pos hcan
  rw [totalResumes, hj]
  simp only [hfin, Bool.false_eq_true, if_false, hres]
  exact ⟨_, rfl, rfl⟩

/-- A load cancelled in flight puts its message on the cleared screen. -/
theorem refresh_cancelledWrites {s : MetaVm Ev T} {autoVerify : Bool} (hloads : s.loads.Uncut)
    (hwaiting : s.loads.AllLive fun job => job.pc.Waiting) (hbusy : ¬ s.loads.Idle) :
    CancelledWrites ops (s.refresh ops autoVerify) := by
  simp only [Tasks.Slot.Idle, not_forall] at hbusy
  obtain ⟨j, t, hj, hfin⟩ := hbusy
  have hlive : t.Live := ⟨Bool.eq_false_iff.mpr hfin, hloads j t hj⟩
  have hj' : (s.refresh ops autoVerify).loads.tasks[j]? = some { t with cancelled := true } :=
    Tasks.Slot.cancelled_of_relaunch hj hlive
  refine ⟨.loadResumes j (.error cancelledMessage) 0, _, ⟨_, hj', rfl⟩,
    cancelled_load_fails hj' hlive.1 rfl (hwaiting j t hj hlive) _ 0, fun hui => ?_⟩
  have herror := congrArg MetaUiState.error hui
  cases herror

/-- A verification cancelled in flight ends the one that replaced it. -/
theorem verifyTotal_cancelledWrites {s : MetaVm Ev T} {now : Int} (htotals : s.totals.Uncut)
    (hcut : ¬ VerifiesFreely s) : CancelledWrites ops (s.verifyTotal now) := by
  rw [VerifiesFreely, not_or] at hcut
  obtain ⟨hrunning, hbusy⟩ := hcut
  simp only [Tasks.Slot.Idle, not_forall] at hbusy
  obtain ⟨j, t, hj, hfin⟩ := hbusy
  have hlive : t.Live := ⟨Bool.eq_false_iff.mpr hfin, htotals j t hj⟩
  have hj' : (s.verifyTotal now).totals.tasks[j]? = some { t with cancelled := true } := by
    rw [verifyTotal, if_neg hrunning]
    exact Tasks.Slot.cancelled_of_relaunch hj hlive
  have hrun : (s.verifyTotal now).ui.total.isRunning = true := by
    rw [verifyTotal, if_neg hrunning]
    rfl
  obtain ⟨s', hs', htotal⟩ := cancelled_total_fails hj' hlive.1 rfl (.error cancelledMessage)
  refine ⟨.totalResumes j (.error cancelledMessage), s', ⟨_, hj', rfl⟩, hs', ?_⟩
  intro hui
  rw [← hui, htotal] at hrun
  cases hrun

/-- The first call that cuts a job short leaves a job that writes. -/
theorem cut_job_writes {s s' : MetaVm Ev T} {a : MetaAct Ev} (h : JobsInv s)
    (hcut : ¬ NothingCut s a) (hs : s.next ops a = some s') : CancelledWrites ops s' := by
  cases a with
  | selectSource id =>
      obtain rfl := Option.some.inj hs
      exact refresh_cancelledWrites h.loads h.waiting hcut
  | setBaseUrl raw =>
      obtain rfl := Option.some.inj hs
      exact refresh_cancelledWrites h.loads h.waiting hcut
  | refresh autoVerify =>
      obtain rfl := Option.some.inj hs
      exact refresh_cancelledWrites h.loads h.waiting hcut
  | verifyTotal now =>
      obtain rfl := Option.some.inj hs
      exact verifyTotal_cancelledWrites h.totals hcut
  | loadResumes j r now =>
      cases r with
      | error message => exact absurd trivial hcut
      | ok goalMeta =>
          simp only [NothingCut, not_forall] at hcut
          obtain ⟨t, hj, hlive, ⟨ct, hpc⟩, hauto, hfree⟩ := hcut
          obtain ⟨t', hj', -, -, hcases⟩ := loadResumes_cases hs
          obtain rfl := Option.some.inj (hj.symm.trans hj')
          rcases hcases with ⟨ct', hpc', -⟩ | ⟨ct', goalMeta', -, -, -, rfl⟩ | ⟨message, herr, -⟩
          · rw [hpc] at hpc'
            cases hpc'
          · rw [loadSucceeded, if_pos hauto]
            exact verifyTotal_cancelledWrites h.totals hfree
          · rw [resumed_eq_ok.mpr ⟨hlive.2, rfl⟩] at herr
            cases herr
  | totalResumes j r => exact absurd trivial hcut

/-! ## Two runs -/

/-- A load, its verification, and a reload when both are done. -/
theorem superseded_jobs_silent_reload :
    ∃ s : MetaVm String (List String), s.loads.tasks.length = 2 ∧ s.totals.tasks.length = 1 ∧
      SupersededSilent eventList s := by
  have hcreated : Lts.Reach (Started eventList) (Lts.During NothingCut (Step eventList))
      (create eventList ⟨none, none⟩) := .init ⟨_, rfl⟩
  have hct := hcreated.next_during (.loadResumes 0 (.ok (pageOf ["aporte"])) 0)
    (by
      intro t hj _ hpc
      obtain rfl := Option.some.inj hj
      obtain ⟨ct, hpc⟩ := hpc
      cases hpc)
    trivial rfl
  have hmeta := hct.next_during (.loadResumes 0 (.ok (pageOf [])) 0)
    (fun _ _ _ _ _ => Or.inr nofun) trivial rfl
  have htotal := hmeta.next_during (.totalResumes 0 (.ok verifiedResult)) trivial trivial rfl
  have hreload := htotal.next_during (.refresh true) (Tasks.Slot.idle_of_all rfl) trivial rfl
  exact ⟨_, rfl, rfl, superseded_jobs_silent hreload⟩

/-- The base URL is edited while the first load hangs. The new load ends
well; then the old call returns and its job puts the cancellation on the
screen as the error of the load. -/
theorem cancelled_load_writes_error :
    ∃ (s s' : MetaVm String (List String)) (a : MetaAct String) (job : LoadJob String (List String)),
      Lts.Reach (Started eventList) (Step eventList) s ∧
      ResumesCancelled s a ∧ s.next eventList a = some s' ∧ s.ui.error = none ∧
      s'.loads.Idle ∧ s'.totals.Idle ∧ s'.loads.newest = some job ∧
      job.pc = .loaded ["aporte"] ∧ s'.ui.error = some "StandaloneCoroutine was cancelled" := by
  have hcreated : Lts.Reach (Started eventList) (Step eventList) (create eventList ⟨none, none⟩) :=
    .init ⟨_, rfl⟩
  have hurl := hcreated.next (.setBaseUrl "10.0.2.2:8091") trivial rfl
  have hct := hurl.next (.loadResumes 1 (.ok (pageOf ["aporte"])) 0) trivial rfl
  have hmeta := hct.next (.loadResumes 1 (.ok (pageOf [])) 0) trivial rfl
  exact ⟨_, _, .loadResumes 0 (.ok (pageOf [])) 0, _, hmeta, ⟨_, rfl, rfl⟩, rfl, rfl,
    Tasks.Slot.idle_of_all rfl, Tasks.Slot.idle_of_all rfl, rfl, rfl, rfl⟩

end MetaVm

end RaizStack
