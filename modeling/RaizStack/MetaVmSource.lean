import RaizStack.MetaVm

/-!
# Whose figure is on the screen

A change of source clears the total and reloads, but it leaves a total
run of the old source in flight, and nothing in `applyTotal` looks at the
source again: `old_figure_under_new_source` is a run that ends with the
figure of one source under the name of another. The figure is the right
one in every run in which a verification that ends well, without having
been superseded, ends under the source it was started with.
-/

namespace RaizStack

namespace MetaVm

variable {Ev T : Type} {ops : TimelineOps Ev T}

/-- A verified figure was computed from the source on the screen. -/
def FigureMatches (s : MetaVm Ev T) : Prop :=
  ∀ total, s.ui.total = .verified total → s.figureFrom = some s.ui.source

/-- A verification that succeeds and was not cancelled was started with
the source that is selected now. -/
def EndsUnderItsSource (s : MetaVm Ev T) : MetaAct Ev → Prop
  | .totalResumes j (.ok r) => r.verified = true →
      ∀ t : Tasks.Task TotalJob, s.totals.tasks[j]? = some t → t.Live →
        t.job.src = s.store.value
  | _ => True

/-- The screen names the selected source, the live load reads it, and the
figure is its. -/
structure SourceInv (s : MetaVm Ev T) : Prop where
  source : s.ui.source = s.store.value
  loads : s.loads.AllLive fun job => job.src = s.store.value
  figure : FigureMatches s

/-! ## Calls from the screen -/

theorem refresh_sourceInv {s : MetaVm Ev T} {autoVerify : Bool}
    (h : ∀ total, s.ui.total = .verified total → s.figureFrom = some s.store.value) :
    SourceInv (s.refresh ops autoVerify) where
  source := rfl
  loads := .relaunch rfl
  figure := h

theorem create_sourceInv (prefs : SourcePrefs) : SourceInv (create ops prefs) :=
  refresh_sourceInv fun _ h => nomatch h

theorem verifyTotal_sourceInv {s : MetaVm Ev T} {now : Int} (h : SourceInv s) :
    SourceInv (s.verifyTotal now) := by
  unfold verifyTotal
  split
  · exact h
  · exact ⟨h.source, h.loads, fun _ h => nomatch h⟩

/-! ## Resumptions -/

theorem advance_src {loads : Tasks.Slot (LoadJob Ev T)} {j : Nat} {t : Tasks.Task (LoadJob Ev T)}
    {pc : LoadPc Ev T} {fin : Bool} {src : EventSource} (hj : loads.tasks[j]? = some t)
    (h : loads.AllLive fun job => job.src = src) :
    (loads.advance j { t.job with pc := pc } fin).AllLive fun job => job.src = src := by
  refine h.advance ?_
  intro t₀ ht₀ hlive _
  obtain rfl := Option.some.inj (hj.symm.trans ht₀)
  exact h j t hj hlive

theorem loadFailed_sourceInv {s : MetaVm Ev T} {j : Nat} {t : Tasks.Task (LoadJob Ev T)}
    {message : String} (hj : s.loads.tasks[j]? = some t) (h : SourceInv s) :
    SourceInv (s.loadFailed j t.job message) :=
  ⟨h.source, advance_src hj h.loads, h.figure⟩

theorem loadSucceeded_sourceInv {s : MetaVm Ev T} {j : Nat} {t : Tasks.Task (LoadJob Ev T)}
    {ct goalMeta : EventsPage Ev} {now : Int} (hj : s.loads.tasks[j]? = some t) (hlive : t.Live)
    (h : SourceInv s) : SourceInv (s.loadSucceeded ops j t.job ct goalMeta now) := by
  have hsrc : t.job.src = s.store.value := h.loads j t hj hlive
  have hfigure : ∀ total, s.ui.total = .verified total → s.figureFrom = some t.job.src := by
    intro total htotal
    rw [hsrc, ← h.source]
    exact h.figure total htotal
  unfold loadSucceeded
  split
  · exact verifyTotal_sourceInv ⟨hsrc, advance_src hj h.loads, hfigure⟩
  · exact ⟨hsrc, advance_src hj h.loads, hfigure⟩

theorem loadResumes_sourceInv {s s' : MetaVm Ev T} {j : Nat} {r : Except String (EventsPage Ev)}
    {now : Int} (h : SourceInv s) (hs : s.loadResumes ops j r now = some s') : SourceInv s' := by
  obtain ⟨t, hj, hfin, -, hcases⟩ := loadResumes_cases hs
  rcases hcases with ⟨ct, -, -, -, rfl⟩ | ⟨ct, goalMeta, -, hnot, -, rfl⟩ | ⟨message, -, rfl⟩
  · exact ⟨h.source, advance_src hj h.loads, h.figure⟩
  · exact loadSucceeded_sourceInv hj ⟨hfin, hnot⟩ h
  · exact loadFailed_sourceInv hj h

theorem totalOf_verified {r : TotalResult} {src : EventSource} {total : VerifiedTotal}
    (h : totalOf r src = .verified total) : r.verified = true := by
  unfold totalOf at h
  split at h
  · assumption
  · cases h

theorem totalResumes_sourceInv {s s' : MetaVm Ev T} {j : Nat} {r : Except String TotalResult}
    (h : SourceInv s) (hends : EndsUnderItsSource s (.totalResumes j r))
    (hs : s.totalResumes j r = some s') : SourceInv s' := by
  obtain ⟨t, hj, hfin, hcases⟩ := totalResumes_cases hs
  rcases hcases with ⟨result, hnot, rfl, rfl⟩ | ⟨message, -, rfl⟩
  · refine ⟨h.source, h.loads, ?_⟩
    intro total htotal
    have hver : result.verified = true := totalOf_verified htotal
    have hsrc : t.job.src = s.store.value := hends hver t hj ⟨hfin, hnot⟩
    simp only [hver, if_true, hsrc]
    exact congrArg some h.source.symm
  · exact ⟨h.source, h.loads, fun _ h => nomatch h⟩

/-! ## Every run -/

theorem next_sourceInv {s s' : MetaVm Ev T} {a : MetaAct Ev} (h : SourceInv s)
    (hends : EndsUnderItsSource s a) (hs : s.next ops a = some s') : SourceInv s' := by
  cases a with
  | selectSource id =>
      obtain rfl := Option.some.inj hs
      exact refresh_sourceInv fun _ h => nomatch h
  | setBaseUrl raw =>
      obtain rfl := Option.some.inj hs
      exact refresh_sourceInv fun _ h => nomatch h
  | refresh autoVerify =>
      obtain rfl := Option.some.inj hs
      refine refresh_sourceInv ?_
      intro total htotal
      rw [← h.source]
      exact h.figure total htotal
  | verifyTotal now =>
      obtain rfl := Option.some.inj hs
      exact verifyTotal_sourceInv h
  | loadResumes j r now => exact loadResumes_sourceInv h hs
  | totalResumes j r => exact totalResumes_sourceInv h hends hs

/-- In every run in which each successful verification that was not
superseded ends under the source it was started with, a figure on the
screen was computed from the source the screen names. -/
theorem figure_matches_source {s : MetaVm Ev T}
    (h : Lts.Reach (Started ops) (Lts.During EndsUnderItsSource (Step ops)) s) :
    FigureMatches s := by
  have hinv : SourceInv s := by
    refine h.invariant (I := SourceInv) ?_ ?_
    · rintro s ⟨prefs, rfl⟩
      exact create_sourceInv prefs
    · rintro s a s' - hs ⟨hends, -, hnext⟩
      exact next_sourceInv hs hends hnext
  exact hinv.figure

/-- The condition is exact: the first step that misses it puts the figure
of one source under the name of another. -/
theorem figureMatches_next_iff {s s' : MetaVm Ev T} {a : MetaAct Ev} (h : SourceInv s)
    (hs : s.next ops a = some s') : FigureMatches s' ↔ EndsUnderItsSource s a := by
  refine ⟨fun hmatch => ?_, fun hends => (next_sourceInv h hends hs).figure⟩
  cases a with
  | totalResumes j r =>
      cases r with
      | error message => trivial
      | ok r =>
          intro hver t hj hlive
          have hnext : s.totalResumes j (.ok r) = some s' := hs
          obtain ⟨t', hj', -, hcases⟩ := totalResumes_cases hnext
          obtain rfl := Option.some.inj (hj.symm.trans hj')
          rcases hcases with ⟨result, -, hr, rfl⟩ | ⟨message, herr, -⟩
          · obtain rfl := Except.ok.inj hr
            have hfrom := hmatch _ (if_pos hver)
            rw [if_pos hver] at hfrom
            exact (Option.some.inj hfrom).trans h.source
          · rw [resumed_eq_ok.mpr ⟨hlive.2, rfl⟩] at herr
            cases herr
  | selectSource id => trivial
  | setBaseUrl raw => trivial
  | refresh autoVerify => trivial
  | verifyTotal now => trivial
  | loadResumes j r now => trivial

/-! ## The source a verification was started with -/

/-- An observer notes the selected source whenever a verification starts. -/
def noteSource (s : MetaVm Ev T) (_ : MetaAct Ev) (s' : MetaVm Ev T)
    (notes : List EventSource) : List EventSource :=
  if s.totals.tasks.length < s'.totals.tasks.length then notes ++ [s.store.value] else notes

/-- What was noted is what the jobs carry. -/
def Noted (s : MetaVm Ev T) (notes : List EventSource) : Prop :=
  s.totals.jobs.map TotalJob.src = notes

theorem noteSource_of_jobs {s s' : MetaVm Ev T} {a : MetaAct Ev} {notes : List EventSource}
    (h : Noted s notes) (hjobs : s'.totals.jobs = s.totals.jobs) :
    Noted s' (noteSource s a s' notes) := by
  have hlen : s'.totals.tasks.length = s.totals.tasks.length := by
    have := congrArg List.length hjobs
    rwa [Tasks.Slot.jobs, Tasks.Slot.jobs, List.length_map, List.length_map] at this
  rw [Noted, noteSource, if_neg (by omega), hjobs]
  exact h

/-- Wherever `verifyTotal` is called, its job takes the selected source. -/
theorem noteSource_verifyTotal {s s₁ : MetaVm Ev T} {a : MetaAct Ev} {notes : List EventSource}
    {now : Int} (h : Noted s notes) (htotals : s₁.totals = s.totals)
    (hstore : s₁.store = s.store) :
    Noted (s₁.verifyTotal now) (noteSource s a (s₁.verifyTotal now) notes) := by
  unfold verifyTotal
  split
  · exact noteSource_of_jobs h (congrArg Tasks.Slot.jobs htotals)
  · have hlen : s.totals.tasks.length
        < (s₁.totals.relaunch { src := s₁.store.value }).tasks.length := by
      rw [htotals]
      exact Nat.lt_of_lt_of_eq (Nat.lt_succ_self _) (Tasks.Slot.length_relaunched _ _).symm
    rw [Noted, noteSource, if_pos hlen, Tasks.Slot.jobs_relaunch, List.map_append, htotals, h,
      hstore]
    rfl

theorem Noted.step {s s' : MetaVm Ev T} {a : MetaAct Ev} {notes : List EventSource}
    (h : Noted s notes) (hs : s.next ops a = some s') : Noted s' (noteSource s a s' notes) := by
  cases a with
  | selectSource id =>
      obtain rfl := Option.some.inj hs
      exact noteSource_of_jobs h rfl
  | setBaseUrl raw =>
      obtain rfl := Option.some.inj hs
      exact noteSource_of_jobs h rfl
  | refresh autoVerify =>
      obtain rfl := Option.some.inj hs
      exact noteSource_of_jobs h rfl
  | verifyTotal now =>
      obtain rfl := Option.some.inj hs
      exact noteSource_verifyTotal h rfl rfl
  | loadResumes j r now =>
      obtain ⟨t, -, -, -, hcases⟩ := loadResumes_cases hs
      rcases hcases with ⟨ct, -, -, -, rfl⟩ | ⟨ct, goalMeta, -, -, -, rfl⟩ | ⟨message, -, rfl⟩
      · exact noteSource_of_jobs h rfl
      · unfold loadSucceeded
        dsimp only
        split
        · exact noteSource_verifyTotal h rfl rfl
        · exact noteSource_of_jobs h rfl
      · exact noteSource_of_jobs h rfl
  | totalResumes j r =>
      obtain ⟨t, hj, -, hcases⟩ := totalResumes_cases hs
      rcases hcases with ⟨result, -, -, rfl⟩ | ⟨message, -, rfl⟩
      · exact noteSource_of_jobs h (Tasks.Slot.jobs_advance hj)
      · exact noteSource_of_jobs h (Tasks.Slot.jobs_advance hj)

/-- **What the condition asks**: each state of a run comes with the sources
that were selected when its verifications were started, and a verification
that succeeds, not superseded, must find its own selected still. -/
theorem endsUnderItsSource_iff {s : MetaVm Ev T} (h : Lts.Reach (Started ops) (Step ops) s) :
    ∃ notes, Lts.Reach (fun p => Started ops p.1 ∧ p.2 = [])
        (Lts.observed noteSource (Step ops)) (s, notes) ∧
      ∀ j r, EndsUnderItsSource s (.totalResumes j (.ok r)) ↔
        (r.verified = true → ∀ t, s.totals.tasks[j]? = some t → t.Live →
          notes[j]? = some s.store.value) := by
  obtain ⟨notes, hreach⟩ := Lts.Reach.observed (τ := List EventSource) [] h
  refine ⟨notes, hreach, fun j r => ?_⟩
  have hnoted : Noted s notes := by
    refine hreach.invariant (I := fun p => Noted p.1 p.2) ?_ ?_
    · rintro ⟨s, notes⟩ ⟨⟨prefs, rfl⟩, rfl⟩
      rfl
    · rintro ⟨s, notes⟩ a ⟨s', notes'⟩ - hnoted ⟨⟨-, hnext⟩, hsee⟩
      obtain rfl : notes' = noteSource s a s' notes := hsee
      exact hnoted.step hnext
  have hsrc : ∀ t, s.totals.tasks[j]? = some t →
      (t.job.src = s.store.value ↔ notes[j]? = some s.store.value) := by
    intro t ht
    rw [← hnoted, Tasks.Slot.jobs, List.getElem?_map, List.getElem?_map, ht]
    exact Option.some_inj.symm
  constructor
  · exact fun hends hver t ht hlive => (hsrc t ht).mp (hends hver t ht hlive)
  · exact fun hnotes hver t ht hlive => (hsrc t ht).mpr (hnotes hver t ht hlive)

/-! ## Two runs -/

/-- The first load, its verification, and the verified figure. -/
theorem figure_matches_source_first :
    ∃ s : MetaVm String (List String),
      s.ui.total.asVerified.isSome = true ∧ FigureMatches s := by
  have hcreated : Lts.Reach (Started eventList)
      (Lts.During EndsUnderItsSource (Step eventList)) (create eventList ⟨none, none⟩) :=
    .init ⟨_, rfl⟩
  have hct := hcreated.next_during (.loadResumes 0 (.ok (pageOf ["aporte"])) 0) trivial trivial rfl
  have hmeta := hct.next_during (.loadResumes 0 (.ok (pageOf [])) 0) trivial trivial rfl
  have htotal := hmeta.next_during (.totalResumes 0 (.ok verifiedResult))
    (by
      intro _ t ht _
      obtain rfl := Option.some.inj ht
      rfl)
    trivial rfl
  exact ⟨_, rfl, figure_matches_source htotal⟩

/-- The source is switched while the total of Raiz Memory is computed:
the figure arrives under the name of the source that forgets. -/
theorem old_figure_under_new_source :
    ∃ s : MetaVm String (List String),
      Lts.Reach (Started eventList) (Step eventList) s ∧
      s.ui.total.asVerified.isSome = true ∧
      s.figureFrom = some (.raizMemory defaultBaseUrl) ∧
      s.ui.source = .rpcSimulation defaultBaseUrl ∧
      ¬ FigureMatches s := by
  have hcreated : Lts.Reach (Started eventList) (Step eventList) (create eventList ⟨none, none⟩) :=
    .init ⟨_, rfl⟩
  have hct := hcreated.next (.loadResumes 0 (.ok (pageOf ["aporte"])) 0) trivial rfl
  have hmeta := hct.next (.loadResumes 0 (.ok (pageOf [])) 0) trivial rfl
  have hswitched := hmeta.next (.selectSource "rpc-simulado") trivial rfl
  have htotal := hswitched.next (.totalResumes 0 (.ok verifiedResult)) trivial rfl
  refine ⟨_, htotal, rfl, rfl, rfl, ?_⟩
  intro hmatch
  have hsame := hmatch _ rfl
  revert hsame
  decide

end MetaVm

end RaizStack
