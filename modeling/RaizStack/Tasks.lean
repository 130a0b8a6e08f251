import Mathlib.Data.List.Basic

/-!
# A slot for the newest task

A program that keeps one variable for a background task, cancels what is
in it and launches the next has launched a list of tasks of which at most
the last can still deliver. The others have finished or carry the
cancellation they have yet to notice. `Slot` is that list with the fact
as a field; what a task computes is the parameter `J`.
-/

namespace Tasks

variable {J : Type}

/-- A launched task: what it is at, and what became of it. -/
structure Task (J : Type) where
  job : J
  cancelled : Bool
  finished : Bool

/-- Cancelling a finished task does nothing. -/
def Task.cancel (t : Task J) : Task J :=
  if t.finished then t else { t with cancelled := true }

/-- Neither finished nor cancelled. -/
def Task.Live (t : Task J) : Prop :=
  t.finished = false ∧ t.cancelled = false

@[simp] theorem Task.cancel_finished (t : Task J) : t.cancel.finished = t.finished := by
  unfold Task.cancel
  split <;> rfl

@[simp] theorem Task.cancel_job (t : Task J) : t.cancel.job = t.job := by
  unfold Task.cancel
  split <;> rfl

theorem Task.cancel_of_finished {t : Task J} (h : t.finished = true) : t.cancel = t :=
  if_pos h

theorem Task.not_live_cancel (t : Task J) : ¬ t.cancel.Live := by
  rintro ⟨hfin, hcan⟩
  rw [Task.cancel_finished] at hfin
  simp [Task.cancel, hfin] at hcan

/-- The tasks launched so far, the newest last. -/
structure Slot (J : Type) where
  tasks : List (Task J)
  live_last : ∀ j t, tasks[j]? = some t → t.Live → j + 1 = tasks.length

namespace Slot

def empty : Slot J := { tasks := [], live_last := nofun }

/-- `tasks` with the newest cancelled and one more launched. -/
def relaunched (tasks : List (Task J)) (job : J) : List (Task J) :=
  tasks.modify (tasks.length - 1) Task.cancel
    ++ [{ job := job, cancelled := false, finished := false }]

theorem length_relaunched (tasks : List (Task J)) (job : J) :
    (relaunched tasks job).length = tasks.length + 1 := by
  simp [relaunched]

theorem getElem?_relaunched_last (tasks : List (Task J)) (job : J) :
    (relaunched tasks job)[tasks.length]? =
      some { job := job, cancelled := false, finished := false } := by
  rw [relaunched, List.getElem?_append_right (by simp)]
  simp

theorem getElem?_relaunched_of_lt {tasks : List (Task J)} {job : J} {j : Nat}
    (h : j < tasks.length) :
    (relaunched tasks job)[j]? =
      (fun t => if tasks.length - 1 = j then Task.cancel t else t) <$> tasks[j]? := by
  rw [relaunched, List.getElem?_append_left (by simpa using h), List.getElem?_modify]

/-- Cancel the newest task and launch the next. -/
def relaunch (s : Slot J) (job : J) : Slot J where
  tasks := relaunched s.tasks job
  live_last j t hj hlive := by
    rw [length_relaunched]
    rcases Nat.lt_trichotomy j s.tasks.length with hlt | rfl | hgt
    · rw [getElem?_relaunched_of_lt hlt] at hj
      obtain ⟨t₀, ht₀, rfl⟩ := Option.map_eq_some_iff.mp hj
      split at hlive
      · exact absurd hlive t₀.not_live_cancel
      · exact absurd (s.live_last j t₀ ht₀ hlive) (by omega)
    · rfl
    · rw [List.getElem?_eq_none (by rw [length_relaunched]; omega)] at hj
      cases hj

/-- Task `j` gets to `job`, and is done if `fin`. -/
def advance (s : Slot J) (j : Nat) (job : J) (fin : Bool) : Slot J where
  tasks := s.tasks.modify j fun t => { t with job := job, finished := t.finished || fin }
  live_last i t hi hlive := by
    rw [List.length_modify]
    rw [List.getElem?_modify] at hi
    obtain ⟨t₀, ht₀, rfl⟩ := Option.map_eq_some_iff.mp hi
    refine s.live_last i t₀ ht₀ ?_
    split at hlive
    · exact ⟨(Bool.or_eq_false_iff.mp hlive.1).1, hlive.2⟩
    · exact hlive

/-! ## What the operations leave -/

/-- The jobs launched so far, whatever became of their tasks. -/
def jobs (s : Slot J) : List J :=
  s.tasks.map Task.job

theorem jobs_relaunch (s : Slot J) (job : J) : (s.relaunch job).jobs = s.jobs ++ [job] := by
  have hmod : (s.tasks.modify (s.tasks.length - 1) Task.cancel).map Task.job
      = s.tasks.map Task.job := by
    refine List.ext_getElem? fun i => ?_
    rw [List.getElem?_map, List.getElem?_modify, List.getElem?_map]
    cases s.tasks[i]? with
    | none => rfl
    | some t =>
        simp only [Option.map_eq_map, Option.map_some]
        split
        · rw [Task.cancel_job]
        · rfl
  have hrun : (s.relaunch job).jobs = (relaunched s.tasks job).map Task.job := rfl
  rw [hrun, relaunched, List.map_append, hmod]
  rfl

/-- A live task after a relaunch is the one just launched. -/
theorem relaunch_live {s : Slot J} {job : J} {j : Nat} {t : Task J}
    (hj : (s.relaunch job).tasks[j]? = some t) (hlive : t.Live) : t.job = job := by
  have hlast := (s.relaunch job).live_last j t hj hlive
  have hlen : (s.relaunch job).tasks.length = s.tasks.length + 1 := length_relaunched _ _
  obtain rfl : j = s.tasks.length := by omega
  have hnew := (getElem?_relaunched_last s.tasks job).symm.trans hj
  rw [← Option.some.inj hnew]

theorem getElem?_advance {s : Slot J} {i j : Nat} {job : J} {fin : Bool} {t : Task J}
    (h : (s.advance j job fin).tasks[i]? = some t) :
    ∃ t₀, s.tasks[i]? = some t₀ ∧
      (i = j ∧ t = { t₀ with job := job, finished := t₀.finished || fin } ∨ i ≠ j ∧ t = t₀) := by
  have hi : (s.tasks.modify j fun t => { t with job := job, finished := t.finished || fin })[i]?
      = some t := h
  rw [List.getElem?_modify] at hi
  obtain ⟨t₀, ht₀, rfl⟩ := Option.map_eq_some_iff.mp hi
  refine ⟨t₀, ht₀, ?_⟩
  by_cases hij : j = i
  · rw [if_pos hij]
    exact Or.inl ⟨hij.symm, rfl⟩
  · rw [if_neg hij]
    exact Or.inr ⟨Ne.symm hij, rfl⟩

theorem advance_self {s : Slot J} {j : Nat} {job : J} {fin : Bool} {t : Task J}
    (h : s.tasks[j]? = some t) :
    (s.advance j job fin).tasks[j]? =
      some { t with job := job, finished := t.finished || fin } := by
  have hmod : (s.advance j job fin).tasks[j]? = _ := List.getElem?_modify ..
  rw [hmod, h]
  simp

theorem advance_of_ne {s : Slot J} {i j : Nat} {job : J} {fin : Bool} (h : i ≠ j) :
    (s.advance j job fin).tasks[i]? = s.tasks[i]? := by
  have hmod : (s.advance j job fin).tasks[i]? = _ := List.getElem?_modify ..
  rw [hmod]
  simp [Ne.symm h]

/-- A task that gets to its own job leaves the jobs as they are. -/
theorem jobs_advance {s : Slot J} {j : Nat} {t : Task J} {fin : Bool}
    (h : s.tasks[j]? = some t) : (s.advance j t.job fin).jobs = s.jobs := by
  refine List.ext_getElem? fun i => ?_
  rw [jobs, jobs, List.getElem?_map, List.getElem?_map]
  by_cases hij : i = j
  · subst hij
    rw [advance_self h, h]
    rfl
  · rw [advance_of_ne hij]

/-- A task before a relaunch is there after it, cancelled or not. -/
theorem relaunch_of_lt {s : Slot J} {job : J} {j : Nat} {t : Task J}
    (h : s.tasks[j]? = some t) :
    ∃ t', (s.relaunch job).tasks[j]? = some t' ∧ t'.job = t.job ∧ t'.finished = t.finished := by
  have hlt : j < s.tasks.length := (List.getElem?_eq_some_iff.mp h).1
  have hold : (s.relaunch job).tasks[j]? = _ := getElem?_relaunched_of_lt hlt
  rw [h] at hold
  refine ⟨_, hold, ?_, ?_⟩
  · split <;> simp
  · split <;> simp

/-- A task that has finished stays as it is. -/
theorem relaunch_finished {s : Slot J} {job : J} {j : Nat} {t : Task J}
    (h : s.tasks[j]? = some t) (hfin : t.finished = true) :
    (s.relaunch job).tasks[j]? = some t := by
  have hlt : j < s.tasks.length := (List.getElem?_eq_some_iff.mp h).1
  have hold : (s.relaunch job).tasks[j]? = _ := getElem?_relaunched_of_lt hlt
  rw [hold, h]
  simp [Task.cancel_of_finished hfin]

/-- A task after a relaunch is the new one or was there before. -/
theorem relaunch_cases {s : Slot J} {job : J} {j : Nat} {t : Task J}
    (h : (s.relaunch job).tasks[j]? = some t) :
    t = { job := job, cancelled := false, finished := false } ∨
      ∃ t₀, s.tasks[j]? = some t₀ ∧ t.job = t₀.job ∧ t.finished = t₀.finished := by
  rcases Nat.lt_trichotomy j s.tasks.length with hlt | rfl | hgt
  · obtain ⟨t', ht', hjob, hfin⟩ :=
      relaunch_of_lt (List.getElem?_eq_getElem hlt)
    obtain rfl := Option.some.inj (h.symm.trans ht')
    exact Or.inr ⟨_, List.getElem?_eq_getElem hlt, hjob, hfin⟩
  · exact Or.inl (Option.some.inj (h.symm.trans (getElem?_relaunched_last s.tasks job)))
  · have hnone : (s.relaunch job).tasks[j]? = none := by
      refine List.getElem?_eq_none ?_
      have hlen : (s.relaunch job).tasks.length = s.tasks.length + 1 := length_relaunched _ _
      omega
    rw [hnone] at h
    cases h

/-- Every task that can still deliver satisfies `P`. -/
def AllLive (s : Slot J) (P : J → Prop) : Prop :=
  ∀ (j : Nat) (t : Task J), s.tasks[j]? = some t → t.Live → P t.job

theorem AllLive.relaunch {s : Slot J} {P : J → Prop} {job : J} (h : P job) :
    (s.relaunch job).AllLive P := by
  intro j t hj hlive
  rw [relaunch_live hj hlive]
  exact h

theorem AllLive.advance {s : Slot J} {P : J → Prop} {j : Nat} {job : J} {fin : Bool}
    (h : s.AllLive P)
    (hjob : ∀ t : Task J, s.tasks[j]? = some t → t.Live → fin = false → P job) :
    (s.advance j job fin).AllLive P := by
  intro i t hi hlive
  obtain ⟨t₀, ht₀, ⟨rfl, rfl⟩ | ⟨-, rfl⟩⟩ := getElem?_advance hi
  · obtain ⟨hfin₀, hfin⟩ := Bool.or_eq_false_iff.mp hlive.1
    exact hjob t₀ ht₀ ⟨hfin₀, hlive.2⟩ hfin
  · exact h i t ht₀ hlive

/-! ## Nothing cut short -/

/-- Every task has finished. -/
def Idle (s : Slot J) : Prop :=
  ∀ (j : Nat) (t : Task J), s.tasks[j]? = some t → t.finished = true

theorem idle_of_all {s : Slot J} (h : s.tasks.all Task.finished = true) : s.Idle :=
  fun _ t hj => List.all_eq_true.mp h t (List.mem_of_getElem? hj)

/-- No task was cancelled. -/
def Uncut (s : Slot J) : Prop :=
  ∀ (j : Nat) (t : Task J), s.tasks[j]? = some t → t.cancelled = false

/-- What the newest task is at. -/
def newest (s : Slot J) : Option J :=
  s.tasks[s.tasks.length - 1]?.map Task.job

theorem empty_uncut : (empty : Slot J).Uncut := nofun

/-- Cancelling what has finished cuts nothing. -/
theorem Uncut.relaunch {s : Slot J} {job : J} (h : s.Uncut) (hidle : s.Idle) :
    (s.relaunch job).Uncut := by
  intro j t hj
  rcases Nat.lt_trichotomy j s.tasks.length with hlt | rfl | hgt
  · have hj' := (getElem?_relaunched_of_lt hlt).symm.trans hj
    obtain ⟨t₀, ht₀, rfl⟩ := Option.map_eq_some_iff.mp hj'
    split
    · rw [Task.cancel_of_finished (hidle j t₀ ht₀)]
      exact h j t₀ ht₀
    · exact h j t₀ ht₀
  · have hnew := (getElem?_relaunched_last s.tasks job).symm.trans hj
    rw [← Option.some.inj hnew]
  · have hnone : (s.relaunch job).tasks[j]? = none := by
      refine List.getElem?_eq_none ?_
      have hlen : (s.relaunch job).tasks.length = s.tasks.length + 1 := length_relaunched _ _
      omega
    rw [hnone] at hj
    cases hj

theorem Uncut.advance {s : Slot J} {j : Nat} {job : J} {fin : Bool} (h : s.Uncut) :
    (s.advance j job fin).Uncut := by
  intro i t hi
  obtain ⟨t₀, ht₀, ⟨-, rfl⟩ | ⟨-, rfl⟩⟩ := getElem?_advance hi
  · exact h i t₀ ht₀
  · exact h i t ht₀

@[simp] theorem newest_relaunch (s : Slot J) (job : J) : (s.relaunch job).newest = some job := by
  have hlen : (s.relaunch job).tasks.length - 1 = s.tasks.length := by
    have hlen' : (s.relaunch job).tasks.length = s.tasks.length + 1 := length_relaunched _ _
    omega
  have hlast : (s.relaunch job).tasks[s.tasks.length]? = _ := getElem?_relaunched_last s.tasks job
  rw [newest, hlen, hlast]
  rfl

/-- A task that can still deliver is the newest one. -/
theorem newest_advance {s : Slot J} {j : Nat} {t : Task J} {job : J} {fin : Bool}
    (hj : s.tasks[j]? = some t) (hlive : t.Live) : (s.advance j job fin).newest = some job := by
  have hlast := s.live_last j t hj hlive
  have hlen : (s.advance j job fin).tasks.length - 1 = j := by
    have hlen' : (s.advance j job fin).tasks.length = s.tasks.length := List.length_modify ..
    omega
  have hmod : (s.advance j job fin).tasks[j]? = _ := List.getElem?_modify ..
  rw [newest, hlen, hmod, hj]
  simp

/-- What was unfinished when the next task was launched is cancelled. -/
theorem cancelled_of_relaunch {s : Slot J} {job : J} {j : Nat} {t : Task J}
    (hj : s.tasks[j]? = some t) (hlive : t.Live) :
    (s.relaunch job).tasks[j]? = some { t with cancelled := true } := by
  have hlast := s.live_last j t hj hlive
  have hold : (s.relaunch job).tasks[j]? = _ := getElem?_relaunched_of_lt (by omega)
  rw [hold, hj, ← hlast]
  simp [Task.cancel, hlive.1]

end Slot

end Tasks
