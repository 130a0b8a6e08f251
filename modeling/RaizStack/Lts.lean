import Mathlib.Data.List.Forall2
import Mathlib.Logic.Relation

/-!
# Runs of a labelled transition system

The one induction every safety result of the development rests on:
what holds in the start states and is kept by each step holds in every
state of every run. A system is a predicate on start states and a
labelled step relation; nothing here knows what the labels are.

Three views of a run are used:

- `Reach` - the states of runs from a start state, for invariants;
- `Steps` - two states of one run, for facts that relate an earlier
  state to a later one;
- `exec` - a list of actions executed by a next-state function.

`During` restricts a step relation to the steps that meet a condition,
so that "in every run whose steps all meet the condition" is `Reach`
of the restricted relation.
-/

namespace Lts

variable {σ α : Type*}

/-! ## Runs -/

/-- The states on the runs of `step` from a state satisfying `start`. -/
inductive Reach (start : σ → Prop) (step : σ → α → σ → Prop) : σ → Prop
  | init {s : σ} : start s → Reach start step s
  | step {s t : σ} {a : α} : Reach start step s → step s a t → Reach start step t

/-- One move, its label forgotten. -/
def Move (step : σ → α → σ → Prop) (s t : σ) : Prop :=
  ∃ a, step s a t

/-- `t` is a later state of a run through `s`. -/
def Steps (step : σ → α → σ → Prop) : σ → σ → Prop :=
  Relation.ReflTransGen (Move step)

/-- The steps that meet the condition `C`. -/
def During (C : σ → α → Prop) (step : σ → α → σ → Prop) : σ → α → σ → Prop :=
  fun s a t => C s a ∧ step s a t

/-- The step relation of a function that says what an enabled action
does, in an environment that allows only some actions. -/
def ofNext (allowed : σ → α → Prop) (next : σ → α → Option σ) : σ → α → σ → Prop :=
  fun s a t => allowed s a ∧ next s a = some t

/-! ## Invariants -/

variable {start : σ → Prop} {step : σ → α → σ → Prop}

/-- **The invariant rule.** The step case may use that the state it
starts from is reachable, so invariants already proved are available. -/
theorem Reach.invariant {I : σ → Prop} (hinit : ∀ s, start s → I s)
    (hstep : ∀ s a t, Reach start step s → I s → step s a t → I t)
    {s : σ} (h : Reach start step s) : I s := by
  induction h with
  | init hs => exact hinit _ hs
  | step hreach hst ih => exact hstep _ _ _ hreach ih hst

/-- A run under a condition is a run. -/
theorem Reach.of_during {C : σ → α → Prop} {s : σ} (h : Reach start (During C step) s) :
    Reach start step s := by
  induction h with
  | init hs => exact .init hs
  | step _ hst ih => exact ih.step hst.2

/-- A property kept by every step out of a reachable state holds in
every later state. -/
theorem Steps.invariant {I : σ → Prop}
    (hstep : ∀ s a t, Reach start step s → I s → step s a t → I t)
    {s t : σ} (hs : Reach start step s) (hI : I s) (h : Steps step s t) : I t := by
  have hboth : Reach start step t ∧ I t := by
    induction h with
    | refl => exact ⟨hs, hI⟩
    | tail _ hmove ih =>
        obtain ⟨a, ha⟩ := hmove
        exact ⟨ih.1.step ha, hstep _ _ _ ih.1 ih.2 ha⟩
  exact hboth.2

/-- A later state of a run is a state of a run. -/
theorem Reach.steps {s t : σ} (hs : Reach start step s) (h : Steps step s t) :
    Reach start step t := by
  induction h with
  | refl => exact hs
  | tail _ hmove ih =>
      obtain ⟨a, ha⟩ := hmove
      exact ih.step ha

/-- The invariant rule from any state on. -/
theorem Steps.keeps {I : σ → Prop} (hstep : ∀ s a t, I s → step s a t → I t) {s t : σ}
    (hI : I s) (h : Steps step s t) : I t := by
  induction h with
  | refl => exact hI
  | tail _ hmove ih =>
      obtain ⟨a, ha⟩ := hmove
      exact hstep _ _ _ ih ha

/-! ## Observers -/

/-- The system with an observer beside it, who sees every step and keeps
notes. -/
def observed {τ : Type*} (see : σ → α → σ → τ → τ) (step : σ → α → σ → Prop) :
    σ × τ → α → σ × τ → Prop :=
  fun p a q => step p.1 a q.1 ∧ q.2 = see p.1 a q.1 p.2

/-- An observer is in nobody's way. -/
theorem Reach.observed {τ : Type*} {see : σ → α → σ → τ → τ} (notes : τ) {s : σ}
    (h : Reach start step s) :
    ∃ w, Reach (fun p => start p.1 ∧ p.2 = notes) (Lts.observed see step) (s, w) := by
  induction h with
  | init hs => exact ⟨notes, .init ⟨hs, rfl⟩⟩
  | @step s t a _ hst ih =>
      obtain ⟨w, hw⟩ := ih
      exact ⟨see s a t w, hw.step ⟨hst, rfl⟩⟩

/-! ## Building runs -/

/-- One allowed action of a next-state function. -/
theorem Reach.next {allowed : σ → α → Prop} {nxt : σ → α → Option σ} {s t : σ}
    (h : Reach start (ofNext allowed nxt) s) (a : α) (ha : allowed s a)
    (hst : nxt s a = some t) : Reach start (ofNext allowed nxt) t :=
  h.step ⟨ha, hst⟩

theorem Reach.next_during {C allowed : σ → α → Prop} {nxt : σ → α → Option σ} {s t : σ}
    (h : Reach start (During C (ofNext allowed nxt)) s) (a : α) (hC : C s a) (ha : allowed s a)
    (hst : nxt s a = some t) : Reach start (During C (ofNext allowed nxt)) t :=
  h.step ⟨hC, ha, hst⟩

/-- One allowed action after a later state of a run. -/
theorem Steps.next {allowed : σ → α → Prop} {nxt : σ → α → Option σ} {s t u : σ}
    (h : Steps (ofNext allowed nxt) s t) (a : α) (ha : allowed t a) (hst : nxt t a = some u) :
    Steps (ofNext allowed nxt) s u :=
  Relation.ReflTransGen.tail h ⟨a, ha, hst⟩

theorem Steps.next_during {C allowed : σ → α → Prop} {nxt : σ → α → Option σ} {s t u : σ}
    (h : Steps (During C (ofNext allowed nxt)) s t) (a : α) (hC : C t a) (ha : allowed t a)
    (hst : nxt t a = some u) : Steps (During C (ofNext allowed nxt)) s u :=
  Relation.ReflTransGen.tail h ⟨a, hC, ha, hst⟩

/-- One allowed action under the eyes of an observer. -/
theorem Reach.next_observed {τ : Type*} {see : σ → α → σ → τ → τ} {first : σ × τ → Prop}
    {C : σ × τ → α → Prop} {allowed : σ → α → Prop} {nxt : σ → α → Option σ} {s t : σ} {w : τ}
    (h : Reach first (During C (Lts.observed see (ofNext allowed nxt))) (s, w)) (a : α)
    (hC : C (s, w) a) (ha : allowed s a) (hst : nxt s a = some t) :
    Reach first (During C (Lts.observed see (ofNext allowed nxt))) (t, see s a t w) :=
  h.step ⟨hC, ⟨ha, hst⟩, rfl⟩

/-- A list of actions executed by a next-state function. -/
def exec (next : σ → α → Option σ) (s : σ) (as : List α) : Option σ :=
  as.foldlM next s

@[simp] theorem exec_nil (next : σ → α → Option σ) (s : σ) : exec next s [] = some s := rfl

theorem exec_cons (next : σ → α → Option σ) (s : σ) (a : α) (as : List α) :
    exec next s (a :: as) = (next s a).bind fun t => exec next t as := rfl

theorem exec_append (next : σ → α → Option σ) (s : σ) (as bs : List α) :
    exec next s (as ++ bs) = (exec next s as).bind fun t => exec next t bs := by
  simp only [exec, List.foldlM_append]
  rfl

/-- **The potential rule.** Where every action that earns lowers the potential
and only one that pays `k` may raise it, a run has no more of the one than
the other paid for. -/
theorem exec_potential {next : σ → α → Option σ} {Φ : σ → Nat} {pays earns : α → Bool} {k : Nat}
    (hstep : ∀ s a t, next s a = some t →
      (if earns a then 1 else 0) + Φ t ≤ Φ s + if pays a then k else 0)
    {as : List α} {s t : σ} (h : exec next s as = some t) :
    as.countP earns + Φ t ≤ Φ s + k * as.countP pays := by
  induction as generalizing s with
  | nil =>
      obtain rfl := Option.some.inj h
      simp
  | cons a as ih =>
      rw [exec_cons] at h
      obtain ⟨u, hu, hrest⟩ := Option.bind_eq_some_iff.mp h
      have hhead := hstep s a u hu
      have htail := ih hrest
      have hpaid : k * (as.countP pays + if pays a then 1 else 0)
          = k * as.countP pays + if pays a then k else 0 := by
        split <;> simp [Nat.mul_add]
      rw [List.countP_cons, List.countP_cons, hpaid]
      omega

/-- A run where every action is allowed. -/
theorem Reach.exec {nxt : σ → α → Option σ} {s t : σ}
    (h : Reach start (ofNext (fun _ _ => True) nxt) s) (as : List α)
    (hst : Lts.exec nxt s as = some t) : Reach start (ofNext (fun _ _ => True) nxt) t := by
  induction as generalizing s with
  | nil =>
      obtain rfl := Option.some.inj hst
      exact h
  | cons a as ih =>
      obtain ⟨s', hs', hrest⟩ := Option.bind_eq_some_iff.mp hst
      exact ih (h.next a trivial hs') hrest

/-- A list of actions that are allowed anywhere leads to a later state. -/
theorem Steps.exec {allowed : σ → α → Prop} {nxt : σ → α → Option σ} {s t : σ} (as : List α)
    (hallowed : ∀ a ∈ as, ∀ u, allowed u a) (hst : Lts.exec nxt s as = some t) :
    Steps (ofNext allowed nxt) s t := by
  induction as generalizing s with
  | nil =>
      obtain rfl := Option.some.inj hst
      exact .refl
  | cons a as ih =>
      obtain ⟨s', hs', hrest⟩ := Option.bind_eq_some_iff.mp hst
      have hmove : Move (ofNext allowed nxt) s s' := ⟨a, hallowed a List.mem_cons_self s, hs'⟩
      exact .head hmove (ih (fun b hb => hallowed b (List.mem_cons_of_mem a hb)) hrest)

/-- **Simulation.** Where related states answer related actions by related
states, a run has a related one beside it. -/
theorem exec_sim {τ β : Type*} {next : σ → α → Option σ} {next' : τ → β → Option τ}
    {R : σ → τ → Prop} {A : α → β → Prop}
    (hstep : ∀ s t a b s', R s t → A a b → next s a = some s' → ∃ t', next' t b = some t' ∧ R s' t')
    {as : List α} {bs : List β} (has : List.Forall₂ A as bs) {s s' : σ} {t : τ} (hR : R s t)
    (h : exec next s as = some s') : ∃ t', exec next' t bs = some t' ∧ R s' t' := by
  induction has generalizing s t with
  | nil =>
      obtain rfl := Option.some.inj h
      exact ⟨t, rfl, hR⟩
  | cons hA _ ih =>
      rw [exec_cons] at h
      obtain ⟨u, hu, hrest⟩ := Option.bind_eq_some_iff.mp h
      obtain ⟨v, hv, hR'⟩ := hstep _ _ _ _ _ hR hA hu
      obtain ⟨t', ht', hRt⟩ := ih hR' hrest
      refine ⟨t', ?_, hRt⟩
      rw [exec_cons, hv]
      exact ht'

/-! ## The own part of a run -/

/-- **Projection.** If the actions that are not `own` keep `R` with the
state they find, and the `own` ones can be taken on both sides, then the
`own` actions alone make a run, and it ends in a related state. -/
theorem exec_filter {next : σ → α → Option σ} {R : σ → σ → Prop} {ok : α → Prop} {own : α → Bool}
    (hown : ∀ s t u a, R s u → ok a → own a = true → next s a = some t →
      ∃ v, next u a = some v ∧ R t v)
    (hother : ∀ s t u a, R s u → ok a → own a = false → next s a = some t → R t u)
    {as : List α} (hok : ∀ a ∈ as, ok a) {s t u : σ} (hR : R s u)
    (h : exec next s as = some t) :
    ∃ v, exec next u (as.filter own) = some v ∧ R t v := by
  induction as generalizing s u with
  | nil =>
      obtain rfl := Option.some.inj h
      exact ⟨u, rfl, hR⟩
  | cons a as ih =>
      obtain ⟨s', hs', hrest⟩ := Option.bind_eq_some_iff.mp h
      have hoka := hok a List.mem_cons_self
      have hokas : ∀ b ∈ as, ok b := fun b hb => hok b (List.mem_cons_of_mem a hb)
      cases hmine : own a with
      | true =>
          obtain ⟨u', hu', hR'⟩ := hown s s' u a hR hoka hmine hs'
          obtain ⟨v, hv, hRv⟩ := ih hokas hR' hrest
          refine ⟨v, ?_, hRv⟩
          rw [List.filter_cons_of_pos hmine, exec_cons, hu']
          exact hv
      | false =>
          rw [List.filter_cons_of_neg (by simp [hmine])]
          exact ih hokas (hother s s' u a hR hoka hmine hs') hrest

end Lts
