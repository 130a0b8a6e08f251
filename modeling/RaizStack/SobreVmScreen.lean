import RaizStack.SobreVm

/-!
# What the envelope screen shows

Three facts of every run, whatever the screen, the wallet and the threads
do (`screen_honest`): a card that says an operation is running is that of
one that is still in flight, or shares its instant with one that is; the
decrypted figures are those of one answer, all four of them, or of none;
and an outcome on the card is what an operation returned, or the complaint
about an amount that was tapped and could not be read. A progress line can
write back a state that is old by then, so a figure or an outcome can be
an earlier one - but none is made up, and the user is never locked out.

That the card is up exactly while an operation is in flight, and that no
operation is cancelled, takes one condition (`one_at_a_time_iff`): nobody
taps `sellar` or `aportar` with an amount that cannot be read while an
operation runs. `failAmount` does not look at `busy`.
-/

namespace RaizStack

/-- What one answer of `wallet.status` writes. -/
structure Figures where
  registered : Option Bool
  spendableStroops : Option Int
  receivingStroops : Option Int
  syncedLedger : Option Int
  deriving DecidableEq, Repr

def SobreUiState.figures (ui : SobreUiState) : Figures where
  registered := ui.registered
  spendableStroops := ui.spendableStroops
  receivingStroops := ui.receivingStroops
  syncedLedger := ui.syncedLedger

theorem SobreUiState.busy_iff {ui : SobreUiState} :
    ui.busy = true ↔ ∃ card, ui.op = .running card := by
  unfold busy
  split
  · rename_i card hop
    exact iff_of_true rfl ⟨card, hop⟩
  · rename_i hop
    refine iff_of_false Bool.false_ne_true ?_
    rintro ⟨card, hcard⟩
    exact hop card hcard

namespace SobreVm

/-- Not decrypted yet. -/
def unread : Figures := ⟨none, none, none, none⟩

def figuresOf (lib : SobreLib) (answer : Json) : Figures where
  registered := some (lib.json.optBoolean answer "registered" false)
  spendableStroops := Text.parseI64 (lib.json.optString answer "spendableStroops").toList
  receivingStroops := Text.parseI64 (lib.json.optString answer "receivingStroops").toList
  syncedLedger := (some (lib.json.optLong answer "latestLedger" 0)).filter (0 < ·)

/-! ## What a step does -/

/-- The operations with an amount. -/
def TapsAmount : Act → Prop
  | .sellar _ | .aportar _ => True
  | _ => False

/-- The tap of an operation with an amount, the name it complains under and
its time. -/
inductive Taps : Act → String → Int → Prop
  | sellar (now : Int) : Taps (.sellar now) "Sellar" now
  | aportar (now : Int) : Taps (.aportar now) "Aportar" now

theorem Taps.tapsAmount {a : Act} {label : String} {now : Int} (h : Taps a label now) :
    TapsAmount a := by
  cases h <;> trivial

/-- The effect of a step on the card, the figures and the operations. -/
inductive Effect (lib : SobreLib) (s s' : SobreVm) : Act → Prop
  | still {a : Act} (hop : s'.ui.op = s.ui.op) (hfig : s'.ui.figures = s.ui.figures)
      (hops : s'.ops = s.ops) : Effect lib s s' a
  | answered (answer : Json) (hop : s'.ui.op = s.ui.op)
      (hfig : s'.ui.figures = figuresOf lib answer) (hops : s'.ops = s.ops) :
      Effect lib s s' (.statusResumes (.ok answer))
  | dismissed (hfree : s.ui.busy = false) (hop : s'.ui.op = .idle)
      (hfig : s'.ui.figures = s.ui.figures) (hops : s'.ops = s.ops) : Effect lib s s' .dismissOp
  | refused {a : Act} (label : String) (now : Int) (htap : Taps a label now)
      (hnone : amountStroops lib s.ui = none) (hop : s'.ui.op = refusedCard label now)
      (hfig : s'.ui.figures = s.ui.figures) (hops : s'.ops = s.ops) : Effect lib s s' a
  | launched {a : Act} (op : WalletOp.Op) (now : Int) (hfree : s.ui.busy = false)
      (hop : s'.ui.op = .running (firstCard op now)) (hfig : s'.ui.figures = s.ui.figures)
      (hops : s'.ops = s.ops.relaunch { op := op, startedAt := now, progress := .quiet }) :
      Effect lib s s' a
  | succeeded (j : Nat) (t : Tasks.Task OpJob) (o : TxOutcome) (now : Int)
      (hj : s.ops.tasks[j]? = some t) (hlive : t.Live) (hpc : t.job.progress = .quiet)
      (hop : s'.ui.op = okCard t.job.op o now) (hfig : s'.ui.figures = s.ui.figures)
      (hops : s'.ops = s.ops.advance j t.job true) : Effect lib s s' (.opResumes j (.ok o) now)
  | failed (j : Nat) (t : Tasks.Task OpJob) (r : Except String TxOutcome) (message : String)
      (now : Int) (hj : s.ops.tasks[j]? = some t) (hfin : t.finished = false)
      (hpc : t.job.progress = .quiet) (hr : MetaVm.resumed t r = .error message)
      (hop : s'.ui.op = failedCard t.job.op message now) (hfig : s'.ui.figures = s.ui.figures)
      (hops : s'.ops = s.ops.advance j t.job true) : Effect lib s s' (.opResumes j r now)
  | checked (j : Nat) (t : Tasks.Task OpJob) (cur : RunningCard) (line : String)
      (hj : s.ops.tasks[j]? = some t) (hfin : t.finished = false)
      (hcard : s.ui.op = .running cur) (hown : cur.startedAt = t.job.startedAt)
      (hui : s'.ui = s.ui)
      (hops : s'.ops = s.ops.advance j { t.job with progress := .checked cur line } false) :
      Effect lib s s' (.checkCard j line)
  | copied (j : Nat) (t : Tasks.Task OpJob) (cur : RunningCard) (line : String)
      (hj : s.ops.tasks[j]? = some t) (hfin : t.finished = false)
      (hpc : t.job.progress = .checked cur line) (hui : s'.ui = s.ui)
      (hops : s'.ops = s.ops.advance j
        { t.job with
          progress := .copied { s.ui with op := .running { cur with phase := line } } } false) :
      Effect lib s s' (.copyState j)
  | written (j : Nat) (t : Tasks.Task OpJob) (ui : SobreUiState) (undone : Bool)
      (hj : s.ops.tasks[j]? = some t) (hfin : t.finished = false)
      (hpc : t.job.progress = .copied ui) (hui : s'.ui = s.ui ∨ s'.ui = ui)
      (hops : s'.ops = s.ops.advance j { t.job with progress := .quiet } false) :
      Effect lib s s' (.writeState j undone)

section Inversion

variable {lib : SobreLib} {s s' : SobreVm} {a : Act}

@[simp] theorem refreshStatus_op (s : SobreVm) : s.refreshStatus.ui.op = s.ui.op := by
  unfold refreshStatus
  split <;> rfl

@[simp] theorem refreshStatus_figures (s : SobreVm) :
    s.refreshStatus.ui.figures = s.ui.figures := by
  unfold refreshStatus
  split <;> rfl

@[simp] theorem refreshStatus_ops (s : SobreVm) : s.refreshStatus.ops = s.ops := by
  unfold refreshStatus
  split <;> rfl

theorem run_effect (op : WalletOp.Op) (now : Int) : Effect lib s (s.run op now) a := by
  unfold run
  split
  · exact .still rfl rfl rfl
  · rename_i hbusy
    exact .launched op now (Bool.eq_false_iff.mpr hbusy) rfl rfl rfl

theorem runAmount_effect {label : String} {now : Int} (htap : Taps a label now)
    (op : Int → WalletOp.Op) : Effect lib s (s.runAmount lib label op now) a := by
  unfold runAmount
  split
  · rename_i hnone
    exact .refused label now htap hnone rfl rfl rfl
  · exact run_effect _ now

theorem statusResumes_effect {r : Except String Json} (h : s.statusResumes lib r = some s') :
    Effect lib s s' (.statusResumes r) := by
  unfold statusResumes at h
  split at h
  · cases h
  · split at h
    · obtain rfl := Option.some.inj h
      exact .answered _ rfl rfl rfl
    · obtain rfl := Option.some.inj h
      exact .still rfl rfl rfl

theorem opResumes_effect {j : Nat} {r : Except String TxOutcome} {now : Int}
    (h : s.opResumes j r now = some s') : Effect lib s s' (.opResumes j r now) := by
  unfold opResumes at h
  split at h
  · cases h
  · rename_i t hj
    split at h
    · cases h
    · rename_i hfin
      have hfin := Bool.eq_false_iff.mpr hfin
      split at h
      · rename_i hpc
        split at h
        · rename_i o hr
          obtain rfl := Option.some.inj h
          obtain ⟨hcan, rfl⟩ := MetaVm.resumed_eq_ok.mp hr
          exact .succeeded j t o now hj ⟨hfin, hcan⟩ hpc (refreshStatus_op _)
            (refreshStatus_figures _) (refreshStatus_ops _)
        · rename_i message hr
          obtain rfl := Option.some.inj h
          exact .failed j t r message now hj hfin hpc hr rfl rfl rfl
      · cases h

theorem atProgress_eq_some {j : Nat} {f : OpJob → Option SobreVm}
    (h : s.atProgress j f = some s') :
    ∃ t, s.ops.tasks[j]? = some t ∧ t.finished = false ∧ f t.job = some s' := by
  unfold atProgress at h
  split at h
  · cases h
  · rename_i t hj
    split at h
    · cases h
    · rename_i hfin
      exact ⟨t, hj, Bool.eq_false_iff.mpr hfin, h⟩

theorem checkCard_effect {j : Nat} {line : String} (h : s.checkCard j line = some s') :
    Effect lib s s' (.checkCard j line) := by
  obtain ⟨t, hj, hfin, h⟩ := atProgress_eq_some h
  split at h
  · rename_i cur hpc hcard
    split at h
    · rename_i hown
      obtain rfl := Option.some.inj h
      exact .checked j t cur line hj hfin hcard hown rfl rfl
    · obtain rfl := Option.some.inj h
      exact .still rfl rfl rfl
  · obtain rfl := Option.some.inj h
    exact .still rfl rfl rfl
  · cases h

theorem copyState_effect {j : Nat} (h : s.copyState j = some s') :
    Effect lib s s' (.copyState j) := by
  obtain ⟨t, hj, hfin, h⟩ := atProgress_eq_some h
  split at h
  · rename_i cur line hpc
    obtain rfl := Option.some.inj h
    exact .copied j t cur line hj hfin hpc rfl rfl
  · cases h

theorem writeState_effect {j : Nat} {undone : Bool} (h : s.writeState j undone = some s') :
    Effect lib s s' (.writeState j undone) := by
  obtain ⟨t, hj, hfin, h⟩ := atProgress_eq_some h
  split at h
  · rename_i ui hpc
    obtain rfl := Option.some.inj h
    refine .written j t ui undone hj hfin hpc ?_ rfl
    cases undone with
    | true => exact Or.inl rfl
    | false => exact Or.inr rfl
  · cases h

theorem next_effect (h : s.next lib a = some s') : Effect lib s s' a := by
  cases a with
  | onAmountChange raw =>
      obtain rfl := Option.some.inj h
      exact .still rfl rfl rfl
  | dismissOp =>
      obtain rfl := Option.some.inj h
      unfold dismissOp
      split
      · exact .still rfl rfl rfl
      · rename_i hbusy
        exact .dismissed (Bool.eq_false_iff.mpr hbusy) rfl rfl rfl
  | refreshStatus =>
      obtain rfl := Option.some.inj h
      exact .still (refreshStatus_op s) (refreshStatus_figures s) (refreshStatus_ops s)
  | abrirSobre now =>
      obtain rfl := Option.some.inj h
      exact run_effect _ now
  | sellar now =>
      obtain rfl := Option.some.inj h
      exact runAmount_effect (.sellar now) _
  | aportar now =>
      obtain rfl := Option.some.inj h
      exact runAmount_effect (.aportar now) _
  | cosecharMiSobre now =>
      obtain rfl := Option.some.inj h
      exact run_effect _ now
  | initResumes id =>
      have h : s.initResumes id = some s' := h
      unfold initResumes at h
      split at h
      · cases h
      · obtain rfl := Option.some.inj h
        exact .still (refreshStatus_op _) (refreshStatus_figures _) (refreshStatus_ops _)
  | statusResumes r => exact statusResumes_effect h
  | opResumes j r now => exact opResumes_effect h
  | checkCard j line => exact checkCard_effect h
  | copyState j => exact copyState_effect h
  | writeState j undone => exact writeState_effect h

end Inversion

/-! ## The invariant -/

/-- The card of an operation, at whatever phase. -/
def CardOf (job : OpJob) (card : RunningCard) : Prop :=
  card.op = job.op.method ∧ card.label = job.op.label ∧ card.startedAt = job.startedAt

/-- The card is that of an operation. -/
def Launched (s : SobreVm) (card : RunningCard) : Prop :=
  ∃ (j : Nat) (t : Tasks.Task OpJob), s.ops.tasks[j]? = some t ∧ CardOf t.job card

/-- An operation started at this instant has not ended. -/
def Begun (s : SobreVm) (startedAt : Int) : Prop :=
  ∃ (j : Nat) (t : Tasks.Task OpJob), s.ops.tasks[j]? = some t ∧ t.finished = false ∧
    t.job.startedAt = startedAt

/-- The operation on the card has not ended - or another has not that was
started at the same instant, which is all that a callback compares. -/
def InFlight (s : SobreVm) (card : RunningCard) : Prop :=
  ∃ (j : Nat) (t : Tasks.Task OpJob), s.ops.tasks[j]? = some t ∧ CardOf t.job card ∧
    (t.finished = false ∨ ∃ (i : Nat) (u : Tasks.Task OpJob), i ≠ j ∧
      s.ops.tasks[i]? = some u ∧ u.finished = false ∧ u.job.startedAt = t.job.startedAt)

theorem InFlight.of_begun {s : SobreVm} {card : RunningCard} (hcard : Launched s card)
    (hbegun : Begun s card.startedAt) : InFlight s card := by
  obtain ⟨j, t, hj, hown⟩ := hcard
  obtain ⟨i, u, hi, hu, hstarted⟩ := hbegun
  refine ⟨j, t, hj, hown, ?_⟩
  by_cases hij : i = j
  · subst hij
    obtain rfl := Option.some.inj (hi.symm.trans hj)
    exact Or.inl hu
  · exact Or.inr ⟨i, u, hij, hi, hu, hstarted.trans hown.2.2⟩

/-- One answer, whole, or none. -/
def FiguresFrom (lib : SobreLib) (acts : List Act) (ui : SobreUiState) : Prop :=
  ui.figures = unread ∨
    ∃ answer, Act.statusResumes (.ok answer) ∈ acts ∧ ui.figures = figuresOf lib answer

/-- The cards the run accounts for. -/
inductive Outcome (lib : SobreLib) (acts : List Act) (s : SobreVm) : OpCard → Prop
  | idle : Outcome lib acts s .idle
  | running (card : RunningCard) : Outcome lib acts s (.running card)
  | refused (pre : List Act) (a : Act) (u : SobreVm) (label : String) (now : Int)
      (hpre : pre ++ [a] <+: acts) (hu : Lts.exec (next lib) create pre = some u)
      (htap : Taps a label now) (hnone : amountStroops lib u.ui = none) :
      Outcome lib acts s (refusedCard label now)
  | ok (j : Nat) (t : Tasks.Task OpJob) (o : TxOutcome) (now : Int)
      (hmem : Act.opResumes j (.ok o) now ∈ acts) (hj : s.ops.tasks[j]? = some t)
      (hfin : t.finished = true) (hcan : t.cancelled = false) :
      Outcome lib acts s (okCard t.job.op o now)
  | failed (j : Nat) (t : Tasks.Task OpJob) (r : Except String TxOutcome) (message : String)
      (now : Int) (hmem : Act.opResumes j r now ∈ acts) (hj : s.ops.tasks[j]? = some t)
      (hfin : t.finished = true) (hr : MetaVm.resumed t r = .error message) :
      Outcome lib acts s (failedCard t.job.op message now)

/-- What an open callback holds. -/
def CallbackOk (lib : SobreLib) (acts : List Act) (s : SobreVm) (t : Tasks.Task OpJob) : Prop :=
  match t.job.progress with
  | .quiet => True
  | .checked cur _ => t.finished = false ∧ Launched s cur ∧ cur.startedAt = t.job.startedAt
  | .copied ui => t.finished = false ∧ FiguresFrom lib acts ui ∧
      ∃ card, ui.op = .running card ∧ Launched s card ∧ card.startedAt = t.job.startedAt

structure ScreenInv (lib : SobreLib) (acts : List Act) (s : SobreVm) : Prop where
  run : Lts.exec (next lib) create acts = some s
  launched : ∀ card, s.ui.op = .running card → Launched s card
  busy : ∀ card, s.ui.op = .running card → Begun s card.startedAt
  callbacks : ∀ (j : Nat) (t : Tasks.Task OpJob), s.ops.tasks[j]? = some t →
    CallbackOk lib acts s t
  figures : FiguresFrom lib acts s.ui
  outcome : Outcome lib acts s s.ui.op

section Invariant

variable {lib : SobreLib} {s s' : SobreVm} {acts : List Act} {a : Act}

theorem FiguresFrom.append {ui : SobreUiState} (h : FiguresFrom lib acts ui) (acts' : List Act) :
    FiguresFrom lib (acts ++ acts') ui :=
  h.imp_right fun ⟨answer, hmem, hfig⟩ => ⟨answer, List.mem_append_left _ hmem, hfig⟩

/-- What has ended stays as it is. -/
theorem Effect.ended (h : Effect lib s s' a) {j : Nat} {t : Tasks.Task OpJob}
    (hj : s.ops.tasks[j]? = some t) (hfin : t.finished = true) : s'.ops.tasks[j]? = some t := by
  have hadvanced : ∀ {i u job fin}, s.ops.tasks[i]? = some u → u.finished = false →
      s'.ops = s.ops.advance i job fin → s'.ops.tasks[j]? = some t := by
    intro i u job fin hi hunfinished hops
    have hne : j ≠ i := by
      rintro rfl
      obtain rfl := Option.some.inj (hj.symm.trans hi)
      rw [hfin] at hunfinished
      cases hunfinished
    rw [hops, Tasks.Slot.advance_of_ne hne, hj]
  cases h with
  | still hop hfig hops => rw [hops, hj]
  | answered answer hop hfig hops => rw [hops, hj]
  | dismissed hfree hop hfig hops => rw [hops, hj]
  | refused label now htap hnone hop hfig hops => rw [hops, hj]
  | launched op now hfree hop hfig hops =>
      rw [hops]
      exact Tasks.Slot.relaunch_finished hj hfin
  | succeeded i u o now hi hlive hpc hop hfig hops => exact hadvanced hi hlive.1 hops
  | failed i u r message now hi hu hpc hr hop hfig hops => exact hadvanced hi hu hops
  | checked i u cur line hi hu hcard hown hui hops => exact hadvanced hi hu hops
  | copied i u cur line hi hu hpc hui hops => exact hadvanced hi hu hops
  | written i u ui undone hi hu hpc hui hops => exact hadvanced hi hu hops

/-- An operation keeps its name and its instant. -/
theorem Effect.kept (h : Effect lib s s' a) {j : Nat} {t : Tasks.Task OpJob}
    (hj : s.ops.tasks[j]? = some t) :
    ∃ t', s'.ops.tasks[j]? = some t' ∧ t'.job.op = t.job.op ∧
      t'.job.startedAt = t.job.startedAt := by
  have hsame : s'.ops = s.ops → ∃ t', s'.ops.tasks[j]? = some t' ∧ t'.job.op = t.job.op ∧
      t'.job.startedAt = t.job.startedAt := fun hops => ⟨t, by rw [hops, hj], rfl, rfl⟩
  have hadvanced : ∀ {i u job fin}, s.ops.tasks[i]? = some u →
      s'.ops = s.ops.advance i job fin → job.op = u.job.op → job.startedAt = u.job.startedAt →
      ∃ t', s'.ops.tasks[j]? = some t' ∧ t'.job.op = t.job.op ∧
        t'.job.startedAt = t.job.startedAt := by
    intro i u job fin hi hops hop hstarted
    by_cases hij : j = i
    · subst hij
      obtain rfl := Option.some.inj (hj.symm.trans hi)
      rw [hops]
      exact ⟨_, Tasks.Slot.advance_self hj, hop, hstarted⟩
    · exact ⟨t, by rw [hops, Tasks.Slot.advance_of_ne hij, hj], rfl, rfl⟩
  cases h with
  | still hop hfig hops => exact hsame hops
  | answered answer hop hfig hops => exact hsame hops
  | dismissed hfree hop hfig hops => exact hsame hops
  | refused label now htap hnone hop hfig hops => exact hsame hops
  | launched op now hfree hop hfig hops =>
      obtain ⟨t', ht', hjob, -⟩ := Tasks.Slot.relaunch_of_lt hj
      exact ⟨t', hops ▸ ht', by rw [hjob], by rw [hjob]⟩
  | succeeded i u o now hi hlive hpc hop hfig hops => exact hadvanced hi hops rfl rfl
  | failed i u r message now hi hu hpc hr hop hfig hops => exact hadvanced hi hops rfl rfl
  | checked i u cur line hi hu hcard hown hui hops => exact hadvanced hi hops rfl rfl
  | copied i u cur line hi hu hpc hui hops => exact hadvanced hi hops rfl rfl
  | written i u ui undone hi hu hpc hui hops => exact hadvanced hi hops rfl rfl

theorem Launched.step {card : RunningCard} (h : Launched s card) (hstep : Effect lib s s' a) :
    Launched s' card := by
  obtain ⟨j, t, hj, hown⟩ := h
  obtain ⟨t', hj', hop, hstarted⟩ := hstep.kept hj
  exact ⟨j, t', hj', by rw [CardOf, hop, hstarted]; exact hown⟩

theorem CallbackOk.step {t : Tasks.Task OpJob} (h : CallbackOk lib acts s t)
    (hstep : Effect lib s s' a) : CallbackOk lib (acts ++ [a]) s' t := by
  unfold CallbackOk at h ⊢
  split
  · trivial
  · rename_i cur line hpc
    rw [hpc] at h
    exact ⟨h.1, h.2.1.step hstep, h.2.2⟩
  · rename_i ui hpc
    rw [hpc] at h
    obtain ⟨hfin, hfig, card, hcard, hlaunched, hstarted⟩ := h
    exact ⟨hfin, hfig.append [a], card, hcard, hlaunched.step hstep, hstarted⟩

theorem Outcome.step {card : OpCard} (h : Outcome lib acts s card) (hstep : Effect lib s s' a) :
    Outcome lib (acts ++ [a]) s' card := by
  cases h with
  | idle => exact .idle
  | running card => exact .running card
  | refused pre b u label now hpre hu htap hnone =>
      exact .refused pre b u label now (hpre.trans (List.prefix_append acts [a])) hu htap hnone
  | ok j t o now hmem hj hfin hcan =>
      exact .ok j t o now (List.mem_append_left _ hmem) (hstep.ended hj hfin) hfin hcan
  | failed j t r message now hmem hj hfin hr =>
      exact .failed j t r message now (List.mem_append_left _ hmem) (hstep.ended hj hfin) hfin hr

/-- An operation in flight stays so while only its callback moves. -/
theorem Begun.advance {j : Nat} {t : Tasks.Task OpJob} {job : OpJob} {startedAt : Int}
    (h : Begun s startedAt) (hj : s.ops.tasks[j]? = some t) (hfin : t.finished = false)
    (hops : s'.ops = s.ops.advance j job false) (hjob : job.startedAt = t.job.startedAt) :
    Begun s' startedAt := by
  obtain ⟨i, u, hi, hu, hstarted⟩ := h
  by_cases hij : i = j
  · subst hij
    obtain rfl := Option.some.inj (hi.symm.trans hj)
    refine ⟨i, _, hops ▸ Tasks.Slot.advance_self hj, ?_, ?_⟩
    · rw [hfin]
      rfl
    · rw [← hstarted, ← hjob]
  · exact ⟨i, u, by rw [hops, Tasks.Slot.advance_of_ne hij, hi], hu, hstarted⟩

theorem Begun.congr {startedAt : Int} (h : Begun s startedAt) (hops : s'.ops = s.ops) :
    Begun s' startedAt := by
  obtain ⟨j, t, hj, hfin, hstarted⟩ := h
  exact ⟨j, t, by rw [hops, hj], hfin, hstarted⟩

/-- The callbacks after a step that moves one operation. -/
theorem callbacks_advance {j : Nat} {t : Tasks.Task OpJob} {job : OpJob} {fin : Bool}
    (h : ∀ (j : Nat) (t : Tasks.Task OpJob), s.ops.tasks[j]? = some t →
      CallbackOk lib acts s' t)
    (hj : s.ops.tasks[j]? = some t) (hops : s'.ops = s.ops.advance j job fin)
    (hnew : CallbackOk lib acts s' { t with job := job, finished := t.finished || fin }) :
    ∀ (i : Nat) (u : Tasks.Task OpJob), s'.ops.tasks[i]? = some u → CallbackOk lib acts s' u := by
  intro i u hi
  rw [hops] at hi
  obtain ⟨u₀, hu₀, ⟨rfl, rfl⟩ | ⟨-, rfl⟩⟩ := Tasks.Slot.getElem?_advance hi
  · obtain rfl := Option.some.inj (hj.symm.trans hu₀)
    exact hnew
  · exact h i u hu₀

theorem ScreenInv.run_next (h : ScreenInv lib acts s) (hnext : s.next lib a = some s') :
    Lts.exec (next lib) create (acts ++ [a]) = some s' := by
  rw [Lts.exec_append, h.run, Option.bind_some, Lts.exec_cons, hnext]
  rfl

theorem ScreenInv.launched_next (h : ScreenInv lib acts s) (hnext : s.next lib a = some s')
    {card : RunningCard} (hcard : s.ui.op = .running card) : Launched s' card :=
  (h.launched card hcard).step (next_effect hnext)

theorem ScreenInv.callbacks_next (h : ScreenInv lib acts s) (hnext : s.next lib a = some s')
    (j : Nat) (t : Tasks.Task OpJob) (hj : s.ops.tasks[j]? = some t) :
    CallbackOk lib (acts ++ [a]) s' t :=
  (h.callbacks j t hj).step (next_effect hnext)

theorem ScreenInv.figures_next (h : ScreenInv lib acts s)
    (hfig : s'.ui.figures = s.ui.figures) : FiguresFrom lib (acts ++ [a]) s'.ui := by
  have hbefore := h.figures.append [a]
  unfold FiguresFrom at hbefore ⊢
  rwa [hfig]

/-- A card that the step leaves alone is still accounted for. -/
theorem ScreenInv.outcome_next (h : ScreenInv lib acts s) (hnext : s.next lib a = some s')
    (hop : s'.ui.op = s.ui.op) : Outcome lib (acts ++ [a]) s' s'.ui.op :=
  hop ▸ h.outcome.step (next_effect hnext)

/-- The operations are left alone, and no other card comes to run. -/
theorem ScreenInv.left (h : ScreenInv lib acts s) (hnext : s.next lib a = some s')
    (hops : s'.ops = s.ops)
    (hbusy : ∀ card, s'.ui.op = .running card → s.ui.op = .running card)
    (hfig : FiguresFrom lib (acts ++ [a]) s'.ui)
    (hout : Outcome lib (acts ++ [a]) s' s'.ui.op) : ScreenInv lib (acts ++ [a]) s' where
  run := h.run_next hnext
  launched card hcard := h.launched_next hnext (hbusy card hcard)
  busy card hcard := (h.busy card (hbusy card hcard)).congr hops
  callbacks j t hj := h.callbacks_next hnext j t (hops ▸ hj)
  figures := hfig
  outcome := hout

/-- An operation ends, and its card with it. -/
theorem ScreenInv.ended (h : ScreenInv lib acts s) (hnext : s.next lib a = some s') {j : Nat}
    {t : Tasks.Task OpJob} (hj : s.ops.tasks[j]? = some t) (hpc : t.job.progress = .quiet)
    (hops : s'.ops = s.ops.advance j t.job true)
    (hover : ∀ card, s'.ui.op ≠ .running card) (hfig : s'.ui.figures = s.ui.figures)
    (hout : Outcome lib (acts ++ [a]) s' s'.ui.op) : ScreenInv lib (acts ++ [a]) s' where
  run := h.run_next hnext
  launched card hcard := absurd hcard (hover card)
  busy card hcard := absurd hcard (hover card)
  callbacks := by
    refine callbacks_advance (h.callbacks_next hnext) hj hops ?_
    unfold CallbackOk
    rw [hpc]
    trivial
  figures := h.figures_next hfig
  outcome := hout

/-- The callback of an operation moves on, behind the screen. -/
theorem ScreenInv.moved (h : ScreenInv lib acts s) (hnext : s.next lib a = some s') {j : Nat}
    {t : Tasks.Task OpJob} {progress : Progress} (hj : s.ops.tasks[j]? = some t)
    (hfin : t.finished = false)
    (hops : s'.ops = s.ops.advance j { t.job with progress := progress } false)
    (hui : s'.ui = s.ui)
    (hnew : CallbackOk lib (acts ++ [a]) s'
      { t with job := { t.job with progress := progress }, finished := t.finished || false }) :
    ScreenInv lib (acts ++ [a]) s' where
  run := h.run_next hnext
  launched _ hcard := h.launched_next hnext (hui ▸ hcard)
  busy _ hcard := (h.busy _ (hui ▸ hcard)).advance hj hfin hops rfl
  callbacks := callbacks_advance (h.callbacks_next hnext) hj hops hnew
  figures := h.figures_next (congrArg _ hui)
  outcome := h.outcome_next hnext (congrArg _ hui)

theorem ScreenInv.step (h : ScreenInv lib acts s) (hnext : s.next lib a = some s') :
    ScreenInv lib (acts ++ [a]) s' := by
  have hcallbacks := h.callbacks_next hnext
  have hlast : a ∈ acts ++ [a] := List.mem_append_right _ (List.mem_singleton_self _)
  cases next_effect hnext with
  | still hop hfig hops =>
      exact h.left hnext hops (fun _ hcard => hop ▸ hcard) (h.figures_next hfig)
        (h.outcome_next hnext hop)
  | answered answer hop hfig hops =>
      exact h.left hnext hops (fun _ hcard => hop ▸ hcard) (Or.inr ⟨answer, hlast, hfig⟩)
        (h.outcome_next hnext hop)
  | dismissed hfree hop hfig hops =>
      refine h.left hnext hops (fun card hcard => ?_) (h.figures_next hfig) (hop ▸ .idle)
      rw [hop] at hcard
      cases hcard
  | refused label now htap hamount hop hfig hops =>
      refine h.left hnext hops (fun card hcard => ?_) (h.figures_next hfig)
        (hop ▸ .refused acts a s label now (List.prefix_refl _) h.run htap hamount)
      rw [hop] at hcard
      cases hcard
  | launched op now hfree hop hfig hops =>
      have hnew : s'.ops.tasks[s.ops.tasks.length]? = some ⟨⟨op, now, .quiet⟩, false, false⟩ := by
        rw [hops]
        exact Tasks.Slot.getElem?_relaunched_last _ _
      refine ⟨h.run_next hnext, fun card hcard => ?_, fun card hcard => ?_, fun j t hj => ?_,
        h.figures_next hfig, hop ▸ .running _⟩
      · obtain rfl := OpCard.running.inj (hop.symm.trans hcard)
        exact ⟨_, _, hnew, rfl, rfl, rfl⟩
      · obtain rfl := OpCard.running.inj (hop.symm.trans hcard)
        exact ⟨_, _, hnew, rfl, rfl⟩
      · rw [hops] at hj
        rcases Tasks.Slot.relaunch_cases hj with rfl | ⟨t₀, ht₀, hjob, hfin⟩
        · exact trivial
        · have hold := hcallbacks j t₀ ht₀
          unfold CallbackOk at hold ⊢
          rwa [hjob, hfin]
  | succeeded j t o now hj hlive hpc hop hfig hops =>
      refine h.ended hnext hj hpc hops (fun card hcard => ?_) hfig ?_
      · rw [hop] at hcard
        cases hcard
      · rw [hop]
        exact .ok j { t with finished := t.finished || true } o now hlast
          (hops ▸ Tasks.Slot.advance_self hj) (Bool.or_true _) hlive.2
  | failed j t r message now hj hfin hpc hr hop hfig hops =>
      refine h.ended hnext hj hpc hops (fun card hcard => ?_) hfig ?_
      · rw [hop] at hcard
        cases hcard
      · rw [hop]
        exact .failed j { t with finished := t.finished || true } r message now hlast
          (hops ▸ Tasks.Slot.advance_self hj) (Bool.or_true _) hr
  | checked j t cur line hj hfin hcard hown hui hops =>
      exact h.moved hnext hj hfin hops hui
        ⟨(Bool.or_false _).trans hfin, h.launched_next hnext hcard, hown⟩
  | copied j t cur line hj hfin hpc hui hops =>
      have hopen := hcallbacks j t hj
      rw [CallbackOk, hpc] at hopen
      exact h.moved hnext hj hfin hops hui
        ⟨(Bool.or_false _).trans hfin, h.figures.append [_], _, rfl, hopen.2⟩
  | written j t ui undone hj hfin hpc hui hops =>
      have hopen := hcallbacks j t hj
      rw [CallbackOk, hpc] at hopen
      obtain ⟨-, hfig, own, hown, hof, hstarted⟩ := hopen
      rcases hui with hui | hui
      · exact h.moved hnext hj hfin hops hui trivial
      · have hrunning : ∀ card, s'.ui.op = .running card → card = own := by
          intro card hcard
          rw [hui, hown] at hcard
          exact (OpCard.running.inj hcard).symm
        refine ⟨h.run_next hnext, fun card hcard => ?_, fun card hcard => ?_,
          callbacks_advance hcallbacks hj hops trivial, hui ▸ hfig, ?_⟩
        · rw [hrunning card hcard]
          exact hof
        · rw [hrunning card hcard]
          refine ⟨j, { t with
            job := { t.job with progress := .quiet }
            finished := t.finished || false }, ?_, ?_, hstarted.symm⟩
          · rw [hops, Tasks.Slot.advance_self hj]
          · exact (Bool.or_false _).trans hfin
        · rw [hui, hown]
          exact .running own

theorem ScreenInv.exec {acts' : List Act} (h : ScreenInv lib acts s)
    (hrun : Lts.exec (next lib) s acts' = some s') : ScreenInv lib (acts ++ acts') s' := by
  induction acts' generalizing acts s with
  | nil =>
      obtain rfl := Option.some.inj hrun
      rwa [List.append_nil]
  | cons a acts' ih =>
      rw [Lts.exec_cons] at hrun
      obtain ⟨u, hu, hrest⟩ := Option.bind_eq_some_iff.mp hrun
      have hnext := ih (h.step hu) hrest
      rwa [List.append_assoc] at hnext

theorem screenInv_create : ScreenInv lib [] create where
  run := rfl
  launched card hcard := by cases hcard
  busy card hcard := by cases hcard
  callbacks j t hj := by cases hj
  figures := Or.inl rfl
  outcome := .idle

end Invariant

/-- **The screen makes nothing up.** In every run, whatever lines the IO
threads write and whatever they overwrite: a running card is that of an
operation in flight, the figures are one answer's or nobody's, and the
outcome on the card is one an operation came to, or the complaint of a
tap. -/
theorem screen_honest {lib : SobreLib} {acts : List Act} {s : SobreVm}
    (h : Lts.exec (next lib) create acts = some s) :
    (∀ card, s.ui.op = .running card → InFlight s card) ∧
      FiguresFrom lib acts s.ui ∧ Outcome lib acts s s.ui.op := by
  have hinv : ScreenInv lib acts s := screenInv_create.exec h
  exact ⟨fun card hcard => .of_begun (hinv.launched card hcard) (hinv.busy card hcard),
    hinv.figures, hinv.outcome⟩

/-! ## One operation at a time -/

/-- A tap that puts up its complaint over the card of a running operation. -/
def FailsBusy (lib : SobreLib) (s : SobreVm) (a : Act) : Prop :=
  TapsAmount a ∧ s.ui.busy = true ∧ amountStroops lib s.ui = none

/-- The screen is busy exactly while an operation is in flight, which is
the one on the card; and none was ever cancelled. -/
structure OneAtATime (s : SobreVm) : Prop where
  busy : s.ui.busy = true ↔ ¬ s.ops.Idle
  card : ∀ card, s.ui.op = .running card → ∃ job, s.ops.newest = some job ∧ CardOf job card
  uncut : s.ops.Uncut

/-- The card an open callback is going to write is its own. -/
def CallbackOwn (t : Tasks.Task OpJob) : Prop :=
  match t.job.progress with
  | .quiet => True
  | .checked cur _ => t.finished = false ∧ CardOf t.job cur
  | .copied ui => t.finished = false ∧ ∃ card, ui.op = .running card ∧ CardOf t.job card

structure OneInv (s : SobreVm) : Prop extends OneAtATime s where
  callbacks : ∀ (j : Nat) (t : Tasks.Task OpJob), s.ops.tasks[j]? = some t → CallbackOwn t

section OneAtATime

variable {lib : SobreLib} {s s' : SobreVm} {acts : List Act} {a : Act}

theorem not_idle_of_unfinished {j : Nat} {t : Tasks.Task OpJob} (hj : s.ops.tasks[j]? = some t)
    (hfin : t.finished = false) : ¬ s.ops.Idle := by
  intro hidle
  rw [hidle j t hj] at hfin
  cases hfin

/-- Where nothing was cancelled, the end of one operation is the end of all. -/
theorem idle_advance (h : s.ops.Uncut) {j : Nat} {t : Tasks.Task OpJob} {job : OpJob}
    (hj : s.ops.tasks[j]? = some t) (hfin : t.finished = false) :
    (s.ops.advance j job true).Idle := by
  intro i u hi
  obtain ⟨u₀, hu₀, ⟨-, rfl⟩ | ⟨hij, rfl⟩⟩ := Tasks.Slot.getElem?_advance hi
  · exact Bool.or_true _
  · by_contra hunfinished
    have hlive : u.Live := ⟨Bool.eq_false_iff.mpr hunfinished, h i u hu₀⟩
    have hlast := s.ops.live_last i u hu₀ hlive
    have hlast' := s.ops.live_last j t hj ⟨hfin, h j t hj⟩
    omega

theorem not_idle_advance {j : Nat} {t : Tasks.Task OpJob} {job : OpJob}
    (hj : s.ops.tasks[j]? = some t) (hfin : t.finished = false) :
    ¬ (s.ops.advance j job false).Idle := by
  intro hidle
  have hfin' := hidle j _ (Tasks.Slot.advance_self hj)
  rw [hfin] at hfin'
  cases hfin'

theorem OneInv.congr (h : OneInv s) (hop : s'.ui.op = s.ui.op) (hops : s'.ops = s.ops) :
    OneInv s' := by
  have hbusy : s'.ui.busy = s.ui.busy := by rw [SobreUiState.busy, hop, SobreUiState.busy]
  refine ⟨⟨?_, ?_, hops ▸ h.uncut⟩, hops ▸ h.callbacks⟩
  · rw [hbusy, hops]
    exact h.busy
  · rw [hop, hops]
    exact h.card

/-- A card that is not a running one, when nothing runs. -/
theorem OneInv.settled (hidle : s'.ops.Idle) (hop : ∀ card, s'.ui.op ≠ .running card)
    (huncut : s'.ops.Uncut)
    (hcallbacks : ∀ (j : Nat) (t : Tasks.Task OpJob), s'.ops.tasks[j]? = some t → CallbackOwn t) :
    OneInv s' where
  busy := by
    refine iff_of_false (fun hbusy => ?_) (not_not.mpr hidle)
    obtain ⟨card, hcard⟩ := SobreUiState.busy_iff.mp hbusy
    exact hop card hcard
  card card hcard := absurd hcard (hop card)
  uncut := huncut
  callbacks := hcallbacks

theorem callbackOwn_advance {j : Nat} {t : Tasks.Task OpJob} {job : OpJob} {fin : Bool}
    (h : ∀ (j : Nat) (t : Tasks.Task OpJob), s.ops.tasks[j]? = some t → CallbackOwn t)
    (hj : s.ops.tasks[j]? = some t)
    (hnew : CallbackOwn { t with job := job, finished := t.finished || fin }) :
    ∀ (i : Nat) (u : Tasks.Task OpJob), (s.ops.advance j job fin).tasks[i]? = some u →
      CallbackOwn u := by
  intro i u hi
  obtain ⟨u₀, hu₀, ⟨rfl, rfl⟩ | ⟨-, rfl⟩⟩ := Tasks.Slot.getElem?_advance hi
  · obtain rfl := Option.some.inj (hj.symm.trans hu₀)
    exact hnew
  · exact h i u hu₀

/-- The operation that ends. -/
theorem OneInv.ended (h : OneInv s) {j : Nat} {t : Tasks.Task OpJob}
    (hj : s.ops.tasks[j]? = some t) (hfin : t.finished = false) (hpc : t.job.progress = .quiet)
    (hop : ∀ card, s'.ui.op ≠ .running card) (hops : s'.ops = s.ops.advance j t.job true) :
    OneInv s' := by
  refine .settled ?_ hop ?_ ?_
  · rw [hops]
    exact idle_advance h.uncut hj hfin
  · rw [hops]
    exact h.uncut.advance
  · rw [hops]
    refine callbackOwn_advance h.callbacks hj ?_
    unfold CallbackOwn
    rw [hpc]
    trivial

/-- The callback of the operation in flight moves on. -/
theorem OneInv.moved (h : OneInv s) {j : Nat} {t : Tasks.Task OpJob} {progress : Progress}
    (hj : s.ops.tasks[j]? = some t) (hfin : t.finished = false)
    (hops : s'.ops = s.ops.advance j { t.job with progress := progress } false)
    (hop : s'.ui.op = s.ui.op ∨ ∃ card, s'.ui.op = .running card ∧ CardOf t.job card)
    (hnew : CallbackOwn
      { t with job := { t.job with progress := progress }, finished := t.finished || false }) :
    OneInv s' := by
  have hlive : t.Live := ⟨hfin, h.uncut j t hj⟩
  have hnewest : s'.ops.newest = some { t.job with progress := progress } := by
    rw [hops]
    exact Tasks.Slot.newest_advance hj hlive
  have hbusy : s.ui.busy = true := h.busy.mpr (not_idle_of_unfinished hj hfin)
  obtain ⟨old, hold⟩ := SobreUiState.busy_iff.mp hbusy
  -- the newest operation is the one that moves, before and after
  have hrunning : ∃ card, s'.ui.op = .running card ∧ CardOf t.job card := by
    rcases hop with hop | hop
    · obtain ⟨job, hjob, hcard⟩ := h.card old hold
      have hjob' : s.ops.newest = some t.job := by
        have hlast := s.ops.live_last j t hj hlive
        rw [Tasks.Slot.newest, show s.ops.tasks.length - 1 = j by omega, hj]
        rfl
      obtain rfl := Option.some.inj (hjob.symm.trans hjob')
      exact ⟨old, hop.trans hold, hcard⟩
    · exact hop
  obtain ⟨card, hcard, hown⟩ := hrunning
  refine ⟨⟨?_, ?_, ?_⟩, ?_⟩
  · refine iff_of_true (SobreUiState.busy_iff.mpr ⟨card, hcard⟩) ?_
    rw [hops]
    exact not_idle_advance hj hfin
  · intro card' hcard'
    obtain rfl := OpCard.running.inj (hcard.symm.trans hcard')
    exact ⟨_, hnewest, hown⟩
  · rw [hops]
    exact h.uncut.advance
  · rw [hops]
    exact callbackOwn_advance h.callbacks hj hnew

theorem OneInv.step (h : OneInv s) (hcut : ¬ FailsBusy lib s a) (hstep : Effect lib s s' a) :
    OneInv s' := by
  have hidle : s.ui.busy = false → s.ops.Idle := by
    intro hfree
    by_contra hflight
    rw [h.busy.mpr hflight] at hfree
    cases hfree
  cases hstep with
  | still hop hfig hops => exact h.congr hop hops
  | answered answer hop hfig hops => exact h.congr hop hops
  | dismissed hfree hop hfig hops =>
      refine .settled (hops ▸ hidle hfree) (fun card hcard => ?_) (hops ▸ h.uncut)
        (hops ▸ h.callbacks)
      rw [hop] at hcard
      cases hcard
  | refused label now htap hnone hop hfig hops =>
      have hfree : s.ui.busy = false :=
        Bool.eq_false_iff.mpr fun hbusy => hcut ⟨htap.tapsAmount, hbusy, hnone⟩
      refine .settled (hops ▸ hidle hfree) (fun card hcard => ?_) (hops ▸ h.uncut)
        (hops ▸ h.callbacks)
      rw [hop] at hcard
      cases hcard
  | launched op now hfree hop hfig hops =>
      have hnew : s'.ops.tasks[s.ops.tasks.length]? =
          some ⟨⟨op, now, .quiet⟩, false, false⟩ := by
        rw [hops]
        exact Tasks.Slot.getElem?_relaunched_last _ _
      refine ⟨⟨?_, ?_, ?_⟩, ?_⟩
      · exact iff_of_true (SobreUiState.busy_iff.mpr ⟨_, hop⟩) (not_idle_of_unfinished hnew rfl)
      · intro card hcard
        obtain rfl := OpCard.running.inj (hop.symm.trans hcard)
        rw [hops]
        exact ⟨_, Tasks.Slot.newest_relaunch _ _, rfl, rfl, rfl⟩
      · rw [hops]
        exact h.uncut.relaunch (hidle hfree)
      · intro j t hj
        rw [hops] at hj
        rcases Tasks.Slot.relaunch_cases hj with rfl | ⟨t₀, ht₀, hjob, hfin⟩
        · exact trivial
        · have hold := h.callbacks j t₀ ht₀
          unfold CallbackOwn at hold ⊢
          rwa [hjob, hfin]
  | succeeded j t o now hj hlive hpc hop hfig hops =>
      refine h.ended hj hlive.1 hpc (fun card hcard => ?_) hops
      rw [hop] at hcard
      cases hcard
  | failed j t r message now hj hfin hpc hr hop hfig hops =>
      refine h.ended hj hfin hpc (fun card hcard => ?_) hops
      rw [hop] at hcard
      cases hcard
  | checked j t cur line hj hfin hcard hown hui hops =>
      refine h.moved hj hfin hops (Or.inl (congrArg _ hui)) ⟨(Bool.or_false _).trans hfin, ?_⟩
      obtain ⟨job, hnewest, hcur⟩ := h.card cur hcard
      have hlast := s.ops.live_last j t hj ⟨hfin, h.uncut j t hj⟩
      have hjob : s.ops.newest = some t.job := by
        rw [Tasks.Slot.newest, show s.ops.tasks.length - 1 = j by omega, hj]
        rfl
      obtain rfl := Option.some.inj (hnewest.symm.trans hjob)
      exact hcur
  | copied j t cur line hj hfin hpc hui hops =>
      have hopen := h.callbacks j t hj
      rw [CallbackOwn, hpc] at hopen
      exact h.moved hj hfin hops (Or.inl (congrArg _ hui))
        ⟨(Bool.or_false _).trans hfin, _, rfl, hopen.2⟩
  | written j t ui undone hj hfin hpc hui hops =>
      have hopen := h.callbacks j t hj
      rw [CallbackOwn, hpc] at hopen
      obtain ⟨-, card, hcard, hown⟩ := hopen
      refine h.moved hj hfin hops ?_ trivial
      rcases hui with hui | hui
      · exact Or.inl (congrArg _ hui)
      · exact Or.inr ⟨card, hui ▸ hcard, hown⟩

/-- The tap that breaks it. -/
theorem not_oneAtATime_of_failsBusy (h : OneAtATime s) (hfails : FailsBusy lib s a)
    (hnext : s.next lib a = some s') : ¬ OneAtATime s' := by
  obtain ⟨ha, hbusy, hnone⟩ := hfails
  have hfailed : ∀ label op now, s.runAmount lib label op now = s.failAmount label now := by
    intro label op now
    rw [runAmount, hnone]
  have hs' : ∃ label now, s' = s.failAmount label now := by
    cases a with
    | sellar now => exact ⟨_, now, (Option.some.inj hnext).symm.trans (hfailed _ _ _)⟩
    | aportar now => exact ⟨_, now, (Option.some.inj hnext).symm.trans (hfailed _ _ _)⟩
    | _ => exact ha.elim
  obtain ⟨label, now, rfl⟩ := hs'
  intro hone
  obtain ⟨card, hcard⟩ := SobreUiState.busy_iff.mp (hone.busy.mpr (h.busy.mp hbusy))
  cases hcard

theorem oneInv_create : OneInv create where
  busy := iff_of_false Bool.false_ne_true (not_not.mpr fun _ _ hj => by cases hj)
  card card hcard := by cases hcard
  uncut := Tasks.Slot.empty_uncut
  callbacks j t hj := by cases hj

/-- The states of a run, told by the actions before them. -/
theorem oneInv_exec (hrun : Lts.exec (next lib) create acts = some s)
    (hcut : ∀ pre a u, pre ++ [a] <+: acts → Lts.exec (next lib) create pre = some u →
      ¬ FailsBusy lib u a) : OneInv s := by
  induction acts using List.reverseRecOn generalizing s with
  | nil =>
      obtain rfl := Option.some.inj hrun
      exact oneInv_create
  | append_singleton acts a ih =>
      rw [Lts.exec_append] at hrun
      obtain ⟨u, hu, hlast⟩ := Option.bind_eq_some_iff.mp hrun
      rw [Lts.exec_cons] at hlast
      obtain ⟨v, hv, hnil⟩ := Option.bind_eq_some_iff.mp hlast
      obtain rfl := Option.some.inj hnil
      have hbefore := ih hu fun pre b w hpre => hcut pre b w
        (hpre.trans (List.prefix_append acts [a]))
      exact hbefore.step (hcut acts a u (List.prefix_refl _) hu) (next_effect hv)

end OneAtATime

/-- **When there is one operation at a time.** In every state of a run the
screen is busy exactly while the operation on its card is in flight, and
no operation was ever cancelled - if and only if at no point of the run
an amount that cannot be read is tapped while the screen is busy. -/
theorem one_at_a_time_iff {lib : SobreLib} {acts : List Act} {s : SobreVm}
    (hrun : Lts.exec (next lib) create acts = some s) :
    (∀ pre u, pre <+: acts → Lts.exec (next lib) create pre = some u → OneAtATime u) ↔
      ∀ pre a u, pre ++ [a] <+: acts → Lts.exec (next lib) create pre = some u →
        ¬ FailsBusy lib u a := by
  constructor
  · rintro h pre a u ⟨post, rfl⟩ hu hfails
    rw [Lts.exec_append, Lts.exec_append, hu, Option.bind_some] at hrun
    obtain ⟨v, hv, -⟩ := Option.bind_eq_some_iff.mp hrun
    obtain ⟨w, hw, hnil⟩ := Option.bind_eq_some_iff.mp hv
    obtain rfl := Option.some.inj hnil
    have hbefore := h pre u ⟨[a] ++ post, by simp⟩ hu
    have hafter := h (pre ++ [a]) w ⟨post, rfl⟩ (by
      rw [Lts.exec_append, hu, Option.bind_some]
      exact hv)
    exact not_oneAtATime_of_failsBusy hbefore hfails hw hafter
  · rintro h pre u ⟨post, rfl⟩ hu
    refine (oneInv_exec hu fun pre' a w hpre => h pre' a w ?_).toOneAtATime
    exact hpre.trans (List.prefix_append pre post)

/-! ## Runs -/

/-- A wallet whose amounts are plain numbers. -/
def plainLib : SobreLib where
  json := ⟨fun _ => none, fun _ => none, fun _ => ""⟩
  isDigit := Char.isDigit
  parseXlmToStroops := fun raw =>
    (Text.parseI64 raw.toList).bind fun units =>
      if 0 < units then some (units * 10000000) else none

def sealedOutcome : TxOutcome where
  txHashHex := some "9f2c"
  ledger := some 3954001
  alreadyDone := false
  proveMs := 0
  detail := "fee 100 stroops"

/-- The account opens, five XLM are sealed with one progress line, and the
balance is read again. -/
def sealActs : List Act :=
  [.initResumes (some "GDUT"), .statusResumes (.error "timeout"), .onAmountChange "5",
    .sellar 1000, .checkCard 0 "enviando a testnet…", .copyState 0, .writeState 0 false,
    .opResumes 0 (.ok sealedOutcome) 9000]

theorem screen_honest_sealed :
    ∃ s, Lts.exec (next plainLib) create sealActs = some s ∧
      s.ui.op = okCard (.deposit 50000000) sealedOutcome 9000 ∧
      FiguresFrom plainLib sealActs s.ui := by
  obtain ⟨-, hfig, -⟩ := @screen_honest plainLib sealActs _ rfl
  exact ⟨_, rfl, rfl, hfig⟩

/-- An answer that lands while a progress line is being written is undone. -/
example :
    (Lts.exec (next plainLib) create
      [.initResumes none, .abrirSobre 1000, .checkCard 0 "firmando…", .copyState 0,
        .statusResumes (.ok (.obj [("spendableStroops", .str "7")])),
        .writeState 0 false]).map (fun s => (s.statuses, s.ui.figures, s.ui.loadingStatus))
      = some (0, unread, true) := by
  decide

/-- While five XLM are sealed the field is emptied and `aportar` tapped. -/
def cutActs : List Act :=
  [.initResumes (some "GDUT"), .onAmountChange "5", .sellar 1000, .onAmountChange "",
    .aportar 2000]

theorem one_at_a_time_iff_cut :
    ∃ s, Lts.exec (next plainLib) create cutActs = some s ∧
      ¬ ∀ pre u, pre <+: cutActs → Lts.exec (next plainLib) create pre = some u →
        OneAtATime u := by
  refine ⟨_, rfl, fun hall => ?_⟩
  have hnever := (one_at_a_time_iff rfl).mp hall
  exact hnever (cutActs.take 4) (.aportar 2000) _ (List.prefix_refl _) rfl
    ⟨trivial, rfl, by decide⟩

end SobreVm

end RaizStack
