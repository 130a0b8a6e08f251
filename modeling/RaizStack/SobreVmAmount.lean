import RaizStack.Formato
import RaizStack.SobreVmScreen

/-!
# The amount of an operation

`sellar` and `aportar` send what the field shows (`typed_is_sent`), in
every run and whatever the progress lines write back: a copy of the state
holds a text that was in the field once, so it is read as well as any
other. What the field can hold is decided in one place, `onAmountChange`,
and both facts that the reading needs - no stray characters, no more than
twelve of them - come from there.
-/

namespace RaizStack

namespace SobreVm

open Formato (typed shown exactStroops)

/-- The device as it is: digits of other scripts lie past ASCII and are no
blanks, and the amount is read by the app's own function. -/
structure OnDevice (lib : SobreLib) : Prop where
  digits : ∀ c, lib.isDigit c = true →
    Text.isDigit c = true ∨ 128 ≤ c.toNat ∧ Text.isWhitespace c = false
  parser : lib.parseXlmToStroops = Formato.parseXlmToStroops

/-- A text the field can hold. -/
structure Typed (text : String) : Prop where
  chars : ∀ c ∈ text.toList, typed c = true
  room : text.toList.length ≤ 12

/-- The field and every copy of the state hold a text that was typed. -/
structure AmountInv (s : SobreVm) : Prop where
  field : Typed s.ui.amountInput
  copies : ∀ (j : Nat) (t : Tasks.Task OpJob) (ui : SobreUiState),
    s.ops.tasks[j]? = some t → t.job.progress = .copied ui → Typed ui.amountInput

section Field

variable {lib : SobreLib} {s s' : SobreVm} {a : Act} {acts : List Act}

theorem typed_empty : Typed "" where
  chars := nofun
  room := by decide

/-- What the filter of the field lets through. -/
theorem typed_onAmountChange (hlib : OnDevice lib) (s : SobreVm) (raw : String) :
    Typed (s.onAmountChange lib raw).ui.amountInput where
  chars := by
    intro c hc
    rw [onAmountChange, String.toList_ofList] at hc
    have hkept := (List.mem_filter.mp (List.mem_of_mem_take hc)).2
    simp only [Bool.or_eq_true, beq_iff_eq] at hkept
    simp only [typed, Bool.or_eq_true, Bool.and_eq_true, beq_iff_eq, decide_eq_true_eq,
      Bool.not_eq_true']
    rcases hkept with (hdigit | hpoint) | hcomma
    · rcases hlib.digits c hdigit with hascii | hother
      · exact .inl (.inl (.inl hascii))
      · exact .inr hother
    · exact .inl (.inl (.inr hpoint))
    · exact .inl (.inr hcomma)
  room := by
    rw [onAmountChange, String.toList_ofList]
    exact List.length_take_le _ _

@[simp] theorem refreshStatus_amountInput (s : SobreVm) :
    s.refreshStatus.ui.amountInput = s.ui.amountInput := by
  unfold refreshStatus
  split <;> rfl

@[simp] theorem run_amountInput (s : SobreVm) (op : WalletOp.Op) (now : Int) :
    (s.run op now).ui.amountInput = s.ui.amountInput := by
  unfold run
  split <;> rfl

@[simp] theorem runAmount_amountInput (s : SobreVm) (label : String) (op : Int → WalletOp.Op)
    (now : Int) : (s.runAmount lib label op now).ui.amountInput = s.ui.amountInput := by
  unfold runAmount
  split
  · rfl
  · exact run_amountInput s _ now

/-- Where the text of the field comes from. -/
inductive FieldFrom (lib : SobreLib) (s s' : SobreVm) : Prop
  | kept (h : s'.ui.amountInput = s.ui.amountInput)
  | cleared (h : s'.ui.amountInput = "")
  | changed (raw : String) (h : s' = s.onAmountChange lib raw)
  | written (j : Nat) (t : Tasks.Task OpJob) (ui : SobreUiState) (hj : s.ops.tasks[j]? = some t)
      (hpc : t.job.progress = .copied ui) (h : s'.ui.amountInput = ui.amountInput)

theorem opResumes_field {j : Nat} {r : Except String TxOutcome} {now : Int}
    (h : s.opResumes j r now = some s') : FieldFrom lib s s' := by
  unfold opResumes at h
  split at h
  · cases h
  · rename_i t hj
    split at h
    · cases h
    · split at h
      · split at h
        · obtain rfl := Option.some.inj h
          rw [opSucceeded]
          by_cases hclears : clearsAmount t.job.op = true
          · refine .cleared ?_
            rw [refreshStatus_amountInput]
            exact if_pos hclears
          · refine .kept ?_
            rw [refreshStatus_amountInput]
            exact if_neg hclears
        · obtain rfl := Option.some.inj h
          exact .kept rfl
      · cases h

theorem statusResumes_field {r : Except String Json} (h : s.statusResumes lib r = some s') :
    FieldFrom lib s s' := by
  unfold statusResumes at h
  split at h
  · cases h
  · split at h
    · obtain rfl := Option.some.inj h
      exact .kept rfl
    · obtain rfl := Option.some.inj h
      exact .kept rfl

theorem checkCard_field {j : Nat} {line : String} (h : s.checkCard j line = some s') :
    FieldFrom lib s s' := by
  obtain ⟨t, -, -, h⟩ := atProgress_eq_some h
  split at h
  · split at h
    · obtain rfl := Option.some.inj h
      exact .kept rfl
    · obtain rfl := Option.some.inj h
      exact .kept rfl
  · obtain rfl := Option.some.inj h
    exact .kept rfl
  · cases h

theorem copyState_field {j : Nat} (h : s.copyState j = some s') : FieldFrom lib s s' := by
  obtain ⟨t, -, -, h⟩ := atProgress_eq_some h
  split at h
  · obtain rfl := Option.some.inj h
    exact .kept rfl
  · cases h

theorem writeState_field {j : Nat} {undone : Bool} (h : s.writeState j undone = some s') :
    FieldFrom lib s s' := by
  obtain ⟨t, hj, -, h⟩ := atProgress_eq_some h
  split at h
  · rename_i ui hpc
    obtain rfl := Option.some.inj h
    cases undone with
    | true => exact .kept rfl
    | false => exact .written j t ui hj hpc rfl
  · cases h

theorem next_field (h : s.next lib a = some s') : FieldFrom lib s s' := by
  cases a with
  | onAmountChange raw => exact .changed raw (Option.some.inj h).symm
  | dismissOp =>
      obtain rfl := Option.some.inj h
      unfold dismissOp
      split <;> exact .kept rfl
  | refreshStatus =>
      obtain rfl := Option.some.inj h
      exact .kept (refreshStatus_amountInput s)
  | abrirSobre now =>
      obtain rfl := Option.some.inj h
      exact .kept (run_amountInput s _ now)
  | sellar now =>
      obtain rfl := Option.some.inj h
      exact .kept (runAmount_amountInput s _ _ now)
  | aportar now =>
      obtain rfl := Option.some.inj h
      exact .kept (runAmount_amountInput s _ _ now)
  | cosecharMiSobre now =>
      obtain rfl := Option.some.inj h
      exact .kept (run_amountInput s _ now)
  | initResumes id =>
      have h : s.initResumes id = some s' := h
      unfold initResumes at h
      split at h
      · cases h
      · obtain rfl := Option.some.inj h
        exact .kept (refreshStatus_amountInput _)
  | statusResumes r => exact statusResumes_field h
  | opResumes j r now => exact opResumes_field h
  | checkCard j line => exact checkCard_field h
  | copyState j => exact copyState_field h
  | writeState j undone => exact writeState_field h

/-- A copy after a step was there before, or is of the state. -/
theorem Effect.copied_cases (h : Effect lib s s' a) {i : Nat} {u : Tasks.Task OpJob}
    {ui : SobreUiState} (hi : s'.ops.tasks[i]? = some u) (hpc : u.job.progress = .copied ui) :
    ui.amountInput = s.ui.amountInput ∨
      ∃ t, s.ops.tasks[i]? = some t ∧ t.job.progress = .copied ui := by
  -- a task that moves is somewhere else after it, but for the one that copies
  have hmoved : ∀ {j : Nat} {job : OpJob} {fin : Bool}, job.progress ≠ .copied ui →
      s'.ops = s.ops.advance j job fin →
      ∃ t, s.ops.tasks[i]? = some t ∧ t.job.progress = .copied ui := by
    intro j job fin hjob hops
    rw [hops] at hi
    obtain ⟨u₀, hu₀, ⟨-, rfl⟩ | ⟨-, rfl⟩⟩ := Tasks.Slot.getElem?_advance hi
    · exact absurd hpc hjob
    · exact ⟨u, hu₀, hpc⟩
  cases h with
  | still _ _ hops | answered _ _ _ hops | dismissed _ _ _ hops | refused _ _ _ _ _ _ hops =>
      rw [hops] at hi
      exact .inr ⟨u, hi, hpc⟩
  | launched op now _ _ _ hops =>
      rw [hops] at hi
      obtain rfl | ⟨u₀, hu₀, hjob, -⟩ := Tasks.Slot.relaunch_cases hi
      · cases hpc
      · exact .inr ⟨u₀, hu₀, hjob ▸ hpc⟩
  | succeeded j t o now _ _ hquiet _ _ hops =>
      exact .inr (hmoved (fun hcopied => by cases hquiet.symm.trans hcopied) hops)
  | failed j t r message now _ _ hquiet _ _ _ hops =>
      exact .inr (hmoved (fun hcopied => by cases hquiet.symm.trans hcopied) hops)
  | checked j t cur line _ _ _ _ _ hops => exact .inr (hmoved (fun hcopied => by cases hcopied) hops)
  | copied j t cur line _ _ _ _ hops =>
      rw [hops] at hi
      obtain ⟨u₀, hu₀, ⟨-, rfl⟩ | ⟨-, rfl⟩⟩ := Tasks.Slot.getElem?_advance hi
      · obtain rfl := Progress.copied.inj hpc
        exact .inl rfl
      · exact .inr ⟨u, hu₀, hpc⟩
  | written j t ui' undone _ _ _ _ hops => exact .inr (hmoved (fun hcopied => by cases hcopied) hops)

theorem AmountInv.step (h : AmountInv s) (hlib : OnDevice lib) (hnext : s.next lib a = some s') :
    AmountInv s' where
  field := by
    cases next_field hnext with
    | kept heq => exact heq ▸ h.field
    | cleared heq => exact heq ▸ typed_empty
    | changed raw heq => exact heq ▸ typed_onAmountChange hlib s raw
    | written j t ui hj hpc heq => exact heq ▸ h.copies j t ui hj hpc
  copies i u ui hi hpc := by
    obtain heq | ⟨t, ht, htpc⟩ := (next_effect hnext).copied_cases hi hpc
    · exact heq ▸ h.field
    · exact h.copies i t ui ht htpc

theorem amountInv_create : AmountInv create where
  field := typed_empty
  copies _ _ _ hj _ := by cases hj

theorem amountInv_exec (hlib : OnDevice lib) (hrun : Lts.exec (next lib) create acts = some s) :
    AmountInv s := by
  have hreach : Lts.Reach (· = create) (Lts.ofNext (fun _ _ => True) (next lib)) s :=
    Lts.Reach.exec (.init rfl) acts hrun
  refine hreach.invariant ?_ ?_
  · rintro _ rfl
    exact amountInv_create
  · rintro u a v - hu ⟨-, hnext⟩
    exact hu.step hlib hnext

/-- `sellar` and `aportar`, the amount once read. -/
theorem runAmount_of_amount {k : ℤ}
    (h : amountStroops lib s.ui = if k ≤ 0 then none else some k) (label : String)
    (op : Int → WalletOp.Op) (now : Int) :
    s.runAmount lib label op now = if k ≤ 0 then s.failAmount label now else s.run (op k) now := by
  rw [runAmount, h]
  split
  · rename_i hnone
    split at hnone
    · rename_i hk
      rw [if_pos hk]
    · cases hnone
  · rename_i stroops hsome
    split at hsome
    · cases hsome
    · rename_i hk
      obtain rfl := Option.some.inj hsome
      rw [if_neg hk]

end Field

/-! ## Runs -/

/-- **What is typed is what is sent.** Whatever was typed and written back,
a tap of `sellar` or `aportar` on a text that is no decimal is refused, and
on a decimal below 2^51 stroops it starts an operation with a nearest
number of stroops - with that very number, when there are at most seven
decimals - or is refused when that is 0. -/
theorem typed_is_sent {lib : SobreLib} (hlib : OnDevice lib) {acts : List Act} {s : SobreVm}
    (hrun : Lts.exec (next lib) create acts = some s) (now : Int) :
    (shown s.ui.amountInput = none →
      s.sellar lib now = s.failAmount "Sellar" now ∧
        s.aportar lib now = s.failAmount "Aportar" now) ∧
    ∀ n f, shown s.ui.amountInput = some (n, f) → n * 10 ^ 7 < 2 ^ 51 * 10 ^ f →
      ∃ k : ℤ, |k - exactStroops n f| ≤ 1 / 2 ∧ (f ≤ 7 → k = n * 10 ^ (7 - f)) ∧
        s.sellar lib now =
          (if k ≤ 0 then s.failAmount "Sellar" now else s.run (.deposit k) now) ∧
        s.aportar lib now =
          (if k ≤ 0 then s.failAmount "Aportar" now else s.run (.transferToGoal k) now) := by
  have hfield : Typed s.ui.amountInput := (amountInv_exec hlib hrun).field
  have hread : amountStroops lib s.ui = Formato.parseXlmToStroops s.ui.amountInput := by
    rw [amountStroops, hlib.parser]
  refine ⟨fun hnone => ?_, fun n f hshown hbound => ?_⟩
  · have hamount : amountStroops lib s.ui = none := by
      rw [hread, Formato.parseXlmToStroops_typed hfield.chars, hnone]
      rfl
    exact ⟨by rw [sellar, runAmount, hamount], by rw [aportar, runAmount, hamount]⟩
  · obtain ⟨k, hnear, hparse⟩ := Formato.parse_nearest hfield.chars hfield.room hshown hbound
    rw [← hread] at hparse
    refine ⟨k, hnear, Formato.eq_of_nearest hnear, ?_, ?_⟩
    · exact runAmount_of_amount hparse "Sellar" _ now
    · exact runAmount_of_amount hparse "Aportar" _ now

/-- A device that knows the digits of ASCII. -/
def asciiLib : SobreLib where
  json := plainLib.json
  isDigit := Text.isDigit
  parseXlmToStroops := Formato.parseXlmToStroops

theorem typed_is_sent_comma :
    ∃ s, Lts.exec (next asciiLib) create [.initResumes none, .onAmountChange "12,5 XLM"] = some s ∧
      s.sellar asciiLib 1000 = s.run (.deposit 125000000) 1000 := by
  refine ⟨_, rfl, ?_⟩
  have hlib : OnDevice asciiLib := { digits := fun _ h => .inl h, parser := rfl }
  obtain ⟨-, hall⟩ :=
    @typed_is_sent asciiLib hlib [.initResumes none, .onAmountChange "12,5 XLM"] _ rfl 1000
  obtain ⟨k, -, hk, hsellar, -⟩ := hall 125 1 (by decide) (by decide)
  obtain rfl : k = 125000000 := hk (by decide)
  exact hsellar

end SobreVm

end RaizStack
