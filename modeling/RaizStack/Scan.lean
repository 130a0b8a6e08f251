import Mathlib.Order.Defs.LinearOrder
import Mathlib.Data.Set.Basic

/-!
# What a scan of an ordered log holds

A log is a set of entries, each at a position of a linear order. A scan
starts somewhere (a predicate `from` on entries), reads batches and
keeps a checkpoint: the position up to which it claims to have read.
`Covered` is that claim. It survives everything that can happen between
two checkpoints - more entries held, a checkpoint moved back, a start
moved forward - and a batch that lists everything between the old and
the new checkpoint extends it. `Closed` is the second half of an honest
statement of coverage in the units of a coarser scale (`level`): nothing
past the checkpoint lies at or below the level that is reported.
-/

namespace Scan

variable {ε κ ℓ : Type*} [LinearOrder κ] [LinearOrder ℓ]

/-- Every entry of the log from the start on, up to `pos`, is held. -/
def Covered (key : ε → κ) (log held fromStart : Set ε) (pos : κ) : Prop :=
  ∀ e ∈ log, e ∈ fromStart → key e ≤ pos → e ∈ held

/-- No entry of the log past `pos` lies at level `lvl` or below. -/
def Closed (key : ε → κ) (level : ε → ℓ) (log : Set ε) (pos : κ) (lvl : ℓ) : Prop :=
  ∀ e ∈ log, pos < key e → lvl < level e

/-- A batch is complete over a part of the log up to `pos`. -/
def Lists (key : ε → κ) (log part : Set ε) (pos : κ) (batch : Set ε) : Prop :=
  ∀ e ∈ log, e ∈ part → key e ≤ pos → e ∈ batch

variable {key : ε → κ} {level : ε → ℓ} {log held held' fromStart fromStart' : Set ε}
  {pos pos' : κ} {lvl : ℓ}

theorem Covered.mono_held (h : Covered key log held fromStart pos) (hsub : held ⊆ held') :
    Covered key log held' fromStart pos :=
  fun e he hf hle => hsub (h e he hf hle)

/-- The first batch of a scan covers what it lists. -/
theorem Covered.first {batch : Set ε} (hlist : Lists key log fromStart pos batch)
    (hheld : batch ⊆ held) : Covered key log held fromStart pos :=
  fun e he hf hle => hheld (hlist e he hf hle)

/-- A batch that lists everything after the checkpoint moves the
checkpoint to its own end, wherever that end is. -/
theorem Covered.extend {batch : Set ε} (h : Covered key log held fromStart pos)
    (hlist : Lists key log {e | pos < key e} pos' batch) (hheld : batch ⊆ held) :
    Covered key log held fromStart pos' := by
  intro e he hf hle
  rcases le_or_gt (key e) pos with hold | hnew
  · exact h e he hf hold
  · exact hheld (hlist e he hnew hle)

/-- A covered and closed checkpoint makes the reported level honest. -/
theorem Covered.of_level (h : Covered key log held fromStart pos)
    (hclosed : Closed key level log pos lvl) {e : ε} (he : e ∈ log) (hf : e ∈ fromStart)
    (hlvl : level e ≤ lvl) : e ∈ held := by
  refine h e he hf (le_of_not_gt fun hlt => ?_)
  exact absurd (hclosed e he hlt) (not_lt_of_ge hlvl)

/-! ## Without a gap -/

/-- What is held has no gap: whatever comes before a held entry is held. -/
def Gapless (key : ε → κ) (log held fromStart : Set ε) : Prop :=
  ∀ e ∈ log, e ∈ held → Covered key log held fromStart (key e)

/-- A later start asks for less. -/
theorem Gapless.mono_start (h : Gapless key log held fromStart) (hsub : fromStart' ⊆ fromStart) :
    Gapless key log held fromStart' :=
  fun e he hheld x hx hfrom hle => h e he hheld x hx (hsub hfrom) hle

/-- More may be held, as long as it is not of the log. -/
theorem Gapless.mono_held (h : Gapless key log held fromStart)
    (hheld : ∀ e ∈ log, e ∈ held' → e ∈ held) (hsub : held ⊆ held') :
    Gapless key log held' fromStart :=
  fun e he hin => (h e he (hheld e he hin)).mono_held hsub

/-- An entry past all that is covered up to it leaves no gap. -/
theorem Gapless.add {x : ε} (h : Gapless key log held fromStart)
    (hheld : ∀ e ∈ log, e ∈ held' → e ∈ held ∨ e = x) (hsub : held ⊆ held')
    (hx : Covered key log held' fromStart (key x)) : Gapless key log held' fromStart := by
  intro e he hin
  rcases hheld e he hin with hold | rfl
  · exact (h e he hold).mono_held hsub
  · exact hx

/-- An entry that is not held comes after all that is. -/
theorem Gapless.lt_of_not_held (h : Gapless key log held fromStart) {x : ε} (hx : x ∈ log)
    (hfrom : x ∈ fromStart) (hnot : x ∉ held) {e : ε} (he : e ∈ log) (hheld : e ∈ held) :
    key e < key x :=
  lt_of_not_ge fun hle => hnot (h e he hheld x hx hfrom hle)

end Scan
