import Mathlib.Logic.Function.Basic

/-!
# Entries that pay rent

Ledger storage in which every entry carries the last ledger it lives in.
An entry past that ledger is archived: it keeps its value, nobody can
touch it until it is restored, and it is never reported as absent. All a
reader of values needs is that a successful access sees the value and
that only a write changes one; the lifetimes are a layer of their own.
-/

namespace Rent

variable {κ α : Type*}

structure Config where
  minPersistentTtl : Nat
  maxEntryTtl : Nat

structure Entry (α : Type*) where
  val : α
  liveUntil : Nat

abbrev Store (κ α : Type*) := κ → Option (Entry α)

inductive Fault where
  /-- The entry has to be restored first. -/
  | archived
  /-- There is nothing to extend. -/
  | missing
  deriving DecidableEq, Repr

/-- The values of a store, archived or not. -/
def value (s : Store κ α) (k : κ) : Option α :=
  (s k).map Entry.val

/-! ## Access -/

/-- `get`, and `has` by whether it found something. -/
def read (now : Nat) (s : Store κ α) (k : κ) : Except Fault (Option α) :=
  match s k with
  | none => .ok none
  | some e => if e.liveUntil < now then .error .archived else .ok (some e.val)

variable [DecidableEq κ]

/-- `set`: a new entry gets the least lifetime, an old one keeps its own. -/
def write (cfg : Config) (now : Nat) (s : Store κ α) (k : κ) (v : α) :
    Except Fault (Store κ α) :=
  match s k with
  | none => .ok (Function.update s k (some ⟨v, now + cfg.minPersistentTtl - 1⟩))
  | some e =>
      if e.liveUntil < now then .error .archived
      else .ok (Function.update s k (some ⟨v, e.liveUntil⟩))

/-- The lifetime after `extend_ttl`: untouched while more than `threshold`
ledgers remain, never shortened, never past the network's maximum. -/
def extended (cfg : Config) (now threshold extendTo liveUntil : Nat) : Nat :=
  if liveUntil - now ≤ threshold then
    max liveUntil (min (now + extendTo) (now + cfg.maxEntryTtl - 1))
  else liveUntil

def extendTtl (cfg : Config) (now threshold extendTo : Nat) (s : Store κ α) (k : κ) :
    Except Fault (Store κ α) :=
  match s k with
  | none => .error .missing
  | some e =>
      if e.liveUntil < now then .error .archived
      else .ok (Function.update s k
        (some ⟨e.val, extended cfg now threshold extendTo e.liveUntil⟩))

/-- Bringing an archived entry back, from outside any contract. -/
def restore (cfg : Config) (now : Nat) (s : Store κ α) (k : κ) : Store κ α :=
  match s k with
  | none => s
  | some e =>
      if e.liveUntil < now then
        Function.update s k (some ⟨e.val, now + cfg.minPersistentTtl - 1⟩)
      else s

/-! ## Values -/

variable {cfg : Config} {now threshold extendTo : Nat} {s s' : Store κ α} {k : κ} {v : α}

omit [DecidableEq κ] in
theorem read_eq_value {r : Option α} (h : read now s k = .ok r) : r = value s k := by
  unfold read at h
  unfold value
  split at h
  · rename_i hk
    rw [hk, ← Except.ok.inj h]
    rfl
  · rename_i e hk
    split at h
    · cases h
    · rw [hk, ← Except.ok.inj h]
      rfl

theorem value_update (s : Store κ α) (k : κ) (e : Entry α) :
    value (Function.update s k (some e)) = Function.update (value s) k (some e.val) := by
  funext x
  by_cases hx : x = k
  · subst hx
    simp [value]
  · simp [value, Function.update_of_ne hx]

theorem value_write (h : write cfg now s k v = .ok s') :
    value s' = Function.update (value s) k (some v) := by
  unfold write at h
  split at h
  · obtain rfl := Except.ok.inj h
    exact value_update _ _ _
  · split at h
    · cases h
    · obtain rfl := Except.ok.inj h
      exact value_update _ _ _

/-- An entry rewritten with its own value. -/
theorem value_update_same {e e' : Entry α} (hk : s k = some e) (hval : e'.val = e.val) :
    value (Function.update s k (some e')) = value s := by
  have hold : value s k = some e'.val := by
    rw [value, hk, hval]
    rfl
  rw [value_update, ← hold, Function.update_eq_self]

theorem value_extendTtl (h : extendTtl cfg now threshold extendTo s k = .ok s') :
    value s' = value s := by
  unfold extendTtl at h
  split at h
  · cases h
  · rename_i e hk
    split at h
    · cases h
    · obtain rfl := Except.ok.inj h
      exact value_update_same hk rfl

theorem value_restore (cfg : Config) (now : Nat) (s : Store κ α) (k : κ) :
    value (restore cfg now s k) = value s := by
  unfold restore
  split
  · rfl
  · rename_i e hk
    split
    · exact value_update_same hk rfl
    · rfl

/-! ## Lifetimes -/

/-- The last ledgers of the entries, archived or not. -/
def liveUntil (s : Store κ α) (k : κ) : Option Nat :=
  (s k).map Entry.liveUntil

omit [DecidableEq κ] in
theorem liveUntil_eq_none {s : Store κ α} {k : κ} (h : value s k = none) :
    liveUntil s k = none := by
  rw [liveUntil, Option.map_eq_none_iff.mp h]
  rfl

theorem liveUntil_update (s : Store κ α) (k : κ) (e : Entry α) :
    liveUntil (Function.update s k (some e))
      = Function.update (liveUntil s) k (some e.liveUntil) := by
  funext x
  by_cases hx : x = k
  · subst hx
    simp [liveUntil]
  · simp [liveUntil, Function.update_of_ne hx]

theorem liveUntil_write (h : write cfg now s k v = .ok s') :
    liveUntil s' = Function.update (liveUntil s) k
      (some ((liveUntil s k).getD (now + cfg.minPersistentTtl - 1))) := by
  unfold write at h
  split at h
  · rename_i hk
    obtain rfl := Except.ok.inj h
    rw [liveUntil_update, liveUntil, hk]
    rfl
  · rename_i e hk
    split at h
    · cases h
    · obtain rfl := Except.ok.inj h
      rw [liveUntil_update, liveUntil, hk]
      rfl

theorem liveUntil_extendTtl (h : extendTtl cfg now threshold extendTo s k = .ok s') :
    ∃ n, liveUntil s k = some n ∧ liveUntil s' = Function.update (liveUntil s) k
      (some (extended cfg now threshold extendTo n)) := by
  unfold extendTtl at h
  split at h
  · cases h
  · rename_i e hk
    split at h
    · cases h
    · obtain rfl := Except.ok.inj h
      refine ⟨e.liveUntil, ?_, liveUntil_update _ _ _⟩
      rw [liveUntil, hk]
      rfl

theorem le_extended (cfg : Config) (now threshold extendTo n : Nat) :
    n ≤ extended cfg now threshold extendTo n := by
  unfold extended
  split
  · exact Nat.le_max_left _ _
  · exact Nat.le_refl _

/-- Every entry of `s` is in `s'` and lives there at least as long. -/
def Outlived (s s' : Store κ α) : Prop :=
  ∀ k n, liveUntil s k = some n → ∃ n', liveUntil s' k = some n' ∧ n ≤ n'

omit [DecidableEq κ] in
theorem Outlived.refl (s : Store κ α) : Outlived s s :=
  fun _ n hn => ⟨n, hn, Nat.le_refl n⟩

omit [DecidableEq κ] in
theorem Outlived.trans {s s' s'' : Store κ α} (h : Outlived s s') (h' : Outlived s' s'') :
    Outlived s s'' := by
  intro k n hn
  obtain ⟨n', hn', hle⟩ := h k n hn
  obtain ⟨n'', hn'', hle'⟩ := h' k n' hn'
  exact ⟨n'', hn'', Nat.le_trans hle hle'⟩

/-- Only one entry changed, and it lives at least as long. -/
theorem Outlived.of_update {m : Nat} (hm : ∀ n, liveUntil s k = some n → n ≤ m)
    (h : liveUntil s' = Function.update (liveUntil s) k (some m)) : Outlived s s' := by
  intro x n hn
  by_cases hx : x = k
  · subst hx
    exact ⟨m, by rw [h, Function.update_self], hm n hn⟩
  · exact ⟨n, by rw [h, Function.update_of_ne hx, hn], Nat.le_refl n⟩

theorem Outlived.write (h : write cfg now s k v = .ok s') : Outlived s s' := by
  refine .of_update (fun n hn => ?_) (liveUntil_write h)
  rw [hn]
  exact Nat.le_refl n

theorem Outlived.extendTtl (h : extendTtl cfg now threshold extendTo s k = .ok s') :
    Outlived s s' := by
  obtain ⟨n, hn, hlive⟩ := liveUntil_extendTtl h
  refine .of_update (fun n' hn' => ?_) hlive
  obtain rfl := Option.some.inj (hn'.symm.trans hn)
  exact le_extended _ _ _ _ _

end Rent
