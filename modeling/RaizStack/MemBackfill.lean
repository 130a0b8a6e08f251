import RaizStack.MemRpc

/-!
# Where a contract's history begins

The start spec of a contract and the plan its first run makes of it once
it meets the RPC's real retention window. `head` and `oldest` ask a
question; only an explicit ledger can be clamped, and a clamped plan
says how many ledgers were already gone.
-/

namespace RaizStack

/-! ## Start specs -/

inductive StartSpec where
  /-- Begin at the chain head. -/
  | head
  /-- Begin at the RPC's retention floor. -/
  | oldest
  /-- Begin at an explicit ledger, clamped up to the floor if older. -/
  | ledger (n : Int)
  deriving DecidableEq, Repr

/-- The tag persisted with the backfill mark. -/
def StartSpec.mode : StartSpec → String
  | .head => "head"
  | .oldest => "oldest"
  | .ledger _ => "ledger"

/-- The ledger the operator named, if any. -/
def StartSpec.requested : StartSpec → Option Int
  | .ledger n => some n
  | _ => none

/-! ## Plans -/

structure StartPlan where
  mode : String
  requested : Option Int
  effective : Int
  rpcOldest : Option Int
  clamped : Bool
  unreachable : Int
  deriving DecidableEq, Repr

def StartPlan.clamp (spec : StartSpec) (requested oldest : Int) : StartPlan :=
  { mode := spec.mode
    requested := some requested
    effective := oldest
    rpcOldest := some oldest
    clamped := true
    unreachable := oldest - requested }

/-- The plan of `resolve` once the range is known. -/
def StartPlan.resolve (range : LedgerRange) (spec : StartSpec) : StartPlan :=
  match spec with
  | .head =>
      { mode := spec.mode, requested := none, effective := max range.latest 1,
        rpcOldest := some range.oldest, clamped := false, unreachable := 0 }
  | .oldest =>
      { mode := spec.mode, requested := none, effective := max range.oldest 1,
        rpcOldest := some range.oldest, clamped := false, unreachable := 0 }
  | .ledger n =>
      if n < range.oldest then StartPlan.clamp spec n range.oldest
      else
        { mode := spec.mode, requested := spec.requested, effective := n,
          rpcOldest := some range.oldest, clamped := false, unreachable := 0 }

/-- `resolve`: the RPC's range, or its error, and the plan it gives. -/
def resolve (a : RangeAnswers) (spec : StartSpec) : Answer StartPlan :=
  (ledgerRange a).map fun range => StartPlan.resolve range spec

theorem resolve_eq_ok {a : RangeAnswers} {spec : StartSpec} {plan : StartPlan}
    (h : resolve a spec = .ok plan) :
    ∃ range, ledgerRange a = .ok range ∧ plan = StartPlan.resolve range spec := by
  unfold resolve at h
  cases hrange : ledgerRange a with
  | error e =>
      rw [hrange] at h
      cases h
  | ok range =>
      rw [hrange] at h
      exact ⟨range, rfl, (Except.ok.inj h).symm⟩

/-! ## What a plan says -/

variable (range : LedgerRange) (spec : StartSpec)

@[simp] theorem resolve_requested :
    (StartPlan.resolve range spec).requested = spec.requested := by
  cases spec with
  | head => rfl
  | oldest => rfl
  | ledger n =>
      simp only [StartPlan.resolve]
      split <;> rfl

/-- The ledger a plan starts from, spec by spec. -/
theorem resolve_effective :
    (StartPlan.resolve range spec).effective =
      match spec with
      | .head => max range.latest 1
      | .oldest => max range.oldest 1
      | .ledger n => max n range.oldest := by
  cases spec with
  | head => rfl
  | oldest => rfl
  | ledger n =>
      simp only [StartPlan.resolve]
      split
      · simp only [StartPlan.clamp]
        omega
      · dsimp only
        omega

/-- A plan is clamped exactly when it starts above a ledger that was
asked for. -/
theorem resolve_clamped :
    (StartPlan.resolve range spec).clamped = true
      ↔ ∃ n, spec.requested = some n ∧ n < (StartPlan.resolve range spec).effective := by
  rw [resolve_effective]
  cases spec with
  | head => simp [StartPlan.resolve, StartSpec.requested]
  | oldest => simp [StartPlan.resolve, StartSpec.requested]
  | ledger n =>
      simp only [StartPlan.resolve, StartSpec.requested, Option.some.injEq, exists_eq_left']
      split
      · simp only [StartPlan.clamp, true_iff]
        omega
      · dsimp only
        simp only [Bool.false_eq_true, false_iff]
        omega

/-- The distance a plan admits to is the distance it was clamped by. -/
theorem resolve_unreachable :
    (StartPlan.resolve range spec).unreachable =
      match spec.requested with
      | some n => (StartPlan.resolve range spec).effective - n
      | none => 0 := by
  cases spec with
  | head => rfl
  | oldest => rfl
  | ledger n =>
      simp only [StartPlan.resolve, StartSpec.requested]
      split
      · rfl
      · dsimp only
        omega

end RaizStack
