import Mathlib.Algebra.Group.Defs
import Mathlib.Data.Int.Basic

/-!
# Additive commitments

A value and its randomness are hidden in a point; points add as the pairs
behind them do. `Opened` is a point together with an opening of it, which
is how a program that only ever adds points is related to the values it
moves: the opening is a ghost, the proof that it opens the point is
carried along by `add`.
-/

namespace Commit

/-- A commitment to a value under a randomness, additive in both. -/
structure Scheme (R P : Type) [Add R] [Add P] where
  commit : Int → R → P
  commit_add : ∀ v v' r r', commit (v + v') (r + r') = commit v r + commit v' r'

variable {R P : Type} [AddMonoid R] [Add P]

/-- Nobody opens one point to two values. -/
def Scheme.Binding (S : Scheme R P) : Prop :=
  ∀ v v' r r', S.commit v r = S.commit v' r' → v = v'

/-- A point and an opening of it. -/
structure Opened (S : Scheme R P) where
  value : Int
  rand : R
  point : P
  opens : point = S.commit value rand

variable {S : Scheme R P}

namespace Opened

def ofOpening (S : Scheme R P) (v : Int) (r : R) : Opened S :=
  { value := v, rand := r, point := S.commit v r, opens := rfl }

/-- Points are added; what they open to adds. -/
def add (a b : Opened S) : Opened S :=
  { value := a.value + b.value
    rand := a.rand + b.rand
    point := a.point + b.point
    opens := by rw [a.opens, b.opens, S.commit_add] }

@[simp] theorem ofOpening_value (v : Int) (r : R) : (ofOpening S v r).value = v := rfl

@[simp] theorem ofOpening_rand (v : Int) (r : R) : (ofOpening S v r).rand = r := rfl

@[simp] theorem add_value (a b : Opened S) : (a.add b).value = a.value + b.value := rfl

@[simp] theorem add_rand (a b : Opened S) : (a.add b).rand = a.rand + b.rand := rfl

/-- Under a binding scheme a recomputed point pins the value. -/
theorem value_eq_of_commit (hb : S.Binding) (a : Opened S) {v : Int} {r : R}
    (h : S.commit v r = a.point) : v = a.value :=
  hb _ _ _ _ (h.trans a.opens)

/-- The right opening recomputes the point. -/
theorem commit_eq_point (a : Opened S) {v : Int} {r : R} (hv : v = a.value) (hr : r = a.rand) :
    S.commit v r = a.point := by
  rw [hv, hr, a.opens]

end Opened

end Commit
