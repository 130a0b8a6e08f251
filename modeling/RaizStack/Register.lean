import Mathlib.Logic.Function.Basic
import Mathlib.Data.List.Nodup

/-!
# An append-only register with an inverse index

Three mappings a program keeps by hand - records by number, numbers by
key, and a counter - read as what they stand for: one list that only
grows. `Represents` is the whole consistency of the three; uniqueness of
keys and numbers is a property of the list and follows from it.
-/

namespace Register

variable {α κ : Type*} (key : α → κ)

/-- `get`, `index` and `count` say the same as the list `items`. -/
structure Represents (get : Nat → Option α) (index : κ → Option Nat) (count : Nat)
    (items : List α) : Prop where
  count_eq : count = items.length
  get_eq : ∀ i, get i = items[i]?
  index_iff : ∀ k i, index k = some i ↔ ∃ x, items[i]? = some x ∧ key x = k

variable {key} {get : Nat → Option α} {index : κ → Option Nat} {count : Nat} {items : List α}

theorem Represents.empty : Represents key (fun _ => none) (fun _ => none) 0 [] where
  count_eq := rfl
  get_eq := fun _ => rfl
  index_iff := by simp

theorem Represents.isSome_iff (h : Represents key get index count items) (i : Nat) :
    (get i).isSome ↔ i < count := by
  rw [h.get_eq, h.count_eq]
  simp

theorem Represents.index_get (h : Represents key get index count items) (k : κ) (i : Nat) :
    index k = some i ↔ ∃ x, get i = some x ∧ key x = k := by
  rw [h.index_iff, h.get_eq]

/-- No key belongs to two records. -/
theorem Represents.key_inj (h : Represents key get index count items) {i j : Nat} {x y : α}
    (hx : get i = some x) (hy : get j = some y) (hkey : key x = key y) : i = j := by
  have hi : index (key y) = some i := (h.index_get _ _).mpr ⟨x, hx, hkey⟩
  have hj : index (key y) = some j := (h.index_get _ _).mpr ⟨y, hy, rfl⟩
  exact Option.some.inj (hi.symm.trans hj)

/-- A record once listed stays what it was as the list grows. -/
theorem Represents.get_of_initial {get' : Nat → Option α} {index' : κ → Option Nat}
    {count' : Nat} {items' : List α} (h : Represents key get index count items)
    (h' : Represents key get' index' count' items') (hle : items <+: items') {i : Nat} {x : α}
    (hx : get i = some x) : get' i = some x := by
  obtain ⟨rest, rfl⟩ := hle
  rw [h.get_eq] at hx
  have hi : i < items.length := (List.getElem?_eq_some_iff.mp hx).1
  rw [h'.get_eq, List.getElem?_append_left hi, hx]

theorem getElem?_concat_iff {x y : α} {i : Nat} :
    (items ++ [x])[i]? = some y ↔ items[i]? = some y ∨ (i = items.length ∧ x = y) := by
  rcases Nat.lt_trichotomy i items.length with hlt | rfl | hgt
  · rw [List.getElem?_append_left hlt]
    simp [Nat.ne_of_lt hlt]
  · simp
  · have hlen : (items ++ [x]).length ≤ i := by
      rw [List.length_append, List.length_singleton]
      omega
    rw [List.getElem?_eq_none hlen, List.getElem?_eq_none (Nat.le_of_lt hgt)]
    simp [Nat.ne_of_gt hgt]

/-- **Appending.** The next number and a key without a number. -/
theorem Represents.append [DecidableEq κ] (h : Represents key get index count items) {x : α}
    (hfresh : index (key x) = none) :
    Represents key (Function.update get count (some x))
      (Function.update index (key x) (some count)) (count + 1) (items ++ [x]) where
  count_eq := by simp [h.count_eq]
  get_eq := by
    intro i
    refine Option.ext fun y => ?_
    rw [getElem?_concat_iff, ← h.get_eq, ← h.count_eq]
    by_cases hi : i = count
    · subst hi
      have hnone : get i = none := by
        rw [h.get_eq, h.count_eq]
        exact List.getElem?_eq_none (Nat.le_refl _)
      simp [hnone]
    · simp [hi]
  index_iff := by
    intro k i
    simp only [getElem?_concat_iff, ← h.count_eq]
    have hold : ∀ y, items[i]? = some y → key y ≠ key x := by
      intro y hy hkey
      have hi : index (key x) = some i := (h.index_iff _ _).mpr ⟨y, hy, hkey⟩
      rw [hfresh] at hi
      cases hi
    by_cases hk : k = key x
    · subst hk
      rw [Function.update_self, Option.some.injEq]
      constructor
      · rintro rfl
        exact ⟨x, Or.inr ⟨rfl, rfl⟩, rfl⟩
      · rintro ⟨y, hy | ⟨rfl, -⟩, hkey⟩
        · exact absurd hkey (hold y hy)
        · rfl
    · rw [Function.update_of_ne hk, h.index_iff]
      constructor
      · rintro ⟨y, hy, hkey⟩
        exact ⟨y, Or.inl hy, hkey⟩
      · rintro ⟨y, hy | ⟨-, rfl⟩, hkey⟩
        · exact ⟨y, hy, hkey⟩
        · exact absurd hkey.symm hk

end Register
