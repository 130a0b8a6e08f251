import Mathlib.Data.String.Basic
import Mathlib.Tactic.Ring
import RaizStack.Text

/-!
# Numbers of a fixed width

Zero-padded decimal numerals: the form in which a number can be compared
as text. Three facts make them usable as keys - the value reads back,
every character is a digit, and text order is the order of the numbers.
-/

namespace Decimal

def digit (d : Nat) : Char :=
  Char.ofNat (48 + d)

/-- The last `w` decimal digits of `n`, most significant first. -/
def fixedDigits : Nat → Nat → List Char
  | 0, _ => []
  | w + 1, n => digit (n / 10 ^ w % 10) :: fixedDigits w (n % 10 ^ w)

/-! ## Single digits -/

theorem digit_lt_iff {a b : Nat} (ha : a < 10) (hb : b < 10) : digit a < digit b ↔ a < b := by
  have hall : ∀ a b : Fin 10, digit a < digit b ↔ a < b := by decide
  exact hall ⟨a, ha⟩ ⟨b, hb⟩

theorem digit_inj {a b : Nat} (ha : a < 10) (hb : b < 10) : digit a = digit b ↔ a = b := by
  have hall : ∀ a b : Fin 10, digit a = digit b ↔ a.val = b.val := by decide
  exact hall ⟨a, ha⟩ ⟨b, hb⟩

theorem digit_isDigit {a : Nat} (ha : a < 10) : Text.isDigit (digit a) = true := by
  have hall : ∀ a : Fin 10, Text.isDigit (digit a) = true := by decide
  exact hall ⟨a, ha⟩

theorem digit_value {a : Nat} (ha : a < 10) : (digit a).toNat - '0'.toNat = a := by
  have hall : ∀ a : Fin 10, (digit a).toNat - '0'.toNat = a.val := by decide
  exact hall ⟨a, ha⟩

/-! ## Numerals -/

@[simp] theorem length_fixedDigits (w n : Nat) : (fixedDigits w n).length = w := by
  induction w generalizing n with
  | zero => rfl
  | succ w ih => simp [fixedDigits, ih]

theorem isDigit_of_mem {w n : Nat} {c : Char} (hc : c ∈ fixedDigits w n) :
    Text.isDigit c = true := by
  induction w generalizing n with
  | zero => cases hc
  | succ w ih =>
      rcases List.mem_cons.mp hc with rfl | hrest
      · exact digit_isDigit (Nat.mod_lt _ (by decide))
      · exact ih hrest

/-- Reading a numeral after `acc` shifts `acc` by its width. -/
theorem foldl_fixedDigits (w n acc : Nat) :
    (fixedDigits w n).foldl (fun v c => 10 * v + (c.toNat - '0'.toNat)) acc
      = acc * 10 ^ w + n % 10 ^ w := by
  induction w generalizing n acc with
  | zero => simp [fixedDigits, Nat.mod_one]
  | succ w ih =>
      have hd : n / 10 ^ w % 10 < 10 := Nat.mod_lt _ (by decide)
      have hsplit : n % 10 ^ (w + 1) = 10 ^ w * (n / 10 ^ w % 10) + n % 10 ^ w := by
        rw [pow_succ, Nat.mod_mul]
        ring
      rw [fixedDigits, List.foldl_cons, ih, digit_value hd, Nat.mod_mod, hsplit, pow_succ]
      ring

/-- A numeral of enough digits reads back. -/
theorem digitsValue_fixedDigits {w n : Nat} (h : n < 10 ^ w) :
    Text.digitsValue (fixedDigits w n) = n := by
  rw [Text.digitsValue, foldl_fixedDigits, Nat.mod_eq_of_lt h]
  omega

theorem parseDigits_fixedDigits {w n : Nat} (hw : 0 < w) (h : n < 10 ^ w) :
    Text.parseDigits (fixedDigits w n) = some n := by
  have hne : fixedDigits w n ≠ [] := by
    intro hnil
    have hlen := length_fixedDigits w n
    rw [hnil, List.length_nil] at hlen
    omega
  have hall : (fixedDigits w n).all Text.isDigit = true :=
    List.all_eq_true.mpr fun c hc => isDigit_of_mem hc
  rw [Text.parseDigits, if_pos ⟨hne, hall⟩, digitsValue_fixedDigits h]

/-- **Text order is number order.** -/
theorem fixedDigits_lt_iff {w n m : Nat} (hn : n < 10 ^ w) (hm : m < 10 ^ w) :
    fixedDigits w n < fixedDigits w m ↔ n < m := by
  induction w generalizing n m with
  | zero =>
      have hn0 : n = 0 := by simpa using hn
      have hm0 : m = 0 := by simpa using hm
      simp [fixedDigits, hn0, hm0]
  | succ w ih =>
      have hpos : 0 < 10 ^ w := Nat.pow_pos (by decide)
      have hnq : n / 10 ^ w < 10 := Nat.div_lt_of_lt_mul (by rw [← pow_succ]; exact hn)
      have hmq : m / 10 ^ w < 10 := Nat.div_lt_of_lt_mul (by rw [← pow_succ]; exact hm)
      have hnr : n % 10 ^ w < 10 ^ w := Nat.mod_lt _ hpos
      have hmr : m % 10 ^ w < 10 ^ w := Nat.mod_lt _ hpos
      have hn' : 10 ^ w * (n / 10 ^ w) + n % 10 ^ w = n := Nat.div_add_mod _ _
      have hm' : 10 ^ w * (m / 10 ^ w) + m % 10 ^ w = m := Nat.div_add_mod _ _
      rw [fixedDigits, fixedDigits, List.cons_lt_cons_iff, Nat.mod_eq_of_lt hnq,
        Nat.mod_eq_of_lt hmq, digit_lt_iff hnq hmq, digit_inj hnq hmq, ih hnr hmr]
      constructor
      · rintro (hq | ⟨hq, hr⟩)
        · exact lt_of_not_ge fun hle => absurd (Nat.div_le_div_right hle) (not_le_of_gt hq)
        · rw [← hn', ← hm', hq]
          omega
      · intro hlt
        have hle : n / 10 ^ w ≤ m / 10 ^ w := Nat.div_le_div_right (le_of_lt hlt)
        rcases lt_or_eq_of_le hle with hq | hq
        · exact Or.inl hq
        · refine Or.inr ⟨hq, ?_⟩
          rw [← hn', ← hm', hq] at hlt
          omega

/-- Texts with fronts of one length compare front first. -/
theorem append_lt_append_iff {a a' b b' : List Char} (hlen : a.length = a'.length) :
    a ++ b < a' ++ b' ↔ a < a' ∨ (a = a' ∧ b < b') := by
  induction a generalizing a' with
  | nil =>
      have hnil : a' = [] := List.eq_nil_of_length_eq_zero hlen.symm
      simp [hnil]
  | cons c a ih =>
      cases a' with
      | nil => simp at hlen
      | cons c' a' =>
          have hlen' : a.length = a'.length := by simpa using hlen
          rw [List.cons_append, List.cons_append, List.cons_lt_cons_iff, ih hlen',
            List.cons_lt_cons_iff, List.cons.injEq]
          tauto

end Decimal
