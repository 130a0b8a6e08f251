import Mathlib.Data.Nat.Bitwise
import Mathlib.Tactic.Ring

/-!
# Big-endian numerals

Bytes as base-256 numerals, most significant first, of any width. A
numeral of a fixed width is read back modulo the width (`ofBE_toBE`), a
wide numeral is its high half followed by its low half (`toBE_add`), and
the shift-and-or loops code reads numerals with are the same fold
(`shiftLeft_or_byte`).
-/

namespace BigEndian

/-- The number a byte string denotes. -/
def ofBE (bs : List UInt8) : Nat :=
  bs.foldl (fun v b => v * 256 + b.toNat) 0

/-- The last `k` digits of `n` in base 256. -/
def toBE : Nat → Nat → List UInt8
  | 0, _ => []
  | k + 1, n => UInt8.ofNat (n / 256 ^ k) :: toBE k n

@[simp] theorem length_toBE (k n : Nat) : (toBE k n).length = k := by
  induction k with
  | zero => rfl
  | succ k ih => rw [toBE, List.length_cons, ih]

theorem foldl_ofBE (v : Nat) (bs : List UInt8) :
    bs.foldl (fun v b => v * 256 + b.toNat) v = v * 256 ^ bs.length + ofBE bs := by
  induction bs generalizing v with
  | nil => simp [ofBE]
  | cons b bs ih =>
      rw [ofBE, List.foldl_cons, List.foldl_cons, ih, ih, List.length_cons]
      ring

theorem ofBE_cons (b : UInt8) (bs : List UInt8) :
    ofBE (b :: bs) = b.toNat * 256 ^ bs.length + ofBE bs := by
  rw [ofBE, List.foldl_cons, foldl_ofBE]
  ring

theorem ofBE_lt (bs : List UInt8) : ofBE bs < 256 ^ bs.length := by
  induction bs with
  | nil => simp [ofBE]
  | cons b bs ih =>
      rw [ofBE_cons, List.length_cons, Nat.pow_succ]
      calc b.toNat * 256 ^ bs.length + ofBE bs
          < b.toNat * 256 ^ bs.length + 256 ^ bs.length := Nat.add_lt_add_left ih _
        _ = 256 ^ bs.length * (b.toNat + 1) := by ring
        _ ≤ 256 ^ bs.length * 256 := Nat.mul_le_mul_left _ b.toNat_lt

/-- A numeral of width `k` keeps what fits in it. -/
theorem ofBE_toBE (k n : Nat) : ofBE (toBE k n) = n % 256 ^ k := by
  induction k with
  | zero => simp [toBE, ofBE, Nat.mod_one]
  | succ k ih =>
      have hdigit : (UInt8.ofNat (n / 256 ^ k)).toNat = n / 256 ^ k % 256 := UInt8.toNat_ofNat'
      rw [toBE, ofBE_cons, length_toBE, ih, hdigit, Nat.pow_succ, Nat.mod_mul]
      ring

theorem ofBE_toBE_of_lt {k n : Nat} (h : n < 256 ^ k) : ofBE (toBE k n) = n := by
  rw [ofBE_toBE, Nat.mod_eq_of_lt h]

/-- A numeral splits into limbs. -/
theorem toBE_add (j k n : Nat) : toBE (j + k) n = toBE j (n / 256 ^ k) ++ toBE k n := by
  induction j with
  | zero => simp [toBE]
  | succ j ih =>
      rw [Nat.succ_add, toBE, toBE, ih, List.cons_append, Nat.div_div_eq_div_mul, Nat.pow_add,
        Nat.mul_comm (256 ^ j)]

/-- What lies above the width is dropped. -/
theorem toBE_mul_add (k m n : Nat) : toBE k (m * 256 ^ k + n) = toBE k n := by
  induction k generalizing m with
  | zero => rfl
  | succ k ih =>
      have hshift : m * 256 ^ (k + 1) + n = m * 256 * 256 ^ k + n := by ring
      have hdigit : (m * 256 * 256 ^ k + n) / 256 ^ k = m * 256 + n / 256 ^ k := by
        rw [Nat.add_comm, Nat.add_mul_div_right _ _ (Nat.pow_pos (by decide)), Nat.add_comm]
      have hbyte : UInt8.ofNat (m * 256 + n / 256 ^ k) = UInt8.ofNat (n / 256 ^ k) := by
        apply UInt8.toNat_inj.mp
        rw [UInt8.toNat_ofNat', UInt8.toNat_ofNat']
        omega
      rw [toBE, toBE, hshift, hdigit, hbyte, ih]

/-- Bytes are the numeral they denote. -/
theorem toBE_ofBE (bs : List UInt8) : toBE bs.length (ofBE bs) = bs := by
  induction bs with
  | nil => rfl
  | cons b bs ih =>
      have hdigit : (b.toNat * 256 ^ bs.length + ofBE bs) / 256 ^ bs.length = b.toNat := by
        rw [Nat.add_comm, Nat.add_mul_div_right _ _ (Nat.pow_pos (by decide)),
          Nat.div_eq_of_lt (ofBE_lt bs), Nat.zero_add]
      rw [List.length_cons, toBE, ofBE_cons, hdigit, toBE_mul_add, ih, UInt8.ofNat_toNat]

/-- One byte shifted in from the right. -/
theorem shiftLeft_or_byte (v : Nat) (b : UInt8) : v <<< 8 ||| b.toNat = v * 256 + b.toNat := by
  rw [← Nat.shiftLeft_add_eq_or_of_lt b.toNat_lt, Nat.shiftLeft_eq]

end BigEndian
