import Mathlib.Data.List.Basic
import Mathlib.Logic.Function.Iterate

/-!
# A cyclic redundancy check of sixteen bits

The check as its definition has it, a register fed one message bit at a
time, most significant first, and as programs compute it, with a whole
byte folded into the high half and eight blind shifts after it. Both are
linear in the bits not yet at the top (`shift_xor`), which is why they
agree.
-/

namespace Crc

variable (poly : BitVec 16)

/-- One shift without input. -/
def shift (r : BitVec 16) : BitVec 16 :=
  if r.msb then (r <<< 1) ^^^ poly else r <<< 1

/-- One message bit. -/
def feed (r : BitVec 16) (bit : Bool) : BitVec 16 :=
  if (r.msb ^^ bit) then (r <<< 1) ^^^ poly else r <<< 1

/-- The first `n` bits of a word, from the top. -/
def topBits : Nat → BitVec 16 → List Bool
  | 0, _ => []
  | n + 1, m => m.msb :: topBits n (m <<< 1)

/-- A byte in the high half of a word. -/
def high (b : UInt8) : BitVec 16 :=
  b.toBitVec.setWidth 16 <<< 8

/-- The message, bit by bit. -/
def bits (bs : List UInt8) : List Bool :=
  bs.flatMap fun b => topBits 8 (high b)

/-- The check of a message, from an empty register. -/
def crc (bs : List UInt8) : BitVec 16 :=
  (bits bs).foldl (feed poly) 0

variable {poly}

theorem shift_xor (r m : BitVec 16) : shift poly (r ^^^ m) = feed poly r m.msb ^^^ (m <<< 1) := by
  unfold shift feed
  rw [BitVec.msb_xor, BitVec.shiftLeft_xor_distrib]
  split
  · rw [BitVec.xor_assoc, BitVec.xor_assoc, BitVec.xor_comm poly]
  · rfl

/-- `n` shifts of a register the message was folded into feed it the top
`n` bits of the message. -/
theorem iterate_shift_xor (n : Nat) (r m : BitVec 16) :
    (shift poly)^[n] (r ^^^ m) = (topBits n m).foldl (feed poly) r ^^^ (m <<< n) := by
  induction n generalizing r m with
  | zero => simp [topBits]
  | succ n ih =>
      rw [Function.iterate_succ_apply, shift_xor, ih, topBits, List.foldl_cons,
        ← BitVec.shiftLeft_add, Nat.add_comm]

/-- A byte at a time. -/
theorem iterate_shift_byte (r : BitVec 16) (b : UInt8) :
    (shift poly)^[8] (r ^^^ high b) = (topBits 8 (high b)).foldl (feed poly) r := by
  have hgone : high b <<< 8 = 0#16 := by
    unfold high
    ext i hi
    simp
  rw [iterate_shift_xor, hgone, BitVec.xor_zero]

theorem foldl_iterate_shift (bs : List UInt8) (r : BitVec 16) :
    bs.foldl (fun r b => (shift poly)^[8] (r ^^^ high b)) r = (bits bs).foldl (feed poly) r := by
  induction bs generalizing r with
  | nil => rfl
  | cons b bs ih =>
      rw [List.foldl_cons, ih, iterate_shift_byte, bits, bits, List.flatMap_cons, List.foldl_append]

end Crc
