import Mathlib.Algebra.CharP.Two
import Mathlib.Algebra.Field.ZMod
import Mathlib.Algebra.Polynomial.FieldDivision
import Mathlib.Tactic.LinearCombination
import RaizStack.BigEndian
import RaizStack.Crc

/-!
# The check as a remainder

Bits are the coefficients of a polynomial over the field of two elements,
the first one the highest. One message bit multiplies the register by `X`
and adds the bit at `X ^ 16`, up to a multiple of the generator
(`feed_mod`); so the check of a message is the remainder of the message
times `X ^ 16` (`crc_eq_modByMonic`). The two facts a check is trusted
for follow: a message with its check behind it has check zero, and no two
messages that differ within sixteen bits share one (`burst`). The second
needs a generator with a constant term, so that shifting cannot hide a
difference.
-/

namespace Crc

open Polynomial

/-! ## Bits as coefficients -/

def ofBit (b : Bool) : ZMod 2 :=
  if b then 1 else 0

theorem ofBit_xor (a b : Bool) : ofBit (a ^^ b) = ofBit a + ofBit b := by
  cases a <;> cases b <;> decide

theorem ofBit_injective : Function.Injective ofBit := by
  decide

/-- The polynomial of a string of bits, the highest coefficient first. -/
noncomputable def ofBits (l : List Bool) : (ZMod 2)[X] :=
  l.foldl (fun p b => p * X + C (ofBit b)) 0

@[simp] theorem ofBits_nil : ofBits [] = 0 := rfl

theorem foldl_ofBits (p : (ZMod 2)[X]) (l : List Bool) :
    l.foldl (fun p b => p * X + C (ofBit b)) p = p * X ^ l.length + ofBits l := by
  induction l generalizing p with
  | nil => simp
  | cons b l ih =>
      rw [ofBits, List.foldl_cons, List.foldl_cons, ih, ih, List.length_cons]
      ring

theorem ofBits_cons (b : Bool) (l : List Bool) :
    ofBits (b :: l) = C (ofBit b) * X ^ l.length + ofBits l := by
  rw [ofBits, List.foldl_cons, foldl_ofBits]
  ring

theorem ofBits_append (l m : List Bool) :
    ofBits (l ++ m) = ofBits l * X ^ m.length + ofBits m := by
  rw [ofBits, List.foldl_append, foldl_ofBits]
  rfl

theorem degree_ofBits_lt (l : List Bool) : (ofBits l).degree < l.length := by
  induction l with
  | nil => simp
  | cons b l ih =>
      rw [ofBits_cons, List.length_cons]
      have hlt : (l.length : WithBot ℕ) < (l.length + 1 : ℕ) :=
        WithBot.coe_lt_coe.mpr (Nat.lt_succ_self _)
      refine lt_of_le_of_lt (degree_add_le _ _) (max_lt ?_ (ih.trans hlt))
      exact lt_of_le_of_lt (degree_C_mul_X_pow_le _ _) hlt

/-- Strings of one length are told apart by their polynomials. -/
theorem ofBits_inj {l m : List Bool} (hlen : l.length = m.length) (h : ofBits l = ofBits m) :
    l = m := by
  induction l generalizing m with
  | nil => exact (List.eq_nil_of_length_eq_zero hlen.symm).symm
  | cons b l ih =>
      cases m with
      | nil => cases hlen
      | cons c m =>
          have hlen' : l.length = m.length := Nat.succ.inj hlen
          have htop : ∀ (b : Bool) (l : List Bool), (ofBits (b :: l)).coeff l.length = ofBit b := by
            intro b l
            rw [ofBits_cons, coeff_add, coeff_C_mul_X_pow, if_pos rfl,
              coeff_eq_zero_of_degree_lt (degree_ofBits_lt l), add_zero]
          have hbc : b = c := by
            refine ofBit_injective ?_
            rw [← htop b l, h, hlen', htop c m]
          subst hbc
          rw [ofBits_cons, ofBits_cons, hlen'] at h
          rw [ih hlen' (add_left_cancel h)]

/-! ## Words -/

@[simp] theorem length_topBits (n : Nat) (r : BitVec 16) : (topBits n r).length = n := by
  induction n generalizing r with
  | zero => rfl
  | succ n ih => rw [topBits, List.length_cons, ih]

theorem topBits_add (m n : Nat) (r : BitVec 16) :
    topBits (m + n) r = topBits m r ++ topBits n (r <<< m) := by
  induction m generalizing r with
  | zero => simp [topBits]
  | succ m ih =>
      rw [Nat.succ_add, topBits, topBits, ih, List.cons_append, ← BitVec.shiftLeft_add,
        Nat.add_comm 1 m]

theorem topBits_xor (n : Nat) (a b : BitVec 16) :
    ofBits (topBits n (a ^^^ b)) = ofBits (topBits n a) + ofBits (topBits n b) := by
  induction n generalizing a b with
  | zero => simp [topBits]
  | succ n ih =>
      rw [topBits, topBits, topBits, ofBits_cons, ofBits_cons, ofBits_cons, BitVec.msb_xor,
        BitVec.shiftLeft_xor_distrib, ih, length_topBits, length_topBits, length_topBits,
        ofBit_xor, C_add]
      ring

theorem topBits_eq_map (n : Nat) (r : BitVec 16) :
    topBits n r = (List.range n).map r.getMsbD := by
  induction n generalizing r with
  | zero => rfl
  | succ n ih =>
      rw [topBits, ih, List.range_succ_eq_map, List.map_cons, List.map_map]
      congr 1
      refine List.map_congr_left fun i _ => ?_
      rw [BitVec.getMsbD_shiftLeft]
      simp

/-- A register as a polynomial of degree below sixteen. -/
noncomputable def ofWord (r : BitVec 16) : (ZMod 2)[X] :=
  ofBits (topBits 16 r)

theorem degree_ofWord_lt (r : BitVec 16) : (ofWord r).degree < 16 := by
  have h := degree_ofBits_lt (topBits 16 r)
  rwa [length_topBits] at h

theorem ofWord_xor (a b : BitVec 16) : ofWord (a ^^^ b) = ofWord a + ofWord b :=
  topBits_xor 16 a b

/-- Shifting multiplies by `X`; the top bit goes to `X ^ 16` and is lost. -/
theorem ofWord_shiftLeft (r : BitVec 16) :
    ofWord r * X = ofWord (r <<< 1) + C (ofBit r.msb) * X ^ 16 := by
  have hlast : topBits 1 (r <<< 1 <<< 15) = [false] := by
    rw [← BitVec.shiftLeft_add, BitVec.shiftLeft_eq_zero (by decide)]
    rfl
  have hshift : topBits 16 (r <<< 1) = topBits 15 (r <<< 1) ++ [false] := by
    rw [← hlast]
    exact topBits_add 15 1 (r <<< 1)
  have hzero : C (ofBit false) = 0 := C_0
  rw [ofWord, ofWord, hshift, topBits, ofBits_cons, ofBits_append, ofBits_cons, length_topBits,
    hzero]
  simp only [List.length_singleton, List.length_nil, ofBits_nil]
  ring

/-- Leading zeros are no coefficients. -/
theorem ofBits_replicate_append (n : Nat) (l : List Bool) :
    ofBits (List.replicate n false ++ l) = ofBits l := by
  induction n with
  | zero => rfl
  | succ n ih =>
      rw [List.replicate_succ, List.cons_append, ofBits_cons, ih, show C (ofBit false) = 0 from C_0,
        zero_mul, zero_add]

/-- The bits of a message are the message. -/
theorem bits_injective : Function.Injective bits := by
  have hbyte : ∀ b b' : UInt8, topBits 8 (high b) = topBits 8 (high b') → b = b' := by
    intro b b' h
    rw [topBits_eq_map, topBits_eq_map] at h
    refine UInt8.toBitVec_inj.mp (BitVec.eq_of_getMsbD_eq fun i hi => ?_)
    have hat : ∀ c : UInt8, (high c).getMsbD i = c.toBitVec.getMsbD i := by
      intro c
      rw [high, BitVec.getMsbD_shiftLeft, BitVec.getMsbD_setWidth]
      simp
    rw [← hat, ← hat]
    exact List.map_inj_left.mp h i (List.mem_range.mpr hi)
  have hcons : ∀ (b : UInt8) (bs : List UInt8), bits (b :: bs) = topBits 8 (high b) ++ bits bs :=
    fun b bs => List.flatMap_cons
  intro bs
  induction bs with
  | nil =>
      intro bs' h
      cases bs' with
      | nil => rfl
      | cons b' bs' =>
          rw [hcons] at h
          cases h
  | cons b bs ih =>
      intro bs' h
      cases bs' with
      | nil =>
          rw [hcons] at h
          cases h
      | cons b' bs' =>
          rw [hcons, hcons] at h
          obtain ⟨htop, hrest⟩ := List.append_inj h (by simp)
          rw [hbyte b b' htop, ih hrest]

/-! ## The generator -/

variable (poly : BitVec 16)

/-- The generator of a check: the register's feedback and `X ^ 16`. -/
noncomputable def gen : (ZMod 2)[X] :=
  X ^ 16 + ofWord poly

theorem gen_monic : (gen poly).Monic :=
  monic_X_pow_add (degree_ofWord_lt poly)

theorem degree_gen : (gen poly).degree = 16 := by
  rw [gen, degree_add_eq_left_of_degree_lt]
  · exact degree_X_pow 16
  · rw [degree_X_pow]
    exact degree_ofWord_lt poly

variable {poly}

/-- **One message bit**, up to a multiple of the generator. -/
theorem feed_mod (r : BitVec 16) (bit : Bool) :
    ∃ q, ofWord r * X + C (ofBit bit) * X ^ 16 = q * gen poly + ofWord (feed poly r bit) := by
  refine ⟨C (ofBit (r.msb ^^ bit)), ?_⟩
  rw [ofWord_shiftLeft, add_assoc, ← add_mul, ← C_add, ← ofBit_xor, gen, feed]
  cases r.msb ^^ bit with
  | false =>
      rw [if_neg Bool.false_ne_true, show C (ofBit false) = 0 from C_0]
      ring
  | true =>
      -- the feedback cancels against the generator's
      rw [if_pos rfl, ofWord_xor, show C (ofBit true) = 1 from C_1]
      linear_combination -(CharTwo.add_self_eq_zero (ofWord poly))

theorem foldl_feed_mod (l : List Bool) (r : BitVec 16) :
    ∃ q, ofBits l * X ^ 16 + ofWord r * X ^ l.length
      = q * gen poly + ofWord (l.foldl (feed poly) r) := by
  induction l generalizing r with
  | nil => exact ⟨0, by simp⟩
  | cons b l ih =>
      obtain ⟨q₁, h₁⟩ := @feed_mod poly r b
      obtain ⟨q₂, h₂⟩ := ih (feed poly r b)
      refine ⟨X ^ l.length * q₁ + q₂, ?_⟩
      rw [ofBits_cons, List.length_cons, List.foldl_cons]
      linear_combination X ^ l.length * h₁ + h₂

/-- **The check is a remainder.** -/
theorem crc_eq_modByMonic (bs : List UInt8) :
    ofWord (crc poly bs) = ofBits (bits bs) * X ^ 16 %ₘ gen poly := by
  obtain ⟨q, hq⟩ := @foldl_feed_mod poly (bits bs) 0
  have hzero : ofWord 0 = 0 := by
    have hself := ofWord_xor 0 0
    rw [BitVec.xor_self] at hself
    exact add_eq_left.mp hself.symm
  rw [hzero, zero_mul, add_zero] at hq
  have hdiv : ofWord (crc poly bs) + gen poly * q = ofBits (bits bs) * X ^ 16 := by
    rw [hq, crc]
    ring
  refine (div_modByMonic_unique q _ (gen_monic poly) ⟨hdiv, ?_⟩).2.symm
  rw [degree_gen]
  exact degree_ofWord_lt _

/-! ## What the check is for -/

theorem shift_zero : shift poly 0 = 0 := by
  unfold shift
  rw [if_neg (by decide)]
  rfl

/-- A register that is fed itself is empty. -/
theorem foldl_feed_self (r : BitVec 16) : (topBits 16 r).foldl (feed poly) r = 0 := by
  have h := @iterate_shift_xor poly 16 r r
  have hzero : (shift poly)^[16] 0#16 = 0 := Function.iterate_fixed shift_zero 16
  rw [BitVec.xor_self, hzero, BitVec.shiftLeft_eq_zero (by decide), BitVec.xor_zero] at h
  exact h.symm

theorem high_ofNat (n : Nat) : high (UInt8.ofNat n) = BitVec.ofNat 16 n <<< 8 := by
  refine BitVec.eq_of_getLsbD_eq fun i hi => ?_
  have hlow : i - 8 < 16 := by omega
  have hbyte : i - 8 < 8 := by omega
  have hval : (UInt8.ofNat n).toBitVec = BitVec.ofNat 8 n := rfl
  simp only [high, hval, BitVec.getLsbD_shiftLeft, BitVec.getLsbD_setWidth, BitVec.getLsbD_ofNat,
    hlow, hbyte, decide_true, Bool.true_and]

/-- A word as two bytes, the high one first. -/
theorem bits_word (r : BitVec 16) : bits (BigEndian.toBE 2 r.toNat) = topBits 16 r := by
  have hhigh : topBits 8 (BitVec.ofNat 16 (r.toNat / 256) <<< 8) = topBits 8 r := by
    have hword : BitVec.ofNat 16 (r.toNat / 256) = r >>> 8 := by
      refine BitVec.eq_of_toNat_eq ?_
      rw [BitVec.toNat_ofNat, BitVec.toNat_ushiftRight, Nat.shiftRight_eq_div_pow]
      exact Nat.mod_eq_of_lt (by omega)
    rw [hword, topBits_eq_map, topBits_eq_map]
    refine List.map_congr_left fun i hi => ?_
    have hi8 : i < 8 := List.mem_range.mp hi
    rw [BitVec.getMsbD_shiftLeft, BitVec.getMsbD_ushiftRight]
    simp only [show i + 8 < 16 by omega, decide_true, show ¬ i + 8 < 8 by omega, decide_false,
      Bool.not_false, Bool.true_and, Nat.add_sub_cancel]
  have hlow : BitVec.ofNat 16 r.toNat = r := BitVec.eq_of_toNat_eq (by simp)
  simp only [bits, BigEndian.toBE, List.flatMap_cons, List.flatMap_nil, high_ofNat, Nat.pow_one,
    Nat.pow_zero, Nat.div_one, hlow, hhigh, List.append_nil]
  exact (topBits_add 8 8 r).symm

/-- **A message with its check behind it has check zero.** -/
theorem crc_append_crc (bs : List UInt8) :
    crc poly (bs ++ BigEndian.toBE 2 (crc poly bs).toNat) = 0 := by
  have happend : ∀ as : List UInt8, bits (bs ++ as) = bits bs ++ bits as :=
    fun as => List.flatMap_append
  rw [crc, happend, List.foldl_append, bits_word]
  exact foldl_feed_self _

/-- A generator with a constant term has no factor `X`. -/
theorem gen_isCoprime_X (h : poly.getLsbD 0 = true) : IsCoprime (gen poly) X := by
  have hlast : topBits 1 (poly <<< 15) = [true] := by
    rw [topBits_eq_map]
    simp [BitVec.getMsbD, h]
  have hsplit : topBits 16 poly = topBits 15 poly ++ [true] := by
    rw [← hlast]
    exact topBits_add 15 1 poly
  refine ⟨1, -(X ^ 15 + ofBits (topBits 15 poly)), ?_⟩
  rw [gen, ofWord, hsplit, ofBits_append, ofBits_cons, ofBits_nil, show C (ofBit true) = 1 from C_1]
  simp only [List.length_singleton, List.length_nil]
  ring

/-- **Bursts are seen**: messages that differ within sixteen consecutive
bits, and there, have different checks. -/
theorem burst (h : poly.getLsbD 0 = true) {bs bs' : List UInt8} {pre w w' post : List Bool}
    (hbits : bits bs = pre ++ w ++ post) (hbits' : bits bs' = pre ++ w' ++ post)
    (hlen : w.length = w'.length) (hshort : w.length ≤ 16) (hne : w ≠ w') :
    crc poly bs ≠ crc poly bs' := by
  intro heq
  have hrem : ofBits (bits bs) * X ^ 16 %ₘ gen poly = ofBits (bits bs') * X ^ 16 %ₘ gen poly := by
    rw [← crc_eq_modByMonic, heq, crc_eq_modByMonic]
  have hdvd : gen poly ∣ (ofBits w - ofBits w') * X ^ (post.length + 16) := by
    have hsub := dvd_sub (dvd_modByMonic_sub (ofBits (bits bs') * X ^ 16) (gen poly))
      (dvd_modByMonic_sub (ofBits (bits bs) * X ^ 16) (gen poly))
    rw [hrem, sub_sub_sub_cancel_left, hbits, hbits', ofBits_append, ofBits_append, ofBits_append,
      ofBits_append, hlen] at hsub
    convert hsub using 1
    ring
  have hcop : IsCoprime (gen poly) (X ^ (post.length + 16)) := (gen_isCoprime_X h).pow_right
  have hdiff : gen poly ∣ ofBits w - ofBits w' := hcop.dvd_of_dvd_mul_right hdvd
  have hdeg : (ofBits w - ofBits w').degree < (gen poly).degree := by
    rw [degree_gen]
    refine lt_of_le_of_lt (degree_sub_le _ _) (max_lt ?_ ?_)
    · exact lt_of_lt_of_le (degree_ofBits_lt w) (by exact_mod_cast hshort)
    · exact lt_of_lt_of_le (degree_ofBits_lt w') (by exact_mod_cast hlen ▸ hshort)
  have hzero : ofBits w - ofBits w' = 0 := eq_zero_of_dvd_of_degree_lt hdiff hdeg
  exact hne (ofBits_inj hlen (sub_eq_zero.mp hzero))

end Crc
