import RaizStack.BigEndian

/-!
# Base32 as a numeral

RFC 4648 reads a byte string as bits, appends zero bits up to a multiple
of five, and writes one symbol for each group of five (`fiveBits`). Read
as numbers: the bytes are one big numeral in base 256, the zero bits a
factor, and the symbols its digits in base 32. `groups_split` is what a
loop over the bytes needs: the digits of the first `t` bits come first,
and what is left over of them goes in front of the rest. The two readings
are one (`encode_eq_fiveBits`).
-/

namespace Base32

/-! ## Digits -/

/-- The last `k` digits of `n` in base 32. -/
def digits : Nat → Nat → List Nat
  | 0, _ => []
  | k + 1, n => n / 32 ^ k % 32 :: digits k n

@[simp] theorem length_digits (k n : Nat) : (digits k n).length = k := by
  induction k with
  | zero => rfl
  | succ k ih => rw [digits, List.length_cons, ih]

theorem digits_add (j k n : Nat) : digits (j + k) n = digits j (n / 32 ^ k) ++ digits k n := by
  induction j with
  | zero => simp [digits]
  | succ j ih =>
      rw [Nat.succ_add, digits, digits, ih, List.cons_append, Nat.div_div_eq_div_mul, Nat.pow_add,
        Nat.mul_comm (32 ^ j)]

theorem digits_mod {k w : Nat} (h : k ≤ w) (n : Nat) : digits k (n % 32 ^ w) = digits k n := by
  induction k with
  | zero => rfl
  | succ k ih =>
      have hpow : 32 ^ w = 32 ^ k * (32 * 32 ^ (w - (k + 1))) := by
        rw [← Nat.pow_succ', ← Nat.pow_add]
        congr 1
        omega
      have hdigit : n % 32 ^ w / 32 ^ k % 32 = n / 32 ^ k % 32 := by
        rw [hpow, Nat.mod_mul_right_div_self, Nat.mod_mul_right_mod]
      rw [digits, digits, ih (by omega), hdigit]

theorem lt_of_mem_digits {k n d : Nat} (h : d ∈ digits k n) : d < 32 := by
  induction k with
  | zero => cases h
  | succ k ih =>
      rcases List.mem_cons.mp h with rfl | hmem
      · exact Nat.mod_lt _ (by decide)
      · exact ih hmem

/-! ## Groups of five bits -/

/-- How many zero bits fill up a group. -/
def fill (t : Nat) : Nat :=
  (5 - t % 5) % 5

/-- The groups of a string of `t` bits with value `n`. -/
def groups (t n : Nat) : List Nat :=
  digits ((t + fill t) / 5) (n * 2 ^ fill t)

/-- The value of every symbol of a byte string. -/
def encode (bs : List UInt8) : List Nat :=
  groups (8 * bs.length) (BigEndian.ofBE bs)

theorem lt_of_mem_encode {bs : List UInt8} {d : Nat} (h : d ∈ encode bs) : d < 32 :=
  lt_of_mem_digits h

theorem fill_spec (t : Nat) : 5 * ((t + fill t) / 5) = t + fill t := by
  unfold fill
  omega

/-- `t` bits of value `v` in front of `s` bits of value `r`. -/
theorem groups_split {t s v r : Nat} (hr : r < 2 ^ s) :
    groups (t + s) (v * 2 ^ s + r)
      = digits (t / 5) (v / 2 ^ (t % 5)) ++ groups (t % 5 + s) (v % 2 ^ (t % 5) * 2 ^ s + r) := by
  have hfill : fill (t + s) = fill (t % 5 + s) := by
    unfold fill
    omega
  have hwidth : (t + s + fill (t % 5 + s)) / 5 = t / 5 + (t % 5 + s + fill (t % 5 + s)) / 5 := by
    have := fill_spec (t % 5 + s)
    omega
  have hfive : 5 * ((t % 5 + s + fill (t % 5 + s)) / 5) = t % 5 + (s + fill (t % 5 + s)) := by
    have := fill_spec (t % 5 + s)
    omega
  unfold groups
  rw [hfill, hwidth, digits_add]
  generalize fill (t % 5 + s) = f at hfive ⊢
  generalize (t % 5 + s + f) / 5 = w at hfive ⊢
  generalize t % 5 = m at hfive ⊢
  -- the last `w` digits stand for the leftover bits, the tail and the filling
  have hpow : 32 ^ w = 2 ^ (s + f) * 2 ^ m := by
    rw [← Nat.pow_add, show 32 = 2 ^ 5 from rfl, ← Nat.pow_mul, hfive]
    congr 1
    omega
  have hhigh : (v * 2 ^ s + r) * 2 ^ f / 32 ^ w = v / 2 ^ m := by
    rw [hpow, ← Nat.div_div_eq_div_mul, Nat.pow_add, Nat.mul_div_mul_right _ _ (Nat.two_pow_pos _),
      Nat.mul_comm v, Nat.mul_add_div (Nat.two_pow_pos _), Nat.div_eq_of_lt hr, Nat.add_zero]
  have hlow : (v * 2 ^ s + r) * 2 ^ f % 32 ^ w = (v % 2 ^ m * 2 ^ s + r) * 2 ^ f % 32 ^ w := by
    have hv : v = 2 ^ m * (v / 2 ^ m) + v % 2 ^ m := (Nat.div_add_mod _ _).symm
    have hexpand : (v * 2 ^ s + r) * 2 ^ f
        = (v % 2 ^ m * 2 ^ s + r) * 2 ^ f + 32 ^ w * (v / 2 ^ m) := by
      conv_lhs => rw [hv]
      rw [hpow, Nat.pow_add]
      ring
    rw [hexpand, Nat.add_mul_mod_self_left]
  rw [hhigh, ← digits_mod (le_refl w) ((v * 2 ^ s + r) * 2 ^ f), hlow, digits_mod (le_refl w)]

/-! ## Bit by bit -/

/-- The bits of a byte, from the top. -/
def byteBits (b : UInt8) : List Bool :=
  (List.range 8).map fun i => b.toNat.testBit (7 - i)

def value (l : List Bool) : Nat :=
  l.foldl (fun v b => v * 2 + b.toNat) 0

/-- The values of the groups of five, the last one filled up with zeros. -/
def fiveBits : List Bool → List Nat
  | a :: b :: c :: d :: e :: rest => value [a, b, c, d, e] :: fiveBits rest
  | [] => []
  | l => [value (l ++ List.replicate (5 - l.length) false)]

theorem foldl_value (v : Nat) (l : List Bool) :
    l.foldl (fun v b => v * 2 + b.toNat) v = v * 2 ^ l.length + value l := by
  induction l generalizing v with
  | nil => simp [value]
  | cons b l ih =>
      rw [value, List.foldl_cons, List.foldl_cons, ih, ih, List.length_cons]
      ring

theorem value_append (l m : List Bool) : value (l ++ m) = value l * 2 ^ m.length + value m := by
  rw [value, List.foldl_append, foldl_value]
  rfl

theorem value_lt (l : List Bool) : value l < 2 ^ l.length := by
  induction l with
  | nil => decide
  | cons b l ih =>
      have hb : b.toNat ≤ 1 := Bool.toNat_le b
      have hcons : value (b :: l) = b.toNat * 2 ^ l.length + value l := by
        rw [value, List.foldl_cons, foldl_value, Nat.zero_mul, Nat.zero_add]
      rw [hcons, List.length_cons, Nat.pow_succ]
      calc b.toNat * 2 ^ l.length + value l
          < b.toNat * 2 ^ l.length + 2 ^ l.length := Nat.add_lt_add_left ih _
        _ = 2 ^ l.length * (b.toNat + 1) := by ring
        _ ≤ 2 ^ l.length * 2 := Nat.mul_le_mul_left _ (by omega)

theorem value_zeros (k : Nat) : value (List.replicate k false) = 0 := by
  induction k with
  | zero => rfl
  | succ k ih =>
      rw [List.replicate_succ, value, List.foldl_cons, foldl_value, ih]
      simp

/-- Grouping the bits is taking the digits of their value. -/
theorem groups_eq_fiveBits (l : List Bool) : groups l.length (value l) = fiveBits l := by
  fun_induction fiveBits l with
  | case1 a b c d e rest ih =>
      have hfive : value [a, b, c, d, e] < 32 := value_lt [a, b, c, d, e]
      have hlen : (a :: b :: c :: d :: e :: rest).length = 5 + rest.length := by
        simp only [List.length_cons]
        omega
      have hvalue : value (a :: b :: c :: d :: e :: rest)
          = value [a, b, c, d, e] * 2 ^ rest.length + value rest :=
        value_append [a, b, c, d, e] rest
      rw [hlen, hvalue, groups_split (value_lt rest), ← ih]
      simp [digits, Nat.mod_one, Nat.mod_eq_of_lt hfive]
  | case2 => rfl
  | case3 l hlong hnil =>
      -- one group, filled up
      have hshort : 0 < l.length ∧ l.length < 5 := by
        match l with
        | [] => exact absurd rfl hnil
        | [_] | [_, _] | [_, _, _] | [_, _, _, _] => simp
        | a :: b :: c :: d :: e :: rest => exact absurd rfl (hlong a b c d e rest)
      have hfill : fill l.length = 5 - l.length := by
        unfold fill
        omega
      have hpow : 2 ^ l.length * 2 ^ (5 - l.length) = 32 := by
        rw [← Nat.pow_add, Nat.add_sub_cancel' (by omega)]
      have hlt : value l * 2 ^ (5 - l.length) < 32 := by
        rw [← hpow]
        exact Nat.mul_lt_mul_of_pos_right (value_lt l) (Nat.two_pow_pos _)
      have hone : (l.length + (5 - l.length)) / 5 = 1 := by
        rw [Nat.add_sub_cancel' (by omega)]
      rw [groups, hfill, hone, value_append, value_zeros, List.length_replicate]
      simp [digits, Nat.mod_eq_of_lt hlt]

theorem length_flatMap_byteBits (bs : List UInt8) :
    (bs.flatMap byteBits).length = 8 * bs.length := by
  induction bs with
  | nil => rfl
  | cons b bs ih =>
      rw [List.flatMap_cons, List.length_append, ih, List.length_cons]
      simp only [byteBits, List.length_map, List.length_range]
      omega

theorem value_byteBits (b : UInt8) : value (byteBits b) = b.toNat := by
  have hall : ∀ n : Fin 256, value ((List.range 8).map fun i => n.val.testBit (7 - i)) = n.val := by
    decide +kernel
  exact hall ⟨b.toNat, b.toNat_lt⟩

theorem value_flatMap_byteBits (bs : List UInt8) :
    value (bs.flatMap byteBits) = BigEndian.ofBE bs := by
  induction bs with
  | nil => rfl
  | cons b bs ih =>
      rw [List.flatMap_cons, value_append, ih, value_byteBits, length_flatMap_byteBits,
        BigEndian.ofBE_cons, Nat.pow_mul]

/-- **The numeral and the groups of bits are one encoding.** -/
theorem encode_eq_fiveBits (bs : List UInt8) : encode bs = fiveBits (bs.flatMap byteBits) := by
  rw [← groups_eq_fiveBits, length_flatMap_byteBits, value_flatMap_byteBits, encode]

/-! ## Back from the symbols -/

def ofDigits (ds : List Nat) : Nat :=
  ds.foldl (fun v d => v * 32 + d) 0

/-- The whole bytes of a string of groups. -/
def decode (ds : List Nat) : List UInt8 :=
  let n := 5 * ds.length / 8
  BigEndian.toBE n (ofDigits ds / 2 ^ fill (8 * n))

theorem foldl_ofDigits (v : Nat) (ds : List Nat) :
    ds.foldl (fun v d => v * 32 + d) v = v * 32 ^ ds.length + ofDigits ds := by
  induction ds generalizing v with
  | nil => simp [ofDigits]
  | cons d ds ih =>
      rw [ofDigits, List.foldl_cons, List.foldl_cons, ih, ih, List.length_cons]
      ring

theorem ofDigits_digits (k n : Nat) : ofDigits (digits k n) = n % 32 ^ k := by
  induction k with
  | zero => simp [digits, ofDigits, Nat.mod_one]
  | succ k ih =>
      rw [digits, ofDigits, List.foldl_cons, foldl_ofDigits, length_digits, ih, Nat.pow_succ,
        Nat.mod_mul]
      ring

/-- **Decoding undoes encoding.** -/
theorem decode_encode (bs : List UInt8) : decode (encode bs) = bs := by
  have hfive := fill_spec (8 * bs.length)
  have hfill : fill (8 * bs.length) < 5 := Nat.mod_lt _ (by decide)
  have hlen : (encode bs).length = (8 * bs.length + fill (8 * bs.length)) / 5 := length_digits _ _
  have hbytes : 5 * (encode bs).length / 8 = bs.length := by
    rw [hlen, hfive]
    omega
  have hpow : 32 ^ ((8 * bs.length + fill (8 * bs.length)) / 5)
      = 256 ^ bs.length * 2 ^ fill (8 * bs.length) := by
    rw [show 32 = 2 ^ 5 from rfl, ← Nat.pow_mul, hfive, show 256 = 2 ^ 8 from rfl, ← Nat.pow_mul,
      Nat.pow_add]
  have hlt : BigEndian.ofBE bs * 2 ^ fill (8 * bs.length)
      < 32 ^ ((8 * bs.length + fill (8 * bs.length)) / 5) := by
    rw [hpow]
    exact Nat.mul_lt_mul_of_pos_right (BigEndian.ofBE_lt bs) (Nat.two_pow_pos _)
  rw [decode, hbytes, encode, groups, ofDigits_digits, Nat.mod_eq_of_lt hlt,
    Nat.mul_div_cancel _ (Nat.two_pow_pos _), BigEndian.toBE_ofBE]

end Base32
