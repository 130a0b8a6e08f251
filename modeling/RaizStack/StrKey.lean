import Mathlib.Tactic.IntervalCases
import Mathlib.Tactic.Linarith
import RaizStack.Base32
import RaizStack.Crc

/-!
# Strkeys

`StrKey` of `StellarAccount.kt` and the second copy of its base32 loop in
`ScVal.kt`. Both write a version byte, thirty-two bytes of payload and
the CRC16-XModem check of the two, low byte first, in base32. The loop
keeps a 32-bit buffer that is never cleared; only its lowest bits, fewer
than thirteen, are ever looked at.

`strKey` is what SEP-23 asks for, in terms of `Base32` and `Crc`; the
functions of the source compute it (`base32_eq`, `crc16Xmodem_eq`).
-/

namespace RaizStack

/-! ## The code -/

def base32Alphabet : List Char :=
  ['A', 'B', 'C', 'D', 'E', 'F', 'G', 'H', 'I', 'J', 'K', 'L', 'M', 'N', 'O', 'P',
    'Q', 'R', 'S', 'T', 'U', 'V', 'W', 'X', 'Y', 'Z', '2', '3', '4', '5', '6', '7']

/-- `ALPHABET[i]`, for the indices below 32 the loop masks out. -/
def base32Symbol (i : Nat) : Char :=
  base32Alphabet.getD i 'A'

/-- The `while (bits >= 5)` of the loop: the symbols of the buffer's top
bits, and how many bits are left. -/
def drain (buffer : Nat) : Nat → List Char × Nat
  | bits + 5 => (base32Symbol (buffer >>> bits % 32) :: (drain buffer bits).1, (drain buffer bits).2)
  | bits => ([], bits)

def base32Loop (buffer bits : Nat) : List UInt8 → List Char
  | [] => if 0 < bits then [base32Symbol (buffer <<< (5 - bits) % 2 ^ 32 % 32)] else []
  | b :: rest =>
      let buffer := (buffer <<< 8 ||| b.toNat) % 2 ^ 32
      (drain buffer (bits + 8)).1 ++ base32Loop buffer (drain buffer (bits + 8)).2 rest

def base32 (data : List UInt8) : String :=
  String.ofList (base32Loop 0 0 data)

/-- One of the eight rounds: the mask `0xFFFF` is the width. -/
def crcRound (crc : BitVec 16) : BitVec 16 :=
  if crc &&& 0x8000 ≠ 0 then (crc <<< 1) ^^^ 0x1021 else crc <<< 1

def crc16Xmodem (data : List UInt8) : BitVec 16 :=
  data.foldl (fun (crc : BitVec 16) (b : UInt8) =>
    crcRound^[8] (crc ^^^ b.toBitVec.setWidth 16 <<< 8)) 0

/-- Version byte, payload, check, in base32. -/
def encodeCheck (version : UInt8) (raw : List UInt8) : String :=
  let payload := version :: raw
  let crc := crc16Xmodem payload
  base32 (payload ++ [UInt8.ofNat (crc.toNat % 256), UInt8.ofNat (crc.toNat / 256 % 256)])

/-- The version byte of an account id, `6 << 3`. -/
def accountVersion : UInt8 := 48

/-- The version byte of a contract id, `2 << 3`. -/
def contractVersion : UInt8 := 16

/-- `StrKey.encodeEd25519PublicKey`, past its check of the length. -/
def encodeEd25519PublicKey (raw : List UInt8) : String :=
  encodeCheck accountVersion raw

/-- `encodeContractStrKey`, past its check of the length. -/
def encodeContractStrKey (raw : List UInt8) : String :=
  encodeCheck contractVersion raw

/-! ## SEP-23 -/

/-- The strkey of a payload. -/
def strKey (version : UInt8) (payload : List UInt8) : String :=
  let crc := (Crc.crc 0x1021 (version :: payload)).toNat
  String.ofList ((Base32.encode (version :: payload
    ++ [UInt8.ofNat crc, UInt8.ofNat (crc / 256)])).map base32Symbol)

/-- The group a symbol stands for. -/
def base32Value (c : Char) : Nat :=
  base32Alphabet.idxOf c

/-- Version byte and payload of a text that is the strkey of them. -/
def parseStrKey (s : String) : Option (UInt8 × List UInt8) :=
  match Base32.decode (s.toList.map base32Value) with
  | [] => none
  | version :: rest =>
      let payload := rest.take (rest.length - 2)
      if strKey version payload = s then some (version, payload) else none

theorem base32Value_symbol {i : Nat} (h : i < 32) : base32Value (base32Symbol i) = i := by
  have hall : ∀ i : Fin 32, base32Value (base32Symbol i) = i := by decide +kernel
  exact hall ⟨i, h⟩

theorem parseStrKey_strKey (version : UInt8) (payload : List UInt8) :
    parseStrKey (strKey version payload) = some (version, payload) := by
  have hvalues : ∀ bs : List UInt8,
      ((Base32.encode bs).map base32Symbol).map base32Value = Base32.encode bs := by
    intro bs
    rw [List.map_map]
    refine (List.map_congr_left fun d hd => ?_).trans (List.map_id _)
    exact base32Value_symbol (Base32.lt_of_mem_encode hd)
  have htake : ∀ a b : UInt8, (payload ++ [a, b]).take ((payload ++ [a, b]).length - 2)
      = payload := by
    intro a b
    simp
  unfold parseStrKey
  rw [show (strKey version payload).toList = _ from String.toList_ofList, hvalues,
    Base32.decode_encode]
  simp only [List.cons_append, htake, if_true]

/-! ## The code computes it -/

theorem crcRound_eq (crc : BitVec 16) : crcRound crc = Crc.shift 0x1021 crc := by
  have hmask : crc &&& 0x8000 = if crc.msb then 0x8000 else 0 :=
    BitVec.and_twoPow crc 15
  unfold crcRound Crc.shift
  rw [hmask]
  cases crc.msb with
  | true => rfl
  | false => rfl

theorem crc16Xmodem_eq (data : List UInt8) : crc16Xmodem data = Crc.crc 0x1021 data := by
  have hround : crcRound = Crc.shift 0x1021 := funext crcRound_eq
  rw [crc16Xmodem, Crc.crc, ← Crc.foldl_iterate_shift, hround]
  rfl

/-- The inner loop takes whole groups off the top of `t` bits. -/
theorem drain_eq (buffer t : Nat) :
    drain buffer t = ((Base32.digits (t / 5) (buffer / 2 ^ (t % 5))).map base32Symbol, t % 5) := by
  induction t using Nat.strongRecOn with
  | ind t ih =>
      by_cases h5 : 5 ≤ t
      · obtain ⟨s, rfl⟩ : ∃ s, t = s + 5 := ⟨t - 5, by omega⟩
        have hdiv : (s + 5) / 5 = s / 5 + 1 := by omega
        have hmod : (s + 5) % 5 = s % 5 := by omega
        have hat : s % 5 + 5 * (s / 5) = s := Nat.mod_add_div s 5
        have hpow : 2 ^ s = 2 ^ (s % 5) * 32 ^ (s / 5) := by
          rw [show 32 = 2 ^ 5 from rfl, ← Nat.pow_mul, ← Nat.pow_add, hat]
        rw [drain, ih s (by omega), hdiv, Base32.digits, List.map_cons, hmod,
          Nat.div_div_eq_div_mul, Nat.shiftRight_eq_div_pow, hpow]
      · have hdiv : t / 5 = 0 := by omega
        have hmod : t % 5 = t := by omega
        rw [hdiv, hmod, drain.eq_2 _ _ (by omega)]
        rfl

/-- Only the low `t` bits of the buffer come out. -/
theorem drain_mod {buffer t : Nat} (h : t ≤ 32) :
    drain (buffer % 2 ^ 32) t = drain (buffer % 2 ^ t) t := by
  rw [drain_eq, drain_eq]
  congr 2
  have h32 : (32 : Nat) ^ (t / 5) = 2 ^ (5 * (t / 5)) := by
    rw [Nat.pow_mul]
  have hdvd : ∀ w, t ≤ w → buffer % 2 ^ w / 2 ^ (t % 5) % 32 ^ (t / 5)
      = buffer / 2 ^ (t % 5) % 32 ^ (t / 5) := by
    intro w hw
    have hsplit : w = t % 5 + (5 * (t / 5) + (w - t)) := by omega
    rw [hsplit, Nat.pow_add, Nat.mod_mul_right_div_self, h32, Nat.pow_add,
      Nat.mod_mul_right_mod]
  rw [← Base32.digits_mod (le_refl _), hdvd 32 h, ← hdvd t (le_refl t),
    Base32.digits_mod (le_refl _)]

/-- A byte shifted in under the pending bits. -/
theorem buffer_mod (buffer bits : Nat) (b : UInt8) :
    (buffer <<< 8 ||| b.toNat) % 2 ^ (bits + 8) = buffer % 2 ^ bits * 256 + b.toNat := by
  have hb : b.toNat < 256 := b.toNat_lt
  have hp : buffer % 2 ^ bits < 2 ^ bits := Nat.mod_lt _ (Nat.two_pow_pos _)
  have hexpand : buffer * 256 + b.toNat
      = buffer % 2 ^ bits * 256 + b.toNat + 2 ^ (bits + 8) * (buffer / 2 ^ bits) := by
    have hbuffer := Nat.div_add_mod buffer (2 ^ bits)
    rw [Nat.pow_add]
    linarith
  rw [BigEndian.shiftLeft_or_byte, hexpand, Nat.add_mul_mod_self_left, Nat.mod_eq_of_lt]
  rw [Nat.pow_add]
  omega

/-- The loop from any buffer: the bits still pending in it are the top of
the numeral it writes. -/
theorem base32Loop_eq (data : List UInt8) (buffer : Nat) {bits : Nat} (hbits : bits < 5) :
    base32Loop buffer bits data
      = (Base32.groups (bits + 8 * data.length)
          (buffer % 2 ^ bits * 256 ^ data.length + BigEndian.ofBE data)).map base32Symbol := by
  induction data generalizing buffer bits with
  | nil =>
      rw [base32Loop]
      interval_cases bits <;>
        simp [Base32.groups, Base32.fill, Base32.digits, BigEndian.ofBE, Nat.shiftLeft_eq,
          Nat.mod_one]
      all_goals
        congr 1
        omega
  | cons b rest ih =>
      have h256 : (256 : Nat) ^ rest.length = 2 ^ (8 * rest.length) := by
        rw [Nat.pow_mul]
      have hrest : BigEndian.ofBE rest < 2 ^ (8 * rest.length) := by
        rw [← h256]
        exact BigEndian.ofBE_lt rest
      have hleft : (buffer <<< 8 ||| b.toNat) % 2 ^ 32 % 2 ^ ((bits + 8) % 5)
          = (buffer % 2 ^ bits * 256 + b.toNat) % 2 ^ ((bits + 8) % 5) := by
        rw [← buffer_mod, Nat.mod_mod_of_dvd _ (Nat.pow_dvd_pow 2 (by omega)),
          Nat.mod_mod_of_dvd _ (Nat.pow_dvd_pow 2 (by omega))]
      have hnumeral : buffer % 2 ^ bits * 256 ^ (b :: rest).length + BigEndian.ofBE (b :: rest)
          = (buffer % 2 ^ bits * 256 + b.toNat) * 2 ^ (8 * rest.length) + BigEndian.ofBE rest := by
        rw [BigEndian.ofBE_cons, List.length_cons, Nat.pow_succ, h256]
        ring
      have hwidth : bits + 8 * (b :: rest).length = bits + 8 + 8 * rest.length := by
        rw [List.length_cons]
        omega
      simp only [base32Loop]
      rw [drain_mod (by omega), buffer_mod, drain_eq, ih _ (Nat.mod_lt _ (by decide)), hleft,
        hnumeral, hwidth, Base32.groups_split hrest, List.map_append, h256]

theorem base32_eq (data : List UInt8) :
    base32 data = String.ofList ((Base32.encode data).map base32Symbol) := by
  rw [base32, base32Loop_eq data 0 (by decide)]
  simp [Base32.encode]

/-- **Both copies of the encoder write the strkey.** -/
theorem encodeCheck_eq (version : UInt8) (raw : List UInt8) :
    encodeCheck version raw = strKey version raw := by
  have hlow : ∀ n : Nat, UInt8.ofNat (n % 256) = UInt8.ofNat n := by
    intro n
    apply UInt8.toNat_inj.mp
    rw [UInt8.toNat_ofNat', UInt8.toNat_ofNat', Nat.mod_mod]
  simp only [encodeCheck, strKey, base32_eq, crc16Xmodem_eq, hlow]

/-- The goal's account, from its key. -/
example : encodeEd25519PublicKey
    [18, 251, 129, 127, 215, 91, 206, 53, 132, 206, 238, 134, 251, 217, 79, 239, 72, 165, 171, 186,
      6, 100, 57, 209, 248, 246, 77, 108, 104, 137, 150, 134]
    = "GAJPXAL725N44NMEZ3XIN66ZJ7XURJNLXIDGIOOR7D3E23DIRGLIM73X" := by decide +kernel

end RaizStack
