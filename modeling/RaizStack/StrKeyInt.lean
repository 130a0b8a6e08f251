import RaizStack.CrcPoly
import RaizStack.StrKey

/-!
# The strkey loops on the `Int` of the source

The functions of `StrKey.lean` once more, as Kotlin runs them: every
accumulator is a signed `Int` of 32 bits, bytes are widened with their
sign and masked, `shr` fills with the sign, and the buffer of base32 is
never masked, so that it overflows from the fifth byte on. Both copies of
the base32 loop are here, that of `StellarAccount.kt` (`StrKey`) and that
of `ScVal.kt` (`ScValKt`).

What the `Int` adds is never looked at. A symbol is five bits, at most
seven places up (`symbolIndex`), and the register of the check is cut to
sixteen bits after every shift (`crcRound_setWidth`). So both loops write
the numeral of `Base32`, the check is the remainder of `CrcPoly`, and an
address reads back.
-/

namespace RaizStack

/-- `b.toInt() and 0xFF`. -/
def unsignedByte (b : UInt8) : BitVec 32 :=
  b.toBitVec.signExtend 32 &&& 0xFF

/-- `toByte()`. -/
def toByte (i : BitVec 32) : UInt8 :=
  UInt8.ofBitVec (i.setWidth 8)

/-- `s[i and 0x1F]`. -/
def symbolAt (s : String) (i : BitVec 32) : Char :=
  s.toList.getD (i &&& 0x1F).toNat 'A'

namespace StrKey

/-! ## `StellarAccount.kt` -/

/-- The body of `repeat(8)`. -/
def crcRound (crc : BitVec 32) : BitVec 32 :=
  (if crc &&& 0x8000 ≠ 0 then (crc <<< 1) ^^^ 0x1021 else crc <<< 1) &&& 0xFFFF

def crc16Xmodem (data : List UInt8) : BitVec 32 :=
  data.foldl (fun crc b => crcRound^[8] (crc ^^^ unsignedByte b <<< 8)) 0

def alphabet : String := "ABCDEFGHIJKLMNOPQRSTUVWXYZ234567"

/-- `while (bits >= 5)`. -/
def drain (buffer : BitVec 32) (sb : List Char) : Nat → List Char × Nat
  | bits + 5 => drain buffer (sb ++ [symbolAt alphabet (buffer.sshiftRight bits)]) bits
  | bits => (sb, bits)

def base32Loop (sb : List Char) (buffer : BitVec 32) (bits : Nat) : List UInt8 → List Char
  | [] => if 0 < bits then sb ++ [symbolAt alphabet (buffer <<< (5 - bits))] else sb
  | b :: rest =>
      let buffer := buffer <<< 8 ||| unsignedByte b
      let drained := drain buffer sb (bits + 8)
      base32Loop drained.1 buffer drained.2 rest

def base32 (data : List UInt8) : String :=
  String.ofList (base32Loop [] 0 0 data)

def encodeEd25519PublicKey (raw : List UInt8) : Except String String :=
  if raw.length = 32 then
    let payload := toByte ((6 : BitVec 32) <<< 3) :: raw
    let crc := crc16Xmodem payload
    .ok (base32 (payload ++ [toByte (crc &&& 0xFF), toByte (crc.sshiftRight 8 &&& 0xFF)]))
  else .error "public key must be 32 bytes"

end StrKey

namespace ScValKt

/-! ## `ScVal.kt` -/

def alphabet : String := "ABCDEFGHIJKLMNOPQRSTUVWXYZ234567"

/-- `while (bits >= 5)`. -/
def drain (buffer : BitVec 32) (sb : List Char) : Nat → List Char × Nat
  | bits + 5 => drain buffer (sb ++ [symbolAt alphabet (buffer.sshiftRight bits)]) bits
  | bits => (sb, bits)

/-- The loop of `encodeContractStrKey`. -/
def base32Loop (sb : List Char) (buffer : BitVec 32) (bits : Nat) : List UInt8 → List Char
  | [] => if 0 < bits then sb ++ [symbolAt alphabet (buffer <<< (5 - bits))] else sb
  | byte :: rest =>
      let buffer := buffer <<< 8 ||| unsignedByte byte
      let drained := drain buffer sb (bits + 8)
      base32Loop drained.1 buffer drained.2 rest

def encodeContractStrKey (raw : List UInt8) : Except String String :=
  if raw.length = 32 then
    let payload := toByte ((2 : BitVec 32) <<< 3) :: raw
    let crc := StrKey.crc16Xmodem payload
    let full := payload ++ [toByte (crc &&& 0xFF), toByte (crc.sshiftRight 8 &&& 0xFF)]
    .ok (String.ofList (base32Loop [] 0 0 full))
  else .error "contract id must be 32 bytes"

end ScValKt

/-! ## Masks -/

/-- A mask of the lowest bits cuts to their width. -/
theorem and_mask {n : Nat} (hn : n ≤ 32) {mask : BitVec 32} (hmask : mask.toNat = 2 ^ n - 1)
    (x : BitVec 32) : x &&& mask = (x.setWidth n).setWidth 32 := by
  have hlt : x.toNat % 2 ^ n < 2 ^ 32 :=
    lt_of_lt_of_le (Nat.mod_lt _ (Nat.two_pow_pos n)) (Nat.pow_le_pow_right (by decide) hn)
  refine BitVec.eq_of_toNat_eq ?_
  rw [BitVec.toNat_and, hmask, Nat.and_two_pow_sub_one_eq_mod, BitVec.toNat_setWidth,
    BitVec.toNat_setWidth, Nat.mod_eq_of_lt hlt]

theorem toNat_widen (r : BitVec 16) : (r.setWidth 32).toNat = r.toNat := by
  rw [BitVec.toNat_setWidth]
  exact Nat.mod_eq_of_lt (by omega)

theorem unsignedByte_eq (b : UInt8) : unsignedByte b = b.toBitVec.setWidth 32 := by
  have hsign : (b.toBitVec.signExtend 32).setWidth 8 = b.toBitVec := by
    refine BitVec.eq_of_getLsbD_eq fun i hi => ?_
    have h32 : i < 32 := by omega
    rw [BitVec.getLsbD_setWidth, BitVec.getLsbD_signExtend]
    simp [hi, h32]
  rw [unsignedByte, and_mask (n := 8) (by decide) rfl, hsign]

theorem toNat_unsignedByte (b : UInt8) : (unsignedByte b).toNat = b.toNat := by
  rw [unsignedByte_eq, BitVec.toNat_setWidth]
  exact Nat.mod_eq_of_lt (by have := b.toNat_lt; omega)

/-- **The sign is not looked at**: five bits at most 27 places up are those
of the unsigned value. -/
theorem symbolIndex (buffer : BitVec 32) {s : Nat} (hs : s + 5 ≤ 32) :
    (buffer.sshiftRight s &&& 0x1F).toNat = buffer.toNat >>> s % 32 := by
  have hunsigned : (buffer.sshiftRight s).setWidth 5 = (buffer >>> s).setWidth 5 := by
    refine BitVec.eq_of_getLsbD_eq fun i hi => ?_
    have hin : s + i < 32 := by omega
    have h32 : ¬ 32 ≤ i := by omega
    rw [BitVec.getLsbD_setWidth, BitVec.getLsbD_setWidth, BitVec.getLsbD_sshiftRight,
      BitVec.getLsbD_ushiftRight]
    simp [hin, h32]
  rw [and_mask (n := 5) (by decide) rfl, hunsigned, BitVec.toNat_setWidth, BitVec.toNat_setWidth,
    BitVec.toNat_ushiftRight]
  exact Nat.mod_eq_of_lt (by omega)

/-! ## The check -/

namespace StrKey

/-- One round on the wide register is one round on sixteen bits. -/
theorem crcRound_setWidth (crc : BitVec 16) :
    crcRound (crc.setWidth 32) = (RaizStack.crcRound crc).setWidth 32 := by
  have hnarrow : (crc.setWidth 32).setWidth 16 = crc := by simp
  have htest : (crc.setWidth 32 &&& 0x8000 ≠ 0) ↔ (crc &&& 0x8000 ≠ 0) := by
    have hwide : crc.setWidth 32 &&& 0x8000 = (crc &&& 0x8000).setWidth 32 :=
      (BitVec.setWidth_and (x := crc) (y := 0x8000)).symm
    rw [hwide, ne_eq, ne_eq, ← BitVec.toNat_inj, ← BitVec.toNat_inj, toNat_widen]
    rfl
  have hfeedback : (0x1021 : BitVec 32).setWidth 16 = 0x1021 := rfl
  unfold crcRound RaizStack.crcRound
  rw [and_mask (n := 16) (by decide) rfl, apply_ite (BitVec.setWidth 16), BitVec.setWidth_xor,
    BitVec.setWidth_shiftLeft_of_le (by decide), hnarrow, hfeedback]
  simp only [htest]

theorem iterate_crcRound_setWidth (n : Nat) (crc : BitVec 16) :
    crcRound^[n] (crc.setWidth 32) = (RaizStack.crcRound^[n] crc).setWidth 32 := by
  induction n generalizing crc with
  | zero => rfl
  | succ n ih =>
      rw [Function.iterate_succ_apply, Function.iterate_succ_apply, crcRound_setWidth, ih]

/-- **The register never leaves sixteen bits.** -/
theorem crc16Xmodem_eq (data : List UInt8) :
    crc16Xmodem data = (Crc.crc 0x1021 data).setWidth 32 := by
  have hbyte : ∀ (crc : BitVec 16) (b : UInt8),
      crcRound^[8] (crc.setWidth 32 ^^^ unsignedByte b <<< 8)
        = (RaizStack.crcRound^[8] (crc ^^^ b.toBitVec.setWidth 16 <<< 8)).setWidth 32 := by
    intro crc b
    have hhigh : unsignedByte b <<< 8 = (b.toBitVec.setWidth 16 <<< 8).setWidth 32 := by
      refine BitVec.eq_of_toNat_eq ?_
      have := b.toNat_lt
      rw [BitVec.toNat_shiftLeft, toNat_unsignedByte, BitVec.toNat_setWidth, BitVec.toNat_shiftLeft,
        BitVec.toNat_setWidth, UInt8.toNat_toBitVec, Nat.shiftLeft_eq, Nat.shiftLeft_eq]
      omega
    rw [hhigh, ← BitVec.setWidth_xor, iterate_crcRound_setWidth]
  have hfold : ∀ crc : BitVec 16,
      data.foldl (fun crc b => crcRound^[8] (crc ^^^ unsignedByte b <<< 8)) (crc.setWidth 32)
        = (data.foldl (fun (crc : BitVec 16) (b : UInt8) =>
            RaizStack.crcRound^[8] (crc ^^^ b.toBitVec.setWidth 16 <<< 8)) crc).setWidth 32 := by
    induction data with
    | nil => exact fun crc => rfl
    | cons b data ih =>
        intro crc
        rw [List.foldl_cons, List.foldl_cons, hbyte, ih]
  rw [← RaizStack.crc16Xmodem_eq]
  exact hfold 0

/-- The vector of the standard, `123456789`. -/
example : crc16Xmodem [49, 50, 51, 52, 53, 54, 55, 56, 57] = 0x31C3 := by decide +kernel

/-! ## The loop of base32 -/

theorem symbolAt_alphabet (i : BitVec 32) :
    symbolAt alphabet i = base32Symbol (i &&& 0x1F).toNat := by
  have halphabet : alphabet.toList = base32Alphabet := by decide +kernel
  rw [symbolAt, halphabet, base32Symbol]

/-- At most 32 bits are pending, so no symbol reaches past the sign. -/
theorem drain_eq (buffer : BitVec 32) (sb : List Char) {t : Nat} (ht : t ≤ 32) :
    drain buffer sb t
      = (sb ++ (RaizStack.drain buffer.toNat t).1, (RaizStack.drain buffer.toNat t).2) := by
  induction t using Nat.strongRecOn generalizing sb with
  | ind t ih =>
      by_cases h5 : 5 ≤ t
      · obtain ⟨s, rfl⟩ : ∃ s, t = s + 5 := ⟨t - 5, by omega⟩
        rw [drain, RaizStack.drain, ih s (by omega) _ (by omega), symbolAt_alphabet,
          symbolIndex buffer ht, List.append_assoc, List.singleton_append]
      · rw [drain.eq_2 _ _ _ (by omega), RaizStack.drain.eq_2 _ _ (by omega), List.append_nil]

theorem base32Loop_eq (data : List UInt8) (sb : List Char) (buffer : BitVec 32) {bits : Nat}
    (hbits : bits < 5) :
    base32Loop sb buffer bits data = sb ++ RaizStack.base32Loop buffer.toNat bits data := by
  induction data generalizing sb buffer bits with
  | nil =>
      have hlast : (buffer <<< (5 - bits) &&& 0x1F).toNat
          = buffer.toNat <<< (5 - bits) % 2 ^ 32 % 32 := by
        rw [BitVec.toNat_and, BitVec.toNat_shiftLeft]
        exact Nat.and_two_pow_sub_one_eq_mod _ 5
      rw [base32Loop, RaizStack.base32Loop, symbolAt_alphabet, hlast]
      split
      · rfl
      · exact (List.append_nil sb).symm
  | cons b rest ih =>
      have hbuffer : (buffer <<< 8 ||| unsignedByte b).toNat
          = (buffer.toNat <<< 8 ||| b.toNat) % 2 ^ 32 := by
        have hb : b.toNat < 2 ^ 32 := lt_trans b.toNat_lt (by decide)
        rw [BitVec.toNat_or, BitVec.toNat_shiftLeft, toNat_unsignedByte, Nat.or_mod_two_pow,
          Nat.mod_eq_of_lt hb]
      have hleft :
          (RaizStack.drain ((buffer.toNat <<< 8 ||| b.toNat) % 2 ^ 32) (bits + 8)).2 < 5 := by
        rw [RaizStack.drain_eq]
        exact Nat.mod_lt _ (by decide)
      simp only [base32Loop, RaizStack.base32Loop]
      rw [drain_eq _ _ (by omega), hbuffer, ih _ _ hleft, hbuffer, List.append_assoc]

/-- **The overflow is not looked at.** -/
theorem base32_eq (data : List UInt8) :
    base32 data = String.ofList ((Base32.encode data).map base32Symbol) := by
  rw [← RaizStack.base32_eq, base32, base32Loop_eq data [] 0 (by decide), List.nil_append]
  rfl

end StrKey

/-! ## The second copy -/

namespace ScValKt

theorem drain_eq (buffer : BitVec 32) (sb : List Char) (t : Nat) :
    drain buffer sb t = StrKey.drain buffer sb t := by
  fun_induction drain buffer sb t with
  | case1 sb bits ih => rw [ih, StrKey.drain]; rfl
  | case2 sb bits h => rw [StrKey.drain.eq_2 _ _ _ h]

/-- **Both copies agree on every input**, from every buffer. -/
theorem base32Loop_eq (data : List UInt8) (sb : List Char) (buffer : BitVec 32) (bits : Nat) :
    base32Loop sb buffer bits data = StrKey.base32Loop sb buffer bits data := by
  induction data generalizing sb buffer bits with
  | nil => rfl
  | cons b rest ih => simp only [base32Loop, StrKey.base32Loop, drain_eq, ih]

end ScValKt

/-! ## What the check is -/

section Check

open Polynomial

/-- The polynomial whose coefficients are the bits of an `Int`. -/
noncomputable def intPoly (i : BitVec 32) : (ZMod 2)[X] :=
  Crc.ofBits ((List.range 32).map i.getMsbD)

theorem intPoly_setWidth (r : BitVec 16) : intPoly (r.setWidth 32) = Crc.ofWord r := by
  have hbits : (List.range 32).map (r.setWidth 32).getMsbD
      = List.replicate 16 false ++ Crc.topBits 16 r := by
    rw [Crc.topBits_eq_map, show List.range 32 = List.range (16 + 16) from rfl, List.range_add,
      List.map_append, List.map_map]
    refine congrArg₂ (· ++ ·) ?_ ?_
    · refine List.eq_replicate_iff.mpr ⟨by simp, fun b hb => ?_⟩
      obtain ⟨i, hi, rfl⟩ := List.mem_map.mp hb
      have h16 : i < 16 := List.mem_range.mp hi
      rw [BitVec.getMsbD_setWidth]
      simp [h16]
    · refine List.map_congr_left fun i _ => ?_
      rw [Function.comp_apply, BitVec.getMsbD_setWidth]
      simp
  rw [intPoly, hbits, Crc.ofBits_replicate_append, Crc.ofWord]

theorem gen_xmodem : Crc.gen 0x1021 = X ^ 16 + X ^ 12 + X ^ 5 + 1 := by
  have hbits : Crc.topBits 16 0x1021 = [false, false, false, true, false, false, false, false,
      false, false, true, false, false, false, false, true] := by decide
  have hfalse : C (Crc.ofBit false) = 0 := C_0
  have htrue : C (Crc.ofBit true) = 1 := C_1
  rw [Crc.gen, Crc.ofWord, hbits]
  simp only [Crc.ofBits_cons, hfalse, htrue, List.length_cons, List.length_nil, Crc.ofBits_nil]
  ring

/-- **The check is a division** over GF(2). With its own bytes behind it
nothing remains, and a burst of at most sixteen bits changes it. -/
theorem crc16Xmodem_remainder (data : List UInt8) :
    intPoly (StrKey.crc16Xmodem data)
        = Crc.ofBits (Crc.bits data) * X ^ 16 %ₘ (X ^ 16 + X ^ 12 + X ^ 5 + 1)
      ∧ StrKey.crc16Xmodem (data ++ BigEndian.toBE 2 (StrKey.crc16Xmodem data).toNat) = 0
      ∧ ∀ (data' : List UInt8) (pre w w' post : List Bool),
          Crc.bits data = pre ++ w ++ post → Crc.bits data' = pre ++ w' ++ post →
          w.length = w'.length → w.length ≤ 16 → data ≠ data' →
          StrKey.crc16Xmodem data ≠ StrKey.crc16Xmodem data' := by
  refine ⟨?_, ?_, ?_⟩
  · rw [StrKey.crc16Xmodem_eq, intPoly_setWidth, Crc.crc_eq_modByMonic, gen_xmodem]
  · rw [StrKey.crc16Xmodem_eq, StrKey.crc16Xmodem_eq, toNat_widen, Crc.crc_append_crc]
    rfl
  · intro data' pre w w' post hbits hbits' hlen hshort hne heq
    have hw : w ≠ w' := by
      intro hw
      exact hne (Crc.bits_injective (by rw [hbits, hbits', hw]))
    rw [StrKey.crc16Xmodem_eq, StrKey.crc16Xmodem_eq, ← BitVec.toNat_inj, toNat_widen,
      toNat_widen, BitVec.toNat_inj] at heq
    exact Crc.burst (by decide) hbits hbits' hlen hshort hw heq

/-- One byte in two. -/
theorem crc16Xmodem_remainder_byte :
    StrKey.crc16Xmodem [7, 0xA5] ≠ StrKey.crc16Xmodem [7, 0x5A] :=
  (crc16Xmodem_remainder [7, 0xA5]).2.2 [7, 0x5A] (Crc.bits [7]) (Crc.bits [0xA5]) (Crc.bits [0x5A])
    [] (by decide) (by decide) (by decide) (by decide) (by decide)

end Check

/-! ## What an address says -/

/-- The bits of the bytes in groups of five, the way RFC 4648 writes them. -/
def rfc4648 (data : List UInt8) : String :=
  String.ofList ((Base32.fiveBits (data.flatMap Base32.byteBits)).map base32Symbol)

/-- The check of a payload behind it, low byte first. -/
def checked (payload : List UInt8) : List UInt8 :=
  let crc := (Crc.crc 0x1021 payload).toNat
  payload ++ [UInt8.ofNat crc, UInt8.ofNat (crc / 256)]

/-- An encoder of thirty-two bytes under a version byte: fifty-six symbols,
those of RFC 4648, that read back. -/
def Faithful (version : UInt8) (encode : List UInt8 → Except String String) : Prop :=
  ∀ raw : List UInt8, raw.length = 32 →
    ∃ s, encode raw = .ok s ∧ s.length = 56 ∧ s = rfc4648 (checked (version :: raw))
      ∧ parseStrKey s = some (version, raw)

theorem rfc4648_eq (data : List UInt8) :
    rfc4648 data = String.ofList ((Base32.encode data).map base32Symbol) := by
  rw [rfc4648, Base32.encode_eq_fiveBits]

theorem rfc4648_checked (version : UInt8) (raw : List UInt8) :
    rfc4648 (checked (version :: raw)) = strKey version raw := by
  rw [rfc4648_eq]
  rfl

theorem length_strKey {version : UInt8} {raw : List UInt8} (h : raw.length = 32) :
    (strKey version raw).length = 56 := by
  simp [strKey, Base32.encode, Base32.groups, Base32.fill, h]

/-- The two bytes cut out of the `Int` are the check, low byte first. -/
theorem check_bytes (payload : List UInt8) :
    payload ++ [toByte (StrKey.crc16Xmodem payload &&& 0xFF),
      toByte ((StrKey.crc16Xmodem payload).sshiftRight 8 &&& 0xFF)] = checked payload := by
  have hbyte : ∀ i : BitVec 32, toByte (i &&& 0xFF) = UInt8.ofNat i.toNat := by
    intro i
    refine UInt8.toNat_inj.mp ?_
    rw [toByte, UInt8.toNat_ofBitVec, and_mask (n := 8) (by decide) rfl, UInt8.toNat_ofNat',
      BitVec.toNat_setWidth, BitVec.toNat_setWidth, BitVec.toNat_setWidth]
    omega
  have hpos : ((Crc.crc 0x1021 payload).setWidth 32).msb = false := by
    rw [BitVec.msb_setWidth]
    exact BitVec.getLsbD_of_ge _ _ (by decide)
  rw [hbyte, hbyte, StrKey.crc16Xmodem_eq, BitVec.sshiftRight_eq_of_msb_false hpos,
    BitVec.toNat_ushiftRight, toNat_widen, Nat.shiftRight_eq_div_pow]
  rfl

theorem encodeEd25519PublicKey_eq {raw : List UInt8} (h : raw.length = 32) :
    StrKey.encodeEd25519PublicKey raw = .ok (strKey accountVersion raw) := by
  rw [StrKey.encodeEd25519PublicKey, if_pos h]
  simp only [check_bytes]
  rw [StrKey.base32_eq, ← rfc4648_eq]
  exact congrArg Except.ok (rfc4648_checked accountVersion raw)

theorem encodeContractStrKey_eq {raw : List UInt8} (h : raw.length = 32) :
    ScValKt.encodeContractStrKey raw = .ok (strKey contractVersion raw) := by
  rw [ScValKt.encodeContractStrKey, if_pos h]
  simp only [check_bytes, ScValKt.base32Loop_eq]
  rw [← StrKey.base32, StrKey.base32_eq, ← rfc4648_eq]
  exact congrArg Except.ok (rfc4648_checked contractVersion raw)

/-- A key and its kind are read off the text. -/
theorem strKey_inj {version version' : UInt8} {raw raw' : List UInt8}
    (h : strKey version raw = strKey version' raw') : version = version' ∧ raw = raw' := by
  have hread := congrArg parseStrKey h
  rw [parseStrKey_strKey, parseStrKey_strKey] at hread
  exact Prod.mk.inj (Option.some.inj hread)

theorem faithful_of_eq {version : UInt8} {encode : List UInt8 → Except String String}
    (h : ∀ raw : List UInt8, raw.length = 32 → encode raw = .ok (strKey version raw)) :
    Faithful version encode := by
  intro raw hraw
  exact ⟨_, h raw hraw, length_strKey hraw, (rfc4648_checked version raw).symm,
    parseStrKey_strKey version raw⟩

/-- **Addresses are faithful**: two keys never share one, no account reads
as a contract, and the two loops agree on every input. -/
theorem strkeys_faithful :
    Faithful accountVersion StrKey.encodeEd25519PublicKey
      ∧ Faithful contractVersion ScValKt.encodeContractStrKey
      ∧ (∀ raw raw' : List UInt8, raw.length = 32 → raw'.length = 32 → raw ≠ raw' →
          StrKey.encodeEd25519PublicKey raw ≠ StrKey.encodeEd25519PublicKey raw'
            ∧ ScValKt.encodeContractStrKey raw ≠ ScValKt.encodeContractStrKey raw')
      ∧ (∀ raw raw' : List UInt8, raw.length = 32 → raw'.length = 32 →
          StrKey.encodeEd25519PublicKey raw ≠ ScValKt.encodeContractStrKey raw')
      ∧ ∀ data : List UInt8, StrKey.base32 data = rfc4648 data
          ∧ String.ofList (ScValKt.base32Loop [] 0 0 data) = StrKey.base32 data := by
  refine ⟨faithful_of_eq fun _ => encodeEd25519PublicKey_eq,
    faithful_of_eq fun _ => encodeContractStrKey_eq, ?_, ?_, ?_⟩
  · intro raw raw' hraw hraw' hne
    rw [encodeEd25519PublicKey_eq hraw, encodeEd25519PublicKey_eq hraw',
      encodeContractStrKey_eq hraw, encodeContractStrKey_eq hraw']
    exact ⟨fun h => hne (strKey_inj (Except.ok.inj h)).2,
      fun h => hne (strKey_inj (Except.ok.inj h)).2⟩
  · intro raw raw' hraw hraw' h
    rw [encodeEd25519PublicKey_eq hraw, encodeContractStrKey_eq hraw'] at h
    have hversion : accountVersion = contractVersion := (strKey_inj (Except.ok.inj h)).1
    exact absurd hversion (by decide)
  · intro data
    refine ⟨?_, ?_⟩
    · rw [StrKey.base32_eq, rfc4648_eq]
    · rw [ScValKt.base32Loop_eq, StrKey.base32]

/-- The bytes 1, 8, 15 and so on, as an account and as a contract, and
backwards. -/
theorem strkeys_faithful_sevens :
    let raw := (List.range 32).map fun k => UInt8.ofNat (7 * k + 1)
    StrKey.encodeEd25519PublicKey raw ≠ ScValKt.encodeContractStrKey raw
      ∧ StrKey.encodeEd25519PublicKey raw ≠ StrKey.encodeEd25519PublicKey raw.reverse :=
  ⟨strkeys_faithful.2.2.2.1 _ _ (by decide) (by decide),
    (strkeys_faithful.2.2.1 _ _ (by decide) (by decide) (by decide)).1⟩

end RaizStack
