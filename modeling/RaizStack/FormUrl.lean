import RaizStack.Text

/-!
# `application/x-www-form-urlencoded`

The format of a query string, over byte strings: the serializer that
Java's `URLEncoder` and the URL standard share (letters, digits and
`*-._` stand for themselves, a blank is `+`, every other byte is `%XX`),
and the parser of the standard, which takes whatever it is given.

What is serialized is read back (`parse_serialize`), because an encoded
component holds neither of the two separators and each byte is undone by
itself (`decode_encode`).
-/

namespace FormUrl

/-! ## One component -/

def unreserved (b : UInt8) : Bool :=
  (0x30 ≤ b && b ≤ 0x39) || (0x41 ≤ b && b ≤ 0x5A) || (0x61 ≤ b && b ≤ 0x7A)
    || b == 0x2A || b == 0x2D || b == 0x2E || b == 0x5F

/-- A hexadecimal digit, in upper case. -/
def hexDigit (n : Nat) : Char :=
  Char.ofNat (if n < 10 then 0x30 + n else 0x37 + n)

def hexValue (c : Char) : Option Nat :=
  if 0x30 ≤ c.toNat ∧ c.toNat ≤ 0x39 then some (c.toNat - 0x30)
  else if 0x41 ≤ c.toNat ∧ c.toNat ≤ 0x46 then some (c.toNat - 0x37)
  else if 0x61 ≤ c.toNat ∧ c.toNat ≤ 0x66 then some (c.toNat - 0x57)
  else none

def encodeByte (b : UInt8) : List Char :=
  if b = 0x20 then ['+']
  else if unreserved b then [Char.ofNat b.toNat]
  else ['%', hexDigit (b.toNat / 16), hexDigit (b.toNat % 16)]

def encode (bs : List UInt8) : List Char :=
  bs.flatMap encodeByte

/-- A `%` without two digits stands for itself. -/
def decode : List Char → List UInt8
  | [] => []
  | '+' :: cs => 0x20 :: decode cs
  | '%' :: h :: l :: cs =>
      match hexValue h, hexValue l with
      | some a, some b => UInt8.ofNat (16 * a + b) :: decode cs
      | _, _ => 0x25 :: decode (h :: l :: cs)
  | c :: cs => String.utf8EncodeChar c ++ decode cs

/-! ## Lists of pairs -/

abbrev Pair := List UInt8 × List UInt8

def serializePair (p : Pair) : List Char :=
  encode p.1 ++ '=' :: encode p.2

def serialize : List Pair → List Char
  | [] => []
  | [p] => serializePair p
  | p :: q :: ps => serializePair p ++ '&' :: serialize (q :: ps)

/-- One segment: up to the first `=`, and after it. -/
def parsePair (segment : List Char) : Pair :=
  let parts := Text.cut ['='] segment
  (decode parts.1, decode (parts.2.getD []))

def parse (s : List Char) : List Pair :=
  ((s.splitOnP (· == '&')).filter (· ≠ [])).map parsePair

/-! ## Undoing one byte -/

theorem hexValue_hexDigit : ∀ n < 16, hexValue (hexDigit n) = some n := by
  decide

/-- A character with a meaning in a URL or in its query. -/
def Special (c : Char) : Prop :=
  c = '&' ∨ c = '=' ∨ c = '?' ∨ c = '#'

theorem hexDigit_not_special : ∀ n < 16, ¬ Special (hexDigit n) := by
  unfold Special
  decide

theorem toNat_char (b : UInt8) : (Char.ofNat b.toNat).toNat = b.toNat := by
  have hvalid : b.toNat.isValidChar := Or.inl (lt_trans b.toNat_lt (by decide))
  rw [Char.ofNat, dif_pos hvalid]
  rfl

theorem utf8EncodeChar_of_lt {b : UInt8} (h : b.toNat < 128) :
    String.utf8EncodeChar (Char.ofNat b.toNat) = [b] := by
  have hsize : (Char.ofNat b.toNat).utf8Size = 1 :=
    Char.utf8Size_eq_one_iff.mpr (UInt32.le_iff_toNat_le.mpr (by
      have htoNat := toNat_char b
      simp only [Char.toNat] at htoNat
      rw [htoNat]
      exact Nat.le_of_lt_succ h))
  rw [String.utf8EncodeChar_eq_singleton hsize]
  refine congrArg (· :: []) (UInt8.toNat_inj.mp ?_)
  have htoNat := toNat_char b
  simp only [Char.toNat] at htoNat
  rw [UInt32.toNat_toUInt8, htoNat]
  exact Nat.mod_eq_of_lt b.toNat_lt

/-- The bytes that stand for themselves are ASCII, and not those of a
character with a meaning. -/
theorem unreserved_bounds {b : UInt8} (h : unreserved b = true) :
    b.toNat < 128 ∧ b.toNat ≠ 0x2B ∧ b.toNat ≠ 0x25 ∧ b.toNat ≠ 0x26 ∧ b.toNat ≠ 0x3D
      ∧ b.toNat ≠ 0x3F ∧ b.toNat ≠ 0x23 := by
  simp only [unreserved, Bool.or_eq_true, Bool.and_eq_true, decide_eq_true_eq, beq_iff_eq,
    UInt8.le_iff_toNat_le, ← UInt8.toNat_inj, UInt8.reduceToNat] at h
  omega

theorem char_ne {b : UInt8} {c : Char} (h : b.toNat ≠ c.toNat) : Char.ofNat b.toNat ≠ c := by
  intro heq
  rw [← heq, toNat_char] at h
  exact h rfl

theorem encodeByte_of_unreserved {b : UInt8} (h : unreserved b = true) :
    encodeByte b = [Char.ofNat b.toNat] := by
  have hne : b ≠ 0x20 := by
    rintro rfl
    exact absurd h (by decide)
  rw [encodeByte, if_neg hne, if_pos h]

/-- Each byte is undone by itself, whatever follows. -/
theorem decode_encodeByte (b : UInt8) (cs : List Char) :
    decode (encodeByte b ++ cs) = b :: decode cs := by
  by_cases hblank : b = 0x20
  · subst hblank
    rfl
  by_cases hself : unreserved b = true
  · obtain ⟨hascii, hplus, hpercent, -⟩ := unreserved_bounds hself
    rw [encodeByte_of_unreserved hself, List.singleton_append, decode, utf8EncodeChar_of_lt hascii]
    · rfl
    · exact char_ne hplus
    · intro h l cs' heq
      exact absurd heq (char_ne hpercent)
  · have hb : b.toNat < 256 := b.toNat_lt
    rw [encodeByte, if_neg hblank, if_neg hself]
    simp only [List.cons_append, List.nil_append, decode,
      hexValue_hexDigit _ (by omega : b.toNat / 16 < 16),
      hexValue_hexDigit _ (by omega : b.toNat % 16 < 16)]
    rw [Nat.div_add_mod, UInt8.ofNat_toNat]

theorem decode_encode (bs : List UInt8) : decode (encode bs) = bs := by
  induction bs with
  | nil => rfl
  | cons b bs ih =>
      rw [encode, List.flatMap_cons, decode_encodeByte]
      exact congrArg (b :: ·) ih

/-! ## Undoing the separators -/

theorem not_special_of_mem_encode {bs : List UInt8} {c : Char} (h : c ∈ encode bs) :
    ¬ Special c := by
  obtain ⟨b, -, hc⟩ := List.mem_flatMap.mp h
  by_cases hself : unreserved b = true
  · obtain ⟨-, -, -, hamp, heq, hask, hhash⟩ := unreserved_bounds hself
    rw [encodeByte_of_unreserved hself, List.mem_singleton] at hc
    rw [hc]
    rintro (hc | hc | hc | hc)
    · exact char_ne hamp hc
    · exact char_ne heq hc
    · exact char_ne hask hc
    · exact char_ne hhash hc
  · have hb : b.toNat < 256 := b.toNat_lt
    rw [encodeByte, if_neg hself] at hc
    split at hc
    · rw [List.mem_singleton.mp hc]
      unfold Special
      decide
    · simp only [List.mem_cons, List.not_mem_nil, or_false] at hc
      rcases hc with rfl | rfl | rfl
      · unfold Special
        decide
      · exact hexDigit_not_special _ (by omega)
      · exact hexDigit_not_special _ (by omega)

theorem serializePair_safe {p : Pair} : ∀ c ∈ serializePair p, (c == '&') = false := by
  intro c hc
  rw [serializePair, List.mem_append, List.mem_cons] at hc
  rcases hc with hc | rfl | hc
  · exact beq_false_of_ne fun h => not_special_of_mem_encode hc (.inl h)
  · rfl
  · exact beq_false_of_ne fun h => not_special_of_mem_encode hc (.inl h)

theorem parsePair_serializePair (p : Pair) : parsePair (serializePair p) = p := by
  have hcut : Text.cut ['='] (serializePair p) = (encode p.1, some (encode p.2)) :=
    Text.cut_append fun h => not_special_of_mem_encode h (.inr (.inl rfl))
  rw [parsePair, hcut]
  exact Prod.ext (decode_encode p.1) (decode_encode p.2)

theorem splitOnP_serialize {ps : List Pair} (h : ps ≠ []) :
    (serialize ps).splitOnP (· == '&') = ps.map serializePair := by
  induction ps with
  | nil => exact absurd rfl h
  | cons p ps ih =>
      cases ps with
      | nil => exact List.splitOnP_eq_singleton serializePair_safe
      | cons q ps =>
          rw [serialize, List.splitOnP_append_cons_of_forall_mem serializePair_safe '&' rfl,
            ih (List.cons_ne_nil q ps)]
          rfl

/-- A query neither begins another query nor a fragment. -/
theorem not_mem_serialize {ps : List Pair} : '?' ∉ serialize ps ∧ '#' ∉ serialize ps := by
  have hpair : ∀ p : Pair, '?' ∉ serializePair p ∧ '#' ∉ serializePair p := by
    intro p
    have hask : ∀ bs, '?' ∉ encode bs := fun bs h =>
      not_special_of_mem_encode h (.inr (.inr (.inl rfl)))
    have hhash : ∀ bs, '#' ∉ encode bs := fun bs h =>
      not_special_of_mem_encode h (.inr (.inr (.inr rfl)))
    simp [serializePair, hask, hhash]
  induction ps with
  | nil => exact ⟨List.not_mem_nil, List.not_mem_nil⟩
  | cons p ps ih =>
      cases ps with
      | nil => exact hpair p
      | cons q ps =>
          rw [serialize, List.mem_append, List.mem_cons, List.mem_append, List.mem_cons]
          refine ⟨?_, ?_⟩
          · rintro (h | h | h)
            · exact (hpair p).1 h
            · exact absurd h (by decide)
            · exact ih.1 h
          · rintro (h | h | h)
            · exact (hpair p).2 h
            · exact absurd h (by decide)
            · exact ih.2 h

/-- **What is serialized is read back**, names and values of any bytes. -/
theorem parse_serialize (ps : List Pair) : parse (serialize ps) = ps := by
  cases ps with
  | nil => rfl
  | cons p ps =>
      have hkept : ((p :: ps).map serializePair).filter (· ≠ []) = (p :: ps).map serializePair := by
        refine List.filter_eq_self.mpr fun segment hsegment => ?_
        obtain ⟨q, -, rfl⟩ := List.mem_map.mp hsegment
        simp [serializePair]
      rw [parse, splitOnP_serialize (List.cons_ne_nil p ps), hkept, List.map_map]
      exact List.map_id'' parsePair_serializePair _

end FormUrl
