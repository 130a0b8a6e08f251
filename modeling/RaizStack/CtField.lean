import RaizStack.JsValue

/-!
# Field elements as text

`field.js` of the vendor, as it stands in the bundle of the prover bench:
a number is reduced into the field and printed with 64 hexadecimals.
`BigInt` reads the reduced number back (`bigIntOfText_toHex32`), so a text
survives being printed again and a number does if it is a field element.
-/

namespace RaizStack

/-- `FR_MODULUS`. -/
def frModulus : Int := 0x30644e72e131a029b85045b68181585d2833e84879b9709143e1f593f0000001

/-- `frMod`, where `%` takes the sign of its left side. -/
def frMod (x : Int) : Int :=
  let m := x.tmod frModulus
  if m < 0 then m + frModulus else m

/-- `toHex32`. -/
def toHex32 (x : Int) : String :=
  String.ofList ('0' :: 'x' :: Js.padStart 64 '0' (Nat.toDigits 16 (frMod x).toNat))

theorem frModulus_pos : 0 < frModulus := by decide

theorem frMod_eq_emod (x : Int) : frMod x = x % frModulus := by
  have hpos := frModulus_pos
  have hlt := Int.tmod_lt_of_pos x hpos
  have hemod : frMod x % frModulus = x % frModulus := by
    have htmod : x.tmod frModulus % frModulus = x % frModulus := by
      conv_rhs => rw [← Int.tmod_add_mul_tdiv x frModulus, Int.add_mul_emod_self_left]
    rw [frMod]
    split
    · rw [Int.add_emod_right, htmod]
    · exact htmod
  have hrange : 0 ≤ frMod x ∧ frMod x < frModulus := by
    have hlow : -frModulus < x.tmod frModulus := by
      have hneg := Int.tmod_lt_of_pos (-x) hpos
      rw [Int.neg_tmod] at hneg
      omega
    rw [frMod]
    split <;> omega
  rw [← hemod, Int.emod_eq_of_lt hrange.1 hrange.2]

theorem frMod_nonneg (x : Int) : 0 ≤ frMod x := by
  rw [frMod_eq_emod]
  exact Int.emod_nonneg x (Int.ne_of_gt frModulus_pos)

theorem frMod_lt (x : Int) : frMod x < frModulus := by
  rw [frMod_eq_emod]
  exact Int.emod_lt_of_pos x frModulus_pos

theorem frMod_of_lt {x : Int} (hlo : 0 ≤ x) (hhi : x < frModulus) : frMod x = x := by
  rw [frMod_eq_emod, Int.emod_eq_of_lt hlo hhi]

theorem frMod_frMod (x : Int) : frMod (frMod x) = frMod x :=
  frMod_of_lt (frMod_nonneg x) (frMod_lt x)

/-- The hexadecimals of a field element. -/
theorem parseRadix_toHex32 (x : Int) :
    Js.parseRadix 16 (Js.padStart 64 '0' (Nat.toDigits 16 (frMod x).toNat))
      = some (frMod x).toNat :=
  Js.parseRadix_padStart (by decide) 64 (Js.parseRadix_toDigits _)

/-- What is printed of a number is read back as its field element. -/
theorem bigIntOfText_toHex32 (x : Int) : Js.bigIntOfText (toHex32 x) = .ok (frMod x) := by
  rw [Js.bigIntOfText, toHex32, String.toList_ofList, Js.parseBigInt_hex (parseRadix_toHex32 x)]
  dsimp only
  rw [Int.toNat_of_nonneg (frMod_nonneg x)]

/-- A text that was printed prints again as itself. -/
theorem toHex32_frMod (x : Int) : toHex32 (frMod x) = toHex32 x := by
  rw [toHex32, frMod_frMod, ← toHex32]

theorem not_isWhitespace_toHex32 {x : Int} {c : Char} (hc : c ∈ (toHex32 x).toList) :
    Js.isWhitespace c = false := by
  rw [toHex32, String.toList_ofList] at hc
  obtain ⟨-, hall, -⟩ := Js.parseRadix_eq_some.mp (parseRadix_toHex32 x)
  rcases List.mem_cons.mp hc with rfl | hc
  · decide
  · rcases List.mem_cons.mp hc with rfl | hc
    · decide
    · exact Js.isWhitespace_of_digitValue (hall c hc)

end RaizStack
