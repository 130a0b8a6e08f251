import Mathlib.Data.List.Basic

/-!
# Base64

The encoder of RFC 4648 with padding, and the decoder as the JDK's basic
one works: characters collect into units of four, a padding character
ends the input, and what stands after it, or an unfinished unit of one
character, is refused. Padding may be left out, and the unused bits of
a short last unit are not looked at, so decoding accepts more than what
is ever encoded; `decode_encode` is the direction a round trip needs.
-/

namespace Base64

/-! ## The alphabet -/

def alphabet : List Char :=
  ['A', 'B', 'C', 'D', 'E', 'F', 'G', 'H', 'I', 'J', 'K', 'L', 'M', 'N', 'O', 'P',
    'Q', 'R', 'S', 'T', 'U', 'V', 'W', 'X', 'Y', 'Z', 'a', 'b', 'c', 'd', 'e', 'f',
    'g', 'h', 'i', 'j', 'k', 'l', 'm', 'n', 'o', 'p', 'q', 'r', 's', 't', 'u', 'v',
    'w', 'x', 'y', 'z', '0', '1', '2', '3', '4', '5', '6', '7', '8', '9', '+', '/']

def symbol (i : Nat) : Char :=
  alphabet.getD i 'A'

def sextet? (c : Char) : Option Nat :=
  alphabet.idxOf? c

theorem sextet?_symbol {i : Nat} (h : i < 64) : sextet? (symbol i) = some i := by
  have hall : ∀ i : Fin 64, sextet? (symbol i) = some i.val := by decide +kernel
  exact hall ⟨i, h⟩

theorem symbol_ne_pad {i : Nat} (h : i < 64) : symbol i ≠ '=' := by
  have hall : ∀ i : Fin 64, symbol i ≠ '=' := by decide +kernel
  exact hall ⟨i, h⟩

/-! ## Encoding -/

/-- The bits of a unit of up to three bytes, six at a time. -/
def encode : List UInt8 → List Char
  | [] => []
  | [a] => [symbol (a.toNat / 4), symbol (a.toNat % 4 * 16), '=', '=']
  | [a, b] =>
      [symbol (a.toNat / 4), symbol (a.toNat % 4 * 16 + b.toNat / 16),
        symbol (b.toNat % 16 * 4), '=']
  | a :: b :: c :: rest =>
      symbol (a.toNat / 4) :: symbol (a.toNat % 4 * 16 + b.toNat / 16)
        :: symbol (b.toNat % 16 * 4 + c.toNat / 64) :: symbol (c.toNat % 64) :: encode rest

/-- Nothing but the alphabet and the padding character comes out. -/
theorem mem_encode {bs : List UInt8} {c : Char} (h : c ∈ encode bs) :
    c = '=' ∨ ∃ i, i < 64 ∧ c = symbol i := by
  induction bs using encode.induct with
  | case1 => cases h
  | case2 a =>
      have ha : a.toNat < 256 := a.toNat_lt
      simp only [encode, List.mem_cons, List.not_mem_nil, or_false] at h
      rcases h with rfl | rfl | rfl | rfl
      · exact Or.inr ⟨_, by omega, rfl⟩
      · exact Or.inr ⟨_, by omega, rfl⟩
      · exact Or.inl rfl
      · exact Or.inl rfl
  | case3 a b =>
      have ha : a.toNat < 256 := a.toNat_lt
      have hb : b.toNat < 256 := b.toNat_lt
      simp only [encode, List.mem_cons, List.not_mem_nil, or_false] at h
      rcases h with rfl | rfl | rfl | rfl
      · exact Or.inr ⟨_, by omega, rfl⟩
      · exact Or.inr ⟨_, by omega, rfl⟩
      · exact Or.inr ⟨_, by omega, rfl⟩
      · exact Or.inl rfl
  | case4 a b c' rest ih =>
      have ha : a.toNat < 256 := a.toNat_lt
      have hb : b.toNat < 256 := b.toNat_lt
      have hc : c'.toNat < 256 := c'.toNat_lt
      simp only [encode, List.mem_cons] at h
      rcases h with rfl | rfl | rfl | rfl | h
      · exact Or.inr ⟨_, by omega, rfl⟩
      · exact Or.inr ⟨_, by omega, rfl⟩
      · exact Or.inr ⟨_, by omega, rfl⟩
      · exact Or.inr ⟨_, by omega, rfl⟩
      · exact ih h

/-! ## Decoding -/

/-- What the decoder says of a character outside the alphabet: its byte
in ISO-8859-1, as a signed one, in base 16. -/
def illegalText (c : Char) : String :=
  let byte := if c.toNat < 256 then c.toNat else '?'.toNat
  "Illegal base64 character "
    ++ (if byte < 128 then "" else "-")
    ++ String.ofList (Nat.toDigits 16 (if byte < 128 then byte else 256 - byte))

/-- The bytes of an unfinished last unit. -/
def finish : List Nat → Except String (List UInt8)
  | [] => .ok []
  | [_] => .error "Last unit does not have enough valid bits"
  | [a, b] => .ok [UInt8.ofNat (a * 4 + b / 16)]
  | a :: b :: c :: _ => .ok [UInt8.ofNat (a * 4 + b / 16), UInt8.ofNat (b * 16 + c / 4)]

/-- After the padding nothing may follow; `sp` is the position reached. -/
def afterPadding (unit : List Nat) (sp : Nat) : List Char → Except String (List UInt8)
  | [] => finish unit
  | _ :: _ => do
      let _ ← finish unit
      .error ("Input byte array has incorrect ending byte at " ++ toString sp)

/-- A padding character after the unit so far: none is needed after a
full unit, two end a unit of two. -/
def atPadding (sp : Nat) : List Nat → List Char → Except String (List UInt8)
  | [], _ => .error "Input byte array has wrong 4-byte ending unit"
  | [a, b], '=' :: rest => afterPadding [a, b] (sp + 2) rest
  | [_, _], _ => .error "Input byte array has wrong 4-byte ending unit"
  | unit, rest => afterPadding unit (sp + 1) rest

/-- The unit so far is a list of sextets, `sp` counts the characters read. -/
def decodeUnits (unit : List Nat) (sp : Nat) : List Char → Except String (List UInt8)
  | [] => finish unit
  | c :: rest =>
      if c = '=' then atPadding sp unit rest
      else
        match sextet? c with
        | none => .error (illegalText c)
        | some v =>
            match unit with
            | [a, b, d] => (decodeUnits [] (sp + 1) rest).map fun tail =>
                UInt8.ofNat (a * 4 + b / 16) :: UInt8.ofNat (b * 16 + d / 4)
                  :: UInt8.ofNat (d * 64 + v) :: tail
            | unit => decodeUnits (unit ++ [v]) (sp + 1) rest

def decode (text : List Char) : Except String (List UInt8) :=
  if text.length = 1 then
    .error "Input byte[] should at least have 2 bytes for base64 bytes"
  else decodeUnits [] 0 text

/-! ## Decoding undoes encoding -/

theorem decodeUnits_symbol {unit : List Nat} (h : unit.length < 3) {i : Nat} (hi : i < 64)
    (sp : Nat) (rest : List Char) :
    decodeUnits unit sp (symbol i :: rest) = decodeUnits (unit ++ [i]) (sp + 1) rest := by
  rcases unit with _ | ⟨a, _ | ⟨b, _ | ⟨d, unit⟩⟩⟩
  case cons.cons.cons =>
    simp only [List.length_cons] at h
    omega
  all_goals
    rw [decodeUnits, if_neg (symbol_ne_pad hi), sextet?_symbol hi]

theorem decodeUnits_last {a b d i : Nat} (hi : i < 64) (sp : Nat) (rest : List Char) :
    decodeUnits [a, b, d] sp (symbol i :: rest) = (decodeUnits [] (sp + 1) rest).map fun tail =>
      UInt8.ofNat (a * 4 + b / 16) :: UInt8.ofNat (b * 16 + d / 4)
        :: UInt8.ofNat (d * 64 + i) :: tail := by
  rw [decodeUnits, if_neg (symbol_ne_pad hi), sextet?_symbol hi]

theorem ofNat_eq_of_mod {n : Nat} {b : UInt8} (h : n % 256 = b.toNat) : UInt8.ofNat n = b := by
  apply UInt8.toNat_inj.mp
  rw [UInt8.toNat_ofNat']
  exact h

theorem decodeUnits_encode (bs : List UInt8) (sp : Nat) :
    decodeUnits [] sp (encode bs) = .ok bs := by
  induction bs using encode.induct generalizing sp with
  | case1 => rfl
  | case2 a =>
      have ha : a.toNat < 256 := a.toNat_lt
      rw [encode, decodeUnits_symbol (by simp) (by omega), decodeUnits_symbol (by simp) (by omega)]
      show Except.ok [UInt8.ofNat _] = _
      rw [ofNat_eq_of_mod (b := a) (by omega)]
  | case3 a b =>
      have ha : a.toNat < 256 := a.toNat_lt
      have hb : b.toNat < 256 := b.toNat_lt
      rw [encode, decodeUnits_symbol (by simp) (by omega), decodeUnits_symbol (by simp) (by omega),
        decodeUnits_symbol (by simp) (by omega)]
      show Except.ok [UInt8.ofNat _, UInt8.ofNat _] = _
      rw [ofNat_eq_of_mod (b := a) (by omega), ofNat_eq_of_mod (b := b) (by omega)]
  | case4 a b c rest ih =>
      have ha : a.toNat < 256 := a.toNat_lt
      have hb : b.toNat < 256 := b.toNat_lt
      have hc : c.toNat < 256 := c.toNat_lt
      rw [encode, decodeUnits_symbol (by simp) (by omega), decodeUnits_symbol (by simp) (by omega),
        decodeUnits_symbol (by simp) (by omega)]
      simp only [List.nil_append, List.cons_append]
      rw [decodeUnits_last (by omega), ih]
      show Except.ok (UInt8.ofNat _ :: UInt8.ofNat _ :: UInt8.ofNat _ :: rest) = _
      rw [ofNat_eq_of_mod (b := a) (by omega), ofNat_eq_of_mod (b := b) (by omega),
        ofNat_eq_of_mod (b := c) (by omega)]

theorem length_encode_ne_one (bs : List UInt8) : (encode bs).length ≠ 1 := by
  match bs with
  | [] => simp [encode]
  | [_] => simp [encode]
  | [_, _] => simp [encode]
  | _ :: _ :: _ :: _ => simp [encode]

/-- **Base64 round trip.** -/
theorem decode_encode (bs : List UInt8) : decode (encode bs) = .ok bs := by
  rw [decode, if_neg (length_encode_ne_one bs), decodeUnits_encode]

end Base64
