import RaizStack.Base64
import RaizStack.BigEndian
import RaizStack.Reading
import RaizStack.StrKey
import RaizStack.Text

/-!
# The SCVal decoder

`ScVal.decode` and its `XdrReader`: one base64 text to one value, with
everything that can be thrown on the way. Only `ScValDecodeException` is
caught by the callers; a negative element count reaches `List(n)` and
throws something else, which they let through.

The reader recurses into vectors and maps. Each level takes bytes before
it recurses, so the bytes left are enough fuel (`scVal_fuel`), and a
reader without bytes fails as the source does, on the discriminant.

What the JVM makes of bytes that are not UTF-8 is the parameter `lossy`.
-/

namespace RaizStack

/-! ## Values -/

inductive ScVal where
  | bool (value : Bool)
  | void
  | err (type code : Int)
  | u32 (value : Int)
  | i32 (value : Int)
  | u64 (value : Int)
  | i64 (value : Int)
  | timepoint (value : Int)
  | duration (value : Int)
  | u128 (value : Int)
  | i128 (value : Int)
  | u256 (value : Int)
  | i256 (value : Int)
  /-- Lowercase hex. -/
  | bytes (hex : String)
  | str (value : String)
  | sym (value : String)
  | vec (items : List ScVal)
  | map (entries : List (ScVal × ScVal))
  /-- A strkey. -/
  | addr (value : String)
  | undecodable (base64 reason : String)

namespace ScVal

/-! ## Accessors -/

def asSymbol : ScVal → Option String
  | .sym value => some value
  | _ => none

def asString : ScVal → Option String
  | .str value => some value
  | _ => none

def asAddress : ScVal → Option String
  | .addr value => some value
  | _ => none

def asU32 : ScVal → Option Int
  | .u32 value => some value
  | _ => none

/-- Any integer variant. -/
def asBigInteger : ScVal → Option Int
  | .u32 value | .i32 value | .u64 value | .i64 value | .timepoint value | .duration value
  | .u128 value | .i128 value | .u256 value | .i256 value => some value
  | _ => none

/-- The value under a symbol key, of a map. -/
def mapField (symbolKey : String) : ScVal → Option ScVal
  | .map entries => (entries.find? fun e => e.1.asSymbol == some symbolKey).map Prod.snd
  | _ => none

end ScVal

/-! ## The reader -/

/-- What is thrown: `ScValDecodeException`, an index out of bounds, or an
`IllegalArgumentException` of the library. -/
inductive Thrown where
  | scVal (rawMessage : String) (base64 : Option String)
  | outOfBounds
  | illegalArgument (message : String)
  deriving DecidableEq, Repr

abbrev Xdr (α : Type) := Reading.Reader UInt8 Thrown α

namespace XdrReader

variable {α : Type}

def fail (msg : String) : Xdr α :=
  fun _ => .error (.scVal msg none)

def remaining : Xdr Nat :=
  fun s => .ok (s.rest.length, s)

def position : Xdr Nat :=
  fun s => .ok (s.pos, s)

/-- `need` and the bytes it asked for. -/
def fixed (n : Nat) : Xdr (List UInt8) := fun s =>
  if s.rest.length < n then
    .error (.scVal ("truncated: need " ++ toString n ++ " more bytes, have "
      ++ toString s.rest.length) none)
  else .ok (s.rest.take n, ⟨s.pos + n, s.rest.drop n⟩)

/-- The shifts and ors over the bytes of a word. -/
def word (bs : List UInt8) : Nat :=
  bs.foldl (fun v b => v <<< 8 ||| b.toNat) 0

def u32 : Xdr Nat := do
  let bs ← fixed 4
  pure (word bs)

/-- `Long.toInt` of a word. -/
def toInt (v : Nat) : Int :=
  (BitVec.ofNat 32 v).toInt

def i64 : Xdr Int := do
  let bs ← fixed 8
  pure (BitVec.ofNat 64 (word bs)).toInt

/-- `BigInteger(1, slice)`. -/
def u64Unsigned : Xdr Int := do
  let bs ← fixed 8
  pure (BigEndian.ofBE bs : Int)

/-- Hi and lo of a 128-bit integer, `shiftLeft(64).add`. -/
def parts128 (hi : Xdr Int) : Xdr Int := do
  let hi ← hi
  let lo ← u64Unsigned
  pure (hi * 2 ^ 64 + lo)

def highLimb (signedHigh : Bool) : Xdr Int :=
  if signedHigh then i64 else u64Unsigned

def parts256 (signedHigh : Bool) : Xdr Int := do
  let hiHi ← highLimb signedHigh
  let hiLo ← u64Unsigned
  let loHi ← u64Unsigned
  let loLo ← u64Unsigned
  pure (hiHi * 2 ^ 192 + hiLo * 2 ^ 128 + loHi * 2 ^ 64 + loLo)

/-- Variable-length opaque body: `n` bytes, padded to four. -/
def body (n : Int) : Xdr (List UInt8) := do
  let left ← remaining
  if n < 0 ∨ (left : Int) < n then
    fail ("length " ++ toString n ++ " exceeds remaining " ++ toString left)
  else do
    let out ← fixed n.toNat
    let _ ← fixed ((4 - n.toNat % 4) % 4)
    pure out

/-- `List(n) { p }`. -/
def listOf (n : Int) (p : Xdr α) : Xdr (List α) :=
  if n < 0 then fun _ => .error (.illegalArgument ("Illegal Capacity: " ++ toString n))
  else Reading.times n.toNat p

def optionalList (p : Xdr α) : Xdr (List α) := do
  let present ← u32
  if present = 0 then pure []
  else do
    let n ← u32
    listOf (toInt n) p

def address : Xdr String := do
  let t ← u32
  if toInt t = 0 then do
    let keyType ← u32
    if toInt keyType ≠ 0 then
      fail ("unsupported PublicKey type " ++ toString (toInt keyType) ++ " (only ed25519 = 0)")
    else do
      let raw ← fixed 32
      pure (encodeEd25519PublicKey raw)
  else if toInt t = 1 then do
    let raw ← fixed 32
    pure (encodeContractStrKey raw)
  else
    fail ("unsupported ScAddressType " ++ toString (toInt t)
      ++ " (only account = 0 and contract = 1)")

def hexDigit (n : Nat) : Char :=
  ['0', '1', '2', '3', '4', '5', '6', '7', '8', '9', 'a', 'b', 'c', 'd', 'e', 'f'].getD n '0'

def toHex (bs : List UInt8) : String :=
  String.ofList (bs.flatMap fun b => [hexDigit (b.toNat / 16), hexDigit (b.toNat % 16)])

/-- `String(bytes, UTF_8)`. -/
def utf8Text (lossy : List UInt8 → String) (bs : List UInt8) : String :=
  (String.fromUTF8? ⟨bs.toArray⟩).getD (lossy bs)

/-- A reader, and a constructor for what it read. -/
def as (p : Xdr α) (f : α → ScVal) : Xdr ScVal := do
  let a ← p
  pure (f a)

/-- A length, its body, and a constructor for it. -/
def sized (f : List UInt8 → ScVal) : Xdr ScVal := do
  let n ← u32
  let bs ← body (toInt n)
  pure (f bs)

/-- The arm of a discriminant; `item` reads a nested value. -/
def arm (lossy : List UInt8 → String) (item : Xdr ScVal) (t : Int) : Xdr ScVal :=
  match t with
  | 0 => as u32 fun v => .bool (v ≠ 0)
  | 1 => pure .void
  | 2 => do
      let type ← u32
      let code ← u32
      pure (.err type code)
  | 3 => as u32 fun v => .u32 v
  | 4 => as u32 fun v => .i32 (toInt v)
  | 5 => as u64Unsigned .u64
  | 6 => as i64 .i64
  | 7 => as u64Unsigned .timepoint
  | 8 => as u64Unsigned .duration
  | 9 => as (parts128 u64Unsigned) .u128
  | 10 => as (parts128 i64) .i128
  | 11 => as (parts256 false) .u256
  | 12 => as (parts256 true) .i256
  | 13 => sized fun bs => .bytes (toHex bs)
  | 14 => sized fun bs => .str (utf8Text lossy bs)
  | 15 => sized fun bs => .sym (utf8Text lossy bs)
  | 16 => as (optionalList item) .vec
  | 17 => as (optionalList do
      let key ← item
      let value ← item
      pure (key, value)) .map
  | 18 => as address .addr
  | t => do
      let pos ← position
      fail ("unsupported ScValType discriminant " ++ toString t ++ " at offset "
        ++ toString ((pos : Int) - 4))

/-- `scVal()`, with the bytes left as fuel. -/
def scVal (lossy : List UInt8 → String) : Nat → Xdr ScVal
  | 0 => fail "truncated: need 4 more bytes, have 0"
  | fuel + 1 => do
      let t ← u32
      arm lossy (scVal lossy fuel) (toInt t)

end XdrReader

/-! ## Decoding a text -/

namespace ScVal

variable (lossy : List UInt8 → String)

def decode (base64 : String) : Except Thrown ScVal :=
  match Base64.decode (Text.trim base64.toList) with
  | .error e => .error (.scVal ("not valid base64: " ++ e) (some base64))
  | .ok raw =>
      match XdrReader.scVal lossy raw.length ⟨0, raw⟩ with
      | .error (.scVal rawMessage _) => .error (.scVal rawMessage (some base64))
      | .error .outOfBounds =>
          .error (.scVal ("truncated XDR (" ++ toString raw.length ++ " bytes)") (some base64))
      | .error e => .error e
      | .ok (value, reader) =>
          if reader.rest.length ≠ 0 then
            .error (.scVal ("trailing bytes after SCVal: " ++ toString reader.rest.length ++ " of "
              ++ toString raw.length) (some base64))
          else .ok value

/-- `decode`, or nothing when the bytes are not a shape we know. -/
def decodeOrNull (base64 : String) : Except Thrown (Option ScVal) :=
  match decode lossy base64 with
  | .ok value => .ok (some value)
  | .error (.scVal _ _) => .ok none
  | .error e => .error e

def decodeTopic (topic : String) : Except Thrown ScVal :=
  match decode lossy topic with
  | .ok value => .ok value
  | .error (.scVal rawMessage _) => .ok (.undecodable topic rawMessage)
  | .error e => .error e

def decodeTopics (topics : List String) : Except Thrown (List ScVal) :=
  topics.mapM (decodeTopic lossy)

end ScVal

end RaizStack
