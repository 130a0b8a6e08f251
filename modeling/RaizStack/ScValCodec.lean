import RaizStack.Fallible
import RaizStack.ScVal

/-!
# Decoding undoes encoding

`XdrVal` is a value as the Stellar XDR files define it, integers as words
of their width, addresses as keys; `XdrVal.encode` its standard encoding
and `XdrVal.value` what the decoder is to make of it. The proof is one
`Reads` fact for each primitive, composed arm by arm, and an induction
over the nesting that lets the length of the encoding be the fuel.

A vector or a map may be an absent pointer, which decodes like an empty
one.
-/

namespace RaizStack

open XdrReader Reading BigEndian

/-! ## Values and their encoding -/

inductive XdrVal where
  | bool (b : Bool)
  | void
  | error (type code : BitVec 32)
  | u32 (x : BitVec 32)
  | i32 (x : BitVec 32)
  | u64 (x : BitVec 64)
  | i64 (x : BitVec 64)
  | timepoint (x : BitVec 64)
  | duration (x : BitVec 64)
  | u128 (x : BitVec 128)
  | i128 (x : BitVec 128)
  | u256 (x : BitVec 256)
  | i256 (x : BitVec 256)
  | bytes (bs : List UInt8)
  | string (s : String)
  | symbol (s : String)
  | vec (items : Option (List XdrVal))
  | map (entries : Option (List (XdrVal × XdrVal)))
  | account (key : Vector UInt8 32)
  | contract (id : Vector UInt8 32)

namespace XdrVal

/-- A word of four bytes. -/
def word32 (n : Nat) : List UInt8 :=
  toBE 4 n

/-- A body with its length in front and padded to four. -/
def sizedBytes (bs : List UInt8) : List UInt8 :=
  word32 bs.length ++ (bs ++ List.replicate ((4 - bs.length % 4) % 4) 0)

def utf8 (s : String) : List UInt8 :=
  s.toByteArray.data.toList

mutual

def encode : XdrVal → List UInt8
  | bool b => word32 0 ++ word32 (if b then 1 else 0)
  | void => word32 1
  | error type code => word32 2 ++ (word32 type.toNat ++ word32 code.toNat)
  | u32 x => word32 3 ++ word32 x.toNat
  | i32 x => word32 4 ++ word32 x.toNat
  | u64 x => word32 5 ++ toBE 8 x.toNat
  | i64 x => word32 6 ++ toBE 8 x.toNat
  | timepoint x => word32 7 ++ toBE 8 x.toNat
  | duration x => word32 8 ++ toBE 8 x.toNat
  | u128 x => word32 9 ++ toBE 16 x.toNat
  | i128 x => word32 10 ++ toBE 16 x.toNat
  | u256 x => word32 11 ++ toBE 32 x.toNat
  | i256 x => word32 12 ++ toBE 32 x.toNat
  | bytes bs => word32 13 ++ sizedBytes bs
  | string s => word32 14 ++ sizedBytes (utf8 s)
  | symbol s => word32 15 ++ sizedBytes (utf8 s)
  | vec none => word32 16 ++ word32 0
  | vec (some items) => word32 16 ++ (word32 1 ++ (word32 items.length ++ encodeItems items))
  | map none => word32 17 ++ word32 0
  | map (some entries) =>
      word32 17 ++ (word32 1 ++ (word32 entries.length ++ encodeEntries entries))
  | account key => word32 18 ++ (word32 0 ++ (word32 0 ++ key.toList))
  | contract id => word32 18 ++ (word32 1 ++ id.toList)

def encodeItems : List XdrVal → List UInt8
  | [] => []
  | v :: vs => encode v ++ encodeItems vs

def encodeEntries : List (XdrVal × XdrVal) → List UInt8
  | [] => []
  | (k, v) :: es => (encode k ++ encode v) ++ encodeEntries es

end

mutual

/-- What decoding yields: exact integers, lowercase hex, strkeys. -/
def value : XdrVal → ScVal
  | bool b => .bool b
  | void => .void
  | error type code => .err type.toNat code.toNat
  | u32 x => .u32 x.toNat
  | i32 x => .i32 x.toInt
  | u64 x => .u64 x.toNat
  | i64 x => .i64 x.toInt
  | timepoint x => .timepoint x.toNat
  | duration x => .duration x.toNat
  | u128 x => .u128 x.toNat
  | i128 x => .i128 x.toInt
  | u256 x => .u256 x.toNat
  | i256 x => .i256 x.toInt
  | bytes bs => .bytes (toHex bs)
  | string s => .str s
  | symbol s => .sym s
  | vec none => .vec []
  | vec (some items) => .vec (itemValues items)
  | map none => .map []
  | map (some entries) => .map (entryValues entries)
  | account key => .addr (strKey accountVersion key.toList)
  | contract id => .addr (strKey contractVersion id.toList)

def itemValues : List XdrVal → List ScVal
  | [] => []
  | v :: vs => value v :: itemValues vs

def entryValues : List (XdrVal × XdrVal) → List (ScVal × ScVal)
  | [] => []
  | (k, v) :: es => (value k, value v) :: entryValues es

end

/-! ## The encoding as a list -/

theorem encodeItems_eq (items : List XdrVal) : encodeItems items = items.flatMap encode := by
  induction items with
  | nil => rfl
  | cons v vs ih => rw [encodeItems, ih, List.flatMap_cons]

theorem encodeEntries_eq (entries : List (XdrVal × XdrVal)) :
    encodeEntries entries = entries.flatMap fun e => encode e.1 ++ encode e.2 := by
  induction entries with
  | nil => rfl
  | cons e es ih => rw [encodeEntries, ih, List.flatMap_cons]

theorem itemValues_eq (items : List XdrVal) : itemValues items = items.map value := by
  induction items with
  | nil => rfl
  | cons v vs ih => rw [itemValues, ih, List.map_cons]

theorem entryValues_eq (entries : List (XdrVal × XdrVal)) :
    entryValues entries = entries.map fun e => (value e.1, value e.2) := by
  induction entries with
  | nil => rfl
  | cons e es ih => rw [entryValues, ih, List.map_cons]

theorem length_word32_append (d : Nat) (rest : List UInt8) :
    (word32 d ++ rest).length = 4 + rest.length := by
  simp [word32]

theorem length_sizedBytes (bs : List UInt8) :
    (sizedBytes bs).length = 4 + (bs.length + (4 - bs.length % 4) % 4) := by
  simp [sizedBytes, word32]

/-- Every value takes its discriminant at least. -/
theorem four_le_length (v : XdrVal) : 4 ≤ v.encode.length := by
  have hpieces : ∀ (d : Nat) (rest : List UInt8), 4 ≤ (word32 d ++ rest).length := by
    intro d rest
    rw [length_word32_append]
    exact Nat.le_add_right 4 rest.length
  rcases v with _ | _ | _ | _ | _ | _ | _ | _ | _ | _ | _ | _ | _ | _ | _ | _
    | (_ | _) | (_ | _) | _ | _
  case void => exact hpieces 1 []
  all_goals exact hpieces _ _

theorem length_le_encodeItems (items : List XdrVal) :
    items.length ≤ (encodeItems items).length := by
  induction items with
  | nil => exact le_rfl
  | cons v vs ih =>
      have hv := four_le_length v
      simp only [encodeItems, List.length_append, List.length_cons]
      omega

theorem length_le_encodeEntries (entries : List (XdrVal × XdrVal)) :
    entries.length ≤ (encodeEntries entries).length := by
  induction entries with
  | nil => exact le_rfl
  | cons e es ih =>
      have hk := four_le_length e.1
      simp only [encodeEntries, List.length_append, List.length_cons]
      omega

theorem length_mem_items {items : List XdrVal} {v : XdrVal} (h : v ∈ items) :
    v.encode.length ≤ (encodeItems items).length := by
  induction items with
  | nil => cases h
  | cons u us ih =>
      simp only [encodeItems, List.length_append]
      rcases List.mem_cons.mp h with rfl | hmem
      · omega
      · have := ih hmem
        omega

theorem length_mem_entries {entries : List (XdrVal × XdrVal)} {e : XdrVal × XdrVal}
    (h : e ∈ entries) :
    e.1.encode.length + e.2.encode.length ≤ (encodeEntries entries).length := by
  induction entries with
  | nil => cases h
  | cons u us ih =>
      simp only [encodeEntries, List.length_append]
      rcases List.mem_cons.mp h with rfl | hmem
      · omega
      · have := ih hmem
        omega

/-- The base64 text of the encoding. -/
def text (v : XdrVal) : String :=
  String.ofList (Base64.encode v.encode)

end XdrVal

/-! ## The primitives read what was written -/

open XdrVal

variable {α : Type}

theorem reads_fixed {bs : List UInt8} {n : Nat} (h : bs.length = n) : Reads (fixed n) bs bs := by
  intro pos rest
  subst h
  simp [fixed]

theorem word_eq (bs : List UInt8) : word bs = ofBE bs := by
  have hstep : (fun (v : Nat) (b : UInt8) => v <<< 8 ||| b.toNat)
      = fun v b => v * 256 + b.toNat := by
    funext v b
    exact shiftLeft_or_byte v b
  rw [word, hstep, ofBE]

theorem reads_u32 {n : Nat} (h : n < 2 ^ 32) : Reads XdrReader.u32 (word32 n) n := by
  have hword : word (word32 n) = n := by
    rw [word_eq, word32, ofBE_toBE_of_lt (by simpa using h)]
  have hread := (reads_fixed (length_toBE 4 n)).map word
  rwa [← word32, hword] at hread

theorem reads_u64 (n : Nat) : Reads u64Unsigned (toBE 8 n) ((n % 2 ^ 64 : Nat) : Int) := by
  have hread := (reads_fixed (length_toBE 8 n)).map fun bs => (ofBE bs : Int)
  rwa [ofBE_toBE] at hread

theorem reads_i64 (n : Nat) : Reads XdrReader.i64 (toBE 8 n) (BitVec.ofNat 64 n).toInt := by
  have hread := (reads_fixed (length_toBE 8 n)).map fun bs => (BitVec.ofNat 64 (word bs)).toInt
  have hword : BitVec.ofNat 64 (word (toBE 8 n)) = BitVec.ofNat 64 n := by
    apply BitVec.eq_of_toNat_eq
    rw [word_eq, ofBE_toBE, BitVec.toNat_ofNat, BitVec.toNat_ofNat]
    exact Nat.mod_mod _ _
  rwa [hword] at hread

/-- A length below `2 ^ 31` is the same as an `Int`. -/
theorem toInt_of_lt {n : Nat} (h : n < 2 ^ 31) : toInt n = n := by
  rw [toInt, BitVec.toInt_eq_toNat_cond, BitVec.toNat_ofNat]
  split <;> omega

/-! ## Integers -/

theorem reads_word32 (x : BitVec 32) : Reads XdrReader.u32 (word32 x.toNat) x.toNat :=
  reads_u32 x.isLt

theorem toInt_toNat (x : BitVec 32) : toInt x.toNat = x.toInt := by
  rw [toInt, BitVec.ofNat_toNat, BitVec.setWidth_eq]

theorem reads_word64 (x : BitVec 64) : Reads u64Unsigned (toBE 8 x.toNat) x.toNat := by
  have hread := reads_u64 x.toNat
  rwa [Nat.mod_eq_of_lt x.isLt] at hread

theorem reads_signed64 (x : BitVec 64) : Reads XdrReader.i64 (toBE 8 x.toNat) x.toInt := by
  have hread := reads_i64 x.toNat
  rwa [BitVec.ofNat_toNat, BitVec.setWidth_eq] at hread

theorem reads_parts128 {hi : Xdr Int} {n : Nat} {h : Int} (hhi : Reads hi (toBE 8 (n / 2 ^ 64)) h) :
    Reads (parts128 hi) (toBE 16 n) (h * 2 ^ 64 + (n % 2 ^ 64 : Nat)) := by
  have hlimbs : toBE 16 n = toBE 8 (n / 2 ^ 64) ++ toBE 8 n := toBE_add 8 8 n
  rw [hlimbs]
  exact hhi.bind ((reads_u64 n).map _)

theorem reads_parts256 (signed : Bool) {n : Nat} {h : Int}
    (hhi : Reads (highLimb signed) (toBE 8 (n / 2 ^ 192)) h) :
    Reads (parts256 signed) (toBE 32 n) (h * 2 ^ 192 + (n / 2 ^ 128 % 2 ^ 64 : Nat) * 2 ^ 128
      + (n / 2 ^ 64 % 2 ^ 64 : Nat) * 2 ^ 64 + (n % 2 ^ 64 : Nat)) := by
  have hlimbs : toBE 32 n = toBE 8 (n / 2 ^ 192) ++ (toBE 8 (n / 2 ^ 128)
      ++ (toBE 8 (n / 2 ^ 64) ++ toBE 8 n)) := by
    rw [show 32 = 8 + (8 + (8 + 8)) from rfl, toBE_add, toBE_add, toBE_add]
    rfl
  rw [hlimbs]
  refine hhi.bind ?_
  refine (reads_u64 _).bind ?_
  refine (reads_u64 _).bind ?_
  exact (reads_u64 n).map _

theorem reads_u128 (x : BitVec 128) : Reads (parts128 u64Unsigned) (toBE 16 x.toNat) x.toNat := by
  have hread := reads_parts128 (reads_u64 (x.toNat / 2 ^ 64))
  have hlt := x.isLt
  have hvalue : ((x.toNat / 2 ^ 64 % 2 ^ 64 : Nat) : Int) * 2 ^ 64 + (x.toNat % 2 ^ 64 : Nat)
      = x.toNat := by
    omega
  rwa [hvalue] at hread

theorem reads_i128 (x : BitVec 128) : Reads (parts128 XdrReader.i64) (toBE 16 x.toNat) x.toInt := by
  have hread := reads_parts128 (reads_i64 (x.toNat / 2 ^ 64))
  have hlt := x.isLt
  have hvalue : (BitVec.ofNat 64 (x.toNat / 2 ^ 64)).toInt * 2 ^ 64 + (x.toNat % 2 ^ 64 : Nat)
      = x.toInt := by
    rw [BitVec.toInt_eq_toNat_cond, BitVec.toInt_eq_toNat_cond, BitVec.toNat_ofNat]
    split <;> split <;> omega
  rwa [hvalue] at hread

theorem reads_u256 (x : BitVec 256) : Reads (parts256 false) (toBE 32 x.toNat) x.toNat := by
  have hread := reads_parts256 false (reads_u64 (x.toNat / 2 ^ 192))
  have hlt := x.isLt
  have hvalue : ((x.toNat / 2 ^ 192 % 2 ^ 64 : Nat) : Int) * 2 ^ 192
      + (x.toNat / 2 ^ 128 % 2 ^ 64 : Nat) * 2 ^ 128 + (x.toNat / 2 ^ 64 % 2 ^ 64 : Nat) * 2 ^ 64
      + (x.toNat % 2 ^ 64 : Nat) = x.toNat := by
    omega
  rwa [hvalue] at hread

theorem reads_i256 (x : BitVec 256) : Reads (parts256 true) (toBE 32 x.toNat) x.toInt := by
  have hread := reads_parts256 true (reads_i64 (x.toNat / 2 ^ 192))
  have hlt := x.isLt
  have hvalue : (BitVec.ofNat 64 (x.toNat / 2 ^ 192)).toInt * 2 ^ 192
      + (x.toNat / 2 ^ 128 % 2 ^ 64 : Nat) * 2 ^ 128 + (x.toNat / 2 ^ 64 % 2 ^ 64 : Nat) * 2 ^ 64
      + (x.toNat % 2 ^ 64 : Nat) = x.toInt := by
    rw [BitVec.toInt_eq_toNat_cond, BitVec.toInt_eq_toNat_cond, BitVec.toNat_ofNat]
    split <;> split <;> omega
  rwa [hvalue] at hread

/-! ## Bodies and addresses -/

/-- The reader does not look at the padding. -/
theorem reads_padded {bs pad : List UInt8} (h : bs.length < 2 ^ 31)
    (hpad : pad.length = (4 - bs.length % 4) % 4) :
    Reads (body (toInt bs.length)) (bs ++ pad) bs := by
  intro pos rest
  have hpadded : Reads (do
      let out ← fixed bs.length
      let _ ← fixed ((4 - bs.length % 4) % 4)
      pure out : Xdr (List UInt8)) (bs ++ pad) bs :=
    (reads_fixed rfl).bind ((reads_fixed hpad).map fun _ => bs)
  rw [toInt_of_lt h, body, bind_of_ok rfl, if_neg]
  · exact hpadded pos rest
  · simp only [List.append_assoc, List.length_append]
    omega

theorem reads_body {bs : List UInt8} (h : bs.length < 2 ^ 31) :
    Reads (body (toInt bs.length)) (bs ++ List.replicate ((4 - bs.length % 4) % 4) 0) bs :=
  reads_padded h (List.length_replicate ..)

theorem reads_sized {f : List UInt8 → ScVal} {b : List UInt8} (h : b.length < 2 ^ 31) :
    Reads (sized f) (sizedBytes b) (f b) :=
  (reads_u32 (by omega)).bind ((reads_body h).map f)

theorem utf8Text_utf8 (lossy : List UInt8 → String) (s : String) : utf8Text lossy (utf8 s) = s := by
  have hbytes : (⟨(utf8 s).toArray⟩ : ByteArray) = s.toByteArray := by
    simp [utf8]
  rw [utf8Text, hbytes, String.fromUTF8?, dif_pos s.isValidUTF8]
  rfl

theorem reads_text (lossy : List UInt8 → String) (f : String → ScVal) {s : String}
    (h : (utf8 s).length < 2 ^ 31) :
    Reads (sized fun bs => f (utf8Text lossy bs)) (sizedBytes (utf8 s)) (f s) := by
  have hread := reads_sized (f := fun bs => f (utf8Text lossy bs)) h
  rwa [utf8Text_utf8] at hread

theorem toInt_zero : toInt 0 = 0 := rfl

theorem toInt_one : toInt 1 = 1 := rfl

theorem reads_account (key : Vector UInt8 32) :
    Reads address (word32 0 ++ (word32 0 ++ key.toList)) (strKey accountVersion key.toList) := by
  refine (reads_u32 (by decide)).bind ?_
  rw [if_pos toInt_zero]
  refine (reads_u32 (by decide)).bind ?_
  rw [if_neg (by decide), ← encodeCheck_eq]
  exact (reads_fixed (by simp)).map encodeEd25519PublicKey

theorem reads_contract (id : Vector UInt8 32) :
    Reads address (word32 1 ++ id.toList) (strKey contractVersion id.toList) := by
  refine (reads_u32 (by decide)).bind ?_
  rw [if_neg (by decide), if_pos toInt_one, ← encodeCheck_eq]
  exact (reads_fixed (by simp)).map encodeContractStrKey

/-- A counted list behind a pointer that is there. -/
theorem reads_present {p : Xdr α} {δ : Type} (enc : δ → List UInt8) (val : δ → α) {xs : List δ}
    {flag : Nat} (hflag : flag ≠ 0) (hlt : flag < 2 ^ 32) (hlen : xs.length < 2 ^ 31)
    (h : ∀ x ∈ xs, Reads p (enc x) (val x)) :
    Reads (optionalList p) (word32 flag ++ (word32 xs.length ++ xs.flatMap enc)) (xs.map val) := by
  refine (reads_u32 hlt).bind ?_
  rw [if_neg hflag]
  refine (reads_u32 (by omega)).bind ?_
  rw [toInt_of_lt hlen, listOf, if_neg (by omega), Int.toNat_natCast]
  exact Reads.times enc val h

theorem reads_optionalList {p : Xdr α} {δ : Type} (enc : δ → List UInt8) (val : δ → α) {xs : List δ}
    (hlen : xs.length < 2 ^ 31) (h : ∀ x ∈ xs, Reads p (enc x) (val x)) :
    Reads (optionalList p) (word32 1 ++ (word32 xs.length ++ xs.flatMap enc)) (xs.map val) :=
  reads_present enc val (by decide) (by decide) hlen h

theorem reads_items {p : Xdr ScVal} {items : List XdrVal} (hlen : items.length < 2 ^ 31)
    (h : ∀ x ∈ items, Reads p x.encode x.value) :
    Reads (optionalList p) (word32 1 ++ (word32 items.length ++ encodeItems items))
      (itemValues items) := by
  rw [encodeItems_eq, itemValues_eq]
  exact reads_optionalList encode value hlen h

theorem reads_entries {p : Xdr (ScVal × ScVal)} {entries : List (XdrVal × XdrVal)}
    (hlen : entries.length < 2 ^ 31)
    (h : ∀ e ∈ entries, Reads p (e.1.encode ++ e.2.encode) (e.1.value, e.2.value)) :
    Reads (optionalList p) (word32 1 ++ (word32 entries.length ++ encodeEntries entries))
      (entryValues entries) := by
  rw [encodeEntries_eq, entryValues_eq]
  exact reads_optionalList (fun e : XdrVal × XdrVal => e.1.encode ++ e.2.encode)
    (fun e => (e.1.value, e.2.value)) hlen h

theorem reads_absent (p : Xdr α) : Reads (optionalList p) (word32 0) [] := by
  have hread := (reads_u32 (n := 0) (by decide)).bind (f := fun present =>
    if present = 0 then pure [] else do
      let n ← XdrReader.u32
      listOf (toInt n) p) (Reads.pure ([] : List α))
  rwa [List.append_nil] at hread

/-! ## The round trip -/

variable (lossy : List UInt8 → String)

/-- A discriminant and its arm. -/
theorem reads_arm {n d : Nat} {bs : List UInt8} {a : ScVal} (hd : d < 2 ^ 31)
    (h : Reads (arm lossy (XdrReader.scVal lossy n) d) bs a) :
    Reads (XdrReader.scVal lossy (n + 1)) (word32 d ++ bs) a := by
  refine (reads_u32 (by omega)).bind ?_
  rwa [toInt_of_lt hd]

theorem reads_as {p : Xdr α} {bs : List UInt8} {a : α} (h : Reads p bs a) (f : α → ScVal) :
    Reads (XdrReader.as p f) bs (f a) :=
  h.map f

/-- **Reading undoes encoding**, with the bytes of the encoding as fuel
and anything behind them. -/
theorem reads_scVal (fuel : Nat) (v : XdrVal) (hfuel : v.encode.length ≤ fuel)
    (hlen : v.encode.length < 2 ^ 31) :
    Reads (XdrReader.scVal lossy fuel) v.encode v.value := by
  induction fuel generalizing v with
  | zero =>
      have := four_le_length v
      omega
  | succ fuel ih =>
      rcases v with b | _ | ⟨type, code⟩ | x | x | x | x | x | x | x | x | x | x | bs | s | s
        | (_ | items) | (_ | entries) | key | id
      case bool =>
        refine reads_arm lossy (d := 0) (by decide) ?_
        cases b with
        | true => exact reads_as (reads_u32 (n := 1) (by decide)) _
        | false => exact reads_as (reads_u32 (n := 0) (by decide)) _
      case void =>
        have hread := reads_arm lossy (n := fuel) (d := 1) (by decide) (Reads.pure ScVal.void)
        rwa [List.append_nil] at hread
      case error =>
        refine reads_arm lossy (d := 2) (by decide) ?_
        refine (reads_word32 type).bind ?_
        exact (reads_word32 code).map fun code => ScVal.err type.toNat code
      case u32 => exact reads_arm lossy (d := 3) (by decide) (reads_as (reads_word32 x) _)
      case i32 =>
        have hread := reads_as (reads_word32 x) fun v => ScVal.i32 (toInt v)
        rw [toInt_toNat] at hread
        exact reads_arm lossy (d := 4) (by decide) hread
      case u64 => exact reads_arm lossy (d := 5) (by decide) (reads_as (reads_word64 x) _)
      case i64 => exact reads_arm lossy (d := 6) (by decide) (reads_as (reads_signed64 x) _)
      case timepoint => exact reads_arm lossy (d := 7) (by decide) (reads_as (reads_word64 x) _)
      case duration => exact reads_arm lossy (d := 8) (by decide) (reads_as (reads_word64 x) _)
      case u128 => exact reads_arm lossy (d := 9) (by decide) (reads_as (reads_u128 x) _)
      case i128 => exact reads_arm lossy (d := 10) (by decide) (reads_as (reads_i128 x) _)
      case u256 => exact reads_arm lossy (d := 11) (by decide) (reads_as (reads_u256 x) _)
      case i256 => exact reads_arm lossy (d := 12) (by decide) (reads_as (reads_i256 x) _)
      case bytes =>
        simp only [encode, length_word32_append, length_sizedBytes] at hlen
        exact reads_arm lossy (d := 13) (by decide) (reads_sized (by omega))
      case string =>
        simp only [encode, length_word32_append, length_sizedBytes] at hlen
        exact reads_arm lossy (d := 14) (by decide) (reads_text lossy ScVal.str (by omega))
      case symbol =>
        simp only [encode, length_word32_append, length_sizedBytes] at hlen
        exact reads_arm lossy (d := 15) (by decide) (reads_text lossy ScVal.sym (by omega))
      case vec.none => exact reads_arm lossy (d := 16) (by decide) (reads_as (reads_absent _) _)
      case vec.some =>
        -- what is behind the discriminant is shorter than the fuel that is left
        simp only [encode, length_word32_append] at hfuel hlen
        have hcount := length_le_encodeItems items
        have hitems : ∀ x ∈ items, Reads (XdrReader.scVal lossy fuel) x.encode x.value := by
          intro x hx
          have := length_mem_items hx
          exact ih x (by omega) (by omega)
        have hread := reads_items (by omega) hitems
        exact reads_arm lossy (d := 16) (by decide) (reads_as hread _)
      case map.none => exact reads_arm lossy (d := 17) (by decide) (reads_as (reads_absent _) _)
      case map.some =>
        simp only [encode, length_word32_append] at hfuel hlen
        have hcount := length_le_encodeEntries entries
        have hentries : ∀ e ∈ entries, Reads (do
            let key ← XdrReader.scVal lossy fuel
            let value ← XdrReader.scVal lossy fuel
            pure (key, value)) (e.1.encode ++ e.2.encode) (e.1.value, e.2.value) := by
          intro e he
          have := length_mem_entries he
          refine (ih e.1 (by omega) (by omega)).bind ?_
          exact (ih e.2 (by omega) (by omega)).map fun v => (e.1.value, v)
        have hread := reads_entries (by omega) hentries
        exact reads_arm lossy (d := 17) (by decide) (reads_as hread _)
      case account => exact reads_arm lossy (d := 18) (by decide) (reads_as (reads_account key) _)
      case contract => exact reads_arm lossy (d := 18) (by decide) (reads_as (reads_contract id) _)

/-! ## Through base64 -/

theorem isWhitespace_symbol {i : Nat} (h : i < 64) :
    Text.isWhitespace (Base64.symbol i) = false := by
  have hall : ∀ i : Fin 64, Text.isWhitespace (Base64.symbol i) = false := by decide +kernel
  exact hall ⟨i, h⟩

theorem trim_encode (bs : List UInt8) : Text.trim (Base64.encode bs) = Base64.encode bs := by
  refine Text.trim_of_forall fun c hc => ?_
  rcases Base64.mem_encode hc with rfl | ⟨i, hi, rfl⟩
  · rfl
  · exact isWhitespace_symbol hi

/-- What a reader takes whole, `decode` returns. -/
theorem decode_of_reads {raw : List UInt8} {a : ScVal}
    (h : Reads (XdrReader.scVal lossy raw.length) raw a) :
    ScVal.decode lossy (String.ofList (Base64.encode raw)) = .ok a := by
  have hread := h 0 []
  rw [List.append_nil] at hread
  simp only [ScVal.decode, String.toList_ofList, trim_encode, Base64.decode_encode, hread]
  rfl

/-- Encoded topics decode to their values. -/
theorem decodeTopics_texts {vs : List XdrVal} (h : ∀ v ∈ vs, v.encode.length < 2 ^ 31) :
    ScVal.decodeTopics lossy (vs.map XdrVal.text) = .ok (vs.map XdrVal.value) := by
  unfold ScVal.decodeTopics
  rw [Fallible.mapM_map]
  refine Fallible.mapM_eq_ok fun v hv => ?_
  have hdecode := decode_of_reads lossy (reads_scVal lossy _ v le_rfl (h v hv))
  rw [ScVal.decodeTopic]
  rw [XdrVal.text, hdecode]

/-- Nothing decodes from the empty text. -/
theorem text_ne_empty {v : XdrVal} (h : v.encode.length < 2 ^ 31) : v.text ≠ "" := by
  intro hempty
  have hdecode := decode_of_reads (fun _ => "") (reads_scVal (fun _ => "") _ v le_rfl h)
  have hnothing : ScVal.decode (fun _ => "") ""
      = .error (.scVal "truncated: need 4 more bytes, have 0" (some "")) := rfl
  rw [← XdrVal.text, hempty, hnothing] at hdecode
  cases hdecode

/-- **Decoding undoes encoding**: the base64 text of any value decodes to
exactly that value, and nothing is left over. -/
theorem decode_text (v : XdrVal) (hlen : v.encode.length < 2 ^ 31) :
    ScVal.decode lossy v.text = .ok v.value :=
  decode_of_reads lossy (reads_scVal lossy _ v le_rfl hlen)

/-- A map that holds an amount below zero under a symbol, a vector in a
vector and an absent one. -/
def sampleVal : XdrVal :=
  .map (some [(.symbol "amount", .i128 (-5)), (.vec (some [.vec (some [.void]), .vec none]), .bool true)])

theorem decode_text_sample :
    ScVal.decode (fun _ => "\uFFFD") sampleVal.text
      = .ok (.map [(.sym "amount", .i128 (-5)), (.vec [.vec [.void], .vec []], .bool true)]) :=
  decode_text _ sampleVal (by decide)

end RaizStack
