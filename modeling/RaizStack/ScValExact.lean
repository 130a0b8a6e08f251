import Mathlib.Data.List.FinRange
import RaizStack.ScValRaw

/-!
# How much of its bytes a value remembers

A value decoded from standard bytes is written back as those bytes; what
the decoder is lenient about is lost. `RawVal.normal` is a spelling
without any of it: booleans and pointers 0 or 1, zero padding, lists
that are there. Re-encoding a decoded value gives its normal form
(`reencode_value`), which is the spelling itself exactly when that was
standard (`normal_spelt_iff`). So values are equal only for bytes with
one normal form.

Hex and strkeys are read back by decoders of their own, for `ScVal`
holds texts where the encoding has bytes.
-/

namespace RaizStack

open XdrReader Reading BigEndian XdrVal

/-! ## Hex -/

def hexValue (c : Char) : Nat :=
  ['0', '1', '2', '3', '4', '5', '6', '7', '8', '9', 'a', 'b', 'c', 'd', 'e', 'f'].idxOf c

def ofHex : List Char → List UInt8
  | high :: low :: rest => UInt8.ofNat (16 * hexValue high + hexValue low) :: ofHex rest
  | _ => []

theorem hexValue_hexDigit {n : Nat} (h : n < 16) : hexValue (hexDigit n) = n := by
  have hall : ∀ n : Fin 16, hexValue (hexDigit n) = n := by decide +kernel
  exact hall ⟨n, h⟩

theorem ofHex_toHex (bs : List UInt8) : ofHex (toHex bs).toList = bs := by
  rw [toHex, String.toList_ofList]
  induction bs with
  | nil => rfl
  | cons b bs ih =>
      have hb : b.toNat < 256 := b.toNat_lt
      have hbyte : 16 * (b.toNat / 16) + b.toNat % 16 = b.toNat := Nat.div_add_mod _ _
      rw [List.flatMap_cons, List.cons_append, List.singleton_append, ofHex, ih,
        hexValue_hexDigit (by omega), hexValue_hexDigit (by omega), hbyte, UInt8.ofNat_toNat]

/-! ## Re-encoding -/

namespace ScVal

/-- The address a strkey is the text of. -/
def addressXdr (s : String) : Option XdrVal :=
  match parseStrKey s with
  | none => none
  | some (version, payload) =>
      if h : payload.length = 32 then
        if version = accountVersion then some (.account ⟨payload.toArray, by simpa using h⟩)
        else if version = contractVersion then some (.contract ⟨payload.toArray, by simpa using h⟩)
        else none
      else none

mutual

/-- The value the XDR files define. A list is one that is there; an
`Undecodable` is no value. -/
def toXdr : ScVal → Option XdrVal
  | bool value => some (.bool value)
  | void => some .void
  | err type code => some (.error (BitVec.ofInt 32 type) (BitVec.ofInt 32 code))
  | u32 value => some (.u32 (BitVec.ofInt 32 value))
  | i32 value => some (.i32 (BitVec.ofInt 32 value))
  | u64 value => some (.u64 (BitVec.ofInt 64 value))
  | i64 value => some (.i64 (BitVec.ofInt 64 value))
  | timepoint value => some (.timepoint (BitVec.ofInt 64 value))
  | duration value => some (.duration (BitVec.ofInt 64 value))
  | u128 value => some (.u128 (BitVec.ofInt 128 value))
  | i128 value => some (.i128 (BitVec.ofInt 128 value))
  | u256 value => some (.u256 (BitVec.ofInt 256 value))
  | i256 value => some (.i256 (BitVec.ofInt 256 value))
  | bytes hex => some (.bytes (ofHex hex.toList))
  | str value => some (.string value)
  | sym value => some (.symbol value)
  | vec items => (itemsXdr items).map fun xs => .vec (some xs)
  | map entries => (entriesXdr entries).map fun es => .map (some es)
  | addr value => addressXdr value
  | undecodable _ _ => none

def itemsXdr : List ScVal → Option (List XdrVal)
  | [] => some []
  | v :: vs => do
      let x ← toXdr v
      let xs ← itemsXdr vs
      some (x :: xs)

def entriesXdr : List (ScVal × ScVal) → Option (List (XdrVal × XdrVal))
  | [] => some []
  | (k, v) :: es => do
      let x ← toXdr k
      let y ← toXdr v
      let xs ← entriesXdr es
      some ((x, y) :: xs)

end

/-- The standard encoding of a decoded value. -/
def reencode (v : ScVal) : Option (List UInt8) :=
  v.toXdr.map XdrVal.encode

theorem addressXdr_strKey_account (key : Vector UInt8 32) :
    addressXdr (strKey accountVersion key.toList) = some (.account key) := by
  rw [addressXdr, parseStrKey_strKey]
  simp [Vector.toList]

theorem addressXdr_strKey_contract (id : Vector UInt8 32) :
    addressXdr (strKey contractVersion id.toList) = some (.contract id) := by
  rw [addressXdr, parseStrKey_strKey]
  simp [accountVersion, contractVersion, Vector.toList]

theorem itemsXdr_map {δ : Type} {f : δ → ScVal} {g : δ → XdrVal} {xs : List δ}
    (h : ∀ x ∈ xs, (f x).toXdr = some (g x)) : itemsXdr (xs.map f) = some (xs.map g) := by
  induction xs with
  | nil => rfl
  | cons x xs ih =>
      rw [List.map_cons, itemsXdr, h x List.mem_cons_self,
        ih fun y hy => h y (List.mem_cons_of_mem x hy)]
      rfl

theorem entriesXdr_map {δ : Type} {f f' : δ → ScVal} {g g' : δ → XdrVal} {xs : List δ}
    (h : ∀ x ∈ xs, (f x).toXdr = some (g x)) (h' : ∀ x ∈ xs, (f' x).toXdr = some (g' x)) :
    entriesXdr (xs.map fun x => (f x, f' x)) = some (xs.map fun x => (g x, g' x)) := by
  induction xs with
  | nil => rfl
  | cons x xs ih =>
      rw [List.map_cons, entriesXdr, h x List.mem_cons_self, h' x List.mem_cons_self,
        ih (fun y hy => h y (List.mem_cons_of_mem x hy))
          fun y hy => h' y (List.mem_cons_of_mem x hy)]
      rfl

end ScVal

/-- A value whose bytes are determined is found again. -/
theorem toXdr_plain {x : XdrVal} (h : x.isPlain = true) : x.value.toXdr = some x := by
  have hnat : ∀ {w : Nat} (y : BitVec w), BitVec.ofInt w (y.toNat : Int) = y := by
    intro w y
    rw [BitVec.ofInt_natCast, BitVec.ofNat_toNat, BitVec.setWidth_eq]
  cases x with
  | bool | bytes | string | symbol | vec | map => cases h
  | void => rfl
  | account key => exact ScVal.addressXdr_strKey_account key
  | contract id => exact ScVal.addressXdr_strKey_contract id
  | _ => simp only [XdrVal.value, ScVal.toXdr, hnat, BitVec.ofInt_toInt]

/-! ## Normal forms -/

/-- The word of a pointer, as it is written. -/
def Flag.one : Flag := ⟨1, by decide⟩

def RawBody.normal (b : RawBody) : RawBody :=
  { b with
    pad := List.replicate ((4 - b.body.length % 4) % 4) 0
    pad_length := List.length_replicate }

/-- The body of a text is UTF-8. -/
def RawBody.Utf8 (b : RawBody) : Prop :=
  (String.fromUTF8? ⟨b.body.toArray⟩).isSome = true

namespace RawVal

/-- Booleans and pointers 0 or 1, zero padding, lists that are there. -/
def normal : RawVal → RawVal
  | plain x h => plain x h
  | bool word => bool (if word = 0 then 0 else 1)
  | bytes b => bytes b.normal
  | string b => string b.normal
  | symbol b => symbol b.normal
  | noVec => vec .one 0 (by decide) fun i => i.elim0
  | vec _ n hn items => vec .one n hn fun i => (items i).normal
  | noMap => map .one 0 (by decide) (fun i => i.elim0) fun i => i.elim0
  | map _ n hn keys values => map .one n hn (fun i => (keys i).normal) fun i => (values i).normal

/-- No string or symbol in it is invalid in UTF-8. -/
def Utf8 : RawVal → Prop
  | string b | symbol b => b.Utf8
  | vec _ _ _ items => ∀ i, (items i).Utf8
  | map _ _ _ keys values => ∀ i, (keys i).Utf8 ∧ (values i).Utf8
  | _ => True

/-- Spelt by the rules, with no absent vector or map. -/
def Standard : RawVal → Prop
  | plain _ _ => True
  | bool word => word = 0 ∨ word = 1
  | bytes b | string b | symbol b => b.pad = b.normal.pad
  | noVec | noMap => False
  | vec flag _ _ items => flag.1 = 1 ∧ ∀ i, (items i).Standard
  | map flag _ _ keys values => flag.1 = 1 ∧ ∀ i, (keys i).Standard ∧ (values i).Standard

/-- What is decoded, as the XDR files define it. -/
def xdr (lossy : List UInt8 → String) : RawVal → XdrVal
  | plain x _ => x
  | bool word => .bool (decide (word ≠ 0))
  | bytes b => .bytes b.body
  | string b => .string (utf8Text lossy b.body)
  | symbol b => .symbol (utf8Text lossy b.body)
  | noVec => .vec (some [])
  | vec _ _ _ items => .vec (some (List.ofFn fun i => (items i).xdr lossy))
  | noMap => .map (some [])
  | map _ _ _ keys values =>
      .map (some (List.ofFn fun i => ((keys i).xdr lossy, (values i).xdr lossy)))

end RawVal

/-! ## A value gives its normal form -/

section Exact

variable (lossy : List UInt8 → String)

theorem toXdr_value (w : RawVal) : (w.value lossy).toXdr = some (w.xdr lossy) := by
  induction w with
  | plain x h => exact toXdr_plain h
  | bytes b => rw [RawVal.value, ScVal.toXdr, ofHex_toHex, RawVal.xdr]
  | vec flag n hn items ih =>
      have hitems : ∀ i ∈ List.finRange n,
          ((items i).value lossy).toXdr = some ((items i).xdr lossy) := fun i _ => ih i
      rw [RawVal.value, ScVal.toXdr, List.ofFn_eq_map, ScVal.itemsXdr_map hitems, RawVal.xdr,
        List.ofFn_eq_map, Option.map_some]
  | map flag n hn keys values ihk ihv =>
      rw [RawVal.value, ScVal.toXdr, List.ofFn_eq_map, ScVal.entriesXdr_map (fun i _ => ihk i)
        fun i _ => ihv i, RawVal.xdr, List.ofFn_eq_map, Option.map_some]
  | _ => rfl

theorem utf8_utf8Text {b : RawBody} (h : b.Utf8) : utf8 (utf8Text lossy b.body) = b.body := by
  unfold RawBody.Utf8 String.fromUTF8? at h
  unfold utf8Text String.fromUTF8?
  split at h
  · rename_i hvalid
    rw [dif_pos hvalid]
    simp [utf8, String.fromUTF8]
  · cases h

theorem encode_xdr {w : RawVal} (h : w.Utf8) : (w.xdr lossy).encode = w.normal.spelt := by
  induction w with
  | plain x hplain => rfl
  | bool word =>
      by_cases hword : word = 0
      · subst hword
        rfl
      · rw [RawVal.xdr, RawVal.normal, RawVal.spelt, encode, if_neg hword, if_pos (by simpa)]
        rfl
  | bytes b => rfl
  | string b =>
      rw [RawVal.xdr, encode, utf8_utf8Text lossy h]
      rfl
  | symbol b =>
      rw [RawVal.xdr, encode, utf8_utf8Text lossy h]
      rfl
  | noVec => rfl
  | vec flag n hn items ih =>
      have hitems : (fun i => ((items i).xdr lossy).encode) = fun i => (items i).normal.spelt :=
        funext fun i => ih i (h i)
      rw [RawVal.xdr, encode, encodeItems_eq, List.length_ofFn, List.flatMap_def, List.map_ofFn]
      rw [show encode ∘ _ = _ from hitems]
      rfl
  | noMap => rfl
  | map flag n hn keys values ihk ihv =>
      have hentries : (fun i => ((keys i).xdr lossy).encode ++ ((values i).xdr lossy).encode)
          = fun i => (keys i).normal.spelt ++ (values i).normal.spelt :=
        funext fun i => by rw [ihk i (h i).1, ihv i (h i).2]
      rw [RawVal.xdr, encode, encodeEntries_eq, List.length_ofFn, List.flatMap_def, List.map_ofFn]
      rw [show (fun e : XdrVal × XdrVal => e.1.encode ++ e.2.encode) ∘ _ = _ from hentries]
      rfl

/-- **A decoded value is written as its normal form.** -/
theorem reencode_value {w : RawVal} (h : w.Utf8) :
    (w.value lossy).reencode = some w.normal.spelt := by
  rw [ScVal.reencode, toXdr_value, Option.map_some, encode_xdr lossy h]

end Exact

/-! ## Spellings that are their own normal form -/

/-- Two ways to write the elements of a list, told apart from the front. -/
theorem flatMap_append_cancel {δ : Type} {f g : δ → List UInt8} {P : δ → Prop} {xs : List δ}
    (h : ∀ x ∈ xs, ∀ r r', f x ++ r = g x ++ r' → P x ∧ r = r') {r r' : List UInt8}
    (heq : xs.flatMap f ++ r = xs.flatMap g ++ r') : (∀ x ∈ xs, P x) ∧ r = r' := by
  induction xs with
  | nil => exact ⟨by simp, heq⟩
  | cons x xs ih =>
      rw [List.flatMap_cons, List.flatMap_cons, List.append_assoc, List.append_assoc] at heq
      obtain ⟨hx, htail⟩ := h x List.mem_cons_self _ _ heq
      obtain ⟨hxs, hr⟩ := ih (fun y hy => h y (List.mem_cons_of_mem x hy)) htail
      exact ⟨List.forall_mem_cons.mpr ⟨hx, hxs⟩, hr⟩

theorem word32_append_inj {x y : BitVec 32} {r r' : List UInt8}
    (h : word32 x.toNat ++ r = word32 y.toNat ++ r') : x = y ∧ r = r' := by
  obtain ⟨hword, hr⟩ := List.append_inj h (by simp [word32])
  have hvalue := congrArg ofBE hword
  rw [word32, word32, ofBE_toBE_of_lt x.isLt, ofBE_toBE_of_lt y.isLt] at hvalue
  exact ⟨BitVec.eq_of_toNat_eq hvalue, hr⟩

theorem body_append_inj {b : RawBody} {r r' : List UInt8}
    (h : b.normal.spelt ++ r = b.spelt ++ r') : b.pad = b.normal.pad ∧ r = r' := by
  simp only [RawBody.spelt, List.append_assoc] at h
  have hpads := List.append_cancel_left (List.append_cancel_left h)
  obtain ⟨hpad, hr⟩ := List.append_inj hpads (by rw [b.normal.pad_length, b.pad_length]; rfl)
  exact ⟨hpad.symm, hr⟩

/-- The normal form of a value, read off the front of a spelling of it,
is all of that spelling, and the spelling was standard. -/
theorem normal_append_cancel (w : RawVal) (r r' : List UInt8)
    (h : w.normal.spelt ++ r = w.spelt ++ r') : w.Standard ∧ r = r' := by
  induction w generalizing r r' with
  | plain x hplain => exact ⟨trivial, List.append_cancel_left h⟩
  | bool word =>
      simp only [RawVal.normal, RawVal.spelt, List.append_assoc] at h
      obtain ⟨hword, hr⟩ := word32_append_inj (List.append_cancel_left h)
      refine ⟨?_, hr⟩
      split at hword
      · exact .inl hword.symm
      · exact .inr hword.symm
  | bytes b =>
      simp only [RawVal.normal, RawVal.spelt, List.append_assoc] at h
      exact body_append_inj (List.append_cancel_left h)
  | string b =>
      simp only [RawVal.normal, RawVal.spelt, List.append_assoc] at h
      exact body_append_inj (List.append_cancel_left h)
  | symbol b =>
      simp only [RawVal.normal, RawVal.spelt, List.append_assoc] at h
      exact body_append_inj (List.append_cancel_left h)
  | noVec =>
      simp only [RawVal.normal, RawVal.spelt, List.append_assoc] at h
      have hflag := List.append_cancel_left h
      exact absurd (word32_append_inj (y := 0) hflag).1 (by decide)
  | vec flag n hn items ih =>
      simp only [RawVal.normal, RawVal.spelt, List.append_assoc, List.ofFn_eq_map,
        ← List.flatMap_def] at h
      obtain ⟨hflag, hrest⟩ := word32_append_inj (List.append_cancel_left h)
      obtain ⟨hitems, hr⟩ := flatMap_append_cancel (P := fun i => (items i).Standard)
        (fun i _ => ih i) (List.append_cancel_left hrest)
      exact ⟨⟨hflag.symm, fun i => hitems i (List.mem_finRange i)⟩, hr⟩
  | noMap =>
      simp only [RawVal.normal, RawVal.spelt, List.append_assoc] at h
      have hflag := List.append_cancel_left h
      exact absurd (word32_append_inj (y := 0) hflag).1 (by decide)
  | map flag n hn keys values ihk ihv =>
      simp only [RawVal.normal, RawVal.spelt, List.append_assoc, List.ofFn_eq_map,
        ← List.flatMap_def] at h
      obtain ⟨hflag, hrest⟩ := word32_append_inj (List.append_cancel_left h)
      have hentry : ∀ i ∈ List.finRange n, ∀ s s',
          ((keys i).normal.spelt ++ (values i).normal.spelt) ++ s
            = ((keys i).spelt ++ (values i).spelt) ++ s' →
          ((keys i).Standard ∧ (values i).Standard) ∧ s = s' := by
        intro i _ s s' heq
        rw [List.append_assoc, List.append_assoc] at heq
        obtain ⟨hkey, hvalue⟩ := ihk i _ _ heq
        obtain ⟨hvalue, hs⟩ := ihv i _ _ hvalue
        exact ⟨⟨hkey, hvalue⟩, hs⟩
      obtain ⟨hentries, hr⟩ := flatMap_append_cancel hentry (List.append_cancel_left hrest)
      exact ⟨⟨hflag.symm, fun i => hentries i (List.mem_finRange i)⟩, hr⟩

theorem normal_of_standard {w : RawVal} (h : w.Standard) : w.normal = w := by
  have hflag : ∀ {flag : Flag}, flag.1 = 1 → Flag.one = flag := fun h => Subtype.ext h.symm
  have hbody : ∀ {b : RawBody}, b.pad = b.normal.pad → b.normal = b := by
    intro b hpad
    obtain ⟨body, pad, hlen, hlt⟩ := b
    obtain rfl : pad = List.replicate ((4 - body.length % 4) % 4) 0 := hpad
    rfl
  induction w with
  | plain x hplain => rfl
  | bool word =>
      rcases h with rfl | rfl
      · rfl
      · rfl
  | bytes b => rw [RawVal.normal, hbody h]
  | string b => rw [RawVal.normal, hbody h]
  | symbol b => rw [RawVal.normal, hbody h]
  | noVec => cases h
  | vec flag n hn items ih =>
      rw [RawVal.normal, hflag h.1, funext fun i => ih i (h.2 i)]
  | noMap => cases h
  | map flag n hn keys values ihk ihv =>
      rw [RawVal.normal, hflag h.1, funext fun i => ihk i (h.2 i).1,
        funext fun i => ihv i (h.2 i).2]

theorem normal_spelt_iff {w : RawVal} : w.normal.spelt = w.spelt ↔ w.Standard := by
  constructor
  · intro h
    exact (normal_append_cancel w [] [] (by rw [h])).1
  · intro h
    rw [normal_of_standard h]

/-- **What the decoder accepts, and what is left of it**: the spellings
of values; of a spelling in UTF-8 its normal form, which is the spelling
itself when that is standard. Spellings of one value have one normal
form. -/
theorem decode_exact (lossy : List UInt8 → String) :
    (∀ (text : String) (v : ScVal), ScVal.decode lossy text = .ok v ↔
      ∃ w : RawVal, Base64.decode (Text.trim text.toList) = .ok w.spelt ∧ v = w.value lossy) ∧
    (∀ w : RawVal, w.Utf8 → (w.value lossy).reencode = some w.normal.spelt ∧
      ((w.value lossy).reencode = some w.spelt ↔ w.Standard)) ∧
    ∀ w w' : RawVal, w.Utf8 → w'.Utf8 → w.value lossy = w'.value lossy →
      w.normal.spelt = w'.normal.spelt ∧ (w.Standard → w'.Standard → w.spelt = w'.spelt) := by
  refine ⟨fun _ _ => decode_eq_ok_iff lossy, fun w hw => ?_, fun w w' hw hw' hvalue => ?_⟩
  · rw [reencode_value lossy hw]
    exact ⟨rfl, by rw [Option.some.injEq, normal_spelt_iff]⟩
  · have hnormal : w.normal.spelt = w'.normal.spelt := by
      rw [← Option.some.injEq, ← reencode_value lossy hw, ← reencode_value lossy hw', hvalue]
    refine ⟨hnormal, fun hs hs' => ?_⟩
    rw [← normal_spelt_iff.mpr hs, ← normal_spelt_iff.mpr hs', hnormal]

/-- A boolean word of 2 reads as the word 1 does, an absent vector as an
empty one; the value is written as the second of each. -/
theorem decode_not_injective :
    (ScVal.decode (fun _ => "\uFFFD") "AAAAAAAAAAI=" = .ok (.bool true) ∧
      ScVal.decode (fun _ => "\uFFFD") "AAAAAAAAAAE=" = .ok (.bool true) ∧
      Base64.decode "AAAAAAAAAAI=".toList = .ok [0, 0, 0, 0, 0, 0, 0, 2] ∧
      (ScVal.bool true).reencode = some [0, 0, 0, 0, 0, 0, 0, 1]) ∧
    ScVal.decode (fun _ => "\uFFFD") "AAAAEAAAAAA=" = .ok (.vec []) ∧
      ScVal.decode (fun _ => "\uFFFD") "AAAAEAAAAAEAAAAA" = .ok (.vec []) ∧
      Base64.decode "AAAAEAAAAAA=".toList = .ok [0, 0, 0, 16, 0, 0, 0, 0] ∧
      (ScVal.vec []).reencode = some [0, 0, 0, 16, 0, 0, 0, 1, 0, 0, 0, 0] :=
  ⟨⟨rfl, rfl, rfl, rfl⟩, rfl, rfl, rfl, rfl⟩

end RaizStack
