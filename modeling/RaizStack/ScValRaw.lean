import RaizStack.ScValCodec

/-!
# What the decoder accepts

The decoder takes more than encodings: any word for a boolean, any
non-zero word for a pointer that is there, any bytes where the padding
goes, and texts that are not UTF-8. `RawVal` is a value with all of that
written down, so that a byte string is accepted exactly when it spells
one (`reads_raw`, `takes_scVal`).

An accepted piece of fixed size is found by its length: there is a value
with those bytes, the reader is known to read it, so it read nothing else
(`Reading.Takes.of_reads`).
-/

namespace RaizStack

open XdrReader Reading BigEndian XdrVal

/-! ## Values as spelt -/

/-- The values whose bytes are determined. -/
def XdrVal.isPlain : XdrVal → Bool
  | .bool _ | .bytes _ | .string _ | .symbol _ | .vec _ | .map _ => false
  | _ => true

/-- A body with the bytes that pad it. -/
structure RawBody where
  body : List UInt8
  pad : List UInt8
  pad_length : pad.length = (4 - body.length % 4) % 4
  length_lt : body.length < 2 ^ 31

def RawBody.spelt (b : RawBody) : List UInt8 :=
  word32 b.body.length ++ (b.body ++ b.pad)

/-- The word of a pointer that is there. -/
abbrev Flag := { word : BitVec 32 // word ≠ 0 }

inductive RawVal where
  | plain (x : XdrVal) (h : x.isPlain = true)
  | bool (word : BitVec 32)
  | bytes (b : RawBody)
  | string (b : RawBody)
  | symbol (b : RawBody)
  | noVec
  | vec (flag : Flag) (n : Nat) (hn : n < 2 ^ 31) (items : Fin n → RawVal)
  | noMap
  | map (flag : Flag) (n : Nat) (hn : n < 2 ^ 31) (keys values : Fin n → RawVal)

namespace RawVal

/-- The bytes of a value. -/
def spelt : RawVal → List UInt8
  | plain x _ => x.encode
  | bool word => word32 0 ++ word32 word.toNat
  | bytes b => word32 13 ++ b.spelt
  | string b => word32 14 ++ b.spelt
  | symbol b => word32 15 ++ b.spelt
  | noVec => word32 16 ++ word32 0
  | vec flag n _ items =>
      word32 16 ++ (word32 flag.1.toNat ++ (word32 n
        ++ (List.ofFn fun i => (items i).spelt).flatten))
  | noMap => word32 17 ++ word32 0
  | map flag n _ keys values =>
      word32 17 ++ (word32 flag.1.toNat ++ (word32 n
        ++ (List.ofFn fun i => (keys i).spelt ++ (values i).spelt).flatten))

/-- What decoding yields. -/
def value (lossy : List UInt8 → String) : RawVal → ScVal
  | plain x _ => x.value
  | bool word => .bool (decide (word ≠ 0))
  | bytes b => .bytes (toHex b.body)
  | string b => .str (utf8Text lossy b.body)
  | symbol b => .sym (utf8Text lossy b.body)
  | noVec => .vec []
  | vec _ _ _ items => .vec (List.ofFn fun i => (items i).value lossy)
  | noMap => .map []
  | map _ _ _ keys values =>
      .map (List.ofFn fun i => ((keys i).value lossy, (values i).value lossy))

/-- A key and its value, as spelt. -/
def entrySpelt (e : RawVal × RawVal) : List UInt8 :=
  e.1.spelt ++ e.2.spelt

/-! ## Lists of values -/

/-- A present vector of a list of values. -/
def ofItems (flag : Flag) (ws : List RawVal) (h : ws.length < 2 ^ 31) : RawVal :=
  vec flag ws.length h fun i => ws[i]

def ofEntries (flag : Flag) (es : List (RawVal × RawVal)) (h : es.length < 2 ^ 31) : RawVal :=
  map flag es.length h (fun i => es[i].1) fun i => es[i].2

theorem ofFn_getElem_map {α β : Type} (l : List α) (f : α → β) :
    (List.ofFn fun i : Fin l.length => f l[i]) = l.map f := by
  refine List.ext_getElem (by simp) fun i h h' => ?_
  simp

theorem ofItems_spelt (flag : Flag) {ws : List RawVal} (h : ws.length < 2 ^ 31) :
    (ofItems flag ws h).spelt
      = word32 16 ++ (word32 flag.1.toNat ++ (word32 ws.length ++ ws.flatMap spelt)) := by
  rw [ofItems, spelt, ofFn_getElem_map ws spelt, List.flatMap_def]

theorem ofItems_value (lossy : List UInt8 → String) (flag : Flag) {ws : List RawVal}
    (h : ws.length < 2 ^ 31) :
    (ofItems flag ws h).value lossy = .vec (ws.map (value lossy)) := by
  rw [ofItems, value, ofFn_getElem_map ws (value lossy)]

theorem ofEntries_spelt (flag : Flag) {es : List (RawVal × RawVal)} (h : es.length < 2 ^ 31) :
    (ofEntries flag es h).spelt
      = word32 17 ++ (word32 flag.1.toNat ++ (word32 es.length ++ es.flatMap entrySpelt)) := by
  rw [ofEntries, spelt, List.flatMap_def]
  exact congrArg (fun l => _ ++ (_ ++ (_ ++ List.flatten l))) (ofFn_getElem_map es entrySpelt)

theorem ofEntries_value (lossy : List UInt8 → String) (flag : Flag) {es : List (RawVal × RawVal)}
    (h : es.length < 2 ^ 31) :
    (ofEntries flag es h).value lossy
      = .map (es.map fun e => (e.1.value lossy, e.2.value lossy)) := by
  rw [ofEntries, value]
  exact congrArg ScVal.map (ofFn_getElem_map es fun e => (e.1.value lossy, e.2.value lossy))

theorem vec_spelt (flag : Flag) {n : Nat} (hn : n < 2 ^ 31) (items : Fin n → RawVal) :
    (vec flag n hn items).spelt = word32 16 ++ (word32 flag.1.toNat
      ++ (word32 (List.ofFn items).length ++ (List.ofFn items).flatMap spelt)) := by
  rw [spelt, List.length_ofFn, List.flatMap_def, List.map_ofFn]
  rfl

theorem vec_value (lossy : List UInt8 → String) (flag : Flag) {n : Nat} (hn : n < 2 ^ 31)
    (items : Fin n → RawVal) :
    (vec flag n hn items).value lossy = .vec ((List.ofFn items).map (value lossy)) := by
  rw [value, List.map_ofFn]
  rfl

theorem map_spelt (flag : Flag) {n : Nat} (hn : n < 2 ^ 31) (keys values : Fin n → RawVal) :
    (map flag n hn keys values).spelt = word32 17 ++ (word32 flag.1.toNat
      ++ (word32 (List.ofFn fun i => (keys i, values i)).length
        ++ (List.ofFn fun i => (keys i, values i)).flatMap entrySpelt)) := by
  rw [spelt, List.length_ofFn, List.flatMap_def, List.map_ofFn]
  rfl

theorem map_value (lossy : List UInt8 → String) (flag : Flag) {n : Nat} (hn : n < 2 ^ 31)
    (keys values : Fin n → RawVal) :
    (map flag n hn keys values).value lossy
      = .map ((List.ofFn fun i => (keys i, values i)).map fun e =>
          (e.1.value lossy, e.2.value lossy)) := by
  rw [value, List.map_ofFn]
  rfl

/-- Every value takes its discriminant at least. -/
theorem four_le_spelt (w : RawVal) : 4 ≤ w.spelt.length := by
  have hpieces : ∀ (d : Nat) (rest : List UInt8), 4 ≤ (word32 d ++ rest).length := by
    intro d rest
    rw [length_word32_append]
    exact Nat.le_add_right 4 rest.length
  cases w with
  | plain x h => exact four_le_length x
  | _ => exact hpieces _ _

end RawVal

/-! ## What is spelt is read -/

variable {α : Type}

theorem reads_rawBody (f : List UInt8 → ScVal) (b : RawBody) :
    Reads (sized f) b.spelt (f b.body) := by
  have hlen := b.length_lt
  exact (reads_u32 (by omega)).bind ((reads_padded b.length_lt b.pad_length).map f)

theorem length_plain {x : XdrVal} (h : x.isPlain = true) : x.encode.length ≤ 44 := by
  cases x with
  | bool | bytes | string | symbol | vec | map => cases h
  | _ => simp [encode, word32]

theorem length_le_flatMap {δ : Type} {enc : δ → List UInt8} {xs : List δ} {x : δ} (h : x ∈ xs) :
    (enc x).length ≤ (xs.flatMap enc).length := by
  obtain ⟨front, back, rfl⟩ := List.append_of_mem h
  simp only [List.flatMap_append, List.flatMap_cons, List.length_append]
  omega

section Accepts

variable (lossy : List UInt8 → String)

/-- One entry of a map. -/
theorem reads_entry {fuel : Nat} (e : RawVal × RawVal)
    (hkey : Reads (XdrReader.scVal lossy fuel) e.1.spelt (e.1.value lossy))
    (hvalue : Reads (XdrReader.scVal lossy fuel) e.2.spelt (e.2.value lossy)) :
    Reads (do
      let key ← XdrReader.scVal lossy fuel
      let value ← XdrReader.scVal lossy fuel
      pure (key, value)) (RawVal.entrySpelt e) (e.1.value lossy, e.2.value lossy) :=
  hkey.bind (hvalue.map fun v => (e.1.value lossy, v))

theorem flag_ne_zero (flag : Flag) : flag.1.toNat ≠ 0 := by
  intro h
  exact flag.2 (BitVec.eq_of_toNat_eq h)

/-- **Every spelling is read**, with its bytes as fuel and anything behind
them. -/
theorem reads_raw (fuel : Nat) (w : RawVal) (hfuel : w.spelt.length ≤ fuel) :
    Reads (XdrReader.scVal lossy fuel) w.spelt (w.value lossy) := by
  induction fuel generalizing w with
  | zero =>
      have hfour := w.four_le_spelt
      omega
  | succ fuel ih =>
      cases w with
      | plain x h =>
          have hlen := length_plain h
          exact reads_scVal lossy (fuel + 1) x hfuel (by omega)
      | bool word =>
          have hread := reads_as (reads_word32 word) fun v => ScVal.bool (v ≠ 0)
          have hzero : decide (word.toNat ≠ 0) = decide (word ≠ 0) := by
            rw [decide_eq_decide, ne_eq, ne_eq, ← BitVec.toNat_inj]
            rfl
          rw [hzero] at hread
          exact reads_arm lossy (d := 0) (by decide) hread
      | bytes b => exact reads_arm lossy (d := 13) (by decide) (reads_rawBody _ b)
      | string b => exact reads_arm lossy (d := 14) (by decide) (reads_rawBody _ b)
      | symbol b => exact reads_arm lossy (d := 15) (by decide) (reads_rawBody _ b)
      | noVec => exact reads_arm lossy (d := 16) (by decide) (reads_as (reads_absent _) _)
      | vec flag n hn items =>
          -- what is behind the discriminant is shorter than the fuel that is left
          rw [RawVal.vec_spelt] at hfuel ⊢
          rw [RawVal.vec_value]
          simp only [length_word32_append] at hfuel
          have hitems : ∀ x ∈ List.ofFn items,
              Reads (XdrReader.scVal lossy fuel) x.spelt (x.value lossy) := by
            intro x hx
            have hle : x.spelt.length ≤ ((List.ofFn items).flatMap RawVal.spelt).length :=
              length_le_flatMap hx
            exact ih x (by omega)
          have hread := reads_present RawVal.spelt (RawVal.value lossy) (flag_ne_zero flag)
            flag.1.isLt (by rwa [List.length_ofFn]) hitems
          exact reads_arm lossy (d := 16) (by decide) (reads_as hread _)
      | noMap => exact reads_arm lossy (d := 17) (by decide) (reads_as (reads_absent _) _)
      | map flag n hn keys values =>
          rw [RawVal.map_spelt] at hfuel ⊢
          rw [RawVal.map_value]
          simp only [length_word32_append] at hfuel
          have hentries : ∀ e ∈ List.ofFn fun i => (keys i, values i), Reads (do
              let key ← XdrReader.scVal lossy fuel
              let value ← XdrReader.scVal lossy fuel
              pure (key, value)) (RawVal.entrySpelt e) (e.1.value lossy, e.2.value lossy) := by
            intro e he
            have hle : (RawVal.entrySpelt e).length ≤ ((List.ofFn fun i =>
                (keys i, values i)).flatMap RawVal.entrySpelt).length := length_le_flatMap he
            have hboth : (RawVal.entrySpelt e).length = e.1.spelt.length + e.2.spelt.length :=
              List.length_append
            exact reads_entry lossy e (ih e.1 (by omega)) (ih e.2 (by omega))
          have hread := reads_present RawVal.entrySpelt
            (fun e => (e.1.value lossy, e.2.value lossy)) (flag_ne_zero flag)
            flag.1.isLt (by rwa [List.length_ofFn]) hentries
          exact reads_arm lossy (d := 17) (by decide) (reads_as hread _)

/-! ## What is read is spelt -/

theorem takes_fixed (n : Nat) : Takes (fixed n) fun ts bs => ts = bs ∧ bs.length = n := by
  intro s bs t h
  unfold fixed at h
  split at h
  · cases h
  · cases h
    rename_i hlen
    refine ⟨s.rest.take n, (List.take_append_drop n s.rest).symm, rfl, ?_⟩
    rw [List.length_take]
    omega

theorem eats_fixed (n : Nat) : Eats (fixed n) n := by
  refine (takes_fixed n).mono ?_
  rintro ts bs ⟨rfl, hlen⟩
  exact hlen

theorem eats_u64 : Eats u64Unsigned 8 :=
  (eats_fixed 8).map _

theorem eats_i64 : Eats XdrReader.i64 8 :=
  (eats_fixed 8).map _

theorem eats_parts128 {hi : Xdr Int} (h : Eats hi 8) : Eats (parts128 hi) 16 :=
  h.bind fun _ => eats_u64.map _

theorem eats_parts256 (signedHigh : Bool) : Eats (parts256 signedHigh) 32 := by
  have hhigh : Eats (highLimb signedHigh) 8 := by
    cases signedHigh with
    | true => exact eats_i64
    | false => exact eats_u64
  exact hhigh.bind fun _ => eats_u64.bind (k := 16) fun _ => eats_u64.bind (k := 8) fun _ =>
    eats_u64.map _

/-- Bytes of a width are a word of that width. -/
theorem exists_word {k w : Nat} (hw : 256 ^ k = 2 ^ w) {ts : List UInt8} (h : ts.length = k) :
    ∃ x : BitVec w, ts = toBE k x.toNat := by
  subst h
  refine ⟨BitVec.ofNat w (ofBE ts), ?_⟩
  rw [BitVec.toNat_ofNat, Nat.mod_eq_of_lt (hw ▸ ofBE_lt ts), toBE_ofBE]

theorem takes_u32 :
    Takes XdrReader.u32 fun ts v => ∃ x : BitVec 32, ts = word32 x.toNat ∧ v = x.toNat :=
  Takes.of_reads (R := fun ts _ => ts.length = 4) ((eats_fixed 4).map word)
    (fun _ _ => exists_word (w := 32) rfl) reads_word32

/-- A reader of one word of any width, and the value made of it. -/
theorem takes_word {p : Xdr α} {k w : Nat} (hw : 256 ^ k = 2 ^ w) (heats : Eats p k)
    (val : BitVec w → α) (hreads : ∀ x, Reads p (toBE k x.toNat) (val x)) :
    Takes p fun ts a => ∃ x : BitVec w, ts = toBE k x.toNat ∧ a = val x :=
  Takes.of_reads heats (fun _ _ => exists_word hw) hreads

theorem toInt_eq {x : BitVec 32} {d : Nat} (hd : d < 2 ^ 31) (h : toInt x.toNat = d) :
    x.toNat = d := by
  rw [toInt_toNat, BitVec.toInt_eq_toNat_cond] at h
  split at h <;> omega

theorem takes_sized (f : List UInt8 → ScVal) :
    Takes (sized f) fun ts v => ∃ b : RawBody, ts = b.spelt ∧ v = f b.body := by
  intro s v t h
  obtain ⟨n, s₁, hn, h⟩ := bind_eq_ok h
  obtain ⟨us, hus, x, rfl, rfl⟩ := takes_u32 _ _ _ hn
  obtain ⟨bs, s₂, hbs, h⟩ := bind_eq_ok h
  cases h
  obtain ⟨left, s₃, hleft, hbs⟩ := bind_eq_ok hbs
  cases hleft
  split at hbs
  · cases hbs
  rename_i hrange
  obtain ⟨out, s₄, hout, hbs⟩ := bind_eq_ok hbs
  obtain ⟨_, hts, rfl, hlen⟩ := takes_fixed _ _ _ _ hout
  obtain ⟨skipped, s₅, hpad, hbs⟩ := bind_eq_ok hbs
  cases hbs
  obtain ⟨pad, hts', rfl, hplen⟩ := takes_fixed _ _ _ _ hpad
  -- the length is not negative, so it is the word itself
  have hlt : x.toNat = bs.length ∧ x.toNat < 2 ^ 31 := by
    have hx := x.isLt
    have hint := BitVec.toInt_eq_toNat_cond x
    rw [toInt_toNat] at hrange hlen
    split at hint <;> omega
  rw [toInt_toNat] at hplen
  have hbody : x.toInt.toNat = bs.length := by rw [← toInt_toNat, hlen]
  refine ⟨word32 x.toNat ++ (bs ++ pad), ?_, ⟨bs, pad, ?_, by omega⟩, ?_, rfl⟩
  · rw [hus, hts, hts', List.append_assoc, List.append_assoc]
  · rw [hplen, hbody]
  · rw [RawBody.spelt, hlt.1]

theorem takes_optionalList {p : Xdr α} {δ : Type} (enc : δ → List UInt8) (val : δ → α)
    (hp : Takes p fun ts a => ∃ x, ts = enc x ∧ a = val x) :
    Takes (optionalList p) fun ts as => (ts = word32 0 ∧ as = []) ∨
      ∃ (flag : Flag) (xs : List δ), xs.length < 2 ^ 31 ∧
        ts = word32 flag.1.toNat ++ (word32 xs.length ++ xs.flatMap enc) ∧ as = xs.map val := by
  intro s as t h
  obtain ⟨present, s₁, hpresent, h⟩ := bind_eq_ok h
  obtain ⟨us, hus, flag, rfl, rfl⟩ := takes_u32 _ _ _ hpresent
  split at h
  · rename_i hzero
    cases h
    exact ⟨word32 flag.toNat, hus, .inl ⟨by rw [hzero], rfl⟩⟩
  rename_i hflag
  obtain ⟨n, s₂, hn, h⟩ := bind_eq_ok h
  obtain ⟨vs, hvs, x, rfl, rfl⟩ := takes_u32 _ _ _ hn
  unfold listOf at h
  split at h
  · cases h
  rename_i hcount
  obtain ⟨ts, hts, xs, hlen, rfl, rfl⟩ := Takes.times enc val hp _ _ _ _ h
  have hlt : x.toNat = xs.length ∧ x.toNat < 2 ^ 31 := by
    have hx := x.isLt
    have hint := BitVec.toInt_eq_toNat_cond x
    rw [toInt_toNat] at hcount hlen
    split at hint <;> omega
  refine ⟨word32 flag.toNat ++ (word32 xs.length ++ xs.flatMap enc), ?_, .inr ⟨⟨flag, ?_⟩, xs,
    by omega, rfl, rfl⟩⟩
  · rw [hus, hvs, hts, hlt.1, List.append_assoc, List.append_assoc]
  · rintro rfl
    exact hflag rfl

/-- The key and the value of an entry, one after the other. -/
theorem takes_entry {p : Xdr ScVal}
    (hp : Takes p fun ts v => ∃ w : RawVal, ts = w.spelt ∧ v = w.value lossy) :
    Takes (do
      let key ← p
      let value ← p
      pure (key, value)) fun ts e => ∃ x : RawVal × RawVal,
        ts = RawVal.entrySpelt x ∧ e = (x.1.value lossy, x.2.value lossy) := by
  refine (hp.bind fun key => hp.map fun value => (key, value)).mono ?_
  rintro ts e ⟨us, vs, v, rfl, ⟨x, rfl, rfl⟩, v', ⟨y, rfl, rfl⟩, rfl⟩
  exact ⟨(x, y), rfl, rfl⟩

/-- What an arm took, behind its discriminant. -/
def ArmOf (lossy : List UInt8 → String) (d : Nat) (ts : List UInt8) (v : ScVal) : Prop :=
  ∃ w : RawVal, w.spelt = word32 d ++ ts ∧ v = w.value lossy

/-- An arm that reads a word of some width. -/
theorem takes_wordArm {β : Type} {d k w : Nat} {p : Xdr β} (hw : 256 ^ k = 2 ^ w)
    (heats : Eats p k) {val : BitVec w → β} (hreads : ∀ x, Reads p (toBE k x.toNat) (val x))
    (f : β → ScVal) (mk : BitVec w → RawVal)
    (hspelt : ∀ x, (mk x).spelt = word32 d ++ toBE k x.toNat)
    (hvalue : ∀ x, (mk x).value lossy = f (val x)) :
    Takes (XdrReader.as p f) (ArmOf lossy d) := by
  refine ((takes_word hw heats val hreads).map f).mono ?_
  rintro ts v ⟨_, ⟨x, rfl, rfl⟩, rfl⟩
  exact ⟨mk x, hspelt x, (hvalue x).symm⟩

theorem takes_sizedArm {d : Nat} (f : List UInt8 → ScVal) (mk : RawBody → RawVal)
    (hspelt : ∀ b, (mk b).spelt = word32 d ++ b.spelt)
    (hvalue : ∀ b, (mk b).value lossy = f b.body) :
    Takes (sized f) (ArmOf lossy d) := by
  refine (takes_sized f).mono ?_
  rintro ts v ⟨b, rfl, rfl⟩
  exact ⟨mk b, hspelt b, (hvalue b).symm⟩

theorem takes_address : Takes address fun ts v => ∃ x : XdrVal, x.isPlain = true ∧
    x.encode = word32 18 ++ ts ∧ x.value = .addr v := by
  have hkey : ∀ bs : List UInt8, bs.length = 32 → ∃ key : Vector UInt8 32, key.toList = bs :=
    fun bs h => ⟨⟨bs.toArray, by simpa using h⟩, rfl⟩
  intro s v t h
  obtain ⟨n, s₁, hn, h⟩ := bind_eq_ok h
  obtain ⟨us, hus, x, rfl, rfl⟩ := takes_u32 _ _ _ hn
  split at h
  · rename_i haccount
    have hx : x.toNat = 0 := toInt_eq (by decide) haccount
    obtain ⟨m, s₂, hm, h⟩ := bind_eq_ok h
    obtain ⟨vs, hvs, y, rfl, rfl⟩ := takes_u32 _ _ _ hm
    split at h
    · cases h
    rename_i htype
    have hy : y.toNat = 0 := toInt_eq (by decide) (not_not.mp htype)
    obtain ⟨raw, s₃, hraw, h⟩ := bind_eq_ok h
    obtain ⟨_, hts, rfl, hlen⟩ := takes_fixed _ _ _ _ hraw
    obtain ⟨key, rfl⟩ := hkey _ hlen
    cases h
    refine ⟨word32 0 ++ (word32 0 ++ key.toList), ?_, .account key, rfl, rfl, ?_⟩
    · rw [hus, hvs, hts, hx, hy, List.append_assoc, List.append_assoc]
    · rw [encodeEd25519PublicKey, encodeCheck_eq]
      rfl
  split at h
  · rename_i hcontract
    have hx : x.toNat = 1 := toInt_eq (by decide) hcontract
    obtain ⟨raw, s₂, hraw, h⟩ := bind_eq_ok h
    obtain ⟨_, hts, rfl, hlen⟩ := takes_fixed _ _ _ _ hraw
    obtain ⟨id, rfl⟩ := hkey _ hlen
    cases h
    refine ⟨word32 1 ++ id.toList, ?_, .contract id, rfl, rfl, ?_⟩
    · rw [hus, hts, hx, List.append_assoc]
    · rw [encodeContractStrKey, encodeCheck_eq]
      rfl
  · cases h

/-- Every arm takes a spelling of its discriminant. -/
theorem takes_arm {p : Xdr ScVal}
    (hp : Takes p fun ts v => ∃ w : RawVal, ts = w.spelt ∧ v = w.value lossy) (t : Int) :
    Takes (arm lossy p t) fun ts v => ∃ d : Nat, t = d ∧ d < 19 ∧ ArmOf lossy d ts v := by
  have harm : ∀ {d : Nat} {q : Xdr ScVal}, d < 19 → Takes q (ArmOf lossy d) →
      Takes q fun ts v => ∃ d' : Nat, (d : Int) = d' ∧ d' < 19 ∧ ArmOf lossy d' ts v :=
    fun hd hq => hq.mono fun ts v h => ⟨_, rfl, hd, h⟩
  unfold arm
  split
  case h_1 =>
    refine harm (d := 0) (by decide) ?_
    refine takes_wordArm lossy (w := 32) rfl ((eats_fixed 4).map word) reads_word32 _ .bool
      (fun x => rfl) fun x => ?_
    rw [RawVal.value, ScVal.bool.injEq, decide_eq_decide, ne_eq, ne_eq, ← BitVec.toNat_inj]
    rfl
  case h_2 =>
    refine harm (d := 1) (by decide) ((Takes.pure ScVal.void).mono ?_)
    rintro ts v ⟨rfl, rfl⟩
    exact ⟨.plain .void rfl, rfl, rfl⟩
  case h_3 =>
    refine harm (d := 2) (by decide) ((takes_u32.bind fun type => takes_u32.map fun code =>
      ScVal.err type code).mono ?_)
    rintro ts v ⟨us, vs, _, rfl, ⟨type, rfl, rfl⟩, _, ⟨code, rfl, rfl⟩, rfl⟩
    exact ⟨.plain (.error type code) rfl, rfl, rfl⟩
  case h_4 =>
    exact harm (d := 3) (by decide) (takes_wordArm lossy (w := 32) rfl ((eats_fixed 4).map word)
      reads_word32 _ (fun x => .plain (.u32 x) rfl) (fun x => rfl) fun x => rfl)
  case h_5 =>
    refine harm (d := 4) (by decide) (takes_wordArm lossy (w := 32) rfl ((eats_fixed 4).map word)
      reads_word32 _ (fun x => .plain (.i32 x) rfl) (fun x => rfl) fun x => ?_)
    rw [toInt_toNat]
    rfl
  case h_6 =>
    exact harm (d := 5) (by decide) (takes_wordArm lossy (w := 64) rfl eats_u64
      reads_word64 _ (fun x => .plain (.u64 x) rfl) (fun x => rfl) fun x => rfl)
  case h_7 =>
    exact harm (d := 6) (by decide) (takes_wordArm lossy (w := 64) rfl eats_i64
      reads_signed64 _ (fun x => .plain (.i64 x) rfl) (fun x => rfl) fun x => rfl)
  case h_8 =>
    exact harm (d := 7) (by decide) (takes_wordArm lossy (w := 64) rfl eats_u64
      reads_word64 _ (fun x => .plain (.timepoint x) rfl) (fun x => rfl) fun x => rfl)
  case h_9 =>
    exact harm (d := 8) (by decide) (takes_wordArm lossy (w := 64) rfl eats_u64
      reads_word64 _ (fun x => .plain (.duration x) rfl) (fun x => rfl) fun x => rfl)
  case h_10 =>
    exact harm (d := 9) (by decide) (takes_wordArm lossy (w := 128) rfl (eats_parts128 eats_u64)
      reads_u128 _ (fun x => .plain (.u128 x) rfl) (fun x => rfl) fun x => rfl)
  case h_11 =>
    exact harm (d := 10) (by decide) (takes_wordArm lossy (w := 128) rfl (eats_parts128 eats_i64)
      reads_i128 _ (fun x => .plain (.i128 x) rfl) (fun x => rfl) fun x => rfl)
  case h_12 =>
    exact harm (d := 11) (by decide) (takes_wordArm lossy (w := 256) rfl (eats_parts256 false)
      reads_u256 _ (fun x => .plain (.u256 x) rfl) (fun x => rfl) fun x => rfl)
  case h_13 =>
    exact harm (d := 12) (by decide) (takes_wordArm lossy (w := 256) rfl (eats_parts256 true)
      reads_i256 _ (fun x => .plain (.i256 x) rfl) (fun x => rfl) fun x => rfl)
  case h_14 =>
    exact harm (d := 13) (by decide)
      (takes_sizedArm lossy _ .bytes (fun b => rfl) fun b => rfl)
  case h_15 =>
    exact harm (d := 14) (by decide)
      (takes_sizedArm lossy _ .string (fun b => rfl) fun b => rfl)
  case h_16 =>
    exact harm (d := 15) (by decide)
      (takes_sizedArm lossy _ .symbol (fun b => rfl) fun b => rfl)
  case h_17 =>
    refine harm (d := 16) (by decide) (((takes_optionalList RawVal.spelt (RawVal.value lossy)
      hp).map ScVal.vec).mono ?_)
    rintro ts v ⟨_, ⟨rfl, rfl⟩ | ⟨flag, ws, hlen, rfl, rfl⟩, rfl⟩
    · exact ⟨.noVec, rfl, rfl⟩
    · exact ⟨.ofItems flag ws hlen, RawVal.ofItems_spelt flag hlen,
        (RawVal.ofItems_value lossy flag hlen).symm⟩
  case h_18 =>
    refine harm (d := 17) (by decide) (((takes_optionalList RawVal.entrySpelt
      (fun e => (e.1.value lossy, e.2.value lossy)) (takes_entry lossy hp)).map ScVal.map).mono ?_)
    rintro ts v ⟨_, ⟨rfl, rfl⟩ | ⟨flag, es, hlen, rfl, rfl⟩, rfl⟩
    · exact ⟨.noMap, rfl, rfl⟩
    · exact ⟨.ofEntries flag es hlen, RawVal.ofEntries_spelt flag hlen,
        (RawVal.ofEntries_value lossy flag hlen).symm⟩
  case h_19 =>
    refine harm (d := 18) (by decide) ((takes_address.map ScVal.addr).mono ?_)
    rintro ts v ⟨_, ⟨x, hplain, hspelt, hvalue⟩, rfl⟩
    exact ⟨.plain x hplain, hspelt, hvalue.symm⟩
  case h_20 =>
    intro s v u h
    obtain ⟨pos, s', -, hfail⟩ := bind_eq_ok h
    cases hfail

/-- **What is read is spelt**: a run that returned took the spelling of a
value, and returned that value. -/
theorem takes_scVal (fuel : Nat) :
    Takes (XdrReader.scVal lossy fuel) fun ts v =>
      ∃ w : RawVal, ts = w.spelt ∧ v = w.value lossy := by
  induction fuel with
  | zero =>
      intro s v t h
      cases h
  | succ fuel ih =>
      refine (takes_u32.bind fun n => takes_arm lossy ih (toInt n)).mono ?_
      rintro ts v ⟨us, vs, _, rfl, ⟨x, rfl, rfl⟩, d, hd, hlt, w, hspelt, rfl⟩
      refine ⟨w, ?_, rfl⟩
      rw [hspelt, toInt_eq (by omega) hd]

/-- **The texts that decode** are the base64 of spelt values. -/
theorem decode_eq_ok_iff {text : String} {v : ScVal} :
    ScVal.decode lossy text = .ok v ↔
      ∃ w : RawVal, Base64.decode (Text.trim text.toList) = .ok w.spelt ∧ v = w.value lossy := by
  constructor
  · intro h
    unfold ScVal.decode at h
    split at h
    · cases h
    rename_i raw hraw
    split at h
    · cases h
    · cases h
    · cases h
    rename_i value reader hvalue
    split at h
    · cases h
    rename_i hrest
    cases h
    obtain ⟨ts, hts, w, rfl, rfl⟩ := takes_scVal lossy _ _ _ _ hvalue
    have hnil : reader.rest = [] := List.length_eq_zero_iff.mp (not_not.mp hrest)
    rw [hnil, List.append_nil] at hts
    exact ⟨w, by rw [hraw, ← hts], rfl⟩
  · rintro ⟨w, hraw, rfl⟩
    have hread := reads_raw lossy w.spelt.length w le_rfl 0 []
    rw [List.append_nil] at hread
    simp only [ScVal.decode, hraw, hread]
    rfl

end Accepts

end RaizStack
