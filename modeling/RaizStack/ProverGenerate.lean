import Mathlib.Algebra.BigOperators.Group.List.Basic
import RaizStack.Base64
import RaizStack.CtWitness
import RaizStack.FormUrl

/-!
# Proofs from the page

`RaizProver.generate` of the shim: inputs come in as JSON, a witness is
built and proved, and proof, payload and the next opening go out as JSON.
The app keeps nothing but that JSON, and rolls its balance forward by
giving `next` back as the `v` and `r` of the call after.

The load-bearing pieces:

* the codec: what `serialize` prints of a field element, `asBig` reads
  (`asBig_toHex32`);
* the step: a call that spends returns the opening of the commitment it
  puts on chain (`spending_of_ran`);
* the run: every call of such a chain proves about the very commitment
  that the call before it put on chain (`chained_calls_open`).
-/

namespace RaizStack

namespace ProverGenerate

/-! ## The page -/

structure Proof where
  proof : List UInt8
  publicInputs : List String
  witnessMs : String
  proveMs : String

/-- What the shim imports; a coordinate has 32 bytes. -/
structure Lib (G : Type) extends Grumpkin G where
  toBytes32BE : Int → Except String { bytes : List UInt8 // bytes.length = 32 }
  pointFromBytes : List UInt8 → Except String G
  parse : String → Except String Json
  execAndProve : String → List (String × String) → Except String Proof
  threads : String

/-- `inputsJson`: a text or a value. -/
inductive InputsJson where
  | text (s : String)
  | value (v : Option Json)

/-! ## Codecs -/

def typeOf : Option Json → String
  | none => "nothing"
  | some .null => "object"
  | some (.bool _) => "boolean"
  | some (.num _) => "number"
  | some (.str _) => "string"
  | some (.arr _) => "object"
  | some (.obj _) => "object"

def notInteger (v : Option Json) (name : String) : Except String Int :=
  .error ("input '" ++ name ++ "' must be a decimal or 0x-hex string (got " ++ typeOf v ++ ")")

def asBig (v : Option Json) (name : String) : Except String Int :=
  match v with
  | some (.num text) =>
      match Js.integerValue text.toList with
      | some n => if 0 ≤ n ∧ n < 2 ^ 53 then .ok n else notInteger v name
      | none => notInteger v name
  | some (.str s) =>
      match Js.trim s.toList with
      | [] => notInteger v name
      | trimmed =>
          match Js.bigIntOfText (String.ofList trimmed) with
          | .ok n => .ok n
          | .error _ =>
              .error ("input '" ++ name ++ "' is not a valid decimal/0x-hex integer: " ++ s)
  | _ => notInteger v name

/-- `o[name]`, unless it is `null`. -/
def present (o : Option Json) (name : String) : Option Json :=
  match o.bind (·.get? name) with
  | some .null => none
  | v => v

variable {G : Type} (lib : Lib G)

def asPoint (o : Option Json) (name : String) : Except String G :=
  match present o "x", present o "y" with
  | some x, some y => do
      let bx ← lib.toBytes32BE (← asBig (some x) (name ++ ".x"))
      let bz ← lib.toBytes32BE (← asBig (some y) (name ++ ".y"))
      lib.pointFromBytes (bx.val ++ bz.val)
  | _, _ =>
      .error ("input '" ++ name ++ "' must be a point \x7bx, y\x7d with hex/decimal string coords")

def asStrkey (v : Option Json) (name : String) : Except String String :=
  match v with
  | some (.str s) =>
      if (Text.codeUnits s).length = 56 then .ok s
      else .error ("input '" ++ name ++ "' must be the token's 56-char C… strkey")
  | _ => .error ("input '" ++ name ++ "' must be the token's 56-char C… strkey")

mutual

def serialize : JsVal G → Json
  | .bigint n => .str (toHex32 n)
  | .point p =>
      .obj [("x", .str (toHex32 (lib.pointCoords p).1)), ("y", .str (toHex32 (lib.pointCoords p).2))]
  | .arr items => .arr (serializeItems items)
  | .obj fields => .obj (serializeFields fields)

def serializeItems : List (JsVal G) → List Json
  | [] => []
  | v :: vs => serialize v :: serializeItems vs

def serializeFields : List (String × JsVal G) → List (String × Json)
  | [] => []
  | (name, v) :: fields => (name, serialize v) :: serializeFields fields

end

/-- `String.fromCharCode` of the bytes, 0x8000 at a time. -/
def binaryString : List UInt8 → List Char
  | [] => []
  | b :: bs =>
      ((b :: bs).take 0x8000).map (fun b => Char.ofNat b.toNat)
        ++ binaryString ((b :: bs).drop 0x8000)
termination_by bytes => bytes.length
decreasing_by
  rw [List.length_drop, List.length_cons]
  omega

def btoa (s : List Char) : Except String String :=
  if s.all fun c => c.toNat < 256 then
    .ok (String.ofList (Base64.encode (s.map fun c => UInt8.ofNat c.toNat)))
  else .error "The string to be encoded contains characters outside of the Latin1 range."

def toBase64 (bytes : List UInt8) : Except String String :=
  btoa (binaryString bytes)

/-! ## The call -/

/-- `p[name]`, read when it is there. -/
def optional (p : Json) (name : String) : Except String (Option Int) :=
  match present (some p) name with
  | none => .ok none
  | some v => (asBig (some v) name).map some

def buildWitness (kind : String) (p : Json) (random : Scalar × Scalar) :
    Except String (Witness G) := do
  let sk ← asBig (← Js.prop (some p) "sk") "sk"
  let token ← asStrkey (p.get? "token") "token"
  let addrF ← lib.addressToField token
  let keys := lib.deriveKeys sk addrF
  let sigma ← optional p "sigma"
  let rE ← optional p "rE"
  if kind = "register" then .ok (lib.buildRegisterWitness keys)
  else if kind = "withdraw" then do
    let v ← asBig (p.get? "v") "v"
    let r ← asBig (p.get? "r") "r"
    let amount ← asBig (p.get? "amount") "amount"
    let kAudS ← asPoint lib (p.get? "kAudS") "kAudS"
    lib.buildWithdrawWitness keys v r amount kAudS sigma rE random
  else if kind = "transfer" then do
    let v ← asBig (p.get? "v") "v"
    let r ← asBig (p.get? "r") "r"
    let amount ← asBig (p.get? "amount") "amount"
    let pvkB ← asPoint lib (p.get? "pvkB") "pvkB"
    let kAudR ← asPoint lib (p.get? "kAudR") "kAudR"
    let kAudS ← asPoint lib (p.get? "kAudS") "kAudS"
    lib.buildTransferWitness keys v r amount pvkB kAudR kAudS sigma rE random
  else .error ("unknown proof kind '" ++ kind ++ "' — expected register|transfer|withdraw")

/-- The parameters of a call. -/
def params : InputsJson → Except String Json
  | .text s => lib.parse s
  | .value none => .ok (.obj [])
  | .value (some .null) => .ok (.obj [])
  | .value (some v) => .ok v

def reply (kind : String) (w : Witness G) (proof : Proof) (proofBase64 ms : String) : Json :=
  .obj ([("kind", .str kind), ("proofBase64", .str proofBase64),
      ("proofLength", .num (toString proof.proof.length)),
      ("publicInputs", .arr (proof.publicInputs.map Json.str)),
      ("payload", serialize lib (.obj w.payload))]
    ++ (w.next.map fun next => ("next", serialize lib (.obj next))).toList
    ++ [("witnessMs", .num proof.witnessMs), ("proveMs", .num proof.proveMs), ("ms", .num ms),
      ("threads", .num lib.threads)])

def generate (kind : String) (inputsJson : InputsJson) (random : Scalar × Scalar) (ms : String) :
    Except String Json := do
  if kind = "deposit" ∨ kind = "merge" then
    .error ("'" ++ kind ++ "' needs no ZK proof: deposit and merge are the two proof-free CT " ++
      "operations — build and submit that transaction directly from Kotlin " ++
      "(only register, transfer and withdraw go through the prover).")
  else do
    let p ← params lib inputsJson
    let w ← buildWitness lib kind p random
    let proof ← lib.execAndProve kind w.inputs
    let proofBase64 ← toBase64 proof.proof
    .ok (reply lib kind w proof proofBase64 ms)

/-! ## What is printed is read back -/

theorem asBig_toHex32 (x : Int) (name : String) :
    asBig (some (.str (toHex32 x))) name = .ok (frMod x) := by
  have hends : ∀ c ∈ (toHex32 x).toList, Js.isWhitespace c = false := fun c =>
    not_isWhitespace_toHex32
  have htrim : Js.trim (toHex32 x).toList = (toHex32 x).toList :=
    Js.trim_of_ends (fun c hc => hends c (List.mem_of_mem_head? hc))
      fun c hc => hends c (List.mem_of_getLast? hc)
  obtain ⟨digits, hdigits⟩ : ∃ digits, (toHex32 x).toList = '0' :: digits :=
    ⟨_, by rw [toHex32, String.toList_ofList]⟩
  have hread : Js.bigIntOfText (String.ofList ('0' :: digits)) = .ok (frMod x) := by
    rw [← hdigits, String.ofList_toList, bigIntOfText_toHex32]
  rw [asBig, htrim, hdigits]
  dsimp only
  rw [hread]

theorem asBig_of_inField {x : Int} (h : InField x) (name : String) :
    asBig (some (.str (toHex32 x))) name = .ok x := by
  rw [asBig_toHex32, frMod_of_lt h.1 h.2]

theorem binaryString_eq (bytes : List UInt8) :
    binaryString bytes = bytes.map fun b => Char.ofNat b.toNat := by
  induction bytes using binaryString.induct with
  | case1 => rw [binaryString, List.map_nil]
  | case2 b bs ih => rw [binaryString, ih, ← List.map_append, List.take_append_drop]

/-- The chunks make no difference. -/
theorem toBase64_eq (bytes : List UInt8) :
    toBase64 bytes = .ok (String.ofList (Base64.encode bytes)) := by
  have hlatin : (binaryString bytes).all fun c => c.toNat < 256 := by
    rw [binaryString_eq, List.all_map, List.all_eq_true]
    intro b _
    simpa [FormUrl.toNat_char] using b.toNat_lt
  have hback : (binaryString bytes).map (fun c => UInt8.ofNat c.toNat) = bytes := by
    rw [binaryString_eq, List.map_map, List.map_id'' fun b => by simp [FormUrl.toNat_char]]
  rw [toBase64, btoa, if_pos hlatin, hback]

variable {lib}

theorem lookup_serializeFields (fields : List (String × JsVal G)) (name : String) :
    (serializeFields lib fields).lookup name = (fields.lookup name).map (serialize lib) := by
  induction fields with
  | nil => rfl
  | cons field fields ih =>
      obtain ⟨other, v⟩ := field
      rw [serializeFields, List.lookup_cons, List.lookup_cons]
      split
      · rfl
      · exact ih

theorem get?_serialize (fields : List (String × JsVal G)) (name : String) :
    (serialize lib (.obj fields)).get? name = (fields.lookup name).map (serialize lib) := by
  rw [serialize]
  exact lookup_serializeFields fields name

/-! ## Calls -/

/-- A call that was answered. -/
structure Call where
  kind : String
  inputsJson : InputsJson
  random : Scalar × Scalar
  ms : String
  reply : Json

variable (lib) in
def Ran (c : Call) : Prop :=
  generate lib c.kind c.inputsJson c.random c.ms = .ok c.reply

variable (lib) in
/-- What a call reads under a name. -/
def reads (c : Call) (name : String) : Except String Int :=
  params lib c.inputsJson >>= fun p => asBig (p.get? name) name

variable (lib) in
/-- A proof was made for a commitment with these coordinates. -/
def Proves (c : Call) (x y : String) : Prop :=
  ∃ p w proof, params lib c.inputsJson = .ok p ∧ buildWitness lib c.kind p c.random = .ok w ∧
    lib.execAndProve c.kind w.inputs = .ok proof ∧
    w.inputs.lookup "c_spend_x" = some x ∧ w.inputs.lookup "c_spend_y" = some y

/-- The payload carries the new commitment. -/
def Puts (c : Call) (x y : String) : Prop :=
  ∃ payload, c.reply.get? "payload" = some payload ∧
    payload.get? "cSpendNew" = some (.obj [("x", .str x), ("y", .str y)])

variable (lib) in
/-- What a call that spends `amount` of `(v, r)` does. -/
structure Spending (c : Call) (v r amount rNew : Int) : Prop where
  readsV : reads lib c "v" = .ok v
  readsR : reads lib c "r" = .ok r
  readsAmount : reads lib c "amount" = .ok amount
  nonneg : 0 ≤ amount
  covered : amount ≤ v
  inField : InField rNew
  proves : Proves lib c (toHex32 (lib.pointCoords (lib.commit v r)).1)
    (toHex32 (lib.pointCoords (lib.commit v r)).2)
  puts : Puts c (toHex32 (lib.pointCoords (lib.commit (v - amount) rNew)).1)
    (toHex32 (lib.pointCoords (lib.commit (v - amount) rNew)).2)
  next : ∃ next, c.reply.get? "next" = some next ∧
    next.get? "v" = some (.str (toHex32 (v - amount))) ∧
    next.get? "r" = some (.str (toHex32 rNew))

variable {c : Call}

theorem generate_eq_ok (h : Ran lib c) :
    ∃ p w proof, params lib c.inputsJson = .ok p ∧
      buildWitness lib c.kind p c.random = .ok w ∧
      lib.execAndProve c.kind w.inputs = .ok proof ∧
      c.reply = reply lib c.kind w proof (String.ofList (Base64.encode proof.proof)) c.ms := by
  unfold Ran generate at h
  split at h
  · cases h
  · obtain ⟨p, hp, h⟩ := Fallible.bind_eq_ok.mp h
    obtain ⟨w, hw, h⟩ := Fallible.bind_eq_ok.mp h
    obtain ⟨proof, hproof, h⟩ := Fallible.bind_eq_ok.mp h
    obtain ⟨proofBase64, hbase64, h⟩ := Fallible.bind_eq_ok.mp h
    obtain rfl : _ = proofBase64 := Except.ok.inj ((toBase64_eq proof.proof).symm.trans hbase64)
    exact ⟨p, w, proof, hp, hw, hproof, (Except.ok.inj h).symm⟩

theorem get?_payload (kind : String) (w : Witness G) (proof : Proof) (proofBase64 ms : String) :
    (reply lib kind w proof proofBase64 ms).get? "payload"
      = some (serialize lib (.obj w.payload)) := by
  simp [reply, Json.get?, List.lookup_cons]

theorem get?_next (kind : String) (w : Witness G) (proof : Proof) (proofBase64 ms : String) :
    (reply lib kind w proof proofBase64 ms).get? "next"
      = w.next.map fun next => serialize lib (.obj next) := by
  cases hnext : w.next <;> simp [reply, Json.get?, List.lookup_cons, hnext]

/-- What a witness is built from. -/
theorem buildWitness_eq_ok {kind : String} {p : Json} {random : Scalar × Scalar} {w : Witness G}
    (h : buildWitness lib kind p random = .ok w) :
    (kind = "register" ∧ w.next = none) ∨ kind ≠ "register" ∧
      ∃ v r amount, asBig (p.get? "v") "v" = .ok v ∧ asBig (p.get? "r") "r" = .ok r ∧
        asBig (p.get? "amount") "amount" = .ok amount ∧ lib.Spends v r amount w := by
  unfold buildWitness at h
  obtain ⟨j, -, h⟩ := Fallible.bind_eq_ok.mp h
  obtain ⟨sk, -, h⟩ := Fallible.bind_eq_ok.mp h
  obtain ⟨token, -, h⟩ := Fallible.bind_eq_ok.mp h
  obtain ⟨addrF, -, h⟩ := Fallible.bind_eq_ok.mp h
  obtain ⟨sigma, -, h⟩ := Fallible.bind_eq_ok.mp h
  obtain ⟨rE, -, h⟩ := Fallible.bind_eq_ok.mp h
  split at h
  · rename_i hkind
    obtain rfl := Except.ok.inj h
    exact .inl ⟨hkind, rfl⟩
  · rename_i hregister
    refine .inr ⟨hregister, ?_⟩
    split at h
    · obtain ⟨v, hv, h⟩ := Fallible.bind_eq_ok.mp h
      obtain ⟨r, hr, h⟩ := Fallible.bind_eq_ok.mp h
      obtain ⟨amount, hamount, h⟩ := Fallible.bind_eq_ok.mp h
      obtain ⟨kAudS, -, h⟩ := Fallible.bind_eq_ok.mp h
      exact ⟨v, r, amount, hv, hr, hamount, Grumpkin.spends_withdraw h⟩
    · split at h
      · obtain ⟨v, hv, h⟩ := Fallible.bind_eq_ok.mp h
        obtain ⟨r, hr, h⟩ := Fallible.bind_eq_ok.mp h
        obtain ⟨amount, hamount, h⟩ := Fallible.bind_eq_ok.mp h
        obtain ⟨pvkB, -, h⟩ := Fallible.bind_eq_ok.mp h
        obtain ⟨kAudR, -, h⟩ := Fallible.bind_eq_ok.mp h
        obtain ⟨kAudS, -, h⟩ := Fallible.bind_eq_ok.mp h
        exact ⟨v, r, amount, hv, hr, hamount, Grumpkin.spends_transfer h⟩
      · cases h

theorem spending_of_ran (hclosed : lib.Closed) (hran : Ran lib c) (hkind : c.kind ≠ "register") :
    ∃ v r amount rNew, Spending lib c v r amount rNew := by
  obtain ⟨p, w, proof, hp, hw, hproof, hreply⟩ := generate_eq_ok hran
  rcases buildWitness_eq_ok hw with ⟨hregister, -⟩ | ⟨-, v, r, amount, hv, hr, hamount, hspends⟩
  · exact absurd hregister hkind
  · obtain ⟨vk, sigma, hnext, hpayload⟩ := hspends.left
    exact ⟨v, r, amount, lib.deriveSpendR vk sigma,
      { readsV := by rw [reads, hp, Fallible.ok_bind, hv]
        readsR := by rw [reads, hp, Fallible.ok_bind, hr]
        readsAmount := by rw [reads, hp, Fallible.ok_bind, hamount]
        nonneg := hspends.nonneg
        covered := hspends.covered
        inField := Grumpkin.inField_poseidonWithDomain hclosed 4 [vk, sigma]
        proves := ⟨p, w, proof, hp, hw, hproof, hspends.openedX, hspends.openedY⟩
        puts := ⟨_, by rw [hreply, get?_payload], by rw [get?_serialize, hpayload]; rfl⟩
        next := ⟨_, by rw [hreply, get?_next, hnext]; rfl, by rw [get?_serialize]; rfl,
          by rw [get?_serialize]; rfl⟩ }⟩

/-- A registration has no `next`. -/
theorem get?_next_of_register (hran : Ran lib c) (hkind : c.kind = "register") :
    c.reply.get? "next" = none := by
  obtain ⟨p, w, proof, hp, hw, hproof, hreply⟩ := generate_eq_ok hran
  rcases buildWitness_eq_ok hw with ⟨-, hnext⟩ | ⟨hregister, -⟩
  · rw [hreply, get?_next, hnext, Option.map_none]
  · exact absurd hkind hregister

/-! ## Chains of calls -/

variable (lib) in
/-- A call reads the opening that the call before returned. -/
def Feeds (c c' : Call) : Prop :=
  ∃ next, c.reply.get? "next" = some next ∧ reads lib c' "v" = asBig (next.get? "v") "v" ∧
    reads lib c' "r" = asBig (next.get? "r") "r"

variable (lib) in
def amountOf (c : Call) : Int :=
  (reads lib c "amount").toOption.getD 0

variable (lib) in
/-- A call that proves about the commitment of an opening worth `v`, which
covers its amount; the call before put that commitment on chain. -/
structure Opens (before : Option Call) (c : Call) (v : Int) : Prop where
  readsV : reads lib c "v" = .ok v
  readsAmount : reads lib c "amount" = .ok (amountOf lib c)
  nonneg : 0 ≤ amountOf lib c
  covered : amountOf lib c ≤ v
  proves : ∃ r x y, reads lib c "r" = .ok r ∧
    x = toHex32 (lib.pointCoords (lib.commit v r)).1 ∧
    y = toHex32 (lib.pointCoords (lib.commit v r)).2 ∧ Proves lib c x y ∧
    ∀ b ∈ before, Puts b x y

theorem Spending.amountOf_eq {v r amount rNew : Int} (h : Spending lib c v r amount rNew) :
    amountOf lib c = amount := by
  rw [amountOf, h.readsAmount]
  rfl

theorem Spending.opens {v r amount rNew : Int} {before : Option Call}
    (h : Spending lib c v r amount rNew)
    (hputs : ∀ b ∈ before, Puts b (toHex32 (lib.pointCoords (lib.commit v r)).1)
      (toHex32 (lib.pointCoords (lib.commit v r)).2)) : Opens lib before c v where
  readsV := h.readsV
  readsAmount := by rw [h.amountOf_eq]; exact h.readsAmount
  nonneg := by rw [h.amountOf_eq]; exact h.nonneg
  covered := by rw [h.amountOf_eq]; exact h.covered
  proves := ⟨r, _, _, h.readsR, rfl, rfl, h.proves, hputs⟩

/-- The opening a call returns, if it fits in the field, is the one the
call after reads. -/
theorem Spending.feeds {v r amount rNew : Int} {c' : Call} (h : Spending lib c v r amount rNew)
    (hfit : v < frModulus) (hfeeds : Feeds lib c c') :
    reads lib c' "v" = .ok (v - amount) ∧ reads lib c' "r" = .ok rNew := by
  obtain ⟨next, hnext, hv, hr⟩ := hfeeds
  obtain ⟨next', hnext', hnv, hnr⟩ := h.next
  obtain rfl := Option.some.inj (hnext.symm.trans hnext')
  have hnonneg := h.nonneg
  have hcovered := h.covered
  have hleft : InField (v - amount) := ⟨by omega, by omega⟩
  exact ⟨by rw [hv, hnv, asBig_of_inField hleft], by rw [hr, hnr, asBig_of_inField h.inField]⟩

/-- Only a call that spends can be followed by another. -/
theorem Feeds.kind_ne {c' : Call} (hran : Ran lib c) (h : Feeds lib c c') :
    c.kind ≠ "register" := by
  intro hkind
  obtain ⟨next, hnext, -⟩ := h
  rw [get?_next_of_register hran hkind] at hnext
  cases hnext

variable (lib) in
/-- The call that comes first reads `v`, and the commitment it opens was put
on chain by the call before, if there was one. -/
def Starts (before : Option Call) (v : Int) (calls : List Call) : Prop :=
  ∀ c ∈ calls.head?, reads lib c "v" = .ok v ∧ ∀ r, reads lib c "r" = .ok r → ∀ b ∈ before,
    Puts b (toHex32 (lib.pointCoords (lib.commit v r)).1)
      (toHex32 (lib.pointCoords (lib.commit v r)).2)

/-- A call that comes first, and what the calls after it start from. -/
theorem Starts.opens (hclosed : lib.Closed) {before : Option Call} {v : Int} {rest : List Call}
    (hstarts : Starts lib before v (c :: rest)) (hfit : v < frModulus) (hran : Ran lib c)
    (hkind : c.kind ≠ "register") (hchain : (c :: rest).IsChain (Feeds lib)) :
    Opens lib before c v ∧ Starts lib (some c) (v - amountOf lib c) rest := by
  obtain ⟨hv, hputs⟩ := hstarts c rfl
  obtain ⟨v', r, amount, rNew, hspends⟩ := spending_of_ran hclosed hran hkind
  obtain rfl : v' = v := Except.ok.inj (hspends.readsV.symm.trans hv)
  refine ⟨hspends.opens (hputs r hspends.readsR), fun c' hc' => ?_⟩
  obtain ⟨tail, rfl⟩ := List.head?_eq_some_iff.mp hc'
  obtain ⟨hv', hr'⟩ := hspends.feeds hfit (List.isChain_cons_cons.mp hchain).1
  rw [hspends.amountOf_eq]
  refine ⟨hv', fun r' hr => ?_⟩
  obtain rfl : rNew = r' := Except.ok.inj (hr'.symm.trans hr)
  rintro _ ⟨⟩
  exact hspends.puts

/-- Over a chain, whatever came before it. -/
theorem opens_run (hclosed : lib.Closed) {after : List Call} (hkind : c.kind ≠ "register")
    (before : List Call) {prev : Option Call} {v : Int}
    (hran : ∀ b ∈ before ++ c :: after, Ran lib b)
    (hchain : (before ++ c :: after).IsChain (Feeds lib))
    (hstarts : Starts lib prev v (before ++ c :: after)) (hfit : v < frModulus) :
    Opens lib (before.getLast?.or prev) c (v - (before.map (amountOf lib)).sum) := by
  induction before generalizing prev v with
  | nil =>
      have h := (hstarts.opens hclosed hfit (hran c List.mem_cons_self) hkind hchain).1
      simpa using h
  | cons b before ih =>
      have hb : Ran lib b := hran b List.mem_cons_self
      have hfed : ∃ c', Feeds lib b c' := by
        cases before with
        | nil => exact ⟨c, (List.isChain_cons_cons.mp hchain).1⟩
        | cons b' before => exact ⟨b', (List.isChain_cons_cons.mp hchain).1⟩
      obtain ⟨c', hfeeds⟩ := hfed
      obtain ⟨hopens, hrest⟩ := hstarts.opens hclosed hfit hb (hfeeds.kind_ne hb) hchain
      have hleft : v - amountOf lib b < frModulus := by
        have hnonneg := hopens.nonneg
        omega
      have h := ih (fun d hd => hran d (List.mem_cons_of_mem b hd)) hchain.of_cons hrest hleft
      have hlast : ((b :: before).getLast?.or prev) = before.getLast?.or (some b) := by
        rw [List.getLast?_cons]
        cases before.getLast? <;> rfl
      rw [hlast, List.map_cons, List.sum_cons, ← sub_sub]
      exact h

/-- In a chain of calls where each reads the opening that the one before
returned, and the first reads a field element: every call that spends
proves about the commitment the one before put on chain, opened to the
first value less all amounts so far, and covers its own amount. -/
theorem chained_calls_open (hclosed : lib.Closed) {before after : List Call} {v : Int}
    (hran : ∀ b ∈ before ++ c :: after, Ran lib b)
    (hchain : (before ++ c :: after).IsChain (Feeds lib))
    (hfirst : ∀ b ∈ (before ++ c :: after).head?, reads lib b "v" = .ok v)
    (hfit : v < frModulus) (hkind : c.kind ≠ "register") :
    Opens lib before.getLast? c (v - (before.map (amountOf lib)).sum) := by
  have h := opens_run hclosed hkind before hran hchain
    (fun b hb => ⟨hfirst b hb, fun _ _ _ hnone => nomatch hnone⟩ : Starts lib none v _) hfit
  rwa [Option.or_none] at h

/-! ## A withdrawal, then a transfer -/

/-- Points are pairs and a commitment shows what it holds. -/
def plainLib : Lib (Int × Int) where
  commit v r := (v, r)
  mulH scalar := (scalar, 1)
  ecdh scalar _ := .ok scalar
  pointCoords p := p
  permute _ := ⟨7, 7, 7, 7⟩
  toBytes32BE x := .ok ⟨BigEndian.toBE 32 x.toNat, BigEndian.length_toBE 32 _⟩
  pointFromBytes bytes := .ok (BigEndian.ofBE (bytes.take 32), BigEndian.ofBE (bytes.drop 32))
  parse _ := .error "not a text"
  execAndProve _ inputs := .ok ⟨[1, 2, 3], inputs.map (·.2), "1", "2"⟩
  threads := "4"

theorem plainLib_closed : plainLib.Closed := by
  have hseven : InField 7 := ⟨by decide, by decide⟩
  exact fun _ _ => ⟨hseven, hseven, hseven, hseven⟩

def spendInputs (v r amount : String) : InputsJson :=
  .value (some (.obj [("sk", .str "5"),
    ("token", .str "CBF64DEOVQAXJFBSNGFEUT2AH4H7K5JBY3ZYJ5GVEINMNSDISWRG5N3F"),
    ("v", .str v), ("r", .str r), ("amount", .str amount),
    ("pvkB", .obj [("x", .str "5"), ("y", .str "6")]),
    ("kAudR", .obj [("x", .str "3"), ("y", .str "4")]),
    ("kAudS", .obj [("x", .str "1"), ("y", .str "2")])]))

def answered (kind : String) (inputsJson : InputsJson) : Call :=
  let random : Scalar × Scalar := (⟨9, by decide, by decide⟩, ⟨11, by decide, by decide⟩)
  { kind := kind
    inputsJson := inputsJson
    random := random
    ms := "8"
    reply := (generate plainLib kind inputsJson random "8").toOption.getD .null }

theorem ran_answered {kind : String} {inputsJson : InputsJson}
    (h : (generate plainLib kind inputsJson (answered kind inputsJson).random "8").isOk = true) :
    Ran plainLib (answered kind inputsJson) := by
  unfold Ran
  change generate plainLib kind inputsJson (answered kind inputsJson).random "8"
    = .ok ((generate plainLib kind inputsJson (answered kind inputsJson).random "8").toOption.getD
      .null)
  cases hanswer : generate plainLib kind inputsJson (answered kind inputsJson).random "8" with
  | error e =>
      rw [hanswer] at h
      cases h
  | ok reply => rfl

def withdrawal : Call :=
  answered "withdraw" (spendInputs "10" "0" "3")

/-- The transfer is given the opening that the withdrawal returned. -/
def transferAfter : Call :=
  answered "transfer" (spendInputs (toHex32 7) (toHex32 7) "4")

theorem chained_calls_open_after : Opens plainLib (some withdrawal) transferAfter 7 := by
  have hfeeds : Feeds plainLib withdrawal transferAfter :=
    ⟨(withdrawal.reply.get? "next").get (by decide +kernel), (Option.some_get _).symm,
      by decide +kernel, by decide +kernel⟩
  have hwithdrawal : Ran plainLib withdrawal := ran_answered (by decide +kernel)
  have htransfer : Ran plainLib transferAfter := ran_answered (by decide +kernel)
  have hran : ∀ b ∈ [withdrawal] ++ transferAfter :: [], Ran plainLib b := by
    simp [hwithdrawal, htransfer]
  have hfirst : ∀ b ∈ ([withdrawal] ++ transferAfter :: []).head?,
      reads plainLib b "v" = .ok 10 := by
    rintro b ⟨⟩
    decide +kernel
  have hleft : (10 : Int) - ([withdrawal].map (amountOf plainLib)).sum = 7 := by decide +kernel
  rw [← hleft]
  exact chained_calls_open plainLib_closed hran (.cons_cons hfeeds (.singleton _)) hfirst
    (by decide) (by decide)

end ProverGenerate

end RaizStack
