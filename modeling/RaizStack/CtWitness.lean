import RaizStack.BigEndian
import RaizStack.CtField
import RaizStack.Fallible

/-!
# Witnesses of the three circuits

The vendor's witness builders, as they stand in the bundle of the prover
bench: what a circuit is fed, what goes on chain next to the proof, and
the opening a withdrawal or a transfer leaves its sender with. The curve
and the permutation of Poseidon are parameters; the sponge over it and
the formulas of the builders are the code's.

Whatever the inputs, the sponge answers with a field element
(`inField_poseidonWithDomain`), since it reduces all that it absorbs.
-/

namespace RaizStack

/-- What the permutation works on. -/
structure SpongeState where
  s0 : Int
  s1 : Int
  s2 : Int
  s3 : Int

/-- The curve and the permutation. -/
structure Grumpkin (G : Type) where
  /-- `scalarMul(value, G).add(scalarMul(randomness, H))`. -/
  commit : Int → Int → G
  /-- `scalarMul(scalar, H)`. -/
  mulH : Int → G
  ecdh : Int → G → Except String Int
  pointCoords : G → Int × Int
  permute : SpongeState → SpongeState

/-- A value of a builder: numbers, points, and objects and arrays of them. -/
inductive JsVal (G : Type) where
  | bigint (n : Int)
  | point (p : G)
  | arr (items : List (JsVal G))
  | obj (fields : List (String × JsVal G))

/-- `deriveKeys`. -/
structure CtKeys (G : Type) where
  sk : Int
  vk : Int
  y : G
  pvk : G
  addrF : Int

/-- What a builder returns; `next` only where the balance changes. -/
structure Witness (G : Type) where
  inputs : List (String × String)
  payload : List (String × JsVal G)
  next : Option (List (String × JsVal G))

/-- `randomScalar`: what its loop ends with. -/
structure Scalar where
  value : Int
  pos : 0 < value
  lt : value < frModulus

def frAdd (a b : Int) : Int :=
  frMod (a + b)

/-- `fromBytesLE`. -/
def fromBytesLE (bytes : List UInt8) : Int :=
  BigEndian.ofBE bytes.reverse

/-! ## Field elements -/

def InField (x : Int) : Prop :=
  0 ≤ x ∧ x < frModulus

structure SpongeState.InField (s : SpongeState) : Prop where
  s0 : RaizStack.InField s.s0
  s1 : RaizStack.InField s.s1
  s2 : RaizStack.InField s.s2
  s3 : RaizStack.InField s.s3

theorem inField_frMod (x : Int) : InField (frMod x) :=
  ⟨frMod_nonneg x, frMod_lt x⟩

namespace Grumpkin

variable {G : Type} (c : Grumpkin G)

/-! ## The sponge -/

/-- The rounds of `sponge`, three inputs each. -/
def absorb (s : SpongeState) : List Int → SpongeState
  | [] => s
  | [x] => c.permute ⟨frAdd s.s0 x, s.s1, s.s2, s.s3⟩
  | [x, y] => c.permute ⟨frAdd s.s0 x, frAdd s.s1 y, s.s2, s.s3⟩
  | x :: y :: z :: rest =>
      absorb (c.permute ⟨frAdd s.s0 x, frAdd s.s1 y, frAdd s.s2 z, s.s3⟩) rest

def sponge (inputs : List Int) : Int :=
  (c.absorb ⟨0, 0, 0, frMod (inputs.length * 2 ^ 64)⟩ inputs).s0

def poseidonWithDomain (d : Int) (inputs : List Int) : Int :=
  c.sponge (d :: inputs)

def spongeSqueeze2 (d sx sigma : Int) : Int × Int :=
  let s := c.permute ⟨d, sx, sigma, frMod (3 * 2 ^ 64)⟩
  (s.s0, s.s1)

/-! ## Keys and masks -/

def addressToField (strkey : String) : Except String Int :=
  let ascii := strkey.toUTF8.data.toList
  if ascii.length ≠ 56 then
    .error ("address_to_field expects a 56-char strkey, got " ++ toString ascii.length ++ ": "
      ++ strkey)
  else
    .ok (c.poseidonWithDomain 1 [fromBytesLE (ascii.take 28), fromBytesLE (ascii.drop 28)])

def deriveKeys (sk addrF : Int) : CtKeys G :=
  let vk := c.poseidonWithDomain 2 [sk, addrF]
  { sk := sk, vk := vk, y := c.mulH sk, pvk := c.mulH vk, addrF := addrF }

def deriveSpendR (vk sigma : Int) : Int :=
  c.poseidonWithDomain 4 [vk, sigma]

def deriveTxBlind (s sigma : Int) : Int :=
  c.poseidonWithDomain 5 [s, sigma]

def deriveEphemeralRE (vk sigma : Int) : Except String Int :=
  let rE := c.poseidonWithDomain 15 [vk, sigma]
  if rE = 0 then .error "derived r_e is zero — resample sigma" else .ok rE

def encryptAmount (vTx s sigma : Int) : Int :=
  frAdd vTx (c.poseidonWithDomain 6 [s, sigma])

def encryptBalance (vNew vk sigma : Int) : Int :=
  frAdd vNew (c.poseidonWithDomain 7 [vk, sigma])

def encryptAuditorSenderBalance (vNew sAsX sigma : Int) : Int :=
  frAdd vNew (c.poseidonWithDomain 11 [sAsX, sigma])

/-! ## The builders -/

def fieldIn (name : String) (x : Int) : List (String × String) :=
  [(name, toHex32 x)]

def pointIn (name : String) (p : G) : List (String × String) :=
  [(name ++ "_x", toHex32 (c.pointCoords p).1), (name ++ "_y", toHex32 (c.pointCoords p).2)]

def buildRegisterWitness (keys : CtKeys G) : Witness G where
  inputs := fieldIn "sk" keys.sk ++ c.pointIn "y" keys.y ++ c.pointIn "pvk" keys.pvk
    ++ fieldIn "addr_f" keys.addrF
  payload := [("y", .point keys.y), ("pvk", .point keys.pvk)]
  next := none

/-- The opening a spending leaves. -/
def nextOpening (vNew rNew : Int) : List (String × JsVal G) :=
  [("v", .bigint vNew), ("r", .bigint rNew), ("cSpend", .point (c.commit vNew rNew))]

/-- `random` holds what the calls of `randomScalar` give, `sigma` first. -/
def buildWithdrawWitness (keys : CtKeys G) (v r amount : Int) (kAudS : G)
    (sigma? rE? : Option Int) (random : Scalar × Scalar) : Except String (Witness G) := do
  if amount < 0 then .error "withdraw amount must be non-negative"
  else if v - amount < 0 then .error "withdraw amount exceeds spendable balance"
  else
    let vNew := v - amount
    let sigma := sigma?.getD random.1.value
    let rE := rE?.getD random.2.value
    let rNew := c.deriveSpendR keys.vk sigma
    let cSpendNew := c.commit vNew rNew
    let bTilde := c.encryptBalance vNew keys.vk sigma
    let sAsX ← c.ecdh rE kAudS
    let bAudS := c.encryptAuditorSenderBalance vNew sAsX sigma
    .ok
      { inputs := fieldIn "sk" keys.sk ++ fieldIn "v" v ++ fieldIn "r" r ++ fieldIn "r_e" rE
          ++ c.pointIn "c_spend" (c.commit v r) ++ c.pointIn "y" keys.y
          ++ fieldIn "addr_f" keys.addrF ++ c.pointIn "k_aud_s" kAudS ++ fieldIn "a" amount
          ++ c.pointIn "c_spend_new" cSpendNew ++ fieldIn "sigma" sigma
          ++ fieldIn "b_tilde" bTilde ++ c.pointIn "r_e" (c.mulH rE)
          ++ fieldIn "b_tilde_aud_s" bAudS
        payload := [("cSpendNew", .point cSpendNew), ("bTilde", .bigint bTilde),
          ("rE", .point (c.mulH rE)), ("sigma", .bigint sigma), ("bAudS", .bigint bAudS)]
        next := some (c.nextOpening vNew rNew) }

/-- `rE`, which is derived where none is given. -/
def ephemeralOr (vk sigma : Int) : Option Int → Except String Int
  | some rE => .ok rE
  | none => c.deriveEphemeralRE vk sigma

def buildTransferWitness (keys : CtKeys G) (v r amount : Int) (pvkB kAudR kAudS : G)
    (sigma? rE? : Option Int) (random : Scalar × Scalar) : Except String (Witness G) := do
  if amount < 0 then .error "transfer amount must be non-negative"
  else if v - amount < 0 then .error "transfer amount exceeds spendable balance"
  else
    let vNew := v - amount
    let sigma := sigma?.getD random.1.value
    let rE ← c.ephemeralOr keys.vk sigma rE?
    let rNew := c.deriveSpendR keys.vk sigma
    let cSpendNew := c.commit vNew rNew
    let bTilde := c.encryptBalance vNew keys.vk sigma
    let sX ← c.ecdh rE pvkB
    let rTx := c.deriveTxBlind sX sigma
    let cTx := c.commit amount rTx
    let vTilde := c.encryptAmount amount sX sigma
    let sArX ← c.ecdh rE kAudR
    -- the two auditor channels, under the domains 12 and 11
    let mR := c.spongeSqueeze2 12 sArX sigma
    let vAudR := frAdd amount mR.1
    let rAudR := frAdd rTx mR.2
    let sAsX ← c.ecdh rE kAudS
    let mS := c.spongeSqueeze2 11 sAsX sigma
    let vAudS := frAdd amount mS.1
    let bAudS := frAdd vNew mS.2
    .ok
      { inputs := fieldIn "sk" keys.sk ++ fieldIn "v" v ++ fieldIn "r" r ++ fieldIn "v_tx" amount
          ++ fieldIn "r_e" rE ++ c.pointIn "c_spend" (c.commit v r) ++ c.pointIn "y" keys.y
          ++ c.pointIn "pvk_b" pvkB ++ fieldIn "addr_f" keys.addrF ++ c.pointIn "k_aud_r" kAudR
          ++ c.pointIn "k_aud_s" kAudS ++ c.pointIn "c_spend_new" cSpendNew
          ++ c.pointIn "c_tx" cTx ++ c.pointIn "r_e" (c.mulH rE) ++ fieldIn "v_tilde" vTilde
          ++ fieldIn "b_tilde" bTilde ++ fieldIn "sigma" sigma ++ fieldIn "v_tilde_aud_r" vAudR
          ++ fieldIn "r_tilde_aud_r" rAudR ++ fieldIn "v_tilde_aud_s" vAudS
          ++ fieldIn "b_tilde_aud_s" bAudS
        payload := [("cSpendNew", .point cSpendNew), ("cTx", .point cTx),
          ("rE", .point (c.mulH rE)), ("vTilde", .bigint vTilde), ("bTilde", .bigint bTilde),
          ("sigma", .bigint sigma), ("vAudR", .bigint vAudR), ("rAudR", .bigint rAudR),
          ("vAudS", .bigint vAudS), ("bAudS", .bigint bAudS)]
        next := some (c.nextOpening vNew rNew) }

/-! ## The sponge answers with a field element -/
/-- The permutation stays in the field. -/
def Closed : Prop :=
  ∀ s : SpongeState, s.InField → (c.permute s).InField

variable {c}

theorem inField_absorb (hc : c.Closed) {s : SpongeState} (hs : s.InField) (inputs : List Int) :
    (c.absorb s inputs).InField := by
  induction s, inputs using absorb.induct c with
  | case1 s => exact hs
  | case2 s x => exact hc _ ⟨inField_frMod _, hs.s1, hs.s2, hs.s3⟩
  | case3 s x y => exact hc _ ⟨inField_frMod _, inField_frMod _, hs.s2, hs.s3⟩
  | case4 s x y z rest ih =>
      exact ih (hc _ ⟨inField_frMod _, inField_frMod _, inField_frMod _, hs.s3⟩)

theorem inField_poseidonWithDomain (hc : c.Closed) (d : Int) (inputs : List Int) :
    InField (c.poseidonWithDomain d inputs) := by
  have hzero : InField 0 := ⟨le_refl 0, frModulus_pos⟩
  have hiv : InField (frMod ((d :: inputs).length * 2 ^ 64)) := inField_frMod _
  exact (inField_absorb hc ⟨hzero, hzero, hzero, hiv⟩ (d :: inputs)).s0

/-! ## What a spending leaves -/

variable (c) in
/-- A witness for spending `amount` of the opening `(v, r)`. -/
structure Spends (v r amount : Int) (w : Witness G) : Prop where
  nonneg : 0 ≤ amount
  covered : amount ≤ v
  /-- The circuit is fed the commitment of the opening. -/
  openedX : w.inputs.lookup "c_spend_x" = some (toHex32 (c.pointCoords (c.commit v r)).1)
  openedY : w.inputs.lookup "c_spend_y" = some (toHex32 (c.pointCoords (c.commit v r)).2)
  left : ∃ vk sigma, w.next = some (c.nextOpening (v - amount) (c.deriveSpendR vk sigma)) ∧
    w.payload.lookup "cSpendNew"
      = some (.point (c.commit (v - amount) (c.deriveSpendR vk sigma)))

variable {keys : CtKeys G} {v r amount : Int} {sigma? rE? : Option Int}
  {random : Scalar × Scalar} {w : Witness G}

theorem spends_withdraw {kAudS : G}
    (h : c.buildWithdrawWitness keys v r amount kAudS sigma? rE? random = .ok w) :
    c.Spends v r amount w := by
  unfold buildWithdrawWitness at h
  split at h
  · cases h
  · rename_i hamount
    split at h
    · cases h
    · rename_i hcovered
      obtain ⟨sAsX, -, h⟩ := Fallible.bind_eq_ok.mp h
      obtain rfl := Except.ok.inj h
      exact
        { nonneg := by omega
          covered := by omega
          openedX := by simp [List.lookup_cons, fieldIn, pointIn]
          openedY := by simp [List.lookup_cons, fieldIn, pointIn]
          left := ⟨keys.vk, _, rfl, rfl⟩ }

theorem spends_transfer {pvkB kAudR kAudS : G}
    (h : c.buildTransferWitness keys v r amount pvkB kAudR kAudS sigma? rE? random = .ok w) :
    c.Spends v r amount w := by
  unfold buildTransferWitness at h
  split at h
  · cases h
  · rename_i hamount
    split at h
    · cases h
    · rename_i hcovered
      obtain ⟨rE, -, h⟩ := Fallible.bind_eq_ok.mp h
      obtain ⟨sX, -, h⟩ := Fallible.bind_eq_ok.mp h
      obtain ⟨sArX, -, h⟩ := Fallible.bind_eq_ok.mp h
      obtain ⟨sAsX, -, h⟩ := Fallible.bind_eq_ok.mp h
      obtain rfl := Except.ok.inj h
      exact
        { nonneg := by omega
          covered := by omega
          openedX := by simp [List.lookup_cons, fieldIn, pointIn]
          openedY := by simp [List.lookup_cons, fieldIn, pointIn]
          left := ⟨keys.vk, _, rfl, rfl⟩ }

end Grumpkin

end RaizStack
