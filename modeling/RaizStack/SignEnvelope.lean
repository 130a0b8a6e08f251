import RaizStack.ScValCodec

/-!
# Signing an envelope

`StellarAccount.signEnvelope` looks at an envelope at two places: the
first word, which has to be the discriminant of a transaction, and the
last, which is the count of an empty signature list, or else the end of
the last signature. An unsigned envelope is signed as it should be
(`signEnvelope_unsigned`); a signed one is turned away by the last word
unless the last signature ends in a zero word (`signEnvelope_exact`).

The transaction itself is generated code elsewhere: `TxCodec` is what an
envelope needs of it, an encoding that says where it ends. So are the
hash and Ed25519, in `Signer`.
-/

namespace RaizStack

open XdrReader Reading BigEndian XdrVal

/-! ## The code -/

/-- An account's keys, and the hash. -/
structure Signer where
  sha256 : List UInt8 → List UInt8
  rawPublicKey : Vector UInt8 32
  signOneShot : List UInt8 → List UInt8
  signOneShot_length : ∀ txHash, (signOneShot txHash).length = 64

structure SignedTx where
  signedXdrBase64 : String
  txHashHex : String
  deriving DecidableEq, Repr

/-- What `require` and `check` throw. -/
inductive SignError where
  | illegalArgument (message : String)
  | illegalState (message : String)
  deriving DecidableEq, Repr

/-- The word at an offset, as an `Int`. -/
def readUInt32 (b : List UInt8) (off : Nat) : Int :=
  toInt (word ((b.drop off).take 4))

def signEnvelope (signer : Signer) (unsignedXdrBase64 networkPassphrase : String) :
    Except SignError SignedTx :=
  match Base64.decode unsignedXdrBase64.toList with
  | .error e => .error (.illegalArgument e)
  | .ok env =>
      if ¬ 8 < env.length then
        .error (.illegalArgument ("envelope too short (" ++ toString env.length ++ " bytes)"))
      else if readUInt32 env 0 ≠ 2 then
        .error (.illegalArgument ("expected ENVELOPE_TYPE_TX (2), got discriminant "
          ++ toString (readUInt32 env 0)))
      else if readUInt32 env (env.length - 4) ≠ 0 then
        .error (.illegalArgument ("expected an UNSIGNED envelope (signature count 0, got "
          ++ toString (readUInt32 env (env.length - 4)) ++ ")"))
      else
        -- the leading discriminant doubles as the tag of the signed payload
        let body := env.take (env.length - 4)
        let networkId := signer.sha256 (utf8 networkPassphrase)
        let txHash := signer.sha256 (networkId ++ body)
        let signature := signer.signOneShot txHash
        if signature.length ≠ 64 then
          .error (.illegalState ("ed25519 signature must be 64 bytes (got "
            ++ toString signature.length ++ ")"))
        else
          .ok
            { signedXdrBase64 := String.ofList (Base64.encode (body ++ [0, 0, 0, 1]
                ++ (signer.rawPublicKey.toList.drop 28).take 4 ++ [0, 0, 0, 0x40] ++ signature))
              txHashHex := toHex txHash }

/-! ## Envelopes -/

/-- Transactions, their encoding and a reader that takes exactly that. -/
structure TxCodec (Tx : Type) where
  encode : Tx → List UInt8
  read : Xdr Tx
  reads : ∀ tx, Reads read (encode tx) tx
  /-- A transaction begins with the word of its source account. -/
  four_le : ∀ tx, 4 ≤ (encode tx).length

structure DecoratedSignature where
  hint : Vector UInt8 4
  signature : List UInt8
  length_le : signature.length ≤ 64
  deriving DecidableEq

namespace DecoratedSignature

def encode (s : DecoratedSignature) : List UInt8 :=
  s.hint.toList ++ sizedBytes s.signature

/-- The encoding ends in a zero word: the signature is empty, or its last
bytes are zero. -/
def ZeroTail (s : DecoratedSignature) : Prop :=
  [0, 0, 0, 0] <:+ sizedBytes s.signature

/-- The reader of the XDR files: at most 64 bytes, zero padding. -/
def read : Xdr DecoratedSignature := do
  let hint ← fixed 4
  let n ← XdrReader.u32
  let signature ← fixed n
  let pad ← fixed ((4 - n % 4) % 4)
  if h : hint.length = 4 ∧ signature.length ≤ 64 ∧ pad = List.replicate pad.length 0 then
    pure ⟨⟨hint.toArray, by simpa using h.1⟩, signature, h.2.1⟩
  else fail "not a decorated signature"

end DecoratedSignature

section Envelope

variable {Tx : Type} (codec : TxCodec Tx)

/-- `TransactionEnvelope(ENVELOPE_TYPE_TX)`. -/
def envelope (tx : Tx) (sigs : List DecoratedSignature) : List UInt8 :=
  word32 2 ++ (codec.encode tx
    ++ (word32 sigs.length ++ sigs.flatMap DecoratedSignature.encode))

def envelopeReader : Xdr (Tx × List DecoratedSignature) := do
  let discriminant ← XdrReader.u32
  if discriminant ≠ 2 then fail "not a transaction"
  else do
    let tx ← codec.read
    let count ← XdrReader.u32
    if 20 < count then fail "too many signatures"
    else do
      let sigs ← times count DecoratedSignature.read
      pure (tx, sigs)

/-- The envelope these bytes are, all of them. -/
def parseEnvelope (bytes : List UInt8) : Option (Tx × List DecoratedSignature) :=
  match envelopeReader codec ⟨0, bytes⟩ with
  | .ok (parsed, s) => if s.rest = [] then some parsed else none
  | .error _ => none

theorem reads_decoratedSignature (s : DecoratedSignature) :
    Reads DecoratedSignature.read s.encode s := by
  have hlen := s.length_le
  obtain ⟨pad, hpad⟩ : ∃ pad, pad = List.replicate ((4 - s.signature.length % 4) % 4) (0 : UInt8) :=
    ⟨_, rfl⟩
  have hplen : pad.length = (4 - s.signature.length % 4) % 4 := by
    rw [hpad, List.length_replicate]
  rw [DecoratedSignature.encode, sizedBytes, ← hpad]
  refine (reads_fixed (by simp)).bind ?_
  refine (reads_u32 (by omega)).bind ?_
  refine (reads_fixed rfl).bind ?_
  have hread := (reads_fixed hplen).map fun _ => s
  intro pos rest
  refine Eq.trans (bind_congr rfl fun bytes t hbytes => ?_) (hread pos rest)
  cases hbytes.symm.trans (reads_fixed hplen pos rest)
  rw [dif_pos ⟨by simp, hlen, by rw [hplen, hpad]⟩]
  obtain ⟨⟨hint, hsize⟩, signature, hle⟩ := s
  simp [Vector.toList]

theorem reads_envelope (tx : Tx) {sigs : List DecoratedSignature} (h : sigs.length ≤ 20) :
    Reads (envelopeReader codec) (envelope codec tx sigs) (tx, sigs) := by
  refine (reads_u32 (by decide)).bind ?_
  rw [if_neg (by decide)]
  refine (codec.reads tx).bind ?_
  refine (reads_u32 (by omega)).bind ?_
  rw [if_neg (by omega)]
  have hsigs : Reads (times sigs.length DecoratedSignature.read)
      (sigs.flatMap DecoratedSignature.encode) (sigs.map id) :=
    Reads.times _ id fun s _ => reads_decoratedSignature s
  rw [List.map_id] at hsigs
  exact hsigs.map fun sigs => (tx, sigs)

theorem parse_envelope (tx : Tx) {sigs : List DecoratedSignature} (h : sigs.length ≤ 20) :
    parseEnvelope codec (envelope codec tx sigs) = some (tx, sigs) := by
  have hread := reads_envelope codec tx h 0 []
  rw [List.append_nil] at hread
  simp [parseEnvelope, hread]

end Envelope

/-! ## The words it looks at -/

/-- The base64 text of some bytes. -/
def base64Text (bytes : List UInt8) : String :=
  String.ofList (Base64.encode bytes)

theorem decode_base64Text (bytes : List UInt8) :
    Base64.decode (base64Text bytes).toList = .ok bytes := by
  rw [base64Text, String.toList_ofList, Base64.decode_encode]

theorem readUInt32_word32 {n : Nat} (h : n < 2 ^ 32) (rest : List UInt8) :
    readUInt32 (word32 n ++ rest) 0 = toInt n := by
  rw [readUInt32, List.drop_zero, List.take_left' (by simp [word32]), word_eq, word32,
    ofBE_toBE_of_lt (by simpa using h)]

theorem toInt_inj {m n : Nat} (hm : m < 2 ^ 32) (hn : n < 2 ^ 32) (h : toInt m = toInt n) :
    m = n := by
  have hword : BitVec.ofNat 32 m = BitVec.ofNat 32 n := BitVec.eq_of_toInt_eq h
  have hnat := congrArg BitVec.toNat hword
  rwa [BitVec.toNat_ofNat, BitVec.toNat_ofNat, Nat.mod_eq_of_lt hm, Nat.mod_eq_of_lt hn] at hnat

/-- The last word is zero when the bytes end in one. -/
theorem readUInt32_last {env : List UInt8} (h : 4 ≤ env.length) :
    readUInt32 env (env.length - 4) = 0 ↔ [0, 0, 0, 0] <:+ env := by
  have hlen : (env.drop (env.length - 4)).length = 4 := by
    rw [List.length_drop]
    omega
  have hlt := ofBE_lt (env.drop (env.length - 4))
  rw [hlen] at hlt
  rw [readUInt32, List.take_of_length_le (Nat.le_of_eq hlen), List.suffix_iff_eq_drop, word_eq]
  constructor
  · intro hzero
    have hword : ofBE (env.drop (env.length - 4)) = 0 := toInt_inj hlt (by decide) hzero
    have hbytes := toBE_ofBE (env.drop (env.length - 4))
    rw [hword, hlen] at hbytes
    exact hbytes
  · intro hbytes
    rw [show env.drop (env.length - 4) = [0, 0, 0, 0] from hbytes.symm]
    rfl

/-- What has to be true of the bytes. -/
theorem signEnvelope_returns_iff (signer : Signer) (env : List UInt8) (passphrase : String) :
    (∃ out, signEnvelope signer (base64Text env) passphrase = .ok out) ↔
      8 < env.length ∧ readUInt32 env 0 = 2 ∧ [0, 0, 0, 0] <:+ env := by
  unfold signEnvelope
  rw [decode_base64Text]
  by_cases hlen : 8 < env.length
  · rw [← readUInt32_last (by omega)]
    by_cases htype : readUInt32 env 0 = 2
    · by_cases hcount : readUInt32 env (env.length - 4) = 0
      · simp [hlen, htype, hcount, signer.signOneShot_length]
      · simp [hlen, htype, hcount]
    · simp [hlen, htype]
  · simp [hlen]

/-- Another discriminant is turned away. -/
theorem signEnvelope_other (signer : Signer) {d : BitVec 32} (hd : d ≠ 2) (rest : List UInt8)
    (passphrase : String) :
    ∃ e, signEnvelope signer (base64Text (word32 d.toNat ++ rest)) passphrase = .error e := by
  cases hresult : signEnvelope signer (base64Text (word32 d.toNat ++ rest)) passphrase with
  | error e => exact ⟨e, rfl⟩
  | ok out =>
      obtain ⟨-, htype, -⟩ := (signEnvelope_returns_iff signer _ passphrase).mp ⟨out, hresult⟩
      rw [readUInt32_word32 d.isLt] at htype
      have hnat : d.toNat = 2 := toInt_inj d.isLt (by decide) htype
      exact absurd (BitVec.eq_of_toNat_eq hnat) hd

/-! ## Signed and unsigned envelopes -/

section Signing

variable {Tx : Type} (codec : TxCodec Tx) (signer : Signer) (passphrase : String)

/-- What the network hashes of a transaction. -/
def signedPayload (tx : Tx) : List UInt8 :=
  signer.sha256 (utf8 passphrase) ++ (word32 2 ++ codec.encode tx)

/-- The signature of a transaction, with its hint. -/
def decoratedSignature (tx : Tx) : DecoratedSignature :=
  { hint := ⟨((signer.rawPublicKey.toList.drop 28).take 4).toArray, by simp⟩
    signature := signer.signOneShot (signer.sha256 (signedPayload codec signer passphrase tx))
    length_le := by rw [signer.signOneShot_length] }

/-- The encoding of a signature ends in its body or its length. -/
theorem zero_suffix_encode (s : DecoratedSignature) (front : List UInt8) :
    [0, 0, 0, 0] <:+ front ++ s.encode ↔ s.ZeroTail := by
  unfold DecoratedSignature.ZeroTail DecoratedSignature.encode
  rw [← List.append_assoc]
  constructor
  · intro h
    refine List.suffix_of_suffix_length_le h (List.suffix_append _ _) ?_
    rw [length_sizedBytes]
    exact Nat.le_add_right 4 _
  · intro h
    exact h.trans (List.suffix_append _ _)

/-- The last signature of a list ends in a zero word. -/
def ZeroTailed (sigs : List DecoratedSignature) : Prop :=
  ∃ s ∈ sigs.getLast?, s.ZeroTail

theorem signEnvelope_returns_envelope_iff (tx : Tx) (sigs : List DecoratedSignature) :
    (∃ out, signEnvelope signer (base64Text (envelope codec tx sigs)) passphrase = .ok out) ↔
      sigs = [] ∨ ZeroTailed sigs := by
  have hlen : 8 < (envelope codec tx sigs).length := by
    have hfour := codec.four_le tx
    rcases sigs.eq_nil_or_concat' with rfl | ⟨front, s, rfl⟩
    all_goals simp [envelope, word32]
    all_goals omega
  rw [signEnvelope_returns_iff, and_iff_right hlen, envelope, and_iff_right]
  swap
  · rw [readUInt32_word32 (by decide)]
    rfl
  rcases sigs.eq_nil_or_concat' with rfl | ⟨front, s, rfl⟩
  · rw [← List.append_assoc]
    exact iff_of_true (List.suffix_append _ _) (.inl rfl)
  · rw [List.flatMap_append, List.flatMap_singleton, ← List.append_assoc, ← List.append_assoc,
      ← List.append_assoc, zero_suffix_encode]
    simp [ZeroTailed]

/-- An unsigned envelope without its count. -/
theorem take_envelope_nil (tx : Tx) :
    (envelope codec tx []).take ((envelope codec tx []).length - 4)
      = word32 2 ++ codec.encode tx := by
  have hsplit : envelope codec tx [] = (word32 2 ++ codec.encode tx) ++ word32 0 := by
    rw [envelope, List.append_assoc]
    rfl
  have hzero : (word32 0).length = 4 := by decide
  have hlen : (envelope codec tx []).length = (word32 2 ++ codec.encode tx).length + 4 := by
    rw [hsplit, ← hzero]
    exact List.length_append
  rw [hlen, Nat.add_sub_cancel, hsplit]
  exact List.take_left' rfl

/-- What `signEnvelope` writes is an envelope with one signature. -/
theorem envelope_signed (tx : Tx) :
    envelope codec tx [decoratedSignature codec signer passphrase tx]
      = word32 2 ++ codec.encode tx ++ [0, 0, 0, 1] ++ (signer.rawPublicKey.toList.drop 28).take 4
        ++ [0, 0, 0, 0x40]
        ++ signer.signOneShot (signer.sha256 (signedPayload codec signer passphrase tx)) := by
  have hsized : ∀ bs : List UInt8, bs.length = 64 → sizedBytes bs = [0, 0, 0, 0x40] ++ bs := by
    intro bs hbs
    rw [sizedBytes, hbs]
    exact congrArg _ (List.append_nil bs)
  have hencode : (decoratedSignature codec signer passphrase tx).encode
      = (signer.rawPublicKey.toList.drop 28).take 4 ++ ([0, 0, 0, 0x40]
        ++ signer.signOneShot (signer.sha256 (signedPayload codec signer passphrase tx))) := by
    rw [← hsized _ (signer.signOneShot_length _)]
    rfl
  have hone : word32 1 = [0, 0, 0, 1] := by decide
  rw [envelope, List.flatMap_singleton, hencode, List.length_singleton, hone]
  simp only [List.append_assoc]

/-- An unsigned envelope comes back with one signature. -/
theorem signEnvelope_unsigned (tx : Tx) :
    signEnvelope signer (base64Text (envelope codec tx [])) passphrase = .ok
      { signedXdrBase64 := base64Text
          (envelope codec tx [decoratedSignature codec signer passphrase tx])
        txHashHex := toHex (signer.sha256 (signedPayload codec signer passphrase tx)) } := by
  have hreturns := (signEnvelope_returns_envelope_iff codec signer passphrase tx []).mpr (.inl rfl)
  obtain ⟨hlen, htype, hzero⟩ := (signEnvelope_returns_iff signer _ passphrase).mp hreturns
  have hcount := (readUInt32_last (by omega)).mpr hzero
  unfold signEnvelope
  rw [decode_base64Text, envelope_signed]
  simp only [hlen, htype, hcount, take_envelope_nil, signer.signOneShot_length, signedPayload,
    base64Text, not_true_eq_false, ne_eq, if_false]

/-- The claim on one envelope: it is signed when it holds no signature,
and what is signed is the same transaction with exactly one, hashed as
the network does. -/
def SignsUnsigned (tx : Tx) (sigs : List DecoratedSignature) : Prop :=
  ((∃ out, signEnvelope signer (base64Text (envelope codec tx sigs)) passphrase = .ok out) ↔
    sigs = []) ∧
  ∀ out, signEnvelope signer (base64Text (envelope codec tx sigs)) passphrase = .ok out →
    (∃ bytes s, Base64.decode out.signedXdrBase64.toList = .ok bytes ∧
      parseEnvelope codec bytes = some (tx, [s]) ∧
      s.hint.toList = signer.rawPublicKey.toList.drop 28) ∧
    out.txHashHex = toHex (signer.sha256 (signedPayload codec signer passphrase tx))

theorem signsUnsigned_iff (tx : Tx) (sigs : List DecoratedSignature) :
    SignsUnsigned codec signer passphrase tx sigs ↔ ¬ ZeroTailed sigs := by
  have hreturns := signEnvelope_returns_envelope_iff codec signer passphrase tx sigs
  constructor
  · rintro ⟨hempty, -⟩ hzero
    rw [hempty.mp (hreturns.mpr (.inr hzero))] at hzero
    obtain ⟨s, hs, -⟩ := hzero
    cases hs
  · intro hzero
    have hiff := hreturns.trans (or_iff_left hzero)
    refine ⟨hiff, fun out hout => ?_⟩
    obtain rfl := hiff.mp ⟨out, hout⟩
    rw [signEnvelope_unsigned] at hout
    cases hout
    refine ⟨⟨_, _, decode_base64Text _, parse_envelope codec tx (Nat.le_add_left 1 19), ?_⟩, rfl⟩
    exact List.take_of_length_le (by simp)

/-- **What `signEnvelope` signs**: the transaction envelopes it should,
and those whose last signature ends in a zero word; of the other kinds of
envelope none. -/
theorem signEnvelope_exact :
    (∀ (tx : Tx) (sigs : List DecoratedSignature),
      SignsUnsigned codec signer passphrase tx sigs ↔ ¬ ZeroTailed sigs) ∧
    ∀ (d : BitVec 32) (rest : List UInt8), d ≠ 2 →
      ∃ e, signEnvelope signer (base64Text (word32 d.toNat ++ rest)) passphrase = .error e :=
  ⟨signsUnsigned_iff codec signer passphrase,
    fun _ rest hd => signEnvelope_other signer hd rest passphrase⟩

end Signing

/-! ## A signed envelope that passes for an unsigned one -/

/-- The transaction of the signing fixture. -/
def fixtureBody : List UInt8 :=
  [0, 0, 0, 0, 33, 82, 248, 209, 155, 121, 29, 36, 69, 50, 66, 225, 95, 46, 171, 108, 183, 207,
    250, 123, 106, 94, 211, 0, 151, 150, 14, 6, 152, 129, 219, 18, 0, 0, 0, 100, 1, 112, 125, 160,
    49, 110, 192, 104, 0, 0, 0, 1, 0, 0, 0, 0, 0, 0, 0, 0, 0, 0, 0, 0, 106, 112, 225, 208, 0, 0,
    0, 0, 0, 0, 0, 1, 0, 0, 0, 0, 0, 0, 0, 1, 0, 0, 0, 0, 18, 251, 129, 127, 215, 91, 206, 53,
    132, 206, 238, 134, 251, 217, 79, 239, 72, 165, 171, 186, 6, 100, 57, 209, 248, 246, 77, 108,
    104, 137, 150, 134, 0, 0, 0, 0, 0, 0, 0, 0, 7, 77, 51, 160, 0, 0, 0, 0]

/-- A codec that knows this one transaction. -/
def fixtureCodec : TxCodec Unit where
  encode _ := fixtureBody
  read := do
    let bytes ← fixed fixtureBody.length
    if bytes = fixtureBody then pure () else fail "another transaction"
  reads _ := by
    intro pos rest
    have hread : fixed fixtureBody.length ⟨pos, fixtureBody ++ rest⟩ = _ :=
      reads_fixed rfl pos rest
    rw [bind_of_ok hread, if_pos rfl]
    rfl
  four_le _ := by decide +kernel

/-- 64 bytes, the last four of them zero. -/
def zeroTailSignature : DecoratedSignature :=
  { hint := ⟨#[152, 129, 219, 18], rfl⟩
    signature := List.replicate 60 1 ++ [0, 0, 0, 0]
    length_le := by decide }

/-- The unsigned envelope of the fixture. -/
example : base64Text (envelope fixtureCodec () [])
    = "AAAAAgAAAAAhUvjRm3kdJEUyQuFfLqtst8/6e2pe0wCXlg4GmIHbEgAAAGQBcH2g"
      ++ "MW7AaAAAAAEAAAAAAAAAAAAAAABqcOHQAAAAAAAAAAEAAAAAAAAAAQAAAAAS+4F/"
      ++ "11vONYTO7ob72U/vSKWrugZkOdH49k1saImWhgAAAAAAAAAAB00zoAAAAAAAAAAA" := by
  decide +kernel

/-- Whatever the keys, the signed envelope is signed again. -/
theorem signEnvelope_signs_signed :
    ¬ ∃ signer : Signer, SignsUnsigned fixtureCodec signer "Test SDF Network ; September 2015" ()
      [zeroTailSignature] := by
  rintro ⟨signer, hsigns⟩
  have hzero := (signsUnsigned_iff fixtureCodec signer _ () [zeroTailSignature]).mp hsigns
  exact hzero ⟨zeroTailSignature, rfl, by unfold DecoratedSignature.ZeroTail; decide⟩

end RaizStack
