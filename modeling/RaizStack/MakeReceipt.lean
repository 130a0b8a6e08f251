import RaizStack.EnvDeploy
import RaizStack.ShimEvents
import RaizStack.VerifyReceipt

/-!
# A receipt, made and verified

`make-receipt.mjs` plays both parties: the verifier, who mints a request
with the key it has configured, and the contributor, who proves that she
sent a transfer of the chain and for how much. `verify-receipt.mjs` is the
verifier again, later, with the same `.env.deploy`.

Of the vendor's protocol two facts are taken: a proof made for a request
is verified with the keys that minted it, and with no others (`Protocol`).
What the repository adds is which keys these are. The first script takes
the configured secret unless it is falsy, the second one unless it is
absent. So what the first makes is accepted by the second exactly when
the secret is not configured as an empty text (`made_receipt_verifies_iff`).
-/

namespace RaizStack

namespace MakeReceipt

open EnvDeploy (get? loadEnvDeploy)
open VerifyReceipt (Verdict receiptOf demoVerifierSecretHex)

/-! ## The script -/

/-- What the script reads of `deployment.json`. -/
structure Deployment where
  network : String
  token : String
  addrF : String
  deployedAtLedger : Int

/-- A transfer event. -/
structure Transfer (C : Type) where
  info : EventAt
  sender : String
  recipient : String
  data : C
  deriving DecidableEq

structure Bundle where
  circuitId : String
  proof : List (String × Json)

/-- The modules of the vendor and the clocks of one run. The keys of a
verifier are `K`, of a contributor `M`; an ephemeral scalar is `E`, an
account `A`, a disclosure request `Q`, a prover `P`. -/
structure Vendor (K M E A Q C P : Type) where
  chainClient : Except String Unit
  recipientKeysFromSecret : Int → Except String K
  newDisclosureRequest : K → Except String Q
  requestJson : Q → Json
  fetchEvents : Nat → Except VerifyReceipt.Thrown (List (ConfidentialEvent C))
  deriveKeys : Int → Int → Except String M
  deriveEphemeralRE : M → C → Except String E
  /-- `pointCoords(scalarMul(rE, H))`. -/
  scalarPoint : E → Int × Int
  /-- `pointCoords(event.rE)`. -/
  eventPoint : C → Int × Int
  confidentialBalance : Nat → String → Except VerifyReceipt.Thrown (Option A)
  buildDiscloseSenderWitness : M → E → C → A → Q → Except String Int
  enableThreadedProving : Except String Unit
  discloseSenderCircuitId : String
  proverFromArtifact : String → Except String P
  proveSenderDisclosure : M → E → Transfer C → A → Q → P → Except String Bundle
  destroy : Except String Unit
  /-- `Number(vTx) / 1e7`. -/
  inXlm : Int → String
  createdAt : String
  provingMs : String

/-- What a run starts from. -/
structure Inputs where
  args : List String
  envFile : Option String
  dep : Deployment

/-- `arg`: what follows the first occurrence of the name. -/
def arg (args : List String) (name fallback : String) : String :=
  (((args.dropWhile (· ≠ name)).drop 1).head?).getD fallback

def txHash (args : List String) : String :=
  arg args "--tx" "5836313815618675a8530b3d3efb5e931e29ba9d49d58d90562414bc8c5463a4"

/-- The secret the request is minted with: an empty one is none. -/
def verifierSecretHex (env : EnvDeploy.Env) : String :=
  (EnvDeploy.held env "RECEIPT_VERIFIER_SECRET_HEX").getD demoVerifierSecretHex

/-- A transfer with this hash. -/
def asTransfer {C : Type} (hash : String) : ConfidentialEvent C → Option (Transfer C)
  | .transfer info sender recipient data =>
      if info.txHash = hash then some ⟨info, sender, recipient, data⟩ else none
  | _ => none

def findTransfer {C : Type} (inp : Inputs) (events : List (ConfidentialEvent C)) :
    Except String (Transfer C) :=
  match events.findSome? (asTransfer (txHash inp.args)) with
  | some t => .ok t
  | none => .error ("no transfer event with tx " ++ txHash inp.args ++ " found from ledger "
      ++ toString inp.dep.deployedAtLedger ++ " (outside RPC retention? wrong hash?)")

section Script

variable {K M E A Q C P : Type} (vendor : Vendor K M E A Q C P)

/-- `retry` of the vendor's wrapper, where every error may be tried again. -/
def retry {α : Type} (label : String) (fn : Nat → Except VerifyReceipt.Thrown α) : Except String α :=
  (VerifyReceipt.retry label fn fun _ => false).mapError VerifyReceipt.Thrown.message

/-- The part of the verifier. -/
def mintRequest (env : EnvDeploy.Env) : Except String Q := do
  let secret ← Js.bigIntOfText (verifierSecretHex env)
  let verifierKeys ← vendor.recipientKeysFromSecret secret
  vendor.newDisclosureRequest verifierKeys

/-- `r_e`, derived again and checked against the event. -/
def ephemeral (marta : M) (event : Transfer C) : Except String E := do
  let rE ← vendor.deriveEphemeralRE marta event.data
  if vendor.scalarPoint rE = vendor.eventPoint event.data then .ok rE
  else .error ("re-derived r_e does not match the event's R_e — is Marta really this event's " ++
    "sender?")

def recipientAccount (event : Transfer C) : Except String A := do
  match ← retry "confidentialBalance(goal)" fun i =>
      vendor.confidentialBalance i event.recipient with
  | some account => .ok account
  | none => .error ("event recipient " ++ event.recipient ++ " has no confidential account")

/-- The receipt of an event. -/
def made (dep : Deployment) (event : Transfer C) (vTx : Int) (request : Q) (bundle : Bundle) :
    VerifyReceipt.Made where
  createdAt := vendor.createdAt
  network := dep.network
  token := dep.token
  sender := event.sender
  recipient := event.recipient
  txHash := event.info.txHash
  amount := vTx
  amountXlm := vendor.inXlm vTx
  request := vendor.requestJson request
  circuitId := bundle.circuitId
  proof := bundle.proof
  provingMs := vendor.provingMs

/-- `main`: the receipt that is written. -/
def main (inp : Inputs) : Except String Json := do
  let env := loadEnvDeploy inp.envFile
  match EnvDeploy.held env "CT_MARTA_CONF_SK" with
  | none => .error "CT_MARTA_CONF_SK missing from .env.deploy"
  | some confSk => do
      vendor.chainClient
      let request ← mintRequest vendor env
      let events ← retry "fetchEvents" vendor.fetchEvents
      let event ← findTransfer inp events
      let marta ← vendor.deriveKeys (← Js.bigIntOfText confSk) (← Js.bigIntOfText inp.dep.addrF)
      let rE ← ephemeral vendor marta event
      let account ← recipientAccount vendor event
      let vTx ← vendor.buildDiscloseSenderWitness marta rE event.data account request
      vendor.enableThreadedProving
      let prover ← vendor.proverFromArtifact vendor.discloseSenderCircuitId
      let bundle ← vendor.proveSenderDisclosure marta rE event account request prover
      vendor.destroy
      .ok (receiptOf (made vendor inp.dep event vTx request bundle))

end Script

/-! ## The protocol -/

/-- The bundle, as it stands in a receipt. -/
def Bundle.json (b : Bundle) : Json :=
  .obj (("circuitId", .str b.circuitId) :: b.proof)

/-- The verdict on a transfer that its sender disclosed. -/
structure Discloses {C : Type} (t : Transfer C) (amount : Int) (v : Verdict) : Prop where
  info : v.info = t.info
  sender : v.sender = t.sender
  recipient : v.recipient = t.recipient
  disclosingAccount : v.disclosingAccount = t.sender
  amount : v.amount = amount

section Protocol

variable {K M E A Q C P P' V : Type} (mk : Vendor K M E A Q C P)
  (vf : VerifyReceipt.Vendor K P' V)

/-- What the two scripts rely on in the vendor: a proof for a request is
verified with the keys that minted it, unless the call does not get
through, and with no other keys. The secret 0 does not give the keys of the
demo. -/
structure Protocol : Prop where
  keys : ∀ n, vf.recipientKeysFromSecret n = mk.recipientKeysFromSecret n
  circuit : ∀ {m rE t a q p b}, mk.proveSenderDisclosure m rE t a q p = .ok b →
    b.circuitId = mk.discloseSenderCircuitId
  complete : ∀ {k m rE t a q p b vTx prover pinnedVk}, mk.newDisclosureRequest k = .ok q →
    mk.deriveEphemeralRE m t.data = .ok rE → mk.scalarPoint rE = mk.eventPoint t.data →
    mk.buildDiscloseSenderWitness m rE t.data a q = .ok vTx →
    mk.proveSenderDisclosure m rE t a q p = .ok b →
    vf.proverFromArtifact b.circuitId = .ok prover → vf.loadPinnedVk b.circuitId = .ok pinnedVk →
    ∀ i, (∃ v, vf.verifyDisclosure i (some b.json) (some (mk.requestJson q)) k prover pinnedVk
        = .ok v ∧ Discloses t vTx v)
      ∨ ∃ message, vf.verifyDisclosure i (some b.json) (some (mk.requestJson q)) k prover pinnedVk
        = .error (.other message)
  bound : ∀ {k k' q i bundle prover pinnedVk v}, mk.newDisclosureRequest k = .ok q →
    vf.verifyDisclosure i bundle (some (mk.requestJson q)) k' prover pinnedVk = .ok v → k' = k
  zero : ∀ {n k}, Js.bigIntOfText demoVerifierSecretHex = .ok n →
    mk.recipientKeysFromSecret n = .ok k → mk.recipientKeysFromSecret 0 ≠ .ok k

/-- The run of the verifier gets as far as the proof, and one of its three
attempts gets through to the chain. -/
structure Reaches : Prop where
  client : vf.chainClient = .ok ()
  threads : vf.enableThreadedProving = .ok ()
  prover : ∃ prover, vf.proverFromArtifact mk.discloseSenderCircuitId = .ok prover
  pinnedVk : ∃ pinnedVk, vf.loadPinnedVk mk.discloseSenderCircuitId = .ok pinnedVk
  through : ∃ i < 3, ∀ bundle request keys prover pinnedVk message,
    vf.verifyDisclosure (1 + i) bundle request keys prover pinnedVk ≠ .error (.other message)
  destroy : vf.destroy = .ok ()

end Protocol

/-- What the verifier starts from, with the same environment. -/
def verifierInputs (inp : Inputs) (path : String) (receipt : Json) : VerifyReceipt.Inputs where
  path := path
  file := .ok receipt
  token := inp.dep.token
  secretHex := get? (loadEnvDeploy inp.envFile) "RECEIPT_VERIFIER_SECRET_HEX"

/-! ## What a made receipt went through -/

section Made

variable {K M E A Q C P P' V : Type} {mk : Vendor K M E A Q C P}
  {vf : VerifyReceipt.Vendor K P' V} {inp : Inputs} {receipt : Json}

/-- A run that wrote a receipt. -/
structure MadeOf (mk : Vendor K M E A Q C P) (inp : Inputs) (event : Transfer C) (vTx : Int)
    (n : Int) (keys : K) (request : Q) (bundle : Bundle) : Prop where
  secret : Js.bigIntOfText (verifierSecretHex (loadEnvDeploy inp.envFile)) = .ok n
  ofSecret : mk.recipientKeysFromSecret n = .ok keys
  minted : mk.newDisclosureRequest keys = .ok request
  proved : ∃ marta rE account prover, mk.deriveEphemeralRE marta event.data = .ok rE ∧
    mk.scalarPoint rE = mk.eventPoint event.data ∧
    mk.buildDiscloseSenderWitness marta rE event.data account request = .ok vTx ∧
    mk.proveSenderDisclosure marta rE event account request prover = .ok bundle
  listed : ∃ i events, mk.fetchEvents i = .ok events ∧
    events.findSome? (asTransfer (txHash inp.args)) = some event

theorem findTransfer_eq_ok {events : List (ConfidentialEvent C)} {event : Transfer C}
    (h : findTransfer inp events = .ok event) :
    events.findSome? (asTransfer (txHash inp.args)) = some event := by
  unfold findTransfer at h
  split at h
  · rename_i t ht
    rw [ht, Except.ok.inj h]
  · cases h

theorem retry_eq_ok {α : Type} {label : String} {fn : Nat → Except VerifyReceipt.Thrown α} {x : α}
    (h : retry label fn = .ok x) : ∃ i, fn i = .ok x := by
  obtain ⟨k, -, hk, -⟩ := VerifyReceipt.attempts_eq_ok.mp (Fallible.mapError_eq_ok.mp h)
  exact ⟨1 + k, hk⟩

theorem ephemeral_eq_ok {marta : M} {event : Transfer C} {rE : E}
    (h : ephemeral mk marta event = .ok rE) :
    mk.deriveEphemeralRE marta event.data = .ok rE ∧
      mk.scalarPoint rE = mk.eventPoint event.data := by
  obtain ⟨rE', hderived, h⟩ := Fallible.bind_eq_ok.mp h
  split at h
  · rename_i hsame
    obtain rfl := Except.ok.inj h
    exact ⟨hderived, hsame⟩
  · cases h

theorem main_eq_ok (h : main mk inp = .ok receipt) :
    ∃ event vTx n keys request bundle, MadeOf mk inp event vTx n keys request bundle ∧
      receipt = receiptOf (made mk inp.dep event vTx request bundle) := by
  rw [main] at h
  split at h
  · cases h
  · obtain ⟨⟨⟩, -, h⟩ := Fallible.bind_eq_ok.mp h
    obtain ⟨request, hrequest, h⟩ := Fallible.bind_eq_ok.mp h
    obtain ⟨events, hevents, h⟩ := Fallible.bind_eq_ok.mp h
    obtain ⟨event, hevent, h⟩ := Fallible.bind_eq_ok.mp h
    obtain ⟨sk, -, h⟩ := Fallible.bind_eq_ok.mp h
    obtain ⟨addr, -, h⟩ := Fallible.bind_eq_ok.mp h
    obtain ⟨marta, -, h⟩ := Fallible.bind_eq_ok.mp h
    obtain ⟨rE, hrE, h⟩ := Fallible.bind_eq_ok.mp h
    obtain ⟨account, -, h⟩ := Fallible.bind_eq_ok.mp h
    obtain ⟨vTx, hvTx, h⟩ := Fallible.bind_eq_ok.mp h
    obtain ⟨⟨⟩, -, h⟩ := Fallible.bind_eq_ok.mp h
    obtain ⟨prover, -, h⟩ := Fallible.bind_eq_ok.mp h
    obtain ⟨bundle, hbundle, h⟩ := Fallible.bind_eq_ok.mp h
    obtain ⟨⟨⟩, -, h⟩ := Fallible.bind_eq_ok.mp h
    obtain ⟨n, hn, hmint⟩ := Fallible.bind_eq_ok.mp hrequest
    obtain ⟨keys, hkeys, hminted⟩ := Fallible.bind_eq_ok.mp hmint
    obtain ⟨i, hfetched⟩ := retry_eq_ok hevents
    obtain ⟨hderived, hsame⟩ := ephemeral_eq_ok hrE
    exact ⟨event, vTx, n, keys, request, bundle,
      { secret := hn
        ofSecret := hkeys
        minted := hminted
        proved := ⟨marta, rE, account, prover, hderived, hsame, hvTx, hbundle⟩
        listed := ⟨i, events, hfetched, findTransfer_eq_ok hevent⟩ },
      (Except.ok.inj h).symm⟩

theorem mem_of_findTransfer {hash : String} {events : List (ConfidentialEvent C)}
    {event : Transfer C} (h : events.findSome? (asTransfer hash) = some event) :
    .transfer event.info event.sender event.recipient event.data ∈ events := by
  obtain ⟨e, he, htransfer⟩ := List.exists_of_findSome?_eq_some h
  cases e with
  | transfer info sender recipient data =>
      rw [asTransfer] at htransfer
      split at htransfer
      · obtain rfl := Option.some.inj htransfer
        exact he
      · cases htransfer
  | _ => cases htransfer

/-! ## Made, then verified -/

/-- The two scripts use one secret, unless it is the empty text. -/
theorem verifierSecretHex_eq (path : String)
    (h : get? (loadEnvDeploy inp.envFile) "RECEIPT_VERIFIER_SECRET_HEX" ≠ some "") :
    VerifyReceipt.verifierSecretHex (verifierInputs inp path receipt)
      = verifierSecretHex (loadEnvDeploy inp.envFile) := by
  rw [verifierSecretHex, VerifyReceipt.verifierSecretHex, verifierInputs, EnvDeploy.held]
  cases hget : get? (loadEnvDeploy inp.envFile) "RECEIPT_VERIFIER_SECRET_HEX" with
  | none => rfl
  | some secret =>
      have hne : secret ≠ "" := fun hempty => h (by rw [hget, hempty])
      rw [Option.filter_some_pos (by simpa using hne)]

/-- Where each attempt resolves or does not get through, the first one that
resolves ends the loop. -/
theorem exists_resolves {D : Verdict → Prop} {keys : K} {prover : P'} {pinnedVk : V}
    (heach : ∀ i, (∃ v, vf.verifyDisclosure i (receipt.get? "bundle") (receipt.get? "request")
        keys prover pinnedVk = .ok v ∧ D v)
      ∨ ∃ message, vf.verifyDisclosure i (receipt.get? "bundle") (receipt.get? "request")
        keys prover pinnedVk = .error (.other message))
    {i : Nat} (hi : i < 3) (hthrough : ∀ message, vf.verifyDisclosure (1 + i)
      (receipt.get? "bundle") (receipt.get? "request") keys prover pinnedVk
        ≠ .error (.other message)) :
    ∃ v, VerifyReceipt.Resolves vf receipt keys prover pinnedVk v ∧ D v := by
  classical
  have hsome : ∃ k, ∃ v, vf.verifyDisclosure (1 + k) (receipt.get? "bundle")
      (receipt.get? "request") keys prover pinnedVk = .ok v ∧ D v := by
    rcases heach (1 + i) with hok | ⟨message, herror⟩
    · exact ⟨i, hok⟩
    · exact absurd herror (hthrough message)
  have hle : Nat.find hsome ≤ i := by
    rcases heach (1 + i) with hok | ⟨message, herror⟩
    · exact Nat.find_min' hsome hok
    · exact absurd herror (hthrough message)
  obtain ⟨v, hv, hD⟩ := Nat.find_spec hsome
  refine ⟨v, ⟨Nat.find hsome, lt_of_le_of_lt hle hi, hv, fun j hj => ?_⟩, hD⟩
  rcases heach (1 + j) with hok | ⟨message, herror⟩
  · exact absurd hok (Nat.find_min hsome hj)
  · exact ⟨_, herror, rfl⟩

/-- What a verified proof of a made receipt discloses. -/
theorem MadeOf.discloses (hprotocol : Protocol mk vf) {event : Transfer C} {vTx n : Int}
    {keys : K} {request : Q} {bundle : Bundle}
    (h : MadeOf mk inp event vTx n keys request bundle) {path : String} {v : Verdict}
    (hverifies : VerifyReceipt.Verifies vf (verifierInputs inp path
      (receiptOf (made mk inp.dep event vTx request bundle)))
      (receiptOf (made mk inp.dep event vTx request bundle)) v) :
    Discloses event vTx v := by
  obtain ⟨keys', prover, pinnedVk, hopens, k, -, hv, -⟩ := hverifies
  obtain ⟨marta, rE, account, prover', hderived, hsame, hvTx, hbundle⟩ := h.proved
  obtain ⟨id, circuitId, hid, htext, hprover, hvk⟩ := hopens.circuit
  have hcircuit : circuitId = bundle.circuitId := by
    obtain rfl := Except.ok.inj hid
    exact (Except.ok.inj htext).symm
  subst hcircuit
  obtain rfl := hprotocol.bound h.minted hv
  rcases hprotocol.complete h.minted hderived hsame hvTx hbundle hprover hvk (1 + k) with
    ⟨v', hv', hdiscloses⟩ | ⟨message, herror⟩
  · obtain rfl := Except.ok.inj (hv.symm.trans hv')
    exact hdiscloses
  · cases hv.symm.trans herror

/-- The receipt is accepted where the verifier takes the secret that the
request was minted with. -/
theorem MadeOf.accepts (hprotocol : Protocol mk vf) (hreaches : Reaches mk vf)
    {event : Transfer C} {vTx n : Int} {keys : K} {request : Q} {bundle : Bundle}
    (h : MadeOf mk inp event vTx n keys request bundle) (path : String)
    (hsecret : get? (loadEnvDeploy inp.envFile) "RECEIPT_VERIFIER_SECRET_HEX" ≠ some "") :
    ∃ v, VerifyReceipt.Accepts vf (verifierInputs inp path
      (receiptOf (made mk inp.dep event vTx request bundle)))
      (receiptOf (made mk inp.dep event vTx request bundle)) v := by
  obtain ⟨marta, rE, account, prover', hderived, hsame, hvTx, hbundle⟩ := h.proved
  obtain ⟨prover, hprover⟩ := hreaches.prover
  obtain ⟨pinnedVk, hvk⟩ := hreaches.pinnedVk
  obtain ⟨i, hi, hthrough⟩ := hreaches.through
  rw [← hprotocol.circuit hbundle] at hprover hvk
  obtain ⟨v, hresolves, hdiscloses⟩ := @exists_resolves K P' V vf
    (receiptOf (made mk inp.dep event vTx request bundle)) (Discloses event vTx) keys prover
    pinnedVk (hprotocol.complete h.minted hderived hsame hvTx hbundle hprover hvk) i hi
    (hthrough _ _ _ _ _)
  have hn : Js.bigIntOfText (VerifyReceipt.verifierSecretHex (verifierInputs inp path
      (receiptOf (made mk inp.dep event vTx request bundle)))) = .ok n := by
    rw [verifierSecretHex_eq path hsecret]
    exact h.secret
  have hkeys : vf.recipientKeysFromSecret n = .ok keys := by
    rw [hprotocol.keys]
    exact h.ofSecret
  exact ⟨v, VerifyReceipt.receiptOf_accepts rfl rfl hn hkeys hreaches.client hreaches.threads
    hprover hvk hresolves hreaches.destroy hdiscloses.amount.symm⟩

/-- With an empty secret the verifier has other keys than the request. -/
theorem MadeOf.not_verifies (hprotocol : Protocol mk vf) {event : Transfer C} {vTx n : Int}
    {keys : K} {request : Q} {bundle : Bundle}
    (h : MadeOf mk inp event vTx n keys request bundle) {path : String} {v : Verdict}
    (hsecret : get? (loadEnvDeploy inp.envFile) "RECEIPT_VERIFIER_SECRET_HEX" = some "") :
    ¬ VerifyReceipt.Verifies vf (verifierInputs inp path
      (receiptOf (made mk inp.dep event vTx request bundle)))
      (receiptOf (made mk inp.dep event vTx request bundle)) v := by
  rintro ⟨keys', prover, pinnedVk, hopens, k, -, hv, -⟩
  obtain rfl := hprotocol.bound h.minted hv
  obtain ⟨m, hm, hkeys⟩ := hopens.keys
  have hempty : VerifyReceipt.verifierSecretHex (verifierInputs inp path
      (receiptOf (made mk inp.dep event vTx request bundle))) = "" := by
    rw [VerifyReceipt.verifierSecretHex, verifierInputs, hsecret]
    rfl
  have hzero : Js.bigIntOfText "" = .ok 0 := by decide
  rw [hempty, hzero] at hm
  obtain rfl := Except.ok.inj hm
  have hdemo : verifierSecretHex (loadEnvDeploy inp.envFile) = demoVerifierSecretHex := by
    rw [verifierSecretHex, EnvDeploy.held, hsecret]
    rfl
  have hsame := h.secret
  rw [hdemo] at hsame
  rw [hprotocol.keys] at hkeys
  exact hprotocol.zero hsame h.ofSecret hkeys

end Made

/-- **A made receipt, verified.** The verifier's script ends with status 0
on what `make-receipt.mjs` wrote exactly when the secret is not configured
as the empty text, which the one script takes for none and the other for
the number 0. What it then vouches for is a transfer of the chain, and the
claim agrees with it in full. -/
theorem made_receipt_verifies_iff {K M E A Q C P P' V : Type} {mk : Vendor K M E A Q C P}
    {vf : VerifyReceipt.Vendor K P' V} {inp : Inputs} {receipt : Json}
    (hprotocol : Protocol mk vf) (hreaches : Reaches mk vf) (path : String)
    (hmade : main mk inp = .ok receipt) :
    ((VerifyReceipt.run vf (verifierInputs inp path receipt)).status = 0 ↔
        get? (loadEnvDeploy inp.envFile) "RECEIPT_VERIFIER_SECRET_HEX" ≠ some "") ∧
      ∀ v, VerifyReceipt.Verifies vf (verifierInputs inp path receipt) receipt v →
        VerifyReceipt.Agrees inp.dep.token receipt v ∧
        ∃ i events data, mk.fetchEvents i = .ok events ∧
          .transfer v.info v.sender v.recipient data ∈ events := by
  obtain ⟨event, vTx, n, keys, request, bundle, h, rfl⟩ := main_eq_ok hmade
  refine ⟨⟨fun hzero hsecret => ?_, fun hsecret => ?_⟩, fun v hverifies => ⟨?_, ?_⟩⟩
  · obtain ⟨receipt, v, haccepts⟩ := VerifyReceipt.run_status_zero.mp hzero
    obtain ⟨keys', prover, pinnedVk, hopens, -⟩ := haccepts.verifies
    obtain rfl := Except.ok.inj hopens.file
    exact h.not_verifies hprotocol hsecret haccepts.verifies
  · obtain ⟨v, haccepts⟩ := h.accepts hprotocol hreaches path hsecret
    exact VerifyReceipt.run_status_zero.mpr ⟨_, v, haccepts⟩
  · have hdiscloses := h.discloses hprotocol hverifies
    have hamount : vTx = v.amount := hdiscloses.amount.symm
    refine { toNamesParties := VerifyReceipt.receiptOf_namesParties
              hdiscloses.disclosingAccount.symm hdiscloses.recipient.symm
             amount := ?_
             token := rfl }
    rw [← hamount]
    exact Js.bigInt_toString vTx
  · have hdiscloses := h.discloses hprotocol hverifies
    obtain ⟨i, events, hfetched, hfound⟩ := h.listed
    refine ⟨i, events, event.data, hfetched, ?_⟩
    rw [hdiscloses.info, hdiscloses.sender, hdiscloses.recipient]
    exact mem_of_findTransfer hfound

/-- The transfer of the sample verdict. -/
def sentTransfer : Transfer Unit :=
  ⟨VerifyReceipt.sentVerdict.info, VerifyReceipt.sentVerdict.sender,
    VerifyReceipt.sentVerdict.recipient, ()⟩

/-- A vendor that proves this transfer, whose keys are their secrets. The
first call of each kind fails. -/
def sentMaker : Vendor Int Unit Unit Unit Int Unit Unit where
  chainClient := .ok ()
  recipientKeysFromSecret n := if 0 < n then .ok n else .error "secret out of range"
  newDisclosureRequest k := .ok k
  requestJson q := .str (toString q)
  fetchEvents i :=
    if i = 1 then .error (.other "fetch failed")
    else .ok [.register ⟨3950130, "5d11", none⟩ sentTransfer.sender,
      .transfer sentTransfer.info sentTransfer.sender sentTransfer.recipient ()]
  deriveKeys _ _ := .ok ()
  deriveEphemeralRE _ _ := .ok ()
  scalarPoint _ := (1, 2)
  eventPoint _ := (1, 2)
  confidentialBalance i _ := if i = 1 then .error (.other "fetch failed") else .ok (some ())
  buildDiscloseSenderWitness _ _ _ _ _ := .ok 250000000
  enableThreadedProving := .ok ()
  discloseSenderCircuitId := "disclose_sender"
  proverFromArtifact _ := .ok ()
  proveSenderDisclosure _ _ t _ _ _ :=
    if t = sentTransfer then .ok ⟨"disclose_sender", [("refE", .str t.info.txHash)]⟩
    else .error "constraints not satisfied"
  destroy := .ok ()
  inXlm _ := "25"
  createdAt := "2026-08-04T16:37:50.069Z"
  provingMs := "957"

def sentChecker : VerifyReceipt.Vendor Int Unit Unit where
  recipientKeysFromSecret n := if 0 < n then .ok n else .error "secret out of range"
  chainClient := .ok ()
  enableThreadedProving := .ok ()
  proverFromArtifact _ := .ok ()
  loadPinnedVk _ := .ok ()
  verifyDisclosure i _ request keys _ _ :=
    if i = 1 then .error (.other "fetch failed")
    else if Js.isText request (toString keys) then .ok VerifyReceipt.sentVerdict
    else .error (.disclosureVerifyError "request" "the request is of another key")
  destroy := .ok ()
  inXlm stroops := toString (stroops / 10000000)

theorem sent_protocol : Protocol sentMaker sentChecker where
  keys := fun _ => rfl
  circuit := by
    intro m rE t a q p b h
    change (if t = sentTransfer then .ok ⟨"disclose_sender", _⟩ else .error _) = Except.ok b at h
    split at h
    · rw [← Except.ok.inj h]
      rfl
    · cases h
  complete := by
    intro k m rE t a q p b vTx prover pinnedVk hrequest _ _ hvTx hbundle _ _ i
    change (if t = sentTransfer then .ok ⟨"disclose_sender", _⟩ else .error _)
      = Except.ok b at hbundle
    obtain rfl : k = q := Except.ok.inj hrequest
    obtain rfl : 250000000 = vTx := Except.ok.inj hvTx
    split at hbundle
    · rename_i ht
      subst ht
      by_cases hi : i = 1
      · exact .inr ⟨"fetch failed", if_pos hi⟩
      · refine .inl ⟨VerifyReceipt.sentVerdict, ?_, rfl, rfl, rfl, rfl, rfl⟩
        have hsame : Js.isText (some (Json.str (toString k))) (toString k) = true :=
          Js.isText_eq_true.mpr rfl
        exact (if_neg hi).trans (if_pos hsame)
    · cases hbundle
  bound := by
    intro k k' q i bundle prover pinnedVk v hrequest h
    obtain rfl : k = q := Except.ok.inj hrequest
    change (if i = 1 then .error _ else if Js.isText (some (.str (toString k))) (toString k') then
      .ok _ else .error _) = Except.ok v at h
    split at h
    · cases h
    · split at h
      · rename_i hsame
        exact (Text.toString_int_inj
          (Json.str.inj (Option.some.inj (Js.isText_eq_true.mp hsame)))).symm
      · cases h
  zero := fun _ _ h => nomatch h

theorem sent_reaches : Reaches sentMaker sentChecker where
  client := rfl
  threads := rfl
  prover := ⟨(), rfl⟩
  pinnedVk := ⟨(), rfl⟩
  through := by
    refine ⟨1, by decide, fun bundle request keys prover pinnedVk message h => ?_⟩
    change (if Js.isText request (toString keys) then .ok _ else .error _)
      = Except.error (VerifyReceipt.Thrown.other message) at h
    split at h <;> cases h
  destroy := rfl

/-- An environment with this line for the verifier's secret. -/
def sentInputs (secretLine : String) : Inputs where
  args := ["--tx", "5836313815618675"]
  envFile := some ("CT_MARTA_CONF_SK=0x2\n" ++ secretLine)
  dep :=
    { network := "testnet"
      token := "CBWSANZN7YIMA4CWLNSAZO3HSD5NZDC2GZQJ434MOPQR7RDNVYQSDHAT"
      addrF := "0x3"
      deployedAtLedger := 3950128 }

/-- With a secret and without one the receipt is accepted, with an empty one
it is not. -/
theorem made_receipt_verifies_iff_sent :
    (∃ receipt, main sentMaker (sentInputs "RECEIPT_VERIFIER_SECRET_HEX=0x10\n") = .ok receipt ∧
        (VerifyReceipt.run sentChecker (verifierInputs
          (sentInputs "RECEIPT_VERIFIER_SECRET_HEX=0x10\n") "receipt.json" receipt)).status = 0) ∧
      ∃ receipt, main sentMaker (sentInputs "RECEIPT_VERIFIER_SECRET_HEX=\n") = .ok receipt ∧
        (VerifyReceipt.run sentChecker (verifierInputs
          (sentInputs "RECEIPT_VERIFIER_SECRET_HEX=\n") "receipt.json" receipt)).status ≠ 0 := by
  have hmakes : ∀ x : Except String Json, x.toBool = true → ∃ receipt, x = .ok receipt := by
    intro x hx
    cases x with
    | ok receipt => exact ⟨receipt, rfl⟩
    | error e => cases hx
  obtain ⟨r₁, h₁⟩ := hmakes (main sentMaker (sentInputs "RECEIPT_VERIFIER_SECRET_HEX=0x10\n"))
    (by decide +kernel)
  obtain ⟨r₂, h₂⟩ := hmakes (main sentMaker (sentInputs "RECEIPT_VERIFIER_SECRET_HEX=\n"))
    (by decide +kernel)
  refine ⟨⟨r₁, h₁, ?_⟩, r₂, h₂, ?_⟩
  · exact (made_receipt_verifies_iff sent_protocol sent_reaches "receipt.json" h₁).1.mpr
      (by decide +kernel)
  · intro hzero
    exact (made_receipt_verifies_iff sent_protocol sent_reaches "receipt.json" h₂).1.mp hzero
      (by decide +kernel)

end MakeReceipt

end RaizStack
