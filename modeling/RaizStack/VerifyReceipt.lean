import RaizStack.CtWrapper
import RaizStack.Fallible
import RaizStack.JsValue

/-!
# What a verified receipt says

A receipt holds a disclosure proof and, next to it, a claim in plain
words: who paid, whom, and how much. `verify-receipt.mjs` has the proof
checked against the chain and then compares the claim with what the
proof disclosed. The vendor's `verifyDisclosure` is taken as it is: a
function of everything it is handed, the attempt included, that resolves
with true facts (`Sound`).

The script compares the amount, and the token before. The two accounts
of the claim it only prints. So status 0 means what it says exactly for
receipts whose claim names the parties of the event (`NamesParties`),
which the receipts of `make-receipt.mjs` do.
-/

namespace RaizStack

namespace VerifyReceipt

/-! ## Calls that throw -/

/-- What a call throws. -/
inductive Thrown where
  | disclosureVerifyError (stage message : String)
  | other (message : String)

def Thrown.message : Thrown → String
  | .disclosureVerifyError _ message => message
  | .other message => message

def Thrown.isDisclosureVerifyError : Thrown → Bool
  | .disclosureVerifyError _ _ => true
  | .other _ => false

section Retry

variable {α : Type} (label : String) (fn : Nat → Except Thrown α) (fatalIf : Thrown → Bool)

/-- The loop of `retry`: attempt `i`, with `left` attempts to go. -/
def attempts (tries : Nat) : Nat → Nat → String → Except Thrown α
  | 0, _, lastErr =>
      .error (.other (label ++ " failed after " ++ toString tries ++ " attempts: " ++ lastErr))
  | left + 1, i, _ =>
      match fn i with
      | .ok x => .ok x
      | .error e => if fatalIf e then .error e else attempts tries left (i + 1) e.message

def retry : Except Thrown α :=
  attempts label fn fatalIf 3 3 1 "undefined"

end Retry

/-! ## The script -/

/-- What `verifyDisclosure` resolves with. -/
structure Verdict where
  steps : List String
  info : EventAt
  sender : String
  recipient : String
  disclosingAccount : String
  amount : Int

/-- The modules of the vendor, and how a double is printed. The files of
a circuit are found by the text of its id. -/
structure Vendor (K P V : Type) where
  recipientKeysFromSecret : Int → Except String K
  chainClient : Except String Unit
  enableThreadedProving : Except String Unit
  proverFromArtifact : String → Except String P
  loadPinnedVk : String → Except String V
  verifyDisclosure : Nat → Option Json → Option Json → K → P → V → Except Thrown Verdict
  destroy : Except String Unit
  /-- `${Number(stroops) / 1e7}`. -/
  inXlm : Int → String

def demoVerifierSecretHex : String :=
  "0x00b97bacce7fe9dd24cc6b347a97d71770522c49cd83453afb36ac39add50601"

def demoVerifierBanner : String :=
  "using the COMMITTED DEMO verifier key (public on purpose — it only decrypts " ++
  "this receipt's 25 XLM, which the README already states; see demo-verifier-key.mjs). " ++
  "Set RECEIPT_VERIFIER_SECRET_HEX in .env.deploy to use your own."

/-- How the process ended, with what `main` had printed unless it threw. -/
structure Exit where
  printed : List String
  status : Nat

/-- What a run starts from: the argument, the file under it, the
configured token and the secret in `.env.deploy`. -/
structure Inputs where
  path : String
  file : Except String Json
  token : String
  secretHex : Option String

/-- What `main` has in hand when it turns to the proof. -/
structure Session (K P V : Type) where
  printed : List String
  claim : Option Json
  request : Option Json
  bundle : Option Json
  keys : K
  prover : P
  pinnedVk : V

section Script

variable {K P V : Type} (vendor : Vendor K P V)

def fmtXlm (stroops : Int) : String :=
  vendor.inXlm stroops ++ " XLM (" ++ toString stroops ++ " stroops)"

/-- The secret that is used: an empty one is still a configured one. -/
def verifierSecretHex (inp : Inputs) : String :=
  inp.secretHex.getD demoVerifierSecretHex

/-- The notice on the demo key, which an empty secret prints too. -/
def bannerLines (inp : Inputs) : List String :=
  if inp.secretHex.getD "" = "" then ["verifier: " ++ demoVerifierBanner ++ "\n"] else []

def checkToken (token : String) (receiptToken : Option Json) : Except String Unit :=
  if Js.isText receiptToken token then .ok ()
  else do
    let text ← Js.template receiptToken
    .error ("receipt is for token " ++ text ++ ", configured deployment is " ++ token)

/-- The line that quotes the claim. -/
def claimLine (claim : Option Json) : Except String String := do
  let contributor ← Js.slice "receipt.claim.contributor" (← Js.prop claim "contributor") 6
  let amountXlm ← Js.template (← Js.prop claim "amountXlm")
  let goal ← Js.slice "receipt.claim.goal" (← Js.prop claim "goal") 6
  .ok ("claim   : " ++ contributor ++ "… paid " ++ amountXlm ++ " XLM to " ++ goal ++ "…")

/-- `main` up to the verification. -/
def prepare (inp : Inputs) : Except String (Session K P V) := do
  let receipt ← inp.file
  checkToken inp.token (← Js.prop (some receipt) "token")
  let claim ← Js.prop (some receipt) "claim"
  let line ← claimLine claim
  let bundle ← Js.prop (some receipt) "bundle"
  let circuitId ← Js.template (← Js.prop bundle "circuitId")
  let keys ← vendor.recipientKeysFromSecret (← Js.bigIntOfText (verifierSecretHex inp))
  vendor.chainClient
  vendor.enableThreadedProving
  let prover ← vendor.proverFromArtifact circuitId
  let pinnedVk ← vendor.loadPinnedVk circuitId
  let request ← Js.prop (some receipt) "request"
  .ok
    { printed := bannerLines inp
        ++ ["receipt : " ++ inp.path, line, "circuit : " ++ circuitId ++ "\n"]
      claim := claim
      request := request
      bundle := bundle
      keys := keys
      prover := prover
      pinnedVk := pinnedVk }

/-- The verification. A protocol rejection is final, anything else is
tried three times. -/
def verify (s : Session K P V) : Except Thrown Verdict :=
  retry "verifyDisclosure"
    (fun i => vendor.verifyDisclosure i s.bundle s.request s.keys s.prover s.pinnedVk)
    Thrown.isDisclosureVerifyError

def verdictLines (v : Verdict) : List String :=
  v.steps.map (fun step => "  ✔ " ++ step)
    ++ [ "\nVERIFIED: the on-chain transfer in tx "
          ++ String.ofList (Text.takeUnits 8 v.info.txHash.toList) ++ "… (ledger "
          ++ toString v.info.ledger ++ ")",
        "  was SENT by " ++ v.disclosingAccount,
        "  for exactly " ++ fmtXlm vendor v.amount ]

def matchingLine : String :=
  "  matching the receipt's claim. This is as trustworthy as the chain itself (§1.1)."

/-- `main` from the verdict on. -/
def conclude (s : Session K P V) (v : Verdict) : Except String Exit := do
  let claimed ← Js.bigInt (← Js.prop s.claim "amountStroops")
  if claimed ≠ v.amount then
    .ok
      { printed := s.printed ++ verdictLines vendor v
          ++ [ "\nWARNING: receipt's plain-language claim says " ++ fmtXlm vendor claimed
              ++ " but the proof discloses " ++ fmtXlm vendor v.amount ++ " — trust the proof." ]
        status := 1 }
  else .ok { printed := s.printed ++ verdictLines vendor v ++ [matchingLine], status := 0 }

def main (inp : Inputs) : Except String Exit := do
  let s ← prepare vendor inp
  match verify vendor s with
  | .error (.disclosureVerifyError stage message) =>
      -- the process is over here, before the `finally`
      .ok
        { printed := s.printed ++ ["REJECTED at §5.3 stage [" ++ stage ++ "]: " ++ message]
          status := 1 }
  | .error (.other message) => do
      vendor.destroy
      .error message
  | .ok v => do
      vendor.destroy
      conclude vendor s v

/-- The process: what `main` throws is printed, with status 1. -/
def run (inp : Inputs) : Exit :=
  match main vendor inp with
  | .ok e => e
  | .error message => { printed := ["\nverify-receipt failed: " ++ message], status := 1 }

end Script

/-! ## What a run went through -/

section Retry

variable {α : Type} {label : String} {fn : Nat → Except Thrown α} {fatalIf : Thrown → Bool}

/-- Attempts that throw what may be tried again, up to one that resolves. -/
theorem attempts_eq_ok {tries left i : Nat} {lastErr : String} {x : α} :
    attempts label fn fatalIf tries left i lastErr = .ok x ↔
      ∃ k < left, fn (i + k) = .ok x ∧
        ∀ j < k, ∃ e, fn (i + j) = .error e ∧ fatalIf e = false := by
  induction left generalizing i lastErr with
  | zero => simp [attempts]
  | succ left ih =>
      cases hfn : fn i with
      | ok y =>
          simp only [attempts, hfn]
          constructor
          · rintro ⟨⟩
            exact ⟨0, Nat.succ_pos _, hfn, nofun⟩
          · rintro ⟨k, -, hk, hbefore⟩
            cases k with
            | zero => exact hfn.symm.trans hk
            | succ k =>
                obtain ⟨e, he, -⟩ := hbefore 0 (Nat.succ_pos _)
                cases hfn.symm.trans he
      | error e =>
          simp only [attempts, hfn]
          constructor
          · intro h
            split at h
            · cases h
            · rename_i hfatal
              obtain ⟨k, hlt, hk, hbefore⟩ := ih.mp h
              refine ⟨k + 1, Nat.succ_lt_succ hlt, ?_, fun j hj => ?_⟩
              · rwa [show i + (k + 1) = i + 1 + k by omega]
              · cases j with
                | zero => exact ⟨e, hfn, by simpa using hfatal⟩
                | succ j =>
                    rw [show i + (j + 1) = i + 1 + j by omega]
                    exact hbefore j (Nat.lt_of_succ_lt_succ hj)
          · rintro ⟨k, hlt, hk, hbefore⟩
            cases k with
            | zero => cases hfn.symm.trans hk
            | succ k =>
                obtain ⟨e', he', hfatal⟩ := hbefore 0 (Nat.succ_pos _)
                cases hfn.symm.trans he'
                rw [if_neg (by simp [hfatal])]
                refine ih.mpr ⟨k, Nat.lt_of_succ_lt_succ hlt, ?_, fun j hj => ?_⟩
                · rwa [show i + 1 + k = i + (k + 1) by omega]
                · rw [show i + 1 + j = i + (j + 1) by omega]
                  exact hbefore (j + 1) (Nat.succ_lt_succ hj)

end Retry

/-- A field of the claim. -/
def claimField (receipt : Json) (name : String) : Option Json :=
  (receipt.get? "claim").bind fun claim => claim.get? name

section Runs

variable {K P V : Type} (vendor : Vendor K P V) (inp : Inputs)

/-- All that lies before the proof goes well. -/
structure Opens (receipt : Json) (keys : K) (prover : P) (pinnedVk : V) : Prop where
  file : inp.file = .ok receipt
  token : receipt.get? "token" = some (.str inp.token)
  line : ∃ line, claimLine (receipt.get? "claim") = .ok line
  keys : ∃ n, Js.bigIntOfText (verifierSecretHex inp) = .ok n ∧
    vendor.recipientKeysFromSecret n = .ok keys
  client : vendor.chainClient = .ok ()
  threads : vendor.enableThreadedProving = .ok ()
  circuit : ∃ id circuitId, Js.prop (receipt.get? "bundle") "circuitId" = .ok id ∧
    Js.template id = .ok circuitId ∧ vendor.proverFromArtifact circuitId = .ok prover ∧
    vendor.loadPinnedVk circuitId = .ok pinnedVk

/-- Within three attempts the proof is verified, and none before was a
rejection. -/
def Resolves (receipt : Json) (keys : K) (prover : P) (pinnedVk : V) (v : Verdict) : Prop :=
  ∃ k < 3, vendor.verifyDisclosure (1 + k) (receipt.get? "bundle") (receipt.get? "request") keys
      prover pinnedVk = .ok v ∧
    ∀ j < k, ∃ e, vendor.verifyDisclosure (1 + j) (receipt.get? "bundle")
      (receipt.get? "request") keys prover pinnedVk = .error e ∧
        e.isDisclosureVerifyError = false

/-- The session of a receipt. -/
def sessionOf (printed : List String) (receipt : Json) (keys : K) (prover : P) (pinnedVk : V) :
    Session K P V :=
  { printed := printed
    claim := receipt.get? "claim"
    request := receipt.get? "request"
    bundle := receipt.get? "bundle"
    keys := keys
    prover := prover
    pinnedVk := pinnedVk }

/-- The run verifies the proof of `receipt`, with this verdict. -/
def Verifies (receipt : Json) (v : Verdict) : Prop :=
  ∃ keys prover pinnedVk, Opens vendor inp receipt keys prover pinnedVk ∧
    Resolves vendor receipt keys prover pinnedVk v

/-- What the script asks for: a verified proof, and the claimed amount in
it. -/
structure Accepts (receipt : Json) (v : Verdict) : Prop where
  verifies : Verifies vendor inp receipt v
  destroy : vendor.destroy = .ok ()
  amount : Js.bigInt (claimField receipt "amountStroops") = .ok v.amount

variable {vendor inp} {s : Session K P V} {receipt : Json} {printed : List String} {keys : K}
  {prover : P} {pinnedVk : V} {v : Verdict}

theorem checkToken_eq_ok {token : String} {receiptToken : Option Json} :
    checkToken token receiptToken = .ok () ↔ receiptToken = some (.str token) := by
  rw [← Js.isText_eq_true, checkToken]
  split
  · rename_i htext
    exact iff_of_true rfl htext
  · rename_i htext
    refine iff_of_false (fun h => ?_) htext
    obtain ⟨text, -, h⟩ := Fallible.bind_eq_ok.mp h
    cases h

theorem prepare_eq_ok (h : prepare vendor inp = .ok s) :
    ∃ receipt printed keys prover pinnedVk, Opens vendor inp receipt keys prover pinnedVk ∧
      s = sessionOf printed receipt keys prover pinnedVk := by
  obtain ⟨receipt, hfile, h⟩ := Fallible.bind_eq_ok.mp h
  obtain ⟨token, htoken, h⟩ := Fallible.bind_eq_ok.mp h
  obtain ⟨⟨⟩, hcheck, h⟩ := Fallible.bind_eq_ok.mp h
  obtain ⟨claim, hclaim, h⟩ := Fallible.bind_eq_ok.mp h
  obtain ⟨line, hline, h⟩ := Fallible.bind_eq_ok.mp h
  obtain ⟨bundle, hbundle, h⟩ := Fallible.bind_eq_ok.mp h
  obtain ⟨id, hid, h⟩ := Fallible.bind_eq_ok.mp h
  obtain ⟨circuitId, hcircuit, h⟩ := Fallible.bind_eq_ok.mp h
  obtain ⟨n, hn, h⟩ := Fallible.bind_eq_ok.mp h
  obtain ⟨keys, hkeys, h⟩ := Fallible.bind_eq_ok.mp h
  obtain ⟨⟨⟩, hclient, h⟩ := Fallible.bind_eq_ok.mp h
  obtain ⟨⟨⟩, hthreads, h⟩ := Fallible.bind_eq_ok.mp h
  obtain ⟨prover, hprover, h⟩ := Fallible.bind_eq_ok.mp h
  obtain ⟨pinnedVk, hvk, h⟩ := Fallible.bind_eq_ok.mp h
  obtain ⟨request, hrequest, h⟩ := Fallible.bind_eq_ok.mp h
  cases h
  have hfield : ∀ {name w}, Js.prop (some receipt) name = .ok w → w = receipt.get? name := by
    intro name w hprop
    obtain ⟨j, hj, -, hw⟩ := Js.prop_eq_ok.mp hprop
    obtain rfl := Option.some.inj hj
    exact hw.symm
  obtain rfl := hfield htoken
  obtain rfl := hfield hclaim
  obtain rfl := hfield hbundle
  obtain rfl := hfield hrequest
  exact ⟨receipt, _, keys, prover, pinnedVk,
    { file := hfile
      token := checkToken_eq_ok.mp hcheck
      line := ⟨line, hline⟩
      keys := ⟨n, hn, hkeys⟩
      client := hclient
      threads := hthreads
      circuit := ⟨id, circuitId, hid, hcircuit, hprover, hvk⟩ }, rfl⟩

/-- The session is the one of the receipt. -/
theorem Opens.prepare (h : Opens vendor inp receipt keys prover pinnedVk) :
    ∃ printed, VerifyReceipt.prepare vendor inp =
      .ok (sessionOf printed receipt keys prover pinnedVk) := by
  obtain ⟨line, hline⟩ := h.line
  obtain ⟨n, hn, hkeys⟩ := h.keys
  obtain ⟨id, circuitId, hid, hcircuit, hprover, hvk⟩ := h.circuit
  have hprop := Js.prop_of_field h.token
  rw [VerifyReceipt.prepare]
  simp only [h.file, Fallible.ok_bind, hprop, checkToken_eq_ok.mpr h.token, hline, hid, hcircuit,
    hn, hkeys, h.client, h.threads, hprover, hvk]
  exact ⟨_, rfl⟩

theorem verify_eq_ok :
    verify vendor (sessionOf printed receipt keys prover pinnedVk) = .ok v ↔
      Resolves vendor receipt keys prover pinnedVk v :=
  attempts_eq_ok

/-- Status 0 is one comparison away from the verdict. -/
theorem conclude_status (e : Exit) :
    conclude vendor s v = .ok e ∧ e.status = 0 ↔
      (∃ claimed, Js.prop s.claim "amountStroops" = .ok claimed ∧
        Js.bigInt claimed = .ok v.amount) ∧
      e = ⟨s.printed ++ verdictLines vendor v ++ [matchingLine], 0⟩ := by
  constructor
  · rintro ⟨h, hstatus⟩
    obtain ⟨claimed, hclaimed, h⟩ := Fallible.bind_eq_ok.mp h
    obtain ⟨n, hn, h⟩ := Fallible.bind_eq_ok.mp h
    split at h
    · cases h
      cases hstatus
    · rename_i heq
      cases h
      exact ⟨⟨claimed, hclaimed, not_not.mp heq ▸ hn⟩, rfl⟩
  · rintro ⟨⟨claimed, hclaimed, hn⟩, rfl⟩
    rw [conclude, hclaimed, Fallible.ok_bind, hn, Fallible.ok_bind, if_neg (not_not.mpr rfl)]
    exact ⟨rfl, rfl⟩

theorem main_status (e : Exit) :
    main vendor inp = .ok e ∧ e.status = 0 ↔ ∃ s v, prepare vendor inp = .ok s ∧
      verify vendor s = .ok v ∧ vendor.destroy = .ok () ∧ conclude vendor s v = .ok e ∧
        e.status = 0 := by
  constructor
  · rintro ⟨h, hstatus⟩
    obtain ⟨s, hs, h⟩ := Fallible.bind_eq_ok.mp h
    split at h
    · cases h
      cases hstatus
    · obtain ⟨⟨⟩, -, h⟩ := Fallible.bind_eq_ok.mp h
      cases h
    · rename_i v hv
      obtain ⟨⟨⟩, hdestroy, h⟩ := Fallible.bind_eq_ok.mp h
      exact ⟨s, v, hs, hv, hdestroy, h, hstatus⟩
  · rintro ⟨s, v, hs, hv, hdestroy, hconclude, hstatus⟩
    refine ⟨?_, hstatus⟩
    rw [main, hs, Fallible.ok_bind, hv]
    dsimp only
    rw [hdestroy, Fallible.ok_bind, hconclude]

/-- The claim is an object with the fields that were printed of it. -/
theorem claim_of_line {line : String} (h : claimLine (receipt.get? "claim") = .ok line)
    (name : String) : Js.prop (receipt.get? "claim") name = .ok (claimField receipt name) := by
  obtain ⟨contributor, hprop, -⟩ := Fallible.bind_eq_ok.mp h
  obtain ⟨j, hj, hnull, -⟩ := Js.prop_eq_ok.mp hprop
  exact Js.prop_eq_ok.mpr ⟨j, hj, hnull, by rw [claimField, hj]; rfl⟩

/-- The run that ends with status 0 is the one `main` returns. -/
theorem run_zero :
    (run vendor inp).status = 0 ↔ main vendor inp = .ok (run vendor inp) ∧
      (run vendor inp).status = 0 := by
  refine ⟨fun h => ⟨?_, h⟩, And.right⟩
  unfold run at h ⊢
  cases hmain : main vendor inp with
  | ok e => rfl
  | error message => simp [hmain] at h

/-- **Status 0, exactly.** -/
theorem run_status_zero :
    (run vendor inp).status = 0 ↔ ∃ receipt v, Accepts vendor inp receipt v := by
  constructor
  · intro h
    obtain ⟨s, v, hs, hv, hdestroy, hconclude⟩ := (main_status _).mp (run_zero.mp h)
    obtain ⟨⟨claimed, hclaimed, hamount⟩, -⟩ := (conclude_status _).mp hconclude
    obtain ⟨receipt, printed, keys, prover, pinnedVk, hopens, rfl⟩ := prepare_eq_ok hs
    obtain ⟨line, hline⟩ := hopens.line
    cases hclaimed.symm.trans (claim_of_line hline _)
    exact ⟨receipt, v, ⟨keys, prover, pinnedVk, hopens, verify_eq_ok.mp hv⟩, hdestroy, hamount⟩
  · rintro ⟨receipt, v, ⟨keys, prover, pinnedVk, hopens, hresolves⟩, hdestroy, hamount⟩
    obtain ⟨printed, hs⟩ := hopens.prepare
    obtain ⟨line, hline⟩ := hopens.line
    have hconclude := (@conclude_status _ _ _ vendor
      (sessionOf printed receipt keys prover pinnedVk) v _).mpr
        ⟨⟨_, claim_of_line hline _, hamount⟩, rfl⟩
    have hmain := ((main_status _).mpr
      ⟨_, v, hs, verify_eq_ok.mpr hresolves, hdestroy, hconclude⟩).1
    rw [run, hmain]

/-- With status 0 the last line says that the claim matches. -/
theorem run_prints_matching (h : (run vendor inp).status = 0) :
    (run vendor inp).printed.getLast? = some matchingLine := by
  obtain ⟨s, v, -, -, -, hconclude⟩ := (main_status _).mp (run_zero.mp h)
  rw [((conclude_status _).mp hconclude).2, List.getLast?_append]
  rfl

/-- A run verifies one receipt, with one verdict. -/
theorem Verifies.unique {receipt' : Json} {v' : Verdict} (h : Verifies vendor inp receipt v)
    (h' : Verifies vendor inp receipt' v') : receipt = receipt' ∧ v = v' := by
  obtain ⟨keys, prover, pinnedVk, hopens, hresolves⟩ := h
  obtain ⟨keys', prover', pinnedVk', hopens', hresolves'⟩ := h'
  cases hopens.file.symm.trans hopens'.file
  obtain ⟨printed, hs⟩ := hopens.prepare
  obtain ⟨printed', hs'⟩ := hopens'.prepare
  have hsame : sessionOf printed receipt keys prover pinnedVk
      = sessionOf printed' receipt keys' prover' pinnedVk' := Except.ok.inj (hs.symm.trans hs')
  have hv : verify vendor (sessionOf printed receipt keys prover pinnedVk) = .ok v :=
    verify_eq_ok.mpr hresolves
  have hv' : verify vendor (sessionOf printed' receipt keys' prover' pinnedVk') = .ok v' :=
    verify_eq_ok.mpr hresolves'
  rw [hsame, hv'] at hv
  exact ⟨rfl, (Except.ok.inj hv).symm⟩

end Runs

/-! ## The claim against the event -/

/-- The verdict is a fact of the chain: a transfer between these two for
this amount, disclosed by one of them. -/
def OnChain {R C : Type} (txs : List (Tx R C)) (v : Verdict) : Prop :=
  (∃ rTx rNew data, Tx.transfer v.info v.sender v.recipient v.amount rTx rNew data ∈ txs) ∧
    (v.disclosingAccount = v.sender ∨ v.disclosingAccount = v.recipient)

/-- `verifyDisclosure` resolves with facts only. -/
def Sound {K P V R C : Type} (vendor : Vendor K P V) (txs : List (Tx R C)) : Prop :=
  ∀ i bundle request keys prover pinnedVk v,
    vendor.verifyDisclosure i bundle request keys prover pinnedVk = .ok v → OnChain txs v

/-- The claim names the disclosing account and the recipient. -/
structure NamesParties (receipt : Json) (v : Verdict) : Prop where
  contributor : claimField receipt "contributor" = some (.str v.disclosingAccount)
  goal : claimField receipt "goal" = some (.str v.recipient)

/-- The claim agrees with the transfer in full. -/
structure Agrees (token : String) (receipt : Json) (v : Verdict) : Prop
    extends NamesParties receipt v where
  amount : Js.bigInt (claimField receipt "amountStroops") = .ok v.amount
  token : receipt.get? "token" = some (.str token)

section Claims

variable {K P V R C : Type} {vendor : Vendor K P V} {txs : List (Tx R C)} {inp : Inputs}

/-- **What status 0 vouches for.** The claim agrees with the verified
transfer in full exactly when a receipt that gets as far as status 0
names the parties of that transfer: token and amount are compared, the
two accounts are not. -/
theorem matching_claim_iff (hsound : Sound vendor txs) :
    ((run vendor inp).status = 0 → ∃ receipt v, Verifies vendor inp receipt v ∧ OnChain txs v ∧
      Agrees inp.token receipt v) ↔
    ∀ receipt v, Accepts vendor inp receipt v → NamesParties receipt v := by
  constructor
  · intro h receipt v haccepts
    obtain ⟨receipt', v', hverifies, -, hagrees⟩ := h (run_status_zero.mpr ⟨receipt, v, haccepts⟩)
    obtain ⟨rfl, rfl⟩ := haccepts.verifies.unique hverifies
    exact hagrees.toNamesParties
  · intro h hzero
    obtain ⟨receipt, v, haccepts⟩ := run_status_zero.mp hzero
    obtain ⟨keys, prover, pinnedVk, hopens, k, -, hresolved, -⟩ := haccepts.verifies
    exact ⟨receipt, v, haccepts.verifies, hsound _ _ _ _ _ _ _ hresolved,
      { toNamesParties := h receipt v haccepts
        amount := haccepts.amount
        token := hopens.token }⟩

end Claims

/-! ## The receipts of `make-receipt.mjs` -/

/-- What goes into a receipt: the event, the amount found in it, and what
the prover and the clock add. -/
structure Made where
  createdAt : String
  network : String
  token : String
  sender : String
  recipient : String
  txHash : String
  amount : Int
  /-- `Number(preview.vTx) / 1e7`. -/
  amountXlm : String
  request : Json
  circuitId : String
  /-- The fields of the bundle after its circuit. -/
  proof : List (String × Json)
  provingMs : String

def statement : String :=
  "The contributor account originated the on-chain confidential transfer referenced in " ++
  "bundle.refE, and its amount is exactly the value sealed in the bundle's disclosure " ++
  "ciphertext. The proof is cryptographically bound to the verifier's (P_R, nu) below: it " ++
  "cannot be replayed to, or decrypted by, anyone else. Verification reads every public input " ++
  "from the chain, never from this file."

/-- The file `make-receipt.mjs` writes. -/
def receiptOf (m : Made) : Json :=
  .obj
    [ ("format", .str "sobre-del-barrio/mi-recibo@1"),
      ("createdAt", .str m.createdAt),
      ("network", .str m.network),
      ("token", .str m.token),
      ("claim", .obj
        [ ("statement", .str statement),
          ("contributor", .str m.sender),
          ("goal", .str m.recipient),
          ("amountStroops", .str (toString m.amount)),
          ("amountXlm", .num m.amountXlm),
          ("explorer", .str ("https://stellar.expert/explorer/testnet/tx/" ++ m.txHash)) ]),
      ("request", m.request),
      ("bundle", .obj (("circuitId", .str m.circuitId) :: m.proof)),
      ("provingMs", .num m.provingMs),
      ("verify", .str ("node verify-receipt.mjs [receipt.json]  (needs " ++
        "RECEIPT_VERIFIER_SECRET_HEX — the verifier's own key)")) ]

section MadeReceipts

variable {K P V : Type} {vendor : Vendor K P V} {inp : Inputs} {m : Made} {v : Verdict}

/-- A receipt made of the event it proves names its parties. -/
theorem receiptOf_namesParties (hsender : m.sender = v.disclosingAccount)
    (hrecipient : m.recipient = v.recipient) : NamesParties (receiptOf m) v := by
  refine ⟨?_, ?_⟩
  · rw [← hsender]
    rfl
  · rw [← hrecipient]
    rfl

theorem claimLine_receiptOf (m : Made) :
    ∃ line, claimLine ((receiptOf m).get? "claim") = .ok line :=
  ⟨_, rfl⟩

/-- It is accepted, once the proof is. -/
theorem receiptOf_accepts {n : Int} {keys : K} {prover : P} {pinnedVk : V}
    (hfile : inp.file = .ok (receiptOf m)) (htoken : m.token = inp.token)
    (hn : Js.bigIntOfText (verifierSecretHex inp) = .ok n)
    (hkeys : vendor.recipientKeysFromSecret n = .ok keys)
    (hclient : vendor.chainClient = .ok ()) (hthreads : vendor.enableThreadedProving = .ok ())
    (hprover : vendor.proverFromArtifact m.circuitId = .ok prover)
    (hvk : vendor.loadPinnedVk m.circuitId = .ok pinnedVk)
    (hresolves : Resolves vendor (receiptOf m) keys prover pinnedVk v)
    (hdestroy : vendor.destroy = .ok ()) (hamount : m.amount = v.amount) :
    Accepts vendor inp (receiptOf m) v where
  verifies := ⟨keys, prover, pinnedVk,
    { file := hfile
      token := by rw [← htoken]; rfl
      line := claimLine_receiptOf m
      keys := ⟨n, hn, hkeys⟩
      client := hclient
      threads := hthreads
      circuit := ⟨some (.str m.circuitId), m.circuitId, rfl, rfl, hprover, hvk⟩ }, hresolves⟩
  destroy := hdestroy
  amount := by
    rw [← hamount]
    exact Js.bigInt_toString m.amount

end MadeReceipts

/-! ## A receipt with other names on it -/

/-- 25 XLM from one account to another. -/
def sentVerdict : Verdict where
  steps := ["UltraHonk proof verified against the reconstructed public inputs"]
  info := ⟨3950172, "5836313815618675", none⟩
  sender := "GDUTRPFZAL3QRHCY47A6KAI6EK4XJTZ35J5IWI7YN3VGHHWA5F77DJ2I"
  recipient := "GAJPXAL725N44NMEZ3XIN66ZJ7XURJNLXIDGIOOR7D3E23DIRGLIM73X"
  disclosingAccount := "GDUTRPFZAL3QRHCY47A6KAI6EK4XJTZ35J5IWI7YN3VGHHWA5F77DJ2I"
  amount := 250000000

def sentTxs : List (Tx Int Unit) :=
  [.transfer sentVerdict.info sentVerdict.sender sentVerdict.recipient 250000000 7 9 ()]

/-- A vendor that knows this transfer's proof, after one call that fails. -/
def sentVendor : Vendor Unit Unit Unit where
  recipientKeysFromSecret := fun _ => .ok ()
  chainClient := .ok ()
  enableThreadedProving := .ok ()
  proverFromArtifact := fun _ => .ok ()
  loadPinnedVk := fun _ => .ok ()
  verifyDisclosure := fun i _ _ _ _ _ =>
    if i = 1 then .error (.other "fetch failed") else .ok sentVerdict
  destroy := .ok ()
  inXlm := fun stroops => toString (stroops / 10000000)

theorem sentVendor_sound : Sound sentVendor sentTxs := by
  intro i bundle request keys prover pinnedVk v h
  have hv : (if i = 1 then .error (.other "fetch failed") else .ok sentVerdict
      : Except Thrown Verdict) = .ok v := h
  split at hv
  · cases hv
  · cases hv
    exact ⟨⟨7, 9, (), List.mem_singleton_self _⟩, .inl rfl⟩

/-- The receipt of that transfer, with these names in its claim. -/
def receiptNaming (contributor goal : String) : Made where
  createdAt := "2026-08-04T16:37:50.069Z"
  network := "testnet"
  token := "CBWSANZN7YIMA4CWLNSAZO3HSD5NZDC2GZQJ434MOPQR7RDNVYQSDHAT"
  sender := contributor
  recipient := goal
  txHash := "5836313815618675"
  amount := 250000000
  amountXlm := "25"
  request := .obj []
  circuitId := "disclose_sender"
  proof := []
  provingMs := "957"

def inputsNaming (contributor goal : String) : Inputs where
  path := "receipt.json"
  file := .ok (receiptOf (receiptNaming contributor goal))
  token := "CBWSANZN7YIMA4CWLNSAZO3HSD5NZDC2GZQJ434MOPQR7RDNVYQSDHAT"
  secretHex := some "0x10"

theorem receiptNaming_accepts (contributor goal : String) :
    Accepts sentVendor (inputsNaming contributor goal)
      (receiptOf (receiptNaming contributor goal)) sentVerdict := by
  have hn : Js.bigIntOfText "0x10" = .ok 16 := by decide
  refine receiptOf_accepts rfl rfl hn rfl rfl rfl rfl rfl ⟨1, by decide, rfl, ?_⟩ rfl rfl
  intro j hj
  obtain rfl := Nat.lt_one_iff.mp hj
  exact ⟨_, rfl, rfl⟩

/-- The names of the event in the claim. -/
theorem matching_claim_iff_sent :
    ∃ receipt v, Verifies sentVendor (inputsNaming sentVerdict.sender sentVerdict.recipient)
      receipt v ∧ OnChain sentTxs v ∧
        Agrees "CBWSANZN7YIMA4CWLNSAZO3HSD5NZDC2GZQJ434MOPQR7RDNVYQSDHAT" receipt v := by
  have haccepts := receiptNaming_accepts sentVerdict.sender sentVerdict.recipient
  refine (matching_claim_iff sentVendor_sound).mpr (fun receipt v h => ?_)
    (run_status_zero.mpr ⟨_, _, haccepts⟩)
  obtain ⟨rfl, rfl⟩ := haccepts.verifies.unique h.verifies
  exact receiptOf_namesParties rfl rfl

/-- **Any two names pass.** The claim says that the recipient paid the
sender; the script ends with status 0 and the line that it matches. -/
theorem swapped_claim_matches :
    Sound sentVendor sentTxs ∧
      (run sentVendor (inputsNaming sentVerdict.recipient sentVerdict.sender)).status = 0 ∧
      (run sentVendor (inputsNaming sentVerdict.recipient sentVerdict.sender)).printed.getLast?
        = some matchingLine ∧
      ¬ ∃ receipt v,
        Verifies sentVendor (inputsNaming sentVerdict.recipient sentVerdict.sender) receipt v ∧
          OnChain sentTxs v ∧
          Agrees "CBWSANZN7YIMA4CWLNSAZO3HSD5NZDC2GZQJ434MOPQR7RDNVYQSDHAT" receipt v := by
  have haccepts := receiptNaming_accepts sentVerdict.recipient sentVerdict.sender
  have hzero := run_status_zero.mpr ⟨_, _, haccepts⟩
  refine ⟨sentVendor_sound, hzero, run_prints_matching hzero, ?_⟩
  rintro ⟨receipt, v, hverifies, -, hagrees⟩
  obtain ⟨rfl, rfl⟩ := haccepts.verifies.unique hverifies
  have hname : some (Json.str sentVerdict.recipient)
      = some (.str sentVerdict.disclosingAccount) := hagrees.contributor
  exact absurd (Json.str.inj (Option.some.inj hname)) (by decide)

end VerifyReceipt

end RaizStack
