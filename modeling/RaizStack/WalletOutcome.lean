import RaizStack.EventsWire
import RaizStack.WalletOp

/-!
# What the result card may say

`Ok` with a hash is shown after the RPC answered `SUCCESS` for it, so it
is as true as that answer. `Failed` is shown for every exception, and only
one of them is a verdict on the transaction: the others say that the phone
stopped waiting - the fourth attempt failed, the RPC turned a copy down,
the poll ran into its 120 seconds - while the envelope may still be on its
way, for 180. A step is `Conclusive` when it does not end the operation as
failed before its transaction is `Over`; what that asks of network and
chain, exit by exit, is said in `WalletExits`.

Under conclusive steps what is reported stays true, through the chain's
later moves as well (`OpInv`); and a step that is not has a continuation
that shows the opposite of what happened.
-/

namespace RaizStack

namespace WalletOp

/-! ## The property -/

/-- What is shown is true: `Ok` of a transaction that was applied once,
with success, and `Failed` only while none was applied with success. -/
def Reported (s : OpState) : Prop :=
  match s.ui with
  | .ok _ _ _ (some hash) _ _ => s.applied.count (hash, true) = 1 ∧ (hash, false) ∉ s.applied
  | .failed _ _ _ => ∀ hash, (hash, true) ∉ s.applied
  | _ => True

/-! ## The condition -/

/-- The envelope a stop is about. -/
def Stop.envelope : Stop → Option SignedTx
  | .send tx _ _ | .get tx _ _ _ => some tx
  | .sleep _ next => next.envelope
  | .friendbot _ | .prepare | .ended _ => none

section Conditions

variable (lib : OrgJson) (maxTime : String → Int)

/-- The transaction was not applied with success and never will be. -/
structure Over (s : OpState) (hash : String) : Prop where
  unapplied : (hash, true) ∉ s.applied
  final : hash ∉ s.copies ∨ (hash, false) ∈ s.applied ∨ maxTime hash < s.ledgerTime

/-- No further attempt follows: an `RpcException`, or the fourth failure. -/
def GivesUp (method : String) (i : Nat) (x : Exchange) : Prop :=
  match rpcCall lib method x with
  | .ok _ => False
  | .error (.rpcException _) => True
  | .error (.other _ _) => ¬ i < 4

/-- The exchange ends the operation as failed. -/
def EndsFailed (s : OpState) (x : Exchange) : Prop :=
  match s.stop with
  | .send _ _ i => GivesUp lib "sendTransaction" i x ∨
      ∃ res, rpcCall lib "sendTransaction" x = .ok res ∧ accepted lib res = false
  | .get _ _ deadline i => GivesUp lib "getTransaction" i x ∨
      ∃ res, rpcCall lib "getTransaction" x = .ok res ∧ lib.optString res "status" ≠ "SUCCESS" ∧
        (lib.optString res "status" = "FAILED" ∨ ¬ s.now < deadline)
  | _ => False

/-- The poll is answered with this status. -/
def Answers (s : OpState) (x : Exchange) (status : String) : Prop :=
  match s.stop with
  | .get _ _ _ _ => ∃ res, rpcCall lib "getTransaction" x = .ok res ∧
      lib.optString res "status" = status
  | _ => False

/-- `SUCCESS` is answered of a transaction that was applied so, and the
operation fails when its transaction is over. -/
def Conclusive (s : OpState) : Act → Prop
  | .reply x => ∀ tx, s.stop.envelope = some tx →
      (Answers lib s x "SUCCESS" → (tx.txHashHex, true) ∈ s.applied) ∧
      (EndsFailed lib s x → Over maxTime s tx.txHashHex)
  | _ => True

/-- The RPC tells no lies: a verdict it answers is the ledger's. -/
def Truthful (s : OpState) : Act → Prop
  | .reply x => ∀ tx, s.stop.envelope = some tx →
      (Answers lib s x "SUCCESS" → (tx.txHashHex, true) ∈ s.applied) ∧
      (Answers lib s x "FAILED" → (tx.txHashHex, false) ∈ s.applied)
  | _ => True

end Conditions

/-! ## What a step does -/

/-- Copies and ledger are as they were. -/
structure SameChain (s s' : OpState) : Prop where
  copies : s'.copies = s.copies
  applied : s'.applied = s.applied
  ledgerTime : s'.ledgerTime = s.ledgerTime

theorem SameChain.of_stop (s : OpState) (stop : Stop) : SameChain s { s with stop := stop } :=
  ⟨rfl, rfl, rfl⟩

section Steps

variable {lib : OrgJson} {signer : Signer} {maxTime : String → Int} {s s' : OpState}

/-- Where an exchange about an envelope leads, told apart by the
conditions. -/
inductive Replied (lib : OrgJson) (s : OpState) (x : Exchange) (tx : SignedTx) : Stop → Prop
  | again (wakeAt : Int) (next : Stop) (hnext : next.envelope = some tx)
      (hsuccess : ¬ Answers lib s x "SUCCESS") (hfailed : ¬ EndsFailed lib s x) :
      Replied lib s x tx (.sleep wakeAt next)
  | succeeded (op label note : String) (ledger : Option Int) (proveMs : Int)
      (hsuccess : Answers lib s x "SUCCESS") (hfailed : ¬ EndsFailed lib s x) :
      Replied lib s x tx (.ended (.ok op label ledger (some tx.txHashHex) proveMs note))
  | failed (op label message : String) (hsuccess : ¬ Answers lib s x "SUCCESS")
      (hfailed : EndsFailed lib s x) : Replied lib s x tx (.ended (.failed op label message))

theorem Replied.of_success {x : Exchange} {tx : SignedTx} {stop : Stop}
    (h : Replied lib s x tx stop) (hanswer : Answers lib s x "SUCCESS") :
    ∃ op label note ledger proveMs,
      stop = .ended (.ok op label ledger (some tx.txHashHex) proveMs note) := by
  cases h with
  | again wakeAt next hnext hsuccess => exact absurd hanswer hsuccess
  | succeeded op label note ledger proveMs => exact ⟨op, label, note, ledger, proveMs, rfl⟩
  | failed op label message hsuccess => exact absurd hanswer hsuccess

theorem Replied.of_failed {x : Exchange} {tx : SignedTx} {stop : Stop}
    (h : Replied lib s x tx stop) (hends : EndsFailed lib s x) :
    ∃ op label message, stop = .ended (.failed op label message) := by
  cases h with
  | again wakeAt next hnext hsuccess hfailed => exact absurd hends hfailed
  | succeeded op label note ledger proveMs hsuccess hfailed => exact absurd hends hfailed
  | failed op label message => exact ⟨op, label, message, rfl⟩

theorem retrying_again {label name : String} {m : Option String} {i : Nat} {again : Nat → Stop}
    (hi : i < 4) :
    s.retrying label i again (.other m name)
      = { s with stop := .sleep (s.now + 2000 * 2 ^ (i - 1)) (again (i + 1)) } :=
  if_pos hi

theorem retrying_last {label name : String} {m : Option String} {i : Nat} {again : Nat → Stop}
    (hi : ¬ i < 4) :
    s.retrying label i again (.other m name)
      = s.fail (.other (some (label ++ " failed after 4 attempts: " ++ orNull m))
          "IOException") :=
  if_neg hi

/-- An attempt that throws, at a stop that fails by giving up. -/
theorem replied_retrying {method label : String} {i : Nat} {x : Exchange} {tx : SignedTx}
    {again : Nat → Stop} {e : Thrown} (hagain : ∀ i, (again i).envelope = some tx)
    (hcall : rpcCall lib method x = .error e) (hsuccess : ¬ Answers lib s x "SUCCESS")
    (hends : EndsFailed lib s x ↔ GivesUp lib method i x) :
    SameChain s (s.retrying label i again e) ∧
      Replied lib s x tx (s.retrying label i again e).stop := by
  rw [GivesUp, hcall] at hends
  cases e with
  | rpcException message =>
      exact ⟨.of_stop _ _, .failed _ _ _ hsuccess (hends.mpr trivial)⟩
  | other m name =>
      by_cases hi : i < 4
      · rw [retrying_again hi]
        exact ⟨.of_stop _ _, .again _ _ (hagain _) hsuccess fun h => hends.mp h hi⟩
      · rw [retrying_last hi]
        exact ⟨.of_stop _ _, .failed _ _ _ hsuccess (hends.mpr hi)⟩

/-- The head of the poll, where it fails by the deadline. -/
theorem replied_poll {x : Exchange} {tx : SignedTx} {prep : Json} {deadline : Int}
    (hsuccess : ¬ Answers lib s x "SUCCESS")
    (hends : EndsFailed lib s x ↔ ¬ s.now < deadline) :
    SameChain s (s.poll tx prep deadline) ∧
      Replied lib s x tx (s.poll tx prep deadline).stop := by
  unfold OpState.poll
  by_cases hnow : s.now < deadline
  · rw [if_pos hnow]
    exact ⟨.of_stop _ _, .again _ _ rfl hsuccess fun h => hends.mp h hnow⟩
  · rw [if_neg hnow]
    exact ⟨.of_stop _ _, .failed _ _ _ hsuccess (hends.mpr hnow)⟩

theorem replied_send {tx : SignedTx} {prep : Json} {i : Nat} {x : Exchange}
    (hstop : s.stop = .send tx prep i) (h : onReply lib s x = some s') :
    SameChain s s' ∧ Replied lib s x tx s'.stop := by
  have hsuccess : ¬ Answers lib s x "SUCCESS" := by
    rw [Answers, hstop]
    exact id
  rw [onReply, hstop] at h
  cases hcall : rpcCall lib "sendTransaction" x with
  | error e =>
      simp only [hcall] at h
      obtain rfl := Option.some.inj h
      refine replied_retrying (fun _ => rfl) hcall hsuccess ?_
      simp [EndsFailed, hstop, hcall]
  | ok res =>
      simp only [hcall] at h
      obtain rfl := Option.some.inj h
      have hends : EndsFailed lib s x ↔ accepted lib res = false := by
        simp [EndsFailed, GivesUp, hstop, hcall]
      unfold OpState.sent
      cases hacc : accepted lib res with
      | true =>
          rw [if_pos rfl]
          refine replied_poll hsuccess (hends.trans ?_)
          rw [hacc]
          exact iff_of_false nofun (not_not.mpr (by omega))
      | false =>
          rw [if_neg nofun]
          exact ⟨.of_stop _ _, .failed _ _ _ hsuccess (hends.mpr hacc)⟩

theorem replied_get {tx : SignedTx} {prep : Json} {deadline : Int} {i : Nat} {x : Exchange}
    (hstop : s.stop = .get tx prep deadline i) (h : onReply lib s x = some s') :
    SameChain s s' ∧ Replied lib s x tx s'.stop := by
  rw [onReply, hstop] at h
  cases hcall : rpcCall lib "getTransaction" x with
  | error e =>
      simp only [hcall] at h
      obtain rfl := Option.some.inj h
      refine replied_retrying (fun _ => rfl) hcall ?_ ?_
      · simp [Answers, hstop, hcall]
      · simp [EndsFailed, hstop, hcall]
  | ok res =>
      simp only [hcall] at h
      obtain rfl := Option.some.inj h
      have hanswers : Answers lib s x "SUCCESS" ↔ lib.optString res "status" = "SUCCESS" := by
        simp [Answers, hstop, hcall]
      have hends : EndsFailed lib s x ↔ lib.optString res "status" ≠ "SUCCESS" ∧
          (lib.optString res "status" = "FAILED" ∨ ¬ s.now < deadline) := by
        simp [EndsFailed, GivesUp, hstop, hcall]
      unfold OpState.polled
      by_cases hok : lib.optString res "status" = "SUCCESS"
      · rw [if_pos hok]
        exact ⟨.of_stop _ _, .succeeded _ _ _ _ _ (hanswers.mpr hok) fun h => (hends.mp h).1 hok⟩
      · rw [if_neg hok]
        by_cases hfailed : lib.optString res "status" = "FAILED"
        · rw [if_pos hfailed]
          exact ⟨.of_stop _ _, .failed _ _ _ (mt hanswers.mp hok)
            (hends.mpr ⟨hok, .inl hfailed⟩)⟩
        · rw [if_neg hfailed]
          refine replied_poll (mt hanswers.mp hok) (hends.trans ?_)
          simp [hok, hfailed]

/-- An exchange is taken where one is awaited: for the funding, or about an
envelope. -/
theorem awaited_of_onReply {x : Exchange} (h : onReply lib s x = some s') :
    (∃ i, s.stop = .friendbot i) ∨
    ∃ tx prep, (∃ i, s.stop = .send tx prep i) ∨ ∃ deadline i, s.stop = .get tx prep deadline i := by
  unfold onReply at h
  split at h
  · rename_i i hstop
    exact .inl ⟨i, hstop⟩
  · rename_i tx prep i hstop
    exact .inr ⟨tx, prep, .inl ⟨i, hstop⟩⟩
  · rename_i tx prep deadline i hstop
    exact .inr ⟨tx, prep, .inr ⟨deadline, i, hstop⟩⟩
  · cases h

/-- **An exchange about an envelope.** -/
theorem replied_of_onReply {tx : SignedTx} {x : Exchange} (htx : s.stop.envelope = some tx)
    (h : onReply lib s x = some s') : SameChain s s' ∧ Replied lib s x tx s'.stop := by
  rcases awaited_of_onReply h with ⟨i, hstop⟩ | ⟨tx', prep, ⟨i, hstop⟩ | ⟨deadline, i, hstop⟩⟩
  · rw [hstop] at htx
    cases htx
  · rw [hstop] at htx
    obtain rfl := Option.some.inj htx
    exact replied_send hstop h
  · rw [hstop] at htx
    obtain rfl := Option.some.inj htx
    exact replied_get hstop h

end Steps

/-! ## The invariant -/

section Invariant

variable (maxTime : String → Int) (failing : Prop)

/-- All that left the phone, and all that was applied, is one envelope. -/
structure Tracked (s : OpState) (sent : Option String) : Prop where
  copies : ∀ hash ∈ s.copies, sent = some hash
  applied : ∀ p ∈ s.applied, sent = some p.1
  once : (s.applied.map Prod.fst).Nodup

/-- What a result stands for. `failing` is whether failures are looked at. -/
def UiOk (s : OpState) (sent : Option String) : OpUiState → Prop
  | .running _ _ _ _ => False
  | .ok _ _ _ txHash _ _ => ∀ hash, txHash = some hash → (hash, true) ∈ s.applied
  | .failed _ _ _ => failing → ∀ hash, sent = some hash → Over maxTime s hash

def StopOk (s : OpState) (sent : Option String) : Stop → Prop
  | .friendbot _ | .prepare => sent = none
  | .send tx _ _ | .get tx _ _ _ => sent = some tx.txHashHex
  | .sleep _ next => StopOk s sent next
  | .ended ui => UiOk maxTime failing s sent ui

def OpInv (s : OpState) : Prop :=
  ∃ sent, Tracked s sent ∧ StopOk maxTime failing s sent s.stop

variable {maxTime failing} {lib : OrgJson} {signer : Signer} {s s' : OpState}
  {sent : Option String} {stop : Stop}

theorem StopOk.mono (h : StopOk maxTime failing s sent stop)
    (happ : ∀ p ∈ s.applied, p ∈ s'.applied)
    (hover : ∀ hash, Over maxTime s hash → Over maxTime s' hash) :
    StopOk maxTime failing s' sent stop := by
  induction stop with
  | sleep wakeAt next ih => exact ih h
  | ended ui =>
      cases ui with
      | running => exact h
      | ok op label ledger txHash proveMs note => exact fun hash hhash => happ _ (h hash hhash)
      | failed op label message => exact fun hf hash hsent => hover hash (h hf hash hsent)
  | _ => exact h

theorem StopOk.envelope {tx : SignedTx} (h : StopOk maxTime failing s sent stop)
    (htx : stop.envelope = some tx) : sent = some tx.txHashHex := by
  induction stop with
  | sleep wakeAt next ih => exact ih h htx
  | send tx' prep i =>
      obtain rfl := Option.some.inj htx
      exact h
  | get tx' prep deadline i =>
      obtain rfl := Option.some.inj htx
      exact h
  | _ => cases htx

theorem stopOk_of_envelope {tx : SignedTx} (htx : stop.envelope = some tx) :
    StopOk maxTime failing s (some tx.txHashHex) stop := by
  induction stop with
  | sleep wakeAt next ih => exact ih htx
  | send tx' prep i =>
      obtain rfl := Option.some.inj htx
      rfl
  | get tx' prep deadline i =>
      obtain rfl := Option.some.inj htx
      rfl
  | _ => cases htx

theorem SameChain.over (h : SameChain s s') {hash : String} (hover : Over maxTime s hash) :
    Over maxTime s' hash where
  unapplied := by
    rw [h.applied]
    exact hover.unapplied
  final := by
    rw [h.copies, h.applied, h.ledgerTime]
    exact hover.final

theorem SameChain.tracked (h : SameChain s s') (ht : Tracked s sent) : Tracked s' sent where
  copies := h.copies ▸ ht.copies
  applied := h.applied ▸ ht.applied
  once := h.applied ▸ ht.once

theorem SameChain.stopOk (h : SameChain s s') (hok : StopOk maxTime failing s sent stop) :
    StopOk maxTime failing s' sent stop :=
  hok.mono (fun _ hp => h.applied ▸ hp) fun _ => h.over

/-- Nothing was sent yet. -/
theorem Tracked.copies_eq_nil (h : Tracked s none) : s.copies = [] :=
  List.eq_nil_iff_forall_not_mem.mpr fun hash hmem => absurd (h.copies hash hmem) nofun

theorem Tracked.applied_eq_nil (h : Tracked s none) : s.applied = [] :=
  List.eq_nil_iff_forall_not_mem.mpr fun p hmem => absurd (h.applied p hmem) nofun

/-! ## The chain's moves -/

theorem lose_inv {hash : String} (hinv : OpInv maxTime failing s)
    (h : next lib signer maxTime s (.lose hash) = some s') : OpInv maxTime failing s' := by
  obtain ⟨sent, ht, hok⟩ := hinv
  simp only [next] at h
  split at h
  · cases h
    refine ⟨sent, ⟨fun x hx => ht.copies x (List.mem_of_mem_erase hx), ht.applied, ht.once⟩,
      hok.mono (fun _ => id) fun x hover => ⟨hover.unapplied, ?_⟩⟩
    exact hover.final.imp_left fun hnot hmem => hnot (List.mem_of_mem_erase hmem)
  · cases h

theorem close_inv {time : Int} (hinv : OpInv maxTime failing s)
    (h : next lib signer maxTime s (.close time) = some s') : OpInv maxTime failing s' := by
  obtain ⟨sent, ht, hok⟩ := hinv
  simp only [next] at h
  split at h
  · rename_i hlater
    cases h
    refine ⟨sent, ⟨ht.copies, ht.applied, ht.once⟩,
      hok.mono (fun _ => id) fun x hover => ⟨hover.unapplied, ?_⟩⟩
    exact hover.final.imp_right (Or.imp_right fun hpast => hpast.trans hlater)
  · cases h

/-- A transaction that is over is not applied. -/
theorem apply_inv {hash : String} {success : Bool} (hinv : OpInv maxTime failing s)
    (h : next lib signer maxTime s (.apply hash success) = some s') :
    OpInv maxTime failing s' := by
  obtain ⟨sent, ht, hok⟩ := hinv
  simp only [next] at h
  split at h
  · rename_i hguard
    obtain ⟨hcopy, hnew, hintime⟩ := hguard
    cases h
    refine ⟨sent, ⟨ht.copies, ?_, ?_⟩, hok.mono (fun p hp => List.mem_append_left _ hp) ?_⟩
    · intro p hp
      rcases List.mem_append.mp hp with hold | hlast
      · exact ht.applied p hold
      · obtain rfl := List.mem_singleton.mp hlast
        exact ht.copies hash hcopy
    · rw [List.map_append]
      refine List.nodup_append.mpr ⟨ht.once, List.nodup_singleton _, ?_⟩
      rintro a ha b hb rfl
      rw [List.mem_singleton.mp hb] at ha
      exact hnew ha
    · intro x hover
      have hne : x ≠ hash := by
        rintro rfl
        rcases hover.final with hnot | hfailed | hpast
        · exact hnot hcopy
        · exact hnew (List.mem_map_of_mem hfailed)
        · omega
      refine ⟨fun hmem => ?_, hover.final.imp_right (Or.imp_left (List.mem_append_left _))⟩
      rcases List.mem_append.mp hmem with hold | hlast
      · exact hover.unapplied hold
      · exact hne (congrArg Prod.fst (List.mem_singleton.mp hlast))
  · cases h

/-! ## The operation's moves -/

theorem enter_inv (ht : Tracked s sent) (hok : StopOk maxTime failing s sent stop) :
    OpInv maxTime failing (s.enter stop) := by
  cases stop with
  | send tx prep i =>
      obtain rfl : sent = some tx.txHashHex := hok
      refine ⟨some tx.txHashHex, ⟨fun x hx => ?_, ht.applied, ht.once⟩, rfl⟩
      rcases List.mem_cons.mp hx with rfl | hold
      · rfl
      · exact ht.copies x hold
  | _ => exact ⟨sent, (SameChain.of_stop s _).tracked ht, (SameChain.of_stop s _).stopOk hok⟩

/-- A move of the operation that leaves the chain alone. -/
theorem SameChain.opInv (h : SameChain s s') (ht : Tracked s sent)
    (hok : StopOk maxTime failing s sent s'.stop) : OpInv maxTime failing s' :=
  ⟨sent, h.tracked ht, h.stopOk hok⟩

/-- A failure before anything was sent. -/
theorem fail_inv (ht : Tracked s none) (e : Thrown) : OpInv maxTime failing (s.fail e) :=
  (SameChain.of_stop s _).opInv ht fun _ _ hsent => absurd hsent nofun

theorem signAndSubmit_inv {prep : Json} (hinv : OpInv maxTime failing s)
    (hstop : s.stop = .prepare) :
    OpInv maxTime failing (s.signAndSubmit lib signer prep) := by
  obtain ⟨sent, ht, hok⟩ := hinv
  rw [hstop] at hok
  obtain rfl : sent = none := hok
  unfold OpState.signAndSubmit
  dsimp only
  split
  · exact (SameChain.of_stop s _).opInv ht fun hash hhash => absurd hhash nofun
  · split
    · exact fail_inv ht _
    · split
      · exact fail_inv ht _
      · rename_i tx hsign
        have hfresh : Tracked s (some tx.txHashHex) :=
          { copies := fun x hx => absurd (ht.copies_eq_nil ▸ hx) List.not_mem_nil
            applied := fun p hp => absurd (ht.applied_eq_nil ▸ hp) List.not_mem_nil
            once := ht.once }
        exact enter_inv hfresh rfl

/-- An attempt to fund the account. -/
theorem funding_inv {i : Nat} {x : Exchange} (hinv : OpInv maxTime failing s)
    (hstop : s.stop = .friendbot i) (h : onReply lib s x = some s') :
    OpInv maxTime failing s' := by
  obtain ⟨sent, ht, hok⟩ := hinv
  rw [hstop] at hok
  obtain rfl : sent = none := hok
  rw [onReply, hstop] at h
  cases hcall : friendbotFund x with
  | ok u =>
      simp only [hcall] at h
      obtain rfl := Option.some.inj h
      exact enter_inv ht rfl
  | error e =>
      simp only [hcall] at h
      obtain rfl := Option.some.inj h
      cases e with
      | rpcException message => exact fail_inv ht _
      | other m name =>
          by_cases hi : i < 4
          · rw [retrying_again hi]
            exact (SameChain.of_stop s _).opInv ht rfl
          · rw [retrying_last hi]
            exact fail_inv ht _

/-- An exchange about the envelope. -/
theorem reply_inv {tx : SignedTx} {x : Exchange} (hinv : OpInv maxTime failing s)
    (htx : s.stop.envelope = some tx) (h : onReply lib s x = some s')
    (hsuccess : Answers lib s x "SUCCESS" → (tx.txHashHex, true) ∈ s.applied)
    (hfailed : failing → EndsFailed lib s x → Over maxTime s tx.txHashHex) :
    OpInv maxTime failing s' := by
  obtain ⟨sent, ht, hok⟩ := hinv
  obtain rfl := hok.envelope htx
  obtain ⟨hchain, hreplied⟩ := replied_of_onReply htx h
  refine hchain.opInv ht ?_
  generalize s'.stop = stop at hreplied
  cases hreplied with
  | again wakeAt next hnext => exact stopOk_of_envelope hnext
  | succeeded op label note ledger proveMs hanswer =>
      intro hash hhash
      obtain rfl := Option.some.inj hhash
      exact hsuccess hanswer
  | failed op label message hanswer hends =>
      intro hf hash hsent
      obtain rfl := Option.some.inj hsent
      exact hfailed hf hends

/-- **The step lemma.** -/
theorem next_inv {act : Act} (hinv : OpInv maxTime failing s)
    (h : next lib signer maxTime s act = some s')
    (hreply : ∀ x tx, act = .reply x → s.stop.envelope = some tx →
      (Answers lib s x "SUCCESS" → (tx.txHashHex, true) ∈ s.applied) ∧
      (failing → EndsFailed lib s x → Over maxTime s tx.txHashHex)) :
    OpInv maxTime failing s' := by
  cases act with
  | tick ms =>
      obtain rfl := Option.some.inj h
      obtain ⟨sent, ht, hok⟩ := hinv
      have hchain : SameChain s { s with now := s.now + ms } := ⟨rfl, rfl, rfl⟩
      exact hchain.opInv ht hok
  | close time => exact close_inv hinv h
  | lose hash => exact lose_inv hinv h
  | apply hash success => exact apply_inv hinv h
  | reply x =>
      cases htx : s.stop.envelope with
      | some tx =>
          obtain ⟨hsuccess, hfailed⟩ := hreply x tx rfl htx
          exact reply_inv hinv htx h hsuccess hfailed
      | none =>
          rcases awaited_of_onReply h with
            ⟨i, hstop⟩ | ⟨tx, prep, ⟨i, hstop⟩ | ⟨deadline, i, hstop⟩⟩
          · exact funding_inv hinv hstop h
          · rw [hstop] at htx
            cases htx
          · rw [hstop] at htx
            cases htx
  | prepared builtAt r =>
      simp only [next] at h
      split at h
      · rename_i hstop
        split at h
        · cases h
          exact signAndSubmit_inv hinv hstop
        · cases h
          obtain ⟨sent, ht, hok⟩ := hinv
          rw [hstop] at hok
          obtain rfl : sent = none := hok
          exact fail_inv ht _
      · cases h
  | wake =>
      simp only [next] at h
      split at h
      · rename_i wakeAt stop hstop
        split at h
        · cases h
          obtain ⟨sent, ht, hok⟩ := hinv
          rw [hstop] at hok
          exact enter_inv ht hok
        · cases h
      · cases h

theorem tapped_inv (h : Tapped s) : OpInv maxTime failing s := by
  obtain ⟨op, startedAt, now, ledgerTime, rfl⟩ := h
  refine ⟨none, ⟨nofun, nofun, List.nodup_nil⟩, ?_⟩
  unfold tapped
  dsimp only
  split <;> rfl

end Invariant

/-! ## Whole runs -/

section Runs

variable {lib : OrgJson} {signer : Signer} {maxTime : String → Int} {failing : Prop}
  {s s' : OpState}

theorem stop_of_ui {ui : OpUiState} (h : s.ui = ui)
    (hend : ∀ op label phase startedAt, ui ≠ .running op label phase startedAt) :
    s.stop = .ended ui := by
  unfold OpState.ui at h
  cases hstop : s.stop with
  | ended ui' =>
      rw [hstop] at h
      exact congrArg Stop.ended h
  | _ =>
      rw [hstop] at h
      exact absurd h.symm (hend _ _ _ _)

/-- An `Ok` with a hash stands for one application, with success. -/
theorem OpInv.ok {op label hash note : String} {ledger : Option Int} {proveMs : Int}
    (h : OpInv maxTime failing s) (hui : s.ui = .ok op label ledger (some hash) proveMs note) :
    s.applied.count (hash, true) = 1 ∧ (hash, false) ∉ s.applied := by
  obtain ⟨sent, ht, hok⟩ := h
  rw [stop_of_ui hui nofun] at hok
  have hmem : (hash, true) ∈ s.applied := hok hash rfl
  refine ⟨List.count_eq_one_of_mem ht.once.of_map hmem, fun hother => ?_⟩
  have heq := List.inj_on_of_nodup_map ht.once hmem hother rfl
  cases heq

theorem OpInv.reported (h : OpInv maxTime True s) : Reported s := by
  unfold Reported
  split
  · rename_i hui
    exact h.ok hui
  · rename_i hui
    obtain ⟨sent, ht, hok⟩ := h
    rw [stop_of_ui hui nofun] at hok
    exact fun hash hmem => (hok trivial hash (ht.applied _ hmem)).unapplied hmem
  · trivial

/-- A step against the condition, and what the chain can make of it. -/
theorem unreported_of_not_conclusive {act : Act}
    (h : next lib signer maxTime s act = some s') (hnot : ¬ Conclusive lib maxTime s act) :
    ∃ s'', Lts.Steps (step lib signer maxTime) s' s'' ∧ ¬ Reported s'' := by
  cases act with
  | reply x =>
      simp only [Conclusive, not_forall] at hnot
      obtain ⟨tx, htx, hnot⟩ := hnot
      obtain ⟨hchain, hreplied⟩ := replied_of_onReply htx h
      rcases not_and_or.mp hnot with hlie | hgone
      · -- `SUCCESS` of a transaction that was not applied so
        obtain ⟨hanswer, hmem⟩ := Classical.not_imp.mp hlie
        obtain ⟨op, label, note, ledger, proveMs, hstop⟩ := hreplied.of_success hanswer
        refine ⟨s', .refl, fun hrep => ?_⟩
        simp only [Reported, OpState.ui, hstop, hchain.applied] at hrep
        exact hmem (List.count_pos_iff.mp (by omega))
      · -- the operation has failed, and its transaction is not over
        obtain ⟨hends, hover⟩ := Classical.not_imp.mp hgone
        obtain ⟨op, label, message, hstop⟩ := hreplied.of_failed hends
        have hlater : ∀ t : OpState, t.stop = s'.stop → (tx.txHashHex, true) ∈ t.applied →
            ¬ Reported t := by
          intro t ht hmem hrep
          simp only [Reported, OpState.ui, ht, hstop] at hrep
          exact hrep _ hmem
        by_cases hmem : (tx.txHashHex, true) ∈ s.applied
        · exact ⟨s', .refl, hlater s' rfl (hchain.applied.symm ▸ hmem)⟩
        · have hopen : tx.txHashHex ∈ s.copies ∧ (tx.txHashHex, false) ∉ s.applied ∧
              s.ledgerTime ≤ maxTime tx.txHashHex := by
            by_contra hclosed
            refine hover ⟨hmem, ?_⟩
            by_contra hfinal
            simp only [not_or, not_not, not_lt] at hfinal
            exact hclosed hfinal
          obtain ⟨hcopy, hunfailed, hintime⟩ := hopen
          have hnew : tx.txHashHex ∉ s'.applied.map Prod.fst := by
            rw [hchain.applied]
            intro hin
            obtain ⟨⟨hash, success⟩, hp, rfl⟩ := List.mem_map.mp hin
            cases success with
            | true => exact hmem hp
            | false => exact hunfailed hp
          have happly : next lib signer maxTime s' (.apply tx.txHashHex true)
              = some { s' with applied := s'.applied ++ [(tx.txHashHex, true)] } :=
            if_pos ⟨hchain.copies ▸ hcopy, hnew, hchain.ledgerTime ▸ hintime⟩
          have hsteps : Lts.Steps (step lib signer maxTime) s' s' := .refl
          exact ⟨_, hsteps.next (.apply tx.txHashHex true) trivial happly,
            hlater _ rfl (List.mem_append_right _ (List.mem_singleton_self _))⟩
  | _ => exact absurd trivial hnot

/-- In runs whose steps are conclusive every state reports the truth. -/
theorem OpInv.step_of_conclusive {act : Act} (hinv : OpInv maxTime True s)
    (hC : Conclusive lib maxTime s act) (h : next lib signer maxTime s act = some s') :
    OpInv maxTime True s' := by
  refine next_inv hinv h ?_
  rintro x tx rfl htx
  exact (hC tx htx).imp_right fun hfailed _ => hfailed

/-- **`Ok` is true whenever the RPC is**, whatever gets lost. -/
theorem ok_reported
    (h : Lts.Reach Tapped (Lts.During (Truthful lib) (step lib signer maxTime)) s)
    {op label hash note : String} {ledger : Option Int} {proveMs : Int}
    (hui : s.ui = .ok op label ledger (some hash) proveMs note) :
    s.applied.count (hash, true) = 1 ∧ (hash, false) ∉ s.applied := by
  have hinv : OpInv maxTime False s := by
    refine h.invariant (fun _ => tapped_inv) ?_
    rintro s act t - hinv ⟨hC, -, hnext⟩
    refine next_inv hinv hnext ?_
    rintro x tx rfl htx
    exact ⟨(hC tx htx).1, False.elim⟩
  exact hinv.ok hui

end Runs

/-! ## A contribution that is reported failed -/

def plainSigner : Signer where
  sha256 := fun _ => List.replicate 32 0xab
  rawPublicKey := Vector.replicate 32 0
  signOneShot := fun _ => List.replicate 64 1
  signOneShot_length := fun _ => List.length_replicate

/-- The envelope `AAAAAgECAwQAAAAA`, signed. -/
def plainTx : SignedTx where
  signedXdrBase64 := String.ofList (Base64.encode ([0, 0, 0, 2, 1, 2, 3, 4] ++ [0, 0, 0, 1]
    ++ [0, 0, 0, 0] ++ [0, 0, 0, 0x40] ++ List.replicate 64 1))
  txHashHex := "abababababababababababababababababababababababababababababababab"

theorem plainTx_signed :
    signEnvelope plainSigner "AAAAAgECAwQAAAAA" OpState.passphrase = .ok plainTx := by
  decide +kernel

/-- What the WebView answers. -/
def plainPrep : Json :=
  .obj
    [ ("unsignedXdrBase64", .str "AAAAAgECAwQAAAAA"), ("feeStroops", .str "92581"),
      ("proveMs", .num "14418"), ("witnessMs", .num "120") ]

/-- An answer of the RPC with this status. -/
def statusReply (status : String) : Exchange :=
  .answered 200 "" (.ok (.obj [("result", .obj [("status", .str status)])]))

/-- A contribution of 5 XLM whose envelope has been sent once. -/
def contributing (stop : Stop) (now ledgerTime : Int) (applied : List (String × Bool)) : OpState :=
  { op := .transferToGoal 50000000
    startedAt := 0
    stop := stop
    now := now
    copies := [plainTx.txHashHex]
    applied := applied
    ledgerTime := ledgerTime }

/-- The steps of this operation, its envelope built at 0. -/
def plainStep : OpState → Act → OpState → Prop :=
  step plainJson plainSigner fun _ => 180

theorem next_prepared :
    next plainJson plainSigner (fun _ => 180) (tapped (.transferToGoal 50000000) 0 0 0)
      (.prepared 0 (.ok plainPrep)) = some (contributing (.send plainTx plainPrep 1) 0 0 []) := by
  have hxdr : plainJson.optString plainPrep "unsignedXdrBase64" = "AAAAAgECAwQAAAAA" := rfl
  show some (OpState.signAndSubmit plainJson plainSigner _ plainPrep) = _
  simp only [OpState.signAndSubmit, hxdr, plainTx_signed]
  rfl

/-- The first request of the poll, 7 s after the tap. -/
theorem reach_polling {C : OpState → Act → Prop} (hquiet : ∀ s act, (∀ x, act ≠ .reply x) → C s act)
    (hpending : C (contributing (.send plainTx plainPrep 1) 5000 0 [])
      (.reply (statusReply "PENDING"))) :
    Lts.Reach Tapped (Lts.During C plainStep)
      (contributing (.get plainTx plainPrep 125000 1) 7000 0 []) := by
  have htapped : Lts.Reach Tapped (Lts.During C plainStep)
      (tapped (.transferToGoal 50000000) 0 0 0) := .init ⟨_, _, _, _, rfl⟩
  have hbuilt : Built plainJson plainSigner (fun _ => 180)
      (tapped (.transferToGoal 50000000) 0 0 0) (.prepared 0 (.ok plainPrep)) :=
    ⟨le_rfl, fun _ _ => rfl⟩
  exact htapped
    |>.next_during (.prepared 0 (.ok plainPrep)) (hquiet _ _ nofun) hbuilt next_prepared
    |>.next_during (.tick 5000) (hquiet _ _ nofun) trivial rfl
    |>.next_during (.reply (statusReply "PENDING")) hpending trivial rfl
    |>.next_during (.tick 2000) (hquiet _ _ nofun) trivial rfl
    |>.next_during .wake (hquiet _ _ nofun) trivial rfl

theorem answers_statusReply {s : OpState} {status asked : String}
    (h : Answers plainJson s (statusReply status) asked) : status = asked := by
  unfold Answers at h
  split at h
  · obtain ⟨res, hres, hstatus⟩ := h
    cases hres
    exact hstatus
  · exact h.elim

/-- An answer that says nothing is no lie. -/
theorem truthful_statusReply (s : OpState) {status : String} (hok : status ≠ "SUCCESS")
    (hfailed : status ≠ "FAILED") : Truthful plainJson s (.reply (statusReply status)) :=
  fun _ _ => ⟨fun h => absurd (answers_statusReply h) hok,
    fun h => absurd (answers_statusReply h) hfailed⟩

theorem truthful_quiet (s : OpState) (act : Act) (h : ∀ x, act ≠ .reply x) :
    Truthful plainJson s act := by
  cases act with
  | reply x => exact absurd rfl (h x)
  | _ => trivial

/-- The card of a poll that ran into its deadline. -/
def timedOut : OpUiState :=
  .failed "confidential_transfer" "Aportando a la meta"
    ("tx " ++ plainTx.txHashHex ++ " not confirmed within 120000 ms")

/-- The poll ends 127 s after the tap, having read `NOT_FOUND` twice. -/
theorem reach_timedOut :
    Lts.Reach Tapped (Lts.During (Truthful plainJson) plainStep)
      (contributing (.ended timedOut) 127000 0 []) := by
  have hnotFound : ∀ s, Truthful plainJson s (.reply (statusReply "NOT_FOUND")) :=
    fun s => truthful_statusReply s (by decide) (by decide)
  exact (reach_polling truthful_quiet (truthful_statusReply _ (by decide) (by decide)))
    |>.next_during (.tick 59000) trivial trivial rfl
    |>.next_during (.reply (statusReply "NOT_FOUND")) (hnotFound _) trivial rfl
    |>.next_during (.tick 2000) trivial trivial rfl
    |>.next_during .wake trivial trivial rfl
    |>.next_during (.tick 59000) trivial trivial rfl
    |>.next_during (.reply (statusReply "NOT_FOUND")) (hnotFound _) trivial rfl

/-- **Failed, and then applied.** The RPC answers `NOT_FOUND` as long as
that is so, and the poll ends; the ledger applies the contribution at
170 s, within its 180, and the card says that it failed. -/
theorem failed_then_applied :
    ∃ s s', Lts.Reach Tapped (Lts.During (Truthful plainJson) plainStep) s ∧
      Lts.Steps (Lts.During (Truthful plainJson) plainStep) s s' ∧
      s.ui = timedOut ∧ s'.ui = timedOut ∧ s'.applied = [(plainTx.txHashHex, true)] ∧
      s'.ledgerTime = 170 ∧ ¬ Reported s' := by
  have hhere : Lts.Steps (Lts.During (Truthful plainJson) plainStep)
      (contributing (.ended timedOut) 127000 0 []) (contributing (.ended timedOut) 127000 0 []) :=
    .refl
  have hlater : Lts.Steps (Lts.During (Truthful plainJson) plainStep)
      (contributing (.ended timedOut) 127000 0 [])
      (contributing (.ended timedOut) 127000 170 [(plainTx.txHashHex, true)]) := hhere
    |>.next_during (.close 170) trivial trivial rfl
    |>.next_during (.apply plainTx.txHashHex true) trivial trivial rfl
  refine ⟨_, _, reach_timedOut, hlater, rfl, rfl, rfl, rfl, fun hreported => ?_⟩
  exact hreported plainTx.txHashHex (List.mem_singleton_self _)

end WalletOp

end RaizStack
