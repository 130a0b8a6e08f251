import RaizStack.WalletOutcome

/-!
# The exits without a verdict

`Conclusive` speaks of the step that ends the operation. Here the same is
said by an observer, who knows the exchanges, the clock and the copies
that left the phone, and not where the operation stands: how often an
attempt was lost in a row, when the envelope was built and when the RPC
took it. The exits are then the source's own constants - four attempts,
120 s from the accepted send - and what they ask of network and chain is
that the envelope, valid for 180 s, has come to its end by then
(`Settled`).
-/

namespace RaizStack

namespace WalletOp

/-! ## What the phone hears -/

inductive Heard where
  | lost
  | error
  | result (res : Json)

/-- An exchange that broke off, an HTTP error and a text that is no JSON
are attempts without an answer. -/
def heard : Exchange → Heard
  | .failed _ _ => .lost
  | .answered code _ json =>
      if 200 ≤ code ∧ code ≤ 299 then
        match json with
        | .error _ => .lost
        | .ok json =>
            match optJSONObject json "error", optJSONObject json "result" with
            | none, some res => .result res
            | _, _ => .error
      else .lost

/-- What the observer has noted of the envelope: its hash, when it was
built, when it was accepted, and the attempts lost since the last answer. -/
inductive Watch where
  | idle
  | sending (hash : String) (builtAt : Int) (lost : Nat)
  | polling (hash : String) (builtAt since : Int) (lost : Nat)

/-- The hash of the envelope that is out, and when it was built. -/
def Watch.envelope : Watch → Option (String × Int)
  | .idle => none
  | .sending hash builtAt _ | .polling hash builtAt _ _ => some (hash, builtAt)

def Watch.see (s : OpState) (act : Act) (s' : OpState) (w : Watch) : Watch :=
  match act, w with
  | .prepared builtAt _, .idle =>
      match s'.copies with
      | hash :: _ => .sending hash builtAt 0
      | [] => .idle
  | .reply x, .sending hash builtAt lost =>
      match heard x with
      | .lost => .sending hash builtAt (lost + 1)
      | .error => .sending hash builtAt 0
      | .result _ => .polling hash builtAt s.now 0
  | .reply x, .polling hash builtAt since lost =>
      match heard x with
      | .lost => .polling hash builtAt since (lost + 1)
      | _ => .polling hash builtAt since 0
  | _, w => w

section Conditions

variable (lib : OrgJson)

/-- The exits without a verdict: the fourth attempt in a row is lost, the
RPC answers with an error or does not take the envelope, and 120 s after
it did there is no verdict yet. -/
inductive NoVerdict (now : Int) : Watch → Exchange → Prop
  | sendLost {hash : String} {builtAt : Int} {lost : Nat} {x : Exchange}
      (hx : heard x = .lost) (hfourth : 3 ≤ lost) : NoVerdict now (.sending hash builtAt lost) x
  | sendError {hash : String} {builtAt : Int} {lost : Nat} {x : Exchange}
      (hx : heard x = .error) : NoVerdict now (.sending hash builtAt lost) x
  | turnedDown {hash : String} {builtAt : Int} {lost : Nat} {x : Exchange} {res : Json}
      (hx : heard x = .result res) (hpending : lib.optString res "status" ≠ "PENDING")
      (hduplicate : lib.optString res "status" ≠ "DUPLICATE") :
      NoVerdict now (.sending hash builtAt lost) x
  | getLost {hash : String} {builtAt since : Int} {lost : Nat} {x : Exchange}
      (hx : heard x = .lost) (hfourth : 3 ≤ lost) :
      NoVerdict now (.polling hash builtAt since lost) x
  | getError {hash : String} {builtAt since : Int} {lost : Nat} {x : Exchange}
      (hx : heard x = .error) : NoVerdict now (.polling hash builtAt since lost) x
  | timeout {hash : String} {builtAt since : Int} {lost : Nat} {x : Exchange} {res : Json}
      (hx : heard x = .result res) (hsuccess : lib.optString res "status" ≠ "SUCCESS")
      (hfailed : lib.optString res "status" ≠ "FAILED") (hlate : since + 120000 ≤ now) :
      NoVerdict now (.polling hash builtAt since lost) x

/-- A poll is answered with this verdict. -/
inductive Verdict (status : String) : Watch → Exchange → Prop
  | answered {hash : String} {builtAt since : Int} {lost : Nat} {x : Exchange} {res : Json}
      (hx : heard x = .result res) (hstatus : lib.optString res "status" = status) :
      Verdict status (.polling hash builtAt since lost) x

/-- The envelope built at `builtAt` has come to its end without success:
applied and failed, or not applied and lost with all its copies, or not
applied while a ledger closed past its 180 s. -/
inductive Settled (s : OpState) (hash : String) (builtAt : Int) : Prop
  | failed (h : (hash, false) ∈ s.applied)
  | dropped (hnew : hash ∉ s.applied.map Prod.fst) (h : hash ∉ s.copies)
  | expired (hnew : hash ∉ s.applied.map Prod.fst) (h : builtAt / 1000 + 180 < s.ledgerTime)

/-- **The condition on a step.** At an exit without a verdict the envelope
is settled, and the verdicts are true of it. -/
structure SettlesAt (p : OpState × Watch) (x : Exchange) (hash : String) (builtAt : Int) :
    Prop where
  exits : NoVerdict lib p.1.now p.2 x → Settled p.1 hash builtAt
  failed : Verdict lib "FAILED" p.2 x → Settled p.1 hash builtAt
  success : Verdict lib "SUCCESS" p.2 x → (hash, true) ∈ p.1.applied

def Settles (p : OpState × Watch) : Act → Prop
  | .reply x => ∀ hash builtAt, p.2.envelope = some (hash, builtAt) → SettlesAt lib p x hash builtAt
  | _ => True

/-- The operation and its observer. -/
def watched (signer : Signer) (maxTime : String → Int) :
    OpState × Watch → Act → OpState × Watch → Prop :=
  Lts.observed Watch.see (step lib signer maxTime)

def WatchedTapped (p : OpState × Watch) : Prop :=
  Tapped p.1 ∧ p.2 = .idle

end Conditions

/-! ## Calls as they are heard -/

section Calls

variable (lib : OrgJson) (method : String) {x : Exchange}

theorem rpcCall_of_lost (h : heard x = .lost) :
    ∃ message simpleName, rpcCall lib method x = .error (.other message simpleName) := by
  cases x with
  | failed message simpleName => exact ⟨message, simpleName, rfl⟩
  | answered code text json =>
      unfold heard at h
      by_cases hcode : 200 ≤ code ∧ code ≤ 299
      · cases json with
        | error message =>
            refine ⟨some message, "JSONException", ?_⟩
            simp only [rpcCall, hcode, not_true_eq_false, if_false, and_self]
        | ok json =>
            simp only [if_pos hcode] at h
            split at h <;> cases h
      · exact ⟨_, _, if_pos hcode⟩

theorem rpcCall_of_error (h : heard x = .error) :
    ∃ message, rpcCall lib method x = .error (.rpcException message) := by
  cases x with
  | failed message simpleName => cases h
  | answered code text json =>
      unfold heard at h
      by_cases hcode : 200 ≤ code ∧ code ≤ 299
      · cases json with
        | error message =>
            simp only [if_pos hcode] at h
            cases h
        | ok json =>
            simp only [if_pos hcode] at h
            simp only [rpcCall, hcode, not_true_eq_false, if_false, and_self]
            cases herr : optJSONObject json "error" with
            | some e => exact ⟨_, rfl⟩
            | none =>
                cases hres : optJSONObject json "result" with
                | some res =>
                    rw [herr, hres] at h
                    cases h
                | none => exact ⟨_, rfl⟩
      · simp only [if_neg hcode] at h
        cases h

theorem rpcCall_of_result {res : Json} (h : heard x = .result res) :
    rpcCall lib method x = .ok res := by
  cases x with
  | failed message simpleName => cases h
  | answered code text json =>
      unfold heard at h
      by_cases hcode : 200 ≤ code ∧ code ≤ 299
      · cases json with
        | error message =>
            simp only [if_pos hcode] at h
            cases h
        | ok json =>
            simp only [if_pos hcode] at h
            split at h
            · rename_i herr hres
              cases h
              simp only [rpcCall, hcode, not_true_eq_false, if_false, and_self, herr, hres]
            · cases h
      · simp only [if_neg hcode] at h
        cases h

end Calls

/-! ## The observer keeps up -/

/-- What the observer has noted is where the operation stands. -/
inductive Watches (maxTime : String → Int) : Stop → Watch → Prop
  | unsent {stop : Stop} (h : stop.envelope = none) : Watches maxTime stop .idle
  | sending (tx : SignedTx) (prep : Json) (builtAt : Int) (lost : Nat)
      (hbound : maxTime tx.txHashHex = builtAt / 1000 + 180) :
      Watches maxTime (.send tx prep (lost + 1)) (.sending tx.txHashHex builtAt lost)
  | polling (tx : SignedTx) (prep : Json) (builtAt since : Int) (lost : Nat)
      (hbound : maxTime tx.txHashHex = builtAt / 1000 + 180) :
      Watches maxTime (.get tx prep (since + 120000) (lost + 1))
        (.polling tx.txHashHex builtAt since lost)
  | sleep {wakeAt : Int} {next : Stop} {w : Watch} (h : Watches maxTime next w) :
      Watches maxTime (.sleep wakeAt next) w
  | ended (ui : OpUiState) (w : Watch) : Watches maxTime (.ended ui) w

section Observer

variable {lib : OrgJson} {signer : Signer} {maxTime : String → Int} {s s' : OpState} {w : Watch}

theorem enter_stop (s : OpState) (stop : Stop) : (s.enter stop).stop = stop := by
  cases stop <;> rfl

/-- After a lost attempt the operation sleeps, or it is over. -/
theorem watches_retrying {label : String} {i : Nat} {again : Nat → Stop} (e : Thrown)
    (hagain : Watches maxTime (again (i + 1)) w) :
    Watches maxTime (s.retrying label i again e).stop w := by
  cases e with
  | rpcException message => exact .ended _ _
  | other m name =>
      by_cases hi : i < 4
      · rw [retrying_again hi]
        exact .sleep hagain
      · rw [retrying_last hi]
        exact .ended _ _

theorem watches_retrying_rpc {label message : String} {i : Nat} {again : Nat → Stop} :
    Watches maxTime (s.retrying label i again (.rpcException message)).stop w :=
  .ended _ _

theorem watches_poll {tx : SignedTx} {prep : Json} {builtAt since : Int}
    (hbound : maxTime tx.txHashHex = builtAt / 1000 + 180) :
    Watches maxTime (s.poll tx prep (since + 120000)).stop
      (.polling tx.txHashHex builtAt since 0) := by
  unfold OpState.poll
  split
  · exact .sleep (.polling tx prep builtAt since 0 hbound)
  · exact .ended _ _

theorem watches_send {tx : SignedTx} {prep : Json} {builtAt : Int} {lost : Nat} {x : Exchange}
    (hbound : maxTime tx.txHashHex = builtAt / 1000 + 180)
    (hstop : s.stop = .send tx prep (lost + 1)) (h : onReply lib s x = some s') :
    Watches maxTime s'.stop
      (Watch.see s (.reply x) s' (.sending tx.txHashHex builtAt lost)) := by
  rw [onReply, hstop] at h
  simp only [Watch.see]
  cases hx : heard x with
  | lost =>
      obtain ⟨m, name, hcall⟩ := rpcCall_of_lost lib "sendTransaction" hx
      simp only [hcall] at h
      obtain rfl := Option.some.inj h
      exact watches_retrying _ (.sending tx prep builtAt (lost + 1) hbound)
  | error =>
      obtain ⟨m, hcall⟩ := rpcCall_of_error lib "sendTransaction" hx
      simp only [hcall] at h
      obtain rfl := Option.some.inj h
      exact watches_retrying_rpc
  | result res =>
      have hcall := rpcCall_of_result lib "sendTransaction" hx
      simp only [hcall] at h
      obtain rfl := Option.some.inj h
      unfold OpState.sent
      split
      · exact watches_poll hbound
      · exact .ended _ _

theorem watches_get {tx : SignedTx} {prep : Json} {builtAt since : Int} {lost : Nat} {x : Exchange}
    (hbound : maxTime tx.txHashHex = builtAt / 1000 + 180)
    (hstop : s.stop = .get tx prep (since + 120000) (lost + 1)) (h : onReply lib s x = some s') :
    Watches maxTime s'.stop
      (Watch.see s (.reply x) s' (.polling tx.txHashHex builtAt since lost)) := by
  rw [onReply, hstop] at h
  simp only [Watch.see]
  cases hx : heard x with
  | lost =>
      obtain ⟨m, name, hcall⟩ := rpcCall_of_lost lib "getTransaction" hx
      simp only [hcall] at h
      obtain rfl := Option.some.inj h
      exact watches_retrying _ (.polling tx prep builtAt since (lost + 1) hbound)
  | error =>
      obtain ⟨m, hcall⟩ := rpcCall_of_error lib "getTransaction" hx
      simp only [hcall] at h
      obtain rfl := Option.some.inj h
      exact watches_retrying_rpc
  | result res =>
      have hcall := rpcCall_of_result lib "getTransaction" hx
      simp only [hcall] at h
      obtain rfl := Option.some.inj h
      unfold OpState.polled
      split
      · exact .ended _ _
      · split
        · exact .ended _ _
        · exact watches_poll hbound

/-- While nothing was sent there is nothing to note. -/
theorem watches_friendbot {i : Nat} {x : Exchange} (hstop : s.stop = .friendbot i)
    (h : onReply lib s x = some s') : Watches maxTime s'.stop .idle := by
  rw [onReply, hstop] at h
  cases hcall : friendbotFund x with
  | ok u =>
      simp only [hcall] at h
      obtain rfl := Option.some.inj h
      exact .unsent rfl
  | error e =>
      simp only [hcall] at h
      obtain rfl := Option.some.inj h
      exact watches_retrying e (.unsent rfl)

theorem watches_prepared {builtAt : Int} {prep : Json}
    (hbuilt : Built lib signer maxTime s (.prepared builtAt (.ok prep))) :
    Watches maxTime (s.signAndSubmit lib signer prep).stop
      (Watch.see s (.prepared builtAt (.ok prep)) (s.signAndSubmit lib signer prep) .idle) := by
  unfold OpState.signAndSubmit
  dsimp only
  split
  · exact .ended _ _
  · split
    · exact .ended _ _
    · split
      · exact .ended _ _
      · rename_i tx hsign
        exact .sending tx prep builtAt 0 (hbuilt.2 tx hsign)

/-- **The observer's step.** -/
theorem Watches.step {act : Act} (h : Watches maxTime s.stop w)
    (hstep : WalletOp.step lib signer maxTime s act s') :
    Watches maxTime s'.stop (w.see s act s') := by
  obtain ⟨hbuilt, hnext⟩ := hstep
  have hidle : ∀ {stop}, Watches maxTime stop w → (∃ i, stop = .friendbot i) ∨ stop = .prepare →
      w = .idle := by
    rintro stop hw (⟨i, rfl⟩ | rfl) <;> cases hw <;> rfl
  cases act with
  | tick ms =>
      obtain rfl := Option.some.inj hnext
      cases w <;> exact h
  | close time =>
      simp only [next] at hnext
      split at hnext
      · obtain rfl := Option.some.inj hnext
        cases w <;> exact h
      · cases hnext
  | lose hash =>
      simp only [next] at hnext
      split at hnext
      · obtain rfl := Option.some.inj hnext
        cases w <;> exact h
      · cases hnext
  | apply hash success =>
      simp only [next] at hnext
      split at hnext
      · obtain rfl := Option.some.inj hnext
        cases w <;> exact h
      · cases hnext
  | reply x =>
      rcases awaited_of_onReply hnext with
        ⟨i, hstop⟩ | ⟨tx, prep, ⟨i, hstop⟩ | ⟨deadline, i, hstop⟩⟩
      · rw [hstop] at h
        obtain rfl := hidle h (.inl ⟨i, rfl⟩)
        exact watches_friendbot hstop hnext
      · rw [hstop] at h
        cases h with
        | unsent hnone => cases hnone
        | sending _ _ builtAt lost hbound => exact watches_send hbound hstop hnext
      · rw [hstop] at h
        cases h with
        | unsent hnone => cases hnone
        | polling _ _ builtAt since lost hbound => exact watches_get hbound hstop hnext
  | prepared builtAt r =>
      simp only [next] at hnext
      split at hnext
      · rename_i hstop
        rw [hstop] at h
        obtain rfl := hidle h (.inr rfl)
        split at hnext
        · obtain rfl := Option.some.inj hnext
          exact watches_prepared hbuilt
        · obtain rfl := Option.some.inj hnext
          exact .ended _ _
      · cases hnext
  | wake =>
      simp only [next] at hnext
      split at hnext
      · rename_i wakeAt stop hstop
        split at hnext
        · obtain rfl := Option.some.inj hnext
          rw [hstop] at h
          have hsee : w.see s .wake (s.enter stop) = w := by
            cases w <;> rfl
          rw [hsee, enter_stop]
          cases h with
          | unsent hnone => exact .unsent hnone
          | sleep h => exact h
        · cases hnext
      · cases hnext

/-! ## The two conditions are one -/

theorem Settled.over {hash : String} {builtAt : Int} (h : Settled s hash builtAt)
    (honce : (s.applied.map Prod.fst).Nodup) (hbound : maxTime hash = builtAt / 1000 + 180) :
    Over maxTime s hash := by
  cases h with
  | failed hfailed =>
      refine ⟨fun hmem => ?_, .inr (.inl hfailed)⟩
      cases List.inj_on_of_nodup_map honce hmem hfailed rfl
  | dropped hnew hcopies => exact ⟨fun hmem => hnew (List.mem_map_of_mem hmem), .inl hcopies⟩
  | expired hnew hpast =>
      exact ⟨fun hmem => hnew (List.mem_map_of_mem hmem), .inr (.inr (hbound ▸ hpast))⟩

theorem Over.settled {hash : String} {builtAt : Int} (h : Over maxTime s hash)
    (hbound : maxTime hash = builtAt / 1000 + 180) : Settled s hash builtAt := by
  by_cases hfailed : (hash, false) ∈ s.applied
  · exact .failed hfailed
  have hnew : hash ∉ s.applied.map Prod.fst := by
    intro hmem
    obtain ⟨⟨hash, success⟩, hp, rfl⟩ := List.mem_map.mp hmem
    cases success with
    | true => exact h.unapplied hp
    | false => exact hfailed hp
  rcases h.final with hcopies | hmem | hpast
  · exact .dropped hnew hcopies
  · exact absurd hmem hfailed
  · exact .expired hnew (hbound ▸ hpast)

/-- The exits of an envelope that is being sent are the code's. -/
theorem noVerdict_send {tx : SignedTx} {prep : Json} {builtAt : Int} {lost : Nat} {x : Exchange}
    (hstop : s.stop = .send tx prep (lost + 1)) :
    NoVerdict lib s.now (.sending tx.txHashHex builtAt lost) x ↔ EndsFailed lib s x := by
  have hends : EndsFailed lib s x ↔ GivesUp lib "sendTransaction" (lost + 1) x ∨
      ∃ res, rpcCall lib "sendTransaction" x = .ok res ∧ accepted lib res = false := by
    rw [EndsFailed, hstop]
  rw [hends, GivesUp]
  cases hx : heard x with
  | lost =>
      obtain ⟨m, name, hcall⟩ := rpcCall_of_lost lib "sendTransaction" hx
      simp only [hcall, reduceCtorEq, false_and, exists_false, or_false]
      constructor
      · intro h
        cases h with
        | sendLost _ hfourth => omega
        | sendError herr => cases hx.symm.trans herr
        | turnedDown hres => cases hx.symm.trans hres
      · exact fun h => .sendLost hx (by omega)
  | error =>
      obtain ⟨m, hcall⟩ := rpcCall_of_error lib "sendTransaction" hx
      simp only [hcall, true_or, iff_true]
      exact .sendError hx
  | result res =>
      have hcall := rpcCall_of_result lib "sendTransaction" hx
      simp only [hcall, false_or, Except.ok.injEq, exists_eq_left', accepted, Bool.or_eq_false_iff,
        beq_eq_false_iff_ne]
      constructor
      · intro h
        cases h with
        | sendLost hlost => cases hx.symm.trans hlost
        | sendError herr => cases hx.symm.trans herr
        | turnedDown hres hpending hduplicate =>
            cases hx.symm.trans hres
            exact ⟨hpending, hduplicate⟩
      · exact fun h => .turnedDown hx h.1 h.2

/-- So are those of an envelope that was accepted, `FAILED` among them. -/
theorem noVerdict_get {tx : SignedTx} {prep : Json} {builtAt since : Int} {lost : Nat}
    {x : Exchange} (hstop : s.stop = .get tx prep (since + 120000) (lost + 1)) :
    NoVerdict lib s.now (.polling tx.txHashHex builtAt since lost) x ∨
      Verdict lib "FAILED" (.polling tx.txHashHex builtAt since lost) x ↔ EndsFailed lib s x := by
  have hends : EndsFailed lib s x ↔ GivesUp lib "getTransaction" (lost + 1) x ∨
      ∃ res, rpcCall lib "getTransaction" x = .ok res ∧ lib.optString res "status" ≠ "SUCCESS" ∧
        (lib.optString res "status" = "FAILED" ∨ ¬ s.now < since + 120000) := by
    rw [EndsFailed, hstop]
  rw [hends, GivesUp]
  cases hx : heard x with
  | lost =>
      obtain ⟨m, name, hcall⟩ := rpcCall_of_lost lib "getTransaction" hx
      simp only [hcall, reduceCtorEq, false_and, exists_false, or_false]
      constructor
      · rintro (h | ⟨hres, -⟩)
        · cases h with
          | getLost _ hfourth => omega
          | getError herr => cases hx.symm.trans herr
          | timeout hres => cases hx.symm.trans hres
        · cases hx.symm.trans hres
      · exact fun h => .inl (.getLost hx (by omega))
  | error =>
      obtain ⟨m, hcall⟩ := rpcCall_of_error lib "getTransaction" hx
      simp only [hcall, true_or, iff_true]
      exact .inl (.getError hx)
  | result res =>
      have hcall := rpcCall_of_result lib "getTransaction" hx
      simp only [hcall, false_or, Except.ok.injEq, exists_eq_left', not_lt]
      constructor
      · rintro (h | ⟨hres, hstatus⟩)
        · cases h with
          | getLost hlost => cases hx.symm.trans hlost
          | getError herr => cases hx.symm.trans herr
          | timeout hres hsuccess hfailed hlate =>
              cases hx.symm.trans hres
              exact ⟨hsuccess, .inr hlate⟩
        · cases hx.symm.trans hres
          exact ⟨hstatus ▸ by decide, .inl hstatus⟩
      · rintro ⟨hsuccess, hend⟩
        by_cases hfailed : lib.optString res "status" = "FAILED"
        · exact .inr ⟨hx, hfailed⟩
        · exact .inl (.timeout hx hsuccess hfailed (hend.resolve_left hfailed))

theorem verdict_get {tx : SignedTx} {prep : Json} {deadline builtAt since : Int} {i lost : Nat}
    {x : Exchange} {status : String} (hstop : s.stop = .get tx prep deadline i) :
    Verdict lib status (.polling tx.txHashHex builtAt since lost) x ↔ Answers lib s x status := by
  rw [Answers, hstop]
  constructor
  · rintro ⟨hres, hstatus⟩
    exact ⟨_, rpcCall_of_result lib "getTransaction" hres, hstatus⟩
  · rintro ⟨res, hcall, hstatus⟩
    cases hx : heard x with
    | lost =>
        obtain ⟨m, name, herr⟩ := rpcCall_of_lost lib "getTransaction" hx
        cases hcall.symm.trans herr
    | error =>
        obtain ⟨m, herr⟩ := rpcCall_of_error lib "getTransaction" hx
        cases hcall.symm.trans herr
    | result res' =>
        obtain rfl := Except.ok.inj (hcall.symm.trans (rpcCall_of_result lib "getTransaction" hx))
        exact ⟨hx, hstatus⟩

/-- At a step that is taken, the observer asks for what the stop does. -/
theorem Watches.conclusive {act : Act} (h : Watches maxTime s.stop w)
    (hnext : next lib signer maxTime s act = some s')
    (honce : (s.applied.map Prod.fst).Nodup) (hsettles : Settles lib (s, w) act) :
    Conclusive lib maxTime s act := by
  cases act with
  | reply x =>
      rcases awaited_of_onReply hnext with
        ⟨i, hstop⟩ | ⟨tx, prep, ⟨i, hstop⟩ | ⟨deadline, i, hstop⟩⟩
      · rintro tx htx
        rw [hstop] at htx
        cases htx
      · rintro tx' htx'
        rw [hstop] at h htx'
        obtain rfl := Option.some.inj htx'
        cases h with
        | unsent hnone => cases hnone
        | sending _ _ builtAt lost hbound =>
            have hat := hsettles tx.txHashHex builtAt rfl
            refine ⟨fun hanswer => ?_, fun hends => ?_⟩
            · rw [Answers, hstop] at hanswer
              exact hanswer.elim
            · exact (hat.exits ((noVerdict_send hstop).mpr hends)).over honce hbound
      · rintro tx' htx'
        rw [hstop] at h htx'
        obtain rfl := Option.some.inj htx'
        cases h with
        | unsent hnone => cases hnone
        | polling _ _ builtAt since lost hbound =>
            have hat := hsettles tx.txHashHex builtAt rfl
            refine ⟨fun hanswer => hat.success ((verdict_get hstop).mpr hanswer), fun hends => ?_⟩
            rcases (noVerdict_get hstop).mpr hends with hexit | hfailed
            · exact (hat.exits hexit).over honce hbound
            · exact (hat.failed hfailed).over honce hbound
  | _ => trivial

theorem Watches.settles {act : Act} (h : Watches maxTime s.stop w)
    (hnext : next lib signer maxTime s act = some s')
    (hconclusive : Conclusive lib maxTime s act) : Settles lib (s, w) act := by
  cases act with
  | reply x =>
      rintro hash builtAt henv
      rcases awaited_of_onReply hnext with
        ⟨i, hstop⟩ | ⟨tx, prep, ⟨i, hstop⟩ | ⟨deadline, i, hstop⟩⟩
      · rw [hstop] at h
        cases h
        cases henv
      · obtain ⟨-, hfails⟩ := hconclusive tx (by rw [hstop]; rfl)
        rw [hstop] at h
        cases h with
        | unsent hnone => cases hnone
        | sending _ _ builtAt' lost hbound =>
            cases henv
            exact
              { exits := fun hexit => (hfails ((noVerdict_send hstop).mp hexit)).settled hbound
                failed := nofun
                success := nofun }
      · obtain ⟨hanswers, hfails⟩ := hconclusive tx (by rw [hstop]; rfl)
        rw [hstop] at h
        cases h with
        | unsent hnone => cases hnone
        | polling _ _ builtAt' since lost hbound =>
            cases henv
            have hends := fun hend => (hfails hend).settled hbound
            have hget : NoVerdict lib s.now (.polling tx.txHashHex builtAt since lost) x ∨
                Verdict lib "FAILED" (.polling tx.txHashHex builtAt since lost) x ↔
                  EndsFailed lib s x := noVerdict_get hstop
            exact
              { exits := fun hexit => hends (hget.mp (.inl hexit))
                failed := fun hfailed => hends (hget.mp (.inr hfailed))
                success := fun hok => hanswers ((verdict_get hstop).mp hok) }
  | _ => trivial

end Observer

/-! ## Whole runs -/

theorem watches_of_tapped {maxTime : String → Int} {s : OpState} (h : Tapped s) :
    Watches maxTime s.stop .idle := by
  obtain ⟨op, startedAt, now, ledgerTime, rfl⟩ := h
  refine .unsent ?_
  unfold tapped
  dsimp only
  split <;> rfl

theorem watches_of_reach {lib : OrgJson} {signer : Signer} {maxTime : String → Int}
    {p : OpState × Watch} (h : Lts.Reach WatchedTapped (watched lib signer maxTime) p) :
    Watches maxTime p.1.stop p.2 := by
  refine h.invariant (I := fun p => Watches maxTime p.1.stop p.2) ?_ ?_
  · rintro ⟨s, w⟩ ⟨htapped, rfl⟩
    exact watches_of_tapped htapped
  · rintro ⟨s, w⟩ act ⟨s', w'⟩ - hw ⟨hstep, hsee⟩
    obtain rfl : w' = w.see s act s' := hsee
    exact hw.step hstep

/-- **What is reported, exactly.** In runs that leave no exit without a
verdict before the envelope is settled, every state reports the truth; a
step of a run that does otherwise has a continuation that does not. -/
theorem reported_exactly (lib : OrgJson) (signer : Signer) (maxTime : String → Int) :
    (∀ s w, Lts.Reach WatchedTapped (Lts.During (Settles lib) (watched lib signer maxTime)) (s, w) →
      Reported s) ∧
    ∀ p act p', Lts.Reach WatchedTapped (watched lib signer maxTime) p →
      watched lib signer maxTime p act p' → ¬ Settles lib p act →
        ∃ s'', Lts.Steps (step lib signer maxTime) p'.1 s'' ∧ ¬ Reported s'' := by
  constructor
  · intro s w h
    have hinv : OpInv maxTime True s := by
      refine h.invariant (I := fun p => OpInv maxTime True p.1) (fun p hp => tapped_inv hp.1) ?_
      rintro ⟨s, w⟩ act ⟨s', w'⟩ hreach hinv ⟨hsettles, ⟨hstep, -⟩⟩
      have hwatches := watches_of_reach hreach.of_during
      obtain ⟨sent, htracked, -⟩ := id hinv
      exact hinv.step_of_conclusive
        (hwatches.conclusive hstep.2 htracked.once hsettles) hstep.2
    exact hinv.reported
  · rintro ⟨s, w⟩ act ⟨s', w'⟩ hreach ⟨hstep, -⟩ hnot
    exact unreported_of_not_conclusive hstep.2
      (mt ((watches_of_reach hreach).settles hstep.2) hnot)

/-! ## A poll that gives up rightly -/

theorem heard_statusReply (status : String) :
    heard (statusReply status) = .result (.obj [("status", .str status)]) := rfl

theorem settles_pending (s : OpState) (hash : String) (builtAt : Int) (lost : Nat) :
    Settles plainJson (s, .sending hash builtAt lost) (.reply (statusReply "PENDING")) := by
  intro hash' builtAt' _
  refine ⟨fun hexit => ?_, nofun, nofun⟩
  cases hexit with
  | sendLost hx => cases hx
  | sendError hx => cases hx
  | turnedDown hx hpending =>
      cases (heard_statusReply _).symm.trans hx
      exact absurd rfl hpending

/-- Of an envelope whose copies are lost the phone may say what it likes,
short of `SUCCESS`. -/
theorem settles_notFound (s : OpState) (w : Watch) (happlied : s.applied = [])
    (hcopies : s.copies = []) :
    Settles plainJson (s, w) (.reply (statusReply "NOT_FOUND")) := by
  intro hash builtAt _
  have hsettled : Settled s hash builtAt :=
    .dropped (by simp [happlied]) (by simp [hcopies])
  refine ⟨fun _ => hsettled, fun _ => hsettled, ?_⟩
  rintro ⟨hx, hstatus⟩
  cases (heard_statusReply _).symm.trans hx
  exact absurd hstatus (by decide)

/-- The contribution again, its only copy lost: the poll gives up 120 s
after the envelope was accepted, and nothing is applied any more. -/
theorem reported_exactly_dropped :
    ∃ s w, Lts.Reach WatchedTapped (Lts.During (Settles plainJson)
        (watched plainJson plainSigner fun _ => 180)) (s, w) ∧
      w = .polling plainTx.txHashHex 0 5000 0 ∧ s.now = 125000 ∧ s.ui = timedOut ∧
      Reported s := by
  have htapped : Lts.Reach WatchedTapped (Lts.During (Settles plainJson)
      (watched plainJson plainSigner fun _ => 180))
      (tapped (.transferToGoal 50000000) 0 0 0, .idle) := .init ⟨⟨_, _, _, _, rfl⟩, rfl⟩
  have hreach := htapped
    |>.next_observed (.prepared 0 (.ok plainPrep)) trivial ⟨le_rfl, fun _ _ => rfl⟩ next_prepared
    |>.next_observed (.tick 5000) trivial trivial rfl
    |>.next_observed (.reply (statusReply "PENDING")) (settles_pending _ _ _ _) trivial rfl
    |>.next_observed (.lose plainTx.txHashHex) trivial trivial rfl
    |>.next_observed (.tick 2000) trivial trivial rfl
    |>.next_observed .wake trivial trivial rfl
    |>.next_observed (.tick 118000) trivial trivial rfl
    |>.next_observed (.reply (statusReply "NOT_FOUND")) (settles_notFound _ _ rfl rfl) trivial rfl
  exact ⟨_, _, hreach, rfl, rfl, rfl,
    (reported_exactly plainJson plainSigner fun _ => 180).1 _ _ hreach⟩

end WalletOp

end RaizStack
