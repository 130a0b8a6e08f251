import RaizStack.ShimComplete
import RaizStack.Text

/-!
# The same total outside the app

`verify-goal-total.mjs` replays the events a second time and stops at the
first check that fails, where the shim writes every check down and goes
on. Under a chain that does not change during the run the two agree: the
replay loops move in step (`replay_both`), the checks of the key are the
same two, and reading the commitments once more reads the same points.
-/

namespace RaizStack

variable {R P C : Type}

namespace VerifyGoalTotal

/-! ## The script -/

/-- What the command line and `config.json` say. -/
structure Args where
  token : String
  goal : String
  viewKey : Int
  fromLedger : Int
  goalMeta : String
  goalMetaId : Int
  auditor : String

/-- Stroops as XLM: seven decimals, the zeros at the end dropped. -/
def fmtXlm (stroops : Int) : String :=
  let digits := (toString (stroops.tmod 10000000)).toList
  let padded := List.replicate (7 - digits.length) '0' ++ digits
  let frac := (padded.reverse.dropWhile fun c => c = '0').reverse
  if frac = [] then toString (stroops.tdiv 10000000)
  else toString (stroops.tdiv 10000000) ++ "." ++ String.ofList frac

/-- `s.slice(0, 6)…s.slice(-4)`. -/
def short (s : String) : String :=
  String.ofList (Text.takeUnits 6 s.toList) ++ "…" ++ String.ofList (Text.lastUnits 4 s.toList)

/-- A call whose three attempts get the same answer. -/
def retry {α : Type} (label : String) (answer : Except String α) : Except String α :=
  answer.mapError fun e => label ++ " failed after 3 attempts: " ++ e

/-- The accumulators of the loop, and the lines it collects. -/
structure Openings (R : Type) where
  spendV : Int
  spendR : R
  recvV : Int
  recvR : R
  spendableProvable : Bool
  contributions : List String

/-- What the script is left with at its third step. -/
structure Report (R : Type) where
  openings : Openings R
  spendOk : Bool
  recvOk : Bool
  latestLedger : Int

namespace Report

def total (r : Report R) : Int := r.openings.spendV + r.openings.recvV

/-- The condition of `process.exit(1)`. -/
def failed (r : Report R) : Bool :=
  (r.openings.spendableProvable && !r.spendOk) || !r.recvOk

/-- The line with the total. -/
def totalLine (r : Report R) : String :=
  if r.openings.spendableProvable then
    "Goal total: " ++ fmtXlm r.total ++ " XLM — verified on-chain at ledger "
      ++ toString r.latestLedger
  else
    "Goal total: " ++ fmtXlm r.total ++ " XLM — decrypted via k1 (receiving commitment verified; "
      ++ "spendable value-only after outflow) at ledger " ++ toString r.latestLedger

/-- The lines on the spendable commitment. -/
def spendLines (r : Report R) : List String :=
  if r.openings.spendableProvable then
    [ "  commit(" ++ toString r.openings.spendV
        ++ ", Σr_tx) == on-chain spendable commitment   " ++ if r.spendOk then "OK" else "MISMATCH" ]
  else
    [ "  spendable commitment not point-verifiable after an outflow (owner-only randomness);",
      "  value still tracked via the k1 sender channel = " ++ fmtXlm r.openings.spendV ++ " XLM" ]

/-- What the script prints from the replay on. -/
def lines (r : Report R) : List String :=
  r.openings.contributions
    ++ ["\n[3] re-committing decrypted openings against on-chain Pedersen commitments"]
    ++ r.spendLines
    ++ [ "  commit(" ++ toString r.openings.recvV
          ++ ", Σr_tx) == on-chain receiving commitment   " ++ if r.recvOk then "OK" else "MISMATCH" ]
    ++ if r.failed then
        ["\nVERIFICATION FAILED: decrypted ledger does not match the on-chain commitments."]
      else ["", r.totalLine]

/-- The last word of a run is its verdict. -/
theorem getLast?_lines (r : Report R) :
    r.lines.getLast? = some (if r.failed then
      "\nVERIFICATION FAILED: decrypted ledger does not match the on-chain commitments."
    else r.totalLine) := by
  rw [lines, List.getLast?_append]
  cases r.failed with
  | true => rfl
  | false => rfl

end Report

section Script

variable [AddMonoid R] [Add P] (sdk : Sdk R P C)

def Openings.start : Openings R :=
  { spendV := 0, spendR := 0, recvV := 0, recvR := 0, spendableProvable := true,
    contributions := [] }

/-- The end of a line. -/
def inTx (info : EventAt) : String :=
  "  tx " ++ String.ofList (Text.takeUnits 8 info.txHash.toList) ++ "…"

/-- One event of the loop. -/
def replayStep (viewKey : Int) (goal : String) (o : Openings R) :
    ConfidentialEvent C → Except String (Openings R)
  | .deposit info sender recipient amount =>
      if recipient = goal then
        .ok { o with
          recvV := o.recvV + amount
          contributions := o.contributions ++
            ["  + ledger " ++ toString info.ledger ++ "  deposit  from " ++ short sender ++ "  "
              ++ fmtXlm amount ++ " XLM (public amount)" ++ inTx info] }
      else .ok o
  | .merge info account =>
      if account = goal then
        .ok { o with
          spendV := o.spendV + o.recvV
          spendR := o.spendR + o.recvR
          recvV := 0
          recvR := 0
          contributions := o.contributions ++
            ["  · ledger " ++ toString info.ledger
              ++ "  merge (cosecha): pending folded into spendable"] }
      else .ok o
  | .transfer info sender recipient data =>
      if recipient = goal then do
        let opened ← sdk.auditTransferRecipientChannel viewKey data
        .ok { o with
          recvV := o.recvV + opened.1
          recvR := o.recvR + opened.2
          contributions := o.contributions ++
            ["  + ledger " ++ toString info.ledger ++ "  aporte   from " ++ short sender ++ "  "
              ++ fmtXlm opened.1 ++ " XLM (decrypted via k1)" ++ inTx info] }
      else if sender = goal then do
        let snd ← sdk.auditTransferSenderChannel viewKey data
        .ok { o with
          spendV := snd.2
          spendableProvable := false
          contributions := o.contributions ++
            ["  - ledger " ++ toString info.ledger ++ "  outgoing transfer  " ++ fmtXlm snd.1
              ++ " XLM (decrypted via k1)" ++ inTx info] }
      else .ok o
  | .withdraw info sender _ amount data =>
      if sender = goal then do
        let senderBalance ← sdk.auditWithdraw viewKey data
        .ok { o with
          spendV := senderBalance
          spendableProvable := false
          contributions := o.contributions ++
            ["  - ledger " ++ toString info.ledger ++ "  withdraw  " ++ fmtXlm amount
              ++ " XLM (public amount)" ++ inTx info] }
      else .ok o
  | .register _ _ => .ok o

/-- The loop. -/
def replay (viewKey : Int) (goal : String) (events : List (ConfidentialEvent C)) :
    Except String (Openings R) :=
  events.foldlM (replayStep sdk viewKey goal) Openings.start

/-- The check against the goal record, if there is one to check. -/
def checkGoalMeta (s : Args) (a : TotalAnswers P C) : Except String Unit :=
  if s.goalMeta = "" then .ok ()
  else do
    let g ← retry "goal_meta.get_goal" a.getGoal
    let storedPoint ← sdk.pointFromBytes g.viewKey
    if g.goalAccount ≠ s.goal then
      .error ("goal_meta goal " ++ toString s.goalMetaId ++ " backs account " ++ g.goalAccount
        ++ ", not " ++ s.goal)
    else if samePoint sdk storedPoint (sdk.auditorPublicKey s.viewKey) then .ok ()
    else .error "published secret does NOT match the view-key point stored in goal_meta"

/-- The account, read once. -/
def readAccount (s : Args) (a : TotalAnswers P C) : Except String (AccountView P) := do
  match ← retry "confidential_balance(goal)" a.balance with
  | some account => .ok account
  | none => .error ("goal account " ++ s.goal ++ " is not registered on the CT wrapper")

/-- The check against the auditor registry. -/
def checkRegistry (s : Args) (a : TotalAnswers P C) (account : AccountView P) :
    Except String Unit := do
  let registryKey ← retry ("auditor_key(" ++ toString account.auditorId ++ ")")
    (a.auditorKey account.auditorId)
  if samePoint sdk registryKey (sdk.auditorPublicKey s.viewKey) then .ok ()
  else
    .error ("CT auditor registry key for auditor_id " ++ toString account.auditorId
      ++ " does not match k1·H")

def noEventsError (s : Args) : String :=
  "no events touching " ++ s.goal ++ " found from ledger " ++ toString s.fromLedger
    ++ " — outside this RPC's retention window? Raise --from-ledger, or use an RPC/archive node "
    ++ "that still holds that range."

/-- The comparison with the account that was read. -/
def report (o : Openings R) (account : AccountView P) (latestLedger : Int) : Report R :=
  { openings := o
    spendOk := o.spendableProvable &&
      samePoint sdk (sdk.commit o.spendV o.spendR) account.spendableBalance
    recvOk := samePoint sdk (sdk.commit o.recvV o.recvR) account.receivingBalance
    latestLedger := latestLedger }

/-- `main`. What it throws ends the process with status 1. -/
def main (s : Args) (a : TotalAnswers P C) : Except String (Report R) := do
  checkGoalMeta sdk s a
  let account ← readAccount s a
  checkRegistry sdk s a account
  let read ← retry "getEvents" a.events
  let o ← replay sdk s.viewKey s.goal read.events
  if o.contributions = [] then .error (noEventsError s)
  else do
    let latestLedger ← retry "latestLedger" a.latestLedger
    .ok (report sdk o account latestLedger)

end Script

/-! ## The loops in step -/

/-- Neither of two lists is empty after a push. -/
theorem push_nil_iff {α β : Type} (l : List α) (m : List β) (x : α) (y : β) :
    l ++ [x] = [] ↔ m ++ [y] = [] :=
  iff_of_false (List.append_ne_nil_of_right_ne_nil l (List.cons_ne_nil x []))
    (List.append_ne_nil_of_right_ne_nil m (List.cons_ne_nil y []))

/-- The two accumulators say the same, and have met the same number of
events or none. -/
structure InStep (o : Openings R) (st : Replay R) : Prop where
  spendV : o.spendV = st.spendV
  spendR : o.spendR = st.spendR
  recvV : o.recvV = st.recvV
  recvR : o.recvR = st.recvR
  provable : o.spendableProvable = st.spendableProvable
  touched : o.contributions = [] ↔ st.timeline = []

variable [AddMonoid R] [Add P] {sdk : Sdk R P C}

theorem inStep_start : InStep (Openings.start : Openings R) Replay.start where
  spendV := rfl
  spendR := rfl
  recvV := rfl
  recvR := rfl
  provable := rfl
  touched := ⟨fun _ => rfl, fun _ => rfl⟩

/-- One event moves both loops alike, or stops both. -/
theorem replayStep_both (k1 : Int) (goal : String) {o : Openings R} {st : Replay R}
    (h : InStep o st) (ev : ConfidentialEvent C) :
    Fallible.Both (ε := String) (δ := String) InStep (replayStep sdk k1 goal o ev)
      (RaizStack.replayStep sdk k1 goal st ev) := by
  obtain ⟨hsv, hsr, hrv, hrr, hp, ht⟩ := h
  cases ev with
  | register info account => exact .ok ⟨hsv, hsr, hrv, hrr, hp, ht⟩
  | deposit info sender recipient amount =>
      rw [replayStep, RaizStack.replayStep]
      by_cases hto : recipient = goal
      · rw [if_pos hto, if_pos hto]
        exact .ok ⟨hsv, hsr, congrArg (· + amount) hrv, hrr, hp, push_nil_iff _ _ _ _⟩
      · rw [if_neg hto, if_neg hto]
        exact .ok ⟨hsv, hsr, hrv, hrr, hp, ht⟩
  | merge info account =>
      rw [replayStep, RaizStack.replayStep]
      by_cases hacc : account = goal
      · rw [if_pos hacc, if_pos hacc]
        exact .ok ⟨congrArg₂ (· + ·) hsv hrv, congrArg₂ (· + ·) hsr hrr, rfl, rfl, hp,
          push_nil_iff _ _ _ _⟩
      · rw [if_neg hacc, if_neg hacc]
        exact .ok ⟨hsv, hsr, hrv, hrr, hp, ht⟩
  | transfer info sender recipient data =>
      rw [replayStep, RaizStack.replayStep]
      by_cases hto : recipient = goal
      · rw [if_pos hto, if_pos hto]
        refine (Fallible.Both.refl _).bind ?_
        rintro opened _ rfl
        exact .ok ⟨hsv, hsr, congrArg (· + opened.1) hrv, congrArg (· + opened.2) hrr, hp,
          push_nil_iff _ _ _ _⟩
      · rw [if_neg hto, if_neg hto]
        by_cases hfrom : sender = goal
        · rw [if_pos hfrom, if_pos hfrom]
          refine (Fallible.Both.refl _).bind ?_
          rintro snd _ rfl
          exact .ok ⟨rfl, hsr, hrv, hrr, rfl, push_nil_iff _ _ _ _⟩
        · rw [if_neg hfrom, if_neg hfrom]
          exact .ok ⟨hsv, hsr, hrv, hrr, hp, ht⟩
  | withdraw info sender recipient amount data =>
      rw [replayStep, RaizStack.replayStep]
      by_cases hfrom : sender = goal
      · rw [if_pos hfrom, if_pos hfrom]
        refine (Fallible.Both.refl _).bind ?_
        rintro senderBalance _ rfl
        exact .ok ⟨rfl, hsr, hrv, hrr, rfl, push_nil_iff _ _ _ _⟩
      · rw [if_neg hfrom, if_neg hfrom]
        exact .ok ⟨hsv, hsr, hrv, hrr, hp, ht⟩

theorem replay_both (k1 : Int) (goal : String) (events : List (ConfidentialEvent C)) :
    Fallible.Both InStep (replay sdk k1 goal events) (RaizStack.replay sdk k1 goal events) :=
  Fallible.Both.foldlM (fun _ _ ev h => replayStep_both k1 goal h ev) events inStep_start

/-! ## The checks of the key -/

/-- The parameters of the shim for the same goal. -/
def Args.params (s : Args) (eventsUrl eventsSource : Option String) : GoalTotalParams :=
  { tokenContractId := s.token
    goalAccount := s.goal
    viewKeySecret := s.viewKey
    fromLedger := some s.fromLedger
    auditorContractId := some s.auditor
    goalMetaContractId := some s.goalMeta
    goalMetaGoalId := some s.goalMetaId
    eventsUrl := eventsUrl
    eventsSource := eventsSource }

/-- Every parameter of the checks is given. -/
structure Args.AllGiven (s : Args) : Prop where
  goalMeta : s.goalMeta ≠ ""
  goalMetaId : 0 ≤ s.goalMetaId
  auditor : s.auditor ≠ ""
  fromLedger : 0 < s.fromLedger

/-- The goal record backs the account and publishes the point of the key. -/
def GoalMetaAgrees (sdk : Sdk R P C) (s : Args) (a : TotalAnswers P C) : Prop :=
  ∃ g, a.getGoal = .ok g ∧ sdk.pointFromBytes g.viewKey = .ok (sdk.auditorPublicKey s.viewKey) ∧
    g.goalAccount = s.goal

/-- The auditor registry serves the point of the key. -/
def RegistryAgrees (sdk : Sdk R P C) (s : Args) (a : TotalAnswers P C) (account : AccountView P) :
    Prop :=
  a.auditorKey account.auditorId = .ok (sdk.auditorPublicKey s.viewKey)

variable {s : Args} {a : TotalAnswers P C} {eventsUrl eventsSource : Option String}

theorem retry_eq_ok {α : Type} {label : String} {answer : Except String α} {x : α} :
    retry label answer = .ok x ↔ answer = .ok x :=
  Fallible.mapError_eq_ok

theorem checkGoalMeta_eq_ok (hgiven : s.goalMeta ≠ "") :
    checkGoalMeta sdk s a = .ok () ↔ GoalMetaAgrees sdk s a := by
  rw [checkGoalMeta, if_neg hgiven]
  constructor
  · intro h
    obtain ⟨g, hg, h⟩ := Fallible.bind_eq_ok.mp h
    obtain ⟨point, hpoint, h⟩ := Fallible.bind_eq_ok.mp h
    split at h
    · cases h
    · split at h
      · rename_i hacc hsame
        obtain rfl := samePoint_eq_true.mp hsame
        exact ⟨g, retry_eq_ok.mp hg, hpoint, not_not.mp hacc⟩
      · cases h
  · rintro ⟨g, hg, hpoint, hacc⟩
    rw [retry_eq_ok.mpr hg, Fallible.ok_bind, hpoint, Fallible.ok_bind, if_neg (not_not.mpr hacc),
      if_pos (samePoint_eq_true.mpr rfl)]

theorem checkRegistry_eq_ok {account : AccountView P} :
    checkRegistry sdk s a account = .ok () ↔ RegistryAgrees sdk s a account := by
  constructor
  · intro h
    obtain ⟨key, hkey, h⟩ := Fallible.bind_eq_ok.mp h
    split at h
    · rename_i hsame
      obtain rfl := samePoint_eq_true.mp hsame
      exact retry_eq_ok.mp hkey
    · cases h
  · intro h
    rw [checkRegistry, retry_eq_ok.mpr h, Fallible.ok_bind, if_pos (samePoint_eq_true.mpr rfl)]

omit [Add P] in
theorem readAccount_eq_ok {account : AccountView P} :
    readAccount s a = .ok account ↔ a.balance = .ok (some account) := by
  constructor
  · intro h
    obtain ⟨acc, hacc, h⟩ := Fallible.bind_eq_ok.mp h
    cases acc with
    | none => cases h
    | some acc =>
        cases h
        exact retry_eq_ok.mp hacc
  · intro h
    rw [readAccount, retry_eq_ok.mpr h]
    rfl

theorem nonEmpty_some {t : String} (h : t ≠ "") : nonEmpty (some t) = some t :=
  Option.filter_some.trans (if_pos (decide_eq_true h))

theorem allPassed_check {name detail : String} {ok : Bool} :
    allPassed [check name ok detail] = true ↔ ok = true := by
  cases ok <;> simp [allPassed, check]

/-- What the shim writes down of the goal record passes exactly when the
record agrees. -/
theorem readGoalMeta_eq_ok (hgiven : s.AllGiven) {goalMeta : GoalMetaRead}
    (h : readGoalMeta sdk (s.params eventsUrl eventsSource) a = .ok goalMeta) :
    allPassed goalMeta.checks = true ↔ GoalMetaAgrees sdk s a := by
  have hid : (some s.goalMetaId).filter (0 ≤ ·) = some s.goalMetaId :=
    Option.filter_some.trans (if_pos (decide_eq_true hgiven.goalMetaId))
  rw [readGoalMeta] at h
  simp only [Args.params, nonEmpty_some hgiven.goalMeta, hid] at h
  obtain ⟨g, hg, h⟩ := Fallible.bind_eq_ok.mp h
  obtain ⟨point, hpoint, h⟩ := Fallible.bind_eq_ok.mp h
  cases h
  rw [← List.singleton_append, allPassed_append, allPassed_check, allPassed_check,
    samePoint_eq_true]
  constructor
  · rintro ⟨hacc, rfl⟩
    exact ⟨g, hg, hpoint, of_decide_eq_true hacc⟩
  · rintro ⟨g', hg', hpoint', hacc⟩
    cases hg.symm.trans hg'
    exact ⟨decide_eq_true hacc, Except.ok.inj (hpoint.symm.trans hpoint')⟩

theorem readGoalMeta_of_agrees (hgiven : s.AllGiven) (h : GoalMetaAgrees sdk s a) :
    ∃ goalMeta, readGoalMeta sdk (s.params eventsUrl eventsSource) a = .ok goalMeta := by
  obtain ⟨g, hg, hpoint, -⟩ := h
  have hid : (some s.goalMetaId).filter (0 ≤ ·) = some s.goalMetaId :=
    Option.filter_some.trans (if_pos (decide_eq_true hgiven.goalMetaId))
  rw [readGoalMeta]
  simp only [Args.params, nonEmpty_some hgiven.goalMeta, hid, hg, Fallible.ok_bind, hpoint]
  exact ⟨_, rfl⟩

/-- So does what it writes down of the auditor registry. -/
theorem readRegistry_eq_ok (hgiven : s.AllGiven) {account : AccountView P} {registry : Check}
    (h : readRegistry sdk (s.params eventsUrl eventsSource) a account = .ok registry) :
    allPassed [registry] = true ↔ RegistryAgrees sdk s a account := by
  rw [readRegistry] at h
  simp only [Args.params, nonEmpty_some hgiven.auditor] at h
  obtain ⟨key, hkey, h⟩ := Fallible.bind_eq_ok.mp h
  cases h
  rw [allPassed_check, samePoint_eq_true]
  constructor
  · rintro rfl
    exact hkey
  · intro hagrees
    exact Except.ok.inj (hkey.symm.trans hagrees)

theorem readRegistry_of_agrees (hgiven : s.AllGiven) {account : AccountView P}
    (h : RegistryAgrees sdk s a account) :
    ∃ registry, readRegistry sdk (s.params eventsUrl eventsSource) a account = .ok registry := by
  have hkey : a.auditorKey account.auditorId = .ok (sdk.auditorPublicKey s.viewKey) := h
  rw [readRegistry]
  simp only [Args.params, nonEmpty_some hgiven.auditor, hkey, Fallible.ok_bind]
  exact ⟨_, rfl⟩

/-! ## The two runs -/

/-- What a run of the script that reaches its third step went through. -/
theorem main_eq_ok (hgiven : s.AllGiven) {v : Report R} :
    main sdk s a = .ok v ↔ ∃ account read o ledger, GoalMetaAgrees sdk s a ∧
      a.balance = .ok (some account) ∧ RegistryAgrees sdk s a account ∧ a.events = .ok read ∧
      replay sdk s.viewKey s.goal read.events = .ok o ∧ o.contributions ≠ [] ∧
      a.latestLedger = .ok ledger ∧ v = report sdk o account ledger := by
  constructor
  · intro h
    obtain ⟨⟨⟩, hmeta, h⟩ := Fallible.bind_eq_ok.mp h
    obtain ⟨account, haccount, h⟩ := Fallible.bind_eq_ok.mp h
    obtain ⟨⟨⟩, hregistry, h⟩ := Fallible.bind_eq_ok.mp h
    obtain ⟨read, hread, h⟩ := Fallible.bind_eq_ok.mp h
    obtain ⟨o, ho, h⟩ := Fallible.bind_eq_ok.mp h
    split at h
    · cases h
    · rename_i hsome
      obtain ⟨ledger, hledger, h⟩ := Fallible.bind_eq_ok.mp h
      exact ⟨account, read, o, ledger, (checkGoalMeta_eq_ok hgiven.goalMeta).mp hmeta,
        readAccount_eq_ok.mp haccount, checkRegistry_eq_ok.mp hregistry, retry_eq_ok.mp hread, ho,
        hsome, retry_eq_ok.mp hledger, (Except.ok.inj h).symm⟩
  · rintro ⟨account, read, o, ledger, hmeta, haccount, hregistry, hread, ho, hsome, hledger, rfl⟩
    rw [main, (checkGoalMeta_eq_ok hgiven.goalMeta).mpr hmeta, Fallible.ok_bind,
      readAccount_eq_ok.mpr haccount, Fallible.ok_bind, checkRegistry_eq_ok.mpr hregistry,
      Fallible.ok_bind, retry_eq_ok.mpr hread, Fallible.ok_bind, ho, Fallible.ok_bind,
      if_neg hsome, retry_eq_ok.mpr hledger, Fallible.ok_bind]

variable (sdk) in
/-- Reading an unchanged account again changes nothing. -/
theorem settle_unchanged (st : Replay R) (account : AccountView P) :
    ∃ last, settle sdk st account (.ok (some account)) = .ok last ∧ last.account = account := by
  unfold settle
  split
  · exact ⟨_, rfl, rfl⟩
  · exact ⟨_, rfl, rfl⟩

/-- A total the shim returned, against the checks of the script. -/
structure Totals (sdk : Sdk R P C) (s : Args) (a : TotalAnswers P C) (account : AccountView P)
    (st : Replay R) (g : GoalTotal) : Prop where
  total : g.totalStroops = dec (st.spendV + st.recvV)
  provable : g.fullyPointVerified = st.spendableProvable
  verified : g.verified = true ↔ (GoalMetaAgrees sdk s a ∧ RegistryAgrees sdk s a account) ∧
    (st.spendableProvable = true → spendOk sdk st account = true) ∧ recvOk sdk st account = true

/-- What a run of the shim that returns went through. -/
theorem goalTotal_eq_ok (hgiven : s.AllGiven) (hconst : a.balanceAgain = a.balance)
    {g : GoalTotal} (h : goalTotal sdk (s.params eventsUrl eventsSource) a = .ok g) :
    ∃ account read st ledger, a.balance = .ok (some account) ∧ a.events = .ok read ∧
      RaizStack.replay sdk s.viewKey s.goal read.events = .ok st ∧ st.timeline ≠ [] ∧
      a.latestLedger = .ok ledger ∧ Totals sdk s a account st g := by
  rw [goalTotal] at h
  obtain ⟨⟨g', last⟩, hrun, hg⟩ : ∃ run, goalTotalRun sdk (s.params eventsUrl eventsSource) a
      = .ok run ∧ run.1 = g := by
    cases hrun : goalTotalRun sdk (s.params eventsUrl eventsSource) a with
    | error e =>
        rw [hrun] at h
        cases h
    | ok run =>
        rw [hrun] at h
        exact ⟨run, rfl, Except.ok.inj h⟩
  obtain rfl : g' = g := hg
  obtain ⟨fromLedger, -, h⟩ := Fallible.bind_eq_ok.mp hrun
  obtain ⟨goalMeta, hmeta, h⟩ := Fallible.bind_eq_ok.mp h
  obtain ⟨account, haccount, h⟩ := Fallible.bind_eq_ok.mp h
  obtain ⟨registry, hregistry, h⟩ := Fallible.bind_eq_ok.mp h
  obtain ⟨read, hread, h⟩ := Fallible.bind_eq_ok.mp h
  obtain ⟨st, hst, h⟩ := Fallible.bind_eq_ok.mp h
  have hbalance := RaizStack.readAccount_eq_ok haccount
  split at h
  · cases h
  · rename_i hsome
    obtain ⟨last', hlast, h⟩ := Fallible.bind_eq_ok.mp h
    obtain ⟨ledger, hledger, h⟩ := Fallible.bind_eq_ok.mp h
    obtain ⟨rfl, rfl⟩ := Prod.mk.inj (Except.ok.inj h)
    rw [hconst, hbalance] at hlast
    obtain ⟨_, hsettled, hsame⟩ := settle_unchanged sdk st account
    cases hlast.symm.trans hsettled
    refine ⟨account, read, st, ledger, hbalance, hread, hst, hsome, hledger, rfl, rfl, ?_⟩
    rw [← hsame, allPassed_append, allPassed_append, readGoalMeta_eq_ok hgiven hmeta,
      readRegistry_eq_ok hgiven hregistry, commitChecks_passed, hsame]

/-- Where the key checks pass the shim returns whenever the script gets to
its third step. -/
theorem goalTotal_of_agrees (hgiven : s.AllGiven) (hconst : a.balanceAgain = a.balance)
    {account : AccountView P} {read : EventsRead C} {st : Replay R} {ledger : Int}
    (hmeta : GoalMetaAgrees sdk s a) (hbalance : a.balance = .ok (some account))
    (hregistry : RegistryAgrees sdk s a account) (hread : a.events = .ok read)
    (hst : RaizStack.replay sdk s.viewKey s.goal read.events = .ok st) (hsome : st.timeline ≠ [])
    (hledger : a.latestLedger = .ok ledger) :
    ∃ g, goalTotal sdk (s.params eventsUrl eventsSource) a = .ok g := by
  obtain ⟨goalMeta, hgoalMeta⟩ : ∃ goalMeta, readGoalMeta sdk (s.params eventsUrl eventsSource) a
      = .ok goalMeta := readGoalMeta_of_agrees hgiven hmeta
  obtain ⟨registry, hregistry⟩ : ∃ registry, readRegistry sdk (s.params eventsUrl eventsSource) a
      account = .ok registry := readRegistry_of_agrees hgiven hregistry
  obtain ⟨last, hlast, -⟩ := settle_unchanged sdk st account
  have hfrom : fromLedgerOf (s.params eventsUrl eventsSource) = .ok s.fromLedger :=
    if_pos hgiven.fromLedger
  have haccount : RaizStack.readAccount (s.params eventsUrl eventsSource) a = .ok account := by
    rw [RaizStack.readAccount, hbalance]
    rfl
  have hagain : settle sdk st account a.balanceAgain = .ok last := by
    rw [hconst, hbalance, hlast]
  rw [goalTotal, goalTotalRun, hfrom, Fallible.ok_bind, hgoalMeta, Fallible.ok_bind, haccount,
    Fallible.ok_bind, hregistry, Fallible.ok_bind, hread, Fallible.ok_bind]
  have hreplay : RaizStack.replay sdk (s.params eventsUrl eventsSource).viewKeySecret
      (s.params eventsUrl eventsSource).goalAccount read.events = .ok st := hst
  rw [hreplay, Fallible.ok_bind, if_neg hsome, hagain, Fallible.ok_bind, hledger, Fallible.ok_bind]
  exact ⟨_, rfl⟩

/-! ## Agreement -/

theorem report_failed {o : Openings R} {st : Replay R} (h : InStep o st) (account : AccountView P)
    (ledger : Int) :
    (report sdk o account ledger).failed = false ↔
      (st.spendableProvable = true → spendOk sdk st account = true) ∧
        recvOk sdk st account = true := by
  have hspend : (report sdk o account ledger).spendOk = spendOk sdk st account := by
    rw [report, spendOk, h.provable, h.spendV, h.spendR]
  have hrecv : (report sdk o account ledger).recvOk = recvOk sdk st account := by
    rw [report, recvOk, h.recvV, h.recvR]
  have hprovable : (report sdk o account ledger).openings.spendableProvable
      = st.spendableProvable := h.provable
  rw [Report.failed, hspend, hrecv, hprovable]
  cases st.spendableProvable <;> cases spendOk sdk st account <;> cases recvOk sdk st account <;>
    simp

/-- The script printed a total and ended with status 0. -/
def PrintsTotal (run : Except String (Report R)) (total : Int) : Prop :=
  ∃ v, run = .ok v ∧ v.failed = false ∧ v.total = total

/-- The script said that the spendable commitment is not point-verifiable
after an outflow. -/
def SaysOutflow (run : Except String (Report R)) : Prop :=
  ∃ v, run = .ok v ∧ v.openings.spendableProvable = false

/-- The shim said so. -/
def ShimSaysOutflow (run : Except String GoalTotal) : Prop :=
  ∃ g, run = .ok g ∧ g.fullyPointVerified = false

/-- The published key is the goal's. -/
structure KeyAgrees (sdk : Sdk R P C) (s : Args) (a : TotalAnswers P C) : Prop where
  goalMeta : GoalMetaAgrees sdk s a
  registry : ∀ account, a.balance = .ok (some account) → RegistryAgrees sdk s a account

/-- The shim's side of a run of the script that reached its third step. -/
theorem exists_goalTotal (eventsUrl eventsSource : Option String) (hgiven : s.AllGiven)
    (hconst : a.balanceAgain = a.balance) {v : Report R} (h : main sdk s a = .ok v) :
    KeyAgrees sdk s a ∧ ∃ g, goalTotal sdk (s.params eventsUrl eventsSource) a = .ok g := by
  obtain ⟨account, read, o, ledger, hmeta, hbalance, hregistry, hread, ho, hsome, hledger, -⟩ :=
    (main_eq_ok hgiven).mp h
  obtain ⟨st, hst, hin⟩ := (replay_both s.viewKey s.goal read.events).exists_right ho
  refine ⟨⟨hmeta, fun account' hbalance' => ?_⟩, ?_⟩
  · cases hbalance.symm.trans hbalance'
    exact hregistry
  · exact goalTotal_of_agrees hgiven hconst hmeta hbalance hregistry hread hst
      (mt hin.touched.mpr hsome) hledger

/-- The script's side of a run of the shim that returned, if the key is
the goal's. -/
theorem exists_main (hgiven : s.AllGiven) (hconst : a.balanceAgain = a.balance)
    (hkey : KeyAgrees sdk s a) {g : GoalTotal}
    (h : goalTotal sdk (s.params eventsUrl eventsSource) a = .ok g) :
    ∃ v, main sdk s a = .ok v := by
  obtain ⟨account, read, st, ledger, hbalance, hread, hst, hsome, hledger, -⟩ :=
    goalTotal_eq_ok hgiven hconst h
  obtain ⟨o, ho, hin⟩ := (replay_both s.viewKey s.goal read.events).exists_left hst
  exact ⟨_, (main_eq_ok hgiven).mpr ⟨account, read, o, ledger, hkey.goalMeta, hbalance,
    hkey.registry account hbalance, hread, ho, mt hin.touched.mp hsome, hledger, rfl⟩⟩

/-- Where both get to the end they have computed the same. -/
theorem same_result (hgiven : s.AllGiven) (hconst : a.balanceAgain = a.balance) {v : Report R}
    {g : GoalTotal} (hv : main sdk s a = .ok v)
    (hg : goalTotal sdk (s.params eventsUrl eventsSource) a = .ok g) :
    (v.failed = false ↔ g.verified = true) ∧ g.totalStroops = dec v.total ∧
      g.fullyPointVerified = v.openings.spendableProvable := by
  obtain ⟨account, read, o, ledger, hmeta, hbalance, hregistry, hread, ho, -, -, rfl⟩ :=
    (main_eq_ok hgiven).mp hv
  obtain ⟨account', read', st, -, hbalance', hread', hst, -, -, htotals⟩ :=
    goalTotal_eq_ok hgiven hconst hg
  cases hbalance.symm.trans hbalance'
  cases hread.symm.trans hread'
  obtain ⟨o', ho', hin⟩ := (replay_both s.viewKey s.goal read.events).exists_left hst
  cases ho.symm.trans ho'
  refine ⟨?_, ?_, ?_⟩
  · rw [report_failed hin, htotals.verified]
    exact (and_iff_right ⟨hmeta, hregistry⟩).symm
  · rw [htotals.total, ← hin.spendV, ← hin.recvV]
    rfl
  · exact htotals.provable.trans hin.provable.symm

/-- **Two verifiers, one verdict.** Over a chain that stays as it is, the
script prints a total and ends well exactly when the shim returns it as
verified; where both get to the end they agree on whether an outflow kept
the spendable commitment from being compared; and if the key is the
goal's they meet that case on the same inputs. A wrong key stops the
script before the replay, the shim goes on. -/
theorem verifiers_agree (sdk : Sdk R P C) (s : Args) (a : TotalAnswers P C)
    (eventsUrl eventsSource : Option String) (hgiven : s.AllGiven)
    (hconst : a.balanceAgain = a.balance) :
    (∀ total, PrintsTotal (main sdk s a) total ↔
        ∃ g, goalTotal sdk (s.params eventsUrl eventsSource) a = .ok g ∧ g.verified = true ∧
          g.totalStroops = dec total) ∧
      (∀ v g, main sdk s a = .ok v →
        goalTotal sdk (s.params eventsUrl eventsSource) a = .ok g →
        g.fullyPointVerified = v.openings.spendableProvable) ∧
      (KeyAgrees sdk s a → (SaysOutflow (main sdk s a) ↔
        ShimSaysOutflow (goalTotal sdk (s.params eventsUrl eventsSource) a))) := by
  refine ⟨fun total => ⟨?_, ?_⟩, ?_, fun hkey => ⟨?_, ?_⟩⟩
  · rintro ⟨v, hv, hok, rfl⟩
    obtain ⟨-, g, hg⟩ := exists_goalTotal eventsUrl eventsSource hgiven hconst hv
    obtain ⟨hverdict, htotal, -⟩ := same_result hgiven hconst hv hg
    exact ⟨g, hg, hverdict.mp hok, htotal⟩
  · rintro ⟨g, hg, hverified, htotal⟩
    obtain ⟨account, -, st, -, hbalance, -, -, -, -, htotals⟩ := goalTotal_eq_ok hgiven hconst hg
    obtain ⟨⟨hmeta, hregistry⟩, -⟩ := htotals.verified.mp hverified
    have hkey : KeyAgrees sdk s a := ⟨hmeta, fun account' hbalance' => by
      cases hbalance.symm.trans hbalance'
      exact hregistry⟩
    obtain ⟨v, hv⟩ := exists_main hgiven hconst hkey hg
    obtain ⟨hverdict, htotal', -⟩ := same_result hgiven hconst hv hg
    exact ⟨v, hv, hverdict.mpr hverified, Text.toString_int_inj (htotal'.symm.trans htotal)⟩
  · intro v g hv hg
    exact (same_result hgiven hconst hv hg).2.2
  · rintro ⟨v, hv, houtflow⟩
    obtain ⟨-, g, hg⟩ := exists_goalTotal eventsUrl eventsSource hgiven hconst hv
    exact ⟨g, hg, (same_result hgiven hconst hv hg).2.2.trans houtflow⟩
  · rintro ⟨g, hg, houtflow⟩
    obtain ⟨v, hv⟩ := exists_main hgiven hconst hkey hg
    exact ⟨v, hv, (same_result hgiven hconst hv hg).2.2.symm.trans houtflow⟩

/-! ## Two runs -/

def argsG : Args where
  token := "T"
  goal := "G"
  viewKey := 1
  fromLedger := 1
  goalMeta := "META"
  goalMetaId := 0
  auditor := "AUD"

theorem argsG_allGiven : argsG.AllGiven :=
  ⟨by decide, by decide, by decide, by decide⟩

/-- A chain on which `G` holds the two openings and that serves `txs`; the
registry's goal backs `backed`. -/
def answersSteady (backed : String) (txs : List (Tx Int (Int × Int × Int)))
    (spendable receiving : Int × Int) : TotalAnswers (Int × Int) (Int × Int × Int) where
  getGoal := .ok { name := "trip", target := 1000, goalAccount := backed, viewKey := [1] }
  balance := .ok (some
    { auditorId := 3, spendableBalance := spendable, receivingBalance := receiving })
  auditorKey _ := .ok (1, 0)
  events := .ok { events := txs.map Tx.event, latestLedger := 3, oldestLedger := none }
  balanceAgain := .ok (some
    { auditorId := 3, spendableBalance := spendable, receivingBalance := receiving })
  latestLedger := .ok 4

/-- 100 merged, 50 pending: both say 150. -/
theorem verifiers_agree_paid :
    ∃ g, goalTotal clearSdk (argsG.params none none)
        (answersSteady "G" (paidIn ++ paidLate) (100, 0) (50, 0)) = .ok g ∧
      g.verified = true ∧ g.totalStroops = dec 150 := by
  have hprints : PrintsTotal (main clearSdk argsG
      (answersSteady "G" (paidIn ++ paidLate) (100, 0) (50, 0))) 150 := ⟨_, rfl, rfl, rfl⟩
  exact ((verifiers_agree clearSdk argsG _ none none argsG_allGiven rfl).1 150).mp hprints

/-- 30 left the goal, whose record backs another account: the script stops
at the record, the shim goes on to the outflow. -/
theorem outflow_after_wrong_record :
    argsG.AllGiven ∧
    (answersSteady "B" (sentOn "B") (70, 7) (0, 0)).balanceAgain
      = (answersSteady "B" (sentOn "B") (70, 7) (0, 0)).balance ∧
    ShimSaysOutflow (goalTotal clearSdk (argsG.params none none)
      (answersSteady "B" (sentOn "B") (70, 7) (0, 0))) ∧
    ¬ SaysOutflow (main clearSdk argsG (answersSteady "B" (sentOn "B") (70, 7) (0, 0))) := by
  refine ⟨argsG_allGiven, rfl, ⟨_, rfl, rfl⟩, ?_⟩
  rintro ⟨v, hv, -⟩
  have hstops : main clearSdk argsG (answersSteady "B" (sentOn "B") (70, 7) (0, 0))
      = .error "goal_meta goal 0 backs account B, not G" := rfl
  rw [hstops] at hv
  cases hv

end VerifyGoalTotal

end RaizStack
