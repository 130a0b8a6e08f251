import RaizStack.Text

/-!
# The indexer's view of a Soroban RPC

What `raiz-memory` reads off the wire and how it reads it: the event and
the page of `getEvents`, the retention window, and the two texts it has
to take apart - the `-32600` complaint that names the window in prose,
and the cursor whose TOID carries the ledger the scan got to.

The RPC itself is outside: its answers arrive as values of the types
here, a failed call as the text of its error.
-/

namespace RaizStack

/-! ## Answers -/

/-- One event as `getEvents` serves it. -/
structure RawEvent where
  id : String
  contractId : String
  ledger : Int
  txHash : Option String
  topic : List String
  value : Json
  ledgerClosedAt : Option String
  inSuccessfulContractCall : Bool

/-- One page of `getEvents`. Newer RPCs spell the pagination token
`cursor`, older ones `pagingToken`. -/
structure GetEventsResult where
  events : List RawEvent
  latestLedger : Int
  cursor : Option String
  pagingToken : Option String
  oldestLedger : Option Int

/-- `page.cursor.or(page.paging_token)`. -/
def GetEventsResult.next (page : GetEventsResult) : Option String :=
  page.cursor.or page.pagingToken

/-- The window of history an RPC can still serve, right now. -/
structure LedgerRange where
  oldest : Int
  latest : Int
  deriving DecidableEq, Repr

/-- An answered call, or the text of the error it failed with. -/
abbrev Answer (α : Type) := Except String α

/-! ## The two texts -/

/-- `(oldest, latest)` out of "startLedger must be within the ledger
range: 3832943 - 3953902". -/
def parseLedgerRangeError (message : String) : Option (Int × Int) := do
  let tail ← Text.splitNth1 "ledger range:".toList message.toList
  match (tail.splitOnP fun c => !Text.isDigit c).filter (· ≠ []) with
  | first :: second :: _ =>
      let oldest ← Text.parseI64 first
      let latest ← Text.parseI64 second
      some (oldest, latest)
  | _ => none

/-- The scan position in a cursor "TOID-eventIndex": the ledger is
`TOID >> 32`. -/
def cursorLedger (cursor : String) : Option Int :=
  (Text.parseU64 (Text.cut ['-'] cursor.toList).1).map fun toid => ((toid >>> 32 : Nat) : Int)

example :
    parseLedgerRangeError "startLedger must be within the ledger range: 3832943 - 3953902"
      = some (3832943, 3953902) := by decide

example : cursorLedger "0016449724743679999-4294967295" = some 3829999 := by decide

/-- What a decoded cursor stands for is a 32-bit ledger number. -/
theorem cursorLedger_bounds {c : String} {l : Int} (h : cursorLedger c = some l) :
    0 ≤ l ∧ l < 2 ^ 32 := by
  obtain ⟨toid, htoid, rfl⟩ := Option.map_eq_some_iff.mp h
  have hlt : toid < 2 ^ 64 := by
    have := (Option.filter_eq_some_iff.mp htoid).2
    simpa using this
  refine ⟨Int.natCast_nonneg _, ?_⟩
  rw [Nat.shiftRight_eq_div_pow]
  omega

/-! ## Calls -/

/-- What the three calls behind `ledger_range` answered: `getHealth`
(its two fields, where present), `getLatestLedger` (its `sequence`,
where present) and the probing `getEvents`. -/
structure RangeAnswers where
  health : Answer (Option Int × Option Int)
  head : Answer (Option Int)
  probe : Answer GetEventsResult

/-- The first half of `ledger_range`: the window as `getHealth` states
it, when it states both ends. -/
def healthRange : Answer (Option Int × Option Int) → Option LedgerRange
  | .ok (oldest, latest) =>
      if 0 < oldest.getD 0 ∧ 0 < latest.getD 0 then
        some { oldest := oldest.getD 0, latest := latest.getD 0 }
      else none
  | .error _ => none

/-- `ledger_range`: the window `getHealth` reports, else the floor read
off a `getEvents` response from the head. -/
def ledgerRange (a : RangeAnswers) : Answer LedgerRange :=
  match healthRange a.health with
  | some range => .ok range
  | none => do
      let head := (← a.head).getD 0
      let probe ← a.probe
      let latest := if 0 < probe.latestLedger then probe.latestLedger else head
      .ok { oldest := max (probe.oldestLedger.getD latest) 1, latest := latest }

/-- The window is never reported as starting below ledger 1. -/
theorem ledgerRange_oldest_pos {a : RangeAnswers} {range : LedgerRange}
    (h : ledgerRange a = .ok range) : 1 ≤ range.oldest := by
  unfold ledgerRange at h
  split at h
  · rename_i r hr
    obtain rfl := Except.ok.inj h
    unfold healthRange at hr
    split at hr
    · split at hr
      · obtain rfl := Option.some.inj hr
        dsimp only
        omega
      · exact absurd hr (by simp)
    · exact absurd hr (by simp)
  · cases hhead : a.head with
    | error e => simp [hhead, bind, Except.bind] at h
    | ok head =>
        cases hprobe : a.probe with
        | error e => simp [hhead, hprobe, bind, Except.bind] at h
        | ok probe =>
            simp only [hhead, hprobe, bind, Except.bind, Except.ok.injEq] at h
            subst h
            dsimp only
            omega

/-- Where one `getEvents` request starts. -/
inductive EventsFrom where
  | startLedger (ledger : Int)
  | cursor (c : String)
  deriving DecidableEq, Repr

/-- The parameters of one `getEvents` request. -/
structure EventsRequest where
  contractId : String
  startFrom : EventsFrom
  limit : Nat
  deriving DecidableEq, Repr

/-- The request `get_events` sends: a cursor replaces the start ledger,
and a start ledger is never below 1. -/
def getEvents (contractId : String) (startLedger : Option Int) (cursor : Option String)
    (limit : Nat) : EventsRequest :=
  { contractId := contractId
    startFrom := match cursor with
      | some c => .cursor c
      | none => .startLedger (max (startLedger.getD 0) 1)
    limit := limit }

end RaizStack
