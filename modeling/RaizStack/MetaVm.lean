import RaizStack.Lts
import RaizStack.ShimTotal
import RaizStack.EventSource
import RaizStack.Tasks

/-!
# The view model of the goal screen

`MetaViewModel` keeps the screen's state and two background jobs: the
load of the timeline and the verification of the total. Both run on the
main thread between their suspension points, so a step of the model is
either a call from the screen or the resumption of one job: the call it
waited for answered, or failed, or the job was cancelled meanwhile and
resumes with a `CancellationException` whenever it does. Launching runs a
job at once up to its first suspension.

The timeline itself is a parameter; of the answers of `allEvents` only
what the load reads of them is kept.
-/

namespace RaizStack

/-! ## The screen -/

/-- The figure of a verified total, with what is said about it. -/
structure VerifiedTotal where
  stroops : Int
  atLedger : Int
  contributions : Nat
  eventSource : String
  eventsScanned : Int
  ms : Int
  checks : List Check
  deriving DecidableEq, Repr

inductive TotalState where
  | idle
  /-- `stale` is the figure that was on screen when the run started. -/
  | running (startedAt : Int) (phase : String) (stale : Option VerifiedTotal)
  | verified (total : VerifiedTotal)
  | unverified (message : String) (checks : List Check)
  | failed (message : String)
  deriving DecidableEq, Repr

def TotalState.isRunning : TotalState → Bool
  | .running _ _ _ => true
  | _ => false

/-- `as? TotalState.Verified`. -/
def TotalState.asVerified : TotalState → Option VerifiedTotal
  | .verified total => some total
  | _ => none

structure MetaUiState (T : Type) where
  loading : Bool
  refreshing : Bool
  error : Option String
  timeline : T
  source : EventSource
  baseUrl : String
  goalName : String
  targetStroops : Int
  total : TotalState

/-- What the load asks of `GoalTimeline`; `Ev` is an event record. -/
structure TimelineOps (Ev T : Type) where
  empty : T
  isEmpty : T → Bool
  build : (ctEvents goalMetaEvents : List Ev) → (source : EventSource) → (latestLedger : Int) →
    (oldestLedger : Option Int) → T

/-- An answer of `allEvents`. -/
structure EventsPage (Ev : Type) where
  events : List Ev
  latestLedger : Int
  oldestLedger : Option Int

/-- What `applyTotal` reads of the shim's answer. -/
structure TotalResult where
  goalName : String
  targetStroops : String
  verified : Bool
  totalStroops : String
  verifiedAtLedger : Int
  contributions : Nat
  eventSource : String
  eventsScanned : Int
  ms : Int
  checks : List Check

/-! ## The jobs -/

/-- Where a load is: in one of its two calls, or done. -/
inductive LoadPc (Ev T : Type) where
  | fetchCt
  | fetchMeta (ct : EventsPage Ev)
  | loaded (timeline : T)
  | gaveUp

/-- Suspended in a call. -/
def LoadPc.Waiting {Ev T : Type} : LoadPc Ev T → Prop
  | .fetchCt => True
  | .fetchMeta _ => True
  | .loaded _ => False
  | .gaveUp => False

structure LoadJob (Ev T : Type) where
  src : EventSource
  autoVerify : Bool
  pc : LoadPc Ev T

/-- A total job has one call. -/
structure TotalJob where
  src : EventSource

/-- The view model. `figureFrom` is not in the source: the event source
of the run whose figure was written last. -/
structure MetaVm (Ev T : Type) where
  store : EventSourceStore
  ui : MetaUiState T
  loads : Tasks.Slot (LoadJob Ev T)
  totals : Tasks.Slot TotalJob
  figureFrom : Option EventSource

def fallbackName : String := "Techo de la casa comunal"

def fallbackTargetStroops : Int := 500 * 10000000

/-- The message of a `CancellationException`. -/
def cancelledMessage : String := "StandaloneCoroutine was cancelled"

namespace MetaVm

variable {Ev T : Type} (ops : TimelineOps Ev T)

/-! ## Calls from the screen -/

def refresh (s : MetaVm Ev T) (autoVerify : Bool) : MetaVm Ev T :=
  let first := ops.isEmpty s.ui.timeline
  { s with
    ui := { s.ui with
      loading := first
      refreshing := !first
      error := none
      source := s.store.value }
    loads := s.loads.relaunch { src := s.store.value, autoVerify := autoVerify, pc := .fetchCt } }

/-- The view model as it is built: its `init` refreshes. -/
def create (prefs : SourcePrefs) : MetaVm Ev T :=
  let store := EventSourceStore.ofPrefs prefs
  refresh ops
    { store := store
      ui :=
        { loading := true
          refreshing := false
          error := none
          timeline := ops.empty
          source := store.value
          baseUrl := store.baseUrl
          goalName := fallbackName
          targetStroops := fallbackTargetStroops
          total := .idle }
      loads := .empty
      totals := .empty
      figureFrom := none }
    true

def selectSource (s : MetaVm Ev T) (id : String) : MetaVm Ev T :=
  let store := s.store.selectPreset id
  refresh ops
    { s with
      store := store
      ui := { s.ui with
        source := store.value
        total := .idle } }
    true

def setBaseUrl (s : MetaVm Ev T) (raw : String) : MetaVm Ev T :=
  let store := s.store.setBaseUrl raw
  refresh ops
    { s with
      store := store
      ui := { s.ui with
        source := store.value
        baseUrl := store.baseUrl
        total := .idle } }
    false

/-- `verifyTotal`. The launched job reads the source at once and replaces
the first phase by the second. -/
def verifyTotal (s : MetaVm Ev T) (now : Int) : MetaVm Ev T :=
  if s.ui.total.isRunning then s
  else
    let src := s.store.value
    let phase := "leyendo eventos de " ++ src.label ++ " y recomponiendo el total…"
    { s with
      ui := { s.ui with
        total := .running now phase s.ui.total.asVerified }
      totals := s.totals.relaunch { src := src } }

/-! ## The load resumes -/

/-- What a suspended call of a job ends with. -/
def resumed {J A : Type} (t : Tasks.Task J) (r : Except String A) : Except String A :=
  if t.cancelled then .error cancelledMessage else r

/-- `catch (e: Exception)` of the load. -/
def loadFailed (s : MetaVm Ev T) (j : Nat) (job : LoadJob Ev T) (message : String) : MetaVm Ev T :=
  { s with
    ui := { s.ui with
      loading := false
      refreshing := false
      error := some message }
    loads := s.loads.advance j { job with pc := .gaveUp } true }

def loadSucceeded (s : MetaVm Ev T) (j : Nat) (job : LoadJob Ev T) (ct goalMeta : EventsPage Ev)
    (now : Int) : MetaVm Ev T :=
  let timeline := ops.build ct.events goalMeta.events job.src
    (max ct.latestLedger goalMeta.latestLedger) (ct.oldestLedger.or goalMeta.oldestLedger)
  let s' :=
    { s with
      ui := { s.ui with
        loading := false
        refreshing := false
        error := none
        timeline := timeline
        source := job.src }
      loads := s.loads.advance j { job with pc := .loaded timeline } true }
  if job.autoVerify then s'.verifyTotal now else s'

/-- Load job `j` resumes after the call it is suspended in. -/
def loadResumes (s : MetaVm Ev T) (j : Nat) (r : Except String (EventsPage Ev)) (now : Int) :
    Option (MetaVm Ev T) :=
  match s.loads.tasks[j]? with
  | none => none
  | some t =>
      if t.finished then none
      else
        match t.job.pc, resumed t r with
        | .fetchCt, .ok ct => some { s with
            loads := s.loads.advance j { t.job with pc := .fetchMeta ct } false }
        | .fetchMeta ct, .ok goalMeta => some (loadSucceeded ops s j t.job ct goalMeta now)
        | .fetchCt, .error message => some (loadFailed s j t.job message)
        | .fetchMeta _, .error message => some (loadFailed s j t.job message)
        | .loaded _, _ => none
        | .gaveUp, _ => none

/-! ## The total resumes -/

/-- The diagnosis of a total that did not verify. -/
def unverifiedMessage (checks : List Check) (src : EventSource) : String :=
  let failing := checks.filter fun c => decide (c.ok = some false)
  let commitmentsFailed := failing.any fun c => c.name.startsWith "commit("
  if commitmentsFailed && src.forgets then
    "Esta fuente olvidó parte del historial, así que la suma de los aportes "
      ++ "que sí devuelve no reproduce el compromiso que está en la cadena. "
      ++ "El dinero está — lo que falta son los eventos. No mostramos un total "
      ++ "que no podemos probar: cambia a Raiz Memory y vuelve."
  else if commitmentsFailed then
    "Lo que leímos no reproduce el compromiso que está en la cadena: falta "
      ++ "historial, o esta fuente va atrasada respecto a la red. No mostramos "
      ++ "un total que no podemos probar."
  else
    match failing.head? with
    | some c => "No pudimos comprobar «" ++ c.name ++ "»."
    | none => "Una comprobación contra los compromisos on-chain no pasó."

def totalOf (r : TotalResult) (src : EventSource) : TotalState :=
  if r.verified then
    .verified
      { stroops := (Text.parseI64 r.totalStroops.toList).getD 0
        atLedger := r.verifiedAtLedger
        contributions := r.contributions
        eventSource := if r.eventSource = "rpc" then "el RPC público" else src.label
        eventsScanned := r.eventsScanned
        ms := r.ms
        checks := r.checks }
  else .unverified (unverifiedMessage r.checks src) r.checks

def applyTotal (ui : MetaUiState T) (r : TotalResult) (src : EventSource) : MetaUiState T :=
  { ui with
    goalName := if r.goalName = "" then ui.goalName else r.goalName
    targetStroops :=
      ((Text.parseI64 r.targetStroops.toList).filter (0 < ·)).getD ui.targetStroops
    total := totalOf r src }

/-- Total job `j` resumes after `bridge.goalTotal`. -/
def totalResumes (s : MetaVm Ev T) (j : Nat) (r : Except String TotalResult) :
    Option (MetaVm Ev T) :=
  match s.totals.tasks[j]? with
  | none => none
  | some t =>
      if t.finished then none
      else
        match resumed t r with
        | .ok r => some { s with
            ui := applyTotal s.ui r t.job.src
            totals := s.totals.advance j t.job true
            figureFrom := if r.verified then some t.job.src else s.figureFrom }
        | .error message => some { s with
            ui := { s.ui with
              total := .failed message }
            totals := s.totals.advance j t.job true }

/-! ## What a resumption can do -/

theorem resumed_eq_ok {J A : Type} {t : Tasks.Task J} {r : Except String A} {a : A} :
    resumed t r = .ok a ↔ t.cancelled = false ∧ r = .ok a := by
  unfold resumed
  cases t.cancelled with
  | true => simp
  | false => simp

variable {ops} {s s' : MetaVm Ev T} {j : Nat}

theorem loadResumes_cases {r : Except String (EventsPage Ev)} {now : Int}
    (h : s.loadResumes ops j r now = some s') :
    ∃ t, s.loads.tasks[j]? = some t ∧ t.finished = false ∧ t.job.pc.Waiting ∧
      ((∃ ct, t.job.pc = .fetchCt ∧ t.cancelled = false ∧ r = .ok ct ∧
          s' = { s with loads := s.loads.advance j { t.job with pc := .fetchMeta ct } false }) ∨
        (∃ ct goalMeta, t.job.pc = .fetchMeta ct ∧ t.cancelled = false ∧ r = .ok goalMeta ∧
          s' = s.loadSucceeded ops j t.job ct goalMeta now) ∨
        (∃ message, resumed t r = .error message ∧ s' = s.loadFailed j t.job message)) := by
  unfold loadResumes at h
  split at h
  · cases h
  · rename_i t hj
    split at h
    · cases h
    · rename_i hfin
      refine ⟨t, hj, Bool.eq_false_iff.mpr hfin, ?_⟩
      split at h
      · rename_i ct hpc hok
        obtain ⟨hnot, hr⟩ := resumed_eq_ok.mp hok
        exact ⟨by rw [hpc]; trivial, Or.inl ⟨ct, hpc, hnot, hr, (Option.some.inj h).symm⟩⟩
      · rename_i ct goalMeta hpc hok
        obtain ⟨hnot, hr⟩ := resumed_eq_ok.mp hok
        exact ⟨by rw [hpc]; trivial,
          Or.inr (Or.inl ⟨ct, goalMeta, hpc, hnot, hr, (Option.some.inj h).symm⟩)⟩
      · rename_i message hpc herr
        exact ⟨by rw [hpc]; trivial, Or.inr (Or.inr ⟨message, herr, (Option.some.inj h).symm⟩)⟩
      · rename_i ct message hpc herr
        exact ⟨by rw [hpc]; trivial, Or.inr (Or.inr ⟨message, herr, (Option.some.inj h).symm⟩)⟩
      · cases h
      · cases h

theorem totalResumes_cases {r : Except String TotalResult} (h : s.totalResumes j r = some s') :
    ∃ t, s.totals.tasks[j]? = some t ∧ t.finished = false ∧
      ((∃ result, t.cancelled = false ∧ r = .ok result ∧
          s' = { s with
            ui := applyTotal s.ui result t.job.src
            totals := s.totals.advance j t.job true
            figureFrom := if result.verified then some t.job.src else s.figureFrom }) ∨
        (∃ message, resumed t r = .error message ∧
          s' = { s with
            ui := { s.ui with
              total := .failed message }
            totals := s.totals.advance j t.job true })) := by
  unfold totalResumes at h
  split at h
  · cases h
  · rename_i t hj
    split at h
    · cases h
    · rename_i hfin
      refine ⟨t, hj, Bool.eq_false_iff.mpr hfin, ?_⟩
      split at h
      · rename_i result hok
        obtain ⟨hnot, hr⟩ := resumed_eq_ok.mp hok
        exact Or.inl ⟨result, hnot, hr, (Option.some.inj h).symm⟩
      · rename_i message herr
        exact Or.inr ⟨message, herr, (Option.some.inj h).symm⟩

end MetaVm

/-! ## Runs -/

inductive MetaAct (Ev : Type) where
  | selectSource (id : String)
  | setBaseUrl (raw : String)
  | refresh (autoVerify : Bool)
  | verifyTotal (now : Int)
  | loadResumes (j : Nat) (r : Except String (EventsPage Ev)) (now : Int)
  | totalResumes (j : Nat) (r : Except String TotalResult)

namespace MetaVm

variable {Ev T : Type} (ops : TimelineOps Ev T)

def next (s : MetaVm Ev T) : MetaAct Ev → Option (MetaVm Ev T)
  | .selectSource id => some (s.selectSource ops id)
  | .setBaseUrl raw => some (s.setBaseUrl ops raw)
  | .refresh autoVerify => some (s.refresh ops autoVerify)
  | .verifyTotal now => some (s.verifyTotal now)
  | .loadResumes j r now => s.loadResumes ops j r now
  | .totalResumes j r => s.totalResumes j r

def Started (s : MetaVm Ev T) : Prop :=
  ∃ prefs, s = create ops prefs

def Step : MetaVm Ev T → MetaAct Ev → MetaVm Ev T → Prop :=
  Lts.ofNext (fun _ _ => True) (next ops)

end MetaVm

/-! ## Answers for concrete runs -/

/-- A timeline that is just the events. -/
def eventList : TimelineOps String (List String) where
  empty := []
  isEmpty := List.isEmpty
  build ct goalMeta _ _ _ := ct ++ goalMeta

def pageOf (events : List String) : EventsPage String :=
  { events := events, latestLedger := 10, oldestLedger := none }

def verifiedResult : TotalResult :=
  { goalName := "Techo"
    targetStroops := "5000000000"
    verified := true
    totalStroops := "630000000"
    verifiedAtLedger := 10
    contributions := 1
    eventSource := "events-url"
    eventsScanned := 1
    ms := 6000
    checks := [] }

end RaizStack
