import RaizStack.EventSource
import RaizStack.Lts

/-!
# The bridge to the prover page

`ProverWebViewBridge` serializes its calls with a mutex, numbers them, and
hands the number to the JS it dispatches; what comes back under that
number completes the call in the `pending` slot. Nothing stops the JS of a
call that was given up: it goes on in the page, calls back when it likes,
and shares the one proxied path to the events with whatever runs next.

Kotlin suspends at the mutex, at `awaitReady` and at `deferred.await()`;
the main looper, the JavaBridge thread and the WebView's IO threads run
between any two statements, so each statement that reads or writes a
shared field is a step. A callback that has read `pending` may complete
the deferred it found at any later time.
-/

namespace RaizStack

/-! ## Calls and what they end with -/

/-- The suspend functions that go through `runProverCall`. A `goalTotal`
whose `inputsJson` does not parse throws before it gets there. -/
inductive ProverCall where
  | generateProof (kind inputsJson : String) (timeoutMs : Int)
  | selftest (timeoutMs : Int)
  | chainCall (fn inputsJson : String) (timeoutMs : Int)
  | goalTotal (inputsJson : String) (eventsSourceUrl : Option String) (timeoutMs : Int)
  deriving DecidableEq, Repr

namespace ProverCall

def kind : ProverCall → String
  | .generateProof kind _ _ => kind
  | .selftest _ => "selftest"
  | .chainCall fn _ _ => "chain:" ++ fn
  | .goalTotal _ _ _ => "goalTotal"

def timeoutMs : ProverCall → Int
  | .generateProof _ _ timeoutMs => timeoutMs
  | .selftest timeoutMs => timeoutMs
  | .chainCall _ _ timeoutMs => timeoutMs
  | .goalTotal _ _ timeoutMs => timeoutMs

/-- What `buildJs` leaves in `eventsUpstream`. -/
def buildJs (eventsUpstream : Option String) : ProverCall → Option String
  | .goalTotal _ eventsSourceUrl _ => eventsSourceUrl
  | _ => eventsUpstream

end ProverCall

/-- What JS hands to `onProofReady` or `onProofError`. -/
inductive JsAnswer where
  | ready (json : String)
  | error (message : String)
  deriving DecidableEq, Repr

/-- How a call ends; `J` is a parsed JSON object. -/
inductive CallEnd (J : Type) where
  | result (json : J)
  | jsError (kind detail : String)
  | timeout (kind : String) (timeoutMs : Int)
  | notReady (detail : String)
  | cancelled
  deriving DecidableEq, Repr

namespace CallEnd

variable {J : Type}

/-- A result or a JS error. -/
def fromJs : CallEnd J → Bool
  | .result _ => true
  | .jsError _ _ => true
  | _ => false

/-- What a callback completes the deferred of a call of this kind with. -/
def ofAnswer (parse : String → Except String J) (kind : String) : JsAnswer → CallEnd J
  | .ready json =>
      match parse json with
      | .ok o => .result o
      | .error message => .jsError kind ("unparseable result JSON: " ++ message)
  | .error message => .jsError kind message

end CallEnd

/-! ## The events proxy -/

/-- A request of the page below `EVENTS_PROXY_URL`. -/
structure ProxyRequest where
  tail : String
  encodedQuery : Option String
  deriving DecidableEq, Repr

inductive ProxyReply where
  /-- Forwarded to this URL; what the upstream said, or that it is unreachable. -/
  | fetched (target : String)
  /-- 503: no events source configured for this call. -/
  | unavailable
  deriving DecidableEq, Repr

/-- `proxyEvents`. -/
def proxyEvents (eventsUpstream : Option String) (r : ProxyRequest) : ProxyReply :=
  match eventsUpstream with
  | none => .unavailable
  | some upstream =>
      .fetched (String.ofList (trimEndSlash upstream.toList) ++ "/" ++ r.tail
        ++ (r.encodedQuery.map fun q => "?" ++ q).getD "")

/-- An events page a JS invocation was served. -/
structure ProxiedPage where
  request : ProxyRequest
  reply : ProxyReply
  deriving DecidableEq, Repr

/-- `target` is the request's place below `url`: what is left of the URL
without the slashes it ends in, one slash, the tail, and the query. -/
def ProxyRequest.Below (r : ProxyRequest) (url target : String) : Prop :=
  ∃ base slashes, url.toList = base ++ List.replicate slashes '/' ∧ base.getLast? ≠ some '/' ∧
    target.toList = base ++ '/' :: r.tail.toList ++
      match r.encodedQuery with
      | some query => '?' :: query.toList
      | none => []

/-- A page of this call: for `goalTotal`, one fetched from below the URL it
was given, or 503 when it was given none. -/
def ProverCall.ServedBy (page : ProxiedPage) : ProverCall → Prop
  | .goalTotal _ (some eventsSourceUrl) _ =>
      ∃ target, page.reply = .fetched target ∧ page.request.Below eventsSourceUrl target
  | .goalTotal _ none _ => page.reply = .unavailable
  | _ => True

/-! ## The state -/

structure PendingProof where
  id : Nat
  kind : String
  deriving DecidableEq, Repr

/-- Where the call in the mutex is: in `awaitReady`, past one of the
statements after it, suspended in `await`, in the `finally` block, or at
the end of the mutex. -/
inductive ProverPc (J : Type) where
  | locked
  | numbered (id : Nat)
  | assigned (id : Nat)
  | built (id : Nat)
  | awaiting (id : Nat)
  | leaving (id : Nat) (e : CallEnd J)
  | cleared (id : Option Nat) (e : CallEnd J)
  deriving DecidableEq, Repr

structure ActiveCall (J : Type) where
  call : ProverCall
  pc : ProverPc J

/-- A call that is over, under the number it had. -/
structure ReturnedCall (J : Type) where
  call : ProverCall
  id : Option Nat
  ended : CallEnd J

/-- What an invocation handed to a callback, and the pages it had been
served by then. -/
structure JsProduct where
  answer : JsAnswer
  pages : List ProxiedPage

/-- A JS invocation that runs in the page. -/
structure JsInvocation where
  id : Nat
  call : ProverCall
  pages : List ProxiedPage
  products : List JsProduct

namespace JsInvocation

def serve (inv : JsInvocation) (page : ProxiedPage) : JsInvocation :=
  { inv with pages := inv.pages ++ [page] }

def produce (inv : JsInvocation) (answer : JsAnswer) : JsInvocation :=
  { inv with products := inv.products ++ [{ answer := answer, pages := inv.pages }] }

end JsInvocation

/-- A request that has read `eventsUpstream` and waits for its answer. -/
structure ProxyFetch where
  id : Nat
  request : ProxyRequest
  upstream : Option String

/-- A callback that has read `pending` and is about to complete its
deferred. -/
structure JsCompletion (J : Type) where
  pending : PendingProof
  ended : CallEnd J

/-- `onProofReady` and `onProofError`: a stale answer is ignored, another
one is on its way to the deferred in `pending`. -/
def onProof {J : Type} (parse : String → Except String J) (pending : Option PendingProof)
    (id : String) (answer : JsAnswer) : Option (JsCompletion J) :=
  match pending with
  | none => none
  | some p =>
      if toString p.id ≠ id then none
      else some { pending := p, ended := .ofAnswer parse p.kind answer }

/-- What `destroy` completes. -/
def destroyed {J : Type} (pending : Option PendingProof) : Option (JsCompletion J) :=
  pending.map fun p => { pending := p, ended := .notReady "bridge destroyed mid-call" }

structure ProverBridge (J : Type) where
  /-- Callers suspended in `proofMutex.withLock`. -/
  waiting : List ProverCall
  /-- The caller that holds the mutex. -/
  active : Option (ActiveCall J)
  returned : List (ReturnedCall J)
  requestSeq : Nat
  pending : Option PendingProof
  /-- The deferreds that were completed, by the number of their call. -/
  deferreds : Nat → Option (CallEnd J)
  eventsUpstream : Option String
  /-- What `mainHandler` has yet to run. -/
  posted : List (Nat × ProverCall)
  invocations : List JsInvocation
  fetches : List ProxyFetch
  completions : List (JsCompletion J)

inductive BridgeAct where
  | call (c : ProverCall)
  | giveUp (k : Nat)
  | lock (k : Nat)
  | notReady (detail : String)
  | ready
  | assignPending
  | buildJs
  | post
  | timeout
  | cancel
  | resume
  | clearPending
  | unlock
  | runPosted
  | request (id : Nat) (r : ProxyRequest)
  | reply (k : Nat)
  | callBack (id : Nat) (answer : JsAnswer)
  | complete (k : Nat)
  | destroyRead
  | destroyClear

namespace ProverBridge

variable {J : Type}

def start : ProverBridge J :=
  { waiting := []
    active := none
    returned := []
    requestSeq := 0
    pending := none
    deferreds := fun _ => none
    eventsUpstream := none
    posted := []
    invocations := []
    fetches := []
    completions := [] }

/-! ## The caller -/

variable (s : ProverBridge J)

/-- A caller cancelled before it got the mutex. -/
def giveUp (k : Nat) : Option (ProverBridge J) :=
  s.waiting[k]?.map fun c =>
    { s with
      waiting := s.waiting.eraseIdx k
      returned := s.returned ++ [{ call := c, id := none, ended := .cancelled }] }

def lock (k : Nat) : Option (ProverBridge J) :=
  match s.active, s.waiting[k]? with
  | none, some c =>
      some { s with
        waiting := s.waiting.eraseIdx k
        active := some { call := c, pc := .locked } }
  | _, _ => none

/-- `requestSeq.incrementAndGet()`. -/
def ready : Option (ProverBridge J) :=
  match s.active with
  | some ⟨c, .locked⟩ =>
      some { s with
        requestSeq := s.requestSeq + 1
        active := some ⟨c, .numbered (s.requestSeq + 1)⟩ }
  | _ => none

/-- `pending = PendingProof(id, kind, deferred)`. -/
def assignPending : Option (ProverBridge J) :=
  match s.active with
  | some ⟨c, .numbered id⟩ =>
      some { s with
        pending := some { id := id, kind := c.kind }
        active := some ⟨c, .assigned id⟩ }
  | _ => none

def buildJs : Option (ProverBridge J) :=
  match s.active with
  | some ⟨c, .assigned id⟩ =>
      some { s with
        eventsUpstream := c.buildJs s.eventsUpstream
        active := some ⟨c, .built id⟩ }
  | _ => none

/-- `mainHandler.post { webView.evaluateJavascript(js, null) }`. -/
def post : Option (ProverBridge J) :=
  match s.active with
  | some ⟨c, .built id⟩ =>
      some { s with
        posted := s.posted ++ [(id, c)]
        active := some ⟨c, .awaiting id⟩ }
  | _ => none

/-- The caller leaves its suspension with `e`: in `awaitReady` for the end
of the mutex, in `await` for the `finally` block. -/
def abandon (e : ProverCall → CallEnd J) : Option (ProverBridge J) :=
  match s.active with
  | some ⟨c, .locked⟩ => some { s with active := some ⟨c, .cleared none (e c)⟩ }
  | some ⟨c, .awaiting id⟩ => some { s with active := some ⟨c, .leaving id (e c)⟩ }
  | _ => none

/-- `awaitReady` throws. -/
def notReady (detail : String) : Option (ProverBridge J) :=
  match s.active with
  | some ⟨_, .locked⟩ => s.abandon fun _ => .notReady detail
  | _ => none

/-- `withTimeout` gives up. -/
def timeout : Option (ProverBridge J) :=
  match s.active with
  | some ⟨_, .awaiting _⟩ => s.abandon fun c => .timeout c.kind c.timeoutMs
  | _ => none

/-- `await` returns or throws what the deferred was completed with. -/
def resume : Option (ProverBridge J) :=
  match s.active with
  | some ⟨c, .awaiting id⟩ =>
      (s.deferreds id).map fun e => { s with active := some ⟨c, .leaving id e⟩ }
  | _ => none

/-- `finally { pending = null }`. -/
def clearPending : Option (ProverBridge J) :=
  match s.active with
  | some ⟨c, .leaving id e⟩ =>
      some { s with
        pending := none
        active := some ⟨c, .cleared (some id) e⟩ }
  | _ => none

def unlock : Option (ProverBridge J) :=
  match s.active with
  | some ⟨c, .cleared id e⟩ =>
      some { s with
        active := none
        returned := s.returned ++ [{ call := c, id := id, ended := e }] }
  | _ => none

/-! ## The page -/

/-- The main looper runs the oldest runnable. -/
def runPosted : Option (ProverBridge J) :=
  match s.posted with
  | [] => none
  | (id, c) :: rest =>
      some { s with
        posted := rest
        invocations := s.invocations ++ [{ id := id, call := c, pages := [], products := [] }] }

/-- The invocations, that of number `id` changed. -/
def updateInvocation (id : Nat) (f : JsInvocation → JsInvocation) : List JsInvocation :=
  s.invocations.map fun inv => if inv.id = id then f inv else inv

/-- A request of the invocation reaches the proxy. -/
def request (id : Nat) (r : ProxyRequest) : Option (ProverBridge J) :=
  if ∃ inv ∈ s.invocations, inv.id = id then
    some { s with
      fetches := s.fetches ++ [{ id := id, request := r, upstream := s.eventsUpstream }] }
  else none

/-- The page of a request gets to its invocation. -/
def reply (k : Nat) : Option (ProverBridge J) :=
  s.fetches[k]?.map fun f =>
    { s with
      fetches := s.fetches.eraseIdx k
      invocations := s.updateInvocation f.id fun inv =>
        inv.serve { request := f.request, reply := proxyEvents f.upstream f.request } }

/-- The invocation calls `AndroidBridge` under its number. -/
def callBack (parse : String → Except String J) (id : Nat) (answer : JsAnswer) :
    Option (ProverBridge J) :=
  if ∃ inv ∈ s.invocations, inv.id = id then
    some { s with
      invocations := s.updateInvocation id fun inv => inv.produce answer
      completions := s.completions ++ (onProof parse s.pending (toString id) answer).toList }
  else none

/-- `p.deferred.complete(..)`: the first completion counts. -/
def complete (k : Nat) : Option (ProverBridge J) :=
  s.completions[k]?.map fun x =>
    { s with
      completions := s.completions.eraseIdx k
      deferreds := fun n =>
        if n = x.pending.id then (s.deferreds n).or (some x.ended) else s.deferreds n }

/-! ## Steps -/

def next (parse : String → Except String J) (s : ProverBridge J) :
    BridgeAct → Option (ProverBridge J)
  | .call c => some { s with waiting := s.waiting ++ [c] }
  | .giveUp k => s.giveUp k
  | .lock k => s.lock k
  | .notReady detail => s.notReady detail
  | .ready => s.ready
  | .assignPending => s.assignPending
  | .buildJs => s.buildJs
  | .post => s.post
  | .timeout => s.timeout
  | .cancel => s.abandon fun _ => .cancelled
  | .resume => s.resume
  | .clearPending => s.clearPending
  | .unlock => s.unlock
  | .runPosted => s.runPosted
  | .request id r => s.request id r
  | .reply k => s.reply k
  | .callBack id answer => s.callBack parse id answer
  | .complete k => s.complete k
  | .destroyRead => some { s with completions := s.completions ++ (destroyed s.pending).toList }
  | .destroyClear => some { s with pending := none }

/-- The bridge as constructed. -/
def Started (s : ProverBridge J) : Prop := s = start

/-- Any interleaving: nothing restricts who moves next. -/
def Step (parse : String → Except String J) : ProverBridge J → BridgeAct → ProverBridge J → Prop :=
  Lts.ofNext (fun _ _ => True) (next parse)

end ProverBridge

end RaizStack
