import RaizStack.Text

/-!
# Where the wallet reads events from

The two presets, the normalisation of a base URL typed by hand, and the
store that keeps the choice in shared preferences. Strings are compared
and trimmed as Kotlin does on the JVM.
-/

namespace RaizStack

/-! ## Base URLs -/

/-- Whether `c` is the lower-case ASCII character `d`, case ignored. The
long s is upper-cased to `S`. -/
def sameIgnoringCase (c d : Char) : Bool :=
  c.toLower == d || (d == 's' && c == 'ſ')

/-- `startsWith(pat, ignoreCase = true)`, for a lower-case ASCII `pat`. -/
def startsWithIgnoreCase : List Char → List Char → Bool
  | _, [] => true
  | [], _ :: _ => false
  | c :: cs, d :: ds => sameIgnoringCase c d && startsWithIgnoreCase cs ds

/-- `trimEnd('/')`. -/
def trimEndSlash (s : List Char) : List Char :=
  s.rdropWhile (· == '/')

def defaultBaseUrl : String := "http://localhost:8091"

def EventSourceStore.normalizeBaseUrl (raw : Option String) : String :=
  let trimmed := Text.trim (raw.getD "").toList
  if trimmed = [] then defaultBaseUrl
  else
    let withScheme :=
      if startsWithIgnoreCase trimmed "http://".toList then trimmed
      else if startsWithIgnoreCase trimmed "https://".toList then trimmed
      else "http://".toList ++ trimmed
    let bare := trimEndSlash withScheme
    if bare = [] then defaultBaseUrl else String.ofList bare

/-! ## Presets -/

structure EventSource where
  id : String
  label : String
  hint : String
  baseUrl : String
  sourceParam : Option String
  deriving DecidableEq, Repr

def rpcSimulationParam : String := "rpc-simulation"

def idRaizMemory : String := "raiz-memory"

def idRpcSimulation : String := "rpc-simulado"

/-- The source admits to forgetting. -/
def EventSource.forgets (s : EventSource) : Bool :=
  decide (s.sourceParam = some rpcSimulationParam)

def EventSource.raizMemory (baseUrl : String) : EventSource :=
  { id := idRaizMemory
    label := "Raiz Memory"
    hint := "Recuerda todo: el historial completo, más allá de los ~7 días del RPC."
    baseUrl := EventSourceStore.normalizeBaseUrl (some baseUrl)
    sourceParam := none }

def EventSource.rpcSimulation (baseUrl : String) : EventSource :=
  { id := idRpcSimulation
    label := "RPC (simulado)"
    hint := "Olvida: solo conserva los últimos ledgers, como el RPC público."
    baseUrl := EventSourceStore.normalizeBaseUrl (some baseUrl)
    sourceParam := some rpcSimulationParam }

/-- Both, in the order of the picker. -/
def EventSource.presets (baseUrl : String) : List EventSource :=
  [raizMemory baseUrl, rpcSimulation baseUrl]

/-- An unknown id means Raiz Memory. -/
def EventSourceStore.resolve (id baseUrl : Option String) : EventSource :=
  let url := normalizeBaseUrl baseUrl
  if id = some idRpcSimulation then .rpcSimulation url else .raizMemory url

/-! ## The store -/

/-- The shared preferences: `source_id` and `base_url`. -/
structure SourcePrefs where
  sourceId : Option String
  baseUrl : Option String

structure EventSourceStore where
  prefs : SourcePrefs
  /-- `_current.value`. -/
  value : EventSource

namespace EventSourceStore

/-- The store over preferences as it finds them. -/
def ofPrefs (prefs : SourcePrefs) : EventSourceStore :=
  { prefs := prefs, value := resolve prefs.sourceId prefs.baseUrl }

def baseUrl (s : EventSourceStore) : String :=
  normalizeBaseUrl (some (s.prefs.baseUrl.getD defaultBaseUrl))

def presets (s : EventSourceStore) : List EventSource :=
  EventSource.presets s.baseUrl

def selectPreset (s : EventSourceStore) (id : String) : EventSourceStore :=
  ofPrefs { s.prefs with sourceId := some id }

def setBaseUrl (s : EventSourceStore) (raw : String) : EventSourceStore :=
  ofPrefs { s.prefs with baseUrl := some (normalizeBaseUrl (some raw)) }

end EventSourceStore

end RaizStack
