import Mathlib.Data.List.FinRange
import NeuriploRuntime.Admin.AdminCodec
import NeuriploRuntime.Registry.Threads

open neuriplo.admin neuriplo.config neuriplo.model neuriplo.pipeline neuriplo.registry neuriplo.tensor transition

namespace neuriplo.server

inductive KServeError where
  | invalidArgument
  | modelNotFound
  | unavailable
deriving DecidableEq, Repr

/-- `thrown` is the server's own answer when a handler throws. -/
inductive HttpResponse where
  | json (body : String)
  | error (status : Nat) (code : KServeError) (message : String)
  | thrown
deriving DecidableEq, Repr

/-- A body, as the codec's function of the defaults it is parsed over. -/
abbrev Body := RuntimeConfig → AdminParseResult RuntimeConfig

/-- The routes that load a model: `/v2/repository/models/{m}/load`, and
`/v2/admin/models/load`. -/
inductive LoadRoute where
  | repository
  | admin
deriving DecidableEq, Repr

/-- A load that got as far as its registry call. -/
structure LoadRequest where
  route : LoadRoute
  known : Bool
  config : RuntimeConfig

namespace LoadRequest

def model_name (load : LoadRequest) : String := load.config.model_name

/-- The registry call of the route. -/
def request (load : LoadRequest) : Request :=
  match load.route with
  | .repository =>
    if load.known then .build (.reload load.model_name load.config) false
    else .build (.loadModel load.config) false
  | .admin => .build (.loadModel load.config) false

def success (load : LoadRequest) : HttpResponse :=
  match load.route with
  | .repository => .json "\x7b\x7d"
  | .admin => .json "\x7b\"loaded\":true\x7d"

/-- Why a load failed: the load error on show, if there is one. -/
def message (load : LoadRequest) (snapshot : Option InferSnapshot) : String :=
  (snapshot.bind (·.load_error)).getD ("failed to load model: " ++ load.model_name)

/-- The answer to a load whose registry call returned false. -/
def refusal (load : LoadRequest) (registry : ModelRegistry) (snapshot : Option InferSnapshot) : HttpResponse :=
  match load.route with
  | .repository => .error 409 .unavailable (load.message snapshot)
  | .admin =>
    match snapshot with
    | none => .error 409 .unavailable ("concurrent load failed: " ++ load.model_name)
    | some snapshot =>
      if registry.snapshotReady snapshot then
        .error 409 .unavailable ("model already loaded; use reload: " ++ load.model_name)
      else
        .error 409 .unavailable (snapshot.load_error.getD ("concurrent load failed: " ++ load.model_name))

end LoadRequest

/-- Where the handler of a thread stands. While it is `serving`, `loading` or
`cleaning`, the thread is inside the registry call the stage is about; `serving`
is a request to any other route. -/
inductive Handler where
  | idle
  | serving (request : Request)
  | locating (model_name : String) (body : Body)
  | cataloguing (model_name : String) (body : Body) (loaded : Option RuntimeConfig)
  | loading (load : LoadRequest)
  | probing (load : LoadRequest) (registered : Bool)
  | probed (load : LoadRequest) (registered : Bool) (snapshot : Option InferSnapshot)
  | reporting (load : LoadRequest) (registered : Bool)
  | cleaning (load : LoadRequest) (message : String)
  | answered (response : HttpResponse)

/-- A stage, and the registry call that starts with it. -/
abbrev Turn := Handler × Option Request

def LoadRequest.turn (load : LoadRequest) : Turn := (.loading load, some load.request)

/-- The repository handler between its lookups and its registry call. -/
def locate (model_name : String) (body : Body) (loaded catalog : Option RuntimeConfig) : Turn :=
  let defaults := loaded.getD (catalog.getD {})
  let parsed := body defaults
  if !parsed.ok then (.answered (.error 400 .invalidArgument parsed.error_message), none)
  else if loaded.isNone && catalog.isNone && !parsed.backend_provided then
    (.answered (.error 404 .modelNotFound ("model is not in the repository and not loaded: " ++ model_name ++
      "; provide its backend and model_path in the request body to load a " ++
      "model the repository does not contain")), none)
  else LoadRequest.turn ⟨.repository, loaded.isSome, { parsed.config with model_name }⟩

/-- The requests a thread takes up. -/
inductive Arrival where
  | repositoryLoad (model_name : String) (body : Body)
  | adminLoad (body : Body)
  | other (request : Request)

def Arrival.turn : Arrival → Turn
  | .repositoryLoad model_name body => (.locating model_name body, none)
  | .adminLoad body =>
    let parsed := body {}
    if !parsed.ok then (.answered (.error 400 .invalidArgument parsed.error_message), none)
    else LoadRequest.turn ⟨.admin, false, parsed.config⟩
  | .other request => (.serving request, some request)

namespace Handler

/-- The handler's own steps, between its registry calls. `ready` is two steps:
the locked lookup, and the scheduler's flag read off the snapshot afterwards. -/
def run (registry : ModelRegistry) : Handler → Option Turn
  | locating model_name body => some (cataloguing model_name body (registry.modelConfig model_name), none)
  | cataloguing model_name body loaded =>
    some (locate model_name body loaded (registry.catalogConfig model_name))
  | probing load registered => some (probed load registered (registry.findHandle load.model_name), none)
  | probed load registered snapshot =>
    if snapshot.any registry.snapshotReady then some (answered load.success, none)
    else some (reporting load registered, none)
  | reporting load true =>
    -- "surface the load error and drop the dead slot"
    some (cleaning load (load.message (registry.findHandle load.model_name)),
      some (.unloadModel load.model_name))
  | reporting load false =>
    some (answered (load.refusal registry (registry.findHandle load.model_name)), none)
  | answered _ => some (idle, none)
  | _ => none

/-- What the handler goes on to when its registry call returns, or throws. -/
def resume (answer : Option Bool) : Handler → Handler
  | loading load =>
    match answer with
    | none => answered .thrown
    | some true => probing load true
    | some false => if load.route = .repository && !load.known then probing load false else reporting load false
  | cleaning _ message => answered (.error 409 .unavailable message)
  | serving _ => idle
  | handler => handler

end Handler

/-- The server with a pool of threads, each of which runs one handler at a time
and makes that handler's registry calls. -/
structure State (threads : Nat) where
  registry : registry.State := {}
  handlers : Fin threads → Handler := fun _ => .idle

inductive Event (threads : Nat) where
  | arrive (thread : Fin threads) (arrival : Arrival)
  | thread (thread : Fin threads) (action : Action)
  | drainTask (scheduler : Nat)
  | setRepositoryCatalog (configs : List RuntimeConfig)

namespace State

variable {threads : Nat}

def take (s : State threads) (thread : Fin threads) : Turn → Option (State threads)
  | (handler, none) => some { s with handlers := Function.update s.handlers thread handler }
  | (handler, some request) =>
    (s.registry.step (.thread thread (.start request))).map fun registry =>
      { registry, handlers := Function.update s.handlers thread handler }

def step (s : State threads) : Event threads → Option (State threads)
  | .arrive thread arrival =>
    match s.handlers thread with
    | .idle => s.take thread arrival.turn
    | _ => none
  | .thread thread action =>
    match s.registry.threads thread with
    | .idle =>
      match action with
      | .run => ((s.handlers thread).run s.registry.registry_).bind (s.take thread)
      | _ => none
    | .returned _ answer =>
      (s.registry.step (.thread thread action)).map fun registry =>
        { registry, handlers := Function.update s.handlers thread ((s.handlers thread).resume answer) }
    | _ => (s.registry.step (.thread thread action)).map fun registry => { s with registry }
  | .drainTask scheduler => (s.registry.step (.drainTask scheduler)).map fun registry => { s with registry }
  | .setRepositoryCatalog configs =>
    (s.registry.step (.setRepositoryCatalog configs)).map fun registry => { s with registry }

end State

/-- The server, from an empty registry. -/
def system (threads : Nat) : System (State threads) (Event threads) := System.ofStep {} State.step

end neuriplo.server
