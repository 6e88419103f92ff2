import NeuriploRuntime.Http.Server
import NeuriploRuntime.Stream.Segments

open neuriplo.http stream

namespace neuriplo.server.routing

/-- The functions that `handle` answers a request with. An empty version stands
for the default one. -/
inductive Target where
  | serverMetadata
  | live
  | ready
  | metricsPage
  | completions
  | chatCompletions
  | embeddings
  | modelMetadata (model_name model_version : List UInt8)
  | modelReady (model_name model_version : List UInt8)
  | inferDefault (model_name : List UInt8)
  | infer (model_name model_version : List UInt8)
  | repositoryIndex
  | repositoryLoad (model_name : List UInt8)
  | repositoryUnload (model_name : List UInt8)
  | adminList
  | adminLoad
  | adminUnload (model_name : List UInt8)
  | adminReload (model_name : List UInt8)
  | adminActivate (model_name version : List UInt8)
deriving DecidableEq, Repr

structure RouteError where
  status : Nat
  code : String
  message : String
deriving DecidableEq, Repr

def notFound (message : String) : RouteError := ⟨404, "NOT_FOUND", message⟩

def methodNotAllowed (message : String) : RouteError := ⟨405, "METHOD_NOT_ALLOWED", message⟩

def invalidArgument (message : String) : RouteError := ⟨400, "INVALID_ARGUMENT", message⟩

def fixedRoutes : List (List UInt8 × List UInt8 × Target) := [
  (octets "GET", octets "/v2", .serverMetadata),
  (octets "GET", octets "/v2/health/live", .live),
  (octets "GET", octets "/v2/health/ready", .ready),
  (octets "GET", octets "/metrics", .metricsPage),
  (octets "POST", octets "/v1/completions", .completions),
  (octets "POST", octets "/v1/chat/completions", .chatCompletions),
  (octets "POST", octets "/v1/embeddings", .embeddings)]

def adminPrefix : List UInt8 := octets "/v2/admin/"

def repositoryPrefix : List UInt8 := octets "/v2/repository/"

def modelsPrefix : List UInt8 := octets "/v2/models/"

def extractModelRouteTail (path : List UInt8) : List UInt8 :=
  if modelsPrefix <+: path then path.drop modelsPrefix.length else []

structure VersionedRoute where
  matched : Bool := false
  version : List UInt8 := []
  suffix : List UInt8 := []
deriving DecidableEq, Repr

def parseVersionedRoute (suffix : List UInt8) : VersionedRoute :=
  if octets "/versions/" <+: suffix then
    let rest := suffix.drop (octets "/versions/").length
    { matched := true, version := segment 47 rest, suffix := behind 47 rest }
  else {}

/-- The suffixes a model has routes under. -/
def isModelSuffix (suffix : List UInt8) : Bool :=
  suffix = [] || suffix = octets "/ready" || suffix = octets "/infer"

def routeNotAllowed : RouteError := methodNotAllowed "method not allowed for route"

/-- The part of `handle` behind a model's name. -/
def handleModel (method model_name suffix : List UInt8) : Except RouteError Target :=
  if method = octets "GET" ∧ suffix = [] then .ok (.modelMetadata model_name [])
  else if method = octets "GET" ∧ suffix = octets "/ready" then .ok (.modelReady model_name [])
  else if method = octets "POST" ∧ suffix = octets "/infer" then .ok (.inferDefault model_name)
  else
    let versioned_route := parseVersionedRoute suffix
    if versioned_route.matched ∧ method = octets "GET" ∧ versioned_route.suffix = [] then
      .ok (.modelMetadata model_name versioned_route.version)
    else if versioned_route.matched ∧ method = octets "GET" ∧ versioned_route.suffix = octets "/ready" then
      .ok (.modelReady model_name versioned_route.version)
    else if versioned_route.matched ∧ method = octets "POST" ∧ versioned_route.suffix = octets "/infer" then
      .ok (.infer model_name versioned_route.version)
    else if versioned_route.matched ∧ isModelSuffix versioned_route.suffix then .error routeNotAllowed
    else if isModelSuffix suffix then .error routeNotAllowed
    else .error (notFound "route not found")

def repositoryIndexPath : List UInt8 := octets "/v2/repository/index"

def repositoryModelsPrefix : List UInt8 := octets "/v2/repository/models/"

def repositoryNotFound : RouteError := notFound "repository route not found"

def handleRepository (method path : List UInt8) : Except RouteError Target :=
  if path = repositoryIndexPath then
    if method ≠ octets "POST" then .error (methodNotAllowed "method not allowed: use POST /v2/repository/index")
    else .ok .repositoryIndex
  else if ¬ repositoryModelsPrefix <+: path then .error repositoryNotFound
  else
    let tail := path.drop repositoryModelsPrefix.length
    if behind 47 tail = [] then .error repositoryNotFound
    else
      let model_name := segment 47 tail
      let action := (behind 47 tail).drop 1
      if model_name = [] then .error (invalidArgument "model name is required")
      else if action ≠ octets "load" ∧ action ≠ octets "unload" then .error repositoryNotFound
      else if method ≠ octets "POST" then .error (methodNotAllowed "method not allowed: use POST")
      else if action = octets "unload" then .ok (.repositoryUnload model_name)
      else .ok (.repositoryLoad model_name)

def adminModels : List UInt8 := octets "/v2/admin/models"

def activateSuffix : List UInt8 := octets "/activate"

def adminNotFound : RouteError := notFound "admin route not found"

/-- The part of `handleAdmin` behind a model's name. The last occurrence of
`/activate` is the one at the end. -/
def handleAdminModel (method model_name suffix : List UInt8) : Except RouteError Target :=
  if method = octets "DELETE" ∧ suffix = [] then .ok (.adminUnload model_name)
  else if method = octets "POST" ∧ suffix = octets "reload" then .ok (.adminReload model_name)
  else if method = octets "POST" ∧ octets "versions/" <+: suffix then
    let version_tail := suffix.drop (octets "versions/").length
    if ¬ activateSuffix <:+ version_tail then .error adminNotFound
    else
      let version := version_tail.take (version_tail.length - activateSuffix.length)
      if version = [] then .error (invalidArgument "version is required")
      else .ok (.adminActivate model_name version)
  else .error adminNotFound

/-- What separates the prefix from a model's name is not looked at. -/
def handleAdmin (method path : List UInt8) : Except RouteError Target :=
  if ¬ adminModels <+: path then .error adminNotFound
  else if method = octets "GET" ∧ path = adminModels then .ok .adminList
  else if method = octets "POST" ∧ path = adminModels ++ octets "/load" then .ok .adminLoad
  else
    let admin_tail := if adminModels.length + 1 < path.length then path.drop (adminModels.length + 1) else []
    if admin_tail = [] then .error adminNotFound
    else handleAdminModel method (segment 47 admin_tail) ((behind 47 admin_tail).drop 1)

def handle (method path : List UInt8) : Except RouteError Target :=
  if method = [] then .error (invalidArgument "malformed HTTP request")
  else
    match fixedRoutes.find? fun route => route.1 = method && route.2.1 = path with
    | some route => .ok route.2.2
    | none =>
      if adminPrefix <+: path then handleAdmin method path
      else if repositoryPrefix <+: path then handleRepository method path
      else
        let route_tail := extractModelRouteTail path
        if route_tail = [] then .error (notFound "route not found")
        else handleModel method (segment 47 route_tail) (behind 47 route_tail)

end neuriplo.server.routing
