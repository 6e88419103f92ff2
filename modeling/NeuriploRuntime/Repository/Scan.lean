import NeuriploRuntime.Config.RuntimeConfig
import NeuriploRuntime.Repository.Tree
import NeuriploRuntime.Repository.Version

open neuriplo.config

namespace neuriplo.repository

/-- Model files are recognized by extension. Anything else in a version
directory is ignored. -/
def extensionBackends : List (String × String) :=
  [(".plan", "tensorrt"), (".engine", "tensorrt"), (".onnx", "onnx_runtime"),
    (".torchscript", "libtorch"), (".pt", "libtorch"), (".tflite", "litert"),
    (".pb", "libtensorflow"), (".xml", "openvino"), (".pte", "executorch"), (".dali", "dali"),
    (".json", pipelineBackendId)]

def kDefaultBackendPriority : String :=
  "tensorrt,onnx_runtime,openvino,executorch,litert,libtorch,libtensorflow,dali,ensemble"

def splitPriority : List Char → List Char → List String
  | [], current => if current = [] then [] else [String.ofList current]
  | c :: source, current =>
    if c = ',' ∨ c = ';' ∨ c = ' ' then
      if current = [] then splitPriority source []
      else String.ofList current :: splitPriority source []
    else splitPriority source (current ++ [c])

/-- Order used when one version directory holds artifacts for several backends.
`override_value` is `NEURIPLO_REPOSITORY_BACKEND_PRIORITY`. -/
def backendPriority (override_value : Option String) : List String :=
  let source :=
    match override_value with
    | some value => if value ≠ "" then value else kDefaultBackendPriority
    | none => kDefaultBackendPriority
  splitPriority source.toList []

/-- Lower is better; unlisted backends sort after every listed one. -/
def backendRank (override_value : Option String) (backend : String) : Nat :=
  (backendPriority override_value).idxOf backend

/-- `fs::path(path).extension()`: from the last dot of the file name, unless the
name starts with its only dot. -/
def extension (path : String) : List Char :=
  let reversed := path.toList.reverse.takeWhile (· ≠ '/')
  let suffix := reversed.takeWhile (· ≠ '.')
  match reversed.dropWhile (· ≠ '.') with
  | [] => []
  | ['.'] => []
  | _ => if reversed = ['.', '.'] then [] else '.' :: suffix.reverse

/-- Maps a model file extension to a backend id. Empty when unrecognized. -/
def backendForModelFile (path : String) : String :=
  (extensionBackends.lookup (String.ofList ((extension path).map Char.toLower))).getD ""

section

variable (override_value : Option String)

def pickCandidate (version_dir : String) (picked : String × String) (file_name : String) :
    String × String :=
  let candidate := backendForModelFile file_name
  if candidate = "" then picked
  else if picked.1 = "" ∨ backendRank override_value candidate < backendRank override_value picked.2 then
    (joinPath version_dir file_name, candidate)
  else picked

/-- Picks the recognized model file in one version directory, by backend
priority when more than one is present. -/
def pickModelFile (version_dir : String) (contents : Option VersionDirectory) : Option (String × String) :=
  let picked := (sortedEntries contents false).foldl (pickCandidate override_value version_dir) ("", "")
  if picked.1 = "" then none else some picked

end

/-- A canonical version with the raw directory names that spell it. -/
abbrev VersionGroup := String × List String

/-- `groups[canonical].push_back(name)` on a map ordered by key. -/
def addVersion (canonical name : String) : List VersionGroup → List VersionGroup
  | [] => [(canonical, [name])]
  | (key, raw_names) :: groups =>
    if canonical < key then (canonical, [name]) :: (key, raw_names) :: groups
    else if canonical = key then (key, raw_names ++ [name]) :: groups
    else (key, raw_names) :: addVersion canonical name groups

def collectVersion (model_dir model_name : String) (collected : List VersionGroup × List String)
    (name : String) : List VersionGroup × List String :=
  if !isNumericVersion name then
    (collected.1, collected.2 ++ ["model " ++ model_name ++
      ": skipping non-numeric version directory " ++ joinPath model_dir name])
  else (addVersion (canonicalVersion name) name collected.1, collected.2)

def sortRawNames (entry : VersionGroup) : VersionGroup := (entry.1, entry.2.insertionSort (· ≤ ·))

def duplicateWarning (model_name : String) (entry : VersionGroup) : Option String :=
  if entry.2.length > 1 then
    some ("model " ++ model_name ++ ": duplicate version directories for version " ++ entry.1 ++
      " (" ++ String.intercalate ", " entry.2 ++ "); using " ++ entry.2.headD "")
  else none

/-- The order `std::sort` leaves the groups in. -/
def notHigher (first second : VersionGroup) : Prop := ¬ isHigherVersion second.1 first.1 = true

instance : DecidableRel notHigher := fun first second =>
  inferInstanceAs (Decidable (¬ isHigherVersion second.1 first.1 = true))

/-- Groups the numeric version directories of a model by canonical version,
highest version first. The raw names of a group are sorted, so that the pick
does not depend on the order of the file system. -/
def groupVersionsDescending (model_dir model_name : String) (contents : Option ModelDirectory) :
    List VersionGroup × List String :=
  let collected := (sortedEntries contents true).foldl (collectVersion model_dir model_name) ([], [])
  let ordered := collected.1.map sortRawNames
  (ordered.insertionSort notHigher,
    collected.2 ++ ordered.filterMap (duplicateWarning model_name))

section

variable (override_value : Option String)

/-- The version directory a group is served from: the one spelled first. -/
def pickGroup (model_dir : String) (contents : Option ModelDirectory) (raw_names : List String) :
    Option (String × String) :=
  let raw := raw_names.headD ""
  pickModelFile override_value (joinPath model_dir raw) (contents.bind (·.directory? raw))

/-- The first group that holds a recognized model file, with a warning for every
group skipped on the way. -/
def pickVersion (model_dir : String) (contents : Option ModelDirectory) :
    List VersionGroup → Option (String × String × String) × List String
  | [] => (none, [])
  | (canonical, raw_names) :: groups =>
    match pickGroup override_value model_dir contents raw_names with
    | none =>
      let later := pickVersion model_dir contents groups
      (later.1, ("no recognized model file under " ++ joinPath model_dir (raw_names.headD "") ++
        "; skipping version " ++ canonical) :: later.2)
    | some (model_file, backend) => (some (model_file, backend, canonical), [])

/-- The configuration a discovered model is loaded with. An ensemble never
inherits the batching defaults of the tensor models around it. -/
def modelConfig (defaults : RuntimeConfig) (model_name chosen_version model_file backend : String) :
    RuntimeConfig :=
  let config := { defaults with
    model_name := model_name
    model_version := chosen_version
    model_version_explicit := true
    model_path := model_file
    backend := backend
    pipeline_graph := "" }
  if backend = pipelineBackendId then
    { config with dynamic_batching_enabled := false, max_batch_size := 1 }
  else config

/-- One model directory of the scan. -/
def scanModel (root : String) (defaults : RuntimeConfig) (model_name : String)
    (contents : Option ModelDirectory) : Option RuntimeConfig × List String :=
  let model_dir := joinPath root model_name
  let (groups, groupWarnings) := groupVersionsDescending model_dir model_name contents
  match pickVersion override_value model_dir contents groups with
  | (none, warnings) =>
    (none, groupWarnings ++ warnings ++
      if groups.isEmpty then
        ["no recognized model file under any version of " ++ model_dir ++ "; skipping"]
      else [])
  | (some (model_file, backend, chosen_version), warnings) =>
    (some (modelConfig defaults model_name chosen_version model_file backend), groupWarnings ++ warnings)

/-- Scans `root` and returns one configuration per servable model, with the
warnings for what it skipped. `repository` is what `root` names, when that is a
directory. -/
def scanModelRepository (root : String) (repository : Option Repository) (defaults : RuntimeConfig) :
    List RuntimeConfig × List String :=
  match repository with
  | none => ([], ["model repository is not a directory: " ++ root])
  | some directory =>
    let scanned := (sortedEntries (some directory) true).map
      (fun model_name => scanModel override_value root defaults model_name (directory.directory? model_name))
    let configs := scanned.filterMap Prod.fst
    (configs, scanned.flatMap Prod.snd ++
      if configs.isEmpty then ["model repository contains no servable models: " ++ root] else [])

structure ResolvedRepositoryVersion where
  model_path : String
  backend : String
  canonical_version : String
deriving DecidableEq, Repr

/-- Resolves one version of a repository model by its canonical value, with the
grouping and the pick of the scan. -/
def resolveRepositoryModelVersion (root : String) (repository : Option Repository)
    (model_name version : String) : Option ResolvedRepositoryVersion :=
  if !isNumericVersion version then none
  else if model_name = "" ∨ model_name = "." ∨ model_name = ".." ∨ '/' ∈ model_name.toList ∨
      '\\' ∈ model_name.toList then none
  else
    match repository.bind (·.directory? model_name) with
    | none => none
    | some contents =>
      let model_dir := joinPath root model_name
      let groups := (groupVersionsDescending model_dir model_name (some contents)).1
      match groups.find? (fun group => group.1 == canonicalVersion version) with
      | none => none
      | some (canonical, raw_names) =>
        match pickGroup override_value model_dir (some contents) raw_names with
        | none => none
        | some (model_file, backend) => some ⟨model_file, backend, canonical⟩

end

end neuriplo.repository
