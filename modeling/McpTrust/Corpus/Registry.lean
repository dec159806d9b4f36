import McpTrust.Python.Lines
import McpTrust.Python.DateTime
import McpTrust.Python.IsoFormat
import McpTrust.Python.Json
import McpTrust.Python.DictUpdate
import McpTrust.Python.Utf8
import McpTrust.Python.Sha256
import McpTrust.Catalog.RootUpdateErrors

/-! # The registry candidate planner

A saved Registry payload becomes one candidate for each server object. The fixed notices and
policy texts of the manifest are left out.
-/

namespace McpTrust.Corpus

set_option autoImplicit false

open Python

inductive CandidateMode
  | noAuthSandboxed
  | credentialedSandboxed
  | networkedSandboxed
  | remoteNetworked
  | packageOnly
  deriving DecidableEq

def CandidateMode.text : CandidateMode → String
  | .noAuthSandboxed => "no-auth-sandboxed"
  | .credentialedSandboxed => "credentialed-sandboxed"
  | .networkedSandboxed => "networked-sandboxed"
  | .remoteNetworked => "remote-networked"
  | .packageOnly => "package-only"

inductive Freshness
  | fresh
  | aging
  | stale
  | unknown
  | deprecated
  | deleted
  deriving DecidableEq

def Freshness.text : Freshness → String
  | .fresh => "fresh"
  | .aging => "aging"
  | .stale => "stale"
  | .unknown => "unknown"
  | .deprecated => "deprecated"
  | .deleted => "deleted"

structure SplitUrl where
  scheme : Str
  netloc : Str
  path : Str
  query : Str := []
  fragment : Str := []
  deriving DecidableEq

/-- The functions of `unicodedata`, `str` and `urllib.parse` that need the Unicode tables. -/
structure Library where
  nfkc : Str → Str
  lower : Str → Str
  urlsplit : Str → Except PyErr SplitUrl
  urlunsplit : SplitUrl → Str

/-! ## Reading a payload -/

/-- `bool(value)`. -/
def truthy : Json → Bool
  | .null => false
  | .bool b => b
  | .int n => decide (n ≠ 0)
  | .float x => decide (x.value? ≠ some 0)
  | .str s => decide (s ≠ [])
  | .arr items => !items.isEmpty
  | .obj fields => !fields.isEmpty

/-- `value or other`. -/
def pyOr (value other : Json) : Json := if truthy value then value else other

/-- `_string`. -/
def string : Json → Option Str
  | .str s => if s = [] then none else some s
  | _ => none

/-- `_bool_or_none`. -/
def boolOrNone : Json → Option Bool
  | .bool b => some b
  | _ => none

def dictOf : Json → Option Dict
  | .obj fields => some fields
  | _ => none

def unwrapServer (entry : Dict) : Dict :=
  match Dict.get entry "server" with
  | .obj server =>
    match Dict.lookup entry (u "_meta") with
    | some metadata =>
      if Dict.contains server (u "_meta") then server else Dict.set server (u "_meta") metadata
    | none => server
  | _ => entry

def extractServers : Json → Except PyErr (List Dict)
  | .arr items => .ok ((items.filterMap dictOf).map unwrapServer)
  | .obj payload =>
    match Dict.get payload "servers", Dict.get payload "server" with
    | .arr items, _ => .ok ((items.filterMap dictOf).map unwrapServer)
    | _, .obj _ => .ok [unwrapServer payload]
    | _, _ => .error .typeError
  | _ => .error .typeError

/-- The values of a dictionary that look like official metadata. -/
def isOfficial (value : Dict) : Bool :=
  Dict.contains value (u "status") || Dict.contains value (u "updatedAt") || Dict.contains value (u "publishedAt")

def officialMeta (server : Dict) : Dict :=
  match Dict.get server "_meta" with
  | .obj metadata => ((metadata.filterMap fun kv => dictOf kv.2).find? isOfficial).getD metadata
  | _ => []

/-- `_packages` and `_remotes`: the dictionaries of a list field. -/
def dictsAt (server : Dict) (field : String) : List Dict :=
  match Dict.get server field with
  | .arr items => items.filterMap dictOf
  | _ => []

def packages (server : Dict) : List Dict := dictsAt server "packages"

def remotes (server : Dict) : List Dict := dictsAt server "remotes"

structure RepositoryRef where
  url : Option Str := none
  source : Option Str := none
  id : Option Str := none
  deriving DecidableEq

def repository : Json → RepositoryRef
  | .str url => { url := some url }
  | .obj value =>
    { url := string (Dict.get value "url"), source := string (Dict.get value "source"),
      id := string (Dict.get value "id") }
  | _ => {}

/-- `bool(repository.get("url"))`. -/
def RepositoryRef.hasUrl (ref : RepositoryRef) : Bool := ref.url.any fun url => decide (url ≠ [])

def transportType (value : Dict) : Option Str :=
  match Dict.get value "transport" with
  | .str transport => some transport
  | .obj transport => string (Dict.get transport "type")
  | _ => string (Dict.get value "type")

structure PackageRef where
  registryType : Str
  identifier : Option Str
  version : Option Str
  transport : Option Str
  runtimeHint : Option Str
  fileSha256 : Option Str
  exactVersion : Bool
  deriving DecidableEq

/-- `text.split(separator, 1)[1]` where the separator occurs. -/
def afterFirst (separator : Char) (text : Str) : Str := (text.dropWhile fun c => decide (c ≠ ch separator)).drop 1

def isExactVersion (lib : Library) (registryType : Str) (identifier version : Option Str) : Bool :=
  if version.isSome then true
  else
    match identifier with
    | none => false
    | some identifier =>
      if lib.lower registryType = u "pypi" then isInfix (u "==") identifier || isInfix (u "@") identifier
      else if lib.lower registryType = u "npm" then
        if (u "@").isPrefixOf identifier && isInfix (u "/") identifier then isInfix (u "@") (afterFirst '/' identifier)
        else isInfix (u "@") identifier
      else false

def packageRef (lib : Library) (package : Dict) : PackageRef :=
  let registryType := (string (pyOr (Dict.get package "registryType") (Dict.get package "registry"))).getD (u "unknown")
  let identifier := string (pyOr (Dict.get package "identifier") (Dict.get package "name"))
  let version := string (Dict.get package "version")
  { registryType := registryType, identifier := identifier, version := version, transport := transportType package,
    runtimeHint := string (Dict.get package "runtimeHint"), fileSha256 := string (Dict.get package "fileSha256"),
    exactVersion := isExactVersion lib registryType identifier version }

def hasExactPackageRef (refs : List PackageRef) : Bool := refs.any PackageRef.exactVersion

structure RemoteRef where
  url : Option Str
  normalizedUrl : Option Str
  transport : Option Str
  deriving DecidableEq

/-- `path.rstrip("/")`. -/
def rstripSlash (path : Str) : Str := (path.reverse.dropWhile fun c => decide (c = ch '/')).reverse

def normalizeUrl (lib : Library) (value : Str) : Except PyErr Str := do
  let parsed ← lib.urlsplit value
  .ok (lib.urlunsplit
    { scheme := lib.lower parsed.scheme, netloc := lib.lower parsed.netloc, path := rstripSlash parsed.path })

def remoteRef (lib : Library) (remote : Dict) : Except PyErr RemoteRef := do
  let url := string (pyOr (Dict.get remote "url") (Dict.get remote "endpoint"))
  let normalized ← url.mapM (normalizeUrl lib)
  .ok { url := url, normalizedUrl := normalized, transport := transportType remote }

/-! ## Environment metadata -/

structure EnvironmentSummary where
  envKeyNames : List Str := []
  secretEnvKeyNames : List Str := []
  requiredSecretKeys : List Str := []
  invalidEnvKeyCount : Nat := 0
  deriving DecidableEq

def envEntries : Json → List Dict
  | .arr items => items.filterMap dictOf
  | .obj fields =>
    fields.map fun kv =>
      match kv.2 with
      | .obj metadata => Dict.update [(u "name", .str kv.1)] metadata
      | _ => [(u "name", .str kv.1)]
  | _ => []

/-- `_ENV_KEY_RE.fullmatch`. -/
def isEnvKey (name : Str) : Bool :=
  match name with
  | [] => false
  | first :: rest =>
    (isUpperAlpha first || decide (first = ch '_')) &&
      rest.all fun c => isUpperAlpha c || isDigit c || decide (c = ch '_')

/-- `_HEADER_NAME_RE.fullmatch`. -/
def isHeaderName (name : Str) : Bool :=
  decide (name ≠ []) && name.all fun c => isAlnum c || decide (c ∈ u "!#$%&'*+.^_\x60|~-")

/-- One turn of the loop over the entries of a holder. -/
def addEnvEntry (summary : EnvironmentSummary) (entry : Dict × Bool) : EnvironmentSummary :=
  match string (pyOr (Dict.get entry.1 "name") (Dict.get entry.1 "key")) with
  | none => summary
  | some name =>
    if 128 < name.length ∨ (if entry.2 then isHeaderName name else isEnvKey name) = false then
      { summary with invalidEnvKeyCount := summary.invalidEnvKeyCount + 1 }
    else
      let required := truthy (pyOr (Dict.get entry.1 "isRequired") (Dict.get entry.1 "required"))
      let secret := truthy (pyOr (Dict.get entry.1 "isSecret") (Dict.get entry.1 "secret"))
      { summary with
        envKeyNames := name :: summary.envKeyNames
        secretEnvKeyNames := if secret then name :: summary.secretEnvKeyNames else summary.secretEnvKeyNames
        requiredSecretKeys :=
          if required && secret then name :: summary.requiredSecretKeys else summary.requiredSecretKeys }

def environmentSummary (packages remotes : List Dict) : EnvironmentSummary :=
  let entries := (packages ++ remotes).flatMap fun holder =>
    (envEntries (Dict.get holder "environmentVariables")).map (fun entry => (entry, false)) ++
      (envEntries (Dict.get holder "headers")).map fun entry => (entry, true)
  let summary := entries.foldl addEnvEntry {}
  { summary with
    envKeyNames := sortedSet summary.envKeyNames
    secretEnvKeyNames := sortedSet summary.secretEnvKeyNames
    requiredSecretKeys := sortedSet summary.requiredSecretKeys }

/-! ## Freshness and mode -/

def parseDatetime (value : Str) : Except PyErr (Option DateTime) :=
  match fromisoformat (expandZulu value) with
  | none => .ok none
  | some parsed => if parsed.offset = none then .ok (some parsed.assumeUtc) else parsed.astimezoneUtc.map some

def freshness (status : Str) (timestamp : Option Str) (generatedAt : DateTime) : Except PyErr Freshness :=
  if status = u "deleted" then .ok .deleted
  else if status = u "deprecated" then .ok .deprecated
  else
    match timestamp with
    | none => .ok .unknown
    | some timestamp => do
      match ← parseDatetime timestamp with
      | none => .ok .unknown
      | some parsed =>
        if generatedAt.instant < parsed.instant then .ok .unknown
        else
          let ageDays := (generatedAt.instant - parsed.instant) / microsPerDay
          if ageDays ≤ 30 then .ok .fresh else if ageDays ≤ 180 then .ok .aging else .ok .stale

def timestampIsFuture (value : Option Str) (generatedAt : DateTime) : Except PyErr Bool :=
  match value with
  | none => .ok false
  | some value => do
    let parsed ← parseDatetime value
    .ok (parsed.any fun parsed => decide (generatedAt.instant < parsed.instant))

def activeStatuses : List String := ["active", ""]

def nonLiveStatuses : List String := ["deprecated", "deleted"]

def recommendMode (status : Str) (isLatest : Option Bool) (packages remotes : List Dict) (secretKeys : List Str)
    (invalidEnvKeyCount : Nat) (refs : List PackageRef) : CandidateMode :=
  if status ∈ nonLiveStatuses.map u ∨ isLatest = some false then .packageOnly
  else if invalidEnvKeyCount ≠ 0 then .packageOnly
  else if secretKeys ≠ [] then if packages ≠ [] then .credentialedSandboxed else .remoteNetworked
  else if packages ≠ [] then if hasExactPackageRef refs then .noAuthSandboxed else .networkedSandboxed
  else if remotes ≠ [] then .remoteNetworked
  else .packageOnly

/-! ## Identity -/

/-- `stable.strip("-")`. -/
def stripDashes (s : Str) : Str :=
  let isDash := fun c => decide (c = ch '-')
  ((s.dropWhile isDash).reverse.dropWhile isDash).reverse

/-- The loop of `_stable_id`. -/
def slug (lastDash : Bool) : Str → Str
  | [] => []
  | c :: rest =>
    if isAlnum c then c :: slug false rest
    else if lastDash then slug true rest
    else ch '-' :: slug true rest

def stableId (lib : Library) (name : Str) (version : Option Str) : Except PyErr Str :=
  let base := match version with
    | some version => name ++ ch '-' :: version
    | none => name
  let stripped := stripDashes (slug false (lib.lower (lib.nfkc base)))
  let stable := if stripped = [] then u "registry-candidate" else stripped
  if base.any fun c => decide (128 ≤ c.val) then do
    let bytes ← encodeUtf8 base
    .ok (stable ++ ch '-' :: (sha256Hex bytes).take 12)
  else .ok stable

def dedupeKeys (lib : Library) (name : Str) (version : Option Str) (repository : RepositoryRef)
    (packageRefs : List PackageRef) (remoteRefs : List RemoteRef) : Except PyErr (List Str) := do
  let repo ← match repository.url with
    | some url => if url = [] then .ok [] else (normalizeUrl lib url).map fun normal => [u "repo:" ++ normal]
    | none => .ok []
  let ofPackage := fun (package : PackageRef) =>
    package.identifier.map fun identifier =>
      u "package:" ++ package.registryType ++ ch ':' :: identifier ++ ch ':' :: package.version.getD (u "unversioned")
  let ofRemote := fun (remote : RemoteRef) =>
    remote.normalizedUrl.bind fun normal => if normal = [] then none else some (u "remote:" ++ normal)
  .ok (sortedSet ((u "registry:" ++ name ++ ch ':' :: version.getD (u "unversioned")) ::
    (repo ++ packageRefs.filterMap ofPackage ++ remoteRefs.filterMap ofRemote)))

/-! ## Candidates -/

structure Candidate where
  stableId : Str
  registryName : Str
  title : Str
  description : Str
  version : Option Str
  registryStatus : Str
  isLatest : Option Bool
  publishedAt : Option Str
  updatedAt : Option Str
  freshness : Freshness
  timestampInFuture : Bool
  recommendedMode : CandidateMode
  eligibleForFirstLiveBatch : Bool
  selectedForFirstBatch : Bool
  repository : RepositoryRef
  packageRefs : List PackageRef
  remoteRefs : List RemoteRef
  env : EnvironmentSummary
  dedupeKeys : List Str
  reasons : List Str
  deriving DecidableEq

def when (condition : Bool) (reason : Str) : List Str := if condition then [reason] else []

def reasons (mode : CandidateMode) (status : Str) (isLatest : Option Bool) (freshness : Freshness)
    (env : EnvironmentSummary) (timestampInFuture : Bool) (packageRefs : List PackageRef) (repository : RepositoryRef)
    (remoteRefs : List RemoteRef) : List Str :=
  [u "mode=" ++ u mode.text] ++
    when (decide (status ∉ activeStatuses.map u)) (u "registry status is " ++ status) ++
    when (decide (isLatest = some false)) (u "registry metadata marks this as not latest") ++
    when (decide (freshness ∈ [.stale, .deprecated, .deleted])) (u "freshness is " ++ u freshness.text) ++
    when timestampInFuture (u "registry freshness timestamp is in the future") ++
    (if env.requiredSecretKeys ≠ [] then [u "required secret env key names are present"]
      else when (decide (env.secretEnvKeyNames ≠ [])) (u "secret env key names are present")) ++
    when (decide (env.invalidEnvKeyCount ≠ 0)) (u "invalid environment variable name metadata is present") ++
    when (decide (remoteRefs ≠ [])) (u "remote endpoint metadata is present") ++
    when (decide (packageRefs ≠ []) && !hasExactPackageRef packageRefs) (u "no exact package version was found") ++
    when (!repository.hasUrl) (u "repository URL is missing") ++
    when (decide (mode = .noAuthSandboxed)) (u "candidate can be reviewed for a no-auth sandboxed scan batch")

/-- `eligible` of `_candidate_from_server`. -/
def isEligible (mode : CandidateMode) (status : Str) (isLatest : Option Bool) (freshness : Freshness)
    (timestampInFuture : Bool) (env : EnvironmentSummary) (packageRefs : List PackageRef) (hasSource : Bool)
    (remoteRefs : List RemoteRef) : Bool :=
  decide (mode = .noAuthSandboxed) && decide (status ∈ activeStatuses.map u) && decide (isLatest ≠ some false) &&
    decide (freshness ∈ [.fresh, .aging, .unknown]) && !timestampInFuture && decide (env.requiredSecretKeys = []) &&
    decide (env.secretEnvKeyNames = []) && decide (env.invalidEnvKeyCount = 0) && hasExactPackageRef packageRefs &&
    hasSource && decide (remoteRefs = [])

def candidateFromServer (lib : Library) (generatedAt : DateTime) (server : Dict) : Except PyErr Candidate := do
  let name := (string (Dict.get server "name")).getD (u "unnamed-server")
  let version := string (Dict.get server "version")
  let metadata := officialMeta server
  let status := lib.lower
    (((string (Dict.get metadata "status")).or (string (Dict.get server "status"))).getD (u "unknown"))
  let isLatest := boolOrNone ((Dict.lookup metadata (u "isLatest")).getD (Dict.get server "isLatest"))
  let publishedAt := string (pyOr (Dict.get metadata "publishedAt") (Dict.get server "publishedAt"))
  let updatedAt := string (pyOr (Dict.get metadata "updatedAt") (Dict.get server "updatedAt"))
  let freshnessSource := updatedAt.or publishedAt
  let freshState ← freshness status freshnessSource generatedAt
  let inFuture ← timestampIsFuture freshnessSource generatedAt
  let packages := packages server
  let remotes := remotes server
  let env := environmentSummary packages remotes
  let repository := repository (Dict.get server "repository")
  let packageRefs := packages.map (packageRef lib)
  let remoteRefs ← remotes.mapM (remoteRef lib)
  let keys ← dedupeKeys lib name version repository packageRefs remoteRefs
  let mode := recommendMode status isLatest packages remotes env.secretEnvKeyNames env.invalidEnvKeyCount packageRefs
  let id ← stableId lib name version
  .ok
    { stableId := id, registryName := name, title := (string (Dict.get server "title")).getD name,
      description := (string (Dict.get server "description")).getD [], version := version, registryStatus := status,
      isLatest := isLatest, publishedAt := publishedAt, updatedAt := updatedAt, freshness := freshState,
      timestampInFuture := inFuture, recommendedMode := mode,
      eligibleForFirstLiveBatch :=
        isEligible mode status isLatest freshState inFuture env packageRefs repository.hasUrl remoteRefs,
      selectedForFirstBatch := false, repository := repository, packageRefs := packageRefs, remoteRefs := remoteRefs,
      env := env, dedupeKeys := keys,
      reasons := reasons mode status isLatest freshState env inFuture packageRefs repository remoteRefs }

/-! ## The manifest -/

def modeRank (c : Candidate) : Nat := if c.eligibleForFirstLiveBatch then 0 else 1

def freshnessRank : Freshness → Nat
  | .fresh => 0
  | .aging => 1
  | .unknown => 2
  | .stale => 3
  | .deprecated => 4
  | .deleted => 5

/-- `_candidate_sort_key`, as the order of its tuples; the rank is one digit. -/
def CandidateBefore (c d : Candidate) : Prop :=
  modeRank c < modeRank d ∨
    modeRank c = modeRank d ∧
      (freshnessRank c.freshness < freshnessRank d.freshness ∨
        freshnessRank c.freshness = freshnessRank d.freshness ∧ strLe c.registryName d.registryName = true)

instance (c d : Candidate) : Decidable (CandidateBefore c d) :=
  inferInstanceAs (Decidable (modeRank c < modeRank d ∨
    modeRank c = modeRank d ∧
      (freshnessRank c.freshness < freshnessRank d.freshness ∨
        freshnessRank c.freshness = freshnessRank d.freshness ∧ strLe c.registryName d.registryName = true)))

/-- `dict(sorted(Counter(values).items()))`. -/
def counter (values : List Str) : List (Str × Nat) := (sortedSet values).map fun value => (value, values.count value)

structure ManifestCounts where
  candidates : Nat
  eligibleForFirstLiveBatch : Nat
  selectedForFirstBatch : Nat
  modes : List (Str × Nat)
  registryStatuses : List (Str × Nat)
  freshness : List (Str × Nat)
  deriving DecidableEq

def manifestCounts (candidates : List Candidate) : ManifestCounts where
  candidates := candidates.length
  eligibleForFirstLiveBatch := candidates.countP Candidate.eligibleForFirstLiveBatch
  selectedForFirstBatch := candidates.countP Candidate.selectedForFirstBatch
  modes := counter (candidates.map fun c => u c.recommendedMode.text)
  registryStatuses := counter (candidates.map Candidate.registryStatus)
  freshness := counter (candidates.map fun c => u c.freshness.text)

structure CandidateManifest where
  generatedAt : Str
  inputServers : Nat
  firstBatchLimit : Nat
  counts : ManifestCounts
  candidates : List Candidate
  deriving DecidableEq

/-- `generated_at` as an aware time in UTC. -/
def utcTime (generatedAt : DateTime) : Except PyErr DateTime :=
  if generatedAt.offset = none then .ok generatedAt.assumeUtc else generatedAt.astimezoneUtc

/-- The sorted candidates, before any is selected. -/
def plannedCandidates (lib : Library) (payload : Json) (generatedAt : DateTime) : Except PyErr (List Candidate) := do
  let generatedAt ← utcTime generatedAt
  let servers ← extractServers payload
  let candidates ← servers.mapM (candidateFromServer lib generatedAt)
  .ok (candidates.insertionSort CandidateBefore)

def selectedIds (limit : Nat) (candidates : List Candidate) : List Str :=
  ((candidates.filter Candidate.eligibleForFirstLiveBatch).take limit).map Candidate.stableId

/-- The loop that marks the first batch, by stable id. -/
def selectFirstBatch (limit : Nat) (candidates : List Candidate) : List Candidate :=
  candidates.map fun c => { c with selectedForFirstBatch := decide (c.stableId ∈ selectedIds limit candidates) }

def buildRegistryCandidateManifest (lib : Library) (payload : Json) (generatedAt : DateTime) (limit : Nat) :
    Except PyErr CandidateManifest := do
  let time ← utcTime generatedAt
  let servers ← extractServers payload
  let planned ← plannedCandidates lib payload generatedAt
  let candidates := selectFirstBatch limit planned
  .ok
    { generatedAt := time.isoformat, inputServers := servers.length, firstBatchLimit := limit,
      counts := manifestCounts candidates, candidates := candidates }

end McpTrust.Corpus
