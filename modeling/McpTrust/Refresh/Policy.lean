import McpTrust.Python.Text
import McpTrust.Refresh.Inputs
import McpTrust.Refresh.Overrides

/-! # The refresh policy and the catalog inventory

`load_policy` accepts a policy whose categories split the catalog of the seed;
`catalog_inventory` lists the seed's rows with their place in that split.
-/

namespace McpTrust.Refresh

set_option autoImplicit false

open Python

structure RefreshPolicy where
  raw : Dict
  scannable : List Str
  blocked : List Str
  masked : List Str
  unsupported : List Str
  credentialDependent : List Str
  backingServiceDependent : List Str

variable (interp : Interpreter)

/-! ## Fields -/

/-- `isinstance(value, list) and all(isinstance(item, str) and item for item in value)`. -/
def nonemptyStrings : Json → Option (List Str)
  | .arr items => items.mapM fun
    | .str (c :: s) => some (c :: s)
    | _ => none
  | _ => none

def slugSet (payload : Dict) (field : String) : Except PyErr (List Str) :=
  match nonemptyStrings (Dict.get payload field) with
  | none => .error (refreshError ("refresh policy field " ++ field ++ " must be a string list"))
  | some slugs =>
    if slugs.Nodup then .ok slugs
    else .error (refreshError ("refresh policy field " ++ field ++ " contains duplicates"))

/-- `Path(value).parts`, below the root. -/
def pathParts (path : Str) : List Str :=
  (path.splitOnP fun c => decide (c = ch '/')).filter fun part =>
    decide (part ≠ []) && decide (part ≠ u ".")

/-- `_safe_relative_path(value)`. -/
def safeRelativePath : Json → Bool
  | .str path =>
    decide (path ≠ []) && decide (path.head? ≠ some (ch '/')) && decide (u ".." ∉ pathParts path)
  | _ => false

def isOneOf (v : Json) (names : List String) : Except PyErr Bool :=
  if v.hashable then .ok (names.any fun name => v.isStr name) else .error .typeError

/-- `_valid_image_build_descriptor(value)`. -/
def validImageBuildDescriptor (value : Json) : Except PyErr Bool :=
  match value with
  | .obj fields =>
    if !Dict.keysEq fields
        ["path", "provenance_status", "reproducibility_status", "qualification_receipt"] ||
        !safeRelativePath (Dict.get fields "path") then .ok false
    else do
      let provenance ← isOneOf (Dict.get fields "provenance_status")
        ["SOURCE_CONTROLLED", "RECOVERED_HISTORICAL_ARTIFACT"]
      if !provenance then .ok false
      else
        let reproducibility := Dict.get fields "reproducibility_status"
        let receipt := Dict.get fields "qualification_receipt"
        if reproducibility.isStr "UNKNOWN" then .ok receipt.isNull
        else .ok (reproducibility.isStr "VERIFIED" && safeRelativePath receipt)
  | _ => .ok false

/-- `all(valid(source) for source in sources)`, which stops at the first that is not. -/
def allDescriptors : List Json → Except PyErr Bool
  | [] => .ok true
  | v :: rest => do
    let valid ← validImageBuildDescriptor v
    if valid then allDescriptors rest else .ok false

/-! ## Rows of the seed -/

/-- `isinstance(seed, list) and all(isinstance(row, dict) for row in seed)`. -/
def objectRows : Json → Option (List Dict)
  | .arr rows => rows.mapM fun
    | .obj row => some row
    | _ => none
  | _ => none

def stringItems : Json → Option (List Str)
  | .arr items => items.mapM fun
    | .str s => some s
    | _ => none
  | _ => none

/-- The distinct nonempty slugs of the rows. -/
def catalogSlugs (seed : List Dict) : Option (List Str) :=
  (seed.mapM fun row =>
    match Dict.get row "slug" with
    | .str (c :: s) => some (c :: s)
    | _ => none).filter fun slugs => decide slugs.Nodup

/-- `source.get("sandbox_image") or default`. -/
def rowImage (source : Dict) (default : Json) : Json :=
  orElse (Dict.get source "sandbox_image") default

/-- The image a row contributes to `image_refs`. -/
def imageRef (default : Json) (row : Dict) : Option Json :=
  match Dict.get row "source" with
  | .obj source => if (Dict.get source "command").isNull then none else some (rowImage source default)
  | _ => none

/-- `{… for row in seed if …}`. -/
def imageRefs (policy : Dict) (seed : List Dict) : Except PyErr (List Json) :=
  let refs := seed.filterMap (imageRef (Dict.get policy "default_sandbox_image"))
  if refs.all Json.hashable then .ok refs else .error .typeError

/-- `set(sources) == refs`. -/
def sameReferences (sources : Dict) (refs : List Json) : Bool :=
  (Dict.keys sources).all (fun key => refs.any fun ref => ref.pyEq (.str key)) &&
    refs.all fun ref => (Dict.keys sources).any fun key => ref.pyEq (.str key)

def requireImageBuildSources (policy : Dict) (refs : List Json) : Except PyErr Unit :=
  match Dict.get policy "image_build_sources" with
  | .obj sources =>
    if sameReferences sources refs then do
      let valid ← allDescriptors (sources.map Prod.snd)
      if valid then .ok ()
      else .error (refreshError "refresh policy image build sources are invalid")
    else .error (refreshError "refresh policy image build sources are invalid")
  | _ => .error (refreshError "refresh policy image build sources are invalid")

/-! ## The policy -/

def policyKeys : List String :=
  ["schema", "catalog_denominator", "default_sandbox_image", "image_build_sources", "scannable", "blocked",
    "intentionally_masked", "unsupported_upstream", "credential_dependent", "backing_service_dependent",
    "unsafe_to_execute_unsandboxed", "credential_policy", "network_policy", "freshness_objective_hours",
    "publication_review_required"]

def require (c : Bool) (message : String) : Except PyErr Unit :=
  if c then .ok () else .error (refreshError message)

def subset (values catalog : List Str) : Bool := values.all fun s => decide (s ∈ catalog)

/-- The equality of two sets of strings. -/
def sameSet (a b : List Str) : Bool := subset a b && subset b a

/-- The slugs outside the scannable ones, category by category. -/
def RefreshPolicy.excluded (policy : RefreshPolicy) : List Str :=
  policy.masked ++ policy.unsupported ++ policy.credentialDependent ++ policy.backingServiceDependent

/-- `{field: _slug_set(policy, …)}`. -/
def readFields (policy : Dict) : Except PyErr RefreshPolicy := do
  let scannable ← slugSet policy "scannable"
  let blocked ← slugSet policy "blocked"
  let masked ← slugSet policy "intentionally_masked"
  let unsupported ← slugSet policy "unsupported_upstream"
  let credentialDependent ← slugSet policy "credential_dependent"
  let backingServiceDependent ← slugSet policy "backing_service_dependent"
  .ok ⟨policy, scannable, blocked, masked, unsupported, credentialDependent, backingServiceDependent⟩

/-- The fields of the loop over `fields.items()`, with the names its error gives them. -/
def RefreshPolicy.named (policy : RefreshPolicy) : List (String × List Str) :=
  [("scannable", policy.scannable), ("blocked", policy.blocked), ("masked", policy.masked),
    ("unsupported", policy.unsupported), ("credential_dependent", policy.credentialDependent),
    ("backing_service_dependent", policy.backingServiceDependent)]

def requireKnown (catalog : List Str) : List (String × List Str) → Except PyErr Unit
  | [] => .ok ()
  | (field, values) :: rest =>
    if subset values catalog then requireKnown catalog rest
    else .error (refreshError ("refresh policy " ++ field ++ " contains an unknown slug"))

def isPositiveInt : Json → Bool
  | .int n => decide (0 < n)
  | _ => false

def isTrue : Json → Bool
  | .bool b => b
  | _ => false

/-- The checks that follow the categories. -/
def requireExecutionPolicy (policy : Dict) : Except PyErr Unit := do
  require ((Dict.get policy "unsafe_to_execute_unsandboxed").isStr "all-local-process-entries")
    "unsafe execution policy must fail closed for local processes"
  require ((Dict.get policy "network_policy").isStr "none") "catalog refresh network policy must be none"
  require ((Dict.get policy "credential_policy").isStr "dummy-values-network-off-only")
    "catalog refresh credential policy is unsafe"
  require (isPositiveInt (Dict.get policy "freshness_objective_hours"))
    "freshness objective must be a positive integer"
  require (isTrue (Dict.get policy "publication_review_required")) "publication review must be required"

def policyFields : Json → Except PyErr Dict
  | .obj policy => do
    require (Dict.keysEq policy policyKeys) "refresh policy schema or fields are invalid"
    require ((Dict.get policy "schema").isStr "McpTrustRefreshPolicyV2")
      "refresh policy schema is unsupported"
    .ok policy
  | _ => .error (refreshError "refresh policy schema or fields are invalid")

def orRefuse {α : Type} (x : Option α) (message : String) : Except PyErr α :=
  match x with
  | some a => .ok a
  | none => .error (refreshError message)

/-- `load_policy` on the three decoded documents. -/
def checkPolicy (policy seed masked : Json) : Except PyErr RefreshPolicy := do
  let policy ← policyFields policy
  let seed ← orRefuse (objectRows seed) "catalog seed must be a JSON object list"
  let masked ← orRefuse (stringItems masked) "masked grade input must be a string list"
  require (decide masked.Nodup) "masked grade input contains duplicates"
  let catalog ← orRefuse (catalogSlugs seed) "catalog slugs are invalid or duplicated"
  require ((Dict.get policy "catalog_denominator").pyEq (.int catalog.length))
    "refresh policy catalog denominator mismatch"
  let refs ← imageRefs policy seed
  requireImageBuildSources policy refs
  let parsed ← readFields policy
  requireKnown catalog parsed.named
  require
    (sameSet parsed.blocked parsed.excluded &&
      sameSet parsed.scannable (catalog.filter fun slug => decide (slug ∉ parsed.excluded)))
    ("scannable and blocked entries must exactly match the category-derived " ++
      "execution boundary")
  require (sameSet parsed.masked masked) "refresh policy masking does not match masked-grades.json"
  requireExecutionPolicy policy
  .ok parsed

/-- `load_policy(policy_path, seed_path, masked_path)`. -/
def loadPolicy (policyFile seedFile maskedFile : Option Bytes) : Except PyErr RefreshPolicy := do
  let policy ← loadJson interp policyFile
  let seed ← loadJson interp seedFile
  let masked ← loadJson interp maskedFile
  checkPolicy policy seed masked

/-! ## The inventory -/

structure InventoryEntry where
  slug : Str
  sourceKind : Json
  sourceReference : Json
  sandboxImage : Json
  imageBuildSource : Json
  imageBuildProvenanceStatus : Json
  imageReproducibilityStatus : Json
  imageQualificationReceipt : Json
  scannable : Bool
  intentionallyMasked : Bool
  unsupportedUpstream : Bool
  credentialDependent : Bool
  backingServiceDependent : Bool
  unsafeToExecuteUnsandboxed : Bool
  liveCredentialsAllowed : Bool
  broadEgressAllowed : Bool
  executionDisposition : String

/-- `policy.raw["image_build_sources"].get(image, {})`. -/
def buildDescriptor (policy : RefreshPolicy) (image : Json) : Except PyErr Dict :=
  if image.hashable then
    match Dict.get policy.raw "image_build_sources", image with
    | .obj sources, .str name =>
      match Dict.lookup sources name with
      | some (.obj descriptor) => .ok descriptor
      | some _ => .error .attributeError
      | none => .ok []
    | .obj _, _ => .ok []
    | _, _ => .error .attributeError
  else .error .typeError

/-- `value if local_process else None`. -/
def ifLocal (localProcess : Bool) (value : Json) : Json := if localProcess then value else .null

/-- `source.get("command") is not None`. -/
def inventoryLocal (source : Dict) : Bool := !(Dict.get source "command").isNull

/-- One turn of the loop of `catalog_inventory`. -/
def inventoryEntry (policy : RefreshPolicy) (slug : Str) (raw : Dict) : Except PyErr InventoryEntry :=
  match Dict.get raw "source" with
  | .obj source => do
    let image := rowImage source (Dict.get policy.raw "default_sandbox_image")
    let descriptor ← buildDescriptor policy image
    let localProcess := inventoryLocal source
    .ok
      { slug := slug
        sourceKind := Dict.get source "kind"
        sourceReference := Dict.get source "reference"
        sandboxImage := ifLocal localProcess image
        imageBuildSource := ifLocal localProcess (Dict.get descriptor "path")
        imageBuildProvenanceStatus := ifLocal localProcess (Dict.get descriptor "provenance_status")
        imageReproducibilityStatus := ifLocal localProcess (Dict.get descriptor "reproducibility_status")
        imageQualificationReceipt := ifLocal localProcess (Dict.get descriptor "qualification_receipt")
        scannable := decide (slug ∈ policy.scannable)
        intentionallyMasked := decide (slug ∈ policy.masked)
        unsupportedUpstream := decide (slug ∈ policy.unsupported)
        credentialDependent := decide (slug ∈ policy.credentialDependent)
        backingServiceDependent := decide (slug ∈ policy.backingServiceDependent)
        unsafeToExecuteUnsandboxed := localProcess
        liveCredentialsAllowed := false
        broadEgressAllowed := false
        executionDisposition :=
          if slug ∈ policy.scannable then "pinned-network-off-sandbox-only" else "do-not-execute" }
  | _ => .error (refreshError "catalog source is invalid")

/-- `raw["slug"]`, a string once the policy is accepted. -/
def slugOf (raw : Dict) : Str :=
  match Dict.get raw "slug" with
  | .str s => s
  | _ => []

def sortedRows (seed : List Dict) : List Dict :=
  seed.insertionSort fun a b => StrLe (slugOf a) (slugOf b)

structure InventoryCounts where
  scannable : Nat
  blocked : Nat
  intentionallyMasked : Nat
  unsupportedUpstream : Nat
  credentialDependent : Nat
  backingServiceDependent : Nat
  unsafeToExecuteUnsandboxed : Nat
  missingImageBuildSource : Nat
  unqualifiedImageBuildSource : Nat

structure Inventory where
  catalogDenominator : Nat
  counts : InventoryCounts
  entries : List InventoryEntry

def inventoryCounts (entries : List InventoryEntry) : InventoryCounts where
  scannable := entries.countP fun row => row.scannable
  blocked := entries.countP fun row => !row.scannable
  intentionallyMasked := entries.countP fun row => row.intentionallyMasked
  unsupportedUpstream := entries.countP fun row => row.unsupportedUpstream
  credentialDependent := entries.countP fun row => row.credentialDependent
  backingServiceDependent := entries.countP fun row => row.backingServiceDependent
  unsafeToExecuteUnsandboxed := entries.countP fun row => row.unsafeToExecuteUnsandboxed
  missingImageBuildSource := entries.countP fun row =>
    row.unsafeToExecuteUnsandboxed && row.imageBuildSource.isNull
  unqualifiedImageBuildSource := entries.countP fun row =>
    row.unsafeToExecuteUnsandboxed && !row.imageReproducibilityStatus.isStr "VERIFIED"

/-- `catalog_inventory` once the policy is loaded. -/
def inventoryOf (policy : RefreshPolicy) (seed : List Dict) : Except PyErr Inventory := do
  let entries ← (sortedRows seed).mapM fun raw => inventoryEntry policy (slugOf raw) raw
  .ok ⟨entries.length, inventoryCounts entries, entries⟩

/-- `catalog_inventory(seed_path=…, masked_path=…, policy_path=…)`. -/
def catalogInventory (seedFile maskedFile policyFile : Option Bytes) : Except PyErr Inventory := do
  let policy ← loadPolicy interp policyFile seedFile maskedFile
  let seed ← loadJson interp seedFile
  match objectRows seed with
  | some rows => inventoryOf policy rows
  | none => .error .typeError

end McpTrust.Refresh
