import McpTrust.Qualification.Capacity

/-! # The graph of a qualification set

`_validated_set_attempts` reads every record of the directory; `_validate_set_graph`
ties the resolutions to the attempts and the cohort receipts to the completions.
-/

namespace McpTrust.Qualification

set_option autoImplicit false

open Python Refresh

def attemptKeys : List String :=
  ["schema", "attempt_id", "set_receipt_digest", "cohort", "capacity_receipt_digest", "image_reference",
    "temporary_reference", "previous_final_image_id", "oci_outputs", "validation_receipt", "tool_snapshot",
    "capacity_receipt", "capacity_receipt_sha256", "exit_classification", "claim_ceiling",
    "receipt_digest"]

def completionKeys : List String :=
  ["schema", "cohort", "attempt_id", "attempt_path", "attempt_sha256", "qualification_receipt",
    "qualification_receipt_sha256", "qualification_receipt_digest", "exit_classification",
    "receipt_digest"]

def cleanupKeys : List String :=
  ["schema", "cohort", "attempt_id", "attempt_path", "attempt_sha256", "capacity_receipt",
    "capacity_receipt_sha256", "capacity_receipt_digest", "temporary_tag_absent", "final_tag_state",
    "oci_outputs_absent", "execution_boundary", "tool_versions", "tool_digests", "exit_classification",
    "claim_ceiling", "receipt_digest"]

def ownershipKeys : List String :=
  ["schema", "cohort", "attempt_id", "attempt_path", "attempt_sha256", "owned_final_image_id",
    "exit_classification", "receipt_digest"]

def executionBoundary : Json :=
  .obj
    [(u "docker_context", .str (u "colima-mcp-trust-sandbox")), (u "docker_transport", .str (u "local-unix")),
      (u "builder_name", .str (u "colima-mcp-trust-sandbox")), (u "builder_driver", .str (u "docker")),
      (u "builder_endpoint_matches_context", .bool true),
      (u "redirect_environment_policy", .str (u "exact-context-no-proxy")),
      (u "tool_execution_policy", .str (u "owner-private-digest-pinned-copies"))]

variable (interp : Interpreter) (dir : SetDir) (manifest : Dict)

/-! ## Attempts -/

/-- The digest of what an attempt is bound to. -/
def attemptIdOf (setReceiptDigest cohort capacityReceiptDigest : Json) : Str :=
  removeDigestPrefix
    (digestBytes
      (canonicalBytes
        (.obj
          [(u "set_receipt_digest", setReceiptDigest), (u "cohort", cohort),
            (u "capacity_receipt_digest", capacityReceiptDigest)])))

def toolNames : List String := ["docker", "docker-buildx"]

/-- `_valid_attempt_tool_snapshot(value)`. -/
def validAttemptToolSnapshot : Json → Bool
  | .obj tools =>
    Dict.keysEq tools toolNames &&
      tools.all fun kv =>
        match kv.2 with
        | .obj descriptor =>
          Dict.keysEq descriptor ["path", "sha256"] &&
            Json.pyEq (Dict.get descriptor "path") (.str (u "tmp/qualification/tools/" ++ kv.1)) &&
              isHexDigest (Dict.get descriptor "sha256")
        | _ => false
  | _ => false

/-- `set_manifest.get("cohort_bindings", {}).get(cohort, {})`. -/
def cohortBinding (cohort : Cohort) : Except PyErr Dict :=
  match Dict.lookup manifest (u "cohort_bindings") with
  | none => .ok []
  | some (.obj bindings) =>
    match Dict.lookup bindings (u cohort.text) with
    | none => .ok []
    | some (.obj binding) => .ok binding
    | some _ => .error .attributeError
  | some _ => .error .attributeError

def temporaryReference (id : Str) : Str := u "mcp-trust-qualification:v0-" ++ (id ++ u "-first")

def ociOutputs (cohort : Cohort) : Json :=
  .arr
    [.str (u "tmp/qualification/" ++ (u cohort.text ++ u "-first.oci.tar")),
      .str (u "tmp/qualification/" ++ (u cohort.text ++ u "-second.oci.tar"))]

def validationReceipt (cohort : Cohort) : Str :=
  u "tmp/qualification/" ++ (u cohort.text ++ u "-receipt.json")

/-- The file an attempt or a cleanup names as its capacity receipt. -/
def readCapacity (value : Json) : Except PyErr (Str × Bytes × Dict) := do
  let name ← safeSetChild value
  let capacity ← readBoundJson interp dir name Kind.capacity.schema
  .ok (name, (dir.file name).getD [], capacity)

/-- The conditions on the payload of `attempt-<cohort>-<id>.json`. -/
def validAttempt (label : Label) (payload binding capacity : Dict) (capacityBytes : Bytes) : Bool :=
  let previous := Dict.get payload "previous_final_image_id"
  Dict.keysEq payload attemptKeys && Json.pyEq (Dict.get payload "attempt_id") (.str label.id) &&
    decide (label.id = attemptIdOf (Dict.get payload "set_receipt_digest") (Dict.get payload "cohort")
      (Dict.get payload "capacity_receipt_digest")) &&
    Json.pyEq (Dict.get payload "set_receipt_digest") (Dict.get manifest "receipt_digest") &&
    Json.pyEq (Dict.get payload "image_reference") (Dict.get binding "image_reference") &&
    Json.pyEq (Dict.get payload "temporary_reference") (.str (temporaryReference label.id)) &&
    Json.pyEq (Dict.get payload "oci_outputs") (ociOutputs label.cohort) &&
    (Dict.get payload "exit_classification").isStr "PENDING_DOCKER_MUTATION_CLEANUP" &&
    Json.pyEq (Dict.get payload "validation_receipt") (.str (validationReceipt label.cohort)) &&
    validAttemptToolSnapshot (Dict.get payload "tool_snapshot") &&
    (previous.isNull || isHexDigest previous) &&
    Json.pyEq (Dict.get payload "capacity_receipt_digest") (Dict.get capacity "receipt_digest") &&
    Json.pyEq (Dict.get payload "capacity_receipt_sha256") (.str (digestFile capacityBytes))

/-! ## Reading the records -/

/-- What `_validated_set_attempts` gathers. -/
structure Found where
  attempts : List (Label × Dict)
  completions : List Str
  cleanups : List Str
  ownerships : List Str
  hostDigests : List Str

def Found.empty : Found := ⟨[], [], [], [], []⟩

def operationOf (value : Json) : Except PyErr Operation :=
  if value.hashable then
    if value.isStr "qualification" then .ok .qualification
    else if value.isStr "cleanup" then .ok .cleanup
    else .error (qualificationError "capacity artifact operation is invalid")
  else .error .typeError

def hostDigest (capacity : Dict) : Json :=
  match Dict.get capacity "host_capacity" with
  | .obj host => Dict.get host "receipt_digest"
  | _ => .null

def strOf : Json → Str
  | .str s => s
  | _ => []

def readCapacityArtifact (found : Found) (label : Label) (payload : Dict) : Except PyErr Found := do
  if removeDigestPrefix (strOf (Dict.get payload "receipt_digest")) ≠ label.id then
    .error (qualificationError "capacity artifact filename differs")
  else do
    let operation ← operationOf (Dict.get payload "operation")
    let _ ← catching (validateQualificationCapacityReceipt (.obj payload) operation dir.name label.cohort)
      isHostCapacityError (.error (qualificationError "capacity artifact scope is invalid"))
    let digest := strOf (hostDigest payload)
    if digest ∈ found.hostDigests then
      .error (qualificationError "one host-capacity observation was reused across set operations")
    else .ok { found with hostDigests := digest :: found.hostDigests }

def readAttemptArtifact (found : Found) (label : Label) (payload : Dict) : Except PyErr Found := do
  let capacity ← readCapacity interp dir (Dict.get payload "capacity_receipt")
  let binding ← cohortBinding manifest label.cohort
  if validAttempt manifest label payload binding capacity.2.2 capacity.2.1 then
    .ok { found with attempts := found.attempts ++ [(label, payload)] }
  else .error (qualificationError "attempt artifact filename differs")

def resolutionKeys : Kind → List String
  | .complete => completionKeys
  | .cleanup => cleanupKeys
  | _ => ownershipKeys

def Found.resolve (found : Found) (label : Label) : Found :=
  match label.kind with
  | .complete => { found with completions := label.id :: found.completions }
  | .cleanup => { found with cleanups := label.id :: found.cleanups }
  | _ => { found with ownerships := label.id :: found.ownerships }

def readResolutionArtifact (found : Found) (label : Label) (payload : Dict) : Except PyErr Found :=
  if Dict.keysEq payload (resolutionKeys label.kind) &&
      Json.pyEq (Dict.get payload "attempt_id") (.str label.id) then
    .ok (found.resolve label)
  else .error (qualificationError "resolution artifact filename differs")

def readRecord (found : Found) (label : Label) (payload : Dict) : Except PyErr Found :=
  match label.kind with
  | .capacity => readCapacityArtifact dir found label payload
  | .attempt => readAttemptArtifact interp dir manifest found label payload
  | _ => readResolutionArtifact found label payload

/-- One name of the loop of `_validated_set_attempts`. -/
def readArtifact (found : Found) (name : Str) : Except PyErr Found := do
  match labelOf name with
  | none => .error (qualificationError "qualification set contains unknown artifact")
  | some label => do
    let payload ← readBoundJson interp dir name label.kind.schema
    if (Dict.get payload "cohort").isStr label.cohort.text then
      readRecord interp dir manifest found label payload
    else .error (qualificationError "qualification set artifact scope differs")

/-- The loop of `_validated_set_attempts` over the names that are records. -/
def readArtifacts : List Str → Found → Except PyErr Found
  | [], found => .ok found
  | name :: rest, found => do
    let found ← if isPlainName name then .ok found else readArtifact interp dir manifest found name
    readArtifacts rest found

/-- `_validated_set_attempts(root, cohort=…, set_manifest=…)`, with the attempts of one cohort. -/
def validatedSetAttempts (cohort : Cohort) : Except PyErr Found := do
  let names ← setFileNames dir
  let found ← readArtifacts interp dir manifest names .empty
  .ok { found with attempts := found.attempts.filter fun a => decide (a.1.cohort = cohort) }

/-! ## Resolutions -/

def labelName (label : Label) : Str := recordName label.kind label.cohort label.id

/-- `_owned_final_image_id(root, attempt_path=…, attempt=…)`. -/
def ownedFinalImageId (attempt : Label) : Except PyErr (Option Str) := do
  let name := recordName .ownership attempt.cohort attempt.id
  if (dir.entry name).isNone then .ok none
  else do
    let payload ← readBoundJson interp dir name Kind.ownership.schema
    let imageId := Dict.get payload "owned_final_image_id"
    if Dict.keysEq payload ownershipKeys && (Dict.get payload "cohort").isStr attempt.cohort.text &&
        Json.pyEq (Dict.get payload "attempt_id") (.str attempt.id) &&
        Json.pyEq (Dict.get payload "attempt_path") (.str (labelName attempt)) &&
        Json.pyEq (Dict.get payload "attempt_sha256")
          (.str (digestFile ((dir.file (labelName attempt)).getD []))) &&
        (Dict.get payload "exit_classification").isStr "FINAL_TAG_MUTATION_AUTHORIZED" &&
        isHexDigest imageId then
      .ok (some (strOf imageId))
    else .error (qualificationError "qualification ownership receipt is invalid")

/-- The conditions after the tag state in `_attempt_resolved`. -/
def cleanupReadback (cleanup : Dict) : Bool :=
  isTrueJson (Dict.get cleanup "oci_outputs_absent") &&
    Json.pyEq (Dict.get cleanup "execution_boundary") executionBoundary &&
    stableImageBuildToolVersions (Dict.get cleanup "tool_versions") &&
    match Dict.get cleanup "tool_digests" with
    | .obj digests =>
      Dict.keysEq digests ["docker", "docker_buildx"] && digests.all fun kv => isHexDigest kv.2
    | _ => false

/-- The conditions before the tag state. -/
def cleanupBound (attempt : Label) (cleanup capacity : Dict) (capacityBytes : Bytes) : Bool :=
  Json.pyEq (Dict.get cleanup "attempt_path") (.str (labelName attempt)) &&
    Json.pyEq (Dict.get cleanup "attempt_sha256")
      (.str (digestFile ((dir.file (labelName attempt)).getD []))) &&
    Json.pyEq (Dict.get cleanup "capacity_receipt_sha256") (.str (digestFile capacityBytes)) &&
    Json.pyEq (Dict.get cleanup "capacity_receipt_digest") (Dict.get capacity "receipt_digest") &&
    (Dict.get cleanup "exit_classification").isStr "CLEANUP_CONFIRMED" &&
    isTrueJson (Dict.get cleanup "temporary_tag_absent")

/-- `except (QualificationError, HostCapacityError)`. -/
def isInvalidCapacity (e : PyErr) : Bool := e.isApp "QualificationError" || isHostCapacityError e

/-- The capacity receipt of a cleanup under its scope; `none` where it is not valid. -/
def cleanupCapacity (attempt : Label) (name : Str) : Except PyErr (Option Dict) :=
  catching
    (do
      let capacity ← readBoundJson interp dir name Kind.capacity.schema
      let _ ← validateQualificationCapacityReceipt (.obj capacity) .cleanup dir.name attempt.cohort
      .ok (some capacity))
    isInvalidCapacity (.ok none)

/-- The conjunction that resolves an attempt by its cleanup. -/
def cleanupAccepted (attempt : Label) (cleanup capacity : Dict) (capacityBytes : Bytes) (owned : Option Str) :
    Except PyErr Bool :=
  if !cleanupBound dir attempt cleanup capacity capacityBytes then .ok false
  else do
    let finalState := Dict.get cleanup "final_tag_state"
    let known ← isOneOf finalState ["BASELINE_UNCHANGED", "TASK_OWNED_RETAINED"]
    .ok (known && (!finalState.isStr "TASK_OWNED_RETAINED" || owned.isSome) && cleanupReadback cleanup)

/-- The branch of `_attempt_resolved` for an attempt with a cleanup. -/
def cleanupResolves (attempt : Label) : Except PyErr Bool := do
  let cleanup ← readBoundJson interp dir (recordName .cleanup attempt.cohort attempt.id) Kind.cleanup.schema
  match Dict.get cleanup "capacity_receipt" with
  | .str capacityName => do
    let name ← safeSetChild (.str capacityName)
    let capacity ← cleanupCapacity interp dir attempt name
    match capacity with
    | none => .ok false
    | some capacity => do
      let owned ← ownedFinalImageId interp dir attempt
      cleanupAccepted dir attempt cleanup capacity ((dir.file name).getD []) owned
  | _ => .ok false

/-- `receipt_payload.get("receipt_digest")`. -/
def receiptDigestOf : Json → Except PyErr Json
  | .obj fields => .ok (Dict.get fields "receipt_digest")
  | _ => .error .attributeError

def loadReceipt (content : Bytes) : Except PyErr (Option Json) :=
  catching ((loadJson interp (some content)).map some) isRefreshError (.ok none)

/-- The branch of `_attempt_resolved` for an attempt with a completion. -/
def completionResolves (attempt : Label) : Except PyErr Bool := do
  match dir.file (receiptName attempt.cohort) with
  | none => .ok false
  | some content => do
    let completion ← readBoundJson interp dir (recordName .complete attempt.cohort attempt.id)
      Kind.complete.schema
    let receipt ← loadReceipt interp content
    match receipt with
    | none => .ok false
    | some receipt =>
      if Json.pyEq (Dict.get completion "attempt_path") (.str (labelName attempt)) &&
          Json.pyEq (Dict.get completion "attempt_sha256")
            (.str (digestFile ((dir.file (labelName attempt)).getD []))) &&
          Json.pyEq (Dict.get completion "qualification_receipt") (.str (receiptName attempt.cohort)) &&
          Json.pyEq (Dict.get completion "qualification_receipt_sha256") (.str (digestFile content)) then do
        let digest ← receiptDigestOf receipt
        .ok (Json.pyEq (Dict.get completion "qualification_receipt_digest") digest &&
          (Dict.get completion "exit_classification").isStr "QUALIFIED_REPEATABLE")
      else .ok false

/-- `_attempt_resolved(root, …)`. -/
def attemptResolved (attempt : Label) (completions cleanups : List Str) : Except PyErr Bool :=
  if attempt.id ∈ completions ∧ attempt.id ∈ cleanups then
    .error (qualificationError "qualification attempt has conflicting resolutions")
  else if attempt.id ∈ cleanups then cleanupResolves interp dir attempt
  else if attempt.id ∈ completions then completionResolves interp dir attempt
  else .ok false

/-- The attempts of which `_attempt_resolved` is false. -/
def unresolvedOf (found : Found) : List (Label × Dict) → Except PyErr (List (Label × Dict))
  | [] => .ok []
  | attempt :: rest => do
    let resolved ← attemptResolved interp dir attempt.1 found.completions found.cleanups
    let unresolved ← unresolvedOf found rest
    .ok (if resolved then unresolved else attempt :: unresolved)

/-- `_unresolved_attempts(root, cohort=…, set_manifest=…)`. -/
def unresolvedAttempts (cohort : Cohort) : Except PyErr (List (Label × Dict)) := do
  let found ← validatedSetAttempts interp dir manifest cohort
  unresolvedOf interp dir found found.attempts

/-! ## The graph -/

def demand (accepted : Bool) (message : String) : Except PyErr Unit :=
  if accepted then .ok () else .error (qualificationError message)

/-- The attempts of all cohorts by identity, and the resolutions found. -/
def attemptsById : List Cohort → Found → Except PyErr Found
  | [], known => .ok known
  | cohort :: rest, known => do
    let found ← validatedSetAttempts interp dir manifest cohort
    let ids := known.attempts.map fun a => a.1.id
    demand (found.attempts.all fun a => decide (a.1.id ∉ ids))
      "qualification set has duplicate attempt identity"
    attemptsById rest { found with attempts := known.attempts ++ found.attempts }

/-- `attempts_by_id[attempt_id]`. -/
def attemptWith (attempts : List (Label × Dict)) (id : Str) : Except PyErr (Label × Dict) :=
  match attempts.find? fun a => decide (a.1.id = id) with
  | some attempt => .ok attempt
  | none => .error .keyError

def checkOwnerships (attempts : List (Label × Dict)) : List Str → Except PyErr Unit
  | [] => .ok ()
  | id :: rest => do
    let attempt ← attemptWith attempts id
    let _ ← ownedFinalImageId interp dir attempt.1
    checkOwnerships attempts rest

def checkResolutions (found : Found) : List Str → Except PyErr Unit
  | [] => .ok ()
  | id :: rest => do
    let attempt ← attemptWith found.attempts id
    let resolved ← attemptResolved interp dir attempt.1 found.completions found.cleanups
    demand resolved "qualification set resolution evidence is incomplete"
    checkResolutions found rest

/-- The completed attempts of a cohort. -/
def completedOf (found : Found) (cohort : Cohort) : List (Label × Dict) :=
  found.attempts.filter fun a => decide (a.1.cohort = cohort) && decide (a.1.id ∈ found.completions)

def checkReceipts (found : Found) : List Cohort → Except PyErr Unit
  | [] => .ok ()
  | cohort :: rest => do
    let present := (dir.file (receiptName cohort)).isSome
    let matching := (completedOf found cohort).length
    demand (!present || decide (matching = 1)) "qualification receipt lacks one completion graph"
    demand (present || decide (matching = 0)) "qualification completion lacks its receipt"
    checkReceipts found rest

/-- The capacity receipts the cleanups name. -/
def cleanupCapacities (found : Found) : List Str → Except PyErr (List Str)
  | [] => .ok []
  | id :: rest => do
    let attempt ← attemptWith found.attempts id
    let cleanup ← readBoundJson interp dir (recordName .cleanup attempt.1.cohort id) Kind.cleanup.schema
    let names ← cleanupCapacities found rest
    .ok (strOf (Dict.get cleanup "capacity_receipt") :: names)

def isCapacityName (name : Str) : Bool := decide (name.take 9 = u "capacity-")

/-- `_validate_set_graph(root, set_manifest=…)`. -/
def validateSetGraph : Except PyErr Unit := do
  let found ← attemptsById interp dir manifest cohorts .empty
  let ids := found.attempts.map fun a => a.1.id
  demand (subset found.completions ids) "qualification set has orphan completion evidence"
  demand (subset found.cleanups ids) "qualification set has orphan cleanup evidence"
  demand (subset found.ownerships ids) "qualification set has orphan ownership evidence"
  demand (subset found.completions found.ownerships)
    "qualification completion lacks final-tag ownership evidence"
  checkOwnerships interp dir found.attempts found.ownerships
  checkResolutions interp dir found (found.completions ++ found.cleanups)
  checkReceipts dir found cohorts
  let cleanupNames ← cleanupCapacities interp dir found found.cleanups
  let referenced := (found.attempts.map fun a => strOf (Dict.get a.2 "capacity_receipt")) ++ cleanupNames
  demand (sameSet (dir.names.filter isCapacityName) referenced)
    "qualification set has orphan capacity evidence"

end McpTrust.Qualification
