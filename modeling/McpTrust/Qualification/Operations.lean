import McpTrust.Qualification.History

/-! # Operations on a set

`qualify` and `cleanup_interrupted` add files to the directory, each of them once
and in a fixed order; a call may end after any of its writes.
-/

namespace McpTrust.Qualification

set_option autoImplicit false

open Python Refresh

/-! ## Files -/

/-- `json.dumps(payload, indent=2, sort_keys=True)`. -/
def fileStyle : Style where
  ensureAscii := true
  indent := some 2
  itemPad := false
  keyPad := true
  sortKeys := true

def fileBytes (payload : Dict) : Bytes :=
  (dumps fileStyle (.obj payload) ++ [ch '\n']).flatMap encodeCodePoint

/-- The payload with its own digest. -/
def sealed (payload : Dict) : Dict := payload ++ [(u "receipt_digest", .str (unsignedDigest payload))]

/-- The file `_write_new` creates. -/
structure Write where
  name : Str
  content : Bytes

namespace SetDir

variable (dir : SetDir)

/-- `O_CREAT | O_EXCL`. -/
def create (name : Str) (content : Bytes) : Option SetDir :=
  if h : name ∈ dir.names then none
  else
    some
      { name := dir.name
        isPrivate := dir.isPrivate
        entries := dir.entries ++ [(name, .file content)]
        distinct := by
          rw [List.map_append, List.nodup_append']
          refine ⟨dir.distinct, List.nodup_singleton name, fun n hn hmem => ?_⟩
          rw [List.mem_singleton.mp hmem] at hn
          exact h hn }

end SetDir

/-! ## Attempts -/

variable (interp : Interpreter) (dir : SetDir) (manifest : Dict)

/-- `payload[key]`. -/
def subscript (payload : Dict) (key : String) : Except PyErr Json :=
  match Dict.lookup payload (u key) with
  | some value => .ok value
  | none => .error .keyError

/-- `capacity_gate.require_scope(…)`. -/
def requireScope (capacity : Dict) (operation : Operation) (cohort : Cohort) : Except PyErr Unit := do
  let _ ← catching (validateQualificationCapacityReceipt (.obj capacity) operation dir.name cohort)
    isHostCapacityError (.error (qualificationError "qualification capacity gate scope differs"))
  .ok ()

def endsWith (s tail : Str) : Bool := decide (s.drop (s.length - tail.length) = tail)

/-- `_capacity_snapshot(root=…, cohort=…, capacity_gate=…)`, the file it writes. -/
def capacitySnapshot (cohort : Cohort) (capacity : Dict) : Except PyErr Write :=
  let digest := removeDigestPrefix (strOf (Dict.get capacity "receipt_digest"))
  if !isSha256 digest then .error (qualificationError "scoped capacity receipt digest is invalid")
  else if dir.names.any fun name => endsWith name (ch '-' :: digest ++ u ".json") && isCapacityName name then
    .error (qualificationError "scoped capacity receipt was already used in this set")
  else .ok ⟨recordName .capacity cohort digest, fileBytes capacity⟩

/-- What a call of `qualify` is given or observes. -/
structure Build where
  capacity : Dict
  imageReference : Json
  previousImageId : Option Str
  toolSnapshot : Json
  firstImageId : Str
  secondImageId : Str
  /-- The fields of the receipt beside the images and the digest. -/
  evidence : Dict

def attemptClaimCeiling : String :=
  "Pessimistic pre-mutation intent only; absent completion or cleanup evidence " ++
    "means Docker tag state and qualification remain UNKNOWN."

def attemptPayload (setReceiptDigest : Json) (cohort : Cohort) (id : Str) (build : Build) (capacity : Write) :
    Dict :=
  sealed
    [(u "schema", .str (u Kind.attempt.schema)), (u "attempt_id", .str id),
      (u "set_receipt_digest", setReceiptDigest), (u "cohort", .str (u cohort.text)),
      (u "capacity_receipt_digest", Dict.get build.capacity "receipt_digest"),
      (u "image_reference", build.imageReference), (u "temporary_reference", .str (temporaryReference id)),
      (u "previous_final_image_id", (build.previousImageId.map Json.str).getD .null),
      (u "oci_outputs", ociOutputs cohort), (u "validation_receipt", .str (validationReceipt cohort)),
      (u "tool_snapshot", build.toolSnapshot), (u "capacity_receipt", .str capacity.name),
      (u "capacity_receipt_sha256", .str (digestFile capacity.content)),
      (u "exit_classification", .str (u "PENDING_DOCKER_MUTATION_CLEANUP")),
      (u "claim_ceiling", .str (u attemptClaimCeiling))]

/-- `_begin_attempt(root=…, …)`: the identity of the attempt and the files it writes. -/
def beginAttempt (cohort : Cohort) (build : Build) : Except PyErr (Str × List Write) := do
  if (dir.entry (receiptName cohort)).isSome then
    .error (qualificationError "qualification receipt already exists")
  else do
    let unresolved ← unresolvedAttempts interp dir manifest cohort
    if !unresolved.isEmpty then
      .error (qualificationError "qualification cleanup is required before retrying cohort")
    else do
      let capacity ← capacitySnapshot dir cohort build.capacity
      let setDigest ← subscript manifest "receipt_digest"
      let id := attemptIdOf setDigest (.str (u cohort.text)) (Dict.get build.capacity "receipt_digest")
      let attempt := attemptPayload setDigest cohort id build capacity
      .ok (id, [capacity, ⟨recordName .attempt cohort id, fileBytes attempt⟩])

/-! ## Qualification -/

def ownershipPayload (attempt : Label) (attemptBytes : Bytes) (imageId : Str) : Dict :=
  sealed
    [(u "schema", .str (u Kind.ownership.schema)), (u "cohort", .str (u attempt.cohort.text)),
      (u "attempt_id", .str attempt.id), (u "attempt_path", .str (labelName attempt)),
      (u "attempt_sha256", .str (digestFile attemptBytes)), (u "owned_final_image_id", .str imageId),
      (u "exit_classification", .str (u "FINAL_TAG_MUTATION_AUTHORIZED"))]

def completionPayload (attempt : Label) (attemptBytes : Bytes) (receipt : Dict) : Dict :=
  sealed
    [(u "schema", .str (u Kind.complete.schema)), (u "cohort", .str (u attempt.cohort.text)),
      (u "attempt_id", .str attempt.id), (u "attempt_path", .str (labelName attempt)),
      (u "attempt_sha256", .str (digestFile attemptBytes)),
      (u "qualification_receipt", .str (receiptName attempt.cohort)),
      (u "qualification_receipt_sha256", .str (digestBytes (fileBytes receipt))),
      (u "qualification_receipt_digest", Dict.get receipt "receipt_digest"),
      (u "exit_classification", .str (u "QUALIFIED_REPEATABLE"))]

def qualificationReceipt (build : Build) : Dict :=
  let payload := build.evidence ++
    [(u "first_build_image_id", .str build.firstImageId), (u "second_build_image_id", .str build.secondImageId),
      (u "repeatable", .bool true)]
  payload ++ [(u "receipt_digest", .str (digestBytes (canonicalBytes (.obj payload))))]

/-- The files of the attempt after its beginning: nothing is written where an image identity is no
digest, and no completion where the two builds differ. -/
def buildWrites (attempt : Label) (attemptBytes : Bytes) (build : Build) : List Write :=
  if !isHexDigest (.str build.firstImageId) then []
  else
    let ownership : Write :=
      ⟨recordName .ownership attempt.cohort attempt.id,
        fileBytes (ownershipPayload attempt attemptBytes build.firstImageId)⟩
    if build.firstImageId ≠ build.secondImageId then [ownership]
    else
      let receipt := qualificationReceipt build
      [ownership,
        ⟨recordName .complete attempt.cohort attempt.id,
          fileBytes (completionPayload attempt attemptBytes receipt)⟩,
        ⟨receiptName attempt.cohort, fileBytes receipt⟩]

/-- `qualify(cohort, …)`: the files it writes, in order. -/
def qualify (cohort : Cohort) (build : Build) : Except PyErr (List Write) := do
  if (dir.entry (receiptName cohort)).isSome then
    .error (qualificationError "qualification receipt already exists")
  else do
    requireScope dir build.capacity .qualification cohort
    let (id, begun) ← beginAttempt interp dir manifest cohort build
    let attemptBytes := (begun.getLast?.map Write.content).getD []
    .ok (begun ++ buildWrites ⟨.attempt, cohort, id⟩ attemptBytes build)

/-! ## Cleanup -/

/-- What a call of `cleanup_interrupted` is given or observes. -/
structure Readback where
  capacity : Dict
  finalTagState : Str
  boundary : Json
  toolVersions : Json
  toolDigests : Json

def cleanupClaimCeiling : String :=
  "Exact task-owned interruption cleanup readback only; no image " ++
    "qualification, MCP execution, publication, deployment, or freshness claim."

def cleanupPayload (attempt : Label) (attemptBytes : Bytes) (readback : Readback) (capacity : Write) : Dict :=
  sealed
    [(u "schema", .str (u Kind.cleanup.schema)), (u "cohort", .str (u attempt.cohort.text)),
      (u "attempt_id", .str attempt.id), (u "attempt_path", .str (labelName attempt)),
      (u "attempt_sha256", .str (digestFile attemptBytes)), (u "capacity_receipt", .str capacity.name),
      (u "capacity_receipt_sha256", .str (digestFile capacity.content)),
      (u "capacity_receipt_digest", Dict.get readback.capacity "receipt_digest"),
      (u "temporary_tag_absent", .bool true), (u "final_tag_state", .str readback.finalTagState),
      (u "oci_outputs_absent", .bool true), (u "execution_boundary", readback.boundary),
      (u "tool_versions", readback.toolVersions), (u "tool_digests", readback.toolDigests),
      (u "exit_classification", .str (u "CLEANUP_CONFIRMED")),
      (u "claim_ceiling", .str (u cleanupClaimCeiling))]

/-- `cleanup intent binding is invalid` of an attempt. -/
def checkIntent (attempt : Label × Dict) : Except PyErr Unit := do
  let bindings ← subscript manifest "cohort_bindings"
  let setDigest ← subscript manifest "receipt_digest"
  match bindings with
  | .obj bindings =>
    match Dict.lookup bindings (u attempt.1.cohort.text) with
    | some (.obj binding) => do
      let image ← subscript binding "image_reference"
      demand
        (Json.pyEq (Dict.get attempt.2 "set_receipt_digest") setDigest &&
          Json.pyEq (Dict.get attempt.2 "image_reference") image &&
          Json.pyEq (Dict.get attempt.2 "temporary_reference") (.str (temporaryReference attempt.1.id)) &&
          (Dict.get attempt.2 "exit_classification").isStr "PENDING_DOCKER_MUTATION_CLEANUP")
        "cleanup intent binding is invalid"
    | some _ => .error .typeError
    | none => .error .keyError
  | _ => .error .typeError

/-- `cleanup_interrupted(cohort, …)`: the files it writes, in order. -/
def cleanupInterrupted (cohort : Cohort) (readback : Readback) : Except PyErr (List Write) := do
  requireScope dir readback.capacity .cleanup cohort
  let unresolved ← unresolvedAttempts interp dir manifest cohort
  match unresolved with
  | [attempt] => do
    checkIntent manifest attempt
    let capacity ← capacitySnapshot dir cohort readback.capacity
    let attemptBytes := (dir.file (labelName attempt.1)).getD []
    let cleanup := cleanupPayload attempt.1 attemptBytes readback capacity
    .ok [capacity, ⟨recordName .cleanup cohort attempt.1.id, fileBytes cleanup⟩]
  | _ => .error (qualificationError "cleanup requires exactly one unresolved attempt for cohort")

/-! ## Runs -/

/-- One call. -/
inductive Call
  | qualify (cohort : Cohort) (build : Build)
  | cleanup (cohort : Cohort) (readback : Readback)

def Call.writes : Call → Except PyErr (List Write)
  | .qualify cohort build => Qualification.qualify interp dir manifest cohort build
  | .cleanup cohort readback => cleanupInterrupted interp dir manifest cohort readback

/-- A call that raises or is killed leaves some of its files, the last of them maybe cut short. -/
inductive Leaves : SetDir → List Write → SetDir → Prop
  | stop (dir : SetDir) (writes : List Write) : Leaves dir writes dir
  | short {dir dir' : SetDir} {write : Write} {rest : List Write} {written : Bytes}
      (hfront : written <+: write.content) (hcreate : dir.create write.name written = some dir') :
      Leaves dir (write :: rest) dir'
  | next {dir dir' dir'' : SetDir} {write : Write} {rest : List Write}
      (hcreate : dir.create write.name write.content = some dir') (hrest : Leaves dir' rest dir'') :
      Leaves dir (write :: rest) dir''

/-- The directories a run of calls on a set that starts empty can leave. -/
inductive Run : SetDir → Prop
  | start {dir : SetDir} (hempty : dir.names = [u "qualification-set.json"]) : Run dir
  | call {dir dir' : SetDir} {call : Call} {writes : List Write} (hrun : Run dir)
      (hcall : call.writes interp dir manifest = .ok writes) (hleaves : Leaves dir writes dir') : Run dir'

end McpTrust.Qualification
