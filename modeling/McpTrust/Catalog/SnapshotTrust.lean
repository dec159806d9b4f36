import McpTrust.Python.Base64
import McpTrust.Python.JsonEncode
import McpTrust.Python.Sha256
import McpTrust.Catalog.RuntimeSnapshot
import McpTrust.Catalog.GradeBinding

/-! # Offline authentication of catalog snapshots

`catalog/snapshot_trust.py`. A validated document is read once into a record that
keeps the raw value it came from. Ed25519 verification and the interpreter's
recursion limit are the parameters.
-/

namespace McpTrust.SnapshotTrust

set_option autoImplicit false

open Python

/-- `verify public signature message` is whether `Ed25519PublicKey.verify` returns. -/
structure Env where
  interp : Interpreter
  ed25519Verify : Bytes → Bytes → Bytes → Bool

def rootSchema : String := "mcp-trust-snapshot-root.v1"

def statementSchema : String := "mcp-trust-snapshot-statement.v1"

def checkpointSchema : String := "mcp-trust-snapshot-checkpoint.v1"

def rootUpdateSchema : String := "mcp-trust-snapshot-root-update.v1"

def verificationSchema : String := "mcp-trust-snapshot-verification.v1"

def rootUpdateVerificationSchema : String := "mcp-trust-root-update-verification.v1"

def snapshotMediaType : String := "application/vnd.mcp-trust.catalog+json"

def snapshotSchemaVersion : ℤ := 2

def algorithm : String := "ed25519"

def maxMetadataBytes : Nat := 256 * 1024

def maxSnapshotBytes : Nat := 32 * 1024 * 1024

def maxJsonNodes : Nat := 10000

def maxJsonStringChars : Nat := 65536

def maxKeys : Nat := 32

def maxSignatures : Nat := 32

def maxLifetimeSeconds : ℤ := 31 * 24 * 60 * 60

def maxClockSkewSeconds : ℤ := 60 * 60

def rootKeys : List String :=
  ["schema", "root_version", "publisher", "minimum_publication_id", "max_snapshot_lifetime_seconds",
    "max_clock_skew_seconds", "snapshot_threshold", "recovery_threshold", "keys"]

def rootKeyKeys : List String :=
  ["key_id", "algorithm", "public_key", "roles", "valid_from_publication_id",
    "valid_through_publication_id"]

def signedStatementKeys : List String :=
  ["publisher_id", "root_version", "publication_id", "issued_at", "expires_at", "snapshot", "previous"]

def snapshotSubjectKeys : List String := ["media_type", "schema_version", "length", "sha256"]

def previousKeys : List String := ["publication_id", "snapshot_sha256", "statement_sha256"]

def checkpointKeys : List String :=
  ["schema", "publisher_id", "root_version", "root_sha256", "publication_id", "snapshot_sha256",
    "statement_sha256"]

def rootUpdateSignedKeys : List String :=
  ["publisher_id", "previous_root_version", "previous_root_sha256", "issued_at", "expires_at",
    "new_root"]

/-! ## Strict JSON -/

def rejectDuplicateKeys (pairs : Dict) : Except PyErr Json :=
  if (Dict.keys pairs).Nodup then .ok (.obj pairs) else .error .valueError

def boundedInt (text : Str) : Except PyErr Json :=
  if 64 < text.length then .error .valueError else (pyInt text).map .int

def boundedFloat (text : Str) : Except PyErr Json :=
  if 64 < text.length then .error .valueError
  else if (readFloat text).isFinite then .ok (.float (readFloat text))
  else .error .valueError

def strictHooks : Hooks where
  parseInt := boundedInt
  parseFloat := boundedFloat
  parseConstant _ := .error .valueError
  objectPairs := rejectDuplicateKeys

/-- `unicodedata.category(character) in {"Cc", "Cf", "Cs"}`. -/
def isUnsafeChar (c : CodePoint) : Bool := isControl c || isFormat c || isSurrogate c

def scalarIsSafe : Json → Bool
  | .str s => decide (s.length ≤ maxJsonStringChars) && !s.any isUnsafeChar
  | .float x => x.isFinite
  | _ => true

/-- The loop over the pending values; the fuel is how many more may be visited. -/
def valuesAreSafeLoop : Nat → List Json → Bool
  | _, [] => true
  | 0, _ :: _ => false
  | visits + 1, current :: pending =>
    match current with
    | .obj fields =>
      valuesAreSafeLoop visits (fields.map Prod.snd ++ (fields.map (fun kv => .str kv.1) ++ pending))
    | .arr items => valuesAreSafeLoop visits (items ++ pending)
    | scalar => scalarIsSafe scalar && valuesAreSafeLoop visits pending

def valuesAreSafe (value : Json) : Bool := valuesAreSafeLoop maxJsonNodes [value]

def strictJson (interp : Interpreter) (raw : Bytes) : Except PyErr Json := do
  if maxMetadataBytes < raw.length then .error .valueError
  let text ← decodeUtf8 raw
  let value ← catching (loads strictHooks interp.recursionLimit text) (· = .recursionError)
    (.error .valueError)
  if valuesAreSafe value then .ok value else .error .valueError

/-- `except (UnicodeError, ValueError, TypeError, MemoryError)`. -/
def isLoadError (e : PyErr) : Bool :=
  e.isValueError || decide (e = .typeError) || decide (e = .memoryError)

/-! ## Canonical bytes -/

def canonicalStyle : Style where
  ensureAscii := false
  indent := none
  itemPad := false
  keyPad := false
  sortKeys := true

def rootStyle : Style where
  ensureAscii := false
  indent := some 2
  itemPad := false
  keyPad := true
  sortKeys := true

def hasNonFinite (value : Json) : Bool :=
  value.walk.any fun | .float x => !x.isFinite | _ => false

/-- `json.dumps(value, allow_nan=False, ...).encode("utf-8")`. -/
def dumpsUtf8 (st : Style) (value : Json) : Except PyErr Bytes :=
  if hasNonFinite value then .error .valueError else encodeUtf8 (dumps st value)

def canonicalSignedBytes (value : Json) : Except PyErr Bytes := dumpsUtf8 canonicalStyle value

def canonicalRootBytes (value : Json) : Except PyErr Bytes :=
  (dumpsUtf8 rootStyle value).map (· ++ [10])

def statementSha256 (signed : Json) : Except PyErr Str := (canonicalSignedBytes signed).map sha256Hex

/-! ## Field readers -/

/-- `_is_int(value, minimum=minimum)`. -/
def isInt (minimum : ℤ) : Json → Option ℤ
  | .int n => if minimum ≤ n then some n else none
  | _ => none

def decodeBase64url (expectedLength : Nat) : Json → Option Bytes
  | .str value =>
    if !value.isEmpty && value.all isBase64Url then
      (b64decode value).filter fun decoded => decide (decoded.length = expectedLength)
    else none
  | _ => none

/-- A string that matches the pattern. -/
def matching (pattern : Str → Bool) : Json → Option Str
  | .str s => if pattern s then some s else none
  | _ => none

/-- The UTC time of an ISO timestamp whose offset is zero. -/
def utcDatetime : Json → Option DateTime
  | .str s => (fromisoformat (expandZulu s)).filter fun d => decide (d.offset = some 0)
  | _ => none

/-! ## The trust root -/

inductive Role
  | snapshot
  | recovery
  deriving DecidableEq

def Role.name : Role → String
  | .snapshot => "snapshot"
  | .recovery => "recovery"

structure RootKey where
  keyId : Str
  publicKey : Bytes
  role : Role
  validFrom : ℤ
  validThrough : Option ℤ

structure Root where
  value : Dict
  rootVersion : ℤ
  publisherId : Str
  minimumPublicationId : ℤ
  maxSnapshotLifetimeSeconds : ℤ
  maxClockSkewSeconds : ℤ
  snapshotThreshold : ℤ
  recoveryThreshold : ℤ
  keys : List RootKey

def Root.threshold (root : Root) : Role → ℤ
  | .snapshot => root.snapshotThreshold
  | .recovery => root.recoveryThreshold

/-- `value in {"snapshot", "recovery"}`; a list or an object is not hashable. -/
def roleOf (value : Json) : Except PyErr (Option Role) :=
  if !value.hashable then .error .typeError
  else if value.isStr "snapshot" then .ok (some .snapshot)
  else if value.isStr "recovery" then .ok (some .recovery)
  else .ok none

def validThroughOf (validFrom : ℤ) (value : Json) : Option (Option ℤ) :=
  if value.isNull then some none else (isInt validFrom value).map some

def validateRootKey (seen : List Str) : Json → Except PyErr (Option RootKey)
  | .obj key =>
    if !Dict.keysEq key rootKeyKeys then .ok none
    else
      match matching isKeyId (Dict.get key "key_id"), decodeBase64url 32 (Dict.get key "public_key"),
        Dict.get key "roles" with
      | some keyId, some publicKey, .arr [role] =>
        if !(Dict.get key "algorithm").isStr algorithm then .ok none
        else if keyId ≠ u "sha256:" ++ sha256Hex publicKey then .ok none
        else do
          match ← roleOf role, isInt 1 (Dict.get key "valid_from_publication_id") with
          | some role, some validFrom =>
            match validThroughOf validFrom (Dict.get key "valid_through_publication_id") with
            | some validThrough =>
              if keyId ∈ seen then .ok none
              else .ok (some { keyId, publicKey, role, validFrom, validThrough })
            | none => .ok none
          | _, _ => .ok none
      | _, _, _ => .ok none
  | _ => .ok none

def validateRootKeys : List Str → List Json → Except PyErr (Option (List RootKey))
  | _, [] => .ok (some [])
  | seen, value :: rest => do
    match ← validateRootKey seen value with
    | none => .ok none
    | some key => (validateRootKeys (key.keyId :: seen) rest).map fun keys => keys.map (key :: ·)

def publisherIdOf : Json → Option Str
  | .obj publisher =>
    if Dict.keysEq publisher ["id", "name"] then do
      let id ← matching isPublisherId (Dict.get publisher "id")
      let _ ← matching (fun name => !name.isEmpty) (Dict.get publisher "name")
      some id
    else none
  | _ => none

/-- The fields of a root apart from its keys, which are returned as they stand. -/
def rootFields (value : Dict) : Option (Root × List Json) := do
  guard (Dict.keysEq value rootKeys = true)
  guard ((Dict.get value "schema").isStr rootSchema = true)
  let rootVersion ← isInt 1 (Dict.get value "root_version")
  let publisherId ← publisherIdOf (Dict.get value "publisher")
  let minimumPublicationId ← isInt 1 (Dict.get value "minimum_publication_id")
  let lifetime ← isInt 1 (Dict.get value "max_snapshot_lifetime_seconds")
  guard (lifetime ≤ maxLifetimeSeconds)
  let skew ← isInt 0 (Dict.get value "max_clock_skew_seconds")
  guard (skew ≤ SnapshotTrust.maxClockSkewSeconds)
  let snapshotThreshold ← isInt 1 (Dict.get value "snapshot_threshold")
  let recoveryThreshold ← isInt 1 (Dict.get value "recovery_threshold")
  match Dict.get value "keys" with
  | .arr keys =>
    if 2 ≤ keys.length ∧ keys.length ≤ maxKeys then
      some ({ value, rootVersion, publisherId, minimumPublicationId
              maxSnapshotLifetimeSeconds := lifetime, maxClockSkewSeconds := skew
              snapshotThreshold, recoveryThreshold, keys := [] }, keys)
    else none
  | _ => none

def countRole (role : Role) (keys : List RootKey) : Nat := keys.countP fun key => key.role = role

def validateRoot : Json → Except PyErr (Option Root)
  | .obj value =>
    match rootFields value with
    | none => .ok none
    | some (root, keyValues) => do
      match ← validateRootKeys [] keyValues with
      | none => .ok none
      | some keys =>
        if root.snapshotThreshold > countRole .snapshot keys ∨
            root.recoveryThreshold > countRole .recovery keys then .ok none
        else .ok (some { root with keys })
  | _ => .ok none

def loadRoot (interp : Interpreter) (raw : Bytes) : Except PyErr (Option Root) :=
  catching (do validateRoot (← strictJson interp raw)) isLoadError (.ok none)

/-! ## The checkpoint -/

structure Checkpoint where
  publisherId : Str
  rootVersion : ℤ
  rootSha256 : Str
  publicationId : ℤ
  snapshotSha256 : Str
  statementSha256 : Str
  deriving DecidableEq

def Checkpoint.fields (c : Checkpoint) : Dict :=
  [(u "schema", .str (u checkpointSchema)), (u "publisher_id", .str c.publisherId),
    (u "root_version", .int c.rootVersion), (u "root_sha256", .str c.rootSha256),
    (u "publication_id", .int c.publicationId), (u "snapshot_sha256", .str c.snapshotSha256),
    (u "statement_sha256", .str c.statementSha256)]

def validateCheckpoint : Json → Option Checkpoint
  | .obj value => do
    guard (Dict.keysEq value checkpointKeys = true)
    guard ((Dict.get value "schema").isStr checkpointSchema = true)
    let publisherId ← matching isPublisherId (Dict.get value "publisher_id")
    let rootVersion ← isInt 1 (Dict.get value "root_version")
    let rootSha256 ← matching isSha256 (Dict.get value "root_sha256")
    let publicationId ← isInt 1 (Dict.get value "publication_id")
    let snapshotSha256 ← matching isSha256 (Dict.get value "snapshot_sha256")
    let statementSha256 ← matching isSha256 (Dict.get value "statement_sha256")
    some { publisherId, rootVersion, rootSha256, publicationId, snapshotSha256, statementSha256 }
  | _ => none

def loadCheckpoint (interp : Interpreter) (raw : Option Bytes) : Except PyErr (Option Checkpoint) :=
  match raw with
  | none => .ok none
  | some raw => catching (do .ok (validateCheckpoint (← strictJson interp raw))) isLoadError (.ok none)

def checkpointMatchesRoot (checkpoint : Checkpoint) (root : Root) (rootRaw : Bytes) : Bool :=
  decide (checkpoint.publisherId = root.publisherId) &&
    decide (checkpoint.rootVersion = root.rootVersion) &&
    decide (checkpoint.rootSha256 = sha256Hex rootRaw)

/-! ## Signed documents -/

structure SignatureEntry where
  keyId : Str
  signature : Bytes

def validateSignature : Json → Option SignatureEntry
  | .obj entry => do
    guard (Dict.keysEq entry ["key_id", "signature"] = true)
    let keyId ← matching isKeyId (Dict.get entry "key_id")
    let signature ← decodeBase64url 64 (Dict.get entry "signature")
    some { keyId, signature }
  | _ => none

def validateSignatures : Json → Option (List SignatureEntry)
  | .arr entries =>
    if 1 ≤ entries.length ∧ entries.length ≤ maxSignatures then entries.mapM validateSignature
    else none
  | _ => none

/-- The identity of a publication as the next one refers to it. -/
structure Previous where
  publicationId : ℤ
  snapshotSha256 : Str
  statementSha256 : Str
  deriving DecidableEq

structure Subject where
  length : ℤ
  sha256 : Str

/-- A validated `signed` object of a statement, with the raw value the signatures cover. -/
structure Signed where
  value : Dict
  publisherId : Str
  rootVersion : ℤ
  publicationId : ℤ
  issuedAt : DateTime
  expiresAt : DateTime
  snapshot : Subject
  previous : Option Previous

def validateSubject : Json → Option Subject
  | .obj subject => do
    guard (Dict.keysEq subject snapshotSubjectKeys = true)
    guard ((Dict.get subject "media_type").isStr snapshotMediaType = true)
    guard ((Dict.get subject "schema_version").pyEq (.int snapshotSchemaVersion) = true)
    let length ← isInt 0 (Dict.get subject "length")
    guard (length ≤ maxSnapshotBytes)
    let sha256 ← matching isSha256 (Dict.get subject "sha256")
    some { length, sha256 }
  | _ => none

def validatePrevious : Json → Option (Option Previous)
  | .null => some none
  | .obj previous => do
    guard (Dict.keysEq previous previousKeys = true)
    let publicationId ← isInt 1 (Dict.get previous "publication_id")
    let snapshotSha256 ← matching isSha256 (Dict.get previous "snapshot_sha256")
    let statementSha256 ← matching isSha256 (Dict.get previous "statement_sha256")
    some (some { publicationId, snapshotSha256, statementSha256 })
  | _ => none

def validateSigned : Json → Option Signed
  | .obj signed => do
    guard (Dict.keysEq signed signedStatementKeys = true)
    let publisherId ← matching isPublisherId (Dict.get signed "publisher_id")
    let rootVersion ← isInt 1 (Dict.get signed "root_version")
    let publicationId ← isInt 1 (Dict.get signed "publication_id")
    let issuedAt ← utcDatetime (Dict.get signed "issued_at")
    let expiresAt ← utcDatetime (Dict.get signed "expires_at")
    let snapshot ← validateSubject (Dict.get signed "snapshot")
    let previous ← validatePrevious (Dict.get signed "previous")
    some { value := signed, publisherId, rootVersion, publicationId, issuedAt, expiresAt, snapshot
           previous }
  | _ => none

def validateStatement : Json → Option (Signed × List SignatureEntry)
  | .obj value => do
    guard (Dict.keysEq value ["schema", "signed", "signatures"] = true)
    guard ((Dict.get value "schema").isStr statementSchema = true)
    let signed ← validateSigned (Dict.get value "signed")
    let signatures ← validateSignatures (Dict.get value "signatures")
    some (signed, signatures)
  | _ => none

/-! ## Signatures -/

def keyIsAuthorized (key : RootKey) (role : Role) (publicationId : ℤ) : Bool :=
  decide (key.role = role) && decide (key.validFrom ≤ publicationId) &&
    key.validThrough.all fun last => decide (publicationId ≤ last)

structure SignatureState where
  seen : List Str
  verified : List Str
  reasons : List String

def SignatureState.refuse (state : SignatureState) (reason : String) : SignatureState :=
  { state with reasons := state.reasons ++ [reason] }

section Signatures

variable (env : Env) (root : Root) (role : Role) (publicationId : ℤ) (signedBytes : Bytes)

def Root.key (root : Root) (keyId : Str) : Option RootKey :=
  root.keys.find? fun key => decide (key.keyId = keyId)

/-- One pass of the loop over the signatures. -/
def verifySignature (state : SignatureState) (entry : SignatureEntry) : SignatureState :=
  if entry.keyId ∈ state.seen then state.refuse "SIGNATURE_DUPLICATE"
  else
    let state := { state with seen := entry.keyId :: state.seen }
    match root.key entry.keyId with
    | none => state.refuse "UNKNOWN_SIGNER"
    | some key =>
      if !keyIsAuthorized key role publicationId then state.refuse "SIGNER_NOT_AUTHORIZED"
      else if !env.ed25519Verify key.publicKey entry.signature signedBytes then
        state.refuse "SIGNATURE_INVALID"
      else { state with verified := state.verified ++ [entry.keyId] }

def thresholdReason : Role → String
  | .snapshot => "SIGNATURE_THRESHOLD_NOT_MET"
  | .recovery => "RECOVERY_THRESHOLD_NOT_MET"

def countSignatures (signatures : List SignatureEntry) : List Str × List String :=
  let state := signatures.foldl (verifySignature env root role publicationId signedBytes) ⟨[], [], []⟩
  (sortedStr state.verified, state.reasons ++
    if (state.verified.length : ℤ) < root.threshold role then [thresholdReason role] else [])

def verifySignatures (signed : Json) (signatures : List SignatureEntry) :
    Except PyErr (List Str × List String) := do
  let signedBytes ← canonicalSignedBytes signed
  .ok (countSignatures env root role publicationId signedBytes signatures)

end Signatures

/-! ## Snapshot verification -/

open RuntimeSnapshot (reason)

/-- The reasons of the three time checks, under the names a caller gives them. -/
def timeReasons (root : Root) (now issuedAt expiresAt : DateTime)
    (notYet expired lifetimeInvalid : String) : List String :=
  let lifetime := DateTime.totalSeconds (expiresAt.instant - issuedAt.instant)
  reason (fl (now.timestamp + root.maxClockSkewSeconds) < issuedAt.timestamp) notYet ++
  reason (expiresAt.instant ≤ now.instant) expired ++
  reason (lifetime ≤ 0 ∨ (root.maxSnapshotLifetimeSeconds : ℚ) < lifetime) lifetimeInvalid

structure VerifiedSnapshot where
  publisherId : Str
  rootVersion : ℤ
  publicationId : ℤ
  issuedAt : Json
  expiresAt : Json
  snapshotSha256 : Str
  statementSha256 : Str
  signerKeyIds : List Str
  nextCheckpoint : Checkpoint

inductive SnapshotResult
  | unknown (reasonCodes : List String)
  | verified (result : VerifiedSnapshot)

/-- `_unknown(schema, reasons)`. -/
def unknownJson (schema : String) (reasonCodes : List String) : Dict :=
  [(u "schema", .str (u schema)), (u "status", .str (u "UNKNOWN")),
    (u "reason_codes", .arr (reasonCodes.map fun code => .str (u code)))]

/-- The returned dictionary. -/
def SnapshotResult.toJson : SnapshotResult → Dict
  | .unknown codes => unknownJson verificationSchema codes
  | .verified r =>
    [(u "schema", .str (u verificationSchema)), (u "status", .str (u "VERIFIED")),
      (u "reason_codes", .arr []), (u "publisher_id", .str r.publisherId),
      (u "root_version", .int r.rootVersion), (u "publication_id", .int r.publicationId),
      (u "issued_at", r.issuedAt), (u "expires_at", r.expiresAt),
      (u "snapshot_sha256", .str r.snapshotSha256), (u "statement_sha256", .str r.statementSha256),
      (u "signer_key_ids", .arr (r.signerKeyIds.map .str)),
      (u "next_checkpoint", .obj r.nextCheckpoint.fields)]

/-- Whether the catalog parser admits the bytes; other exceptions go through. -/
def structureReasons (interp : Interpreter) (snapshotBytes : Bytes) : Except PyErr (List String) :=
  catching
    (do
      let text ← decodeUtf8 snapshotBytes
      let _ ← RuntimeSnapshot.parseCatalogSnapshot interp text
      .ok [])
    (fun e => e.isApp "CatalogSnapshotValidationError" || decide (e = .unicodeError))
    (.ok ["SNAPSHOT_STRUCTURAL_INVALID"])

def Checkpoint.previous (c : Checkpoint) : Previous :=
  ⟨c.publicationId, c.snapshotSha256, c.statementSha256⟩

/-- First use, replay, advance and rollback against the checkpoint. -/
def chainReasons (root : Root) (checkpoint : Option Checkpoint) (signed : Signed)
    (snapshotSha256 statementSha256 : Str) : List String :=
  match checkpoint with
  | none =>
    reason (signed.publicationId ≠ root.minimumPublicationId) "FIRST_USE_PUBLICATION_MISMATCH" ++
    reason signed.previous.isSome "PUBLICATION_CHAIN_MISMATCH"
  | some checkpoint =>
    if signed.publicationId < checkpoint.publicationId then ["PUBLICATION_ROLLBACK"]
    else if signed.publicationId = checkpoint.publicationId then
      reason (checkpoint.snapshotSha256 ≠ snapshotSha256 ∨ checkpoint.statementSha256 ≠ statementSha256)
        "PUBLICATION_ID_CONFLICT"
    else reason (signed.previous ≠ some checkpoint.previous) "PUBLICATION_CHAIN_MISMATCH"

def currentReasons (required : Bool) (checkpoint : Option Checkpoint) (signed : Signed) :
    List String :=
  if required then
    match checkpoint with
    | none => ["CHECKPOINT_REQUIRED"]
    | some checkpoint =>
      reason (checkpoint.publicationId < signed.publicationId) "CHECKPOINT_ADVANCE_REQUIRED"
  else []

/-- The checks of a well-formed statement against an admitted root and checkpoint. -/
def judgeSnapshot (env : Env) (snapshotBytes trustRootBytes : Bytes) (root : Root)
    (checkpoint : Option Checkpoint) (requireCurrentCheckpoint : Bool) (now : DateTime)
    (signed : Signed) (signatures : List SignatureEntry) : Except PyErr SnapshotResult := do
  let now ← now.assumeUtc.astimezoneUtc
  let statementSha256 ← SnapshotTrust.statementSha256 (.obj signed.value)
  let snapshotSha256 := sha256Hex snapshotBytes
  let structural ← structureReasons env.interp snapshotBytes
  let (signerKeyIds, signatureReasons) ←
    verifySignatures env root .snapshot signed.publicationId (.obj signed.value) signatures
  let reasons :=
    reason (signed.publisherId ≠ root.publisherId) "PUBLISHER_ID_MISMATCH" ++
    reason (signed.rootVersion ≠ root.rootVersion) "ROOT_VERSION_MISMATCH" ++
    reason (signed.publicationId < root.minimumPublicationId) "PUBLICATION_BELOW_ROOT_FLOOR" ++
    reason (maxSnapshotBytes < snapshotBytes.length) "SNAPSHOT_STRUCTURAL_INVALID" ++
    reason (signed.snapshot.length ≠ snapshotBytes.length ∨ signed.snapshot.sha256 ≠ snapshotSha256)
      "SNAPSHOT_DIGEST_MISMATCH" ++
    structural ++
    timeReasons root now signed.issuedAt signed.expiresAt "SNAPSHOT_NOT_YET_VALID"
      "SNAPSHOT_EXPIRED" "SNAPSHOT_LIFETIME_INVALID" ++
    chainReasons root checkpoint signed snapshotSha256 statementSha256 ++
    currentReasons requireCurrentCheckpoint checkpoint signed ++ signatureReasons
  if !reasons.isEmpty then .ok (.unknown (sortedNames reasons))
  else
    .ok (.verified
      { publisherId := root.publisherId
        rootVersion := root.rootVersion
        publicationId := signed.publicationId
        issuedAt := Dict.get signed.value "issued_at"
        expiresAt := Dict.get signed.value "expires_at"
        snapshotSha256, statementSha256, signerKeyIds
        nextCheckpoint :=
          { publisherId := root.publisherId
            rootVersion := root.rootVersion
            rootSha256 := sha256Hex trustRootBytes
            publicationId := signed.publicationId
            snapshotSha256, statementSha256 } })

/-- The root and checkpoint a verifier starts from, or the reason it stops. -/
def admitRoot (interp : Interpreter) (rootBytes : Bytes) (expectedRootSha256 : Option Str) :
    Except PyErr (Except String Root) :=
  match expectedRootSha256 with
  | none => .ok (.error "TRUST_ROOT_DIGEST_REQUIRED")
  | some expected =>
    if !isSha256 expected || decide (sha256Hex rootBytes ≠ expected) then
      .ok (.error "TRUST_ROOT_DIGEST_MISMATCH")
    else do
      match ← loadRoot interp rootBytes with
      | none => .ok (.error "TRUST_ROOT_INVALID")
      | some root => .ok (.ok root)

def verifySnapshot (env : Env) (snapshotBytes statementBytes trustRootBytes : Bytes)
    (checkpointBytes : Option Bytes) (expectedRootSha256 : Option Str)
    (requireCurrentCheckpoint : Bool) (now : DateTime) : Except PyErr SnapshotResult := do
  match ← admitRoot env.interp trustRootBytes expectedRootSha256 with
  | .error code => .ok (.unknown [code])
  | .ok root =>
    let checkpoint ← loadCheckpoint env.interp checkpointBytes
    if checkpointBytes.isSome && checkpoint.isNone then .ok (.unknown ["CHECKPOINT_INVALID"])
    else if checkpoint.any fun c => !checkpointMatchesRoot c root trustRootBytes then
      .ok (.unknown ["CHECKPOINT_ROOT_MISMATCH"])
    else
      let loaded ← catching ((strictJson env.interp statementBytes).map some) isLoadError (.ok none)
      match loaded.bind validateStatement with
      | none => .ok (.unknown ["STATEMENT_INVALID"])
      | some (signed, signatures) =>
        judgeSnapshot env snapshotBytes trustRootBytes root checkpoint requireCurrentCheckpoint now
          signed signatures

/-! ## Root rotation -/

structure UpdateSigned where
  value : Dict
  publisherId : Str
  previousRootVersion : ℤ
  previousRootSha256 : Str
  issuedAt : DateTime
  expiresAt : DateTime
  newRoot : Json

def validateUpdateSigned : Json → Option UpdateSigned
  | .obj signed => do
    guard (Dict.keysEq signed rootUpdateSignedKeys = true)
    let publisherId ← matching isPublisherId (Dict.get signed "publisher_id")
    let previousRootVersion ← isInt 1 (Dict.get signed "previous_root_version")
    let previousRootSha256 ← matching isSha256 (Dict.get signed "previous_root_sha256")
    let issuedAt ← utcDatetime (Dict.get signed "issued_at")
    let expiresAt ← utcDatetime (Dict.get signed "expires_at")
    some { value := signed, publisherId, previousRootVersion, previousRootSha256, issuedAt, expiresAt
           newRoot := Dict.get signed "new_root" }
  | _ => none

def validateRootUpdate : Json → Option (UpdateSigned × List SignatureEntry)
  | .obj value => do
    guard (Dict.keysEq value ["schema", "signed", "signatures"] = true)
    guard ((Dict.get value "schema").isStr rootUpdateSchema = true)
    let signed ← validateUpdateSigned (Dict.get value "signed")
    let signatures ← validateSignatures (Dict.get value "signatures")
    some (signed, signatures)
  | _ => none

structure VerifiedRootUpdate where
  publisherId : Str
  previousRootVersion : ℤ
  newRootVersion : ℤ
  recoverySignerKeyIds : List Str
  newRoot : Json
  newRootJson : Str
  nextCheckpoint : Checkpoint

inductive RootUpdateResult
  | unknown (reasonCodes : List String)
  | verified (result : VerifiedRootUpdate)

/-- The returned dictionary. -/
def RootUpdateResult.toJson : RootUpdateResult → Dict
  | .unknown codes => unknownJson rootUpdateVerificationSchema codes
  | .verified r =>
    [(u "schema", .str (u rootUpdateVerificationSchema)), (u "status", .str (u "VERIFIED")),
      (u "reason_codes", .arr []), (u "publisher_id", .str r.publisherId),
      (u "previous_root_version", .int r.previousRootVersion),
      (u "new_root_version", .int r.newRootVersion),
      (u "recovery_signer_key_ids", .arr (r.recoverySignerKeyIds.map .str)),
      (u "new_root", r.newRoot), (u "new_root_json", .str r.newRootJson),
      (u "next_checkpoint", .obj r.nextCheckpoint.fields)]

/-- A new root may not lower the floor below the checkpoint. -/
def rollbackReasons (checkpoint : Checkpoint) : Json → List String
  | .obj newRoot =>
    reason (isInt checkpoint.publicationId (Dict.get newRoot "minimum_publication_id")).isNone
      "ROOT_UPDATE_ROLLBACK"
  | _ => []

def newRootReasons (currentRoot : Root) : Option Root → List String
  | none => ["ROOT_UPDATE_INVALID"]
  | some newRoot =>
    reason (newRoot.publisherId ≠ currentRoot.publisherId) "PUBLISHER_ID_MISMATCH" ++
    reason (newRoot.rootVersion ≠ currentRoot.rootVersion + 1) "ROOT_VERSION_MISMATCH"

/-- The checks of a well-formed update against the current root and checkpoint. -/
def judgeRootUpdate (env : Env) (currentRootBytes : Bytes) (currentRoot : Root)
    (checkpoint : Checkpoint) (now : DateTime) (signed : UpdateSigned)
    (signatures : List SignatureEntry) : Except PyErr RootUpdateResult := do
  let now ← now.assumeUtc.astimezoneUtc
  let newRoot ← validateRoot signed.newRoot
  let (signerKeyIds, signatureReasons) ←
    verifySignatures env currentRoot .recovery checkpoint.publicationId (.obj signed.value) signatures
  let reasons :=
    timeReasons currentRoot now signed.issuedAt signed.expiresAt "ROOT_UPDATE_NOT_YET_VALID"
      "ROOT_UPDATE_EXPIRED" "ROOT_UPDATE_LIFETIME_INVALID" ++
    reason (signed.publisherId ≠ currentRoot.publisherId) "PUBLISHER_ID_MISMATCH" ++
    reason (signed.previousRootVersion ≠ currentRoot.rootVersion) "ROOT_VERSION_MISMATCH" ++
    reason (signed.previousRootSha256 ≠ sha256Hex currentRootBytes) "ROOT_DIGEST_MISMATCH" ++
    rollbackReasons checkpoint signed.newRoot ++ newRootReasons currentRoot newRoot ++
    signatureReasons
  match reasons, newRoot with
  | [], some newRoot => do
    let newRootBytes ← canonicalRootBytes (.obj newRoot.value)
    let newRootJson ← decodeUtf8 newRootBytes
    .ok (.verified
      { publisherId := currentRoot.publisherId
        previousRootVersion := currentRoot.rootVersion
        newRootVersion := newRoot.rootVersion
        recoverySignerKeyIds := signerKeyIds
        newRoot := .obj newRoot.value
        newRootJson
        nextCheckpoint :=
          { checkpoint with
            rootVersion := newRoot.rootVersion
            rootSha256 := sha256Hex newRootBytes } })
  | reasons, _ => .ok (.unknown (sortedNames reasons))

def verifyRootUpdate (env : Env) (currentRootBytes updateBytes checkpointBytes : Bytes)
    (expectedRootSha256 : Option Str) (now : DateTime) : Except PyErr RootUpdateResult := do
  match ← admitRoot env.interp currentRootBytes expectedRootSha256 with
  | .error code => .ok (.unknown [code])
  | .ok currentRoot =>
    match ← loadCheckpoint env.interp (some checkpointBytes) with
    | none => .ok (.unknown ["CHECKPOINT_INVALID"])
    | some checkpoint =>
      if !checkpointMatchesRoot checkpoint currentRoot currentRootBytes then
        .ok (.unknown ["CHECKPOINT_ROOT_MISMATCH"])
      else
        let loaded ← catching ((strictJson env.interp updateBytes).map some) isLoadError (.ok none)
        match loaded.bind validateRootUpdate with
        | none => .ok (.unknown ["ROOT_UPDATE_INVALID"])
        | some (signed, signatures) =>
          judgeRootUpdate env currentRootBytes currentRoot checkpoint now signed signatures

end McpTrust.SnapshotTrust
