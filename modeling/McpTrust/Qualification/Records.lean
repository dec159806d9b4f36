import McpTrust.Python.Unicode
import McpTrust.Core.Patterns
import McpTrust.Refresh.Policy
import McpTrust.Launch.Readiness

/-! # Records of a qualification set

The files of a set directory are named after what they record: a kind, a cohort
and a digest. A record binds itself by `receipt_digest`.
-/

namespace McpTrust.Qualification

set_option autoImplicit false

open Python Refresh

def qualificationError (message : String) : PyErr := .app "QualificationError" message

def isRefreshError (e : PyErr) : Bool := e.isApp "GradeRefreshError"

inductive Cohort
  | reference
  | liveBatch
  | batch3
  | batch4
  | basicMemory
  deriving DecidableEq

def Cohort.text : Cohort → String
  | reference => "reference"
  | liveBatch => "live-batch"
  | batch3 => "batch3"
  | batch4 => "batch4"
  | basicMemory => "basic-memory"

/-- `COHORTS`. -/
def cohorts : List Cohort := [.reference, .liveBatch, .batch3, .batch4, .basicMemory]

theorem mem_cohorts (cohort : Cohort) : cohort ∈ cohorts := by cases cohort <;> decide

inductive Kind
  | capacity
  | attempt
  | complete
  | cleanup
  | ownership
  deriving DecidableEq

def Kind.text : Kind → String
  | capacity => "capacity"
  | attempt => "attempt"
  | complete => "complete"
  | cleanup => "cleanup"
  | ownership => "ownership"

def Kind.schema : Kind → String
  | capacity => "McpTrustQualificationCapacityReceiptV1"
  | attempt => "McpTrustImageQualificationAttemptV1"
  | complete => "McpTrustImageQualificationCompletionV1"
  | cleanup => "McpTrustImageQualificationCleanupV1"
  | ownership => "McpTrustImageQualificationOwnershipV1"

def kinds : List Kind := [.capacity, .attempt, .complete, .cleanup, .ownership]

/-! ## Names -/

/-- What the name of a record stands for. -/
structure Label where
  kind : Kind
  cohort : Cohort
  id : Str
  deriving DecidableEq

def recordPrefix (kind : Kind) (cohort : Cohort) : Str :=
  u kind.text ++ ch '-' :: u cohort.text ++ [ch '-']

def recordName (kind : Kind) (cohort : Cohort) (id : Str) : Str :=
  recordPrefix kind cohort ++ (id ++ u ".json")

def receiptName (cohort : Cohort) : Str := u cohort.text ++ u ".json"

/-- `_artifact_suffix(path, prefix, cohort)`. -/
def artifactSuffix (kind : Kind) (cohort : Cohort) (name : Str) : Option Str :=
  let start := recordPrefix kind cohort
  let id := (name.drop start.length).take 64
  if isSha256 id && decide (name = recordName kind cohort id) then some id else none

/-- The first kind and cohort the name matches. -/
def labelOf (name : Str) : Option Label :=
  kinds.findSome? fun kind =>
    cohorts.findSome? fun cohort => (artifactSuffix kind cohort name).map fun id => ⟨kind, cohort, id⟩

/-- `{"qualification-set.json", …}`. -/
def isPlainName (name : Str) : Bool :=
  decide (name = u "qualification-set.json") || cohorts.any fun cohort => decide (name = receiptName cohort)

/-! ## The directory -/

/-- A regular file private to the owner, or anything else. -/
inductive Entry
  | file (content : Bytes)
  | unsafeEntry
  deriving DecidableEq

structure SetDir where
  name : Str
  isPrivate : Bool
  entries : List (Str × Entry)
  distinct : (entries.map Prod.fst).Nodup

namespace SetDir

variable (dir : SetDir)

def names : List Str := dir.entries.map Prod.fst

def entry (name : Str) : Option Entry :=
  (dir.entries.find? fun e => decide (e.1 = name)).map Prod.snd

def file (name : Str) : Option Bytes :=
  match dir.entry name with
  | some (.file content) => some content
  | _ => none

end SetDir

/-- `digest_file(path)` of a file that is there. -/
def digestFile (content : Bytes) : Str := digestBytes content

/-- `_unsigned_digest(payload)`. -/
def unsignedDigest (payload : Dict) : Str :=
  digestBytes (canonicalBytes (.obj (payload.filter fun kv => decide (kv.1 ≠ u "receipt_digest"))))

variable (interp : Interpreter) (dir : SetDir)

/-- `_read_bound_json(path, schema=…)`. -/
def readBoundJson (name : Str) (schema : String) : Except PyErr Dict := do
  match dir.file name with
  | none => .error (qualificationError "qualification set file is unsafe")
  | some content => do
    let payload ← catching (loadJson interp (some content)) isRefreshError
      (.error (qualificationError "qualification set file is invalid"))
    match payload with
    | .obj fields =>
      if (Dict.get fields "schema").isStr schema &&
          Json.pyEq (Dict.get fields "receipt_digest") (.str (unsignedDigest fields)) then
        .ok fields
      else .error (qualificationError "qualification set file integrity is invalid")
    | _ => .error (qualificationError "qualification set file integrity is invalid")

/-- `_safe_set_child(root, name, label=…)`. -/
def safeSetChild : Json → Except PyErr Str
  | .str name =>
    if name = [] ∨ name = u "." ∨ name = u ".." ∨ ch '/' ∈ name ∨ ch '\\' ∈ name then
      .error (qualificationError "not one contained set file")
    else .ok name
  | _ => .error (qualificationError "not one contained set file")

/-- `_set_file_names(root)`. -/
def setFileNames : Except PyErr (List Str) :=
  if dir.isPrivate && dir.entries.all fun e => decide (e.2 ≠ .unsafeEntry) then .ok dir.names
  else .error (qualificationError "qualification set contains unsafe entry")

/-! ## Values in records -/

/-- `s.removeprefix("sha256:")`. -/
def removeDigestPrefix (s : Str) : Str := if s.take 7 = u "sha256:" then s.drop 7 else s

/-- `isinstance(value, str)` and `_HEX_DIGEST.fullmatch(value.removeprefix("sha256:"))`. -/
def isHexDigest : Json → Bool
  | .str s => isSha256 (removeDigestPrefix s)
  | _ => false

/-- `\d+` at the head, and what follows it. -/
def decimals (s : Str) : Option Str :=
  if (s.takeWhile isDecimal).isEmpty then none else some (s.dropWhile isDecimal)

def dot : Str → Option Str
  | c :: rest => if c = ch '.' then some rest else none
  | [] => none

/-- `(?:[-+][0-9A-Za-z][0-9A-Za-z.-]*)?` to the end. -/
def isVersionTail : Str → Bool
  | [] => true
  | sign :: c :: rest =>
    decide (sign = ch '-' ∨ sign = ch '+') && isAlnum c &&
      rest.all fun d => isAlnum d || decide (d = ch '.') || decide (d = ch '-')
  | _ => false

/-- `_STABLE_VERSION.fullmatch(version)`. -/
def isStableVersion (version : Str) : Bool :=
  let body := if version.head? = some (ch 'v') then version.tail else version
  match decimals body >>= dot >>= decimals >>= dot >>= decimals with
  | some tail => isVersionTail tail
  | none => false

/-- `_stable_image_build_tool_versions(value)`. -/
def stableImageBuildToolVersions : Json → Bool
  | .obj fields =>
    Dict.keysEq fields ["docker_client", "docker_server", "docker_buildx", "buildkit_colima"] &&
      fields.all fun kv =>
        match kv.2 with
        | .str version =>
          isStableVersion version &&
            decide (kv.1 = u "docker_buildx" ∨ kv.1 = u "buildkit_colima" ↔ version.head? = some (ch 'v'))
        | _ => false
  | _ => false

end McpTrust.Qualification
