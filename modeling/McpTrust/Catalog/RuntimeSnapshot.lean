import McpTrust.Python.DateTime
import McpTrust.Python.JsonDecode
import McpTrust.Python.Unicode
import McpTrust.Python.Utf8
import McpTrust.Core.Patterns
import McpTrust.Engine.Cleanup

/-! # Admission of the packaged catalog snapshot

`parse_catalog_snapshot` of `catalog/runtime_snapshot.py`. A reason code is a
`String`; each check returns the codes it adds.
-/

namespace McpTrust.RuntimeSnapshot

set_option autoImplicit false

open Python

def schemaVersion : ℤ := 2

def grades : List String := ["A", "B", "C", "D", "F"]

def transparencyLevels : List String := ["high", "medium", "low"]

def sourceKinds : List String := ["npm", "pypi", "git", "binary", "remote"]

def findingSeverities : List String := ["critical", "high", "medium", "low", "info"]

def scanModes : List String :=
  ["mcpaudit-local-network-off", "mcpaudit-local-network-unknown",
    "mcpaudit-local-provenance-unknown", "mcpaudit-remote-live-network"]

def gradeChangeCauses : List String :=
  ["surface-changed", "engine-changed", "score-moved", "undetermined", "no-change"]

def surfaceComparisons : List String := ["changed", "unchanged", "unknown"]

def dimensionNames : List String :=
  ["file_access", "network_access", "shell_execution", "destructive", "exfiltration"]

def serverRequiredFields : List String :=
  ["slug", "name", "description", "homepage", "grade", "transparency", "danger_score", "dimensions",
    "annotation_coverage", "findings", "evidence", "source", "engine", "engine_version",
    "scan_mode", "sandbox", "scanned_at", "scan_age_days", "grade_change", "requires_credentials"]

def maxRawBytes : Nat := 1024 * 1024

def maxServers : Nat := 256

def maxFindings : Nat := 1024

def maxTools : Nat := 2048

def maxPublicString : Nat := 4096

/-- `reasons.add(code)` under a condition. -/
def reason (condition : Bool) (code : String) : List String := if condition then [code] else []

/-! ## Field predicates -/

def nonemptyString : Json → Bool
  | .str s => hasText s
  | _ => false

def isInteger : Json → Option ℤ
  | .int n => some n
  | _ => none

def isBool : Json → Option Bool
  | .bool b => some b
  | _ => none

def supportedString (v : Json) (allowed : List String) : Bool := allowed.any v.isStr

/-- The value of a number in range; `bool` is not a number here. -/
def numberInRange (v : Json) (minimum : ℚ) (maximum : Option ℚ) : Option ℚ :=
  let numeric : Option ℚ :=
    match v with
    | .int n => (floatOfInt n).toOption.bind PyFloat.value?
    | .float x => x.value?
    | _ => none
  numeric.filter fun q => decide (minimum ≤ q) && maximum.all fun m => decide (q ≤ m)

def hasFields (fields : Dict) (required : List String) : Bool :=
  required.all fun name => Dict.contains fields (u name)

def tooLong (v : Json) : Bool :=
  match v with
  | .str s => decide (maxPublicString < s.length)
  | _ => false

def timezoneAwareDatetime : Json → Bool
  | .str s =>
    let normalized := if s.getLast? = some (ch 'Z') then s.dropLast ++ u "+00:00" else s
    (fromisoformat normalized).any fun d => d.offset.isSome
  | _ => false

/-- The UTC form of an aware timestamp; converting it can overflow. -/
def parseAwareDatetime : Json → Except PyErr (Option DateTime)
  | .str s =>
    match fromisoformat (expandZulu s) with
    | some d => if d.offset.isSome then d.astimezoneUtc.map some else .ok none
    | none => .ok none
  | _ => .ok none

/-! ## Server fields -/

def missingFieldReason : String → Option String
  | "annotation_coverage" => some "ANNOTATION_COVERAGE_INVALID"
  | "danger_score" => some "DANGER_SCORE_INVALID"
  | "dimensions" => some "DIMENSIONS_INVALID"
  | "engine" => some "ENGINE_INVALID"
  | "evidence" => some "EVIDENCE_INVALID"
  | "findings" => some "FINDINGS_INVALID"
  | "grade" => some "GRADE_UNSUPPORTED"
  | "grade_change" => some "GRADE_CHANGE_INVALID"
  | "sandbox" => some "SANDBOX_INVALID"
  | "scan_age_days" => some "SCAN_AGE_INVALID"
  | "scan_mode" => some "SCAN_MODE_UNSUPPORTED"
  | "scanned_at" => some "SCANNED_AT_INVALID"
  | "slug" => some "SLUG_INVALID"
  | "source" => some "SOURCE_INVALID"
  | "transparency" => some "TRANSPARENCY_UNSUPPORTED"
  | _ => none

def missingReasons (server : Dict) : List String :=
  let missing := serverRequiredFields.filter fun name => !Dict.contains server (u name)
  reason (!missing.isEmpty) "SERVER_REQUIRED_FIELD_MISSING" ++ missing.filterMap missingFieldReason

def validateBasicFields (server : Dict) : List String :=
  let homepage := Dict.get server "homepage"
  reason (!nonemptyString (Dict.get server "name")) "SERVER_FIELD_TYPE_INVALID" ++
  reason (match Dict.get server "description" with | .str _ => false | _ => true)
    "SERVER_FIELD_TYPE_INVALID" ++
  reason (!homepage.isNull && !nonemptyString homepage) "SERVER_FIELD_TYPE_INVALID" ++
  reason (!(Dict.get server "engine").isStr "mcpaudit") "ENGINE_INVALID" ++
  reason (!nonemptyString (Dict.get server "engine_version")) "SERVER_FIELD_TYPE_INVALID" ++
  reason (["name", "description", "homepage", "engine_version"].any
    fun name => tooLong (Dict.get server name)) "SERVER_STRING_LIMIT_EXCEEDED"

def validateGradeFields (server : Dict) : List String :=
  reason (!supportedString (Dict.get server "grade") grades) "GRADE_UNSUPPORTED" ++
  reason (!supportedString (Dict.get server "transparency") transparencyLevels)
    "TRANSPARENCY_UNSUPPORTED" ++
  reason (numberInRange (Dict.get server "danger_score") 0 (some 10)).isNone "DANGER_SCORE_INVALID" ++
  reason (numberInRange (Dict.get server "annotation_coverage") 0 (some 1)).isNone
    "ANNOTATION_COVERAGE_INVALID"

def dangerBand (score : ℚ) : String :=
  if score ≤ 2 then "A" else if score ≤ 7 / 2 then "B" else if score ≤ 5 then "C"
  else if score ≤ 15 / 2 then "D" else "F"

def transparencyBand (coverage : ℚ) : String :=
  if fl (7 / 10) ≤ coverage then "high" else if fl (3 / 10) ≤ coverage then "medium" else "low"

/-- The half-cent both sides of a rounded value. -/
def halfCent : ℚ := fl (5 / 1000)

def capCritical (candidate : String) : String :=
  if candidate = "D" ∨ candidate = "F" then candidate else "D"

def hasCritical : Json → Bool
  | .arr findings => findings.any fun finding =>
    match finding with
    | .obj fields => (Dict.get fields "severity").isStr "critical"
    | _ => false
  | _ => false

def gradeCandidates (findings : Json) (danger : ℚ) : List String :=
  let candidates :=
    [dangerBand (max 0 (fl (danger - halfCent))), dangerBand (min 10 (fl (danger + halfCent)))]
  if hasCritical findings then candidates.map capCritical else candidates

def transparencyCandidates (coverage : ℚ) : List String :=
  [transparencyBand (max 0 (fl (coverage - halfCent))),
    transparencyBand (min 1 (fl (coverage + halfCent)))]

def validateGradeBinding (server : Dict) : List String :=
  let grade := Dict.get server "grade"
  let transparency := Dict.get server "transparency"
  (if supportedString grade grades then
    match numberInRange (Dict.get server "danger_score") 0 (some 10) with
    | some danger =>
      reason (!supportedString grade (gradeCandidates (Dict.get server "findings") danger))
        "GRADE_DANGER_MISMATCH"
    | none => []
  else []) ++
  (if supportedString transparency transparencyLevels then
    match numberInRange (Dict.get server "annotation_coverage") 0 (some 1) with
    | some coverage =>
      reason (!supportedString transparency (transparencyCandidates coverage))
        "TRANSPARENCY_COVERAGE_MISMATCH"
    | none => []
  else [])

def validateDimensions : Json → List String
  | .obj fields =>
    reason (!hasFields fields dimensionNames) "DIMENSIONS_INVALID" ++
    reason (dimensionNames.any fun name => Dict.contains fields (u name) &&
      (numberInRange (Dict.get fields name) 0 (some 10)).isNone) "DIMENSIONS_INVALID"
  | _ => ["DIMENSIONS_INVALID"]

def validateFinding : Json → List String
  | .obj fields =>
    if hasFields fields ["rule_id", "title", "severity", "category"] then
      reason (["rule_id", "title", "category"].any fun name => !nonemptyString (Dict.get fields name))
        "FINDING_INVALID" ++
      reason (!supportedString (Dict.get fields "severity") findingSeverities) "FINDING_INVALID"
    else ["FINDING_INVALID"]
  | _ => ["FINDING_INVALID"]

def validateFindings : Json → List String
  | .arr findings =>
    if maxFindings < findings.length then ["FINDINGS_LIMIT_EXCEEDED"]
    else findings.flatMap validateFinding
  | _ => ["FINDINGS_INVALID"]

/-- One tool and the names seen so far; the second component is the names after it. -/
def validateTool (names : List Str) : Json → List String × List Str
  | .obj fields =>
    if hasFields fields ["name", "has_input_schema", "input_schema_sha256", "has_annotations"] then
      let name := Dict.get fields "name"
      let fresh : Option Str :=
        match name with
        | .str s => if hasText s && !decide (s ∈ names) then some s else none
        | _ => none
      let hasInputSchema := Dict.get fields "has_input_schema"
      let schemaHash := Dict.get fields "input_schema_sha256"
      let hashInvalid :=
        match hasInputSchema, schemaHash with
        | .bool true, .str s => !isSha256 s
        | .bool true, _ => true
        | _, hash => !hash.isNull
      (reason fresh.isNone "EVIDENCE_INVALID" ++
        reason ((isBool hasInputSchema).isNone || (isBool (Dict.get fields "has_annotations")).isNone)
          "EVIDENCE_INVALID" ++
        reason hashInvalid "EVIDENCE_INVALID", fresh.toList ++ names)
    else (["EVIDENCE_INVALID"], names)
  | _ => (["EVIDENCE_INVALID"], names)

def validateTools : List Str → List Json → List String
  | _, [] => []
  | names, tool :: rest =>
    let (reasons, names) := validateTool names tool
    reasons ++ validateTools names rest

def validateEvidence : Json → List String
  | .null => []
  | .obj fields =>
    if hasFields fields
        ["tool_count", "tools", "prompt_count", "resource_count", "schema_hash_algorithm"] then
      reason (["tool_count", "prompt_count", "resource_count"].any fun name =>
        (isInteger (Dict.get fields name)).all fun n => decide (n < 0)) "EVIDENCE_INVALID" ++
      reason (!(Dict.get fields "schema_hash_algorithm").isStr "sha256") "EVIDENCE_INVALID" ++
      match Dict.get fields "tools" with
      | .arr tools =>
        if maxTools < tools.length then ["TOOLS_LIMIT_EXCEEDED"]
        else
          reason ((isInteger (Dict.get fields "tool_count")).any fun n : ℤ => decide (n ≠ tools.length))
            "EVIDENCE_INVALID" ++ validateTools [] tools
      | _ => ["EVIDENCE_INVALID"]
    else ["EVIDENCE_INVALID"]
  | _ => ["EVIDENCE_INVALID"]

structure SourceCheck where
  reasons : List String
  coordinate : Option (Str × Str)
  hasCredentials : Option Bool

def validateSource : Json → SourceCheck
  | .obj fields =>
    if hasFields fields ["kind", "reference", "env_keys"] then
      let kind := Dict.get fields "kind"
      let reference := Dict.get fields "reference"
      let kindOk := supportedString kind sourceKinds
      let referenceOk := nonemptyString reference
      let credentials : List String × Option Bool :=
        match Dict.get fields "env_keys" with
        | .arr names =>
          let texts := names.filterMap fun | .str s => some s | _ => none
          let valid := decide (texts.length = names.length) && texts.all isCredentialName
          (reason (!valid || !decide texts.Nodup) "CREDENTIAL_NAMES_INVALID", some (!names.isEmpty))
        | _ => (["CREDENTIAL_NAMES_INVALID"], none)
      let coordinate : Option (Str × Str) :=
        match kind, reference with
        | .str k, .str r => if kindOk && referenceOk then some (k, r) else none
        | _, _ => none
      { reasons :=
          reason (!kindOk) "SOURCE_KIND_UNSUPPORTED" ++
          reason (!referenceOk) "SOURCE_REFERENCE_INVALID" ++
          reason (referenceOk && tooLong reference) "SOURCE_REFERENCE_LIMIT_EXCEEDED" ++
          credentials.1
        coordinate := coordinate
        hasCredentials := credentials.2 }
    else ⟨["SOURCE_INVALID"], none, none⟩
  | _ => ⟨["SOURCE_INVALID"], none, none⟩

/-- The sandbox mode and network each scan mode implies. -/
def expectedSandbox (scanMode : Json) : Option (Json × Json) :=
  if scanMode.isStr "mcpaudit-local-network-off" then some (.str (u "docker"), .str (u "none"))
  else if scanMode.isStr "mcpaudit-local-network-unknown" then
    some (.str (u "docker"), .str (u "unknown"))
  else if scanMode.isStr "mcpaudit-local-provenance-unknown" then
    some (.str (u "unknown"), .str (u "unknown"))
  else if scanMode.isStr "mcpaudit-remote-live-network" then
    some (.str (u "not_applicable"), .null)
  else none

def validateSandbox (value scanMode : Json) : List String :=
  match value with
  | .obj fields =>
    let mode := Dict.get fields "mode"
    let network := Dict.get fields "network"
    (if mode.isStr "docker" then
      reason (!supportedString network ["none", "unknown"] || !nonemptyString (Dict.get fields "image"))
        "SANDBOX_INVALID" ++
      reason (Dict.contains fields (u "reason")) "SANDBOX_INVALID"
    else if mode.isStr "unknown" then
      reason (!network.isStr "unknown" || !(Dict.get fields "image").isNull ||
        Dict.contains fields (u "reason")) "SANDBOX_INVALID"
    else if mode.isStr "not_applicable" then
      reason (!(Dict.get fields "reason").isStr "remote_endpoint_no_local_process")
        "SANDBOX_INVALID" ++
      reason (Dict.contains fields (u "network") || Dict.contains fields (u "image")) "SANDBOX_INVALID"
    else ["SANDBOX_INVALID"]) ++
    reason ((expectedSandbox scanMode).any fun e => !(mode.pyEq e.1 && network.pyEq e.2))
      "SCAN_MODE_SANDBOX_MISMATCH"
  | _ => ["SANDBOX_INVALID"]

def validateGradeChange (value currentGrade : Json) : List String :=
  match value with
  | .null => []
  | .obj fields =>
    if hasFields fields
        ["changed_at", "previous_grade", "current_grade", "cause", "surface_comparison"] then
      let previous := Dict.get fields "previous_grade"
      let current := Dict.get fields "current_grade"
      let cause := Dict.get fields "cause"
      reason (!timezoneAwareDatetime (Dict.get fields "changed_at")) "GRADE_CHANGE_INVALID" ++
      reason (!supportedString previous grades || !supportedString current grades ||
        previous.pyEq current) "GRADE_CHANGE_INVALID" ++
      reason (!current.pyEq currentGrade) "GRADE_CHANGE_INVALID" ++
      reason (!supportedString cause gradeChangeCauses || cause.isStr "no-change")
        "GRADE_CHANGE_INVALID" ++
      reason (!supportedString (Dict.get fields "surface_comparison") surfaceComparisons)
        "GRADE_CHANGE_INVALID"
    else ["GRADE_CHANGE_INVALID"]
  | _ => ["GRADE_CHANGE_INVALID"]

/-! ## Age binding -/

def secondsPerDay : ℚ := 86400

def ninetyDays : ℤ := 90 * microsPerDay

/-- Whether the recorded age differs from the expected one; a huge integer overflows. -/
def ageMismatch (recorded : Json) (expected : ℚ) : Except PyErr Bool := do
  let numeric ←
    match recorded with
    | .int n => floatOfInt n |>.map some
    | .float x => .ok (some x)
    | _ => .ok none
  match numeric with
  | none => .ok true
  | some .nan => .ok false
  | some x =>
    match x.value? with
    | some q => .ok (decide (fl (1 / 1000000) < |fl (q - expected)|))
    | none => .ok true

def validateFreshnessBinding (server : Dict) (generatedAt : Json) : Except PyErr (List String) := do
  let generated ← parseAwareDatetime generatedAt
  let scanned ← parseAwareDatetime (Dict.get server "scanned_at")
  match generated, scanned with
  | some generated, some scanned =>
    let age := DateTime.totalSeconds (generated.instant - scanned.instant)
    if age < 0 then .ok ["SCANNED_AT_AFTER_GENERATED_AT"]
    else do
      let expected := roundDigits (fl (age / secondsPerDay)) 6
      let mismatch ← ageMismatch (Dict.get server "scan_age_days") expected
      let base := reason mismatch "SCAN_AGE_MISMATCH"
      if Dict.contains server (u "stale_after") then do
        match ← parseAwareDatetime (Dict.get server "stale_after") with
        | none => .ok (base ++ ["STALE_AFTER_INVALID"])
        | some stale =>
          let limit ← scanned.add ninetyDays
          .ok (base ++ reason (decide (stale.instant ≠ limit.instant)) "STALE_AFTER_MISMATCH")
      else .ok base
  | _, _ => .ok []

/-! ## The snapshot -/

/-- One server record; the state is the slugs and coordinates of the records before it. -/
def validateServer (generatedAt : Json) (slugs : List Str) (coordinates : List (Str × Str))
    (server : Dict) : Except PyErr (List String × List Str × List (Str × Str)) := do
  let slug : List String × List Str :=
    match Dict.get server "slug" with
    | .str s =>
      if !isSlug s then (["SLUG_INVALID"], slugs)
      else if s ∈ slugs then (["SLUG_DUPLICATE"], slugs)
      else ([], s :: slugs)
    | _ => (["SLUG_INVALID"], slugs)
  let source := validateSource (Dict.get server "source")
  let coordinate : List String × List (Str × Str) :=
    match source.coordinate with
    | some c => if c ∈ coordinates then (["SOURCE_COORDINATE_DUPLICATE"], coordinates)
      else ([], c :: coordinates)
    | none => ([], coordinates)
  let credentials : List String :=
    match isBool (Dict.get server "requires_credentials") with
    | none => ["SERVER_FIELD_TYPE_INVALID"]
    | some b => reason (source.hasCredentials.any fun c => c ≠ b) "REQUIRES_CREDENTIALS_MISMATCH"
  let scanMode := Dict.get server "scan_mode"
  let freshness ← validateFreshnessBinding server generatedAt
  .ok (missingReasons server ++ slug.1 ++ validateBasicFields server ++ validateGradeFields server ++
    validateDimensions (Dict.get server "dimensions") ++ validateFindings (Dict.get server "findings") ++
    validateGradeBinding server ++ validateEvidence (Dict.get server "evidence") ++
    source.reasons ++ coordinate.1 ++ credentials ++
    reason (!supportedString scanMode scanModes) "SCAN_MODE_UNSUPPORTED" ++
    validateSandbox (Dict.get server "sandbox") scanMode ++
    reason (!timezoneAwareDatetime (Dict.get server "scanned_at")) "SCANNED_AT_INVALID" ++
    reason (numberInRange (Dict.get server "scan_age_days") 0 none).isNone "SCAN_AGE_INVALID" ++
    freshness ++ validateGradeChange (Dict.get server "grade_change") (Dict.get server "grade"),
    slug.2, coordinate.2)

def validateServers (generatedAt : Json) :
    List Str → List (Str × Str) → List Json → Except PyErr (List String)
  | _, _, [] => .ok []
  | slugs, coordinates, .obj server :: rest => do
    let (reasons, slugs, coordinates) ← validateServer generatedAt slugs coordinates server
    let more ← validateServers generatedAt slugs coordinates rest
    .ok (reasons ++ more)
  | slugs, coordinates, _ :: rest => do
    let more ← validateServers generatedAt slugs coordinates rest
    .ok ("SERVER_RECORD_NOT_OBJECT" :: more)

def validationReasons (snapshot : Dict) : Except PyErr (List String) := do
  let present name := Dict.contains snapshot (u name)
  let version :=
    if !present "schema_version" then ["SCHEMA_VERSION_MISSING"]
    else reason (isInteger (Dict.get snapshot "schema_version") ≠ some schemaVersion)
      "SCHEMA_VERSION_UNSUPPORTED"
  let count : List String × Option ℤ :=
    if !present "server_count" then (["SERVER_COUNT_MISSING"], none)
    else
      match isInteger (Dict.get snapshot "server_count") with
      | some n => if n < 0 then (["SERVER_COUNT_INVALID"], none) else ([], some n)
      | none => (["SERVER_COUNT_INVALID"], none)
  let servers : List String × Option (List Json) :=
    if !present "servers" then (["SERVERS_MISSING"], none)
    else
      match Dict.get snapshot "servers" with
      | .arr servers => ([], some servers)
      | _ => (["SERVERS_NOT_LIST"], none)
  let mismatch :=
    match servers.2, count.2 with
    | some servers, some n => reason (decide (n ≠ servers.length)) "SERVER_COUNT_MISMATCH"
    | _, _ => []
  let generatedAt := Dict.get snapshot "generated_at"
  let generatedFrom := Dict.get snapshot "generated_from_scan_at"
  let fromOk := timezoneAwareDatetime generatedFrom ||
    (generatedFrom.isStr "" && servers.2.any List.isEmpty)
  let perServer ←
    match servers.2 with
    | none => .ok []
    | some servers =>
      if maxServers < servers.length then .ok ["SERVER_LIMIT_EXCEEDED"]
      else validateServers generatedAt [] [] servers
  .ok (version ++ count.1 ++ servers.1 ++ mismatch ++
    reason (!timezoneAwareDatetime generatedAt) "GENERATED_AT_INVALID" ++
    reason (!fromOk) "GENERATED_FROM_SCAN_AT_INVALID" ++ perServer)

/-! ## Parsing -/

/-- `dict` of a list of pairs: a repeated key keeps its place and takes the later value. -/
def dictOfPairs (pairs : Dict) : Dict := pairs.foldl (fun d kv => Dict.set d kv.1 kv.2) []

def parseHooks (objectPairs : Dict → Except PyErr Json) : Hooks where
  parseInt text := (pyInt text).map .int
  parseFloat text := .ok (.float (readFloat text))
  parseConstant _ := .error .valueError
  objectPairs := objectPairs

def hasDuplicate (interp : Interpreter) (text : Str) : Bool :=
  match loads (parseHooks fun pairs =>
    if (Dict.keys pairs).Nodup then .ok (.obj pairs) else .error .valueError)
      interp.recursionLimit text with
  | .ok _ => false
  | .error _ => true

/-- `CatalogSnapshotValidationError(codes)`. -/
def validationError (codes : List String) : PyErr :=
  .app "CatalogSnapshotValidationError"
    ("catalog snapshot validation failed: " ++ String.intercalate "," (sortedNames codes))

/-- `parse_catalog_snapshot`. A duplicate key is what a hook that refuses it would stop at. -/
def parseCatalogSnapshot (interp : Interpreter) (rawText : Str) : Except PyErr Dict := do
  if maxRawBytes < rawText.length then .error (validationError ["JSON_TOO_LARGE"])
  let encoded ← encodeUtf8 rawText
  if maxRawBytes < encoded.length then .error (validationError ["JSON_TOO_LARGE"])
  match loads (parseHooks fun pairs => .ok (.obj (dictOfPairs pairs)))
      interp.recursionLimit rawText with
  | .error _ => .error (validationError ["JSON_INVALID"])
  | .ok value =>
    if hasDuplicate interp rawText then .error (validationError ["JSON_DUPLICATE_KEY"])
    match value with
    | .obj snapshot =>
      let reasons ← validationReasons snapshot
      if reasons.isEmpty then .ok snapshot else .error (validationError reasons)
    | _ => .error (validationError ["TOP_LEVEL_NOT_OBJECT"])

end McpTrust.RuntimeSnapshot
