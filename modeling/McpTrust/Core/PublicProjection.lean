import McpTrust.Python.DictUpdate
import McpTrust.Core.Governance
import McpTrust.Engine.Scan

/-! # The public projection

`project_public_scan` and the payloads around it: a masked scan keeps the keys of
its verdict and loses their values.
-/

namespace McpTrust

set_option autoImplicit false

open Python

structure Server where
  slug : Str
  name : Str
  description : Str
  source : Engine.ServerSource
  homepage : Option Str
  addedAt : DateTime
  slug_valid : isSlug slug = true

/-- pydantic's JSON text of a datetime. -/
abbrev TimeDump := DateTime → Str

variable (dumpTime : TimeDump)

/-! ## `model_dump(mode="json")` -/

def optional {α : Type} (dump : α → Json) : Option α → Json
  | none => .null
  | some a => dump a

def text (s : String) : Json := .str (u s)

def severityText : Severity → String
  | .critical => "critical"
  | .high => "high"
  | .medium => "medium"
  | .low => "low"
  | .info => "info"

def riskJson (risk : RiskSummary) : Json :=
  .obj
    [(u "composite", .float risk.composite), (u "file_access", .float risk.fileAccess),
      (u "network_access", .float risk.networkAccess), (u "shell_execution", .float risk.shellExecution),
      (u "destructive", .float risk.destructive), (u "exfiltration", .float risk.exfiltration),
      (u "findings_by_severity",
        .obj (risk.findingsBySeverity.map fun count => (u (severityText count.1), .int count.2))),
      (u "annotation_coverage", .float risk.annotationCoverage)]

def findingJson (finding : Finding) : Json :=
  .obj
    [(u "rule_id", .str finding.ruleId), (u "title", .str finding.title),
      (u "severity", text (severityText finding.severity)), (u "category", .str finding.category),
      (u "detail", .str finding.detail)]

def toolJson (tool : ToolEvidence) : Json :=
  .obj
    [(u "name", .str tool.name), (u "has_input_schema", .bool tool.hasInputSchema),
      (u "input_schema_sha256", optional .str tool.inputSchemaSha256),
      (u "has_annotations", .bool tool.hasAnnotations)]

def evidenceJson (evidence : ScanEvidence) : Json :=
  .obj
    [(u "tool_count", .int evidence.toolCount), (u "tools", .arr (evidence.tools.map toolJson)),
      (u "prompt_count", .int evidence.promptCount), (u "resource_count", .int evidence.resourceCount),
      (u "schema_hash_algorithm", .str evidence.schemaHashAlgorithm)]

def scanPayload (scan : ScanRecord) : Dict :=
  [(u "id", .str scan.id), (u "server_slug", .str scan.serverSlug),
    (u "engine_name", .str scan.engineName), (u "engine_version", .str scan.engineVersion),
    (u "grade", text scan.grade.text), (u "transparency", text scan.transparency.text),
    (u "risk", riskJson scan.risk), (u "findings", .arr (scan.findings.map findingJson)),
    (u "evidence", optional evidenceJson scan.evidence), (u "scanned_at", .str (dumpTime scan.scannedAt)),
    (u "sandbox_image", optional .str scan.sandboxImage), (u "report_ref", optional .str scan.reportRef)]

def sourceJson (source : Engine.ServerSource) : Json :=
  .obj
    [(u "kind", text source.kind.text), (u "reference", .str source.reference),
      (u "command", optional .str source.command), (u "args", .arr (source.args.map .str)),
      (u "env_keys", .arr (source.envKeys.map .str)),
      (u "sandbox_image", optional .str source.sandboxImage), (u "trusted", .bool source.trusted)]

def serverPayload (server : Server) : Dict :=
  [(u "slug", .str server.slug), (u "name", .str server.name),
    (u "description", .str server.description), (u "source", sourceJson server.source),
    (u "homepage", optional .str server.homepage), (u "added_at", .str (dumpTime server.addedAt))]

/-! ## Projections -/

/-- `project_public_server(server, operator_masked=…)`. -/
def projectPublicServer (server : Server) (operatorMasked : Bool) : Dict :=
  let payload := serverPayload dumpTime server
  let payload :=
    if operatorMasked then payload.set (u "description") (text maskedServerDescription) else payload
  payload.set (u "operator_masked") (.bool operatorMasked)

def unreadablePayload (freshness : ScanFreshness) (operatorMasked : Bool) : Dict :=
  [(u "status", text "UNKNOWN"), (u "reason_codes", .arr [text "SCAN_RECORD_UNREADABLE"]),
    (u "provenance", text ScanProvenance.unknown.text), (u "freshness_state", text freshness.state.text),
    (u "freshness_reason", text freshness.reason), (u "scan_age_days", .null), (u "stale_after", .null),
    (u "stale", .null), (u "masked", .bool false), (u "operator_masked", .bool operatorMasked),
    (u "grade_withheld", .bool true), (u "grade", text "unknown"), (u "transparency", .null),
    (u "risk", .null), (u "findings", .null), (u "evidence", .null), (u "report_ref", .null)]

/-- What the projection adds to every readable scan. -/
def freshnessFields (scan : ScanRecord) (freshness : ScanFreshness) (operatorMasked : Bool) : Dict :=
  [(u "provenance", text (classify (some scan)).text), (u "freshness_state", text freshness.state.text),
    (u "freshness_reason", text freshness.reason),
    (u "scan_age_days", optional .float freshness.scanAgeDays),
    (u "stale_after", optional (fun time => .str time.isoformat) freshness.staleAfter),
    (u "stale",
      if freshness.state = .fresh ∨ freshness.state = .stale then
        .bool (decide (freshness.state = .stale))
      else .null),
    (u "masked", .bool operatorMasked), (u "operator_masked", .bool operatorMasked),
    (u "grade_withheld", .bool (operatorMasked || decide (freshness.state = .unknown)))]

/-- What the projection puts in place of a withheld verdict. -/
def withheldFields (operatorMasked : Bool) : Dict :=
  [(u "grade", text (if operatorMasked then maskedBadgeMessage else "unknown")),
    (u "transparency", .null), (u "risk", .null), (u "findings", .null), (u "evidence", .null),
    (u "report_ref", .null),
    (u "withheld_reason",
      text (if operatorMasked then "grade_under_governance_review" else "scan_freshness_unknown"))]

def readablePayload (scan : ScanRecord) (freshness : ScanFreshness) (operatorMasked : Bool) : Dict :=
  let payload := (scanPayload dumpTime scan).update (freshnessFields scan freshness operatorMasked)
  if operatorMasked || decide (freshness.state = .unknown) then
    payload.update (withheldFields operatorMasked)
  else payload

/-- `project_public_scan(scan, now=…, operator_masked=…, unreadable=…)`. -/
def projectPublicScan (scan : Option ScanRecord) (now : DateTime) (operatorMasked unreadable : Bool) :
    Except PyErr (Option Dict) :=
  if unreadable then do
    let freshness ← assessScanFreshness none now true
    .ok (some (unreadablePayload freshness operatorMasked))
  else
    match scan with
    | none => .ok none
    | some scan => do
      let freshness ← assessScanFreshness (some scan.scannedAt) now true
      .ok (some (readablePayload dumpTime scan freshness operatorMasked))

def noScanSummary (server : Server) (operatorMasked : Bool) : Dict :=
  [(u "slug", .str server.slug), (u "name", .str server.name),
    (u "grade", text (if operatorMasked then maskedBadgeMessage else "unscanned")),
    (u "transparency", .null), (u "composite", .null), (u "scanned_at", .null),
    (u "provenance", text ScanProvenance.unscanned.text),
    (u "freshness_state", text FreshnessState.notApplicable.text), (u "freshness_reason", text "no_scan"),
    (u "scan_age_days", .null), (u "stale_after", .null), (u "stale", .null),
    (u "masked", .bool operatorMasked), (u "operator_masked", .bool operatorMasked),
    (u "grade_withheld", .bool operatorMasked)]

/-- `projected.get(key, default)`. -/
def getOr (projected : Dict) (key : String) (default : Json) : Json :=
  (Dict.lookup projected (u key)).getD default

def jsonTruthy : Json → Bool
  | .bool b => b
  | _ => false

def scanSummary (server : Server) (projected : Dict) (operatorMasked : Bool) : Dict :=
  [(u "slug", .str server.slug), (u "name", .str server.name),
    (u "grade", getOr projected "grade" (text "unknown")),
    (u "transparency", Dict.get projected "transparency"),
    (u "composite",
      match Dict.get projected "risk" with
      | .obj risk => Dict.get risk "composite"
      | _ => .null),
    (u "scanned_at", Dict.get projected "scanned_at"),
    (u "provenance", getOr projected "provenance" (text ScanProvenance.unknown.text)),
    (u "freshness_state", getOr projected "freshness_state" (text FreshnessState.unknown.text)),
    (u "freshness_reason", getOr projected "freshness_reason" (text "unknown")),
    (u "scan_age_days", Dict.get projected "scan_age_days"),
    (u "stale_after", Dict.get projected "stale_after"), (u "stale", Dict.get projected "stale"),
    (u "masked", .bool (jsonTruthy (getOr projected "masked" (.bool false)))),
    (u "operator_masked", .bool operatorMasked),
    (u "grade_withheld", .bool (jsonTruthy (getOr projected "grade_withheld" (.bool false))))]

/-- `project_public_summary(server, scan, now=…, operator_masked=…, unreadable=…)`. -/
def projectPublicSummary (server : Server) (scan : Option ScanRecord) (now : DateTime)
    (operatorMasked unreadable : Bool) : Except PyErr Dict := do
  let projected ← projectPublicScan dumpTime scan now operatorMasked unreadable
  .ok
    (match projected with
    | none => noScanSummary server operatorMasked
    | some projected => scanSummary server projected operatorMasked)

/-! ## Badges -/

def badgeColors : List (String × String) :=
  [("A", "brightgreen"), ("B", "green"), ("C", "yellow"), ("D", "orange"), ("F", "red"),
    ("unscanned", "lightgrey")]

def badgeColor (grade : Str) : String :=
  ((badgeColors.find? fun c => decide (u c.1 = grade)).map Prod.snd).getD "lightgrey"

def badge (message : Str) (color : String) : Dict :=
  [(u "schemaVersion", .int 1), (u "label", text "mcp trust"), (u "message", .str message),
    (u "color", text color)]

/-- `badge_payload(grade, provenance, stale=…, masked=…, masked_scan_succeeded=…, historical_at=…)`. -/
def badgePayload (grade : Str) (provenance : ScanProvenance) (stale masked maskedScanSucceeded : Bool)
    (historicalAt : Option DateTime) : Dict :=
  if provenance = .unknown then badge (u "unknown") "lightgrey"
  else if masked && maskedScanSucceeded then badge (u maskedBadgeMessage) "lightgrey"
  else if provenance = .unscanned then badge (u "unscanned") "lightgrey"
  else if masked then badge (u maskedBadgeMessage) "lightgrey"
  else
    let color := badgeColor grade
    let message := upperAscii grade
    if provenance = .demo then badge (message ++ u " (demo)") color
    else if stale then badge (message ++ u " (stale)") "lightgrey"
    else
      match historicalAt with
      | some time =>
        badge (message ++ u " (historical " ++ time.isoformat.take 10 ++ u ")") color
      | none => badge message color

/-! ## A masked verdict leaves no trace -/

/-- The same scan up to its verdict. -/
structure SameButVerdict (a b : ScanRecord) : Prop where
  id : a.id = b.id
  serverSlug : a.serverSlug = b.serverSlug
  engineName : a.engineName = b.engineName
  engineVersion : a.engineVersion = b.engineVersion
  scannedAt : a.scannedAt = b.scannedAt
  sandboxImage : a.sandboxImage = b.sandboxImage

theorem SameButVerdict.refl (a : ScanRecord) : SameButVerdict a a := ⟨rfl, rfl, rfl, rfl, rfl, rfl⟩

variable {dumpTime} {a b : ScanRecord}

/-- The fields that carry the verdict of a scan. -/
def IsVerdict (key : Str) : Prop :=
  key ∈ ["grade", "transparency", "risk", "findings", "evidence", "report_ref"].map u

theorem SameButVerdict.payload (h : SameButVerdict a b) :
    Dict.AgreeOff IsVerdict (scanPayload dumpTime a) (scanPayload dumpTime b) := by
  have hsame : ∀ (key : Str) (v : Json), key = key ∧ (¬IsVerdict key → v = v) :=
    fun _ _ => ⟨rfl, fun _ => rfl⟩
  have hverdict : ∀ name ∈ ["grade", "transparency", "risk", "findings", "evidence", "report_ref"],
      ∀ v w : Json, u name = u name ∧ (¬IsVerdict (u name) → v = w) :=
    fun name hname _ _ => ⟨rfl, fun hn => absurd (List.mem_map_of_mem hname) hn⟩
  unfold scanPayload
  rw [h.id, h.serverSlug, h.engineName, h.engineVersion, h.scannedAt, h.sandboxImage]
  exact .cons (hsame _ _) <| .cons (hsame _ _) <| .cons (hsame _ _) <| .cons (hsame _ _) <|
    .cons (hverdict "grade" (by simp) _ _) <| .cons (hverdict "transparency" (by simp) _ _) <|
    .cons (hverdict "risk" (by simp) _ _) <| .cons (hverdict "findings" (by simp) _ _) <|
    .cons (hverdict "evidence" (by simp) _ _) <| .cons (hsame _ _) <| .cons (hsame _ _) <|
    .cons (hverdict "report_ref" (by simp) _ _) .nil

theorem SameButVerdict.classify (h : SameButVerdict a b) : classify (some a) = classify (some b) := by
  simp only [McpTrust.classify, h.engineName]

theorem withheldFields_cover (operatorMasked : Bool) :
    ∀ key, IsVerdict key → key ∈ Dict.keys (withheldFields operatorMasked) := by
  intro key hkey
  simp only [IsVerdict, List.map_cons, List.map_nil, List.mem_cons, List.not_mem_nil, or_false] at hkey
  simp only [withheldFields, Dict.keys, List.map_cons, List.map_nil, List.mem_cons]
  tauto

theorem readablePayload_masked (h : SameButVerdict a b) (freshness : ScanFreshness) :
    readablePayload dumpTime a freshness true = readablePayload dumpTime b freshness true := by
  have hfields : freshnessFields a freshness true = freshnessFields b freshness true := by
    rw [freshnessFields, freshnessFields, h.classify]
  simp only [readablePayload, Bool.true_or, if_true, hfields]
  exact (h.payload.update _ |>.mono fun _ hk => hk.1).update_eq (withheldFields_cover true)

end McpTrust
