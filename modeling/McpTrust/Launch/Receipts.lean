import McpTrust.Core.Grading
import McpTrust.Launch.Readiness
import McpTrust.Store.Upserts
import McpTrust.Corpus.Records
import McpTrust.Corpus.CatalogPlan

/-! # Scans and their receipts

The scan command reads a server, runs the engine, writes the receipt and then records the scan.
Whatever the order of the commands and whichever of them fail, a recorded scan that names a
receipt names the one the launch check asks for.
-/

namespace McpTrust.Launch

set_option autoImplicit false

open Python Sqlite Store

/-! ## The receipt of a scan -/

/-- `transparency(risk)`. -/
def transparencyOf (risk : RiskSummary) : TransparencyLevel :=
  if leFloat (.ofRat (7 / 10)) risk.annotationCoverage then .high
  else if leFloat (.ofRat (3 / 10)) risk.annotationCoverage then .medium
  else .low

/-- The variables of the environment that a receipt reads. -/
structure ScanEnv where
  /-- `MCP_TRUST_RECEIPTS_DIR` is set. -/
  receiptsDir : Bool
  sandbox : Option Str
  sandboxNetwork : Option Str
  credentials : Option Str
  scannerGitRef : Option Str
  approvalRef : Option Str

def receiptCaveats : List String :=
  ["Automated scan output is not an endorsement.", "Danger grade and transparency are separate signals.",
    "Low transparency means cannot verify safe, not known dangerous.",
    "Network-off sandboxing may suppress behavior that requires live egress."]

def credentialsCaveat : String :=
  "Scanned with injected non-functional dummy credentials (network-off): " ++
    "the enumerated tool surface is real; no live authentication or egress " ++
    "occurred, and dummy credential values are never recorded."

def injectedCredentials (env : ScanEnv) (server : Server) (scan : ScanRecord) : Bool :=
  decide (lower (env.credentials.getD (u "none")) = u "dummy") && decide (server.source.envKeys ≠ []) &&
    decide (scan.engineName = u "mcpaudit")

/-- A member that is there when its value is not empty. -/
def filled (name : String) (value : Option Str) : Dict :=
  match value with
  | none | some [] => []
  | some s => [(u name, .str s)]

/-- `sandbox`, up to the order of its keys; the image is the scan's own. -/
def sandboxFields (env : ScanEnv) (scan : ScanRecord) : Dict :=
  filled "MCP_TRUST_SANDBOX" env.sandbox ++ filled "MCP_TRUST_SANDBOX_IMAGE" scan.sandboxImage ++
    filled "MCP_TRUST_SANDBOX_NETWORK" env.sandboxNetwork ++ filled "MCP_TRUST_SCAN_CREDENTIALS" env.credentials

def scannerFields (env : ScanEnv) (scan : ScanRecord) : Dict :=
  [(u "engine_name", .str scan.engineName), (u "engine_version", .str scan.engineVersion),
    (u "scanner_git_ref", optional .str env.scannerGitRef)]

def caveatTexts (env : ScanEnv) (server : Server) (scan : ScanRecord) : List String :=
  receiptCaveats ++ if injectedCredentials env server scan then [credentialsCaveat] else []

def receiptFields (dumpTime : TimeDump) (env : ScanEnv) (server : Server) (scan : ScanRecord) : Dict :=
  [(u "format_version", .int 1), (u "scan_id", .str scan.id), (u "server_slug", .str scan.serverSlug),
    (u "server", .obj (serverPayload dumpTime server)), (u "scan", .obj (scanPayload dumpTime scan)),
    (u "evidence", optional evidenceJson scan.evidence), (u "danger_score", .float (dangerScore scan.risk)),
    (u "sandbox", .obj (sandboxFields env scan)), (u "scanner", .obj (scannerFields env scan)),
    (u "approval", .obj [(u "approval_ref", optional .str env.approvalRef)]),
    (u "caveats", .arr ((caveatTexts env server scan).map text))]

/-- `build_scan_receipt(server, scan)`. -/
def buildScanReceipt (dumpTime : TimeDump) (env : ScanEnv) (server : Server) (scan : ScanRecord) : Except PyErr Dict :=
  if server.slug ≠ scan.serverSlug then .error .valueError else .ok (receiptFields dumpTime env server scan)

/-- `f"{scan.server_slug}-{scan.id}.json"`. -/
def receiptName (slug id : Str) : Str := slug ++ ch '-' :: (id ++ u ".json")

/-- The text `write_scan_receipt` writes; it is ASCII. -/
def receiptBytes (payload : Dict) : Except PyErr Bytes :=
  if (Json.obj payload).walk.all Qualification.isPrintable then
    .ok ((dumps Corpus.manifestStyle (.obj payload) ++ [ch '\n']).flatMap encodeCodePoint)
  else .error .valueError

/-! ## The scan command -/

/-- What an engine returns, as far as a record keeps it. -/
structure ScanResult where
  engineName : Str
  engineVersion : Str
  risk : RiskSummary
  findings : List Finding
  evidence : Option ScanEvidence
  sandboxImage : Option Str

/-- The receipt is put in place, or the disk refuses it and may keep a part under the temporary name. -/
inductive DiskOutcome
  | replaced
  | refused (left : Option FileEntry)

structure ScanCall where
  slug : Str
  /-- `none` when the engine raises. -/
  result : Option ScanResult
  /-- `uuid.uuid4().hex`. -/
  id : Str
  now : DateTime
  env : ScanEnv
  disk : DiskOutcome

def ScanCall.record (call : ScanCall) (result : ScanResult) : Except PyErr ScanRecord :=
  if isSlug call.slug && isScanId call.id then
    .ok
      { id := call.id
        serverSlug := call.slug
        engineName := result.engineName
        engineVersion := result.engineVersion
        grade := gradeOf result.risk
        transparency := transparencyOf result.risk
        risk := result.risk
        findings := result.findings
        evidence := result.evidence
        scannedAt := call.now
        sandboxImage := result.sandboxImage
        reportRef := none }
  else .error .valueError

/-- The catalog's database and the entries of the receipts directory. -/
structure Desk where
  registry : Registry
  receipts : Receipts

section Command

variable (py : Pydantic) (validateSource : SourceModel) (interp : Interpreter) (dumpSource : SourceDump)
  (dump : Serializer) (dumpTime : TimeDump)

/-- The record and the bytes of its receipt, if one is asked for; nothing is written yet. -/
def prepareScan (desk : Desk) (call : ScanCall) : Except PyErr (ScanRecord × Option Bytes) := do
  let found ← getServer py validateSource interp desk.registry.servers call.slug
  match found, call.result with
  | none, _ => .error (.app "Exit" "server not found")
  | some _, none => .error (.app "Exit" "scan failed")
  | some server, some result => do
    let scan ← call.record result
    if call.env.receiptsDir then do
      let payload ← buildScanReceipt dumpTime call.env server scan
      let content ← receiptBytes payload
      .ok (scan, some content)
    else .ok (scan, none)

def temporaryName (name : Str) : Str := name ++ u ".tmp"

def Desk.recorded (desk : Desk) (scan : ScanRecord) : Desk :=
  { desk with registry := desk.registry.afterCall dumpSource dump (.record scan) }

/-- `scan(slug)` of the command line; the endpoint of the server does the same. -/
def Desk.afterScan (desk : Desk) (call : ScanCall) : Desk :=
  match prepareScan py validateSource interp dumpTime desk call with
  | .error _ => desk
  | .ok (scan, none) => desk.recorded dumpSource dump scan
  | .ok (scan, some content) =>
    let name := receiptName scan.serverSlug scan.id
    match call.disk with
    | .refused left => { desk with receipts := Function.update desk.receipts (temporaryName name) left }
    | .replaced =>
      let receipts := Function.update desk.receipts (temporaryName name) none
      Desk.recorded dumpSource dump ⟨desk.registry, Function.update receipts name (some (.file content))⟩
        { scan with reportRef := some name }

inductive Command
  | upsert (server : Server)
  | scan (call : ScanCall)

def Desk.after (desk : Desk) : Command → Desk
  | .upsert server => { desk with registry := desk.registry.afterCall dumpSource dump (.upsert server) }
  | .scan call => desk.afterScan py validateSource interp dumpSource dump dumpTime call

def Desk.afterAll (desk : Desk) (commands : List Command) : Desk :=
  commands.foldl (Desk.after py validateSource interp dumpSource dump dumpTime) desk

end Command

/-! ## Texts and numbers of a receipt -/

def sourceTexts (source : Engine.ServerSource) : List Str :=
  [source.reference] ++ source.command.toList ++ source.args ++ source.envKeys ++ source.sandboxImage.toList

/-- The texts of a server, as its dump shows them. -/
def serverTexts (dumpTime : TimeDump) (server : Server) : List Str :=
  [server.slug, server.name, server.description, dumpTime server.addedAt] ++ server.homepage.toList ++
    sourceTexts server.source

def findingTexts (finding : Finding) : List Str := [finding.ruleId, finding.title, finding.category, finding.detail]

def evidenceTexts (evidence : ScanEvidence) : List Str :=
  evidence.schemaHashAlgorithm :: evidence.tools.flatMap fun tool => tool.name :: tool.inputSchemaSha256.toList

/-- The models of the engine's result let only such values through. -/
structure ScanResult.Valid (result : ScanResult) : Prop where
  engineName : Refresh.Clean result.engineName
  engineVersion : Refresh.Clean result.engineVersion
  findings : ∀ finding ∈ result.findings, ∀ s ∈ findingTexts finding, Refresh.Clean s
  evidence : ∀ evidence ∈ result.evidence, ∀ s ∈ evidenceTexts evidence, Refresh.Clean s
  sandboxImage : ∀ s ∈ result.sandboxImage, Refresh.Clean s
  risk : result.risk.InRange
  coverage : Scored result.risk.annotationCoverage
  severities : (result.risk.findingsBySeverity.map Prod.fst).Nodup

def ScanEnv.Clean (env : ScanEnv) : Prop :=
  (∀ s ∈ env.sandbox, Refresh.Clean s) ∧ (∀ s ∈ env.sandboxNetwork, Refresh.Clean s) ∧
    (∀ s ∈ env.credentials, Refresh.Clean s) ∧ (∀ s ∈ env.scannerGitRef, Refresh.Clean s) ∧
    ∀ s ∈ env.approvalRef, Refresh.Clean s

section Writable

variable {dumpTime : TimeDump} {env : ScanEnv} {server : Server} {scan : ScanRecord}

theorem writable_text {s : Str} (h : Refresh.Clean s) (depth : Nat) : Writable depth (.str s) :=
  writable_str (chain_of_scalars h) depth

theorem writable_word (s : String) (depth : Nat) : Writable depth (text s) := writable_str (chain_u s) depth

theorem writable_optional {α : Type} {json : α → Json} {value : Option α} {depth : Nat}
    (h : ∀ a ∈ value, Writable depth (json a)) : Writable depth (optional json value) := by
  cases value with
  | none => exact writable_null depth
  | some a => exact h a rfl

theorem writable_maybe {value : Option Str} (h : ∀ s ∈ value, Refresh.Clean s) (depth : Nat) :
    Writable depth (optional .str value) := writable_optional fun s hs => writable_text (h s hs) depth

theorem writable_list {α : Type} {json : α → Json} {items : List α} {depth : Nat}
    (h : ∀ a ∈ items, Writable depth (json a)) : Writable (depth + 1) (.arr (items.map json)) := by
  apply writable_arr
  intro v hv
  obtain ⟨a, ha, rfl⟩ := List.mem_map.mp hv
  exact h a ha

theorem finite_of_value {x : PyFloat} {q : ℚ} (h : x.value? = some q) : x.isFinite = true := by
  cases x with
  | finite x => rfl
  | negZero => rfl
  | inf s => cases h
  | nan => cases h

theorem writable_scored {x : PyFloat} (h : Scored x) (depth : Nat) : Writable depth (.float x) := by
  obtain ⟨q, hq, -⟩ := h
  exact writable_float (finite_of_value hq) depth

theorem writable_dangerScore {risk : RiskSummary} (h : risk.InRange) (depth : Nat) :
    Writable depth (.float (dangerScore risk)) := by
  obtain ⟨exact, hexact⟩ := weightedScores_values h
  obtain ⟨raw, hraw, -⟩ := near_sumFloats hexact (le_refl 5)
  exact writable_float (finite_of_value (dangerScore_value hraw)) depth

theorem severityText_injective : Function.Injective severityText := by
  intro a b h
  cases a <;> cases b <;> first | rfl | exact absurd h (by decide)

theorem writable_severities {counts : List (Severity × ℤ)} (h : (counts.map Prod.fst).Nodup) (depth : Nat) :
    Writable (depth + 1) (.obj (counts.map fun count => (u (severityText count.1), .int count.2))) := by
  apply writable_obj
  · have hnames : ((counts.map Prod.fst).map fun severity => u (severityText severity)).Nodup :=
      h.map fun _ _ hsame => severityText_injective (u_inj.mp hsame)
    rw [List.map_map] at hnames
    rwa [Dict.keys, List.map_map]
  · intro kv hkv
    obtain ⟨count, -, rfl⟩ := List.mem_map.mp hkv
    exact ⟨chain_u _, writable_int _ depth⟩

theorem writable_risk {risk : RiskSummary} (h : risk.InRange) (hcoverage : Scored risk.annotationCoverage)
    (hseverities : (risk.findingsBySeverity.map Prod.fst).Nodup) (depth : Nat) :
    Writable (depth + 2) (riskJson risk) := by
  have hnames : (["composite", "file_access", "network_access", "shell_execution", "destructive", "exfiltration",
      "findings_by_severity", "annotation_coverage"].map u).Nodup := Qualification.nodup_names (by decide)
  refine writable_obj hnames ?_
  simp only [List.forall_mem_cons, List.not_mem_nil, false_imp_iff, implies_true, and_true]
  exact ⟨⟨chain_u _, writable_scored h.composite _⟩, ⟨chain_u _, writable_scored h.fileAccess _⟩,
    ⟨chain_u _, writable_scored h.networkAccess _⟩, ⟨chain_u _, writable_scored h.shellExecution _⟩,
    ⟨chain_u _, writable_scored h.destructive _⟩, ⟨chain_u _, writable_scored h.exfiltration _⟩,
    ⟨chain_u _, writable_severities hseverities depth⟩, ⟨chain_u _, writable_scored hcoverage _⟩⟩

theorem writable_finding {finding : Finding} (h : ∀ s ∈ findingTexts finding, Refresh.Clean s) (depth : Nat) :
    Writable (depth + 1) (findingJson finding) := by
  simp only [findingTexts, List.forall_mem_cons, List.not_mem_nil, false_imp_iff, implies_true, and_true] at h
  obtain ⟨hrule, htitle, hcategory, hdetail⟩ := h
  have hnames : (["rule_id", "title", "severity", "category", "detail"].map u).Nodup :=
    Qualification.nodup_names (by decide)
  refine writable_obj hnames ?_
  simp only [List.forall_mem_cons, List.not_mem_nil, false_imp_iff, implies_true, and_true]
  exact ⟨⟨chain_u _, writable_text hrule _⟩, ⟨chain_u _, writable_text htitle _⟩, ⟨chain_u _, writable_word _ _⟩,
    ⟨chain_u _, writable_text hcategory _⟩, ⟨chain_u _, writable_text hdetail _⟩⟩

theorem writable_tool {tool : ToolEvidence} (hname : Refresh.Clean tool.name)
    (hdigest : ∀ s ∈ tool.inputSchemaSha256, Refresh.Clean s) (depth : Nat) : Writable (depth + 1) (toolJson tool) := by
  have hnames : (["name", "has_input_schema", "input_schema_sha256", "has_annotations"].map u).Nodup :=
    Qualification.nodup_names (by decide)
  refine writable_obj hnames ?_
  simp only [List.forall_mem_cons, List.not_mem_nil, false_imp_iff, implies_true, and_true]
  exact ⟨⟨chain_u _, writable_text hname _⟩, ⟨chain_u _, writable_bool _ _⟩, ⟨chain_u _, writable_maybe hdigest _⟩,
    ⟨chain_u _, writable_bool _ _⟩⟩

theorem writable_evidence {evidence : ScanEvidence} (h : ∀ s ∈ evidenceTexts evidence, Refresh.Clean s) (depth : Nat) :
    Writable (depth + 3) (evidenceJson evidence) := by
  have htools : Writable (depth + 2) (.arr (evidence.tools.map toolJson)) := by
    refine writable_list fun tool htool => writable_tool ?_ ?_ depth
    · exact h _ (List.mem_cons_of_mem _ (List.mem_flatMap.mpr ⟨tool, htool, List.mem_cons_self⟩))
    · intro s hs
      have hmem : s ∈ tool.name :: tool.inputSchemaSha256.toList := List.mem_cons_of_mem _ (Option.mem_toList.mpr hs)
      exact h s (List.mem_cons_of_mem _ (List.mem_flatMap.mpr ⟨tool, htool, hmem⟩))
  have halgorithm : Refresh.Clean evidence.schemaHashAlgorithm := h _ List.mem_cons_self
  have hnames : (["tool_count", "tools", "prompt_count", "resource_count", "schema_hash_algorithm"].map u).Nodup :=
    Qualification.nodup_names (by decide)
  refine writable_obj hnames ?_
  simp only [List.forall_mem_cons, List.not_mem_nil, false_imp_iff, implies_true, and_true]
  exact ⟨⟨chain_u _, writable_int _ _⟩, ⟨chain_u _, htools⟩, ⟨chain_u _, writable_int _ _⟩,
    ⟨chain_u _, writable_int _ _⟩, ⟨chain_u _, writable_text halgorithm _⟩⟩

theorem writable_source {source : Engine.ServerSource} (h : ∀ s ∈ sourceTexts source, Refresh.Clean s) (depth : Nat) :
    Writable (depth + 2) (sourceJson source) := by
  simp only [sourceTexts, List.mem_append, List.mem_cons, List.not_mem_nil, or_false, Option.mem_toList, or_imp,
    forall_and, forall_eq] at h
  obtain ⟨⟨⟨⟨hreference, hcommand⟩, hargs⟩, hkeys⟩, himage⟩ := h
  have hnames : (["kind", "reference", "command", "args", "env_keys", "sandbox_image", "trusted"].map u).Nodup :=
    Qualification.nodup_names (by decide)
  have hargList : Writable (depth + 1) (.arr (source.args.map .str)) :=
    writable_list fun s hs => writable_text (hargs s hs) depth
  have hkeyList : Writable (depth + 1) (.arr (source.envKeys.map .str)) :=
    writable_list fun s hs => writable_text (hkeys s hs) depth
  refine writable_obj hnames ?_
  simp only [List.forall_mem_cons, List.not_mem_nil, false_imp_iff, implies_true, and_true]
  exact ⟨⟨chain_u _, writable_word _ _⟩, ⟨chain_u _, writable_text hreference _⟩, ⟨chain_u _, writable_maybe hcommand _⟩,
    ⟨chain_u _, hargList⟩, ⟨chain_u _, hkeyList⟩, ⟨chain_u _, writable_maybe himage _⟩, ⟨chain_u _, writable_bool _ _⟩⟩

theorem writable_server (h : ∀ s ∈ serverTexts dumpTime server, Refresh.Clean s) (depth : Nat) :
    Writable (depth + 3) (.obj (serverPayload dumpTime server)) := by
  simp only [serverTexts, List.mem_append, List.mem_cons, List.not_mem_nil, or_false, Option.mem_toList, or_imp,
    forall_and, forall_eq] at h
  obtain ⟨⟨⟨hslug, hname, hdescription, hadded⟩, hhomepage⟩, hsource⟩ := h
  have hnames : (["slug", "name", "description", "source", "homepage", "added_at"].map u).Nodup :=
    Qualification.nodup_names (by decide)
  refine writable_obj hnames ?_
  simp only [serverPayload, List.forall_mem_cons, List.not_mem_nil, false_imp_iff, implies_true, and_true]
  exact ⟨⟨chain_u _, writable_text hslug _⟩, ⟨chain_u _, writable_text hname _⟩,
    ⟨chain_u _, writable_text hdescription _⟩, ⟨chain_u _, writable_source hsource depth⟩,
    ⟨chain_u _, writable_maybe hhomepage _⟩, ⟨chain_u _, writable_text hadded _⟩⟩

/-! ## Names -/

/-- A character of a slug or a scan id is no separator and no surrogate. -/
def NameChar (c : CodePoint) : Prop := isAlnum c = true ∨ c ∈ u "._-"

theorem NameChar.plain {c : CodePoint} (h : NameChar c) : isSurrogate c = false ∧ c ≠ ch '/' ∧ c ≠ ch '\\' := by
  have hslash : (ch '/').val = 47 := rfl
  have hback : (ch '\\').val = 92 := rfl
  have hvalue : c.val < 128 ∧ c.val ≠ 47 ∧ c.val ≠ 92 := by
    obtain h | h := h
    · simp only [isAlnum, isDigit, isLowerAlpha, isUpperAlpha, Bool.or_eq_true, Bool.and_eq_true,
        decide_eq_true_eq] at h
      omega
    · have hmem : c ∈ [ch '.', ch '_', ch '-'] := h
      simp only [List.mem_cons, List.not_mem_nil, or_false] at hmem
      obtain rfl | rfl | rfl := hmem <;> decide
  refine ⟨?_, fun h => hvalue.2.1 (h ▸ hslash), fun h => hvalue.2.2 (h ▸ hback)⟩
  simp only [isSurrogate, Bool.and_eq_false_iff, decide_eq_false_iff_not]
  exact .inl (by omega)

theorem nameChar_slug {slug : Str} (h : isSlug slug = true) : ∀ c ∈ slug, NameChar c := by
  intro c hc
  obtain hchar | rfl := isSlug_chars h c hc
  · left
    rw [isSlugChar, Bool.or_eq_true] at hchar
    rw [isAlnum, Bool.or_eq_true, Bool.or_eq_true]
    exact .inl hchar.symm
  · exact .inr (by decide)

theorem nameChar_scanId {id : Str} (h : isScanId id = true) : ∀ c ∈ id, NameChar c := by
  cases id with
  | nil => cases h
  | cons first rest =>
    rw [isScanId, Bool.and_eq_true, Bool.and_eq_true, List.all_eq_true] at h
    intro c hc
    obtain rfl | hc := List.mem_cons.mp hc
    · exact .inl h.1.1
    · have hchar := h.2 c hc
      rw [Bool.or_eq_true, decide_eq_true_eq] at hchar
      exact hchar

theorem nameChar_receiptName {slug id : Str} (hslug : isSlug slug = true) (hid : isScanId id = true) :
    ∀ c ∈ receiptName slug id, NameChar c := by
  have hsuffix : ((u ".json").all fun c => isAlnum c || decide (c ∈ u "._-")) = true := by decide +kernel
  intro c hc
  obtain hc | hc := List.mem_append.mp hc
  · exact nameChar_slug hslug c hc
  obtain rfl | hc := List.mem_cons.mp hc
  · exact .inr (by decide)
  obtain hc | hc := List.mem_append.mp hc
  · exact nameChar_scanId hid c hc
  · have hchar := List.all_eq_true.mp hsuffix c hc
    rw [Bool.or_eq_true, decide_eq_true_eq] at hchar
    exact hchar

theorem isPortableRef_receiptName {slug id : Str} (hslug : isSlug slug = true) (hid : isScanId id = true) :
    isPortableRef (.text (receiptName slug id)) = .ok true := by
  have hchars := nameChar_receiptName hslug hid
  have hne : receiptName slug id ≠ [] := by simp [receiptName]
  have hslash : ch '/' ∉ receiptName slug id := fun h => (hchars _ h).plain.2.1 rfl
  have hback : ch '\\' ∉ receiptName slug id := fun h => (hchars _ h).plain.2.2 rfl
  rw [isPortableRef, decide_eq_true hne, decide_eq_true hslash, decide_eq_true hback]
  rfl

/-- Two ids of one length have receipts of two names. -/
theorem id_of_receiptName {slug id slug' id' : Str} (hlength : id.length = id'.length)
    (h : receiptName slug id = receiptName slug' id') : id = id' := by
  have htail := (List.append_inj' h (by simp [hlength])).2
  exact (List.append_inj (List.cons.inj htail).2 hlength).1

theorem temporaryName_ne (name slug id : Str) : temporaryName name ≠ receiptName slug id := by
  intro h
  have hlast := congrArg List.getLast? h
  have htemporary : (temporaryName name).getLast? = some (ch 'p') := by
    rw [temporaryName, List.getLast?_append]
    rfl
  have hreceipt : (receiptName slug id).getLast? = some (ch 'n') := by
    have hsplit : receiptName slug id = (slug ++ ch '-' :: id) ++ u ".json" := by simp [receiptName]
    rw [hsplit, List.getLast?_append]
    rfl
  rw [htemporary, hreceipt] at hlast
  exact absurd hlast (by decide)

/-! ## The written receipt -/

/-- What the command puts in a record. -/
structure MadeFrom (call : ScanCall) (result : ScanResult) (scan : ScanRecord) : Prop where
  slug : isSlug call.slug = true
  id : isScanId call.id = true
  record : scan =
    { id := call.id
      serverSlug := call.slug
      engineName := result.engineName
      engineVersion := result.engineVersion
      grade := gradeOf result.risk
      transparency := transparencyOf result.risk
      risk := result.risk
      findings := result.findings
      evidence := result.evidence
      scannedAt := call.now
      sandboxImage := result.sandboxImage
      reportRef := none }

theorem madeFrom_of_ok {call : ScanCall} {result : ScanResult} (h : call.record result = .ok scan) :
    MadeFrom call result scan := by
  unfold ScanCall.record at h
  split_ifs at h with hvalid
  cases h
  rw [Bool.and_eq_true] at hvalid
  exact ⟨hvalid.1, hvalid.2, rfl⟩

theorem writable_scan {call : ScanCall} {result : ScanResult} (h : MadeFrom call result scan) (hvalid : result.Valid)
    (hid : Refresh.Clean scan.id) (hslug : Refresh.Clean scan.serverSlug) (htime : Refresh.Clean (dumpTime scan.scannedAt))
    (depth : Nat) : Writable (depth + 4) (.obj (scanPayload dumpTime scan)) := by
  rw [h.record] at hid hslug htime ⊢
  have hrisk : Writable (depth + 3) (riskJson result.risk) :=
    writable_risk hvalid.risk hvalid.coverage hvalid.severities (depth + 1)
  have hfindings : Writable (depth + 3) (.arr (result.findings.map findingJson)) :=
    writable_list fun finding hmem => writable_finding (hvalid.findings finding hmem) (depth + 1)
  have hevidence : Writable (depth + 3) (optional evidenceJson result.evidence) :=
    writable_optional fun evidence hmem => writable_evidence (hvalid.evidence evidence hmem) depth
  have hnames : (["id", "server_slug", "engine_name", "engine_version", "grade", "transparency", "risk", "findings",
      "evidence", "scanned_at", "sandbox_image", "report_ref"].map u).Nodup := Qualification.nodup_names (by decide)
  refine writable_obj hnames ?_
  simp only [scanPayload, List.forall_mem_cons, List.not_mem_nil, false_imp_iff, implies_true, and_true]
  exact ⟨⟨chain_u _, writable_text hid _⟩, ⟨chain_u _, writable_text hslug _⟩,
    ⟨chain_u _, writable_text hvalid.engineName _⟩, ⟨chain_u _, writable_text hvalid.engineVersion _⟩,
    ⟨chain_u _, writable_word _ _⟩, ⟨chain_u _, writable_word _ _⟩, ⟨chain_u _, hrisk⟩, ⟨chain_u _, hfindings⟩,
    ⟨chain_u _, hevidence⟩, ⟨chain_u _, writable_text htime _⟩, ⟨chain_u _, writable_maybe hvalid.sandboxImage _⟩,
    ⟨chain_u _, writable_null _⟩⟩

theorem mem_filled {name : String} {value : Option Str} {kv : Str × Json} (h : kv ∈ filled name value) :
    kv.1 = u name ∧ ∃ s ∈ value, kv.2 = .str s := by
  unfold filled at h
  split at h
  · cases h
  · cases h
  · rw [List.mem_singleton.mp h]
    exact ⟨rfl, _, rfl, rfl⟩

theorem keys_filled (name : String) (value : Option Str) : (Dict.keys (filled name value)).Sublist [u name] := by
  unfold filled
  split
  · exact List.nil_sublist _
  · exact List.nil_sublist _
  · exact List.Sublist.refl _

theorem writable_sandbox (henv : env.Clean) (himage : ∀ s ∈ scan.sandboxImage, Refresh.Clean s) (depth : Nat) :
    Writable (depth + 1) (.obj (sandboxFields env scan)) := by
  obtain ⟨hsandbox, hnetwork, hcredentials, -, -⟩ := henv
  have hmember {name : String} {value : Option Str} (hclean : ∀ s ∈ value, Refresh.Clean s) {kv : Str × Json}
      (hkv : kv ∈ filled name value) : kv.1.IsChain NoPair ∧ Writable depth kv.2 := by
    obtain ⟨hname, s, hs, hvalue⟩ := mem_filled hkv
    rw [hname, hvalue]
    exact ⟨chain_u _, writable_text (hclean s hs) depth⟩
  have hnames : (["MCP_TRUST_SANDBOX", "MCP_TRUST_SANDBOX_IMAGE", "MCP_TRUST_SANDBOX_NETWORK",
      "MCP_TRUST_SCAN_CREDENTIALS"].map u).Nodup := Qualification.nodup_names (by decide)
  apply writable_obj
  · refine hnames.sublist ?_
    unfold Dict.keys sandboxFields
    rw [List.map_append, List.map_append, List.map_append]
    exact (((keys_filled _ _).append (keys_filled _ _)).append (keys_filled _ _)).append (keys_filled _ _)
  · intro kv hkv
    simp only [sandboxFields, List.mem_append] at hkv
    obtain ((hkv | hkv) | hkv) | hkv := hkv
    · exact hmember hsandbox hkv
    · exact hmember himage hkv
    · exact hmember hnetwork hkv
    · exact hmember hcredentials hkv

theorem writable_scanner (henv : env.Clean) (hname : Refresh.Clean scan.engineName)
    (hversion : Refresh.Clean scan.engineVersion) (depth : Nat) :
    Writable (depth + 1) (.obj (scannerFields env scan)) := by
  have hnames : (["engine_name", "engine_version", "scanner_git_ref"].map u).Nodup :=
    Qualification.nodup_names (by decide)
  refine writable_obj hnames ?_
  simp only [scannerFields, List.forall_mem_cons, List.not_mem_nil, false_imp_iff, implies_true, and_true]
  exact ⟨⟨chain_u _, writable_text hname _⟩, ⟨chain_u _, writable_text hversion _⟩,
    ⟨chain_u _, writable_maybe henv.2.2.2.1 _⟩⟩

theorem receiptFields_names : Dict.keys (receiptFields dumpTime env server scan) =
    ["format_version", "scan_id", "server_slug", "server", "scan", "evidence", "danger_score", "sandbox", "scanner",
      "approval", "caveats"].map u := rfl

theorem nodup_receiptFields : (Dict.keys (receiptFields dumpTime env server scan)).Nodup := by
  rw [receiptFields_names]
  exact Qualification.nodup_names (by decide)

theorem clean_of_nameChars {s : Str} (h : ∀ c ∈ s, NameChar c) : Refresh.Clean s := fun c hc => (h c hc).plain.1

theorem writable_receiptFields {call : ScanCall} {result : ScanResult} (h : MadeFrom call result scan)
    (hvalid : result.Valid) (henv : env.Clean) (htime : ∀ time, Refresh.Clean (dumpTime time))
    (hserver : ∀ s ∈ serverTexts dumpTime server, Refresh.Clean s) :
    Writable 64 (.obj (receiptFields dumpTime env server scan)) := by
  have hid : Refresh.Clean scan.id := by
    rw [h.record]
    exact clean_of_nameChars (nameChar_scanId h.id)
  have hslug : Refresh.Clean scan.serverSlug := by
    rw [h.record]
    exact clean_of_nameChars (nameChar_slug h.slug)
  have hscan : Writable 63 (.obj (scanPayload dumpTime scan)) := writable_scan h hvalid hid hslug (htime _) 59
  have hevidence : Writable 63 (optional evidenceJson scan.evidence) := by
    rw [h.record]
    exact writable_optional fun evidence hmem => writable_evidence (hvalid.evidence evidence hmem) 60
  have hscore : Writable 63 (.float (dangerScore scan.risk)) := by
    rw [h.record]
    exact writable_dangerScore hvalid.risk 63
  have hsandbox : Writable 63 (.obj (sandboxFields env scan)) := by
    refine writable_sandbox henv ?_ 62
    rw [h.record]
    exact hvalid.sandboxImage
  have hscanner : Writable 63 (.obj (scannerFields env scan)) := by
    refine writable_scanner henv ?_ ?_ 62
    · rw [h.record]
      exact hvalid.engineName
    · rw [h.record]
      exact hvalid.engineVersion
  have happroval : Writable 63 (.obj [(u "approval_ref", optional .str env.approvalRef)]) := by
    refine writable_obj (List.nodup_singleton _) fun kv hkv => ?_
    rw [List.mem_singleton.mp hkv]
    exact ⟨chain_u "approval_ref", writable_maybe henv.2.2.2.2 62⟩
  have hcaveats : Writable 63 (.arr ((caveatTexts env server scan).map text)) :=
    writable_list fun caveat _ => writable_word caveat 62
  refine writable_obj nodup_receiptFields ?_
  simp only [receiptFields, List.forall_mem_cons, List.not_mem_nil, false_imp_iff, implies_true, and_true]
  exact ⟨⟨chain_u _, writable_int _ _⟩, ⟨chain_u _, writable_text hid _⟩, ⟨chain_u _, writable_text hslug _⟩,
    ⟨chain_u _, writable_server hserver 60⟩, ⟨chain_u _, hscan⟩, ⟨chain_u _, hevidence⟩, ⟨chain_u _, hscore⟩,
    ⟨chain_u _, hsandbox⟩, ⟨chain_u _, hscanner⟩, ⟨chain_u _, happroval⟩, ⟨chain_u _, hcaveats⟩⟩

/-- The members of a written receipt repeat the columns of the row. -/
theorem receipt_reads_back (interp : Interpreter) (dump : Serializer) {content : Bytes}
    (h : Writable 64 (.obj (receiptFields dumpTime env server scan)))
    (hbytes : receiptBytes (receiptFields dumpTime env server scan) = .ok content) (reportRef : Option Str) :
    ∃ fields scanner, loadJson interp content = .ok (.obj fields) ∧ Dict.get fields "scanner" = .obj scanner ∧
      SameAsRow (scanRow dump { scan with reportRef := reportRef }) fields scanner := by
  unfold receiptBytes at hbytes
  split_ifs at hbytes with hprint
  cases hbytes
  have hload := Corpus.loadJson_written interp h (Corpus.printable_of_all hprint)
  rw [arrange_obj] at hload
  have hget (name : String) := get_arrangeFields Corpus.manifestStyle
    (@nodup_receiptFields dumpTime env server scan) name
  have hscanner : Dict.get (receiptFields dumpTime env server scan) "scanner" = .obj (scannerFields env scan) := by
    simp [receiptFields, Dict.get_cons]
  have hslug : Dict.get (receiptFields dumpTime env server scan) "server_slug" = .str scan.serverSlug := by
    simp [receiptFields, Dict.get_cons]
  have hid : Dict.get (receiptFields dumpTime env server scan) "scan_id" = .str scan.id := by
    simp [receiptFields, Dict.get_cons]
  have hnames : (Dict.keys (scannerFields env scan)).Nodup :=
    @Qualification.nodup_names ["engine_name", "engine_version", "scanner_git_ref"] (by decide)
  have hname : Dict.get (scannerFields env scan) "engine_name" = .str scan.engineName := by
    simp [scannerFields, Dict.get_cons]
  have hversion : Dict.get (scannerFields env scan) "engine_version" = .str scan.engineVersion := by
    simp [scannerFields, Dict.get_cons]
  refine ⟨_, arrangeFields Corpus.manifestStyle (scannerFields env scan), hload, ?_, ?_, ?_, ?_, ?_⟩
  · rw [hget, hscanner, arrange_obj]
  · rw [hget, hslug, Corpus.arrange_text]
    exact decide_eq_true rfl
  · rw [hget, hid, Corpus.arrange_text]
    exact decide_eq_true rfl
  · rw [get_arrangeFields _ hnames, hname, Corpus.arrange_text]
    exact decide_eq_true rfl
  · rw [get_arrangeFields _ hnames, hversion, Corpus.arrange_text]
    exact decide_eq_true rfl

end Writable

end McpTrust.Launch
