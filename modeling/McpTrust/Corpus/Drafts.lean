import McpTrust.Qualification.Scan
import McpTrust.Corpus.Promotion
import McpTrust.Launch.ScanRuns

/-! # Drafted corpus records

A batch of temporary scans leaves a database and a directory of receipts, and from these a
record set is drafted for review. What a run of promotions then publishes is graded as one of
the scans of the batch.
-/

namespace McpTrust.Corpus

set_option autoImplicit false

open Python Sqlite Store

/-! ## Reading the batch -/

/-- `str(v)`, `int(v)` and `dict(v)` of a decoded value, which leave text, integers and objects as
they are, and `json.loads` of bytes. -/
structure Conversions where
  str : Json → Str
  int : Json → Except PyErr ℤ
  dict : Json → Except PyErr Dict
  loads : Bytes → Except PyErr Json
  str_text : ∀ s, str (.str s) = s
  int_int : ∀ n, int (.int n) = .ok n
  dict_obj : ∀ fields, dict (.obj fields) = .ok fields

structure DbServer where
  slug : SqlValue
  name : SqlValue
  homepage : SqlValue
  source : Json

section Draft

variable (conv : Conversions) (interp : Interpreter)

/-- `json.loads(row["source_json"])`. -/
def loadColumn : SqlValue → Except PyErr Json
  | .null => .error .typeError
  | .text s => jsonLoads interp s
  | .blob b => conv.loads b

/-- `_load_servers(db_path)`, in the order of the slugs. -/
def loadServers (table : ServerTable) : Except PyErr (List DbServer) :=
  (table.rows.insertionSort SlugBefore).mapM fun row => do
    let source ← loadColumn conv interp row.sourceJson
    .ok ⟨row.slug, row.name, row.homepage, source⟩

/-! ## The version in a slug -/

/-- `\d+`; a slug is ASCII. -/
def isNumber (segment : Str) : Bool := !segment.isEmpty && segment.all isDigit

/-- `[a-z0-9]+`. -/
def isSuffixSegment (segment : Str) : Bool := !segment.isEmpty && segment.all fun c => isDigit c || isLowerAlpha c

/-- `\d+(?:-\d+)+(?:-[a-z0-9]+)*` on what the hyphens separate. -/
def isVersion : List Str → Bool
  | major :: minor :: rest => isNumber major && isNumber minor && rest.all isSuffixSegment
  | _ => false

/-- `_VERSION_SUFFIX_RE.search(slug)`: what follows the first hyphen that fits. -/
def versionSegments : List Str → Option (List Str)
  | [] => none
  | _ :: rest => if isVersion rest then some rest else versionSegments rest

def joinWith (separator : Char) (segments : List Str) : Str := [ch separator].intercalate segments

/-- The release core has three numbers at most; the rest is a prerelease. -/
def npmVersion (segments : List Str) : Str :=
  let core := (segments.takeWhile isNumber).take 3
  let rest := segments.drop core.length
  joinWith '.' core ++ if rest = [] then [] else ch '-' :: joinWith '.' rest

def versionFromSlug (slug registryType : Str) : Except PyErr Str :=
  match versionSegments (slug.splitOn (ch '-')) with
  | none => .error .valueError
  | some segments => .ok (if lower registryType = u "npm" then npmVersion segments else joinWith '.' segments)

/-! ## One record -/

/-- `receipt.get(name) or {}`, of which members are read. -/
def memberOr (receipt : Dict) (name : String) : Except PyErr Dict :=
  match pyOr (Dict.get receipt name) (.obj []) with
  | .obj fields => .ok fields
  | _ => .error .attributeError

def draftPackage (slug : Str) (server : DbServer) (source : Dict) : Except PyErr PackageSource := do
  let kind ← Qualification.subscript source "kind"
  let version ← versionFromSlug slug (conv.str kind)
  let reference ← Qualification.subscript source "reference"
  let repositoryUrl ← readOptionalStr server.homepage
  .ok { registryType := conv.str kind, identifier := conv.str reference, version, repositoryUrl }

def draftEvidence (receiptRef : Str) (receipt : Dict) : Except PyErr ReceiptEvidenceRef := do
  let evidence ← memberOr receipt "evidence"
  let scan ← memberOr receipt "scan"
  let sandbox ← memberOr receipt "sandbox"
  let approval ← memberOr receipt "approval"
  let scannedAt ← Qualification.subscript scan "scanned_at"
  let sandboxImage ← orInvalid (readOptional readText (Dict.get sandbox "MCP_TRUST_SANDBOX_IMAGE"))
  let sandboxNetwork ← orInvalid (readOptional readText (Dict.get sandbox "MCP_TRUST_SANDBOX_NETWORK"))
  let grade ← Qualification.subscript scan "grade" >>= fun v => orInvalid (readEnum TrustGrade.ofText v)
  let transparency ← Qualification.subscript scan "transparency" >>= fun v =>
    orInvalid (readEnum TransparencyLevel.ofText v)
  let tools ← conv.int (pyOr (Dict.get evidence "tool_count") (.int 0))
  let toolCount ← orInvalid (if 0 ≤ tools then some tools.toNat else none)
  .ok
    { receiptRef
      approvalRef := conv.str (pyOr (Dict.get approval "approval_ref") (.str []))
      scannedAt := conv.str scannedAt
      scanMode := .noAuthSandboxed
      sandboxImage
      sandboxNetwork
      grade
      transparency
      toolCount
      schemaHashAlgorithm := conv.str (pyOr (Dict.get evidence "schema_hash_algorithm") (.str (u "sha256"))) }

def draftDedupeKeys (server : DbServer) (package : PackageSource) : List Str :=
  [u "package:" ++ package.registryType ++ u ":" ++ package.identifier ++ u ":" ++ package.version] ++
    (match package.repositoryUrl with
      | none | some [] => []
      | some url => [u "repo:" ++ url]) ++
    [u "registry:" ++ pyStr server.name ++ u ":" ++ package.version]

def draftRecord (slug : Str) (server : DbServer) (package : PackageSource) (evidence : ReceiptEvidenceRef) :
    PublicCorpusRecord where
  recordId := slug
  registryName := pyStr server.name
  displayName := pyStr server.name
  status := .scannedTemp
  recommendedMode := .noAuthSandboxed
  package := some package
  freshness := .unknown
  dedupeKeys := draftDedupeKeys server package
  sourceCaveats :=
    [u "Registry/package metadata is discovery and provenance only.",
      u "Exact version was inferred from the approved temp scan slug.",
      u "This record is review-only and is not a public catalog entry."]
  receipt := some evidence
  publishCaveats :=
    [u "Do not publish until source/provenance review is complete.",
      u "Network-off sandboxing may suppress behavior requiring live egress.",
      u "Danger grade and transparency are separate signals."]

/-- What the models check when the record is built; a text holds characters only. -/
def validated (record : PublicCorpusRecord) : Except PyErr PublicCorpusRecord :=
  if record.valid && record.texts.all (fun s => s.all fun c => !isSurrogate c) then .ok record else .error .valueError

/-- `_record_from_receipt` of the bytes of a receipt. -/
def recordFromReceipt (servers : List DbServer) (receiptRef : Str) (content : Bytes) :
    Except PyErr PublicCorpusRecord := do
  let payload ← Launch.loadJson interp content
  let receipt ← (match payload with
    | .obj receipt => .ok receipt
    | _ => .error .typeError)
  let slug ← Qualification.subscript receipt "server_slug"
  let named ← Qualification.subscript receipt "server" >>= conv.dict
  match servers.find? fun server => decide (server.slug = .text (conv.str slug)) with
  | none => .error .valueError
  | some server => do
    let source ← conv.dict server.source
    let receiptSource ← Qualification.subscript named "source" >>= conv.dict
    if (Json.obj source).pyEq (.obj receiptSource) then do
      let package ← draftPackage conv (conv.str slug) server source
      let evidence ← draftEvidence conv receiptRef receipt
      validated (draftRecord (conv.str slug) server package evidence)
    else .error .valueError

/-- `receipt_path.relative_to(receipt_root.parent).as_posix()`; the directory may be nameless. -/
def relativeRef (dirName name : Str) : Str := if dirName = [] then name else dirName ++ ch '/' :: name

/-- `build_record_set(db_path, receipts_dir)`, where `names` are the files `*.json`. -/
def buildRecordSet (desk : Launch.Desk) (dirName : Str) (names : List Str) : Except PyErr CorpusRecordSet := do
  let servers ← loadServers conv interp desk.registry.servers
  if names = [] then .error .valueError
  else do
    let records ← names.mapM fun name =>
      match desk.receipts name with
      | some (.file content) => recordFromReceipt conv interp servers (relativeRef dirName name) content
      | _ => .error .osError
    if (recordIds records).Nodup then .ok { records } else .error .valueError

/-- `main(argv)`, as the file it writes. -/
def draftFile (desk : Launch.Desk) (dirName : Str) (names : List Str) : Except PyErr Bytes := do
  let set ← buildRecordSet conv interp desk dirName names
  writeCorpusRecords set

end Draft

/-! ## The receipts of a run -/

section Receipts

open Launch (Command Desk FileEntry Prepared MadeFrom ScanCall ScanResult receiptName receiptFields receiptBytes
  temporaryName transparencyOf)

variable {py : Pydantic} {validateSource : SourceModel} {interp : Interpreter} {dumpSource : SourceDump}
  {dump : Serializer} {dumpTime : TimeDump}

/-- The bytes are the receipt of a scan among the commands. -/
structure ScanReceipt (dumpTime : TimeDump) (commands : List Command) (name : Str) (content : Bytes) (call : ScanCall)
    (result : ScanResult) (scan : ScanRecord) (server : Server) : Prop where
  command : Command.scan call ∈ commands
  returned : call.result = some result
  made : MadeFrom call result scan
  name : name = receiptName call.slug call.id
  writable : Writable 64 (.obj (receiptFields dumpTime call.env server scan))
  bytes : receiptBytes (receiptFields dumpTime call.env server scan) = .ok content

/-- What the file `name` of the receipts directory may be. -/
def Filed (dumpTime : TimeDump) (commands : List Command) (name : Str) (entry : FileEntry) : Prop :=
  ∃ content call result scan server, entry = .file content ∧
    ScanReceipt dumpTime commands name content call result scan server

theorem Filed.mono {commands more : List Command} {name : Str} {entry : FileEntry}
    (h : Filed dumpTime commands name entry) (hsub : commands ⊆ more) : Filed dumpTime more name entry := by
  obtain ⟨content, call, result, scan, server, hentry, hreceipt⟩ := h
  refine ⟨content, call, result, scan, server, hentry, hsub hreceipt.command, hreceipt.returned, hreceipt.made, ?_, ?_, ?_⟩
  · exact hreceipt.name
  · exact hreceipt.writable
  · exact hreceipt.bytes

/-- Every file `*.json` is the receipt of a scan. -/
def AllFiled (dumpTime : TimeDump) (commands : List Command) (desk : Desk) : Prop :=
  ∀ name, u ".json" <:+ name → ∀ entry ∈ desk.receipts name, Filed dumpTime commands name entry

theorem not_json_temporaryName (name : Str) : ¬u ".json" <:+ temporaryName name := by
  rintro ⟨front, h⟩
  have hlast := congrArg List.getLast? h
  have htemporary : (temporaryName name).getLast? = some (ch 'p') := by
    rw [temporaryName, List.getLast?_append]
    rfl
  have hjson : (front ++ u ".json").getLast? = some (ch 'n') := by
    rw [List.getLast?_append]
    rfl
  rw [htemporary, hjson] at hlast
  exact absurd hlast (by decide)

theorem AllFiled.temporary {commands : List Command} {desk : Desk} (h : AllFiled dumpTime commands desk) (name : Str)
    (left : Option FileEntry) :
    AllFiled dumpTime commands { desk with receipts := Function.update desk.receipts (temporaryName name) left } := by
  intro other hjson entry hentry
  have hne : other ≠ temporaryName name := by
    rintro rfl
    exact not_json_temporaryName name hjson
  change entry ∈ Function.update desk.receipts (temporaryName name) left other at hentry
  rw [Function.update_of_ne hne] at hentry
  exact h other hjson entry hentry

theorem AllFiled.after_scan {commands : List Command} {desk : Desk} {used : List Str} {call : ScanCall}
    (h : AllFiled dumpTime commands desk)
    (hholds : desk.Holds py validateSource interp dumpSource dump dumpTime used) (hcall : call.Valid)
    (htime : ∀ time, Refresh.Clean (dumpTime time)) :
    AllFiled dumpTime (commands ++ [.scan call])
      (desk.afterScan py validateSource interp dumpSource dump dumpTime call) := by
  have hkept : AllFiled dumpTime (commands ++ [.scan call]) desk := fun name hjson entry hentry =>
    (h name hjson entry hentry).mono (List.subset_append_left _ _)
  unfold Desk.afterScan
  cases hprepared : Launch.prepareScan py validateSource interp dumpTime desk call with
  | error e => exact hkept
  | ok prepared =>
    obtain ⟨scan, content⟩ := prepared
    obtain ⟨server, result, hfound, hresult, hmade, hbytes⟩ := Launch.prepared_of_ok hprepared
    cases content with
    | none => exact hkept
    | some bytes =>
      dsimp only
      cases hdisk : call.disk with
      | refused left => exact hkept.temporary _ left
      | replaced =>
        intro name hjson entry hentry
        change entry ∈ Function.update (Function.update desk.receipts
          (temporaryName (receiptName scan.serverSlug scan.id)) none) (receiptName scan.serverSlug scan.id)
            (some (.file bytes)) name at hentry
        by_cases hname : name = receiptName scan.serverSlug scan.id
        · rw [hname, Function.update_self, Option.mem_some_iff] at hentry
          have hwritable := Launch.writable_receiptFields hmade (hcall.result result hresult) hcall.env htime
            (hholds.found hfound).texts
          refine ⟨bytes, call, result, scan, server, hentry.symm, List.mem_append_right _ List.mem_cons_self, hresult,
            hmade, ?_, hwritable, hbytes bytes rfl⟩
          rw [hname, hmade.record]
        · rw [Function.update_of_ne hname] at hentry
          exact hkept.temporary _ none name hjson entry hentry

theorem commandsValid_left {before after : List Command}
    (h : Launch.CommandsValid py validateSource interp dumpSource dumpTime (before ++ after)) :
    Launch.CommandsValid py validateSource interp dumpSource dumpTime before := by
  refine ⟨fun server hmem => h.servers server (List.mem_append_left _ hmem),
    fun call hmem => h.scans call (List.mem_append_left _ hmem), ?_⟩
  have hdistinct := h.distinct
  rw [Launch.scanIds, List.filterMap_append] at hdistinct
  exact hdistinct.of_append_left

theorem allFiled_afterAll {commands : List Command} (htime : ∀ time, Refresh.Clean (dumpTime time))
    (hcommands : Launch.CommandsValid py validateSource interp dumpSource dumpTime commands) :
    AllFiled dumpTime commands
      (Desk.afterAll py validateSource interp dumpSource dump dumpTime ⟨emptyRegistry, fun _ => none⟩ commands) := by
  induction commands using List.reverseRecOn with
  | nil => exact fun name _ entry hentry => absurd hentry (Option.not_mem_none entry)
  | append_singleton commands command ih =>
    have hbefore := commandsValid_left hcommands
    have hholds := Launch.holds_run dump (fun _ => none) htime hbefore
    rw [Desk.afterAll, List.foldl_append]
    change AllFiled dumpTime _ (Desk.after py validateSource interp dumpSource dump dumpTime
      (Desk.afterAll py validateSource interp dumpSource dump dumpTime ⟨emptyRegistry, fun _ => none⟩ commands) command)
    cases command with
    | upsert server =>
      exact fun name hjson entry hentry => (ih hbefore name hjson entry hentry).mono (List.subset_append_left _ _)
    | scan call =>
      exact (ih hbefore).after_scan hholds (hcommands.scans call (List.mem_append_right _ List.mem_cons_self)) htime

end Receipts

/-! ## What is drafted from a receipt -/

section Drafted

open Launch (Command Desk ScanCall ScanResult receiptName receiptFields receiptBytes transparencyOf)

variable {conv : Conversions} {interp : Interpreter} {dumpTime : TimeDump} {receipt : Dict} {receiptRef : Str}
  {record : PublicCorpusRecord}

theorem get_of_subscript {fields : Dict} {name : String} {v : Json} (h : Qualification.subscript fields name = .ok v) :
    Dict.get fields name = v := by
  unfold Qualification.subscript at h
  cases hlookup : Dict.lookup fields (u name) with
  | none =>
    rw [hlookup] at h
    cases h
  | some value =>
    rw [hlookup] at h
    cases h
    rw [Dict.get, hlookup]
    rfl

theorem orInvalid_eq_ok {α : Type} {value : Option α} {a : α} (h : orInvalid value = .ok a) : value = some a := by
  cases value with
  | none => cases h
  | some b =>
    cases h
    rfl

theorem evidence_of_ok {scan : Dict} {evidence : ReceiptEvidenceRef} (hscan : Dict.get receipt "scan" = .obj scan)
    (hne : scan ≠ []) (h : draftEvidence conv receiptRef receipt = .ok evidence) :
    evidence.receiptRef = receiptRef ∧ evidence.scannedAt = conv.str (Dict.get scan "scanned_at") ∧
      readEnum TrustGrade.ofText (Dict.get scan "grade") = some evidence.grade ∧
      readEnum TransparencyLevel.ofText (Dict.get scan "transparency") = some evidence.transparency := by
  have hmember : memberOr receipt "scan" = .ok scan := by
    have htruthy : truthy (.obj scan) = true := by
      cases scan with
      | nil => exact absurd rfl hne
      | cons kv rest => rfl
    rw [memberOr, hscan, pyOr, if_pos htruthy]
  obtain ⟨tools, -, h⟩ := bind_eq_ok.mp h
  obtain ⟨found, hfound, h⟩ := bind_eq_ok.mp h
  rw [hmember] at hfound
  cases hfound
  obtain ⟨sandbox, -, h⟩ := bind_eq_ok.mp h
  obtain ⟨approval, -, h⟩ := bind_eq_ok.mp h
  obtain ⟨scannedAt, hscannedAt, h⟩ := bind_eq_ok.mp h
  obtain ⟨image, -, h⟩ := bind_eq_ok.mp h
  obtain ⟨network, -, h⟩ := bind_eq_ok.mp h
  obtain ⟨grade, hgrade, h⟩ := bind_eq_ok.mp h
  obtain ⟨transparency, htransparency, h⟩ := bind_eq_ok.mp h
  obtain ⟨count, -, h⟩ := bind_eq_ok.mp h
  obtain ⟨toolCount, -, h⟩ := bind_eq_ok.mp h
  cases h
  obtain ⟨gradeText, hgradeText, hgrade⟩ := bind_eq_ok.mp hgrade
  obtain ⟨levelText, hlevelText, htransparency⟩ := bind_eq_ok.mp htransparency
  rw [get_of_subscript hscannedAt, get_of_subscript hgradeText, get_of_subscript hlevelText]
  exact ⟨rfl, rfl, orInvalid_eq_ok hgrade, orInvalid_eq_ok htransparency⟩

/-- What the script makes of a receipt it accepts. -/
structure Drafted (conv : Conversions) (receiptRef : Str) (receipt : Dict) (record : PublicCorpusRecord) : Prop where
  slug : record.recordId = conv.str (Dict.get receipt "server_slug")
  status : record.status = .scannedTemp
  evidence : ∃ evidence, record.receipt = some evidence ∧ draftEvidence conv receiptRef receipt = .ok evidence
  valid : record.valid = true
  clean : record.Clean

theorem validated_eq_ok {draft : PublicCorpusRecord} (h : validated draft = .ok record) :
    record = draft ∧ record.valid = true ∧ record.Clean := by
  unfold validated at h
  split_ifs at h with hchecked
  cases h
  rw [Bool.and_eq_true] at hchecked
  exact ⟨rfl, hchecked.1, clean_of_all hchecked.2⟩

theorem drafted_of_ok {servers : List DbServer} {content : Bytes}
    (hload : Launch.loadJson interp content = .ok (.obj receipt))
    (h : recordFromReceipt conv interp servers receiptRef content = .ok record) : Drafted conv receiptRef receipt record := by
  obtain ⟨payload, hpayload, h⟩ := bind_eq_ok.mp h
  rw [hload] at hpayload
  cases hpayload
  obtain ⟨_, ⟨⟩, h⟩ := bind_eq_ok.mp h
  obtain ⟨slug, hslug, h⟩ := bind_eq_ok.mp h
  obtain ⟨named, -, h⟩ := bind_eq_ok.mp h
  cases hfound : servers.find? fun server => decide (server.slug = .text (conv.str slug)) with
  | none =>
    rw [hfound] at h
    cases h
  | some server =>
    rw [hfound] at h
    obtain ⟨source, -, h⟩ := bind_eq_ok.mp h
    obtain ⟨receiptSource, -, h⟩ := bind_eq_ok.mp h
    split_ifs at h
    obtain ⟨package, -, h⟩ := bind_eq_ok.mp h
    obtain ⟨evidence, hevidence, h⟩ := bind_eq_ok.mp h
    obtain ⟨hrecord, hvalid, hclean⟩ := validated_eq_ok h
    rw [← get_of_subscript hslug] at hrecord
    refine ⟨?_, ?_, ⟨evidence, ?_, hevidence⟩, hvalid, hclean⟩ <;> rw [hrecord] <;> rfl

/-- The record carries the grade and the transparency of the scan, and names its receipt. -/
structure GradedBy (dumpTime : TimeDump) (dirName : Str) (call : ScanCall) (result : ScanResult)
    (record : PublicCorpusRecord) : Prop where
  slug : record.recordId = call.slug
  evidence : ∃ evidence, record.receipt = some evidence ∧
    evidence.receiptRef = relativeRef dirName (receiptName call.slug call.id) ∧
    evidence.scannedAt = dumpTime call.now ∧ evidence.grade = gradeOf result.risk ∧
    evidence.transparency = transparencyOf result.risk

theorem ScanReceipt.loads {commands : List Command} {name : Str} {content : Bytes} {call : ScanCall}
    {result : ScanResult} {scan : ScanRecord} {server : Server}
    (h : ScanReceipt dumpTime commands name content call result scan server) (interp : Interpreter) :
    Launch.loadJson interp content =
      .ok (.obj (arrangeFields manifestStyle (receiptFields dumpTime call.env server scan))) := by
  have hbytes := h.bytes
  unfold receiptBytes at hbytes
  split_ifs at hbytes with hprint
  cases hbytes
  rw [loadJson_written interp h.writable (printable_of_all hprint), arrange_obj]

theorem scanPayload_nodup (scan : ScanRecord) : (Dict.keys (scanPayload dumpTime scan)).Nodup := by
  have hnames : (["id", "server_slug", "engine_name", "engine_version", "grade", "transparency", "risk", "findings",
      "evidence", "scanned_at", "sandbox_image", "report_ref"].map u).Nodup := Qualification.nodup_names (by decide)
  exact hnames

theorem ScanReceipt.gradedBy {commands : List Command} {name dirName : Str} {content : Bytes} {call : ScanCall}
    {result : ScanResult} {scan : ScanRecord} {server : Server} {servers : List DbServer}
    (h : ScanReceipt dumpTime commands name content call result scan server)
    (hrecord : recordFromReceipt conv interp servers (relativeRef dirName name) content = .ok record) :
    record.status = .scannedTemp ∧ record.valid = true ∧ record.Clean ∧
      GradedBy dumpTime dirName call result record := by
  have hdrafted := drafted_of_ok (h.loads interp) hrecord
  have hslug : Dict.get (receiptFields dumpTime call.env server scan) "server_slug" = .str scan.serverSlug := by
    simp [receiptFields, Dict.get_cons]
  have hscan : Dict.get (receiptFields dumpTime call.env server scan) "scan" = .obj (scanPayload dumpTime scan) := by
    simp [receiptFields, Dict.get_cons]
  have hget (name : String) := get_arrangeFields manifestStyle
    (@Launch.nodup_receiptFields dumpTime call.env server scan) name
  have hmember (name : String) := get_arrangeFields manifestStyle (@scanPayload_nodup dumpTime scan) name
  obtain ⟨evidence, hevidence, hmade⟩ := hdrafted.evidence
  have hnonempty : arrangeFields manifestStyle (scanPayload dumpTime scan) ≠ [] := by
    intro hnil
    have hid := hmember "id"
    rw [hnil] at hid
    have hthere : Dict.get (scanPayload dumpTime scan) "id" = .str scan.id := by simp [scanPayload, Dict.get_cons]
    rw [hthere, arrange_text] at hid
    cases hid
  have hscanThere : Dict.get (arrangeFields manifestStyle (receiptFields dumpTime call.env server scan)) "scan" =
      .obj (arrangeFields manifestStyle (scanPayload dumpTime scan)) := by
    rw [hget, hscan, arrange_obj]
  obtain ⟨href, htime, hgrade, hlevel⟩ := evidence_of_ok hscanThere hnonempty hmade
  have htimeText : Dict.get (scanPayload dumpTime scan) "scanned_at" = .str (dumpTime scan.scannedAt) := by
    simp [scanPayload, Dict.get_cons]
  have hgradeText : Dict.get (scanPayload dumpTime scan) "grade" = .str (u scan.grade.text) := by
    simp [scanPayload, Dict.get_cons, text]
  have hlevelText : Dict.get (scanPayload dumpTime scan) "transparency" = .str (u scan.transparency.text) := by
    simp [scanPayload, Dict.get_cons, text]
  rw [hmember, htimeText, arrange_text, conv.str_text] at htime
  rw [hmember, hgradeText, arrange_text] at hgrade
  rw [hmember, hlevelText, arrange_text] at hlevel
  have hgradeSame := (TrustGrade.ofText_text scan.grade).symm.trans hgrade
  have hlevelSame := (TransparencyLevel.ofText_text scan.transparency).symm.trans hlevel
  refine ⟨hdrafted.status, hdrafted.valid, hdrafted.clean, ?_, evidence, hevidence, ?_, ?_, ?_, ?_⟩
  · rw [hdrafted.slug, hget, hslug, arrange_text, conv.str_text, h.made.record]
  · rw [href, h.name]
  · rw [htime, h.made.record]
  · rw [← Option.some.inj hgradeSame, h.made.record]
  · rw [← Option.some.inj hlevelSame, h.made.record]

end Drafted

/-! ## A batch and its promotions -/

section Batch

open Launch (Command Desk ScanCall ScanResult)

variable {py : Pydantic} {validateSource : SourceModel} {interp : Interpreter} {dumpSource : SourceDump}
  {dump : Serializer} {dumpTime : TimeDump} {conv : Conversions} {ints : IntField}

/-- The desk a batch leaves, from an empty database and an empty directory. -/
def batchDesk (py : Pydantic) (validateSource : SourceModel) (interp : Interpreter) (dumpSource : SourceDump)
    (dump : Serializer) (dumpTime : TimeDump) (commands : List Command) : Desk :=
  Desk.afterAll py validateSource interp dumpSource dump dumpTime ⟨emptyRegistry, fun _ => none⟩ commands

/-- What the script drafts from a batch. -/
structure DraftedBatch (dumpTime : TimeDump) (commands : List Command) (dirName : Str) (set : CorpusRecordSet) : Prop where
  valid : set.valid = true
  clean : set.Clean
  status : ∀ record ∈ set.records, record.status = .scannedTemp
  graded : ∀ record ∈ set.records, ∃ call result, Command.scan call ∈ commands ∧ call.result = some result ∧
    GradedBy dumpTime dirName call result record

theorem draftedBatch_of_ok {commands : List Command} {dirName : Str} {names : List Str} {set : CorpusRecordSet}
    (htime : ∀ time, Refresh.Clean (dumpTime time))
    (hcommands : Launch.CommandsValid py validateSource interp dumpSource dumpTime commands)
    (hnames : ∀ name ∈ names, u ".json" <:+ name)
    (h : buildRecordSet conv interp (batchDesk py validateSource interp dumpSource dump dumpTime commands) dirName names =
      .ok set) : DraftedBatch dumpTime commands dirName set := by
  obtain ⟨servers, -, h⟩ := bind_eq_ok.mp h
  split_ifs at h
  obtain ⟨records, hrecords, h⟩ := bind_eq_ok.mp h
  split_ifs at h with hnodup
  cases h
  have hfiled : AllFiled dumpTime commands (batchDesk py validateSource interp dumpSource dump dumpTime commands) :=
    allFiled_afterAll htime hcommands
  have hall : ∀ record ∈ records, record.status = .scannedTemp ∧ record.valid = true ∧ record.Clean ∧
      ∃ call result, Command.scan call ∈ commands ∧ call.result = some result ∧
        GradedBy dumpTime dirName call result record := by
    intro record hrecord
    obtain ⟨name, hname, hdraft⟩ := (mapM_ok_mem hrecords).mp hrecord
    cases hentry : (batchDesk py validateSource interp dumpSource dump dumpTime commands).receipts name with
    | none =>
      rw [hentry] at hdraft
      cases hdraft
    | some entry =>
      obtain ⟨content, call, result, scan, server, rfl, hreceipt⟩ := hfiled name (hnames name hname) entry hentry
      rw [hentry] at hdraft
      obtain ⟨hstatus, hvalid, hclean, hgraded⟩ := hreceipt.gradedBy hdraft
      exact ⟨hstatus, hvalid, hclean, call, result, hreceipt.command, hreceipt.returned, hgraded⟩
  refine ⟨?_, fun record hmem => (hall record hmem).2.2.1, fun record hmem => (hall record hmem).1,
    fun record hmem => (hall record hmem).2.2.2⟩
  rw [CorpusRecordSet.valid, Bool.and_eq_true, List.all_eq_true, decide_eq_true_eq]
  exact ⟨fun record hmem => (hall record hmem).2.1, hnodup⟩

/-- A file that a run went on from is within the limit. -/
theorem size_of_run {calls : List Promotion} {content final : Bytes} {finish : CorpusRecordSet}
    (hrun : runPromotions ints interp content calls = .ok final)
    (hload : loadCorpusRecords ints interp final = .ok finish) : content.length ≤ maxCorpusRecordBytes := by
  cases calls with
  | nil =>
    cases hrun
    exact size_of_load hload
  | cons call calls =>
    rw [runPromotions, List.foldlM_cons] at hrun
    obtain ⟨middle, hmiddle, -⟩ := exceptBind_ok.mp hrun
    obtain ⟨set, hset⟩ := loads_of_promoteFile hmiddle
    exact size_of_load hset

theorem statusAfter_published {calls : List Promotion} {before : PublicCorpusRecord}
    (hstatus : before.status = .scannedTemp) : statusAfter calls before = .published ↔
      (∃ call ∈ calls, call.promotes before.recordId = true) ∧ ∀ call ∈ calls, call.defers before.recordId = false := by
  unfold statusAfter
  rw [hstatus]
  split_ifs with hdefers hpromotes
  · obtain ⟨call, hcall, hdefer⟩ := List.any_eq_true.mp hdefers
    refine ⟨fun h => h.elim, fun h => ?_⟩
    exact absurd hdefer (Bool.eq_false_iff.mp (h.2 call hcall))
  · refine ⟨fun _ => ⟨List.any_eq_true.mp hpromotes, fun call hcall => ?_⟩, fun _ => rfl⟩
    exact Bool.eq_false_iff.mpr fun hdefer => hdefers (List.any_eq_true.mpr ⟨call, hcall, hdefer⟩)
  · refine ⟨fun h => h.elim, fun h => ?_⟩
    exact absurd (List.any_eq_true.mpr h.1) hpromotes

end Batch

/-! ## A batch of one scan -/

theorem slug_versioned : isSlug (u "a-1-0-0") = true := by decide

def versionedServer : Server where
  slug := u "a-1-0-0"
  name := u "A"
  description := []
  source := plainSource
  homepage := none
  addedAt := secondTime
  slug_valid := slug_versioned

def versionedCall : Launch.ScanCall := { Launch.plainCall with slug := u "a-1-0-0" }

def versionedBatch : List Launch.Command := [.upsert versionedServer, .scan versionedCall]

def versionedPromotion : Promotion where
  promoteIds := [u "a-1-0-0"]
  promotionRef := u "ref"

def plainStr : Json → Str
  | .str s => s
  | _ => []

def plainInt : Json → Except PyErr ℤ
  | .int n => .ok n
  | _ => .error .typeError

def plainDict : Json → Except PyErr Dict
  | .obj fields => .ok fields
  | _ => .error .typeError

def plainConversions : Conversions where
  str := plainStr
  int := plainInt
  dict := plainDict
  loads _ := .error .unicodeError
  str_text _ := rfl
  int_int _ := rfl
  dict_obj _ := rfl

def versionedName : Str := Launch.receiptName versionedCall.slug versionedCall.id

/-- The batch is drafted, promoted and loaded. -/
def versionedRecords : Except PyErr CorpusRecordSet := do
  let content ← draftFile plainConversions calmInterpreter (batchDesk calmModels (fun _ => some plainSource) calmInterpreter
    (fun _ => plainSourceText) calmSerializer Launch.plainTime versionedBatch) (u "receipts") [versionedName]
  let final ← (runPromotions plainInts calmInterpreter content [versionedPromotion]).mapError fun _ => .valueError
  loadCorpusRecords plainInts calmInterpreter final

theorem scan_mem_versionedBatch {call : Launch.ScanCall} (h : .scan call ∈ versionedBatch) : call = versionedCall := by
  simp only [versionedBatch, List.mem_cons, Launch.Command.scan.injEq, reduceCtorEq, List.not_mem_nil, or_false,
    false_or] at h
  exact h

theorem versionedBatch_valid : Launch.CommandsValid calmModels (fun _ => some plainSource) calmInterpreter
    (fun _ => plainSourceText) Launch.plainTime versionedBatch := by
  have hrestored : Restored calmModels (fun _ => some plainSource) calmInterpreter (fun _ => plainSourceText)
      versionedServer := by
    obtain ⟨raw, hraw⟩ := plainSource_loads
    exact ⟨⟨raw, hraw, rfl⟩, fromisoformat_isoformat rfl⟩
  have htexts : Launch.serverTexts Launch.plainTime versionedServer =
      [u "a-1-0-0", u "A", u "", u "2026-01-02T00:00:00Z", u "a"] := rfl
  refine ⟨fun server hserver => ?_, fun call hcall => ?_, List.nodup_singleton _⟩
  · simp only [versionedBatch, List.mem_cons, Launch.Command.upsert.injEq, reduceCtorEq, List.not_mem_nil, or_false]
      at hserver
    rw [hserver]
    refine ⟨hrestored, ?_⟩
    rw [htexts]
    simp only [List.forall_mem_cons, List.not_mem_nil, false_imp_iff, implies_true, and_true]
    exact ⟨clean_u _, clean_u _, clean_u _, clean_u _, clean_u _⟩
  · rw [scan_mem_versionedBatch hcall]
    exact ⟨Launch.plainCall_valid.result, Launch.plainCall_valid.env, rfl⟩

theorem versionedPromotion_clean : versionedPromotion.Clean :=
  ⟨clean_u "ref", clean_u "not selected for this reviewed promotion cohort"⟩

theorem mapError_eq_ok {ε δ α : Type} {f : ε → δ} {r : Except ε α} {a : α} (h : r.mapError f = .ok a) : r = .ok a := by
  cases r with
  | error e => cases h
  | ok b => exact congrArg Except.ok (Except.ok.inj h)

end McpTrust.Corpus
