import McpTrust.Core.Models
import McpTrust.Launch.State
import McpTrust.Corpus.ManifestJson
import McpTrust.Refresh.Scanned
import McpTrust.Python.JsonWritable
import McpTrust.Qualification.HostCapacity
import McpTrust.Corpus.Ledgers

/-! # Reviewed corpus records

The records between the registry manifest and the public catalog, their validators, and the
file they are kept in: what was written is read back.
-/

namespace McpTrust.Corpus

set_option autoImplicit false

open Python

inductive CorpusRecordStatus
  | proposed
  | approvedForScan
  | scannedTemp
  | published
  | deferred
  deriving DecidableEq

def CorpusRecordStatus.text : CorpusRecordStatus → String
  | .proposed => "proposed"
  | .approvedForScan => "approved-for-scan"
  | .scannedTemp => "scanned-temp"
  | .published => "published"
  | .deferred => "deferred"

inductive GradeSource
  | controlledLiveScan
  deriving DecidableEq

def GradeSource.text : GradeSource → String
  | .controlledLiveScan => "controlled-live-scan"

structure PackageSource where
  registryType : Str
  identifier : Str
  version : Str
  repositoryUrl : Option Str := none
  deriving DecidableEq

structure ReceiptEvidenceRef where
  receiptRef : Str
  approvalRef : Str
  scannedAt : Str
  scanMode : CandidateMode
  sandboxImage : Option Str := none
  sandboxNetwork : Option Str := none
  grade : TrustGrade
  transparency : TransparencyLevel
  /-- `Field(ge=0)`. -/
  toolCount : Nat
  schemaHashAlgorithm : Str := u "sha256"
  gradeSource : GradeSource := .controlledLiveScan
  deriving DecidableEq

structure PublicCorpusRecord where
  recordId : Str
  registryName : Str
  displayName : Str
  status : CorpusRecordStatus := .proposed
  recommendedMode : CandidateMode
  package : Option PackageSource := none
  freshness : Freshness := .unknown
  dedupeKeys : List Str := []
  sourceCaveats : List Str := []
  receipt : Option ReceiptEvidenceRef := none
  publishCaveats : List Str := []
  deriving DecidableEq

structure CorpusRecordSet where
  formatVersion : ℤ := 1
  records : List PublicCorpusRecord := []
  deriving DecidableEq

/-! ## Validators -/

/-- `_validate_receipt_ref`. -/
def validReceiptRef (value : Str) : Bool :=
  decide (value ≠ [] ∧ value.length ≤ 512 ∧ value.head? ≠ some (ch '/') ∧ ch '\\' ∉ value) &&
    value.all (fun c => decide (32 ≤ c.val)) &&
      (value.splitOn (ch '/')).all fun segment => decide (segment ∉ [u "", u ".", u ".."])

/-- `_validate_record_id`. -/
def validRecordId (value : Str) : Bool := decide (value.length ≤ 128) && isSlug value

/-- `_validate_public_boundaries`. -/
def validBoundaries (record : PublicCorpusRecord) : Bool :=
  decide (record.status = .published → record.receipt ≠ none) &&
    record.receipt.all (fun receipt => decide (receipt.scanMode = record.recommendedMode)) &&
      decide (record.recommendedMode = .noAuthSandboxed → ∀ package ∈ record.package, package.version ≠ [])

def PublicCorpusRecord.valid (record : PublicCorpusRecord) : Bool :=
  validRecordId record.recordId && record.receipt.all (fun receipt => validReceiptRef receipt.receiptRef) &&
    validBoundaries record

def recordIds (records : List PublicCorpusRecord) : List Str := records.map PublicCorpusRecord.recordId

def CorpusRecordSet.valid (set : CorpusRecordSet) : Bool :=
  set.records.all PublicCorpusRecord.valid && decide (recordIds set.records).Nodup

/-! ## The fields of a document -/

def CorpusRecordStatus.ofText (value : Str) : Option CorpusRecordStatus :=
  [proposed, approvedForScan, scannedTemp, published, deferred].find? fun status => decide (value = u status.text)

def CandidateMode.ofText (value : Str) : Option CandidateMode :=
  [noAuthSandboxed, credentialedSandboxed, networkedSandboxed, remoteNetworked, packageOnly].find? fun mode =>
    decide (value = u mode.text)

def Freshness.ofText (value : Str) : Option Freshness :=
  [fresh, aging, stale, unknown, deprecated, deleted].find? fun state => decide (value = u state.text)

def GradeSource.ofText (value : Str) : Option GradeSource :=
  [controlledLiveScan].find? fun source => decide (value = u source.text)

/-- How an `int` field reads a value; an integer is read as itself. -/
structure IntField where
  read : Json → Option ℤ
  int : ∀ n, read (.int n) = some n

/-- A `str` field takes text of Unicode characters. -/
def readText : Json → Option Str
  | .str s => if s.all fun c => !isSurrogate c then some s else none
  | _ => none

def readEnum {α : Type} (ofText : Str → Option α) : Json → Option α
  | .str s => ofText s
  | _ => none

def readOptional {α : Type} (read : Json → Option α) : Json → Option (Option α)
  | .null => some none
  | v => (read v).map some

def readList {α : Type} (read : Json → Option α) : Json → Option (List α)
  | .arr items => items.mapM read
  | _ => none

def readCount (ints : IntField) (v : Json) : Option Nat :=
  (ints.read v).bind fun n => if 0 ≤ n then some n.toNat else none

/-- A field of a model; without a default it must be there. -/
def readField {α : Type} (fields : Dict) (name : String) (default : Option α) (read : Json → Option α) : Option α :=
  match Dict.lookup fields (u name) with
  | none => default
  | some v => read v

def PackageSource.read : Json → Option PackageSource
  | .obj fields => do
    let registryType ← readField fields "registry_type" none readText
    let identifier ← readField fields "identifier" none readText
    let version ← readField fields "version" none readText
    let repositoryUrl ← readField fields "repository_url" (some none) (readOptional readText)
    some { registryType, identifier, version, repositoryUrl }
  | _ => none

def ReceiptEvidenceRef.read (ints : IntField) : Json → Option ReceiptEvidenceRef
  | .obj fields => do
    let receiptRef ← readField fields "receipt_ref" none readText
    let approvalRef ← readField fields "approval_ref" none readText
    let scannedAt ← readField fields "scanned_at" none readText
    let scanMode ← readField fields "scan_mode" none (readEnum CandidateMode.ofText)
    let sandboxImage ← readField fields "sandbox_image" (some none) (readOptional readText)
    let sandboxNetwork ← readField fields "sandbox_network" (some none) (readOptional readText)
    let grade ← readField fields "grade" none (readEnum TrustGrade.ofText)
    let transparency ← readField fields "transparency" none (readEnum TransparencyLevel.ofText)
    let toolCount ← readField fields "tool_count" none (readCount ints)
    let schemaHashAlgorithm ← readField fields "schema_hash_algorithm" (some (u "sha256")) readText
    let gradeSource ← readField fields "grade_source" (some .controlledLiveScan) (readEnum GradeSource.ofText)
    some
      { receiptRef, approvalRef, scannedAt, scanMode, sandboxImage, sandboxNetwork, grade, transparency, toolCount,
        schemaHashAlgorithm, gradeSource }
  | _ => none

def PublicCorpusRecord.read (ints : IntField) : Json → Option PublicCorpusRecord
  | .obj fields => do
    let recordId ← readField fields "record_id" none readText
    let registryName ← readField fields "registry_name" none readText
    let displayName ← readField fields "display_name" none readText
    let status ← readField fields "status" (some .proposed) (readEnum CorpusRecordStatus.ofText)
    let recommendedMode ← readField fields "recommended_mode" none (readEnum CandidateMode.ofText)
    let package ← readField fields "package" (some none) (readOptional PackageSource.read)
    let freshness ← readField fields "freshness" (some .unknown) (readEnum Freshness.ofText)
    let dedupeKeys ← readField fields "dedupe_keys" (some []) (readList readText)
    let sourceCaveats ← readField fields "source_caveats" (some []) (readList readText)
    let receipt ← readField fields "receipt" (some none) (readOptional (ReceiptEvidenceRef.read ints))
    let publishCaveats ← readField fields "publish_caveats" (some []) (readList readText)
    some
      { recordId, registryName, displayName, status, recommendedMode, package, freshness, dedupeKeys, sourceCaveats,
        receipt, publishCaveats }
  | _ => none

def CorpusRecordSet.read (ints : IntField) : Json → Option CorpusRecordSet
  | .obj fields => do
    let formatVersion ← readField fields "format_version" (some 1) ints.read
    let records ← readField fields "records" (some []) (readList (PublicCorpusRecord.read ints))
    some { formatVersion, records }
  | _ => none

def maxCorpusRecordBytes : Nat := 1048576

/-- `load_corpus_records(path)` of the bytes at the path; a `ValidationError` is a `ValueError`. -/
def loadCorpusRecords (ints : IntField) (interp : Interpreter) (content : Bytes) : Except PyErr CorpusRecordSet :=
  if maxCorpusRecordBytes < content.length then .error .valueError
  else do
    let payload ← Launch.loadJson interp content
    match CorpusRecordSet.read ints payload with
    | none => .error .valueError
    | some set => if set.valid then .ok set else .error .valueError

/-! ## The document of a set -/

def named (fields : List (String × Json)) : Json := .obj (fields.map fun field => (u field.1, field.2))

/-- `None` for an absent model. -/
def orNull {α : Type} (json : α → Json) : Option α → Json
  | none => .null
  | some a => json a

def PackageSource.fields (package : PackageSource) : List (String × Json) :=
  [("registry_type", .str package.registryType), ("identifier", .str package.identifier),
    ("version", .str package.version), ("repository_url", textOrNull package.repositoryUrl)]

def ReceiptEvidenceRef.fields (receipt : ReceiptEvidenceRef) : List (String × Json) :=
  [("receipt_ref", .str receipt.receiptRef), ("approval_ref", .str receipt.approvalRef),
    ("scanned_at", .str receipt.scannedAt), ("scan_mode", .str (u receipt.scanMode.text)),
    ("sandbox_image", textOrNull receipt.sandboxImage), ("sandbox_network", textOrNull receipt.sandboxNetwork),
    ("grade", .str (u receipt.grade.text)), ("transparency", .str (u receipt.transparency.text)),
    ("tool_count", .int receipt.toolCount), ("schema_hash_algorithm", .str receipt.schemaHashAlgorithm),
    ("grade_source", .str (u receipt.gradeSource.text))]

def PublicCorpusRecord.fields (record : PublicCorpusRecord) : List (String × Json) :=
  [("record_id", .str record.recordId), ("registry_name", .str record.registryName),
    ("display_name", .str record.displayName), ("status", .str (u record.status.text)),
    ("recommended_mode", .str (u record.recommendedMode.text)),
    ("package", orNull (fun package => named package.fields) record.package),
    ("freshness", .str (u record.freshness.text)), ("dedupe_keys", texts record.dedupeKeys),
    ("source_caveats", texts record.sourceCaveats),
    ("receipt", orNull (fun receipt => named receipt.fields) record.receipt),
    ("publish_caveats", texts record.publishCaveats)]

def PublicCorpusRecord.json (record : PublicCorpusRecord) : Json := named record.fields

def CorpusRecordSet.fields (set : CorpusRecordSet) : List (String × Json) :=
  [("format_version", .int set.formatVersion), ("records", .arr (set.records.map PublicCorpusRecord.json))]

/-- `record_set.model_dump(mode="json")`. -/
def CorpusRecordSet.json (set : CorpusRecordSet) : Json := named set.fields

/-- What `main` writes to `--out`; the text is ASCII. -/
def writeCorpusRecords (set : CorpusRecordSet) : Except PyErr Bytes :=
  if set.json.walk.all Qualification.isPrintable then
    .ok ((dumps manifestStyle set.json ++ [ch '\n']).flatMap encodeCodePoint)
  else .error .valueError

/-! ## Texts -/

def PackageSource.texts (package : PackageSource) : List Str :=
  [package.registryType, package.identifier, package.version] ++ package.repositoryUrl.toList

def ReceiptEvidenceRef.texts (receipt : ReceiptEvidenceRef) : List Str :=
  [receipt.receiptRef, receipt.approvalRef, receipt.scannedAt, receipt.schemaHashAlgorithm] ++
    (receipt.sandboxImage.toList ++ receipt.sandboxNetwork.toList)

def PublicCorpusRecord.texts (record : PublicCorpusRecord) : List Str :=
  [record.recordId, record.registryName, record.displayName] ++
    (record.dedupeKeys ++ (record.sourceCaveats ++ (record.publishCaveats ++
      (record.package.toList.flatMap PackageSource.texts ++ record.receipt.toList.flatMap ReceiptEvidenceRef.texts))))

/-- Every text of the record is made of Unicode characters. -/
def PublicCorpusRecord.Clean (record : PublicCorpusRecord) : Prop := ∀ s ∈ record.texts, Refresh.Clean s

def CorpusRecordSet.Clean (set : CorpusRecordSet) : Prop := ∀ record ∈ set.records, record.Clean

/-! ## Reading a written field -/

theorem CorpusRecordStatus.ofText_text (status : CorpusRecordStatus) : ofText (u status.text) = some status := by
  cases status <;> decide

theorem CandidateMode.ofText_text (mode : CandidateMode) : ofText (u mode.text) = some mode := by
  cases mode <;> decide

theorem Freshness.ofText_text (state : Freshness) : ofText (u state.text) = some state := by
  cases state <;> decide

theorem GradeSource.ofText_text (source : GradeSource) : ofText (u source.text) = some source := by
  cases source
  decide

theorem readText_str {s : Str} (h : Refresh.Clean s) : readText (.str s) = some s := by
  refine if_pos (List.all_eq_true.mpr fun c hc => ?_)
  rw [Bool.not_eq_true']
  exact h c hc

theorem clean_of_readText {v : Json} {s : Str} (h : readText v = some s) : Refresh.Clean s := by
  cases v <;> simp only [readText, reduceCtorEq] at h
  split_ifs at h with hall
  cases h
  intro c hc
  have hscalar := List.all_eq_true.mp hall c hc
  rwa [Bool.not_eq_true'] at hscalar

theorem arrange_text (s : Str) : manifestStyle.arrange (.str s) = .str s := arrange_scalar _ (by simp [Json.sortKeys])

theorem arrange_int (n : ℤ) : manifestStyle.arrange (.int n) = .int n := arrange_scalar _ (by simp [Json.sortKeys])

theorem arrange_null : manifestStyle.arrange .null = .null := arrange_scalar _ (by simp [Json.sortKeys])

/-- A field of a sorted object is read as it stood there. -/
theorem exists_arranged {fields : List (String × Json)} (hnames : (fields.map Prod.fst).Nodup) :
    ∃ arranged, manifestStyle.arrange (named fields) = .obj arranged ∧
      ∀ {α : Type} (default : Option α) (read : Json → Option α), ∀ field ∈ fields,
        readField arranged field.1 default read = read (manifestStyle.arrange field.2) := by
  refine ⟨_, arrange_obj manifestStyle _, fun default read field hfield => ?_⟩
  have hkeys : (Dict.keys (fields.map fun field => (u field.1, field.2))).Nodup := by
    have hmapped : ((fields.map Prod.fst).map u).Nodup := hnames.map fun _ _ hsame => u_inj.mp hsame
    rw [List.map_map] at hmapped
    rwa [Dict.keys, List.map_map]
  have hmem : (u field.1, field.2) ∈ fields.map fun field => (u field.1, field.2) :=
    List.mem_map.mpr ⟨field, hfield, rfl⟩
  have hsorted : (Dict.keys (Json.sortFields (fields.map fun field => (u field.1, field.2)))).Nodup := by
    rwa [Json.keys_sortFields]
  have hlookup : Dict.lookup (arrangeFields manifestStyle (fields.map fun field => (u field.1, field.2))) (u field.1) =
      some (manifestStyle.arrange field.2) := by
    change Dict.lookup ((Json.sortFields _).insertionSort KeyLe) _ = some (Json.sortKeys field.2)
    rw [← Dict.lookup_perm (List.perm_insertionSort KeyLe _).symm hsorted, Json.lookup_map_sortKeys,
      Dict.lookup_of_mem hkeys hmem]
    rfl
  rw [readField, hlookup]

theorem read_text {s : Str} (h : Refresh.Clean s) : readText (manifestStyle.arrange (.str s)) = some s := by
  rw [arrange_text, readText_str h]

theorem read_textOrNull {text : Option Str} (h : ∀ s ∈ text, Refresh.Clean s) :
    readOptional readText (manifestStyle.arrange (textOrNull text)) = some text := by
  cases text with
  | none =>
    rw [textOrNull, arrange_null]
    rfl
  | some s =>
    rw [textOrNull, arrange_text, readOptional, readText_str (h s rfl)]
    · rfl
    · exact Json.noConfusion

theorem read_enum {α : Type} {ofText : Str → Option α} {text : Str} {a : α} (h : ofText text = some a) :
    readEnum ofText (manifestStyle.arrange (.str text)) = some a := by
  rw [arrange_text]
  exact h

theorem read_items {α : Type} {read : Json → Option α} {json : α → Json} {items : List α}
    (h : ∀ a ∈ items, read (manifestStyle.arrange (json a)) = some a) :
    readList read (manifestStyle.arrange (.arr (items.map json))) = some items := by
  rw [arrange_arr, readList, List.map_map]
  induction items with
  | nil => rfl
  | cons a items ih =>
    rw [List.map_cons, List.mapM_cons, Function.comp_apply, h a List.mem_cons_self,
      ih fun b hb => h b (List.mem_cons_of_mem _ hb)]
    rfl

theorem read_texts {values : List Str} (h : ∀ s ∈ values, Refresh.Clean s) :
    readList readText (manifestStyle.arrange (texts values)) = some values :=
  read_items fun s hs => read_text (h s hs)

theorem read_orNull {α : Type} {read : Json → Option α} {fields : α → List (String × Json)} {value : Option α}
    (h : ∀ a ∈ value, read (manifestStyle.arrange (named (fields a))) = some a) :
    readOptional read (manifestStyle.arrange (orNull (fun a => named (fields a)) value)) = some value := by
  cases value with
  | none =>
    rw [orNull, arrange_null]
    rfl
  | some a =>
    have hread := h a rfl
    rw [orNull]
    rw [named, arrange_obj] at hread ⊢
    rw [readOptional, hread]
    · rfl
    · exact Json.noConfusion

theorem read_count (ints : IntField) (n : Nat) : readCount ints (manifestStyle.arrange (.int n)) = some n := by
  rw [arrange_int, readCount, ints.int, Option.bind_some, if_pos (Int.natCast_nonneg n), Int.toNat_natCast]

/-! ## Reading a written set -/

theorem PackageSource.names_nodup (package : PackageSource) : (package.fields.map Prod.fst).Nodup := by
  simp only [fields, List.map_cons, List.map_nil]
  decide

theorem ReceiptEvidenceRef.names_nodup (receipt : ReceiptEvidenceRef) : (receipt.fields.map Prod.fst).Nodup := by
  simp only [fields, List.map_cons, List.map_nil]
  decide

theorem PublicCorpusRecord.names_nodup (record : PublicCorpusRecord) : (record.fields.map Prod.fst).Nodup := by
  simp only [fields, List.map_cons, List.map_nil]
  decide

theorem CorpusRecordSet.names_nodup (set : CorpusRecordSet) : (set.fields.map Prod.fst).Nodup := by
  simp only [fields, List.map_cons, List.map_nil]
  decide

theorem PackageSource.read_json {package : PackageSource} (h : ∀ s ∈ package.texts, Refresh.Clean s) :
    PackageSource.read (manifestStyle.arrange (named package.fields)) = some package := by
  obtain ⟨arranged, harranged, hfield⟩ := exists_arranged package.names_nodup
  simp only [texts, List.mem_append, List.mem_cons, List.not_mem_nil, or_false, Option.mem_toList, or_imp, forall_and,
    forall_eq] at h
  obtain ⟨⟨hregistry, hidentifier, hversion⟩, hrepository⟩ := h
  simp only [fields, List.forall_mem_cons, List.not_mem_nil, false_imp_iff, implies_true, and_true] at hfield
  rw [harranged]
  simp only [PackageSource.read, hfield, read_text hregistry, read_text hidentifier, read_text hversion,
    read_textOrNull hrepository, Option.bind_eq_bind, Option.bind_some]

theorem ReceiptEvidenceRef.read_json (ints : IntField) {receipt : ReceiptEvidenceRef}
    (h : ∀ s ∈ receipt.texts, Refresh.Clean s) :
    ReceiptEvidenceRef.read ints (manifestStyle.arrange (named receipt.fields)) = some receipt := by
  obtain ⟨arranged, harranged, hfield⟩ := exists_arranged receipt.names_nodup
  simp only [texts, List.mem_append, List.mem_cons, List.not_mem_nil, or_false, Option.mem_toList, or_imp, forall_and,
    forall_eq] at h
  obtain ⟨⟨href, happroval, hscanned, halgorithm⟩, himage, hnetwork⟩ := h
  simp only [fields, List.forall_mem_cons, List.not_mem_nil, false_imp_iff, implies_true, and_true] at hfield
  rw [harranged]
  simp only [ReceiptEvidenceRef.read, hfield, read_text href, read_text happroval, read_text hscanned,
    read_text halgorithm, read_textOrNull himage, read_textOrNull hnetwork, read_count,
    read_enum receipt.scanMode.ofText_text, read_enum receipt.grade.ofText_text,
    read_enum receipt.transparency.ofText_text, read_enum receipt.gradeSource.ofText_text, Option.bind_eq_bind,
    Option.bind_some]

theorem PublicCorpusRecord.read_json (ints : IntField) {record : PublicCorpusRecord} (h : record.Clean) :
    PublicCorpusRecord.read ints (manifestStyle.arrange record.json) = some record := by
  obtain ⟨arranged, harranged, hfield⟩ := exists_arranged record.names_nodup
  simp only [Clean, texts, List.mem_append, List.mem_cons, List.not_mem_nil, or_false, List.mem_flatMap,
    Option.mem_toList, or_imp, forall_and, forall_eq] at h
  obtain ⟨⟨hid, hregistry, hdisplay⟩, hkeys, hsource, hpublish, hpackage, hreceipt⟩ := h
  have hpackages : ∀ package ∈ record.package,
      PackageSource.read (manifestStyle.arrange (named package.fields)) = some package :=
    fun package hmem => PackageSource.read_json fun s hs => hpackage s ⟨package, hmem, hs⟩
  have hreceipts : ∀ receipt ∈ record.receipt,
      ReceiptEvidenceRef.read ints (manifestStyle.arrange (named receipt.fields)) = some receipt :=
    fun receipt hmem => ReceiptEvidenceRef.read_json ints fun s hs => hreceipt s ⟨receipt, hmem, hs⟩
  simp only [fields, List.forall_mem_cons, List.not_mem_nil, false_imp_iff, implies_true, and_true] at hfield
  rw [json, harranged]
  simp only [PublicCorpusRecord.read, hfield, read_text hid, read_text hregistry, read_text hdisplay,
    read_enum record.status.ofText_text, read_enum record.recommendedMode.ofText_text,
    read_enum record.freshness.ofText_text, read_texts hkeys, read_texts hsource, read_texts hpublish,
    read_orNull hpackages, read_orNull hreceipts, Option.bind_eq_bind, Option.bind_some]

theorem CorpusRecordSet.read_json (ints : IntField) {set : CorpusRecordSet} (h : set.Clean) :
    CorpusRecordSet.read ints (manifestStyle.arrange set.json) = some set := by
  obtain ⟨arranged, harranged, hfield⟩ := exists_arranged set.names_nodup
  have hrecords : readList (PublicCorpusRecord.read ints)
      (manifestStyle.arrange (.arr (set.records.map PublicCorpusRecord.json))) = some set.records :=
    read_items fun record hrecord => PublicCorpusRecord.read_json ints (h record hrecord)
  simp only [fields, List.forall_mem_cons, List.not_mem_nil, false_imp_iff, implies_true, and_true] at hfield
  rw [json, harranged]
  simp only [CorpusRecordSet.read, hfield, arrange_int, ints.int, hrecords, Option.bind_eq_bind, Option.bind_some]

/-! ## What is read is made of characters -/

theorem readField_eq {α : Type} {fields : Dict} {name : String} {default : Option α} {read : Json → Option α} {a : α}
    (h : readField fields name default read = some a) : default = some a ∨ ∃ v, read v = some a := by
  unfold readField at h
  split at h
  · exact .inl h
  · exact .inr ⟨_, h⟩

theorem clean_field {fields : Dict} {name : String} {s : Str} (h : readField fields name none readText = some s) :
    Refresh.Clean s := by
  obtain h | ⟨v, h⟩ := readField_eq h
  · cases h
  · exact clean_of_readText h

theorem readOptional_eq {α : Type} {read : Json → Option α} {v : Json} {value : Option α}
    (h : readOptional read v = some value) : ∀ a ∈ value, ∃ w, read w = some a := by
  rintro a rfl
  unfold readOptional at h
  split at h
  · cases h
  · obtain ⟨b, hb, hsame⟩ := Option.map_eq_some_iff.mp h
    cases hsame
    exact ⟨v, hb⟩

theorem readList_eq {α : Type} {read : Json → Option α} {v : Json} {items : List α}
    (h : readList read v = some items) : ∀ a ∈ items, ∃ w, read w = some a := by
  cases v <;> simp only [readList, reduceCtorEq] at h
  rename_i values
  induction values generalizing items with
  | nil =>
    cases h
    intro a ha
    cases ha
  | cons w values ih =>
    rw [List.mapM_cons] at h
    obtain ⟨b, hb, h⟩ := Option.bind_eq_some_iff.mp h
    obtain ⟨rest, hrest, h⟩ := Option.bind_eq_some_iff.mp h
    cases h
    intro a ha
    obtain rfl | ha := List.mem_cons.mp ha
    · exact ⟨w, hb⟩
    · exact ih hrest a ha

theorem clean_optional {fields : Dict} {name : String} {text : Option Str}
    (h : readField fields name (some none) (readOptional readText) = some text) : ∀ s ∈ text, Refresh.Clean s := by
  intro s hs
  obtain h | ⟨v, h⟩ := readField_eq h
  · cases h
    cases hs
  · obtain ⟨w, hw⟩ := readOptional_eq h s hs
    exact clean_of_readText hw

theorem clean_list {fields : Dict} {name : String} {values : List Str}
    (h : readField fields name (some []) (readList readText) = some values) : ∀ s ∈ values, Refresh.Clean s := by
  intro s hs
  obtain h | ⟨v, h⟩ := readField_eq h
  · cases h
    cases hs
  · obtain ⟨w, hw⟩ := readList_eq h s hs
    exact clean_of_readText hw

theorem clean_u (s : String) : Refresh.Clean (u s) := by
  intro c hc
  rw [u_eq_map] at hc
  obtain ⟨d, -, rfl⟩ := List.mem_map.mp hc
  exact isSurrogate_ch d

theorem PackageSource.clean_read {v : Json} {package : PackageSource} (h : PackageSource.read v = some package) :
    ∀ s ∈ package.texts, Refresh.Clean s := by
  cases v <;> simp only [PackageSource.read, reduceCtorEq, Option.bind_eq_bind, Option.bind_eq_some_iff] at h
  obtain ⟨registryType, hregistry, identifier, hidentifier, version, hversion, repositoryUrl, hrepository, h⟩ := h
  cases h
  simp only [texts, List.mem_append, List.mem_cons, List.not_mem_nil, or_false, Option.mem_toList, or_imp, forall_and,
    forall_eq]
  exact ⟨⟨clean_field hregistry, clean_field hidentifier, clean_field hversion⟩, clean_optional hrepository⟩

theorem ReceiptEvidenceRef.clean_read {ints : IntField} {v : Json} {receipt : ReceiptEvidenceRef}
    (h : ReceiptEvidenceRef.read ints v = some receipt) : ∀ s ∈ receipt.texts, Refresh.Clean s := by
  cases v <;> simp only [ReceiptEvidenceRef.read, reduceCtorEq, Option.bind_eq_bind, Option.bind_eq_some_iff] at h
  obtain ⟨receiptRef, href, approvalRef, happroval, scannedAt, hscanned, _, -, image, himage, network, hnetwork, _, -,
    _, -, _, -, algorithm, halgorithm, _, -, h⟩ := h
  cases h
  have hclean : Refresh.Clean algorithm := by
    obtain h | ⟨w, h⟩ := readField_eq halgorithm
    · cases h
      exact clean_u _
    · exact clean_of_readText h
  simp only [texts, List.mem_append, List.mem_cons, List.not_mem_nil, or_false, Option.mem_toList, or_imp, forall_and,
    forall_eq]
  exact ⟨⟨clean_field href, clean_field happroval, clean_field hscanned, hclean⟩, clean_optional himage,
    clean_optional hnetwork⟩

theorem PublicCorpusRecord.clean_read {ints : IntField} {v : Json} {record : PublicCorpusRecord}
    (h : PublicCorpusRecord.read ints v = some record) : record.Clean := by
  cases v <;> simp only [PublicCorpusRecord.read, reduceCtorEq, Option.bind_eq_bind, Option.bind_eq_some_iff] at h
  obtain ⟨id, hid, registry, hregistry, display, hdisplay, _, -, _, -, package, hpackage, _, -, keys, hkeys, source,
    hsource, receipt, hreceipt, publish, hpublish, h⟩ := h
  cases h
  have hpackages : ∀ p ∈ package, ∀ s ∈ p.texts, Refresh.Clean s := by
    intro p hp
    obtain h | ⟨w, h⟩ := readField_eq hpackage
    · cases h
      cases hp
    · obtain ⟨w, hw⟩ := readOptional_eq h p hp
      exact PackageSource.clean_read hw
  have hreceipts : ∀ r ∈ receipt, ∀ s ∈ r.texts, Refresh.Clean s := by
    intro r hr
    obtain h | ⟨w, h⟩ := readField_eq hreceipt
    · cases h
      cases hr
    · obtain ⟨w, hw⟩ := readOptional_eq h r hr
      exact ReceiptEvidenceRef.clean_read hw
  simp only [Clean, texts, List.mem_append, List.mem_cons, List.not_mem_nil, or_false, List.mem_flatMap,
    Option.mem_toList, or_imp, forall_and, forall_eq, forall_exists_index, and_imp]
  exact ⟨⟨clean_field hid, clean_field hregistry, clean_field hdisplay⟩, clean_list hkeys, clean_list hsource,
    clean_list hpublish, fun s p hp hs => hpackages p hp s hs, fun s r hr hs => hreceipts r hr s hs⟩

theorem CorpusRecordSet.clean_read {ints : IntField} {v : Json} {set : CorpusRecordSet}
    (h : CorpusRecordSet.read ints v = some set) : set.Clean := by
  cases v <;> simp only [CorpusRecordSet.read, reduceCtorEq, Option.bind_eq_bind, Option.bind_eq_some_iff] at h
  obtain ⟨_, -, records, hrecords, h⟩ := h
  cases h
  intro record hrecord
  obtain h | ⟨w, h⟩ := readField_eq hrecords
  · cases h
    cases hrecord
  · obtain ⟨w, hw⟩ := readList_eq h record hrecord
    exact PublicCorpusRecord.clean_read hw

/-! ## The file -/

theorem writable_clean {s : Str} (h : Refresh.Clean s) (depth : Nat) : Writable depth (.str s) :=
  writable_str (chain_of_scalars h) depth

theorem writable_name (s : String) (depth : Nat) : Writable depth (.str (u s)) := writable_str (chain_u s) depth

theorem writable_textOrNull {text : Option Str} (h : ∀ s ∈ text, Refresh.Clean s) (depth : Nat) :
    Writable depth (textOrNull text) := by
  cases text with
  | none => exact writable_null depth
  | some s => exact writable_clean (h s rfl) depth

theorem writable_texts {values : List Str} (h : ∀ s ∈ values, Refresh.Clean s) (depth : Nat) :
    Writable (depth + 1) (texts values) := by
  apply writable_arr
  intro v hv
  obtain ⟨s, hs, rfl⟩ := List.mem_map.mp hv
  exact writable_clean (h s hs) depth

theorem writable_orNull {α : Type} {json : α → Json} {value : Option α} {depth : Nat}
    (h : ∀ a ∈ value, Writable depth (json a)) : Writable depth (orNull json value) := by
  cases value with
  | none => exact writable_null depth
  | some a => exact h a rfl

theorem PackageSource.writable {package : PackageSource} (h : ∀ s ∈ package.texts, Refresh.Clean s) (depth : Nat) :
    Writable (depth + 1) (named package.fields) := by
  simp only [texts, List.mem_append, List.mem_cons, List.not_mem_nil, or_false, Option.mem_toList, or_imp, forall_and,
    forall_eq] at h
  obtain ⟨⟨hregistry, hidentifier, hversion⟩, hrepository⟩ := h
  apply writable_named package.names_nodup
  simp only [fields, List.forall_mem_cons, List.not_mem_nil, false_imp_iff, implies_true, and_true]
  exact ⟨writable_clean hregistry depth, writable_clean hidentifier depth, writable_clean hversion depth,
    writable_textOrNull hrepository depth⟩

theorem ReceiptEvidenceRef.writable {receipt : ReceiptEvidenceRef} (h : ∀ s ∈ receipt.texts, Refresh.Clean s)
    (depth : Nat) : Writable (depth + 1) (named receipt.fields) := by
  simp only [texts, List.mem_append, List.mem_cons, List.not_mem_nil, or_false, Option.mem_toList, or_imp, forall_and,
    forall_eq] at h
  obtain ⟨⟨href, happroval, hscanned, halgorithm⟩, himage, hnetwork⟩ := h
  apply writable_named receipt.names_nodup
  simp only [fields, List.forall_mem_cons, List.not_mem_nil, false_imp_iff, implies_true, and_true]
  exact ⟨writable_clean href depth, writable_clean happroval depth, writable_clean hscanned depth, writable_name _ depth,
    writable_textOrNull himage depth, writable_textOrNull hnetwork depth, writable_name _ depth, writable_name _ depth,
    writable_int _ depth, writable_clean halgorithm depth, writable_name _ depth⟩

theorem PublicCorpusRecord.writable {record : PublicCorpusRecord} (h : record.Clean) (depth : Nat) :
    Writable (depth + 2) record.json := by
  simp only [Clean, texts, List.mem_append, List.mem_cons, List.not_mem_nil, or_false, List.mem_flatMap,
    Option.mem_toList, or_imp, forall_and, forall_eq] at h
  obtain ⟨⟨hid, hregistry, hdisplay⟩, hkeys, hsource, hpublish, hpackage, hreceipt⟩ := h
  have hpackages : Writable (depth + 1) (orNull (fun package => named package.fields) record.package) :=
    writable_orNull fun package hmem => package.writable (fun s hs => hpackage s ⟨package, hmem, hs⟩) depth
  have hreceipts : Writable (depth + 1) (orNull (fun receipt => named receipt.fields) record.receipt) :=
    writable_orNull fun receipt hmem => receipt.writable (fun s hs => hreceipt s ⟨receipt, hmem, hs⟩) depth
  apply writable_named record.names_nodup
  simp only [fields, List.forall_mem_cons, List.not_mem_nil, false_imp_iff, implies_true, and_true]
  exact ⟨writable_clean hid _, writable_clean hregistry _, writable_clean hdisplay _, writable_name _ _,
    writable_name _ _, hpackages, writable_name _ _, writable_texts hkeys _, writable_texts hsource _, hreceipts,
    writable_texts hpublish _⟩

theorem CorpusRecordSet.writable {set : CorpusRecordSet} (h : set.Clean) : Writable 64 set.json := by
  have hrecords : Writable 63 (.arr (set.records.map PublicCorpusRecord.json)) := by
    apply writable_arr
    intro v hv
    obtain ⟨record, hrecord, rfl⟩ := List.mem_map.mp hv
    exact PublicCorpusRecord.writable (h record hrecord) 60
  apply writable_named set.names_nodup
  simp only [fields, List.forall_mem_cons, List.not_mem_nil, false_imp_iff, implies_true, and_true]
  exact ⟨writable_int _ _, hrecords⟩

theorem printable_of_all {v : Json} (h : v.walk.all Qualification.isPrintable = true) : Printable v := by
  intro n hn
  have hshort := List.all_eq_true.mp h (.int n) hn
  exact of_decide_eq_true hshort

/-- What `json.dumps(v, indent=2, sort_keys=True) + "\n"` leaves in a file is read back with sorted keys. -/
theorem loadJson_written (interp : Interpreter) {v : Json} (h : Writable 64 v) (hprint : Printable v) :
    Launch.loadJson interp ((dumps manifestStyle v ++ [ch '\n']).flatMap encodeCodePoint) =
      .ok (manifestStyle.arrange v) := by
  have htext : Ascii (dumps manifestStyle v ++ [ch '\n']) := (Refresh.ascii_dumps rfl _).append (by decide)
  have harranged : Writable 64 (manifestStyle.arrange v) := h.sortKeys
  have hints : Printable (manifestStyle.arrange v) := fun n hn =>
    hprint n (Receipt.mem_walk_sortKeys hn (Receipt.int_not_container n).1 (Receipt.int_not_container n).2)
  have hspace : ∀ c ∈ [ch '\n'], isSpace c = true := by
    intro c hc
    rw [List.mem_singleton.mp hc]
    decide
  rw [Launch.loadJson, Refresh.decodeUtf8_ascii htext]
  exact loads_dumps (admits_of_writable harranged hints manifestStyle) (harranged.shallow.trans interp.deep) hspace

/-- A valid set that was written to a file within the limit is the set that is loaded from it. -/
theorem load_written (ints : IntField) (interp : Interpreter) {set : CorpusRecordSet} {content : Bytes}
    (hvalid : set.valid = true) (hclean : set.Clean) (hwrite : writeCorpusRecords set = .ok content)
    (hsize : content.length ≤ maxCorpusRecordBytes) : loadCorpusRecords ints interp content = .ok set := by
  unfold writeCorpusRecords at hwrite
  split_ifs at hwrite with hprint
  cases hwrite
  have hload := loadJson_written interp (CorpusRecordSet.writable hclean) (printable_of_all hprint)
  rw [loadCorpusRecords, if_neg (Nat.not_lt.mpr hsize), hload]
  change (match CorpusRecordSet.read ints (manifestStyle.arrange set.json) with
    | none => _
    | some set => if set.valid then Except.ok set else _) = _
  rw [CorpusRecordSet.read_json ints hclean]
  exact if_pos hvalid

/-- What is loaded passed the validators and holds characters only. -/
theorem loaded {ints : IntField} {interp : Interpreter} {content : Bytes} {set : CorpusRecordSet}
    (h : loadCorpusRecords ints interp content = .ok set) : set.valid = true ∧ set.Clean := by
  unfold loadCorpusRecords at h
  split_ifs at h
  obtain ⟨payload, -, h⟩ := bind_eq_ok.mp h
  cases hread : CorpusRecordSet.read ints payload with
  | none =>
    rw [hread] at h
    cases h
  | some read =>
    simp only [hread] at h
    split_ifs at h with hvalid
    cases h
    exact ⟨hvalid, CorpusRecordSet.clean_read hread⟩

end McpTrust.Corpus
