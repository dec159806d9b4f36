import McpTrust.Python.JsonLoads
import McpTrust.Python.Utf8
import McpTrust.Core.Models
import McpTrust.Store.Sqlite

/-! # The scan store

`ScanRepository` over the rows of the `scans` table. A row that does not decode
raises; the newest row of a slug is the greatest by time and then by id.
-/

namespace McpTrust.Store

set_option autoImplicit false

open Python Sqlite

/-- A row of the `scans` table under its declaration. -/
structure ScanRow where
  id : SqlValue
  serverSlug : SqlValue
  engineName : SqlValue
  engineVersion : SqlValue
  grade : SqlValue
  transparency : SqlValue
  riskJson : SqlValue
  findingsJson : SqlValue
  evidenceJson : SqlValue
  scannedAt : SqlValue
  sandboxImage : SqlValue
  reportRef : SqlValue
  declared : ∀ v ∈ [serverSlug, engineName, engineVersion, grade, transparency, riskJson, findingsJson,
    scannedAt], v ≠ SqlValue.null
  deriving DecidableEq

/-- The `scans` table. A primary key is unique among its values that are not null. -/
structure ScanTable where
  rows : List ScanRow
  uniqueIds : ((rows.map ScanRow.id).filter fun id => decide (id ≠ .null)).Nodup

/-! ## Reading a row -/

def maxStoredJsonBytes : Nat := 1048576

def maxStoredFindings : Nat := 1024

def maxStoredTools : Nat := 2048

/-- `_load_stored_json(value)`. -/
def loadStoredJson (interp : Interpreter) : SqlValue → Except PyErr Json
  | .text s =>
    if s.length > maxStoredJsonBytes then .error .valueError
    else do
      let bytes ← encodeUtf8 s
      if bytes.length > maxStoredJsonBytes then .error .valueError else jsonLoads interp s
  | _ => .error .valueError

/-- `except (JSONDecodeError, TypeError, UnicodeError, ValueError, ValidationError)`. -/
def isCorruption (e : PyErr) : Bool := e.isValueError || decide (e = .typeError)

def orInvalid {α : Type} : Option α → Except PyErr α
  | some a => .ok a
  | none => .error .valueError

/-- `[Finding.model_validate(f) for f in findings_raw]` within the admission limit. -/
def readFindings (py : Pydantic) : Json → Except PyErr (List Finding)
  | .arr items =>
    if items.length > maxStoredFindings then .error .valueError
    else items.mapM fun item => orInvalid (py.finding item)
  | _ => .error .valueError

def readRiskAndFindings (py : Pydantic) (interp : Interpreter) (row : ScanRow) :
    Except PyErr (RiskSummary × List Finding) :=
  catching
    (do
      let riskRaw ← loadStoredJson interp row.riskJson
      let risk ← orInvalid (py.risk riskRaw)
      let findingsRaw ← loadStoredJson interp row.findingsJson
      let findings ← readFindings py findingsRaw
      .ok (risk, findings))
    isCorruption (.error .valueError)

/-- `evidence_raw` lists more tools than the admission limit. -/
def tooManyTools : Json → Bool
  | .obj fields =>
    match Dict.get fields "tools" with
    | .arr tools => decide (tools.length > maxStoredTools)
    | _ => false
  | _ => false

def readEvidence (py : Pydantic) (interp : Interpreter) (row : ScanRow) :
    Except PyErr (Option ScanEvidence) :=
  if row.evidenceJson.truthy then
    catching
      (do
        let evidenceRaw ← loadStoredJson interp row.evidenceJson
        if tooManyTools evidenceRaw then .error .valueError
        else do
          let evidence ← orInvalid (py.evidence evidenceRaw)
          .ok (some evidence))
      isCorruption (.error .valueError)
  else .ok none

/-- `TransparencyLevel(row["transparency"])`; an empty column is the old default. -/
def readTransparency (row : ScanRow) : Except PyErr TransparencyLevel :=
  if row.transparency.truthy then
    match row.transparency with
    | .text s => orInvalid (TransparencyLevel.ofText s)
    | _ => .error .valueError
  else .ok .high

/-- A column read as a `str` field. -/
def readStr : SqlValue → Except PyErr Str
  | .null => .error .valueError
  | .text s => .ok s
  | .blob b => (decodeUtf8 b).mapError fun _ => .valueError

def readOptionalStr : SqlValue → Except PyErr (Option Str)
  | .null => .ok none
  | v => (readStr v).map some

def readGrade : SqlValue → Except PyErr TrustGrade
  | .text s => orInvalid (TrustGrade.ofText s)
  | _ => .error .valueError

def checked (p : Str → Bool) (s : Str) : Except PyErr Str := if p s then .ok s else .error .valueError

/-- `_row_to_scan(row)`. -/
def rowToScan (py : Pydantic) (interp : Interpreter) (row : ScanRow) : Except PyErr ScanRecord := do
  let (risk, findings) ← readRiskAndFindings py interp row
  let transparency ← readTransparency row
  let evidence ← readEvidence py interp row
  let grade ← readGrade row.grade
  let id ← readStr row.id >>= checked isScanId
  let serverSlug ← readStr row.serverSlug >>= checked isSlug
  let engineName ← readStr row.engineName
  let engineVersion ← readStr row.engineVersion
  let scannedAt ← readStr row.scannedAt >>= fun s => orInvalid (py.datetime s)
  let sandboxImage ← readOptionalStr row.sandboxImage
  let reportRef ← readOptionalStr row.reportRef
  .ok
    { id := id
      serverSlug := serverSlug
      engineName := engineName
      engineVersion := engineVersion
      grade := grade
      transparency := transparency
      risk := risk
      findings := findings
      evidence := evidence
      scannedAt := scannedAt
      sandboxImage := sandboxImage
      reportRef := reportRef }

/-! ## Queries -/

def ofSlug (slug : SqlValue) (rows : List ScanRow) : List ScanRow :=
  rows.filter fun row => decide (row.serverSlug = slug)

/-- `ORDER BY scanned_at DESC, id DESC`. -/
def NewerOrSame (a b : ScanRow) : Prop := toLex (b.scannedAt, b.id) ≤ toLex (a.scannedAt, a.id)

instance : DecidableRel NewerOrSame := fun a b =>
  inferInstanceAs (Decidable (toLex (b.scannedAt, b.id) ≤ toLex (a.scannedAt, a.id)))

instance : Std.Total NewerOrSame := ⟨fun _ _ => le_total _ _⟩

instance : IsTrans ScanRow NewerOrSame := ⟨fun _ _ _ hab hbc => le_trans hbc hab⟩

def newestFirst (slug : SqlValue) (rows : List ScanRow) : List ScanRow :=
  (ofSlug slug rows).insertionSort NewerOrSame

/-- `ScanRepository.latest(slug)`. -/
def latest (py : Pydantic) (interp : Interpreter) (table : ScanTable) (slug : Str) :
    Except PyErr (Option ScanRecord) :=
  match (newestFirst (.text slug) table.rows).head? with
  | none => .ok none
  | some row => (rowToScan py interp row).map some

/-- `ScanRepository.history(slug)`. -/
def history (py : Pydantic) (interp : Interpreter) (table : ScanTable) (slug : Str) :
    Except PyErr (List ScanRecord) :=
  (newestFirst (.text slug) table.rows).mapM (rowToScan py interp)

/-- `MAX(scanned_at)` of the rows of one slug. -/
def newestTime (slug : SqlValue) (rows : List ScanRow) : SqlValue :=
  SqlValue.maximum ((ofSlug slug rows).map ScanRow.scannedAt)

/-- The join of the table with the newest time of each slug. -/
def newestRows (rows : List ScanRow) : List ScanRow :=
  rows.filter fun row => decide (row.scannedAt = newestTime row.serverSlug rows)

/-- `LatestScanReadback`, under the column of the slug. -/
structure LatestReadback where
  records : SqlValue → Option ScanRecord
  unreadable : SqlValue → Bool

/-- One turn of the loop of `latest_all_readback`: a later row of the slug replaces the earlier. -/
def readLatest (py : Pydantic) (interp : Interpreter) (readback : LatestReadback) (row : ScanRow) :
    Except PyErr LatestReadback :=
  match rowToScan py interp row with
  | .ok record =>
    .ok
      { records := Function.update readback.records row.serverSlug (some record)
        unreadable := Function.update readback.unreadable row.serverSlug false }
  | .error e =>
    if isCorruption e then
      .ok
        { records := Function.update readback.records row.serverSlug none
          unreadable := Function.update readback.unreadable row.serverSlug true }
    else .error e

/-- `ORDER BY s.id ASC`. -/
def IdBefore (a b : ScanRow) : Prop := a.id ≤ b.id

instance : DecidableRel IdBefore := fun a b => inferInstanceAs (Decidable (a.id ≤ b.id))

/-- `ScanRepository.latest_all_readback()`. -/
def latestAllReadback (py : Pydantic) (interp : Interpreter) (table : ScanTable) :
    Except PyErr LatestReadback :=
  ((newestRows table.rows).insertionSort IdBefore).foldlM (readLatest py interp)
    ⟨fun _ => none, fun _ => false⟩

/-! ## The newest row -/

section Newest

variable {rows : List ScanRow} {row other : ScanRow} {slug : SqlValue}

theorem mem_ofSlug : row ∈ ofSlug slug rows ↔ row ∈ rows ∧ row.serverSlug = slug := by
  rw [ofSlug, List.mem_filter, decide_eq_true_eq]

theorem mem_newestFirst : row ∈ newestFirst slug rows ↔ row ∈ rows ∧ row.serverSlug = slug := by
  rw [newestFirst, List.mem_insertionSort, mem_ofSlug]

theorem head_newestFirst (h : (newestFirst slug rows).head? = some row) :
    row ∈ rows ∧ row.serverSlug = slug ∧
      ∀ other ∈ rows, other.serverSlug = slug → NewerOrSame row other := by
  have hsorted : (newestFirst slug rows).Pairwise NewerOrSame := List.pairwise_insertionSort _ _
  cases hrows : newestFirst slug rows with
  | nil =>
    rw [hrows] at h
    cases h
  | cons first rest =>
    rw [hrows] at h hsorted
    cases h
    have hfirst : row ∈ newestFirst slug rows := hrows ▸ List.mem_cons_self
    obtain ⟨hmem, hslug⟩ := mem_newestFirst.mp hfirst
    refine ⟨hmem, hslug, fun other hother hsame => ?_⟩
    have hin : other ∈ newestFirst slug rows := mem_newestFirst.mpr ⟨hother, hsame⟩
    rw [hrows] at hin
    obtain rfl | hrest := List.mem_cons.mp hin
    · exact le_refl _
    · exact List.rel_of_pairwise_cons hsorted hrest

theorem NewerOrSame.time_le (h : NewerOrSame row other) : other.scannedAt ≤ row.scannedAt := by
  obtain h | ⟨h, -⟩ := Prod.Lex.toLex_le_toLex.mp h
  · exact le_of_lt h
  · exact le_of_eq h

theorem time_le_newest (h : row ∈ rows) : row.scannedAt ≤ newestTime row.serverSlug rows :=
  SqlValue.le_maximum (List.mem_map_of_mem (mem_ofSlug.mpr ⟨h, rfl⟩))

theorem mem_newestRows : row ∈ newestRows rows ↔
    row ∈ rows ∧ row.scannedAt = newestTime row.serverSlug rows := by
  rw [newestRows, List.mem_filter, decide_eq_true_eq]

/-- A slug with a row has a newest one. -/
theorem exists_newest (h : row ∈ rows) : ∃ newest ∈ newestRows rows, newest.serverSlug = row.serverSlug := by
  have hne : (ofSlug row.serverSlug rows).map ScanRow.scannedAt ≠ [] := by
    intro hnil
    have hmem : row ∈ ofSlug row.serverSlug rows := mem_ofSlug.mpr ⟨h, rfl⟩
    rw [List.map_eq_nil_iff.mp hnil] at hmem
    cases hmem
  obtain ⟨newest, hmem, htime⟩ := List.mem_map.mp (SqlValue.maximum_mem hne)
  obtain ⟨hrows, hslug⟩ := mem_ofSlug.mp hmem
  refine ⟨newest, mem_newestRows.mpr ⟨hrows, ?_⟩, hslug⟩
  rw [htime, hslug]
  rfl

/-- The row `latest` reads is one of the newest. -/
theorem head_mem_newestRows (h : (newestFirst slug rows).head? = some row) : row ∈ newestRows rows := by
  obtain ⟨hmem, hslug, hnewer⟩ := head_newestFirst h
  obtain ⟨newest, hnewest, hsame⟩ := exists_newest hmem
  obtain ⟨hrows, htime⟩ := mem_newestRows.mp hnewest
  refine mem_newestRows.mpr ⟨hmem, le_antisymm (time_le_newest hmem) ?_⟩
  rw [← hsame, ← htime]
  exact (hnewer newest hrows (hsame.trans hslug)).time_le

end Newest

end McpTrust.Store
