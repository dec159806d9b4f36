import McpTrust.Store.Readback
import McpTrust.Core.PublicProjection
import McpTrust.Python.JsonWritable
import McpTrust.Python.IsoOrder

/-! # Recorded scans, newest first

`record` stores a scan as a row, `history` and `latest` order the rows by the text of
their time. For times in UTC that is the order of the instants.
-/

namespace McpTrust.Store

set_option autoImplicit false

open Python Sqlite

/-! ## Recording -/

/-- `model_dump_json` of the parts of a record. -/
structure Serializer where
  risk : RiskSummary → Str
  evidence : ScanEvidence → Str

/-- `json.dumps(v)` without arguments. -/
def plainStyle : Style where
  ensureAscii := true
  indent := none
  itemPad := true
  keyPad := true
  sortKeys := false

/-- `json.dumps([f.model_dump(mode="json") for f in scan.findings])`. -/
def findingsText (findings : List Finding) : Str := dumps plainStyle (.arr (findings.map findingJson))

def optionalText : Option Str → SqlValue
  | none => .null
  | some s => .text s

variable (dump : Serializer)

theorem scanRow_declared (scan : ScanRecord) : ∀ v ∈ [SqlValue.text scan.serverSlug, .text scan.engineName,
    .text scan.engineVersion, .text (u scan.grade.text), .text (u scan.transparency.text),
    .text (dump.risk scan.risk), .text (findingsText scan.findings), .text scan.scannedAt.isoformat],
    v ≠ .null := by simp

/-- The row `record` inserts. -/
def scanRow (scan : ScanRecord) : ScanRow where
  id := .text scan.id
  serverSlug := .text scan.serverSlug
  engineName := .text scan.engineName
  engineVersion := .text scan.engineVersion
  grade := .text (u scan.grade.text)
  transparency := .text (u scan.transparency.text)
  riskJson := .text (dump.risk scan.risk)
  findingsJson := .text (findingsText scan.findings)
  evidenceJson := optionalText (scan.evidence.map dump.evidence)
  scannedAt := .text scan.scannedAt.isoformat
  sandboxImage := optionalText scan.sandboxImage
  reportRef := optionalText scan.reportRef
  declared := scanRow_declared dump scan

/-- The texts bound to the statement. -/
def boundTexts (scan : ScanRecord) : List Str :=
  [scan.id, scan.serverSlug, scan.engineName, scan.engineVersion, u scan.grade.text,
    u scan.transparency.text, dump.risk scan.risk, findingsText scan.findings] ++
    (scan.evidence.map dump.evidence).toList ++ [scan.scannedAt.isoformat] ++
      scan.sandboxImage.toList ++ scan.reportRef.toList

theorem uniqueIds_append {table : ScanTable} {row : ScanRow} (h : row.id ∉ table.rows.map ScanRow.id) :
    (((table.rows ++ [row]).map ScanRow.id).filter fun id => decide (id ≠ .null)).Nodup := by
  rw [List.map_append, List.filter_append]
  refine table.uniqueIds.append ?_ ?_
  · exact (List.nodup_singleton _).filter _
  · intro id hid hrow
    obtain ⟨hid, -⟩ := List.mem_filter.mp hid
    obtain ⟨hrow, -⟩ := List.mem_filter.mp hrow
    rw [List.map_singleton, List.mem_singleton] at hrow
    exact h (hrow ▸ hid)

/-- `ScanRepository.record(scan)`. `slugs` are those of the `servers` table: a foreign key. -/
def record (slugs : List Str) (table : ScanTable) (scan : ScanRecord) : Except PyErr ScanTable := do
  let _ ← (boundTexts dump scan).mapM encodeUtf8
  if h : (scanRow dump scan).id ∉ table.rows.map ScanRow.id then
    if scan.serverSlug ∈ slugs then .ok ⟨table.rows ++ [scanRow dump scan], uniqueIds_append h⟩
    else .error .databaseError
  else .error .databaseError

/-- The table and the scans recorded in it. -/
structure Recorded where
  table : ScanTable
  scans : List ScanRecord

def nothingRecorded : Recorded := ⟨⟨[], List.nodup_nil⟩, []⟩

/-- One call; a call that raises records nothing. -/
def recordOne (slugs : List Str) (state : Recorded) (scan : ScanRecord) : Recorded :=
  match record dump slugs state.table scan with
  | .ok table => ⟨table, state.scans ++ [scan]⟩
  | .error _ => state

/-- A sequence of calls. -/
def recordAll (slugs : List Str) (calls : List ScanRecord) : Recorded :=
  calls.foldl (recordOne dump slugs) nothingRecorded

variable {dump}

/-- The rows are those of the recorded scans, and each of them could be bound. -/
structure Recorded.Holds (dump : Serializer) (calls : List ScanRecord) (state : Recorded) : Prop where
  rows : state.table.rows = state.scans.map (scanRow dump)
  bound : ∀ scan ∈ state.scans, scan ∈ calls ∧ ∀ s ∈ boundTexts dump scan, ∃ bytes, encodeUtf8 s = .ok bytes

theorem mapM_encodes {texts : List Str} {all : List Bytes} (h : texts.mapM encodeUtf8 = .ok all) :
    ∀ s ∈ texts, ∃ bytes, encodeUtf8 s = .ok bytes := by
  have hall := mapM_eq_ok.mp h
  clear h
  induction hall with
  | nil => exact fun _ hs => absurd hs List.not_mem_nil
  | cons hab _ ih => exact List.forall_mem_cons.mpr ⟨⟨_, hab⟩, ih⟩

theorem recordOne_holds {slugs : List Str} {calls : List ScanRecord} {state : Recorded}
    (h : state.Holds dump calls) {scan : ScanRecord} (hscan : scan ∈ calls) :
    (recordOne dump slugs state scan).Holds dump calls := by
  unfold recordOne
  cases hrecord : record dump slugs state.table scan with
  | error e => exact h
  | ok table =>
    obtain ⟨all, hall, hinsert⟩ := bind_eq_ok.mp hrecord
    have htable : table.rows = state.table.rows ++ [scanRow dump scan] := by
      split_ifs at hinsert
      exact congrArg ScanTable.rows (Except.ok.inj hinsert).symm
    constructor
    · change table.rows = (state.scans ++ [scan]).map (scanRow dump)
      rw [htable, h.rows, List.map_append, List.map_singleton]
    · intro other hother
      obtain hother | hother := List.mem_append.mp hother
      · exact h.bound other hother
      · rw [List.mem_singleton.mp hother]
        exact ⟨hscan, mapM_encodes hall⟩

theorem recordAll_holds (dump : Serializer) (slugs : List Str) (calls : List ScanRecord) :
    (recordAll dump slugs calls).Holds dump calls := by
  have hrun : ∀ (made : List ScanRecord) (state : Recorded), (∀ scan ∈ made, scan ∈ calls) →
      state.Holds dump calls → (made.foldl (recordOne dump slugs) state).Holds dump calls := by
    intro made
    induction made with
    | nil => exact fun state _ h => h
    | cons scan made ih =>
      intro state hmade h
      rw [List.foldl_cons]
      exact ih _ (fun other hother => hmade other (List.mem_cons_of_mem _ hother))
        (recordOne_holds h (hmade scan List.mem_cons_self))
  exact hrun calls nothingRecorded (fun _ h => h) ⟨rfl, fun _ h => absurd h List.not_mem_nil⟩

/-! ## The order of the rows -/

/-- A later instant, or the same instant and no smaller identity. -/
def LaterOrSame (a b : ScanRecord) : Prop :=
  b.scannedAt.micros < a.scannedAt.micros ∨
    b.scannedAt.micros = a.scannedAt.micros ∧ SqlValue.text b.id ≤ .text a.id

theorem text_lt {s t : Str} : SqlValue.text s < SqlValue.text t ↔ TextBefore s t := by
  change SqlValue.key (.text s) < SqlValue.key (.text t) ↔ _
  rw [SqlValue.key, SqlValue.key, Prod.Lex.toLex_lt_toLex]
  constructor
  · rintro (h | ⟨-, h⟩)
    · exact absurd h (lt_irrefl 1)
    · exact h
  · exact fun h => .inr ⟨rfl, h⟩

section Order

variable {a b : ScanRecord} (ha : a.scannedAt.offset = some 0) (hb : b.scannedAt.offset = some 0)

include ha hb

theorem scannedAt_lt : (scanRow dump a).scannedAt < (scanRow dump b).scannedAt ↔
    a.scannedAt.micros < b.scannedAt.micros :=
  text_lt.trans (DateTime.isoformat_before_iff ha hb)

theorem scannedAt_eq : (scanRow dump a).scannedAt = (scanRow dump b).scannedAt ↔
    a.scannedAt.micros = b.scannedAt.micros := by
  constructor
  · intro h
    obtain hlt | heq | hgt := lt_trichotomy a.scannedAt.micros b.scannedAt.micros
    · exact absurd h ((scannedAt_lt ha hb).mpr hlt).ne
    · exact heq
    · exact absurd h ((scannedAt_lt hb ha).mpr hgt).ne'
  · intro h
    have hsame := DateTime.eq_of_micros ha hb h
    simp only [scanRow, hsame]

theorem scannedAt_le : (scanRow dump a).scannedAt ≤ (scanRow dump b).scannedAt ↔
    a.scannedAt.micros ≤ b.scannedAt.micros := by
  rw [← not_lt, scannedAt_lt hb ha, not_lt]

theorem newerOrSame_iff : NewerOrSame (scanRow dump a) (scanRow dump b) ↔ LaterOrSame a b := by
  unfold NewerOrSame LaterOrSame
  rw [Prod.Lex.toLex_le_toLex, scannedAt_lt hb ha, scannedAt_eq hb ha]
  rfl

end Order

/-- The rows of two scans in the order of the readers. -/
def RowOrder (dump : Serializer) (a b : ScanRecord) : Prop := NewerOrSame (scanRow dump a) (scanRow dump b)

instance : DecidableRel (RowOrder dump) := fun a b =>
  inferInstanceAs (Decidable (NewerOrSame (scanRow dump a) (scanRow dump b)))

instance : Std.Total (RowOrder dump) := ⟨fun _ _ => le_total _ _⟩

instance : IsTrans ScanRecord (RowOrder dump) := ⟨fun _ _ _ hab hbc => le_trans hbc hab⟩

/-- The recorded scans of a slug. -/
def scansOf (state : Recorded) (slug : Str) : List ScanRecord :=
  state.scans.filter fun scan => decide (scan.serverSlug = slug)

/-- The recorded scans of a slug in the order of the readers. -/
def sortedScans (dump : Serializer) (state : Recorded) (slug : Str) : List ScanRecord :=
  (scansOf state slug).insertionSort (RowOrder dump)

variable {calls : List ScanRecord} {state : Recorded} {slug : Str}

theorem ofSlug_rows (h : state.Holds dump calls) :
    ofSlug (.text slug) state.table.rows = (scansOf state slug).map (scanRow dump) := by
  have hslug : (fun scan : ScanRecord => decide (scan.serverSlug = slug)) =
      (fun row : ScanRow => decide (row.serverSlug = .text slug)) ∘ scanRow dump := by
    funext scan
    change decide (scan.serverSlug = slug) = decide (SqlValue.text scan.serverSlug = .text slug)
    simp only [SqlValue.text.injEq]
  rw [ofSlug, scansOf, h.rows, List.filter_map, hslug]

theorem newestFirst_rows (h : state.Holds dump calls) :
    newestFirst (.text slug) state.table.rows = (sortedScans dump state slug).map (scanRow dump) := by
  rw [newestFirst, ofSlug_rows h, sortedScans]
  exact (List.map_insertionSort (RowOrder dump) NewerOrSame (scanRow dump) _ fun _ _ _ _ => Iff.rfl).symm

theorem sortedScans_perm (dump : Serializer) (state : Recorded) (slug : Str) :
    (sortedScans dump state slug).Perm (scansOf state slug) := List.perm_insertionSort _ _

theorem mem_sortedScans {scan : ScanRecord} :
    scan ∈ sortedScans dump state slug ↔ scan ∈ state.scans ∧ scan.serverSlug = slug := by
  rw [(sortedScans_perm dump state slug).mem_iff, scansOf, List.mem_filter, decide_eq_true_eq]

theorem sortedScans_sorted (hutc : ∀ scan ∈ state.scans, scan.scannedAt.offset = some 0) :
    (sortedScans dump state slug).Pairwise LaterOrSame := by
  refine (List.pairwise_insertionSort (RowOrder dump) (scansOf state slug)).imp_of_mem fun ha hb hab => ?_
  have hmem : ∀ scan ∈ sortedScans dump state slug, scan.scannedAt.offset = some 0 := fun scan hscan =>
    hutc scan (mem_sortedScans.mp hscan).1
  exact (newerOrSame_iff (hmem _ ha) (hmem _ hb)).mp hab

/-! ## Reading a recorded scan back -/

/-- What pydantic has checked of a record and reads back of its own text. -/
structure Validated (py : Pydantic) (interp : Interpreter) (dump : Serializer) (scan : ScanRecord) : Prop where
  id : isScanId scan.id = true
  serverSlug : isSlug scan.serverSlug = true
  scannedAt : py.datetime scan.scannedAt.isoformat = some scan.scannedAt
  risk : ∃ raw, jsonLoads interp (dump.risk scan.risk) = .ok raw ∧ py.risk raw = some scan.risk
  findings : ∀ finding ∈ scan.findings, py.finding (findingJson finding) = some finding ∧
    ∀ s ∈ [finding.ruleId, finding.title, finding.category, finding.detail], ∀ c ∈ s, isSurrogate c = false
  evidence : ∀ evidence, scan.evidence = some evidence → ∃ raw,
    jsonLoads interp (dump.evidence evidence) = .ok raw ∧ py.evidence raw = some evidence ∧
      tooManyTools raw = decide (evidence.tools.length > maxStoredTools)

/-- A text within the admission limit of a stored column. -/
def FitsColumn (text : Str) : Prop :=
  text.length ≤ maxStoredJsonBytes ∧ ∀ bytes, encodeUtf8 text = .ok bytes → bytes.length ≤ maxStoredJsonBytes

/-- The admission limits of the readers. -/
structure WithinLimits (dump : Serializer) (scan : ScanRecord) : Prop where
  risk : FitsColumn (dump.risk scan.risk)
  findings : FitsColumn (findingsText scan.findings)
  findingCount : scan.findings.length ≤ maxStoredFindings
  evidence : ∀ evidence, scan.evidence = some evidence →
    FitsColumn (dump.evidence evidence) ∧ evidence.tools.length ≤ maxStoredTools

theorem loadStoredJson_ok {interp : Interpreter} {text : Str} {raw : Json} {bytes : Bytes}
    (hbytes : encodeUtf8 text = .ok bytes) :
    loadStoredJson interp (.text text) = .ok raw ↔ FitsColumn text ∧ jsonLoads interp text = .ok raw := by
  unfold loadStoredJson FitsColumn
  simp only [hbytes, Except.ok.injEq, forall_eq']
  by_cases hlength : text.length > maxStoredJsonBytes
  · simp only [if_pos hlength, reduceCtorEq, false_iff]
    omega
  · rw [if_neg hlength]
    change (if bytes.length > maxStoredJsonBytes then _ else _) = Except.ok raw ↔ _
    by_cases hsize : bytes.length > maxStoredJsonBytes
    · rw [if_pos hsize]
      constructor
      · intro h
        cases h
      · rintro ⟨⟨-, h⟩, -⟩
        omega
    · rw [if_neg hsize]
      exact ⟨fun h => ⟨⟨by omega, by omega⟩, h⟩, And.right⟩

section Reading

variable {py : Pydantic} {interp : Interpreter} {scan : ScanRecord}

theorem jsonLoads_findings (h : Validated py interp dump scan) :
    jsonLoads interp (findingsText scan.findings) = .ok (.arr (scan.findings.map findingJson)) := by
  have hfinding : ∀ finding ∈ scan.findings, Writable 63 (findingJson finding) := by
    intro finding hfinding
    obtain ⟨-, htexts⟩ := h.findings finding hfinding
    refine writable_obj (by simp [Dict.keys]) ?_
    simp only [List.forall_mem_cons, List.not_mem_nil, false_implies, implies_true, and_true] at htexts ⊢
    obtain ⟨hrule, htitle, hcategory, hdetail⟩ := htexts
    exact ⟨⟨chain_u _, writable_str (chain_of_scalars hrule) _⟩, ⟨chain_u _, writable_str (chain_of_scalars htitle) _⟩,
      ⟨chain_u _, writable_str (chain_u _) _⟩, ⟨chain_u _, writable_str (chain_of_scalars hcategory) _⟩,
      ⟨chain_u _, writable_str (chain_of_scalars hdetail) _⟩⟩
  have hwritable : Writable 64 (.arr (scan.findings.map findingJson)) := by
    refine writable_arr fun v hv => ?_
    obtain ⟨finding, hmem, rfl⟩ := List.mem_map.mp hv
    exact hfinding finding hmem
  have hprintable : Printable (.arr (scan.findings.map findingJson)) := by
    intro n hn
    rw [Json.walk, List.mem_cons, Json.mem_walkItems] at hn
    obtain hn | ⟨v, hv, hn⟩ := hn
    · cases hn
    · obtain ⟨finding, -, rfl⟩ := List.mem_map.mp hv
      simp [findingJson, text, Json.walk, Json.walkFields] at hn
  exact jsonLoads_dumps interp plainStyle hwritable hprintable

theorem readFindings_recorded (h : Validated py interp dump scan) (hcount : scan.findings.length ≤ maxStoredFindings) :
    readFindings py (.arr (scan.findings.map findingJson)) = .ok scan.findings := by
  have hlength : ¬(scan.findings.map findingJson).length > maxStoredFindings := by
    rw [List.length_map]
    omega
  simp only [readFindings, if_neg hlength]
  have hvalid := h.findings
  generalize scan.findings = findings at hvalid
  induction findings with
  | nil => rfl
  | cons finding rest ih =>
    rw [List.map_cons, List.mapM_cons, (hvalid finding List.mem_cons_self).1,
      ih fun other hother => hvalid other (List.mem_cons_of_mem _ hother)]
    rfl

/-- Every text of the statement can be bound. -/
def Bound (dump : Serializer) (scan : ScanRecord) : Prop :=
  ∀ s ∈ boundTexts dump scan, ∃ bytes, encodeUtf8 s = .ok bytes

theorem readTransparency_recorded : readTransparency (scanRow dump scan) = .ok scan.transparency := by
  have htruthy : (SqlValue.text (u scan.transparency.text)).truthy = true := by
    cases scan.transparency <;> decide
  change (if (SqlValue.text (u scan.transparency.text)).truthy = true then
    orInvalid (TransparencyLevel.ofText (u scan.transparency.text)) else _) = _
  rw [if_pos htruthy, TransparencyLevel.ofText_text]
  rfl

theorem evidence_nonempty {text : Str} {raw : Json} (h : jsonLoads interp text = .ok raw) :
    (SqlValue.text text).truthy = true := by
  cases text with
  | nil => cases h
  | cons c rest => exact decide_eq_true (List.cons_ne_nil c rest)

theorem mem_boundTexts_evidence {evidence : ScanEvidence} (h : scan.evidence = some evidence) :
    dump.evidence evidence ∈ boundTexts dump scan := by
  simp [boundTexts, h]

theorem readRiskAndFindings_recorded (h : Validated py interp dump scan) (hbound : Bound dump scan)
    (hfits : WithinLimits dump scan) :
    readRiskAndFindings py interp (scanRow dump scan) = .ok (scan.risk, scan.findings) := by
  obtain ⟨raw, hraw, hrisk⟩ := h.risk
  obtain ⟨riskBytes, hriskBytes⟩ := hbound (dump.risk scan.risk) (by simp [boundTexts])
  obtain ⟨bytes, hbytes⟩ := hbound (findingsText scan.findings) (by simp [boundTexts])
  apply catching_eq_ok.mpr
  refine bind_eq_ok.mpr ⟨raw, (loadStoredJson_ok hriskBytes).mpr ⟨hfits.risk, hraw⟩, ?_⟩
  refine bind_eq_ok.mpr ⟨scan.risk, orInvalid_ok.mpr hrisk, ?_⟩
  refine bind_eq_ok.mpr ⟨_, (loadStoredJson_ok hbytes).mpr ⟨hfits.findings, jsonLoads_findings h⟩, ?_⟩
  exact bind_eq_ok.mpr ⟨_, readFindings_recorded h hfits.findingCount, rfl⟩

theorem readEvidence_recorded (h : Validated py interp dump scan) (hbound : Bound dump scan)
    (hfits : WithinLimits dump scan) : readEvidence py interp (scanRow dump scan) = .ok scan.evidence := by
  unfold readEvidence
  cases hevidence : scan.evidence with
  | none =>
    have hcolumn : (scanRow dump scan).evidenceJson = .null := by
      simp only [scanRow, hevidence]
      rfl
    rw [hcolumn]
    rfl
  | some evidence =>
    have hcolumn : (scanRow dump scan).evidenceJson = .text (dump.evidence evidence) := by
      simp only [scanRow, hevidence]
      rfl
    obtain ⟨raw, hraw, hparsed, htools⟩ := h.evidence evidence hevidence
    obtain ⟨bytes, hbytes⟩ := hbound _ (mem_boundTexts_evidence hevidence)
    obtain ⟨hcolumnFits, hcount⟩ := hfits.evidence evidence hevidence
    rw [hcolumn, if_pos (evidence_nonempty hraw)]
    apply catching_eq_ok.mpr
    refine bind_eq_ok.mpr ⟨raw, (loadStoredJson_ok hbytes).mpr ⟨hcolumnFits, hraw⟩, ?_⟩
    rw [htools, decide_eq_false (Nat.not_lt.mpr hcount), if_neg Bool.false_ne_true]
    exact bind_eq_ok.mpr ⟨evidence, orInvalid_ok.mpr hparsed, rfl⟩

theorem readOptionalStr_recorded (s : Option Str) : readOptionalStr (optionalText s) = .ok s := by
  cases s <;> rfl

/-- A recorded scan within the limits is read back as it was. -/
theorem rowToScan_recorded (h : Validated py interp dump scan) (hbound : Bound dump scan)
    (hfits : WithinLimits dump scan) : rowToScan py interp (scanRow dump scan) = .ok scan := by
  have hgrade : readGrade (scanRow dump scan).grade = .ok scan.grade := readGrade_ok.mpr rfl
  have hid : readStr (scanRow dump scan).id >>= checked isScanId = .ok scan.id :=
    readChecked_ok.mpr ⟨rfl, h.id⟩
  have hslug : readStr (scanRow dump scan).serverSlug >>= checked isSlug = .ok scan.serverSlug :=
    readChecked_ok.mpr ⟨rfl, h.serverSlug⟩
  have hname : readStr (scanRow dump scan).engineName = .ok scan.engineName := rfl
  have hversion : readStr (scanRow dump scan).engineVersion = .ok scan.engineVersion := rfl
  have htime : (readStr (scanRow dump scan).scannedAt >>= fun s => orInvalid (py.datetime s)) =
      .ok scan.scannedAt := readTime_ok.mpr ⟨_, rfl, h.scannedAt⟩
  have himage : readOptionalStr (scanRow dump scan).sandboxImage = .ok scan.sandboxImage :=
    readOptionalStr_recorded _
  have href : readOptionalStr (scanRow dump scan).reportRef = .ok scan.reportRef := readOptionalStr_recorded _
  simp only [rowToScan, readRiskAndFindings_recorded h hbound hfits, readTransparency_recorded,
    readEvidence_recorded h hbound hfits, hgrade, hid, hslug, hname, hversion, htime, himage, href]
  rfl

/-- A row that decodes is within the limits. -/
theorem withinLimits_of_readable (h : Validated py interp dump scan) (hbound : Bound dump scan)
    (hread : Readable py interp (scanRow dump scan)) : WithinLimits dump scan := by
  obtain ⟨riskBytes, hriskBytes⟩ := hbound (dump.risk scan.risk) (by simp [boundTexts])
  obtain ⟨bytes, hbytes⟩ := hbound (findingsText scan.findings) (by simp [boundTexts])
  obtain ⟨_, hrisk, -⟩ := hread.content.risk
  obtain ⟨items, hitems, hcount, -⟩ := hread.content.findings
  obtain ⟨hfindings, hload⟩ := (loadStoredJson_ok hbytes).mp hitems
  rw [jsonLoads_findings h] at hload
  obtain rfl := Json.arr.inj (Except.ok.inj hload)
  rw [List.length_map] at hcount
  refine ⟨((loadStoredJson_ok hriskBytes).mp hrisk).1, hfindings, hcount, fun evidence hevidence => ?_⟩
  obtain ⟨raw, hraw, -, htools⟩ := h.evidence evidence hevidence
  obtain ⟨evidenceBytes, hevidenceBytes⟩ := hbound _ (mem_boundTexts_evidence hevidence)
  have hcolumn : (scanRow dump scan).evidenceJson = .text (dump.evidence evidence) := by
    simp only [scanRow, hevidence]
    rfl
  have hpresent := hread.evidence
  unfold ReadableEvidence at hpresent
  rw [hcolumn] at hpresent
  obtain ⟨other, hother, hfew, -⟩ := hpresent (evidence_nonempty hraw)
  obtain ⟨hfits, hload⟩ := (loadStoredJson_ok hevidenceBytes).mp hother
  obtain rfl : raw = other := Except.ok.inj (hraw.symm.trans hload)
  rw [htools] at hfew
  exact ⟨hfits, Nat.not_lt.mp (of_decide_eq_false hfew)⟩

/-- What a recorded row decodes to, where it does. -/
theorem rowToScan_recorded_iff (h : Validated py interp dump scan) (hbound : Bound dump scan)
    {record : ScanRecord} :
    rowToScan py interp (scanRow dump scan) = .ok record ↔ WithinLimits dump scan ∧ record = scan := by
  constructor
  · intro hread
    have hfits := withinLimits_of_readable h hbound (readable_of_ok hread)
    exact ⟨hfits, Except.ok.inj (hread.symm.trans (rowToScan_recorded h hbound hfits))⟩
  · rintro ⟨hfits, rfl⟩
    exact rowToScan_recorded h hbound hfits

end Reading

/-! ## The readers of a slug -/

/-- What the readers return of a slug. -/
structure ReadInOrder (py : Pydantic) (interp : Interpreter) (dump : Serializer) (state : Recorded) (slug : Str) :
    Prop where
  /-- `history` raises where a scan is beyond the admission limits, and only there. -/
  returns : (∃ scans, history py interp state.table slug = .ok scans) ↔
    ∀ scan ∈ scansOf state slug, WithinLimits dump scan
  ordered : ∀ scans, history py interp state.table slug = .ok scans →
    scans.Perm (scansOf state slug) ∧ scans.Pairwise LaterOrSame
  instant : ∀ scan, latest py interp state.table slug = .ok (some scan) →
    scan ∈ scansOf state slug ∧ ∀ other ∈ scansOf state slug, other.scannedAt.micros ≤ scan.scannedAt.micros
  unscanned : latest py interp state.table slug = .ok none ↔ scansOf state slug = []
  newest : ∀ scan ∈ scansOf state slug, (∀ other ∈ scansOf state slug, LaterOrSame scan other) →
    WithinLimits dump scan → latest py interp state.table slug = .ok (some scan)
  maximum : ∀ scan ∈ scansOf state slug, scanRow dump scan ∈ newestRows state.table.rows ↔
    ∀ other ∈ scansOf state slug, other.scannedAt.micros ≤ scan.scannedAt.micros

section Readers

variable {py : Pydantic} {interp : Interpreter}

theorem mem_scansOf {scan : ScanRecord} :
    scan ∈ scansOf state slug ↔ scan ∈ state.scans ∧ scan.serverSlug = slug := by
  rw [scansOf, List.mem_filter, decide_eq_true_eq]

/-- A mapping that gives back what it is given. -/
theorem mapM_self {f : ScanRow → Except PyErr ScanRecord} {scans results : List ScanRecord}
    (hread : ∀ scan ∈ scans, ∀ record, f (scanRow dump scan) = .ok record → record = scan)
    (h : (scans.map (scanRow dump)).mapM f = .ok results) : results = scans := by
  have hall := List.forall₂_map_left_iff.mp (mapM_eq_ok.mp h)
  clear h
  induction hall with
  | nil => rfl
  | cons hab _ ih =>
    rw [hread _ List.mem_cons_self _ hab, ih fun scan hscan => hread scan (List.mem_cons_of_mem _ hscan)]

theorem history_eq (h : state.Holds dump calls) : history py interp state.table slug =
    ((sortedScans dump state slug).map (scanRow dump)).mapM (rowToScan py interp) := by
  rw [Store.history, newestFirst_rows h]

theorem latest_eq (h : state.Holds dump calls) : latest py interp state.table slug =
    match (sortedScans dump state slug).head? with
    | none => .ok none
    | some scan => (rowToScan py interp (scanRow dump scan)).map some := by
  rw [Store.latest, newestFirst_rows h, List.head?_map]
  cases (sortedScans dump state slug).head? <;> rfl

theorem head_latest (hutc : ∀ scan ∈ state.scans, scan.scannedAt.offset = some 0) {scan : ScanRecord}
    (hscan : (sortedScans dump state slug).head? = some scan) :
    scan ∈ scansOf state slug ∧ ∀ other ∈ scansOf state slug, other = scan ∨ LaterOrSame scan other := by
  have hsorted : (sortedScans dump state slug).Pairwise LaterOrSame := sortedScans_sorted hutc
  have hperm := sortedScans_perm dump state slug
  cases hscans : sortedScans dump state slug with
  | nil =>
    rw [hscans] at hscan
    cases hscan
  | cons first rest =>
    rw [hscans] at hscan hsorted hperm
    obtain rfl := Option.some.inj hscan
    refine ⟨hperm.subset List.mem_cons_self, fun other hother => ?_⟩
    obtain rfl | hrest := List.mem_cons.mp (hperm.symm.subset hother)
    · exact .inl rfl
    · exact .inr (List.rel_of_pairwise_cons hsorted hrest)

theorem LaterOrSame.le {a b : ScanRecord} (h : LaterOrSame a b) : b.scannedAt.micros ≤ a.scannedAt.micros := by
  obtain h | ⟨h, -⟩ := h
  · exact h.le
  · exact h.le

/-- The rows with the greatest time of a slug are those of its latest scans. -/
theorem mem_newestRows_iff (h : state.Holds dump calls)
    (hutc : ∀ scan ∈ state.scans, scan.scannedAt.offset = some 0) {scan : ScanRecord}
    (hscan : scan ∈ scansOf state slug) : scanRow dump scan ∈ newestRows state.table.rows ↔
      ∀ other ∈ scansOf state slug, other.scannedAt.micros ≤ scan.scannedAt.micros := by
  obtain ⟨hmem, rfl⟩ := mem_scansOf.mp hscan
  have hrow : scanRow dump scan ∈ state.table.rows := h.rows ▸ List.mem_map_of_mem hmem
  constructor
  · intro hnewest other hother
    obtain ⟨hmem', hslug⟩ := mem_scansOf.mp hother
    have hrow' : scanRow dump other ∈ state.table.rows := h.rows ▸ List.mem_map_of_mem hmem'
    have hle := time_le_newest hrow'
    have hsame : (scanRow dump other).serverSlug = (scanRow dump scan).serverSlug := congrArg SqlValue.text hslug
    rw [hsame, ← (mem_newestRows.mp hnewest).2] at hle
    exact (scannedAt_le (hutc other hmem') (hutc scan hmem)).mp hle
  · intro hmax
    obtain ⟨newest, hnewest, hslug⟩ := exists_newest hrow
    obtain ⟨hnewestRow, htime⟩ := mem_newestRows.mp hnewest
    rw [h.rows] at hnewestRow
    obtain ⟨other, hother, rfl⟩ := List.mem_map.mp hnewestRow
    have hother' := hmax other (mem_scansOf.mpr ⟨hother, SqlValue.text.inj hslug⟩)
    have hle : (scanRow dump other).scannedAt ≤ (scanRow dump scan).scannedAt :=
      (scannedAt_le (hutc other hother) (hutc scan hmem)).mpr hother'
    rw [htime, hslug] at hle
    exact mem_newestRows.mpr ⟨hrow, le_antisymm (time_le_newest hrow) hle⟩

/-- A scan that no other follows is the one `latest` finds. -/
theorem latest_newest (h : state.Holds dump calls)
    (hutc : ∀ scan ∈ state.scans, scan.scannedAt.offset = some 0) {scan : ScanRecord}
    (hscan : scan ∈ scansOf state slug) (hnewest : ∀ other ∈ scansOf state slug, LaterOrSame scan other)
    (hread : rowToScan py interp (scanRow dump scan) = .ok scan) :
    latest py interp state.table slug = .ok (some scan) := by
  rw [latest_eq h]
  cases hhead : (sortedScans dump state slug).head? with
  | none =>
    have hempty := (sortedScans_perm dump state slug).symm.subset hscan
    rw [List.head?_eq_none_iff.mp hhead] at hempty
    exact absurd hempty List.not_mem_nil
  | some first =>
    obtain ⟨hfirst, hlater⟩ := head_latest hutc hhead
    have hsame : scanRow dump first = scanRow dump scan := by
      obtain rfl | hafter := hlater scan hscan
      · rfl
      · have hbefore := hnewest first hfirst
        have hle := hafter.le
        have hid : (scanRow dump first).id = (scanRow dump scan).id := by
          obtain hlt | ⟨-, hid⟩ := hafter
          · exact absurd hlt (not_lt.mpr hbefore.le)
          · obtain hlt | ⟨-, hid'⟩ := hbefore
            · exact absurd hlt (not_lt.mpr hle)
            · exact le_antisymm hid' hid
        obtain ⟨hmem, -⟩ := mem_scansOf.mp hscan
        obtain ⟨hmem', -⟩ := mem_scansOf.mp hfirst
        have hnull : (scanRow dump first).id ≠ .null := fun hnull => by cases hnull
        exact eq_of_id (h.rows ▸ List.mem_map_of_mem hmem') (h.rows ▸ List.mem_map_of_mem hmem) hid hnull
    dsimp only
    rw [hsame, hread]
    rfl

/-- After any calls the readers of a slug are in the order of the instants. -/
theorem readInOrder_of_holds (h : state.Holds dump calls)
    (hutc : ∀ scan ∈ calls, scan.scannedAt.offset = some 0)
    (hvalid : ∀ scan ∈ calls, Validated py interp dump scan) (slug : Str) :
    ReadInOrder py interp dump state slug := by
  have hutc' : ∀ scan ∈ state.scans, scan.scannedAt.offset = some 0 := fun scan hscan =>
    hutc scan (h.bound scan hscan).1
  have hread : ∀ scan ∈ scansOf state slug, ∀ record,
      rowToScan py interp (scanRow dump scan) = .ok record ↔ WithinLimits dump scan ∧ record = scan :=
    fun scan hscan record => by
      obtain ⟨hmem, -⟩ := mem_scansOf.mp hscan
      obtain ⟨hcall, hbound⟩ := h.bound scan hmem
      exact rowToScan_recorded_iff (hvalid scan hcall) hbound
  have hperm := sortedScans_perm dump state slug
  refine ⟨?_, ?_, ?_, ?_, ?_, fun scan hscan => mem_newestRows_iff h hutc' hscan⟩
  · rw [history_eq h, exists_mapM_ok]
    constructor
    · intro hrows scan hscan
      obtain ⟨record, hrecord⟩ := hrows _ (List.mem_map_of_mem (hperm.symm.subset hscan))
      exact ((hread scan hscan record).mp hrecord).1
    · intro hfits row hrow
      obtain ⟨scan, hscan, rfl⟩ := List.mem_map.mp hrow
      exact ⟨scan, (hread scan (hperm.subset hscan) scan).mpr ⟨hfits scan (hperm.subset hscan), rfl⟩⟩
  · intro scans hscans
    rw [history_eq h] at hscans
    obtain rfl := mapM_self (fun scan hscan record hrecord =>
      ((hread scan (hperm.subset hscan) record).mp hrecord).2) hscans
    exact ⟨hperm, sortedScans_sorted hutc'⟩
  · intro scan hscan
    rw [latest_eq h] at hscan
    cases hhead : (sortedScans dump state slug).head? with
    | none =>
      rw [hhead] at hscan
      cases hscan
    | some first =>
      rw [hhead] at hscan
      obtain ⟨hfirst, hlater⟩ := head_latest hutc' hhead
      have hrow : rowToScan py interp (scanRow dump first) = .ok scan := by
        cases hrow : rowToScan py interp (scanRow dump first) with
        | error e =>
          simp only [hrow] at hscan
          cases hscan
        | ok record =>
          simp only [hrow] at hscan
          cases hscan
          rfl
      obtain rfl := ((hread first hfirst scan).mp hrow).2
      refine ⟨hfirst, fun other hother => ?_⟩
      obtain rfl | hafter := hlater other hother
      · exact le_rfl
      · exact hafter.le
  · rw [latest_eq h]
    cases hscans : sortedScans dump state slug with
    | nil =>
      rw [hscans] at hperm
      exact iff_of_true rfl hperm.nil_eq.symm
    | cons first rest =>
      rw [hscans] at hperm
      refine iff_of_false (fun hnone => ?_) fun hempty => ?_
      · rw [List.head?_cons] at hnone
        cases hrow : rowToScan py interp (scanRow dump first) <;> simp only [hrow] at hnone <;> cases hnone
      · rw [hempty] at hperm
        exact absurd hperm.eq_nil (List.cons_ne_nil first rest)
  · intro scan hscan hnewest hfits
    exact latest_newest h hutc' hscan hnewest ((hread scan hscan scan).mpr ⟨hfits, rfl⟩)

end Readers

/-- Newest is newest in time, after any sequence of calls with times in UTC. -/
theorem recorded_newest_first (py : Pydantic) (interp : Interpreter) (dump : Serializer) (slugs : List Str)
    (calls : List ScanRecord) (hutc : ∀ scan ∈ calls, scan.scannedAt.offset = some 0)
    (hvalid : ∀ scan ∈ calls, Validated py interp dump scan) :
    (∀ slug, ReadInOrder py interp dump (recordAll dump slugs calls) slug) ∧
      ∀ a b : DateTime, a.offset = some 0 → b.offset = some 0 →
        (SqlValue.text a.isoformat < .text b.isoformat ↔ a.micros < b.micros) :=
  ⟨fun slug => readInOrder_of_holds (recordAll_holds dump slugs calls) hutc hvalid slug,
    fun _ _ ha hb => text_lt.trans (DateTime.isoformat_before_iff ha hb)⟩

/-! ## Two scans of one second -/

def calmRisk : RiskSummary where
  composite := .ofRat 0
  fileAccess := .ofRat 0
  networkAccess := .ofRat 0
  shellExecution := .ofRat 0
  destructive := .ofRat 0
  exfiltration := .ofRat 0
  findingsBySeverity := []
  annotationCoverage := .ofRat 1

def calmRiskText : Str :=
  u ("\x7b\"composite\":0.0,\"file_access\":0.0,\"network_access\":0.0,\"shell_execution\":0.0," ++
    "\"destructive\":0.0,\"exfiltration\":0.0,\"findings_by_severity\":\x7b\x7d,\"annotation_coverage\":1.0\x7d")

def calmSerializer : Serializer where
  risk _ := calmRiskText
  evidence _ := u "\x7b\x7d"

def calmModels : Pydantic where
  risk _ := some calmRisk
  finding _ := none
  evidence _ := none
  datetime := fromisoformat

def calmInterpreter : Interpreter := ⟨1000, initialLimit_deep⟩

theorem secondTime_inRange : 0 ≤ (63902908800000000 : ℤ) ∧ (63902908800000000 : ℤ) < maxMicros := by decide

theorem fractionTime_inRange : 0 ≤ (63902908800000001 : ℤ) ∧ (63902908800000001 : ℤ) < maxMicros := by decide

def secondTime : DateTime := ⟨63902908800000000, some 0, secondTime_inRange⟩

def fractionTime : DateTime := ⟨63902908800000001, some 0, fractionTime_inRange⟩

def calmScan (id : String) (findings : List Finding) (scannedAt : DateTime) : ScanRecord where
  id := u id
  serverSlug := u "a"
  engineName := u "mcpaudit"
  engineVersion := u "1.0"
  grade := .A
  transparency := .high
  risk := calmRisk
  findings := findings
  evidence := none
  scannedAt := scannedAt
  sandboxImage := none
  reportRef := none

theorem calmRisk_loads : ∃ raw, jsonLoads calmInterpreter (calmSerializer.risk calmRisk) = .ok raw := by
  have hok : (jsonLoads calmInterpreter (calmSerializer.risk calmRisk)).isOk = true := by decide +kernel
  cases hraw : jsonLoads calmInterpreter (calmSerializer.risk calmRisk) with
  | error e =>
    rw [hraw] at hok
    cases hok
  | ok raw => exact ⟨raw, rfl⟩

theorem calmScan_validated {id : String} (hid : isScanId (u id) = true) {time : DateTime}
    (hutc : time.offset = some 0) :
    Validated calmModels calmInterpreter calmSerializer (calmScan id [] time) := by
  have hslug : isSlug (u "a") = true := by decide
  obtain ⟨raw, hraw⟩ := calmRisk_loads
  exact
    { id := hid
      serverSlug := hslug
      scannedAt := fromisoformat_isoformat hutc
      risk := ⟨raw, hraw, rfl⟩
      findings := fun _ hfinding => absurd hfinding List.not_mem_nil
      evidence := fun _ hevidence => by cases hevidence }

theorem recorded_newest_first_second :
    (∀ slug, ReadInOrder calmModels calmInterpreter calmSerializer
        (recordAll calmSerializer [u "a"] [calmScan "s1" [] secondTime, calmScan "s2" [] fractionTime]) slug) ∧
      ∀ a b : DateTime, a.offset = some 0 → b.offset = some 0 →
        (SqlValue.text a.isoformat < .text b.isoformat ↔ a.micros < b.micros) := by
  refine recorded_newest_first calmModels calmInterpreter calmSerializer [u "a"]
    [calmScan "s1" [] secondTime, calmScan "s2" [] fractionTime] ?_ ?_
  · exact List.forall_mem_cons.mpr ⟨rfl, List.forall_mem_cons.mpr ⟨rfl, fun _ h => absurd h List.not_mem_nil⟩⟩
  · refine List.forall_mem_cons.mpr ⟨calmScan_validated (by decide) rfl, ?_⟩
    exact List.forall_mem_cons.mpr ⟨calmScan_validated (by decide) rfl, fun _ h => absurd h List.not_mem_nil⟩

/-! ## A scan the readers refuse -/

/-- A finding with a title of `n` characters. -/
def longFinding (n : Nat) : Finding where
  ruleId := u "rule"
  title := List.replicate n (ch 'a')
  severity := .low
  category := u "other"
  detail := []

theorem length_quote (st : Style) (s : Str) : s.length ≤ (quote st s).length := by
  have hchar : ∀ c, 1 ≤ (escapeChar st c).length := by
    intro c
    unfold escapeChar
    cases shortEscape c with
    | some e => exact Nat.le_add_left 1 1
    | none =>
      split_ifs <;> simp [escapeCode]
  have hall : s.length ≤ (s.flatMap (escapeChar st)).length := by
    induction s with
    | nil => exact le_rfl
    | cons c s ih =>
      rw [List.flatMap_cons, List.length_append, List.length_cons]
      have := hchar c
      omega
  rw [quote, List.length_cons, List.length_append]
  omega

theorem title_lt_findingsText (finding : Finding) : finding.title.length < (findingsText [finding]).length := by
  have htitle := length_quote plainStyle finding.title
  unfold findingsText dumps
  have harrange : ∀ v, plainStyle.arrange v = v := fun _ => rfl
  simp only [harrange, List.map_cons, List.map_nil, findingJson, render, renderFields, List.length_cons,
    List.length_append]
  omega

theorem longFinding_text (n : Nat) : n < (findingsText [longFinding n]).length := by
  have htitle := title_lt_findingsText (longFinding n)
  have hlength : (longFinding n).title.length = n := List.length_replicate
  rwa [hlength] at htitle

/-- The readers refuse a recorded scan with a text beyond the limit. -/
theorem history_refuses {calls : List ScanRecord} {state : Recorded} (h : state.Holds calmSerializer calls)
    {scan : ScanRecord} (hscan : scan ∈ state.scans) (hlong : maxStoredJsonBytes < (findingsText scan.findings).length)
    (py : Pydantic) (interp : Interpreter) :
    ¬∃ scans, history py interp state.table scan.serverSlug = .ok scans := by
  intro hscans
  rw [history_eq h, exists_mapM_ok] at hscans
  obtain ⟨record, hrecord⟩ := hscans _ (List.mem_map_of_mem (mem_sortedScans.mpr ⟨hscan, rfl⟩))
  obtain ⟨items, hitems, -⟩ := (readable_of_ok hrecord).content.findings
  obtain ⟨bytes, hbytes⟩ := (h.bound scan hscan).2 (findingsText scan.findings) (by simp [boundTexts])
  obtain ⟨hfits, -⟩ := ((loadStoredJson_ok hbytes).mp hitems).1
  omega

theorem encodes_ascii {s : Str} (h : Ascii s) : ∃ bytes, encodeUtf8 s = .ok bytes := by
  refine ⟨_, encodeUtf8_eq_ok fun c hc => ?_⟩
  have hlow := h c hc
  simp only [isSurrogate, Bool.and_eq_false_iff, decide_eq_false_iff_not]
  omega

theorem encodes_u (s : String) : ∃ bytes, encodeUtf8 (u s) = .ok bytes := by
  refine ⟨_, encodeUtf8_eq_ok fun c hc => ?_⟩
  rw [u_eq_map] at hc
  obtain ⟨d, -, rfl⟩ := List.mem_map.mp hc
  exact isSurrogate_ch d

theorem ascii_findingsText (findings : List Finding) : Ascii (findingsText findings) := by
  intro c hc
  obtain hlow | ⟨hstyle, -⟩ := render_chars plainStyle 0 _ c hc
  · exact hlow
  · cases hstyle

theorem calmRisk_encodes : ∃ bytes, encodeUtf8 (calmSerializer.risk calmRisk) = .ok bytes := by
  simp only [calmSerializer, calmRiskText]
  exact encodes_u _

theorem calmScan_bound (id : String) (findings : List Finding) {time : DateTime} (hutc : time.offset = some 0) :
    Bound calmSerializer (calmScan id findings time) := by
  have htexts : boundTexts calmSerializer (calmScan id findings time) =
      [u id, u "a", u "mcpaudit", u "1.0", u TrustGrade.A.text, u TransparencyLevel.high.text,
        calmSerializer.risk calmRisk, findingsText findings, time.isoformat] := rfl
  unfold Bound
  rw [htexts]
  simp only [List.forall_mem_cons, List.not_mem_nil, false_implies, implies_true, and_true]
  exact ⟨encodes_u _, encodes_u _, encodes_u _, encodes_u _, encodes_u _, encodes_u _, calmRisk_encodes,
    encodes_ascii (ascii_findingsText findings), encodes_ascii (ascii_isoformat hutc)⟩

theorem record_ok {slugs : List Str} {table : ScanTable} {scan : ScanRecord} (hbound : Bound dump scan)
    (hnew : (scanRow dump scan).id ∉ table.rows.map ScanRow.id) (hslug : scan.serverSlug ∈ slugs) :
    record dump slugs table scan = .ok ⟨table.rows ++ [scanRow dump scan], uniqueIds_append hnew⟩ := by
  obtain ⟨all, hall⟩ := exists_mapM_ok.mpr hbound
  refine bind_eq_ok.mpr ⟨all, hall, ?_⟩
  rw [dif_pos hnew, if_pos hslug]

theorem calmScan_recorded (id : String) (findings : List Finding) {time : DateTime} (hutc : time.offset = some 0) :
    calmScan id findings time ∈ (recordAll calmSerializer [u "a"] [calmScan id findings time]).scans := by
  have hnew : (scanRow calmSerializer (calmScan id findings time)).id ∉
      nothingRecorded.table.rows.map ScanRow.id := List.not_mem_nil
  have hslug : (calmScan id findings time).serverSlug ∈ [u "a"] := List.mem_singleton.mpr rfl
  rw [recordAll, List.foldl_cons, List.foldl_nil, recordOne,
    record_ok (calmScan_bound id findings hutc) hnew hslug]
  exact List.mem_singleton.mpr rfl

/-- A scan can be recorded and not be read. -/
theorem long_title_unread :
    calmScan "s1" [longFinding 1048576] secondTime ∈
        (recordAll calmSerializer [u "a"] [calmScan "s1" [longFinding 1048576] secondTime]).scans ∧
      ¬∃ scans, history calmModels calmInterpreter
        (recordAll calmSerializer [u "a"] [calmScan "s1" [longFinding 1048576] secondTime]).table (u "a") =
          .ok scans := by
  have hrecorded := calmScan_recorded "s1" [longFinding 1048576] (show secondTime.offset = some 0 from rfl)
  refine ⟨hrecorded, ?_⟩
  exact history_refuses (recordAll_holds _ _ _) hrecorded (longFinding_text 1048576) calmModels calmInterpreter

end McpTrust.Store
