import McpTrust.Python.JsonErrors
import McpTrust.Core.Drift
import McpTrust.Store.Readback
import McpTrust.Core.PublicProjection

/-! # One bad row

The catalog list, the readback of the scans and the corpus drift report skip a row
that does not decode. Their handlers name the value errors of `json.loads` and leave
out the recursion error of a deep text, so one deep text ends the whole read.
-/

namespace McpTrust.Store

set_option autoImplicit false

open Python Sqlite

/-! ## The servers table -/

/-- A row of the `servers` table under its declaration. -/
structure ServerRow where
  slug : SqlValue
  name : SqlValue
  description : SqlValue
  sourceJson : SqlValue
  homepage : SqlValue
  addedAt : SqlValue
  declared : ∀ v ∈ [name, description, sourceJson, addedAt], v ≠ SqlValue.null

structure ServerTable where
  rows : List ServerRow
  uniqueSlugs : ((rows.map ServerRow.slug).filter fun slug => decide (slug ≠ .null)).Nodup

/-- `ServerSource.model_validate`; `none` is a `ValidationError`. -/
abbrev SourceModel := Json → Option Engine.ServerSource

variable (py : Pydantic) (validateSource : SourceModel) (interp : Interpreter)

/-- `row["description"] or ""`. -/
def readDescription (v : SqlValue) : Except PyErr Str := if v.truthy then readStr v else .ok []

def readServer (row : ServerRow) : Except PyErr Server := do
  let sourceRaw ← loadStoredJson interp row.sourceJson
  let source ← orInvalid (validateSource sourceRaw)
  let slug ← readStr row.slug
  let name ← readStr row.name
  let description ← readDescription row.description
  let homepage ← readOptionalStr row.homepage
  let addedAt ← readStr row.addedAt >>= fun s => orInvalid (py.datetime s)
  if h : isSlug slug = true then
    .ok
      { slug := slug
        name := name
        description := description
        source := source
        homepage := homepage
        addedAt := addedAt
        slug_valid := h }
  else .error .valueError

/-- `_row_to_server(row)`. -/
def rowToServer (row : ServerRow) : Except PyErr (Option Server) :=
  catching ((readServer py validateSource interp row).map some) isCorruption (.ok none)

/-- `ORDER BY slug`. -/
def SlugBefore (a b : ServerRow) : Prop := a.slug ≤ b.slug

instance : DecidableRel SlugBefore := fun a b => inferInstanceAs (Decidable (a.slug ≤ b.slug))

/-- `ServerRepository.list()`. -/
def listServers (table : ServerTable) : Except PyErr (List Server) := do
  let servers ← (table.rows.insertionSort SlugBefore).mapM (rowToServer py validateSource interp)
  .ok (servers.filterMap id)

/-! ## The corpus drift report -/

/-- `ScanRepository.history(slug, limit=2)`. -/
def lastTwo (table : ScanTable) (slug : Str) : Except PyErr (List ScanRecord) :=
  ((newestFirst (.text slug) table.rows).take 2).mapM (rowToScan py interp)

/-- `diff_latest(history)`. -/
def diffLatest : List ScanRecord → Except PyErr (Option ScanDrift)
  | current :: previous :: _ => (diff previous current).map some
  | _ => .ok none

structure DriftReport where
  compared : Nat
  skippedSingleScan : Nat
  skippedInvalid : Nat
  drifts : List ScanDrift

/-- The counters of the loop. -/
structure DriftCounts where
  drifts : List ScanDrift
  skippedSingleScan : Nat
  skippedInvalid : Nat

/-- One candidate of the loop of `drift`, which was called for no slug of its own. -/
def driftCandidate (table : ScanTable) (counts : DriftCounts) (candidate : Str) : Except PyErr DriftCounts := do
  let records ← catching ((lastTwo py interp table candidate).map some) PyErr.isValueError (.ok none)
  match records with
  | none => .ok { counts with skippedInvalid := counts.skippedInvalid + 1 }
  | some records =>
    let result ← diffLatest records
    match result with
    | none => .ok { counts with skippedSingleScan := counts.skippedSingleScan + 1 }
    | some result => .ok { counts with drifts := counts.drifts ++ [result] }

/-- The report of the `drift` command. -/
def drift (servers : ServerTable) (scans : ScanTable) : Except PyErr DriftReport := do
  let listed ← listServers py validateSource interp servers
  let counts ← (listed.map Server.slug).foldlM (driftCandidate py interp scans) ⟨[], 0, 0⟩
  .ok
    { compared := counts.drifts.length
      skippedSingleScan := counts.skippedSingleScan
      skippedInvalid := counts.skippedInvalid
      drifts := counts.drifts }

/-! ## Deep texts -/

/-- A text within the admission limit that is nested too deeply for `json.loads`. -/
def Nested (v : SqlValue) : Prop :=
  ∃ s bytes, v = .text s ∧ s.length ≤ maxStoredJsonBytes ∧ encodeUtf8 s = .ok bytes ∧
    bytes.length ≤ maxStoredJsonBytes ∧ jsonLoads interp s = .error .recursionError

/-- A stored text fails to load with one of these. -/
def isLoadError (e : PyErr) : Bool := e.isValueError || decide (e = .recursionError)

variable {py : Pydantic} {validateSource : SourceModel} {interp : Interpreter}

theorem bind_eq_error {α β : Type} {x : Except PyErr α} {f : α → Except PyErr β} {e : PyErr} :
    (x >>= f) = .error e ↔ x = .error e ∨ ∃ a, x = .ok a ∧ f a = .error e := by
  cases x with
  | error e' => simp [bind, Except.bind]
  | ok a => simp [bind, Except.bind]

theorem map_eq_error {α β : Type} {x : Except PyErr α} {f : α → β} {e : PyErr} :
    x.map f = .error e ↔ x = .error e := by
  cases x with
  | error e' => simp [Except.map]
  | ok a => simp [Except.map]

theorem defaultHooks_raises : defaultHooks.Raises isLoadError where
  decode := rfl
  recursion := rfl
  int text := (pyInt_raises rfl text).map
  float _ := raisesOnly_ok _
  constant _ := raisesOnly_ok _
  obj _ := raisesOnly_ok _

theorem encodeUtf8_raises {handled : PyErr → Bool} (h : handled .unicodeError = true) (s : Str) :
    RaisesOnly handled (encodeUtf8 s) := by
  unfold encodeUtf8
  split
  · exact raisesOnly_error h
  · exact raisesOnly_ok _

theorem loadStoredJson_raises (v : SqlValue) : RaisesOnly isLoadError (loadStoredJson interp v) := by
  cases v with
  | null => exact raisesOnly_error rfl
  | blob b => exact raisesOnly_error rfl
  | text s =>
    rw [loadStoredJson]
    split
    · exact raisesOnly_error rfl
    · refine (encodeUtf8_raises rfl s).bind fun bytes _ => ?_
      split
      · exact raisesOnly_error rfl
      · exact loads_raises defaultHooks_raises _ _

theorem loadStoredJson_recursion {v : SqlValue} :
    loadStoredJson interp v = .error .recursionError ↔ Nested interp v := by
  cases v with
  | null => exact iff_of_false nofun fun ⟨_, _, h, _⟩ => nomatch h
  | blob b => exact iff_of_false nofun fun ⟨_, _, h, _⟩ => nomatch h
  | text s =>
    constructor
    · intro h
      rw [loadStoredJson] at h
      by_cases hlen : s.length > maxStoredJsonBytes
      · rw [if_pos hlen] at h
        cases h
      rw [if_neg hlen] at h
      obtain h | ⟨bytes, hbytes, h⟩ := bind_eq_error.mp h
      · have hraises : RaisesOnly PyErr.isValueError (encodeUtf8 s) := encodeUtf8_raises rfl s
        exact nomatch hraises _ h
      by_cases hsize : bytes.length > maxStoredJsonBytes
      · rw [if_pos hsize] at h
        cases h
      rw [if_neg hsize] at h
      exact ⟨s, bytes, rfl, Nat.le_of_not_gt hlen, hbytes, Nat.le_of_not_gt hsize, h⟩
    · rintro ⟨_, bytes, ⟨⟩, hlen, hbytes, hsize, h⟩
      rw [loadStoredJson, if_neg (Nat.not_lt.mpr hlen), hbytes]
      exact (if_neg (Nat.not_lt.mpr hsize)).trans h

theorem loadStoredJson_error {v : SqlValue} {e : PyErr} (h : loadStoredJson interp v = .error e) :
    e.isValueError = true ∨ e = .recursionError ∧ Nested interp v := by
  have hload := loadStoredJson_raises v e h
  rw [isLoadError, Bool.or_eq_true, decide_eq_true_eq] at hload
  refine hload.imp_right ?_
  rintro rfl
  exact ⟨rfl, loadStoredJson_recursion.mp h⟩

/-! ## The list of servers -/

/-- The server is what the columns of the row hold. -/
structure DecodesTo (py : Pydantic) (validateSource : SourceModel) (interp : Interpreter) (row : ServerRow)
    (server : Server) : Prop where
  source : ∃ raw, loadStoredJson interp row.sourceJson = .ok raw ∧ validateSource raw = some server.source
  slug : readStr row.slug = .ok server.slug
  name : readStr row.name = .ok server.name
  description : readDescription row.description = .ok server.description
  homepage : readOptionalStr row.homepage = .ok server.homepage
  addedAt : ∃ s, readStr row.addedAt = .ok s ∧ py.datetime s = some server.addedAt

theorem readServer_ok {row : ServerRow} {server : Server} :
    readServer py validateSource interp row = .ok server ↔ DecodesTo py validateSource interp row server := by
  constructor
  · intro h
    rw [readServer] at h
    obtain ⟨raw, hload, h⟩ := bind_eq_ok.mp h
    obtain ⟨source, hsource, h⟩ := bind_eq_ok.mp h
    obtain ⟨slug, hslug, h⟩ := bind_eq_ok.mp h
    obtain ⟨name, hname, h⟩ := bind_eq_ok.mp h
    obtain ⟨description, hdescription, h⟩ := bind_eq_ok.mp h
    obtain ⟨homepage, hhomepage, h⟩ := bind_eq_ok.mp h
    obtain ⟨addedAt, haddedAt, h⟩ := bind_eq_ok.mp h
    split at h
    · cases h
      exact
        { source := ⟨raw, hload, orInvalid_ok.mp hsource⟩
          slug := hslug
          name := hname
          description := hdescription
          homepage := hhomepage
          addedAt := readTime_ok.mp haddedAt }
    · cases h
  · intro h
    obtain ⟨raw, hload, hsource⟩ := h.source
    obtain ⟨s, hs, htime⟩ := h.addedAt
    rw [readServer]
    apply bind_eq_ok.mpr ⟨raw, hload, _⟩
    apply bind_eq_ok.mpr ⟨_, orInvalid_ok.mpr hsource, _⟩
    apply bind_eq_ok.mpr ⟨_, h.slug, _⟩
    apply bind_eq_ok.mpr ⟨_, h.name, _⟩
    apply bind_eq_ok.mpr ⟨_, h.description, _⟩
    apply bind_eq_ok.mpr ⟨_, h.homepage, _⟩
    apply bind_eq_ok.mpr ⟨_, readTime_ok.mpr ⟨s, hs, htime⟩, _⟩
    exact dif_pos server.slug_valid

theorem orInvalid_raises {α : Type} {x : Option α} : RaisesOnly PyErr.isValueError (orInvalid x) := by
  cases x with
  | none => exact raisesOnly_error rfl
  | some a => exact raisesOnly_ok a

theorem readStr_raises (v : SqlValue) : RaisesOnly PyErr.isValueError (readStr v) := by
  cases v with
  | null => exact raisesOnly_error rfl
  | text s => exact raisesOnly_ok s
  | blob b =>
    rw [readStr]
    cases decodeUtf8 b with
    | ok s => exact raisesOnly_ok s
    | error e => exact raisesOnly_error rfl

theorem readOptionalStr_raises (v : SqlValue) : RaisesOnly PyErr.isValueError (readOptionalStr v) := by
  unfold readOptionalStr
  split
  · exact raisesOnly_ok _
  · exact (readStr_raises v).map

theorem readTime_raises (v : SqlValue) :
    RaisesOnly PyErr.isValueError (readStr v >>= fun s => orInvalid (py.datetime s)) :=
  (readStr_raises v).bind fun _ _ => orInvalid_raises

/-- What is left of a server row once its source is read fails with a value error. -/
theorem readServer_error {row : ServerRow} {e : PyErr} (h : readServer py validateSource interp row = .error e) :
    e.isValueError = true ∨ e = .recursionError ∧ Nested interp row.sourceJson := by
  rw [readServer] at h
  obtain h | ⟨raw, -, h⟩ := bind_eq_error.mp h
  · exact loadStoredJson_error h
  · refine .inl (RaisesOnly.bind orInvalid_raises (fun source _ => ?_) e h)
    refine (readStr_raises _).bind fun slug _ => (readStr_raises _).bind fun name _ => ?_
    refine RaisesOnly.bind ?_ fun description _ => (readOptionalStr_raises _).bind fun homepage _ => ?_
    · unfold readDescription
      split
      · exact readStr_raises _
      · exact raisesOnly_ok _
    · refine (readTime_raises _).bind fun addedAt _ => ?_
      split
      · exact raisesOnly_ok _
      · exact raisesOnly_error rfl

theorem isCorruption_of_value {e : PyErr} (h : e.isValueError = true) : isCorruption e = true := by
  rw [isCorruption, h, Bool.true_or]

/-- A row decodes or is dropped, unless its source is nested too deeply. -/
theorem rowToServer_cases (py : Pydantic) (validateSource : SourceModel) (interp : Interpreter) (row : ServerRow) :
    (Nested interp row.sourceJson ∧ rowToServer py validateSource interp row = .error .recursionError) ∨
      (¬Nested interp row.sourceJson ∧ ∃ found, rowToServer py validateSource interp row = .ok found ∧
        ∀ server, found = some server ↔ DecodesTo py validateSource interp row server) := by
  unfold rowToServer
  by_cases hnested : Nested interp row.sourceJson
  · refine .inl ⟨hnested, ?_⟩
    rw [readServer, loadStoredJson_recursion.mpr hnested]
    rfl
  · refine .inr ⟨hnested, ?_⟩
    cases hread : readServer py validateSource interp row with
    | ok server =>
      refine ⟨some server, rfl, fun other => ?_⟩
      rw [← readServer_ok, hread, Option.some.injEq, Except.ok.injEq]
    | error e =>
      obtain he | ⟨-, hdeep⟩ := readServer_error hread
      · refine ⟨none, if_pos (isCorruption_of_value he), fun other => ?_⟩
        rw [← readServer_ok, hread]
        exact iff_of_false nofun nofun
      · exact absurd hdeep hnested

/-- `ServerRepository.list` returns exactly the servers of the rows that decode. -/
def ListsDecoded (py : Pydantic) (validateSource : SourceModel) (interp : Interpreter) (table : ServerTable) : Prop :=
  ∃ listed, listServers py validateSource interp table = .ok listed ∧
    ∀ server, server ∈ listed ↔ ∃ row ∈ table.rows, DecodesTo py validateSource interp row server

theorem listServers_ok {table : ServerTable} {listed : List Server}
    (h : listServers py validateSource interp table = .ok listed) :
    (∀ row ∈ table.rows, ¬Nested interp row.sourceJson) ∧
      ∀ server, server ∈ listed ↔ ∃ row ∈ table.rows, DecodesTo py validateSource interp row server := by
  obtain ⟨found, hfound, h⟩ := bind_eq_ok.mp h
  cases h
  have hshallow : ∀ row ∈ table.rows, ¬Nested interp row.sourceJson := by
    intro row hrow hnested
    obtain ⟨result, hresult⟩ := exists_mapM_ok.mp ⟨found, hfound⟩ row ((List.mem_insertionSort _).mpr hrow)
    obtain ⟨-, hraised⟩ | ⟨hnot, -⟩ := rowToServer_cases py validateSource interp row
    · rw [hraised] at hresult
      cases hresult
    · exact hnot hnested
  refine ⟨hshallow, fun server => ?_⟩
  rw [List.mem_filterMap]
  constructor
  · rintro ⟨result, hresult, hserver⟩
    obtain ⟨row, hrow, hresult⟩ := (mapM_ok_mem hfound).mp hresult
    obtain ⟨hnested, -⟩ | ⟨-, other, hother, hdecodes⟩ :=
      rowToServer_cases py validateSource interp row
    · exact absurd hnested (hshallow row ((List.mem_insertionSort _).mp hrow))
    · rw [hresult, Except.ok.injEq] at hother
      exact ⟨row, (List.mem_insertionSort _).mp hrow, (hdecodes server).mp (hother ▸ hserver)⟩
  · rintro ⟨row, hrow, hdecodes⟩
    refine ⟨some server, (mapM_ok_mem hfound).mpr ⟨row, (List.mem_insertionSort _).mpr hrow, ?_⟩, rfl⟩
    rw [rowToServer, readServer_ok.mpr hdecodes]
    rfl

theorem listServers_shallow (py : Pydantic) (validateSource : SourceModel) {table : ServerTable}
    (h : ∀ row ∈ table.rows, ¬Nested interp row.sourceJson) :
    ∃ listed, listServers py validateSource interp table = .ok listed := by
  have hall : ∃ found, (table.rows.insertionSort SlugBefore).mapM (rowToServer py validateSource interp) = .ok found := by
    rw [exists_mapM_ok]
    intro row hrow
    obtain ⟨hnested, -⟩ | ⟨-, found, hfound, -⟩ := rowToServer_cases py validateSource interp row
    · exact absurd hnested (h row ((List.mem_insertionSort _).mp hrow))
    · exact ⟨found, hfound⟩
  obtain ⟨found, hfound⟩ := hall
  exact ⟨found.filterMap id, bind_eq_ok.mpr ⟨found, hfound, rfl⟩⟩

theorem listsDecoded_iff {table : ServerTable} :
    ListsDecoded py validateSource interp table ↔ ∀ row ∈ table.rows, ¬Nested interp row.sourceJson := by
  constructor
  · rintro ⟨listed, hlisted, -⟩
    exact (listServers_ok hlisted).1
  · intro h
    obtain ⟨listed, hlisted⟩ := listServers_shallow py validateSource h
    exact ⟨listed, hlisted, (listServers_ok hlisted).2⟩

/-! ## Deep scan rows -/

/-- Every text read before the deep one is readable. -/
inductive DeepRow (py : Pydantic) (interp : Interpreter) (row : ScanRow) : Prop
  | risk (deep : Nested interp row.riskJson)
  | findings (valid : ∃ raw, loadStoredJson interp row.riskJson = .ok raw ∧ (py.risk raw).isSome)
      (deep : Nested interp row.findingsJson)
  | evidence (readable : ReadableRisk py interp row)
      (level : row.transparency.truthy = true →
        ∃ level : TransparencyLevel, row.transparency = .text (u level.text))
      (present : row.evidenceJson.truthy = true) (deep : Nested interp row.evidenceJson)

theorem catching_eq_error {α : Type} {x : Except PyErr α} {handled : PyErr → Bool} {d e : PyErr}
    (h : catching x handled (.error d) = .error e) : e = d ∨ x = .error e := by
  cases x with
  | ok a => cases h
  | error e' =>
    rw [catching_error] at h
    split at h
    · exact .inl (Except.error.inj h).symm
    · exact .inr h

theorem catching_recursion {α : Type} {x : Except PyErr α} (h : x = .error .recursionError) :
    catching x isCorruption (.error .valueError) = .error .recursionError := by
  rw [h]
  rfl

theorem readFindings_raises (raw : Json) : RaisesOnly PyErr.isValueError (readFindings py raw) := by
  have hitems : ∀ items : List Json,
      RaisesOnly PyErr.isValueError (items.mapM fun item => orInvalid (py.finding item)) := by
    intro items
    induction items with
    | nil => exact raisesOnly_ok _
    | cons item items ih =>
      rw [List.mapM_cons]
      exact orInvalid_raises.bind fun _ _ => ih.bind fun _ _ => raisesOnly_ok _
  unfold readFindings
  split
  · split
    · exact raisesOnly_error rfl
    · exact hitems _
  · exact raisesOnly_error rfl

theorem readRiskAndFindings_error {row : ScanRow} {e : PyErr}
    (h : readRiskAndFindings py interp row = .error e) :
    e.isValueError = true ∨ e = .recursionError ∧ DeepRow py interp row := by
  obtain rfl | h := catching_eq_error h
  · exact .inl rfl
  obtain h | ⟨raw, hraw, h⟩ := bind_eq_error.mp h
  · exact (loadStoredJson_error h).imp_right fun ⟨he, hdeep⟩ => ⟨he, .risk hdeep⟩
  obtain h | ⟨risk, hrisk, h⟩ := bind_eq_error.mp h
  · exact .inl (orInvalid_raises e h)
  obtain h | ⟨findingsRaw, -, h⟩ := bind_eq_error.mp h
  · have hvalid := Option.isSome_iff_exists.mpr ⟨risk, orInvalid_ok.mp hrisk⟩
    exact (loadStoredJson_error h).imp_right fun ⟨he, hdeep⟩ => ⟨he, .findings ⟨raw, hraw, hvalid⟩ hdeep⟩
  · exact .inl ((readFindings_raises findingsRaw).bind (fun _ _ => raisesOnly_ok _) e h)

theorem readTransparency_raises (row : ScanRow) : RaisesOnly PyErr.isValueError (readTransparency row) := by
  unfold readTransparency
  split
  · split
    · exact orInvalid_raises
    · exact raisesOnly_error rfl
  · exact raisesOnly_ok _

theorem readEvidence_error {row : ScanRow} {e : PyErr} (h : readEvidence py interp row = .error e) :
    e.isValueError = true ∨
      e = .recursionError ∧ row.evidenceJson.truthy = true ∧ Nested interp row.evidenceJson := by
  unfold readEvidence at h
  by_cases hpresent : row.evidenceJson.truthy = true
  · rw [if_pos hpresent] at h
    obtain rfl | h := catching_eq_error h
    · exact .inl rfl
    obtain h | ⟨raw, -, h⟩ := bind_eq_error.mp h
    · exact (loadStoredJson_error h).imp_right fun ⟨he, hdeep⟩ => ⟨he, hpresent, hdeep⟩
    · split at h
      · cases h
        exact .inl rfl
      · exact .inl (orInvalid_raises.bind (fun _ _ => raisesOnly_ok _) e h)
  · rw [if_neg hpresent] at h
    cases h

theorem readGrade_raises (v : SqlValue) : RaisesOnly PyErr.isValueError (readGrade v) := by
  unfold readGrade
  split
  · exact orInvalid_raises
  · exact raisesOnly_error rfl

theorem readChecked_raises (p : Str → Bool) (v : SqlValue) :
    RaisesOnly PyErr.isValueError (readStr v >>= checked p) := by
  refine (readStr_raises v).bind fun s _ => ?_
  unfold checked
  split
  · exact raisesOnly_ok _
  · exact raisesOnly_error rfl

theorem rowToScan_error {row : ScanRow} {e : PyErr} (h : rowToScan py interp row = .error e) :
    e.isValueError = true ∨ e = .recursionError ∧ DeepRow py interp row := by
  rw [rowToScan] at h
  obtain h | ⟨parts, hparts, h⟩ := bind_eq_error.mp h
  · exact readRiskAndFindings_error h
  obtain h | ⟨level, hlevel, h⟩ := bind_eq_error.mp h
  · exact .inl (readTransparency_raises row e h)
  obtain h | ⟨evidence, -, h⟩ := bind_eq_error.mp h
  · refine (readEvidence_error h).imp_right ?_
    rintro ⟨he, hpresent, hdeep⟩
    refine ⟨he, ?_⟩
    exact .evidence (readRiskAndFindings_ok.mp ⟨parts, hparts⟩) (readTransparency_ok.mp ⟨level, hlevel⟩) hpresent hdeep
  · refine .inl (RaisesOnly.bind (readGrade_raises _) (fun _ _ => ?_) e h)
    refine (readChecked_raises _ _).bind fun _ _ => (readChecked_raises _ _).bind fun _ _ => ?_
    refine (readStr_raises _).bind fun _ _ => (readStr_raises _).bind fun _ _ => ?_
    refine (readTime_raises _).bind fun _ _ => (readOptionalStr_raises _).bind fun _ _ => ?_
    exact (readOptionalStr_raises _).bind fun _ _ => raisesOnly_ok _

theorem rowToScan_deep {row : ScanRow} (h : DeepRow py interp row) :
    rowToScan py interp row = .error .recursionError := by
  rw [rowToScan]
  cases h with
  | risk deep =>
    have hrisk : readRiskAndFindings py interp row = .error .recursionError :=
      catching_recursion (bind_eq_error.mpr (.inl (loadStoredJson_recursion.mpr deep)))
    exact bind_eq_error.mpr (.inl hrisk)
  | findings valid deep =>
    obtain ⟨raw, hraw, hvalid⟩ := valid
    obtain ⟨risk, hrisk⟩ := Option.isSome_iff_exists.mp hvalid
    have hfindings : readRiskAndFindings py interp row = .error .recursionError := by
      apply catching_recursion
      apply bind_eq_error.mpr (.inr ⟨raw, hraw, _⟩)
      apply bind_eq_error.mpr (.inr ⟨risk, orInvalid_ok.mpr hrisk, _⟩)
      exact bind_eq_error.mpr (.inl (loadStoredJson_recursion.mpr deep))
    exact bind_eq_error.mpr (.inl hfindings)
  | evidence readable level present deep =>
    obtain ⟨parts, hparts⟩ := readRiskAndFindings_ok.mpr readable
    obtain ⟨level, hlevel⟩ := readTransparency_ok.mpr level
    have hevidence : readEvidence py interp row = .error .recursionError := by
      rw [readEvidence, if_pos present]
      exact catching_recursion (bind_eq_error.mpr (.inl (loadStoredJson_recursion.mpr deep)))
    apply bind_eq_error.mpr (.inr ⟨parts, hparts, _⟩)
    apply bind_eq_error.mpr (.inr ⟨level, hlevel, _⟩)
    exact bind_eq_error.mpr (.inl hevidence)

theorem handled_iff {row : ScanRow} : Handled py interp row ↔ ¬DeepRow py interp row := by
  constructor
  · intro h hdeep
    exact nomatch h _ (rowToScan_deep hdeep)
  · intro h e he
    obtain hvalue | ⟨-, hdeep⟩ := rowToScan_error he
    · exact isCorruption_of_value hvalue
    · exact absurd hdeep h

/-! ## The readback -/

/-- `latest_all_readback` returns with every slug whose newest row decodes. -/
def ReadsNewest (py : Pydantic) (interp : Interpreter) (table : ScanTable) : Prop :=
  ∃ readback, scanReadback py interp table = .ok readback ∧
    ∀ slug row record, isSlug slug = true → (newestFirst (.text slug) table.rows).head? = some row →
      rowToScan py interp row = .ok record → readback.records slug = some record

theorem foldlM_admitRow_handled {rows : List ScanRow} {start readback : ScanReadback}
    (h : rows.foldlM (admitRow py interp) start = .ok readback) : ∀ row ∈ rows, Handled py interp row := by
  induction rows generalizing start with
  | nil => exact fun _ hrow => nomatch hrow
  | cons row rows ih =>
    rw [List.foldlM_cons] at h
    obtain ⟨next, hnext, h⟩ := bind_eq_ok.mp h
    refine List.forall_mem_cons.mpr ⟨fun e he => ?_, ih h⟩
    by_contra hcorrupt
    simp only [admitRow, he, if_neg hcorrupt] at hnext
    cases hnext

theorem readsNewest_iff {table : ScanTable} :
    ReadsNewest py interp table ↔ ∀ row ∈ newestRows table.rows, ¬DeepRow py interp row := by
  constructor
  · rintro ⟨readback, hreadback, -⟩ row hrow
    exact handled_iff.mp (foldlM_admitRow_handled hreadback row ((List.mem_insertionSort _).mpr hrow))
  · intro h
    have hhandled : ∀ row ∈ newestRows table.rows, Handled py interp row :=
      fun row hrow => handled_iff.mpr (h row hrow)
    have hslug : isSlug (u "a") = true := by decide
    obtain ⟨readback, hreadback, -⟩ := scanReadback_latest hhandled hslug
    refine ⟨readback, hreadback, fun slug row record hslug hrow hrecord => ?_⟩
    obtain ⟨other, hother, hslot⟩ := scanReadback_latest hhandled hslug
    rw [hreadback, Except.ok.injEq] at hother
    rw [← hother, hrow] at hslot
    simp only [admitted, hrecord, Prod.mk.injEq] at hslot
    exact hslot.1

/-! ## The drift report -/

/-- One of the two newest rows of the slug is deep, and it is reached. -/
def DeepPair (py : Pydantic) (interp : Interpreter) (table : ScanTable) (slug : Str) : Prop :=
  ∃ newest rest, newestFirst (.text slug) table.rows = newest :: rest ∧
    (DeepRow py interp newest ∨
      Readable py interp newest ∧ ∃ second older, rest = second :: older ∧ DeepRow py interp second)

theorem lastTwo_error {table : ScanTable} {slug : Str} {e : PyErr} (h : lastTwo py interp table slug = .error e) :
    e.isValueError = true ∨ e = .recursionError ∧ DeepPair py interp table slug := by
  unfold lastTwo at h
  unfold DeepPair
  cases hrows : newestFirst (.text slug) table.rows with
  | nil =>
    rw [hrows] at h
    cases h
  | cons newest rest =>
    rw [hrows, List.take_succ_cons, List.mapM_cons] at h
    obtain h | ⟨record, hrecord, h⟩ := bind_eq_error.mp h
    · exact (rowToScan_error h).imp_right fun ⟨he, hdeep⟩ => ⟨he, newest, rest, rfl, .inl hdeep⟩
    obtain h | ⟨_, -, h⟩ := bind_eq_error.mp h
    · cases hrest : rest with
      | nil =>
        rw [hrest] at h
        cases h
      | cons second older =>
        rw [hrest, List.take_succ_cons, List.mapM_cons] at h
        obtain h | ⟨_, -, h⟩ := bind_eq_error.mp h
        · refine (rowToScan_error h).imp_right fun ⟨he, hdeep⟩ => ⟨he, newest, second :: older, rfl, .inr ?_⟩
          exact ⟨readable_of_ok hrecord, second, older, rfl, hdeep⟩
        · cases h
    · cases h

theorem lastTwo_deep {table : ScanTable} {slug : Str} (h : DeepPair py interp table slug) :
    lastTwo py interp table slug = .error .recursionError := by
  obtain ⟨newest, rest, hrows, hdeep⟩ := h
  rw [lastTwo, hrows, List.take_succ_cons, List.mapM_cons]
  obtain hdeep | ⟨hreadable, second, older, rfl, hdeep⟩ := hdeep
  · exact bind_eq_error.mpr (.inl (rowToScan_deep hdeep))
  · obtain ⟨record, hrecord⟩ := ok_of_readable hreadable
    apply bind_eq_error.mpr (.inr ⟨record, hrecord, _⟩)
    apply bind_eq_error.mpr (.inl _)
    rw [List.take_succ_cons, List.mapM_cons]
    exact bind_eq_error.mpr (.inl (rowToScan_deep hdeep))

/-- The records of one slug have one slug, so two of them always compare. -/
theorem diffLatest_lastTwo {table : ScanTable} {slug : Str} {records : List ScanRecord}
    (h : lastTwo py interp table slug = .ok records) : ∃ result, diffLatest records = .ok result := by
  have hslug : ∀ record ∈ records, record.serverSlug = slug := by
    intro record hrecord
    obtain ⟨row, hrow, hread⟩ := (mapM_ok_mem h).mp hrecord
    obtain ⟨-, hsame⟩ := mem_newestFirst.mp (List.mem_of_mem_take hrow)
    have hcopy := (copies_of_ok hread).serverSlug
    rw [hsame, readStr, Except.ok.injEq] at hcopy
    exact hcopy.symm
  unfold diffLatest
  split
  · rename_i current previous rest
    have hcurrent := hslug current List.mem_cons_self
    have hprevious := hslug previous (List.mem_cons_of_mem _ List.mem_cons_self)
    rw [diff, if_neg (not_not.mpr (hprevious.trans hcurrent.symm))]
    exact ⟨_, rfl⟩
  · exact ⟨none, rfl⟩

def DriftCounts.total (counts : DriftCounts) : Nat :=
  counts.drifts.length + counts.skippedSingleScan + counts.skippedInvalid

/-- A candidate is counted once, unless it is deep. -/
theorem driftCandidate_counts {table : ScanTable} {slug : Str} (h : ¬DeepPair py interp table slug)
    (counts : DriftCounts) : ∃ next, driftCandidate py interp table counts slug = .ok next ∧
      next.total = counts.total + 1 := by
  unfold driftCandidate
  cases hread : lastTwo py interp table slug with
  | error e =>
    obtain he | ⟨-, hdeep⟩ := lastTwo_error hread
    · have hcaught : catching ((Except.error e : Except PyErr (List ScanRecord)).map some) PyErr.isValueError
          (.ok none) = .ok none := if_pos he
      rw [hcaught]
      exact ⟨_, rfl, rfl⟩
    · exact absurd hdeep h
  | ok records =>
    obtain ⟨result, hresult⟩ := diffLatest_lastTwo hread
    cases result with
    | none =>
      refine ⟨_, bind_eq_ok.mpr ⟨some records, rfl, bind_eq_ok.mpr ⟨none, hresult, rfl⟩⟩, ?_⟩
      simp only [DriftCounts.total]
      omega
    | some result =>
      refine ⟨_, bind_eq_ok.mpr ⟨some records, rfl, bind_eq_ok.mpr ⟨some result, hresult, rfl⟩⟩, ?_⟩
      simp only [DriftCounts.total, List.length_append, List.length_singleton]
      omega

theorem driftCandidate_shallow {table : ScanTable} {slug : Str} {counts next : DriftCounts}
    (h : driftCandidate py interp table counts slug = .ok next) : ¬DeepPair py interp table slug := by
  intro hdeep
  rw [driftCandidate, lastTwo_deep hdeep] at h
  cases h

/-- The loop ends when no candidate is deep, and then it has counted every one. -/
theorem driftLoop (py : Pydantic) (interp : Interpreter) (table : ScanTable) (slugs : List Str)
    (counts : DriftCounts) :
    ((∃ last, slugs.foldlM (driftCandidate py interp table) counts = .ok last) ↔
        ∀ slug ∈ slugs, ¬DeepPair py interp table slug) ∧
      ∀ last, slugs.foldlM (driftCandidate py interp table) counts = .ok last →
        last.total = counts.total + slugs.length := by
  induction slugs generalizing counts with
  | nil =>
    refine ⟨iff_of_true ⟨counts, rfl⟩ (fun _ h => nomatch h), fun last h => ?_⟩
    cases h
    rfl
  | cons slug slugs ih =>
    rw [List.foldlM_cons]
    by_cases hdeep : DeepPair py interp table slug
    · refine ⟨iff_of_false ?_ fun h => h slug List.mem_cons_self hdeep, ?_⟩
      · rintro ⟨last, h⟩
        obtain ⟨next, hnext, -⟩ := bind_eq_ok.mp h
        exact driftCandidate_shallow hnext hdeep
      · intro last h
        obtain ⟨next, hnext, -⟩ := bind_eq_ok.mp h
        exact absurd hdeep (driftCandidate_shallow hnext)
    · obtain ⟨next, hnext, htotal⟩ := driftCandidate_counts hdeep counts
      obtain ⟨hends, hcounts⟩ := ih next
      rw [hnext, List.forall_mem_cons]
      refine ⟨hends.trans (and_iff_right hdeep).symm, fun last h => ?_⟩
      rw [hcounts last h, htotal, List.length_cons]
      omega

/-- `drift` completes and accounts for every listed server. -/
def DriftCompletes (py : Pydantic) (validateSource : SourceModel) (interp : Interpreter) (servers : ServerTable)
    (scans : ScanTable) : Prop :=
  ∃ listed report, listServers py validateSource interp servers = .ok listed ∧
    drift py validateSource interp servers scans = .ok report ∧
    report.compared + report.skippedSingleScan + report.skippedInvalid = listed.length

/-- Brackets, one more than the interpreter allows. -/
def brackets (n : Nat) : Str := List.replicate n (ch '[')

theorem scanValue_brackets (h : Hooks) (depth fuel : Nat) (hfuel : 2 * depth + 1 ≤ fuel) :
    scanValue h fuel depth (brackets (depth + 1)) = .error .recursionError := by
  induction depth generalizing fuel with
  | zero =>
    obtain ⟨fuel, rfl⟩ : ∃ n, fuel = n + 1 := ⟨fuel - 1, by omega⟩
    rfl
  | succ depth ih =>
    obtain ⟨fuel, rfl⟩ : ∃ n, fuel = n + 2 := ⟨fuel - 2, by omega⟩
    have hinner := ih fuel (by omega)
    have hskip : skipSpace (brackets (depth + 1)) = brackets (depth + 1) := rfl
    have hhead : (brackets (depth + 1)).head? ≠ some (ch ']') := by
      change some (ch '[') ≠ some (ch ']')
      decide
    rw [brackets, List.replicate_succ, scanValue_cons]
    change (scanItems h (fuel + 1) depth true (skipSpace (brackets (depth + 1))) >>= _) = _
    rw [hskip, scanItems, if_neg (fun hclosed => hhead hclosed.2), hinner]
    rfl

theorem nested_brackets (interp : Interpreter) (h : interp.recursionLimit < maxStoredJsonBytes) :
    Nested interp (.text (brackets (interp.recursionLimit + 1))) := by
  have hsurrogate : ∀ c ∈ brackets (interp.recursionLimit + 1), isSurrogate c = false := by
    intro c hc
    rw [List.eq_of_mem_replicate hc]
    decide
  have hbytes := encodeUtf8_eq_ok hsurrogate
  refine ⟨_, _, rfl, ?_, hbytes, ?_, ?_⟩
  · rw [brackets, List.length_replicate]
    exact h
  · have hone : encodeCodePoint (ch '[') = [0x5B] := by decide
    rw [brackets, List.flatMap_replicate, hone, List.length_flatten, List.map_replicate, List.sum_replicate]
    rw [List.length_singleton, smul_eq_mul, mul_one]
    exact h
  · have hscan := scanValue_brackets defaultHooks interp.recursionLimit
      (2 * (brackets (interp.recursionLimit + 1)).length + 1) (by rw [brackets, List.length_replicate]; omega)
    have hmark : (brackets (interp.recursionLimit + 1)).head? ≠ some (codePoint 0xFEFF) := by
      change some (ch '[') ≠ some (codePoint 0xFEFF)
      decide
    have hskip : skipSpace (brackets (interp.recursionLimit + 1)) = brackets (interp.recursionLimit + 1) := rfl
    rw [jsonLoads, loads, if_neg hmark, hskip, hscan]
    rfl

/-- A server whose source is a text of opening brackets. -/
def deepServer (depth : Nat) : ServerRow where
  slug := .text (u "server")
  name := .text (u "server")
  description := .text []
  sourceJson := .text (brackets depth)
  homepage := .null
  addedAt := .text (u "2026-01-01T00:00:00+00:00")
  declared := by simp

end McpTrust.Store
