import McpTrust.Store.Readable
import McpTrust.Launch.State
import McpTrust.Refresh.LocalRows

/-! # What a clean launch check says about the served rows

The check reads some columns of the newest rows. The registry serves those rows
when, beside that, no id is null, no slug has two newest rows and the newest rows
decode.
-/

namespace McpTrust.Launch

set_option autoImplicit false

open Python Sqlite Store

variable {interp : Interpreter} {py : Pydantic}

/-! ## Reports without errors -/

theorem errorIf_eq_nil {c : Bool} {e : LaunchError} : errorIf c e = [] ↔ c = false := by
  cases c <;> simp [errorIf]

theorem mapM_eq_some_nil {α β : Type} {f : α → Option β} {items : List α} :
    items.mapM f = some [] ↔ items = [] := by
  cases items with
  | nil => simp
  | cons item items => simp [List.mapM_cons, Option.bind_eq_some_iff]

theorem joined_ok_nil {slugs : Option (List Str)} {message : List Str → LaunchError} :
    joined slugs message = .ok [] ↔ slugs = some [] := by
  match slugs with
  | none => simp [joined]
  | some [] => simp [joined]
  | some (slug :: slugs) => simp [joined]

theorem joined_ok {slugs : Option (List Str)} {message : List Str → LaunchError}
    {errors : List LaunchError} (h : joined slugs message = .ok errors) (hnil : errors = []) :
    slugs = some [] := joined_ok_nil.mp (hnil ▸ h)

/-- A latest slug is an expected one and not masked, and an expected slug has a latest row. -/
structure SlugsAgree (expected : List Json) (masked : List Str) (latest : List SqlValue) : Prop where
  found : ∀ v ∈ expected, ∃ slug, v = .str slug ∧ SqlValue.text slug ∈ latest
  seeded : ∀ w ∈ latest, ∃ slug, w = .text slug ∧ Json.str slug ∈ expected
  unmasked : ∀ slug ∈ masked, SqlValue.text slug ∉ latest

theorem slugsAgree_of_ok {expected : List Json} {masked : List Str} {latest : List SqlValue}
    (h : compareSlugs expected masked latest = .ok []) : SlugsAgree expected masked latest := by
  rw [compareSlugs] at h
  obtain ⟨leaked, hleaked, h⟩ := bind_eq_ok.mp h
  obtain ⟨missing, hmissing, h⟩ := bind_eq_ok.mp h
  obtain ⟨extras, hextras, h⟩ := bind_eq_ok.mp h
  rw [Except.ok.injEq, List.append_eq_nil_iff, List.append_eq_nil_iff] at h
  obtain ⟨⟨hl, hm⟩, he⟩ := h
  have hl := mapM_eq_some_nil.mp (joined_ok hleaked hl)
  have hm := mapM_eq_some_nil.mp (joined_ok hmissing hm)
  have he := mapM_eq_some_nil.mp (joined_ok hextras he)
  constructor
  · intro v hv
    have hkeep := List.filter_eq_nil_iff.mp hm v hv
    rw [Bool.not_eq_true', Bool.not_eq_false, List.any_eq_true] at hkeep
    obtain ⟨w, hw, hsame⟩ := hkeep
    cases v <;> cases w <;> simp only [decide_eq_true_eq, Bool.false_eq_true] at hsame
    case str.text slug t => exact ⟨slug, rfl, hsame ▸ hw⟩
  · intro w hw
    have hkeep := List.filter_eq_nil_iff.mp he w hw
    rw [Bool.not_eq_true', Bool.not_eq_false, List.any_eq_true] at hkeep
    obtain ⟨v, hv, hsame⟩ := hkeep
    cases v <;> cases w <;> simp only [decide_eq_true_eq, Bool.false_eq_true] at hsame
    case str.text slug t => exact ⟨t, rfl, hsame ▸ hv⟩
  · intro slug hslug hmem
    have hkeep := List.filter_eq_nil_iff.mp hl _ hmem
    apply hkeep
    rw [decide_eq_true_eq]
    exact List.mem_map_of_mem hslug

/-! ## The receipt of a row -/

/-- The members of a receipt repeat the row's columns. -/
structure SameAsRow (row : ScanRow) (receipt scanner : Dict) : Prop where
  serverSlug : sameValue (Dict.get receipt "server_slug") row.serverSlug = true
  scanId : sameValue (Dict.get receipt "scan_id") row.id = true
  engineName : sameValue (Dict.get scanner "engine_name") row.engineName = true
  engineVersion : sameValue (Dict.get scanner "engine_version") row.engineVersion = true

/-- The file `ref` is a receipt whose members repeat the row's columns. -/
def ReceiptAgrees (interp : Interpreter) (receipts : Receipts) (row : ScanRow) (ref : Str) : Prop :=
  ∃ content receipt scanner, receipts ref = some (.file content) ∧
    loadJson interp content = .ok (.obj receipt) ∧ Dict.get receipt "scanner" = .obj scanner ∧
    SameAsRow row receipt scanner

theorem scannerOf_ok {receipt scanner : Dict} (h : scannerOf receipt = .ok scanner) :
    scanner = [] ∨ Dict.get receipt "scanner" = .obj scanner := by
  unfold scannerOf at h
  cases hget : Dict.get receipt "scanner"
  all_goals rw [hget] at h
  case obj fields =>
    cases h
    exact .inr rfl
  case null =>
    cases h
    exact .inl rfl
  case bool b =>
    cases b <;> cases h
    exact .inl rfl
  case int n =>
    by_cases hn : n = 0
    · subst hn
      cases h
      exact .inl rfl
    · simp only [if_neg hn] at h
      cases h
  case float x =>
    by_cases hx : x.value? = some 0
    · simp only [if_pos hx] at h
      cases h
      exact .inl rfl
    · simp only [if_neg hx] at h
      cases h
  case str s =>
    cases s <;> cases h
    exact .inl rfl
  case arr items =>
    cases items <;> cases h
    exact .inl rfl

theorem engineName_ne_null (row : ScanRow) : row.engineName ≠ .null :=
  row.declared _ (.tail _ (.head _))

theorem sameAsRow_of_ok {row : ScanRow} {receipt : Json} (h : checkReceipt row receipt = .ok []) :
    ∃ fields scanner, receipt = .obj fields ∧ Dict.get fields "scanner" = .obj scanner ∧
      SameAsRow row fields scanner := by
  cases receipt
  case obj fields =>
    obtain ⟨scanner, hscanner, h⟩ := bind_eq_ok.mp h
    simp only [Except.ok.injEq, List.append_eq_nil_iff, errorIf_eq_nil, Bool.not_eq_false'] at h
    obtain ⟨⟨⟨hslug, hid⟩, hname⟩, hversion⟩ := h
    refine ⟨fields, scanner, rfl, ?_, hslug, hid, hname, hversion⟩
    apply (scannerOf_ok hscanner).resolve_left
    rintro rfl
    -- an absent scanner has no engine name, and the column is not null
    have hnull : sameValue .null row.engineName = true := hname
    cases hcolumn : row.engineName with
    | null => exact engineName_ne_null row hcolumn
    | text s =>
      rw [hcolumn] at hnull
      cases hnull
    | blob b =>
      rw [hcolumn] at hnull
      cases hnull
  all_goals cases h

theorem receiptAgrees_of_ok {receipts : Receipts} {row : ScanRow} {ref : Str}
    (h : checkReceiptFile interp receipts row ref = .ok []) : ReceiptAgrees interp receipts row ref := by
  unfold checkReceiptFile at h
  cases hentry : receipts ref with
  | none =>
    rw [hentry] at h
    cases h
  | some entry =>
    simp only [hentry] at h
    cases entry with
    | directory => cases h
    | file content =>
      cases hload : loadJson interp content with
      | ok receipt =>
        simp only [readEntry, hload] at h
        obtain ⟨fields, scanner, rfl, hscanner, hsame⟩ := sameAsRow_of_ok h
        exact ⟨content, fields, scanner, hentry, hload, hscanner, hsame⟩
      | error e =>
        simp only [readEntry, hload] at h
        by_cases hjson : isJsonDecodeError e = true
        · rw [if_pos hjson] at h
          cases h
        · rw [if_neg hjson] at h
          cases h

theorem reportRef_of_ok {receipts : Receipts} {row : ScanRow}
    (h : checkReportRef interp receipts row = .ok []) :
    ∃ ref, row.reportRef = .text ref ∧ ReceiptAgrees interp receipts row ref := by
  unfold checkReportRef at h
  by_cases htruthy : row.reportRef.truthy = false
  · rw [if_pos htruthy] at h
    cases h
  · rw [if_neg htruthy] at h
    obtain ⟨portable, hportable, h⟩ := bind_eq_ok.mp h
    cases href : row.reportRef with
    | null =>
      rw [href] at hportable
      cases hportable
    | blob b =>
      rw [href] at hportable
      cases hportable
    | text ref =>
      simp only [href] at h
      by_cases hp : portable = true
      · rw [if_pos hp] at h
        exact ⟨ref, rfl, receiptAgrees_of_ok h⟩
      · rw [if_neg hp] at h
        cases h

/-- What the check establishes about a newest row. -/
structure RowChecked (interp : Interpreter) (receipts : Receipts) (row : ScanRow) : Prop where
  grade : row.grade ∈ validGrades
  transparency : row.transparency ∈ validTransparency
  notStub : row.engineName ≠ .text (u "stub")
  receipt : ∃ ref, row.reportRef = .text ref ∧ ReceiptAgrees interp receipts row ref

theorem rowChecked_of_ok {receipts : Receipts} {row : ScanRow}
    (h : checkRow interp false receipts row = .ok []) : RowChecked interp receipts row := by
  obtain ⟨refErrors, href, h⟩ := bind_eq_ok.mp h
  simp only [columnErrors, Except.ok.injEq, List.append_eq_nil_iff, errorIf_eq_nil, Bool.not_false,
    Bool.and_true, decide_eq_false_iff_not, not_not] at h
  obtain ⟨⟨⟨hgrade, htransparency⟩, hstub⟩, rfl⟩ := h
  exact ⟨hgrade, htransparency, hstub, reportRef_of_ok href⟩

/-! ## A clean check -/

theorem mapM_flatten_nil {α β : Type} {f : α → Except PyErr (List β)} {items : List α}
    {results : List (List β)} (h : items.mapM f = .ok results) (hnil : results.flatten = []) :
    ∀ item ∈ items, f item = .ok [] := by
  intro item hitem
  obtain ⟨result, hresult⟩ := exists_mapM_ok.mp ⟨results, h⟩ item hitem
  have hmem : result ∈ results := (mapM_ok_mem h).mpr ⟨item, hitem, hresult⟩
  rw [hresult, List.flatten_eq_nil_iff.mp hnil result hmem]

structure CleanCheck (interp : Interpreter) (receipts : Receipts) (rows : List ScanRow)
    (expected : List Json) (masked : List Str) : Prop where
  slugs : SlugsAgree expected masked ((newestRows rows).map ScanRow.serverSlug)
  row : ∀ row ∈ newestRows rows, RowChecked interp receipts row

theorem mem_latestScanRows {rows : List ScanRow} {row : ScanRow} :
    row ∈ latestScanRows rows ↔ row ∈ newestRows rows := by
  rw [latestScanRows, List.mem_insertionSort]

theorem mem_latestSlugs {rows : List ScanRow} {w : SqlValue} :
    w ∈ ((latestScanRows rows).map ScanRow.serverSlug).dedup ↔
      w ∈ (newestRows rows).map ScanRow.serverSlug := by
  simp only [List.mem_dedup, List.mem_map, mem_latestScanRows]

theorem cleanCheck_of_ok {table : ScanTable} {receipts : Receipts} {expected : List Json}
    {masked : List Str} {summary : LaunchSummary}
    (h : checkRegistry interp false table receipts expected masked = .ok ([], summary)) :
    CleanCheck interp receipts table.rows expected masked := by
  rw [checkRegistry] at h
  obtain ⟨slugErrors, hslugs, h⟩ := bind_eq_ok.mp h
  obtain ⟨rowErrors, hrows, h⟩ := bind_eq_ok.mp h
  obtain ⟨_, -, h⟩ := bind_eq_ok.mp h
  rw [Except.ok.injEq, Prod.mk.injEq, List.append_eq_nil_iff] at h
  obtain ⟨⟨rfl, hflat⟩, -⟩ := h
  obtain ⟨hfound, hseeded, hunmasked⟩ := slugsAgree_of_ok hslugs
  simp only [mem_latestSlugs] at hfound hseeded hunmasked
  refine ⟨⟨hfound, hseeded, hunmasked⟩, fun row hrow => ?_⟩
  exact rowChecked_of_ok (mapM_flatten_nil hrows hflat row (mem_latestScanRows.mpr hrow))

/-! ## Columns and records -/

theorem sameValue_str {v : Json} {s : Str} : sameValue v (.text s) = true ↔ v = .str s := by
  cases v <;> simp [sameValue]

theorem text_of_sameValue {v : Json} {w : SqlValue} (h : sameValue v w = true) (hnull : w ≠ .null) :
    ∃ s, w = .text s := by
  cases w with
  | null => exact absurd rfl hnull
  | text s => exact ⟨s, rfl⟩
  | blob b => cases v <;> cases h

theorem readStr_text {s : Str} : readStr (.text s) = .ok s := rfl

/-- The receipt file of a record carries its id, slug, engine name and engine version. -/
def ReceiptCarries (interp : Interpreter) (receipts : Receipts) (record : ScanRecord) : Prop :=
  ∃ ref content receipt scanner, record.reportRef = some ref ∧ receipts ref = some (.file content) ∧
    loadJson interp content = .ok (.obj receipt) ∧ Dict.get receipt "scanner" = .obj scanner ∧
    Dict.get receipt "server_slug" = .str record.serverSlug ∧
    Dict.get receipt "scan_id" = .str record.id ∧
    Dict.get scanner "engine_name" = .str record.engineName ∧
    Dict.get scanner "engine_version" = .str record.engineVersion

theorem str_of_sameValue {v : Json} {w : SqlValue} {s : Str} (h : sameValue v w = true)
    (hread : readStr w = .ok s) : v = .str s := by
  cases w with
  | null => cases hread
  | text t =>
    cases hread
    exact sameValue_str.mp h
  | blob b => cases v <;> cases h

theorem receiptCarries_of_row {receipts : Receipts} {row : ScanRow} {record : ScanRecord}
    (hrow : RowChecked interp receipts row) (hrecord : rowToScan py interp row = .ok record) :
    ReceiptCarries interp receipts record := by
  have hcopies := copies_of_ok hrecord
  obtain ⟨ref, href, content, receipt, scanner, hentry, hload, hscanner, hsame⟩ := hrow.receipt
  have hrecordRef : record.reportRef = some ref := by
    have hread := hcopies.reportRef
    rw [href, readOptionalStr_text, Except.ok.injEq] at hread
    exact hread.symm
  exact ⟨ref, content, receipt, scanner, hrecordRef, hentry, hload, hscanner,
    str_of_sameValue hsame.serverSlug hcopies.serverSlug, str_of_sameValue hsame.scanId hcopies.id,
    str_of_sameValue hsame.engineName hcopies.engineName,
    str_of_sameValue hsame.engineVersion hcopies.engineVersion⟩

theorem engine_ne_stub {receipts : Receipts} {row : ScanRow} {record : ScanRecord}
    (hrow : RowChecked interp receipts row) (hrecord : rowToScan py interp row = .ok record) :
    record.engineName ≠ u "stub" := by
  intro hstub
  obtain ⟨_, _, _, _, scanner, _, _, _, hsame⟩ := hrow.receipt
  obtain ⟨name, hname⟩ := text_of_sameValue hsame.engineName (engineName_ne_null row)
  have hread := (copies_of_ok hrecord).engineName
  rw [hname, readStr_text, Except.ok.injEq] at hread
  apply hrow.notStub
  rw [hname, hread, hstub]

/-! ## The sanitized copy -/

theorem mem_latestIds {rows : List ScanRow} {id : SqlValue} :
    id ∈ (latestScanRows rows).map ScanRow.id ↔ ∃ row ∈ newestRows rows, row.id = id := by
  simp only [List.mem_map, mem_latestScanRows]

theorem latestIds_ne_nil {rows : List ScanRow} {row : ScanRow} (h : row ∈ rows) :
    (latestScanRows rows).map ScanRow.id ≠ [] := by
  obtain ⟨newest, hnewest, -⟩ := exists_newest h
  exact List.ne_nil_of_mem (mem_latestIds.mpr ⟨newest, hnewest, rfl⟩)

/-- No row of a masked slug is left to delete. -/
def NoMaskedRow (table : ScanTable) (masked : List Str) : Prop :=
  ∀ row ∈ table.rows, row.serverSlug ∉ masked.map SqlValue.text

theorem copy_eq {table : ScanTable} {masked : List Str} {copy : List ScanRow}
    (hmasked : NoMaskedRow table masked) (h : copySanitizedDb table masked = .ok copy) :
    copy = table.rows.filter fun row => !row.id.notIn ((latestScanRows table.rows).map ScanRow.id) := by
  unfold copySanitizedDb at h
  by_cases hnil : (latestScanRows table.rows).map ScanRow.id = []
  · rw [if_pos hnil] at h
    cases h
  · rw [if_neg hnil, Except.ok.injEq] at h
    rw [← h]
    apply List.filter_eq_self.mpr
    intro row hrow
    exact decide_eq_true (hmasked row (List.mem_of_mem_filter hrow))

theorem exists_copy {table : ScanTable} {masked : List Str} {row : ScanRow} (h : row ∈ table.rows) :
    ∃ copy, copySanitizedDb table masked = .ok copy := by
  unfold copySanitizedDb
  rw [if_neg (latestIds_ne_nil h)]
  exact ⟨_, rfl⟩

theorem mem_copy {table : ScanTable} {masked : List Str} {copy : List ScanRow} {row : ScanRow}
    (hmasked : NoMaskedRow table masked) (h : copySanitizedDb table masked = .ok copy)
    (hrow : row ∈ table.rows) :
    row ∈ copy ↔ row.id.notIn ((latestScanRows table.rows).map ScanRow.id) = false := by
  rw [copy_eq hmasked h, List.mem_filter, Bool.not_eq_true']
  exact and_iff_right hrow

/-- Every newest row stays, and so does a row without an id. -/
theorem kept_of_newest {rows : List ScanRow} {row : ScanRow} (h : row ∈ newestRows rows) :
    row.id.notIn ((latestScanRows rows).map ScanRow.id) = false := by
  have hmem := mem_latestIds.mpr ⟨row, h, rfl⟩
  have hne := List.ne_nil_of_mem hmem
  simp only [SqlValue.notIn, hne, hmem, decide_false, not_true_eq_false, Bool.and_false, Bool.or_self]

theorem kept_of_null {rows : List ScanRow} {row : ScanRow} (h : row ∈ rows) (hnull : row.id = .null) :
    row.id.notIn ((latestScanRows rows).map ScanRow.id) = false := by
  have hne := latestIds_ne_nil h
  simp only [SqlValue.notIn, hne, hnull, decide_false, ne_eq, not_true_eq_false, Bool.false_and,
    Bool.or_self]

theorem eq_of_id {table : ScanTable} {row other : ScanRow} (hrow : row ∈ table.rows)
    (hother : other ∈ table.rows) (hid : row.id = other.id) (hnull : row.id ≠ .null) : row = other := by
  have hfilter : ((table.rows.filter fun r => decide (r.id ≠ .null)).map ScanRow.id).Nodup := by
    have hunique := table.uniqueIds
    rwa [List.filter_map] at hunique
  have hin : ∀ r ∈ table.rows, r.id = row.id → r ∈ table.rows.filter fun r => decide (r.id ≠ .null) := by
    intro r hr hsame
    exact List.mem_filter.mpr ⟨hr, decide_eq_true (hsame ▸ hnull)⟩
  exact List.inj_on_of_nodup_map hfilter (hin row hrow rfl) (hin other hother hid.symm) hid

/-- Without null ids the copy holds the newest rows and no others. -/
theorem newest_of_kept {table : ScanTable} {row : ScanRow} (hids : ∀ row ∈ table.rows, row.id ≠ .null)
    (hrow : row ∈ table.rows)
    (hkept : row.id.notIn ((latestScanRows table.rows).map ScanRow.id) = false) :
    row ∈ newestRows table.rows := by
  have hnull : SqlValue.null ∉ (latestScanRows table.rows).map ScanRow.id := by
    intro hmem
    obtain ⟨newest, hnewest, hid⟩ := mem_latestIds.mp hmem
    exact hids newest (mem_newestRows.mp hnewest).1 hid
  have hmem : row.id ∈ (latestScanRows table.rows).map ScanRow.id := by
    by_contra hmem
    rw [SqlValue.notIn, Bool.or_eq_false_iff] at hkept
    have hfalse := hkept.2
    rw [decide_eq_true (hids row hrow), decide_eq_true hnull, decide_eq_true hmem] at hfalse
    cases hfalse
  obtain ⟨newest, hnewest, hid⟩ := mem_latestIds.mp hmem
  have hsame := eq_of_id hrow (mem_newestRows.mp hnewest).1 hid.symm (hids row hrow)
  rw [hsame]
  exact hnewest

theorem nodup_rows {table : ScanTable} (hids : ∀ row ∈ table.rows, row.id ≠ .null) :
    table.rows.Nodup := by
  have hunique := table.uniqueIds
  rw [List.filter_eq_self.mpr] at hunique
  · exact hunique.of_map
  · intro id hid
    obtain ⟨row, hrow, rfl⟩ := List.mem_map.mp hid
    exact decide_eq_true (hids row hrow)

theorem eq_singleton {α : Type} {items : List α} {a : α} (hnodup : items.Nodup) (hmem : a ∈ items)
    (hall : ∀ b ∈ items, b = a) : items = [a] := by
  cases items with
  | nil => cases hmem
  | cons first rest =>
    obtain rfl := hall first List.mem_cons_self
    have hrest : rest = [] := by
      apply List.eq_nil_iff_forall_not_mem.mpr
      intro b hb
      obtain rfl := hall b (List.mem_cons_of_mem _ hb)
      exact (List.nodup_cons.mp hnodup).1 hb
    rw [hrest]

/-! ## Served and checked -/

structure MatchesServed (py : Pydantic) (interp : Interpreter) (table : ScanTable) (receipts : Receipts)
    (expected : List Json) (masked : List Str) : Prop where
  served : ∀ slug, Json.str slug ∈ expected → ∃ record, latest py interp table slug = .ok (some record) ∧
    record.engineName ≠ u "stub" ∧ ReceiptCarries interp receipts record
  quiet : ∀ row ∈ table.rows, ∃ slug, row.serverSlug = .text slug ∧ Json.str slug ∈ expected ∧
    slug ∉ masked
  copied : ∀ copy, copySanitizedDb table masked = .ok copy → ∀ slug, Json.str slug ∈ expected →
    ∃ row record, ofSlug (.text slug) copy = [row] ∧ rowToScan py interp row = .ok record ∧
      latest py interp table slug = .ok (some record)

/-- What the launch check leaves open. -/
structure Servable (py : Pydantic) (interp : Interpreter) (rows : List ScanRow) : Prop where
  ids : ∀ row ∈ rows, row.id ≠ .null
  oneNewest : ∀ row ∈ newestRows rows, ∀ other ∈ newestRows rows, row.serverSlug = other.serverSlug →
    row = other
  readable : ∀ row ∈ newestRows rows, Readable py interp row

section Clean

variable {table : ScanTable} {receipts : Receipts} {expected : List Json} {masked : List Str}

theorem CleanCheck.quiet (h : CleanCheck interp receipts table.rows expected masked) :
    ∀ row ∈ table.rows, ∃ slug, row.serverSlug = .text slug ∧ Json.str slug ∈ expected ∧
      slug ∉ masked := by
  intro row hrow
  obtain ⟨newest, hnewest, hsame⟩ := exists_newest hrow
  have hmem : row.serverSlug ∈ (newestRows table.rows).map ScanRow.serverSlug :=
    List.mem_map.mpr ⟨newest, hnewest, hsame⟩
  obtain ⟨slug, hslug, hexpected⟩ := h.slugs.seeded _ hmem
  refine ⟨slug, hslug, hexpected, fun hmasked => ?_⟩
  apply h.slugs.unmasked slug hmasked
  rw [← hslug]
  exact hmem

theorem CleanCheck.noMaskedRow (h : CleanCheck interp receipts table.rows expected masked) :
    NoMaskedRow table masked := by
  intro row hrow hmem
  obtain ⟨slug, hslug, -, hnot⟩ := h.quiet row hrow
  obtain ⟨name, hname, heq⟩ := List.mem_map.mp hmem
  rw [hslug, SqlValue.text.injEq] at heq
  exact hnot (heq ▸ hname)

/-- The row `latest` reads for an expected slug. -/
theorem CleanCheck.head (h : CleanCheck interp receipts table.rows expected masked) {slug : Str}
    (hslug : Json.str slug ∈ expected) :
    ∃ row ∈ newestRows table.rows, row.serverSlug = .text slug ∧
      (newestFirst (.text slug) table.rows).head? = some row := by
  obtain ⟨_, heq, hlatest⟩ := h.slugs.found _ hslug
  cases heq
  obtain ⟨newest, hnewest, hsame⟩ := List.mem_map.mp hlatest
  have hin : newest ∈ newestFirst (.text slug) table.rows :=
    mem_newestFirst.mpr ⟨(mem_newestRows.mp hnewest).1, hsame⟩
  cases hhead : (newestFirst (.text slug) table.rows).head? with
  | none =>
    rw [List.head?_eq_none_iff.mp hhead] at hin
    cases hin
  | some row => exact ⟨row, head_mem_newestRows hhead, (head_newestFirst hhead).2.1, rfl⟩

theorem latest_of_head {slug : Str} {row : ScanRow} {record : ScanRecord}
    (hhead : (newestFirst (.text slug) table.rows).head? = some row)
    (hrecord : rowToScan py interp row = .ok record) :
    latest py interp table slug = .ok (some record) := by
  rw [latest, hhead]
  simp only [hrecord]
  rfl

theorem served_of_servable (h : CleanCheck interp receipts table.rows expected masked)
    (hservable : Servable py interp table.rows) :
    MatchesServed py interp table receipts expected masked := by
  refine ⟨fun slug hslug => ?_, h.quiet, fun copy hcopy slug hslug => ?_⟩
  · obtain ⟨row, hnewest, -, hhead⟩ := h.head hslug
    obtain ⟨record, hrecord⟩ := ok_of_readable (hservable.readable row hnewest)
    exact ⟨record, latest_of_head hhead hrecord, engine_ne_stub (h.row row hnewest) hrecord,
      receiptCarries_of_row (h.row row hnewest) hrecord⟩
  · obtain ⟨row, hnewest, hrowSlug, hhead⟩ := h.head hslug
    obtain ⟨record, hrecord⟩ := ok_of_readable (hservable.readable row hnewest)
    refine ⟨row, record, ?_, hrecord, latest_of_head hhead hrecord⟩
    have hrow := (mem_newestRows.mp hnewest).1
    apply eq_singleton
    · rw [copy_eq h.noMaskedRow hcopy]
      exact ((nodup_rows hservable.ids).filter _).filter _
    · exact mem_ofSlug.mpr ⟨(mem_copy h.noMaskedRow hcopy hrow).mpr (kept_of_newest hnewest), hrowSlug⟩
    · intro other hother
      obtain ⟨hin, hotherSlug⟩ := mem_ofSlug.mp hother
      have htable : other ∈ table.rows := by
        rw [copy_eq h.noMaskedRow hcopy] at hin
        exact List.mem_of_mem_filter hin
      have hkept := (mem_copy h.noMaskedRow hcopy htable).mp hin
      exact hservable.oneNewest other (newest_of_kept hservable.ids htable hkept) row hnewest
        (hotherSlug.trans hrowSlug.symm)

/-- A kept row is the one row of its slug, and decodes. -/
theorem MatchesServed.kept (h : CleanCheck interp receipts table.rows expected masked)
    (hserved : MatchesServed py interp table receipts expected masked) {row : ScanRow}
    (hrow : row ∈ table.rows)
    (hkept : row.id.notIn ((latestScanRows table.rows).map ScanRow.id) = false) :
    ∃ copy record, copySanitizedDb table masked = .ok copy ∧ ofSlug row.serverSlug copy = [row] ∧
      rowToScan py interp row = .ok record := by
  obtain ⟨copy, hcopy⟩ := @exists_copy _ masked _ hrow
  obtain ⟨slug, hslug, hexpected, -⟩ := hserved.quiet row hrow
  obtain ⟨only, record, honly, hrecord, -⟩ := hserved.copied copy hcopy slug hexpected
  have hmem : row ∈ ofSlug (.text slug) copy :=
    mem_ofSlug.mpr ⟨(mem_copy h.noMaskedRow hcopy hrow).mpr hkept, hslug⟩
  rw [honly, List.mem_singleton] at hmem
  subst hmem
  exact ⟨copy, record, hcopy, hslug ▸ honly, hrecord⟩

theorem servable_of_served (h : CleanCheck interp receipts table.rows expected masked)
    (hserved : MatchesServed py interp table receipts expected masked) :
    Servable py interp table.rows := by
  constructor
  · intro row hrow hnull
    obtain ⟨_, record, -, -, hrecord⟩ := hserved.kept h hrow (kept_of_null hrow hnull)
    have hread := (copies_of_ok hrecord).id
    rw [hnull] at hread
    cases hread
  · intro row hrow other hother hsame
    obtain ⟨copy, _, hcopy, honly, -⟩ :=
      hserved.kept h (mem_newestRows.mp hrow).1 (kept_of_newest hrow)
    have hmem : other ∈ ofSlug row.serverSlug copy :=
      mem_ofSlug.mpr
        ⟨(mem_copy h.noMaskedRow hcopy (mem_newestRows.mp hother).1).mpr (kept_of_newest hother),
          hsame.symm⟩
    rw [honly, List.mem_singleton] at hmem
    exact hmem.symm
  · intro row hrow
    obtain ⟨_, record, -, -, hrecord⟩ :=
      hserved.kept h (mem_newestRows.mp hrow).1 (kept_of_newest hrow)
    exact readable_of_ok hrecord

theorem cleanCheck_of_validate {inputs : LaunchInputs} {seed : Bytes} {summary : Option LaunchSummary}
    (hdb : inputs.db = some table) (hreceipts : inputs.receipts = some receipts)
    (hseed : inputs.seed = some seed) (hstub : inputs.allowStub = false)
    (hslugs : readSlugs interp inputs seed = .ok (.ok (expected, masked)))
    (h : validateLaunchState interp inputs = .ok ([], summary)) :
    CleanCheck interp receipts table.rows expected masked := by
  simp only [validateLaunchState, hdb, hreceipts, hseed, hslugs, hstub] at h
  obtain ⟨_, hread, h⟩ := bind_eq_ok.mp h
  cases hread
  obtain ⟨⟨errors, counts⟩, hregistry, h⟩ := bind_eq_ok.mp h
  cases h
  exact cleanCheck_of_ok hregistry

end Clean

/-- When the check reports nothing, what it vouches for is served exactly when no row lacks an
id, no slug has two newest rows and the newest rows decode. -/
theorem launch_matches_iff {table : ScanTable} {receipts : Receipts} {expected : List Json}
    {masked : List Str} {inputs : LaunchInputs} {seed : Bytes} {summary : Option LaunchSummary}
    (hdb : inputs.db = some table) (hreceipts : inputs.receipts = some receipts)
    (hseed : inputs.seed = some seed) (hstub : inputs.allowStub = false)
    (hslugs : readSlugs interp inputs seed = .ok (.ok (expected, masked)))
    (h : validateLaunchState interp inputs = .ok ([], summary)) :
    MatchesServed py interp table receipts expected masked ↔ Servable py interp table.rows := by
  have hclean := cleanCheck_of_validate hdb hreceipts hseed hstub hslugs h
  exact ⟨servable_of_served hclean, served_of_servable hclean⟩

/-! ## A row the check passes over -/

def asciiBytes (text : String) : Bytes := (u text).map fun c => UInt8.ofNat c.val

/-- A newest row whose risk column is not JSON. -/
def damagedRow : ScanRow where
  id := .text (u "s1")
  serverSlug := .text (u "a")
  engineName := .text (u "mcpaudit")
  engineVersion := .text (u "1.0")
  grade := .text (u "A")
  transparency := .text (u "high")
  riskJson := .text (u "x")
  findingsJson := .text (u "[]")
  evidenceJson := .null
  scannedAt := .text (u "2026-01-01T00:00:00+00:00")
  sandboxImage := .null
  reportRef := .text (u "a.json")
  declared := by decide

def damagedTable : ScanTable where
  rows := [damagedRow]
  uniqueIds := by decide

def damagedReceipts : Receipts := fun name =>
  if name = u "a.json" then
    some (.file (asciiBytes ("\x7b\"server_slug\":\"a\",\"scan_id\":\"s1\",\"scanner\":" ++
      "\x7b\"engine_name\":\"mcpaudit\",\"engine_version\":\"1.0\"\x7d\x7d")))
  else none

def damagedSeed : Bytes := asciiBytes "[\x7b\"slug\":\"a\"\x7d]"

def damagedInputs : LaunchInputs where
  db := some damagedTable
  receipts := some damagedReceipts
  seed := some damagedSeed
  masked := none
  allowStub := false

def sampleInterpreter : Interpreter := ⟨1000, initialLimit_deep⟩

def damagedSummary : LaunchSummary where
  seededServers := 1
  maskedServers := 0
  latestScans := 1
  receiptsChecked := 1
  grades := [(.text (u "A"), 1)]
  transparency := [(.text (u "high"), 1)]
  engines := [(.text (u "mcpaudit"), 1)]

theorem readSlugs_damaged :
    readSlugs sampleInterpreter damagedInputs damagedSeed = .ok (.ok ([.str (u "a")], [])) := by
  rfl

theorem validate_damaged :
    validateLaunchState sampleInterpreter damagedInputs = .ok ([], some damagedSummary) := by
  decide +kernel

theorem damaged_unreadable : ¬Readable py sampleInterpreter damagedRow := by
  rintro ⟨⟨⟨raw, hload, -⟩, -⟩⟩
  have hfails : (loadStoredJson sampleInterpreter damagedRow.riskJson).isOk = false := by decide +kernel
  rw [hload] at hfails
  cases hfails

/-- Models that validate nothing; the damaged row does not get that far. -/
def noModels : Pydantic := ⟨fun _ => none, fun _ => none, fun _ => none, fun _ => none⟩

theorem launch_matches_damaged :
    MatchesServed noModels sampleInterpreter damagedTable damagedReceipts [.str (u "a")] [] ↔
      Servable noModels sampleInterpreter damagedTable.rows :=
  launch_matches_iff rfl rfl rfl rfl readSlugs_damaged validate_damaged

/-- The check passes and the registry cannot serve the row. -/
theorem launch_unserved : ¬∀ (py : Pydantic) (interp : Interpreter) (inputs : LaunchInputs)
    (table : ScanTable) (receipts : Receipts) (seed : Bytes) (expected : List Json) (masked : List Str)
    (summary : Option LaunchSummary), inputs.db = some table → inputs.receipts = some receipts →
    inputs.seed = some seed → inputs.allowStub = false →
    readSlugs interp inputs seed = .ok (.ok (expected, masked)) →
    validateLaunchState interp inputs = .ok ([], summary) →
    MatchesServed py interp table receipts expected masked := by
  intro hall
  have hserved := hall noModels sampleInterpreter damagedInputs damagedTable damagedReceipts damagedSeed
    _ _ _ rfl rfl rfl rfl readSlugs_damaged validate_damaged
  have hclean := cleanCheck_of_validate rfl rfl rfl rfl readSlugs_damaged validate_damaged
  have hnewest : damagedRow ∈ newestRows damagedTable.rows := by decide +kernel
  exact damaged_unreadable ((servable_of_served hclean hserved).readable _ hnewest)

end McpTrust.Launch
