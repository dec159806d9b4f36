import McpTrust.Launch.Sanitized
import McpTrust.Launch.ScanLog

/-! # The bundle of a run

`build_deploy_bundle` checks the launch state, reduces the database, copies the receipts that the
rows left name and checks the copies again. Over any run of upserts and scans the outcome can be
read off the log, and the second check never fails where the first did not.
-/

namespace McpTrust.Launch

set_option autoImplicit false

open Python Sqlite Store

/-! ## Building a bundle -/

section Build

variable (interp : Interpreter)

def bundleInputs (table : Option ScanTable) (receipts : Option Receipts) (seed masked : Bytes) : LaunchInputs where
  db := table
  receipts := receipts
  seed := some seed
  masked := some (some masked)
  allowStub := false

/-- `validate_launch_state(…)` where any error ends the build. -/
def deployable (table : ScanTable) (receipts : Receipts) (seed masked : Bytes) : Except PyErr Unit := do
  let (errors, _) ← validateLaunchState interp (bundleInputs (some table) (some receipts) seed masked)
  if errors = [] then .ok () else .error .valueError

/-- The masked slugs; the check before has read the same bytes. -/
def maskedSlugs (masked : Bytes) : Except PyErr (List Str) := do
  let loaded ← loadJson interp masked
  match uniqueStrings loaded with
  | some slugs => .ok slugs
  | none => .error .valueError

def sanitizedTable (table : ScanTable) (masked : List Str) : Except PyErr ScanTable :=
  match h : copySanitizedDb table masked with
  | .error e => .error e
  | .ok copy => .ok ⟨copy, uniqueIds_of_sublist (sublist_of_copy h)⟩

/-- `_stable_copy_file(receipts_dir / receipt_ref, bundle_receipts_dir / receipt_ref, …)`, which writes
no file that is there already. -/
def copyReceipt (receipts copied : Receipts) (row : ScanRow) : Except PyErr Receipts :=
  match row.reportRef with
  | .text name =>
    match receipts name, copied name with
    | some (.file content), none => .ok (Function.update copied name (some (.file content)))
    | some (.file _), some _ => .error .osError
    | _, _ => .error .valueError
  | _ => .error .typeError

def copyReceipts (receipts copied : Receipts) (rows : List ScanRow) : Except PyErr Receipts :=
  rows.foldlM (copyReceipt receipts) copied

structure Bundle where
  registry : ScanTable
  receipts : Receipts

/-- `build_deploy_bundle(…)` on the database and the receipts of a candidate. -/
def buildDeployBundle (desk : Desk) (seed masked : Bytes) : Except PyErr Bundle := do
  deployable interp desk.registry.scans desk.receipts seed masked
  let slugs ← maskedSlugs interp masked
  let copied ← sanitizedTable desk.registry.scans slugs
  let receipts ← copyReceipts desk.receipts (fun _ => none) (latestScanRows copied.rows)
  deployable interp copied receipts seed masked
  .ok ⟨copied, receipts⟩

end Build

/-! ## The check that passes -/

variable {interp : Interpreter} {expected : List Json} {slugs : List Str} {table : ScanTable} {receipts copied : Receipts}

theorem compareSlugs_of_agree {latest : List SqlValue} (h : SlugsAgree expected slugs latest) :
    compareSlugs expected slugs latest = .ok [] := by
  have hleaked : (latest.filter fun v => decide (v ∈ slugs.map .text)) = [] := by
    apply List.filter_eq_nil_iff.mpr
    intro v hv hmasked
    obtain ⟨slug, hslug, rfl⟩ := List.mem_map.mp (of_decide_eq_true hmasked)
    exact h.unmasked slug hslug hv
  rw [compareSlugs, hleaked, (List.filter_eq_nil_iff (l := expected)).mpr ?missing,
    (List.filter_eq_nil_iff (l := latest)).mpr ?extras]
  · rfl
  case missing =>
    intro v hv
    obtain ⟨slug, rfl, hmem⟩ := h.found v hv
    rw [Bool.not_eq_true', Bool.not_eq_false]
    exact List.any_eq_true.mpr ⟨_, hmem, decide_eq_true rfl⟩
  case extras =>
    intro w hw
    obtain ⟨slug, rfl, hmem⟩ := h.seeded w hw
    rw [Bool.not_eq_true', Bool.not_eq_false]
    exact List.any_eq_true.mpr ⟨_, hmem, decide_eq_true rfl⟩

/-- The columns the summary counts. -/
structure CountsText (row : ScanRow) : Prop where
  grade : isText row.grade = true
  transparency : isText row.transparency = true
  engineName : isText row.engineName = true

theorem sortedCounts_texts {values : List SqlValue} (h : ∀ v ∈ values, isText v = true) :
    ∃ counts, sortedCounts values = .ok counts := by
  unfold sortedCounts
  rw [List.all_eq_true.mpr h, Bool.true_or]
  exact ⟨_, rfl⟩

theorem launchSummary_texts {rows : List ScanRow} (h : ∀ row ∈ rows, CountsText row) :
    ∃ summary, launchSummary rows receipts expected slugs = .ok summary := by
  have hcolumn (column : ScanRow → SqlValue) (hall : ∀ row ∈ rows, isText (column row) = true) :
      ∃ counts, sortedCounts (rows.map column) = .ok counts :=
    sortedCounts_texts fun v hv => by
      obtain ⟨row, hrow, rfl⟩ := List.mem_map.mp hv
      exact hall row hrow
  obtain ⟨grades, hgrades⟩ := hcolumn ScanRow.grade fun row hrow => (h row hrow).grade
  obtain ⟨levels, hlevels⟩ := hcolumn ScanRow.transparency fun row hrow => (h row hrow).transparency
  obtain ⟨engines, hengines⟩ := hcolumn ScanRow.engineName fun row hrow => (h row hrow).engineName
  rw [launchSummary, hgrades, hlevels, hengines]
  exact ⟨_, rfl⟩

/-- What the check of a registry asks for. -/
structure Passes (interp : Interpreter) (table : ScanTable) (receipts : Receipts) (expected : List Json)
    (slugs : List Str) : Prop where
  slugs : SlugsAgree expected slugs ((newestRows table.rows).map ScanRow.serverSlug)
  rows : ∀ row ∈ newestRows table.rows, checkRow interp false receipts row = .ok []

theorem Passes.checkRegistry (h : Passes interp table receipts expected slugs)
    (htexts : ∀ row ∈ table.rows, CountsText row) :
    ∃ summary, checkRegistry interp false table receipts expected slugs = .ok ([], summary) := by
  have hagree : SlugsAgree expected slugs ((latestScanRows table.rows).map ScanRow.serverSlug).dedup := by
    obtain ⟨hfound, hseeded, hunmasked⟩ := h.slugs
    simp only [← mem_latestSlugs] at hfound hseeded hunmasked
    exact ⟨hfound, hseeded, hunmasked⟩
  have hrow : ∀ row ∈ latestScanRows table.rows, checkRow interp false receipts row = .ok [] :=
    fun row hrow => h.rows row (mem_latestScanRows.mp hrow)
  obtain ⟨results, hresults⟩ := exists_mapM_ok.mpr fun row hmem => ⟨[], hrow row hmem⟩
  have hflat : results.flatten = [] := by
    apply List.flatten_eq_nil_iff.mpr
    intro result hresult
    obtain ⟨row, hmem, hsame⟩ := (mapM_ok_mem hresults).mp hresult
    rw [hrow row hmem] at hsame
    exact (Except.ok.inj hsame).symm
  obtain ⟨summary, hsummary⟩ := @launchSummary_texts expected slugs receipts (latestScanRows table.rows)
    fun row hmem => htexts row (mem_newestRows.mp (mem_latestScanRows.mp hmem)).1
  rw [Launch.checkRegistry, compareSlugs_of_agree hagree, hresults, hsummary]
  refine ⟨summary, ?_⟩
  change Except.ok ([] ++ results.flatten, summary) = _
  rw [hflat]
  rfl

theorem passes_of_ok {summary : LaunchSummary}
    (h : checkRegistry interp false table receipts expected slugs = .ok ([], summary)) :
    Passes interp table receipts expected slugs := by
  refine ⟨(cleanCheck_of_ok h).slugs, fun row hrow => ?_⟩
  rw [Launch.checkRegistry] at h
  obtain ⟨slugErrors, -, h⟩ := bind_eq_ok.mp h
  obtain ⟨rowErrors, hrows, h⟩ := bind_eq_ok.mp h
  obtain ⟨_, -, h⟩ := bind_eq_ok.mp h
  rw [Except.ok.injEq, Prod.mk.injEq, List.append_eq_nil_iff] at h
  exact mapM_flatten_nil hrows h.1.2 row (mem_latestScanRows.mpr hrow)

theorem deployable_iff {seed masked : Bytes}
    (hread : readSlugs interp (bundleInputs none none seed masked) seed = .ok (.ok (expected, slugs)))
    (htexts : ∀ row ∈ table.rows, CountsText row) :
    deployable interp table receipts seed masked = .ok () ↔ Passes interp table receipts expected slugs := by
  have hslugs : readSlugs interp (bundleInputs (some table) (some receipts) seed masked) seed =
      .ok (.ok (expected, slugs)) := hread
  have hvalidate : validateLaunchState interp (bundleInputs (some table) (some receipts) seed masked) =
      checkRegistry interp false table receipts expected slugs >>= fun result => .ok (result.1, some result.2) := by
    change (readSlugs interp (bundleInputs (some table) (some receipts) seed masked) seed >>= _) = _
    rw [hslugs]
    rfl
  unfold deployable
  rw [hvalidate]
  constructor
  · intro h
    obtain ⟨⟨errors, summary⟩, hchecked, h⟩ := bind_eq_ok.mp h
    obtain ⟨⟨found, counts⟩, hregistry, hsame⟩ := bind_eq_ok.mp hchecked
    cases hsame
    dsimp only at h
    split_ifs at h with hnil
    rw [hnil] at hregistry
    exact passes_of_ok hregistry
  · intro h
    obtain ⟨summary, hregistry⟩ := h.checkRegistry htexts
    rw [hregistry]
    rfl

theorem maskedSlugs_of_read {seed masked : Bytes}
    (hread : readSlugs interp (bundleInputs none none seed masked) seed = .ok (.ok (expected, slugs))) :
    maskedSlugs interp masked = .ok slugs := by
  obtain ⟨_, -, h⟩ := bind_eq_ok.mp hread
  obtain ⟨_, -, h⟩ := bind_eq_ok.mp h
  obtain ⟨loaded, hload, h⟩ := bind_eq_ok.mp h
  cases hunique : uniqueStrings loaded with
  | none =>
    rw [hunique] at h
    cases h
  | some found =>
    rw [hunique] at h
    dsimp only at h
    split_ifs at h
    · cases h
    · cases h
      refine bind_eq_ok.mpr ⟨loaded, hload, ?_⟩
      rw [hunique]

/-! ## The copies -/

theorem sanitizedTable_ok {reduced : ScanTable} (h : sanitizedTable table slugs = .ok reduced) :
    copySanitizedDb table slugs = .ok reduced.rows := by
  unfold sanitizedTable at h
  split at h
  · cases h
  · cases h
    assumption

theorem exists_sanitizedTable {copy : List ScanRow} (h : copySanitizedDb table slugs = .ok copy) :
    ∃ reduced, sanitizedTable table slugs = .ok reduced := by
  unfold sanitizedTable
  split
  · rename_i e herror
    rw [herror] at h
    cases h
  · exact ⟨_, rfl⟩

theorem copyReceipt_ok {row : ScanRow} {result : Receipts} (h : copyReceipt receipts copied row = .ok result) :
    ∃ name content, row.reportRef = .text name ∧ receipts name = some (.file content) ∧
      result = Function.update copied name (some (.file content)) := by
  unfold copyReceipt at h
  split at h
  · rename_i name href
    split at h
    · rename_i content hentry hfree
      cases h
      exact ⟨name, content, href, hentry, rfl⟩
    · cases h
    · cases h
  · cases h

/-- A row that names a file of the directory. -/
def NamesFile (receipts : Receipts) (row : ScanRow) : Prop :=
  ∃ name content, row.reportRef = .text name ∧ receipts name = some (.file content)

/-- The receipts that the rows name were copied as they are, over those there were. -/
theorem copied_of_ok {rows : List ScanRow} {result : Receipts} (h : copyReceipts receipts copied rows = .ok result) :
    (∀ row ∈ rows, NamesFile receipts row) ∧ ∀ name, result name =
      if SqlValue.text name ∈ rows.map ScanRow.reportRef then receipts name else copied name := by
  induction rows generalizing copied with
  | nil =>
    cases h
    exact ⟨fun row hrow => absurd hrow List.not_mem_nil, fun name => (if_neg List.not_mem_nil).symm⟩
  | cons row rows ih =>
    rw [copyReceipts, List.foldlM_cons] at h
    obtain ⟨middle, hmiddle, h⟩ := bind_eq_ok.mp h
    obtain ⟨name, content, href, hentry, rfl⟩ := copyReceipt_ok hmiddle
    obtain ⟨hfiles, hresult⟩ := ih h
    refine ⟨List.forall_mem_cons.mpr ⟨⟨name, content, href, hentry⟩, hfiles⟩, fun other => ?_⟩
    rw [hresult, List.map_cons, href]
    by_cases hlater : SqlValue.text other ∈ rows.map ScanRow.reportRef
    · rw [if_pos hlater, if_pos (List.mem_cons_of_mem _ hlater)]
    · rw [if_neg hlater]
      obtain rfl | hother := eq_or_ne other name
      · rw [Function.update_self, if_pos List.mem_cons_self, hentry]
      · rw [Function.update_of_ne hother, if_neg]
        rw [List.mem_cons, SqlValue.text.injEq]
        exact not_or.mpr ⟨hother, hlater⟩

theorem exists_copies {rows : List ScanRow} (hfiles : ∀ row ∈ rows, NamesFile receipts row)
    (hnodup : (rows.map ScanRow.reportRef).Nodup)
    (hfree : ∀ name, SqlValue.text name ∈ rows.map ScanRow.reportRef → copied name = none) :
    ∃ result, copyReceipts receipts copied rows = .ok result := by
  induction rows generalizing copied with
  | nil => exact ⟨copied, rfl⟩
  | cons row rows ih =>
    obtain ⟨⟨name, content, href, hentry⟩, hlater⟩ := List.forall_mem_cons.mp hfiles
    rw [List.map_cons, href] at hnodup hfree
    obtain ⟨hname, hrest⟩ := List.nodup_cons.mp hnodup
    have hnone := hfree name List.mem_cons_self
    have hcopy : copyReceipt receipts copied row =
        .ok (Function.update copied name (some (.file content))) := by
      rw [copyReceipt, href]
      dsimp only
      rw [hentry, hnone]
    obtain ⟨result, hresult⟩ := @ih (Function.update copied name (some (.file content))) hlater hrest
      fun other hother => by
        have hne : other ≠ name := fun hsame => hname (hsame ▸ hother)
        rw [Function.update_of_ne hne]
        exact hfree other (List.mem_cons_of_mem _ hother)
    refine ⟨result, ?_⟩
    rw [copyReceipts, List.foldlM_cons]
    exact bind_eq_ok.mpr ⟨_, hcopy, hresult⟩

/-! ## What is bundled -/

/-- The bundle of a desk: the newest rows, and just the receipts that they name. -/
structure Bundle.Carries (interp : Interpreter) (desk : Desk) (bundle : Bundle) : Prop where
  rows : ∀ row, row ∈ bundle.registry.rows ↔ row ∈ newestRows desk.registry.scans.rows
  order : bundle.registry.rows.Sublist desk.registry.scans.rows
  receipts : ∀ name, bundle.receipts name =
    if SqlValue.text name ∈ bundle.registry.rows.map ScanRow.reportRef then desk.receipts name else none
  checked : ∀ row ∈ bundle.registry.rows, RowChecked interp bundle.receipts row

section Checked

variable {desk : Desk} {used : List Str} {seed masked : Bytes}

/-- Without a masked row among the newest, the reduced table holds all of them. -/
theorem Passes.mem_reduced {reduced : ScanTable} (h : Passes interp table receipts expected slugs)
    (hreduces : Reduces table reduced slugs) (row : ScanRow) : row ∈ reduced.rows ↔ row ∈ newestRows table.rows := by
  rw [hreduces.mem]
  refine and_iff_left_of_imp fun hrow hmem => ?_
  obtain ⟨slug, hslug, hsame⟩ := List.mem_map.mp hmem
  apply h.slugs.unmasked slug hslug
  rw [hsame]
  exact List.mem_map_of_mem hrow

theorem Passes.reduced {reduced : ScanTable} {left : Receipts} (h : Passes interp table receipts expected slugs)
    (hreduces : Reduces table reduced slugs)
    (hrows : ∀ row ∈ newestRows table.rows, checkRow interp false left row = .ok []) :
    Passes interp reduced left expected slugs := by
  have hmem (row : ScanRow) : row ∈ newestRows reduced.rows ↔ row ∈ newestRows table.rows := by
    rw [hreduces.newestRows, h.mem_reduced hreduces]
  have hslug (w : SqlValue) : w ∈ (newestRows reduced.rows).map ScanRow.serverSlug ↔
      w ∈ (newestRows table.rows).map ScanRow.serverSlug := by
    simp only [List.mem_map, hmem]
  refine ⟨?_, fun row hrow => hrows row ((hmem row).mp hrow)⟩
  obtain ⟨hfound, hseeded, hunmasked⟩ := h.slugs
  simp only [← hslug] at hfound hseeded hunmasked
  exact ⟨hfound, hseeded, hunmasked⟩

theorem id_ne_null (hvouched : ∀ row ∈ table.rows, Vouched interp used receipts row) :
    ∀ row ∈ table.rows, row.id ≠ .null := by
  intro row hrow
  obtain ⟨id, -, hid⟩ := (hvouched row hrow).rowId
  rw [hid]
  exact SqlValue.noConfusion

theorem Passes.filed (h : Passes interp table receipts expected slugs)
    (hvouched : ∀ row ∈ table.rows, Vouched interp used receipts row) {row : ScanRow} (hrow : row ∈ newestRows table.rows) :
    ∃ slug id, FiledAs interp receipts row slug id := by
  obtain hnull | hfiled := (hvouched row (mem_newestRows.mp hrow).1).receipt
  · obtain ⟨name, href, -⟩ := (rowChecked_of_ok (h.rows row hrow)).receipt
    rw [hnull] at href
    cases href
  · exact hfiled

theorem FiledAs.namesFile {row : ScanRow} {slug id : Str} (h : FiledAs interp receipts row slug id) :
    NamesFile receipts row := by
  obtain ⟨content, -, -, hentry, -⟩ := h.receipt
  exact ⟨receiptName slug id, content, h.ref, hentry⟩

theorem FiledAs.moved {row : ScanRow} {slug id : Str} (h : FiledAs interp receipts row slug id)
    (hentry : copied (receiptName slug id) = receipts (receiptName slug id)) : FiledAs interp copied row slug id := by
  obtain ⟨content, fields, scanner, hfile, hload, hscanner, hsame⟩ := h.receipt
  refine ⟨h.slug_valid, h.id_valid, h.length, h.rowId, h.ref, content, fields, scanner, ?_, hload, hscanner, hsame⟩
  rw [hentry]
  exact hfile

/-- Filed rows under one name are one row. -/
theorem FiledAs.eq_of_ref {row other : ScanRow} {slug id slug' id' : Str} (h : FiledAs interp receipts row slug id)
    (hother : FiledAs interp receipts other slug' id') (hrow : row ∈ table.rows) (hmem : other ∈ table.rows)
    (href : row.reportRef = other.reportRef) : row = other := by
  rw [h.ref, hother.ref, SqlValue.text.injEq] at href
  have hid := id_of_receiptName (h.length.trans hother.length.symm) href
  apply eq_of_id hrow hmem
  · rw [h.rowId, hother.rowId, hid]
  · rw [h.rowId]
    exact SqlValue.noConfusion

theorem Passes.mem_latest {reduced : ScanTable} (h : Passes interp table receipts expected slugs)
    (hreduces : Reduces table reduced slugs) (row : ScanRow) :
    row ∈ latestScanRows reduced.rows ↔ row ∈ newestRows table.rows := by
  rw [mem_latestScanRows, hreduces.newestRows, h.mem_reduced hreduces]

/-- No two of the rows left name the same receipt. -/
theorem Passes.nodup_refs {reduced : ScanTable} (h : Passes interp table receipts expected slugs)
    (hreduces : Reduces table reduced slugs) (hvouched : ∀ row ∈ table.rows, Vouched interp used receipts row) :
    ((latestScanRows reduced.rows).map ScanRow.reportRef).Nodup := by
  have hrows : (latestScanRows reduced.rows).Nodup := by
    rw [latestScanRows, (List.perm_insertionSort _ _).nodup_iff, hreduces.newestRows]
    exact hreduces.sublist.nodup (nodup_rows (id_ne_null hvouched))
  refine hrows.map_on fun row hrow other hother href => ?_
  have hrow := (h.mem_latest hreduces row).mp hrow
  have hother := (h.mem_latest hreduces other).mp hother
  obtain ⟨slug, id, hfiled⟩ := h.filed hvouched hrow
  obtain ⟨slug', id', hfiled'⟩ := h.filed hvouched hother
  exact hfiled.eq_of_ref hfiled' (mem_newestRows.mp hrow).1 (mem_newestRows.mp hother).1 href

theorem Passes.checkRow_copied (h : Passes interp table receipts expected slugs)
    (hvouched : ∀ row ∈ table.rows, Vouched interp used receipts row)
    (hentries : ∀ row ∈ newestRows table.rows, ∀ name, row.reportRef = .text name → copied name = receipts name) :
    ∀ row ∈ newestRows table.rows, checkRow interp false copied row = .ok [] := by
  intro row hrow
  obtain ⟨slug, id, hfiled⟩ := h.filed hvouched hrow
  have hmoved := hfiled.moved (hentries row hrow _ hfiled.ref)
  have hbefore := hvouched row (mem_newestRows.mp hrow).1
  have hafter : Vouched interp used copied row :=
    ⟨hbefore.grade, hbefore.transparency, hbefore.rowId, .inr ⟨slug, id, hmoved⟩⟩
  rw [hafter.checkRow, ← hbefore.checkRow]
  exact h.rows row hrow

/-- Where the check passes on vouched rows, the reduced table and its receipts pass it again. -/
theorem exists_bundle
    (hread : readSlugs interp (bundleInputs none none seed masked) seed = .ok (.ok (expected, slugs)))
    (hvouched : ∀ row ∈ desk.registry.scans.rows, Vouched interp used desk.receipts row)
    (htexts : ∀ row ∈ desk.registry.scans.rows, CountsText row) (hne : desk.registry.scans.rows ≠ [])
    (h : Passes interp desk.registry.scans desk.receipts expected slugs) :
    ∃ bundle, buildDeployBundle interp desk seed masked = .ok bundle := by
  obtain ⟨first, hfirst⟩ := List.exists_mem_of_ne_nil _ hne
  obtain ⟨copy, hcopy⟩ := @exists_copy desk.registry.scans slugs first hfirst
  obtain ⟨reduced, hreduced⟩ := exists_sanitizedTable hcopy
  have hreduces : Reduces desk.registry.scans reduced slugs :=
    reduces_of_copy (id_ne_null hvouched) (sanitizedTable_ok hreduced)
  have hfiles : ∀ row ∈ latestScanRows reduced.rows, NamesFile desk.receipts row := by
    intro row hrow
    obtain ⟨slug, id, hfiled⟩ := h.filed hvouched ((h.mem_latest hreduces row).mp hrow)
    exact hfiled.namesFile
  obtain ⟨copies, hcopies⟩ := exists_copies hfiles (h.nodup_refs hreduces hvouched) fun name _ => rfl
  have hentries : ∀ row ∈ newestRows desk.registry.scans.rows, ∀ name, row.reportRef = .text name →
      copies name = desk.receipts name := by
    intro row hrow name href
    rw [(copied_of_ok hcopies).2, if_pos]
    rw [← href]
    exact List.mem_map_of_mem ((h.mem_latest hreduces row).mpr hrow)
  have hpassed := h.reduced hreduces (h.checkRow_copied hvouched hentries)
  have hagain : ∀ row ∈ reduced.rows, CountsText row := fun row hrow => htexts row (hreduces.sublist.subset hrow)
  exact ⟨⟨reduced, copies⟩, bind_eq_ok.mpr ⟨(), (deployable_iff hread htexts).mpr h, bind_eq_ok.mpr ⟨slugs,
    maskedSlugs_of_read hread, bind_eq_ok.mpr ⟨reduced, hreduced, bind_eq_ok.mpr ⟨copies, hcopies, bind_eq_ok.mpr
      ⟨(), (deployable_iff hread hagain).mpr hpassed, rfl⟩⟩⟩⟩⟩⟩

theorem passes_of_bundle {bundle : Bundle}
    (hread : readSlugs interp (bundleInputs none none seed masked) seed = .ok (.ok (expected, slugs)))
    (hids : ∀ row ∈ desk.registry.scans.rows, row.id ≠ .null)
    (htexts : ∀ row ∈ desk.registry.scans.rows, CountsText row)
    (h : buildDeployBundle interp desk seed masked = .ok bundle) :
    desk.registry.scans.rows ≠ [] ∧ Passes interp desk.registry.scans desk.receipts expected slugs ∧
      bundle.Carries interp desk := by
  obtain ⟨_, hfirst, h⟩ := bind_eq_ok.mp h
  obtain ⟨found, hfound, h⟩ := bind_eq_ok.mp h
  obtain ⟨reduced, hreduced, h⟩ := bind_eq_ok.mp h
  obtain ⟨copies, hcopies, h⟩ := bind_eq_ok.mp h
  obtain ⟨_, hsecond, h⟩ := bind_eq_ok.mp h
  cases h
  rw [maskedSlugs_of_read hread] at hfound
  cases hfound
  have hcopy := sanitizedTable_ok hreduced
  have hpasses := (deployable_iff hread htexts).mp hfirst
  have hreduces : Reduces desk.registry.scans reduced slugs := reduces_of_copy hids hcopy
  have hagain : ∀ row ∈ reduced.rows, CountsText row := fun row hrow => htexts row (hreduces.sublist.subset hrow)
  have hchecked := (deployable_iff hread hagain).mp hsecond
  have hrefs (name : Str) : SqlValue.text name ∈ (latestScanRows reduced.rows).map ScanRow.reportRef ↔
      SqlValue.text name ∈ reduced.rows.map ScanRow.reportRef := by
    simp only [List.mem_map, mem_latestScanRows, hreduces.newestRows]
  refine ⟨fun hnil => ?_, hpasses, ⟨hpasses.mem_reduced hreduces, hreduces.sublist, fun name => ?_, fun row hrow => ?_⟩⟩
  · rw [copy_error_iff.mpr hnil] at hcopy
    cases hcopy
  · refine ((copied_of_ok hcopies).2 name).trans ?_
    simp only [hrefs]
  · rw [← hreduces.newestRows] at hrow
    exact rowChecked_of_ok (hchecked.rows row hrow)

end Checked

/-! ## The bundle of a run -/

/-- What a log must show for its database to be bundled. -/
structure ScanLog.Deployable (dump : Serializer) (expected : List Json) (slugs : List Str) (log : ScanLog) : Prop where
  recorded : log.scans ≠ []
  scanned : ∀ v ∈ expected, ∃ scan ∈ log.scans, v = .str scan.serverSlug
  seeded : ∀ scan ∈ log.scans, Json.str scan.serverSlug ∈ expected
  unmasked : ∀ scan ∈ log.scans, scan.serverSlug ∉ slugs
  newest : ∀ scan ∈ log.scans, scanRow dump scan ∈ newestRows (log.scans.map (scanRow dump)) →
    scan.engineName ≠ u "stub" ∧ scan.reportRef ≠ none

section Run

variable {py : Pydantic} {validateSource : SourceModel} {dumpSource : SourceDump} {dump : Serializer}
  {dumpTime : TimeDump} {desk : Desk} {log : ScanLog} {used : List Str} {commands : List Command}

theorem mem_newestSlugs {rows : List ScanRow} {w : SqlValue} :
    w ∈ (newestRows rows).map ScanRow.serverSlug ↔ w ∈ rows.map ScanRow.serverSlug := by
  simp only [List.mem_map]
  constructor
  · rintro ⟨row, hrow, hslug⟩
    exact ⟨row, (mem_newestRows.mp hrow).1, hslug⟩
  · rintro ⟨row, hrow, rfl⟩
    exact exists_newest hrow

theorem mem_scanSlugs {scans : List ScanRecord} {w : SqlValue} :
    w ∈ (scans.map (scanRow dump)).map ScanRow.serverSlug ↔ ∃ scan ∈ scans, .text scan.serverSlug = w := by
  rw [List.map_map, List.mem_map]
  rfl

theorem openErrors_eq_nil {scan : ScanRecord} :
    openErrors (scanRow dump scan) = [] ↔ scan.engineName ≠ u "stub" ∧ scan.reportRef ≠ none := by
  rw [openErrors, List.append_eq_nil_iff, errorIf_eq_nil, errorIf_eq_nil, decide_eq_false_iff_not,
    decide_eq_false_iff_not]
  refine and_congr (not_congr ⟨SqlValue.text.inj, congrArg SqlValue.text⟩) (not_congr ?_)
  cases href : scan.reportRef <;> simp [scanRow, href, optionalText]

/-- On the database of a log the check passes exactly when the log says so. -/
theorem passes_iff (hrows : desk.registry.scans.rows = log.scans.map (scanRow dump))
    (hvouched : ∀ row ∈ desk.registry.scans.rows, Vouched interp used desk.receipts row) :
    desk.registry.scans.rows ≠ [] ∧ Passes interp desk.registry.scans desk.receipts expected slugs ↔
      log.Deployable dump expected slugs := by
  have hslugs (w : SqlValue) : w ∈ (newestRows desk.registry.scans.rows).map ScanRow.serverSlug ↔
      ∃ scan ∈ log.scans, .text scan.serverSlug = w := by
    rw [mem_newestSlugs, hrows, mem_scanSlugs]
  have hrow {scan : ScanRecord} (hscan : scan ∈ log.scans) : scanRow dump scan ∈ desk.registry.scans.rows :=
    hrows ▸ List.mem_map_of_mem hscan
  constructor
  · rintro ⟨hne, ⟨hfound, hseeded, hunmasked⟩, hchecked⟩
    refine ⟨fun hnil => hne (by rw [hrows, hnil, List.map_nil]), fun v hv => ?_, fun scan hscan => ?_,
      fun scan hscan hmasked => ?_, fun scan hscan hnewest => ?_⟩
    · obtain ⟨slug, rfl, hslug⟩ := hfound v hv
      obtain ⟨scan, hscan, hsame⟩ := (hslugs _).mp hslug
      exact ⟨scan, hscan, congrArg Json.str (SqlValue.text.inj hsame).symm⟩
    · obtain ⟨slug, hslug, hmem⟩ := hseeded _ ((hslugs _).mpr ⟨scan, hscan, rfl⟩)
      rw [SqlValue.text.inj hslug]
      exact hmem
    · exact hunmasked _ hmasked ((hslugs _).mpr ⟨scan, hscan, rfl⟩)
    · rw [← hrows] at hnewest
      have hok := hchecked _ hnewest
      rw [(hvouched _ (hrow hscan)).checkRow] at hok
      exact openErrors_eq_nil.mp (Except.ok.inj hok)
  · intro h
    refine ⟨?_, ⟨fun v hv => ?_, fun w hw => ?_, fun slug hslug hmem => ?_⟩, fun row hmem => ?_⟩
    · rw [hrows]
      exact fun hnil => h.recorded (List.map_eq_nil_iff.mp hnil)
    · obtain ⟨scan, hscan, rfl⟩ := h.scanned v hv
      exact ⟨scan.serverSlug, rfl, (hslugs _).mpr ⟨scan, hscan, rfl⟩⟩
    · obtain ⟨scan, hscan, rfl⟩ := (hslugs w).mp hw
      exact ⟨scan.serverSlug, rfl, h.seeded scan hscan⟩
    · obtain ⟨scan, hscan, hsame⟩ := (hslugs _).mp hmem
      rw [← SqlValue.text.inj hsame] at hslug
      exact h.unmasked scan hscan hslug
    · have hin := (mem_newestRows.mp hmem).1
      rw [hrows] at hin hmem
      obtain ⟨scan, hscan, rfl⟩ := List.mem_map.mp hin
      rw [(hvouched _ (hrow hscan)).checkRow, openErrors_eq_nil.mpr (h.newest scan hscan hmem)]

theorem countsText_scanRow (scan : ScanRecord) : CountsText (scanRow dump scan) := ⟨rfl, rfl, rfl⟩

end Run

def plainSeed : Bytes := asciiBytes "[\x7b\"slug\":\"a\"\x7d]"

def plainMasked : Bytes := asciiBytes "[]"

theorem readSlugs_plain : readSlugs calmInterpreter (bundleInputs none none plainSeed plainMasked) plainSeed =
    .ok (.ok ([.str (u "a")], [])) := by
  rfl

theorem plainLog_deployable : (ScanLog.afterAll plainTime plainCommands).Deployable calmSerializer [.str (u "a")] [] := by
  have hshown : (ScanLog.afterAll plainTime plainCommands).scans.map
      (fun scan => (scan.serverSlug, scan.engineName, scan.reportRef.isSome)) = [(u "a", u "mcpaudit", true)] := by
    decide +kernel
  obtain ⟨scan, hscans, hsame⟩ := List.map_eq_singleton_iff.mp hshown
  obtain ⟨hslug, hrest⟩ := Prod.mk.inj hsame
  obtain ⟨hengine, href⟩ := Prod.mk.inj hrest
  rw [← hslug]
  constructor
  case recorded => exact fun hnil => List.cons_ne_nil _ _ (hscans.symm.trans hnil)
  all_goals rw [hscans]
  case scanned => exact fun v hv => ⟨scan, List.mem_singleton_self scan, List.mem_singleton.mp hv⟩
  case seeded => exact fun other hother => List.mem_singleton.mpr (by rw [List.mem_singleton.mp hother])
  case unmasked => exact fun other _ => List.not_mem_nil
  case newest =>
    intro other hother _
    rw [List.mem_singleton.mp hother, hengine]
    refine ⟨by decide, fun hnone => ?_⟩
    rw [hnone] at href
    cases href

end McpTrust.Launch
