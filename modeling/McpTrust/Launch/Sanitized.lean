import McpTrust.Store.Readback
import McpTrust.Launch.Readiness
import McpTrust.Store.Upserts

/-! # What the sanitized copy keeps

The delete statement goes by the ids of the newest rows. Where no id is null these are the
newest rows themselves: the copy then holds nothing else, no row of a masked slug, and every
other slug is read from it as from the source.
-/

namespace McpTrust.Launch

set_option autoImplicit false

open Python Sqlite Store

variable {py : Pydantic} {interp : Interpreter} {table copied : ScanTable} {masked : List Str}
  {row other : ScanRow} {copy : List ScanRow}

/-! ## Which rows stay -/

def Unmasked (masked : List Str) (row : ScanRow) : Prop := row.serverSlug ∉ masked.map SqlValue.text

/-- The rows the first statement leaves: beside a null among the ids it deletes nothing. -/
def Kept (rows : List ScanRow) (row : ScanRow) : Prop :=
  row ∈ newestRows rows ∨ row.id = .null ∨ ∃ newest ∈ newestRows rows, newest.id = .null

theorem notIn_iff (hrow : row ∈ table.rows) :
    row.id.notIn ((latestScanRows table.rows).map ScanRow.id) = false ↔ Kept table.rows row := by
  constructor
  · intro hstays
    by_cases hnull : row.id = .null
    · exact .inr (.inl hnull)
    · rw [SqlValue.notIn, Bool.or_eq_false_iff, Bool.and_eq_false_iff, Bool.and_eq_false_iff] at hstays
      obtain (hid | hids) | hmem := hstays.2
      · exact absurd (of_decide_eq_false hid) (not_not.mpr hnull)
      · have hin := not_not.mp (of_decide_eq_false hids)
        exact .inr (.inr (mem_latestIds.mp hin))
      · have hin := not_not.mp (of_decide_eq_false hmem)
        obtain ⟨newest, hnewest, hid⟩ := mem_latestIds.mp hin
        rw [eq_of_id hrow (mem_newestRows.mp hnewest).1 hid.symm hnull]
        exact .inl hnewest
  · rintro (hnewest | hnull | ⟨newest, hnewest, hnull⟩)
    · exact kept_of_newest hnewest
    · exact kept_of_null hrow hnull
    · have hmem := mem_latestIds.mpr ⟨newest, hnewest, hnull⟩
      have hne := List.ne_nil_of_mem hmem
      simp only [SqlValue.notIn, hne, hmem, decide_false, not_true_eq_false, Bool.and_false,
        Bool.false_and, Bool.or_self]

theorem mem_sanitized (h : copySanitizedDb table masked = .ok copy) :
    row ∈ copy ↔ row ∈ table.rows ∧ Kept table.rows row ∧ Unmasked masked row := by
  unfold copySanitizedDb at h
  by_cases hnil : (latestScanRows table.rows).map ScanRow.id = []
  · rw [if_pos hnil] at h
    cases h
  · rw [if_neg hnil, Except.ok.injEq] at h
    rw [← h, List.mem_filter, List.mem_filter, decide_eq_true_eq, Bool.not_eq_true', and_assoc]
    exact and_congr_right fun hrow => and_congr_left fun _ => notIn_iff hrow

theorem sublist_of_copy (h : copySanitizedDb table masked = .ok copy) : copy.Sublist table.rows := by
  unfold copySanitizedDb at h
  by_cases hnil : (latestScanRows table.rows).map ScanRow.id = []
  · rw [if_pos hnil] at h
    cases h
  · rw [if_neg hnil, Except.ok.injEq] at h
    rw [← h]
    exact List.filter_sublist.trans List.filter_sublist

theorem copy_error_iff : copySanitizedDb table masked = .error .valueError ↔ table.rows = [] := by
  constructor
  · intro h
    apply List.eq_nil_iff_forall_not_mem.mpr
    intro row hrow
    obtain ⟨copy, hcopy⟩ := @exists_copy table masked row hrow
    rw [h] at hcopy
    cases hcopy
  · intro h
    have hids : (latestScanRows table.rows).map ScanRow.id = [] := by
      rw [h]
      rfl
    unfold copySanitizedDb
    rw [if_pos hids]

theorem uniqueIds_of_sublist (h : copy.Sublist table.rows) :
    ((copy.map ScanRow.id).filter fun id => decide (id ≠ .null)).Nodup :=
  table.uniqueIds.sublist ((h.map ScanRow.id).filter _)

/-! ## The newest rows of the copy -/

/-- The table holds the newest rows of the unmasked slugs of another. -/
structure Reduces (table copied : ScanTable) (masked : List Str) : Prop where
  sublist : copied.rows.Sublist table.rows
  mem : ∀ row, row ∈ copied.rows ↔ row ∈ newestRows table.rows ∧ Unmasked masked row

theorem reduces_of_copy (hids : ∀ row ∈ table.rows, row.id ≠ .null)
    (h : copySanitizedDb table masked = .ok copied.rows) : Reduces table copied masked := by
  refine ⟨sublist_of_copy h, fun row => ?_⟩
  rw [mem_sanitized h]
  constructor
  · rintro ⟨hrow, hnewest | hnull | ⟨newest, hnewest, hnull⟩, hunmasked⟩
    · exact ⟨hnewest, hunmasked⟩
    · exact absurd hnull (hids row hrow)
    · exact absurd hnull (hids newest (mem_newestRows.mp hnewest).1)
  · rintro ⟨hnewest, hunmasked⟩
    exact ⟨(mem_newestRows.mp hnewest).1, .inl hnewest, hunmasked⟩

theorem Reduces.newestTime_le (h : Reduces table copied masked) (hrow : row ∈ copied.rows) :
    newestTime row.serverSlug copied.rows ≤ newestTime row.serverSlug table.rows := by
  have hne : (ofSlug row.serverSlug copied.rows).map ScanRow.scannedAt ≠ [] :=
    List.ne_nil_of_mem (List.mem_map_of_mem (mem_ofSlug.mpr ⟨hrow, rfl⟩))
  obtain ⟨newest, hnewest, htime⟩ := List.mem_map.mp (SqlValue.maximum_mem hne)
  obtain ⟨hin, hslug⟩ := mem_ofSlug.mp hnewest
  have hle := time_le_newest (h.sublist.subset hin)
  rw [htime, hslug] at hle
  exact hle

/-- Each row of the copy is a newest one there. -/
theorem Reduces.newestRows (h : Reduces table copied masked) :
    newestRows copied.rows = copied.rows := by
  apply List.filter_eq_self.mpr
  intro row hrow
  obtain ⟨-, htime⟩ := mem_newestRows.mp ((h.mem row).mp hrow).1
  have hle := h.newestTime_le hrow
  rw [← htime] at hle
  exact decide_eq_true (le_antisymm (time_le_newest hrow) hle)

theorem id_eq_of_first (ha : NewerOrSame row other) (hb : NewerOrSame other row) :
    row.id = other.id := by
  have hpair := le_antisymm ha hb
  exact (congrArg (fun pair => (ofLex pair).2) hpair).symm

/-- An unmasked slug has the same first row in the copy. -/
theorem Reduces.head (h : Reduces table copied masked) (hids : ∀ row ∈ table.rows, row.id ≠ .null)
    {slug : Str} (hslug : slug ∉ masked) :
    (newestFirst (.text slug) copied.rows).head? = (newestFirst (.text slug) table.rows).head? := by
  cases htable : (newestFirst (.text slug) table.rows).head? with
  | none =>
    have hnone := newestFirst_eq_nil.mp (List.head?_eq_none_iff.mp htable)
    apply List.head?_eq_none_iff.mpr
    exact newestFirst_eq_nil.mpr fun row hrow => hnone row (h.sublist.subset hrow)
  | some row =>
    obtain ⟨hrow, hrowSlug, hfirst⟩ := head_newestFirst htable
    have hunmasked : Unmasked masked row := by
      rw [Unmasked, hrowSlug]
      rintro hmem
      obtain ⟨name, hname, heq⟩ := List.mem_map.mp hmem
      exact hslug (SqlValue.text.inj heq ▸ hname)
    have hcopied := (h.mem row).mpr ⟨head_mem_newestRows htable, hunmasked⟩
    cases hhead : (newestFirst (.text slug) copied.rows).head? with
    | none => exact absurd hrowSlug (newestFirst_eq_nil.mp (List.head?_eq_none_iff.mp hhead) row hcopied)
    | some first =>
      obtain ⟨hin, hinSlug, hbefore⟩ := head_newestFirst hhead
      have hinTable := h.sublist.subset hin
      have hid := id_eq_of_first (hbefore row hcopied hrowSlug) (hfirst first hinTable hinSlug)
      rw [eq_of_id hinTable hrow hid (hids first hinTable)]

/-! ## What is read from the copy -/

/-- Both tables have a readback; they agree on an unmasked slug, and a masked one is not in the second. -/
def SameReadback (py : Pydantic) (interp : Interpreter) (table copied : ScanTable) (masked : List Str)
    (slug : Str) : Prop :=
  ∃ before after, scanReadback py interp table = .ok before ∧ scanReadback py interp copied = .ok after ∧
    (slug ∉ masked → after.records slug = before.records slug ∧ after.unreadable slug = before.unreadable slug) ∧
    (slug ∈ masked → after.records slug = none ∧ after.unreadable slug = false)

/-- The copy, as its readers see it. -/
structure Sanitized (py : Pydantic) (interp : Interpreter) (table copied : ScanTable) (masked : List Str) :
    Prop where
  rows : ∀ row, row ∈ copied.rows ↔ row ∈ newestRows table.rows ∧ Unmasked masked row
  order : copied.rows.Sublist table.rows
  served : ∀ slug ∉ masked, latest py interp copied slug = latest py interp table slug
  hidden : ∀ slug ∈ masked, latest py interp copied slug = .ok none
  readback : (∀ row ∈ newestRows table.rows, Handled py interp row) → ∀ slug, isSlug slug = true →
    SameReadback py interp table copied masked slug
  again : copied.rows ≠ [] → copySanitizedDb copied masked = .ok copied.rows

theorem Reduces.head_masked (h : Reduces table copied masked) {slug : Str} (hslug : slug ∈ masked) :
    (newestFirst (.text slug) copied.rows).head? = none := by
  apply List.head?_eq_none_iff.mpr
  apply newestFirst_eq_nil.mpr
  intro row hrow hrowSlug
  apply ((h.mem row).mp hrow).2
  rw [hrowSlug]
  exact List.mem_map_of_mem hslug

theorem Reduces.readback (h : Reduces table copied masked) (hids : ∀ row ∈ table.rows, row.id ≠ .null)
    (hhandled : ∀ row ∈ Store.newestRows table.rows, Handled py interp row) {slug : Str}
    (hslug : isSlug slug = true) : SameReadback py interp table copied masked slug := by
  have hcopied : ∀ row ∈ Store.newestRows copied.rows, Handled py interp row := by
    intro row hrow
    rw [h.newestRows] at hrow
    exact hhandled row ((h.mem row).mp hrow).1
  obtain ⟨before, hbefore, hslot⟩ := scanReadback_latest hhandled hslug
  obtain ⟨after, hafter, hslot'⟩ := scanReadback_latest hcopied hslug
  refine ⟨before, after, hbefore, hafter, fun hunmasked => ?_, fun hmasked => ?_⟩
  · rw [h.head hids hunmasked, ← hslot] at hslot'
    exact Prod.mk.inj hslot'
  · rw [h.head_masked hmasked] at hslot'
    exact Prod.mk.inj hslot'

theorem Reduces.again (h : Reduces table copied masked) (hne : copied.rows ≠ []) :
    copySanitizedDb copied masked = .ok copied.rows := by
  obtain ⟨row, hrow⟩ := List.exists_mem_of_ne_nil _ hne
  unfold copySanitizedDb
  rw [if_neg (latestIds_ne_nil hrow)]
  have hkept : (copied.rows.filter fun row => !row.id.notIn ((latestScanRows copied.rows).map ScanRow.id)) =
      copied.rows := by
    apply List.filter_eq_self.mpr
    intro row hrow
    rw [Bool.not_eq_true']
    apply kept_of_newest
    rwa [h.newestRows]
  simp only [hkept]
  congr 1
  apply List.filter_eq_self.mpr
  intro row hrow
  exact decide_eq_true (p := row.serverSlug ∉ masked.map SqlValue.text) ((h.mem row).mp hrow).2

theorem sanitized_of_reduces (h : Reduces table copied masked) (hids : ∀ row ∈ table.rows, row.id ≠ .null) :
    Sanitized py interp table copied masked := by
  refine ⟨h.mem, h.sublist, fun slug hslug => ?_, fun slug hslug => ?_,
    fun hhandled slug hslug => h.readback hids hhandled hslug, h.again⟩
  · rw [latest, latest, h.head hids hslug]
  · rw [latest, h.head_masked hslug]

end McpTrust.Launch
