import McpTrust.Store.Readable

/-! # Readers of the scan store

`latest`, `history` and `latest_all_readback` take the newest row of a slug by
different queries; they name the same row wherever a row fails admission with an
error the readers handle.
-/

namespace McpTrust.Store

set_option autoImplicit false

open Python Sqlite

/-! ## The keys of the readback -/

/-- `repr(b)` of bytes. -/
def bytesRepr (bytes : Bytes) : Str :=
  let codes := bytes.map fun b => codePoint b.toNat
  let quote := if ch '\'' ∈ codes ∧ ch '"' ∉ codes then ch '"' else ch '\''
  let escaped (c : CodePoint) : Str :=
    if c = quote ∨ c = ch '\\' then [ch '\\', c]
    else if c.val = 9 then u "\\t"
    else if c.val = 10 then u "\\n"
    else if c.val = 13 then u "\\r"
    else if c.val < 32 ∨ 127 ≤ c.val then [ch '\\', ch 'x', hexChar (c.val / 16), hexChar c.val]
    else [c]
  ch 'b' :: quote :: (codes.flatMap escaped ++ [quote])

/-- `str(row["server_slug"])`. -/
def pyStr : SqlValue → Str
  | .null => u "None"
  | .text s => s
  | .blob b => bytesRepr b

/-- A slug has letters, digits and dashes only. -/
theorem isSlug_chars {s : Str} (h : isSlug s = true) : ∀ c ∈ s, isSlugChar c = true ∨ c = ch '-' := by
  have hfrom : ∀ (s : Str) (afterChar : Bool), isSlugFrom afterChar s = true →
      ∀ c ∈ s, isSlugChar c = true ∨ c = ch '-' := by
    intro s
    induction s with
    | nil => exact fun _ _ c hc => nomatch hc
    | cons d rest ih =>
      intro afterChar h c hc
      rw [isSlugFrom] at h
      obtain rfl | hc := List.mem_cons.mp hc
      · by_cases hd : isSlugChar c = true
        · exact .inl hd
        · rw [if_neg hd, Bool.and_eq_true, Bool.and_eq_true, decide_eq_true_eq] at h
          exact .inr h.1.2
      · by_cases hd : isSlugChar d = true
        · rw [if_pos hd] at h
          exact ih true h c hc
        · rw [if_neg hd, Bool.and_eq_true] at h
          exact ih false h.2 c hc
  exact hfrom s false h

/-- Only text prints as a slug. -/
theorem pyStr_eq_slug {v : SqlValue} {slug : Str} (hslug : isSlug slug = true) : pyStr v = slug ↔ v = .text slug := by
  have hchars := isSlug_chars hslug
  cases v with
  | null =>
    refine iff_of_false (fun h => ?_) nofun
    have hN := hchars (ch 'N') (by rw [← h]; decide)
    revert hN
    decide
  | text s => rw [pyStr, SqlValue.text.injEq]
  | blob b =>
    refine iff_of_false (fun h => ?_) nofun
    have hquote : ∃ quote ∈ slug, quote = ch '"' ∨ quote = ch '\'' := by
      rw [← h]
      refine ⟨_, List.mem_cons_of_mem _ List.mem_cons_self, ?_⟩
      split
      · exact .inl rfl
      · exact .inr rfl
    obtain ⟨quote, hmem, hquote⟩ := hquote
    have hbad := hchars quote hmem
    obtain rfl | rfl := hquote <;> exact absurd hbad (by decide)

/-! ## The readback -/

/-- `LatestScanReadback`. -/
structure ScanReadback where
  records : Str → Option ScanRecord
  unreadable : Str → Bool

/-- What the loop leaves of a slug after one of its rows. -/
def admitRow (py : Pydantic) (interp : Interpreter) (readback : ScanReadback) (row : ScanRow) :
    Except PyErr ScanReadback :=
  let slug := pyStr row.serverSlug
  match rowToScan py interp row with
  | .ok record =>
    .ok
      { records := Function.update readback.records slug (some record)
        unreadable := Function.update readback.unreadable slug false }
  | .error e =>
    if isCorruption e then
      .ok
        { records := Function.update readback.records slug none
          unreadable := Function.update readback.unreadable slug true }
    else .error e

/-- `ScanRepository.latest_all_readback()`. -/
def scanReadback (py : Pydantic) (interp : Interpreter) (table : ScanTable) : Except PyErr ScanReadback :=
  ((newestRows table.rows).insertionSort IdBefore).foldlM (admitRow py interp) ⟨fun _ => none, fun _ => false⟩

variable {py : Pydantic} {interp : Interpreter}

/-- The row fails admission, if it does, with an error the readers handle. -/
def Handled (py : Pydantic) (interp : Interpreter) (row : ScanRow) : Prop :=
  ∀ e, rowToScan py interp row = .error e → isCorruption e = true

/-- What one row leaves under its slug. -/
def admitted (py : Pydantic) (interp : Interpreter) (row : ScanRow) : Option ScanRecord × Bool :=
  match rowToScan py interp row with
  | .ok record => (some record, false)
  | .error _ => (none, true)

theorem admitRow_ok {row : ScanRow} (h : Handled py interp row) (readback : ScanReadback) :
    admitRow py interp readback row =
      .ok
        { records := Function.update readback.records (pyStr row.serverSlug) (admitted py interp row).1
          unreadable := Function.update readback.unreadable (pyStr row.serverSlug) (admitted py interp row).2 } := by
  unfold admitRow admitted
  cases hrow : rowToScan py interp row with
  | ok record => rfl
  | error e => simp only [h e hrow, if_true]

/-- The last row of a slug decides what the loop leaves of it. -/
theorem foldlM_admitRow {rows : List ScanRow} (h : ∀ row ∈ rows, Handled py interp row) (start : ScanReadback)
    (slug : Str) :
    ∃ readback, rows.foldlM (admitRow py interp) start = .ok readback ∧
      (readback.records slug, readback.unreadable slug) =
        match (rows.filter fun row => decide (pyStr row.serverSlug = slug)).getLast? with
        | none => (start.records slug, start.unreadable slug)
        | some row => admitted py interp row := by
  induction rows generalizing start with
  | nil => exact ⟨start, rfl, rfl⟩
  | cons row rows ih =>
    rw [List.foldlM_cons, admitRow_ok (h row List.mem_cons_self)]
    obtain ⟨readback, hreadback, hslug⟩ := ih (fun r hr => h r (List.mem_cons_of_mem _ hr))
      { records := Function.update start.records (pyStr row.serverSlug) (admitted py interp row).1
        unreadable := Function.update start.unreadable (pyStr row.serverSlug) (admitted py interp row).2 }
    refine ⟨readback, hreadback, ?_⟩
    rw [hslug]
    by_cases hkey : pyStr row.serverSlug = slug
    · have hkept : decide (pyStr row.serverSlug = slug) = true := decide_eq_true hkey
      simp only [List.filter_cons, hkept, if_true]
      cases hrest : rows.filter fun row => decide (pyStr row.serverSlug = slug) with
      | nil => simp [hkey]
      | cons a rest =>
        have hlast := List.getLast?_eq_some_getLast (List.cons_ne_nil a rest)
        rw [List.getLast?_cons_cons, hlast]
    · have hdropped : decide (pyStr row.serverSlug = slug) = false := decide_eq_false hkey
      simp only [List.filter_cons, hdropped, Bool.false_eq_true, if_false, Function.update_of_ne (Ne.symm hkey)]

/-! ## One newest row -/

instance : Std.Total IdBefore := ⟨fun a b => le_total a.id b.id⟩

instance : IsTrans ScanRow IdBefore := ⟨fun _ _ _ hab hbc => le_trans hab hbc⟩

/-- The newest rows of a slug in the order of the loop. -/
def loopRows (table : ScanTable) (slug : Str) : List ScanRow :=
  ((newestRows table.rows).insertionSort IdBefore).filter fun row => decide (pyStr row.serverSlug = slug)

theorem mem_loopRows {table : ScanTable} {slug : Str} (hslug : isSlug slug = true) {row : ScanRow} :
    row ∈ loopRows table slug ↔ row ∈ newestRows table.rows ∧ row.serverSlug = .text slug := by
  rw [loopRows, List.mem_filter, List.mem_insertionSort, decide_eq_true_eq, pyStr_eq_slug hslug]

/-- The last row of the loop has the greatest identity of the newest rows of its slug. -/
theorem loopRows_last {table : ScanTable} {slug : Str} {last row : ScanRow}
    (hlast : (loopRows table slug).getLast? = some last) (hrow : row ∈ loopRows table slug) : row.id ≤ last.id := by
  have hsorted : (loopRows table slug).Pairwise IdBefore :=
    (List.pairwise_insertionSort IdBefore (newestRows table.rows)).filter _
  obtain ⟨before, hbefore⟩ := List.getLast?_eq_some_iff.mp hlast
  rw [hbefore] at hsorted hrow
  obtain hrow | hrow := List.mem_append.mp hrow
  · exact (List.pairwise_append.mp hsorted).2.2 row hrow last (List.mem_singleton_self last)
  · rw [List.mem_singleton.mp hrow]

theorem eq_of_id {table : ScanTable} {a b : ScanRow} (ha : a ∈ table.rows) (hb : b ∈ table.rows)
    (hid : a.id = b.id) (hnull : a.id ≠ .null) : a = b := by
  have hunique := table.uniqueIds
  rw [List.filter_map] at hunique
  apply List.inj_on_of_nodup_map hunique _ _ hid
  · exact List.mem_filter.mpr ⟨ha, decide_eq_true hnull⟩
  · exact List.mem_filter.mpr ⟨hb, decide_eq_true (hid ▸ hnull)⟩

/-- A row without an identity does not decode. -/
theorem rowToScan_null (py : Pydantic) (interp : Interpreter) {row : ScanRow} (h : row.id = .null) : ∃ e, rowToScan py interp row = .error e := by
  cases hrow : rowToScan py interp row with
  | error e => exact ⟨e, rfl⟩
  | ok record =>
    have hid := (copies_of_ok hrow).id
    rw [h] at hid
    cases hid

/-- The row `latest` reads and the last row of the loop are admitted alike. -/
theorem admitted_newest {table : ScanTable} {slug : Str} (hslug : isSlug slug = true) {newest last : ScanRow}
    (hnewest : (newestFirst (.text slug) table.rows).head? = some newest)
    (hlast : (loopRows table slug).getLast? = some last) : admitted py interp newest = admitted py interp last := by
  obtain ⟨hmem, hsame, hnewer⟩ := head_newestFirst hnewest
  obtain ⟨hlastNewest, hlastSlug⟩ := (mem_loopRows hslug).mp (List.mem_of_getLast? hlast)
  obtain ⟨hlastMem, hlastTime⟩ := mem_newestRows.mp hlastNewest
  have hnewestRow := head_mem_newestRows hnewest
  obtain ⟨-, htime⟩ := mem_newestRows.mp hnewestRow
  have hle := loopRows_last hlast ((mem_loopRows hslug).mpr ⟨hnewestRow, hsame⟩)
  have hge : last.id ≤ newest.id := by
    obtain h | ⟨-, h⟩ := Prod.Lex.toLex_le_toLex.mp (hnewer last hlastMem hlastSlug)
    · rw [htime, hlastTime, hsame, hlastSlug] at h
      exact absurd h (lt_irrefl _)
    · exact h
  have hid := le_antisymm hle hge
  by_cases hnull : newest.id = .null
  · obtain ⟨e, he⟩ := rowToScan_null py interp hnull
    obtain ⟨e', he'⟩ := rowToScan_null py interp (hid ▸ hnull)
    unfold admitted
    rw [he, he']
  · rw [eq_of_id hmem hlastMem hid hnull]

theorem newestFirst_eq_nil {table : ScanTable} {slug : SqlValue} :
    newestFirst slug table.rows = [] ↔ ∀ row ∈ table.rows, row.serverSlug ≠ slug := by
  rw [List.eq_nil_iff_forall_not_mem]
  simp only [mem_newestFirst, not_and, ne_eq]

/-- What the readback holds of a slug is what `latest` reads of it. -/
theorem scanReadback_latest {table : ScanTable} (h : ∀ row ∈ newestRows table.rows, Handled py interp row) {slug : Str}
    (hslug : isSlug slug = true) :
    ∃ readback, scanReadback py interp table = .ok readback ∧
      (readback.records slug, readback.unreadable slug) =
        match (newestFirst (.text slug) table.rows).head? with
        | none => (none, false)
        | some row => admitted py interp row := by
  have hrows : ∀ row ∈ (newestRows table.rows).insertionSort IdBefore, Handled py interp row := by
    intro row hrow
    exact h row ((List.mem_insertionSort _).mp hrow)
  obtain ⟨readback, hreadback, hslot⟩ := foldlM_admitRow hrows ⟨fun _ => none, fun _ => false⟩ slug
  refine ⟨readback, hreadback, hslot.trans ?_⟩
  change (match (loopRows table slug).getLast? with
    | none => _
    | some row => admitted py interp row) = _
  cases hnewest : (newestFirst (.text slug) table.rows).head? with
  | none =>
    have hnone := newestFirst_eq_nil.mp (List.head?_eq_none_iff.mp hnewest)
    have hempty : loopRows table slug = [] := by
      apply List.eq_nil_iff_forall_not_mem.mpr
      intro row hrow
      obtain ⟨hmem, hrowSlug⟩ := (mem_loopRows hslug).mp hrow
      exact hnone row (mem_newestRows.mp hmem).1 hrowSlug
    rw [hempty]
    rfl
  | some newest =>
    obtain ⟨-, hsame, -⟩ := head_newestFirst hnewest
    have hin : newest ∈ loopRows table slug := (mem_loopRows hslug).mpr ⟨head_mem_newestRows hnewest, hsame⟩
    have hlast := List.getLast?_eq_some_getLast (List.ne_nil_of_mem hin)
    rw [hlast]
    exact (admitted_newest hslug hnewest hlast).symm

/-- All readers of the store name the same newest row of a slug. -/
theorem readers_agree (py : Pydantic) (interp : Interpreter) (table : ScanTable)
    (h : ∀ row ∈ table.rows, Handled py interp row) {slug : Str} (hslug : isSlug slug = true) :
    ∃ readback, scanReadback py interp table = .ok readback ∧
      (∀ record, readback.records slug = some record ↔ latest py interp table slug = .ok (some record)) ∧
      (∀ record scans, readback.records slug = some record → history py interp table slug = .ok scans →
        scans.head? = some record) ∧
      (readback.unreadable slug = true ↔ ∃ e, latest py interp table slug = .error e) ∧
      (readback.records slug = none ∧ readback.unreadable slug = false ↔
        ∀ row ∈ table.rows, row.serverSlug ≠ .text slug) := by
  obtain ⟨readback, hreadback, hslot⟩ :=
    scanReadback_latest (fun row hrow => h row (mem_newestRows.mp hrow).1) hslug
  refine ⟨readback, hreadback, ?_⟩
  unfold latest history
  cases hrows : newestFirst (.text slug) table.rows with
  | nil =>
    rw [hrows, List.head?_nil, Prod.mk.injEq] at hslot
    obtain ⟨hrecords, hunreadable⟩ := hslot
    have hnone := newestFirst_eq_nil.mp hrows
    simp only [hrecords, hunreadable, true_and]
    exact ⟨by simp, by simp, by simp, fun _ => hnone, fun _ => trivial⟩
  | cons row rest =>
    rw [hrows, List.head?_cons] at hslot
    have hsome : ¬∀ row ∈ table.rows, row.serverSlug ≠ .text slug := by
      intro hnone
      rw [newestFirst_eq_nil.mpr hnone] at hrows
      cases hrows
    rw [List.head?_cons, List.mapM_cons]
    cases hrow : rowToScan py interp row with
    | ok record =>
      simp only [admitted, hrow, Prod.mk.injEq] at hslot
      obtain ⟨hrecords, hunreadable⟩ := hslot
      refine ⟨?_, ?_, ?_, ?_⟩
      · simp [hrecords, hrow, Except.map]
      · intro other scans hother hscans
        rw [hrecords] at hother
        cases hother
        obtain ⟨_, hhead, hscans⟩ := bind_eq_ok.mp hscans
        obtain ⟨tail, -, hscans⟩ := bind_eq_ok.mp hscans
        cases hhead
        cases hscans
        rfl
      · simp [hunreadable, hrow, Except.map]
      · simp [hrecords, hsome]
    | error e =>
      simp only [admitted, hrow, Prod.mk.injEq] at hslot
      obtain ⟨hrecords, hunreadable⟩ := hslot
      refine ⟨?_, ?_, ?_, ?_⟩
      · simp [hrecords, hrow, Except.map]
      · intro other scans hother
        rw [hrecords] at hother
        cases hother
      · simp [hunreadable, hrow, Except.map]
      · simp [hunreadable, hsome]

/-- A row with no text for its risk. -/
def corruptRow (id : String) : ScanRow where
  id := .text (u id)
  serverSlug := .text (u "server")
  engineName := .text (u "mcpaudit")
  engineVersion := .text (u "1")
  grade := .text (u "A")
  transparency := .text (u "high")
  riskJson := .blob []
  findingsJson := .text (u "[]")
  evidenceJson := .null
  scannedAt := .text (u "2026-01-01T00:00:00+00:00")
  sandboxImage := .null
  reportRef := .null
  declared := by decide

def refusing : Pydantic := ⟨fun _ => none, fun _ => none, fun _ => none, fun _ => none⟩

/-- Two tied rows, neither of them readable. -/
theorem readers_agree_tied :
    ∃ readback, scanReadback refusing ⟨1000, by decide⟩ ⟨[corruptRow "a", corruptRow "b"], by decide⟩ = .ok readback ∧
      (readback.unreadable (u "server") = true ↔ ∃ e,
        latest refusing ⟨1000, by decide⟩ ⟨[corruptRow "a", corruptRow "b"], by decide⟩ (u "server") = .error e) := by
  have hhandled : ∀ row ∈ [corruptRow "a", corruptRow "b"], Handled refusing ⟨1000, by decide⟩ row := by
    intro row hrow e he
    obtain rfl | hrow := List.mem_cons.mp hrow
    · cases he
      rfl
    · cases List.mem_singleton.mp hrow
      cases he
      rfl
  have hslug : isSlug (u "server") = true := by decide
  obtain ⟨readback, hreadback, -, -, hunreadable, -⟩ :=
    readers_agree refusing ⟨1000, by decide⟩ ⟨[corruptRow "a", corruptRow "b"], by decide⟩ hhandled hslug
  exact ⟨readback, hreadback, hunreadable⟩

end McpTrust.Store
