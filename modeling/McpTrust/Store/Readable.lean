import McpTrust.Store.Repository

/-! # Which rows decode

`Readable` names what each column has to hold; a row decodes exactly then.
-/

namespace McpTrust.Store

set_option autoImplicit false

open Python Sqlite

variable {py : Pydantic} {interp : Interpreter} {row : ScanRow} {record : ScanRecord}

/-! ## Single columns -/

theorem orInvalid_ok {α : Type} {x : Option α} {a : α} : orInvalid x = .ok a ↔ x = some a := by
  cases x with
  | none => simp [orInvalid]
  | some b => simp [orInvalid]

theorem checked_ok {p : Str → Bool} {s t : Str} : checked p s = .ok t ↔ s = t ∧ p t = true := by
  unfold checked
  by_cases hp : p s = true
  · rw [if_pos hp, Except.ok.injEq]
    constructor
    · rintro rfl
      exact ⟨rfl, hp⟩
    · exact And.left
  · rw [if_neg hp]
    constructor
    · intro h
      cases h
    · rintro ⟨rfl, h⟩
      exact absurd h hp

theorem TrustGrade.ofText_eq_some {s : Str} {grade : TrustGrade} :
    TrustGrade.ofText s = some grade ↔ s = u grade.text := by
  constructor
  · intro h
    have hfound := List.find?_some h
    exact of_decide_eq_true hfound
  · rintro rfl
    exact TrustGrade.ofText_text grade

theorem TransparencyLevel.ofText_eq_some {s : Str} {level : TransparencyLevel} :
    TransparencyLevel.ofText s = some level ↔ s = u level.text := by
  constructor
  · intro h
    have hfound := List.find?_some h
    exact of_decide_eq_true hfound
  · rintro rfl
    exact TransparencyLevel.ofText_text level

theorem readGrade_ok {v : SqlValue} {grade : TrustGrade} :
    readGrade v = .ok grade ↔ v = .text (u grade.text) := by
  cases v with
  | null => simp [readGrade]
  | text s => rw [readGrade, orInvalid_ok, TrustGrade.ofText_eq_some, SqlValue.text.injEq]
  | blob b => simp [readGrade]

theorem readOptionalStr_text (s : Str) : readOptionalStr (.text s) = .ok (some s) := rfl

/-! ## The columns of a readable row -/

structure ReadableRisk (py : Pydantic) (interp : Interpreter) (row : ScanRow) : Prop where
  risk : ∃ raw, loadStoredJson interp row.riskJson = .ok raw ∧ (py.risk raw).isSome
  findings : ∃ items, loadStoredJson interp row.findingsJson = .ok (.arr items) ∧
    items.length ≤ maxStoredFindings ∧ ∀ item ∈ items, (py.finding item).isSome

def ReadableEvidence (py : Pydantic) (interp : Interpreter) (row : ScanRow) : Prop :=
  row.evidenceJson.truthy = true → ∃ raw, loadStoredJson interp row.evidenceJson = .ok raw ∧
    tooManyTools raw = false ∧ (py.evidence raw).isSome

structure Readable (py : Pydantic) (interp : Interpreter) (row : ScanRow) : Prop where
  content : ReadableRisk py interp row
  evidence : ReadableEvidence py interp row
  transparency : row.transparency.truthy = true → ∃ level : TransparencyLevel, row.transparency = .text (u level.text)
  grade : ∃ grade : TrustGrade, row.grade = .text (u grade.text)
  id : ∃ s, readStr row.id = .ok s ∧ isScanId s = true
  serverSlug : ∃ s, readStr row.serverSlug = .ok s ∧ isSlug s = true
  engineName : ∃ s, readStr row.engineName = .ok s
  engineVersion : ∃ s, readStr row.engineVersion = .ok s
  scannedAt : ∃ s, readStr row.scannedAt = .ok s ∧ (py.datetime s).isSome
  sandboxImage : ∃ s, readOptionalStr row.sandboxImage = .ok s
  reportRef : ∃ s, readOptionalStr row.reportRef = .ok s

theorem readFindings_ok {raw : Json} : (∃ findings, readFindings py raw = .ok findings) ↔
    ∃ items, raw = .arr items ∧ items.length ≤ maxStoredFindings ∧
      ∀ item ∈ items, (py.finding item).isSome := by
  cases raw
  case arr items =>
    have hmap : (∃ findings, items.mapM (fun item => orInvalid (py.finding item)) = .ok findings) ↔
        ∀ item ∈ items, (py.finding item).isSome := by
      rw [exists_mapM_ok]
      simp only [orInvalid_ok, Option.isSome_iff_exists]
    by_cases hlen : items.length > maxStoredFindings
    · simp only [readFindings, if_pos hlen, Json.arr.injEq, exists_eq_left']
      constructor
      · rintro ⟨_, h⟩
        cases h
      · rintro ⟨h, -⟩
        omega
    · simp only [readFindings, if_neg hlen, Json.arr.injEq, exists_eq_left']
      rw [hmap]
      exact (and_iff_right (Nat.le_of_not_gt hlen)).symm
  all_goals simp [readFindings]

theorem readRiskAndFindings_ok : (∃ parts, readRiskAndFindings py interp row = .ok parts) ↔
    ReadableRisk py interp row := by
  simp only [readRiskAndFindings, catching_eq_ok, bind_eq_ok, orInvalid_ok]
  constructor
  · rintro ⟨_, riskRaw, hrisk, risk, hvalid, findingsRaw, hload, findings, hread, -⟩
    obtain ⟨items, rfl, hlen, hitems⟩ := readFindings_ok.mp ⟨findings, hread⟩
    exact ⟨⟨riskRaw, hrisk, Option.isSome_iff_exists.mpr ⟨risk, hvalid⟩⟩, items, hload, hlen, hitems⟩
  · rintro ⟨⟨riskRaw, hrisk, hvalid⟩, items, hload, hlen, hitems⟩
    obtain ⟨risk, hvalid⟩ := Option.isSome_iff_exists.mp hvalid
    obtain ⟨findings, hread⟩ := readFindings_ok.mpr ⟨items, rfl, hlen, hitems⟩
    exact ⟨(risk, findings), riskRaw, hrisk, risk, hvalid, .arr items, hload, findings, hread, rfl⟩

theorem readEvidence_ok : (∃ evidence, readEvidence py interp row = .ok evidence) ↔
    ReadableEvidence py interp row := by
  by_cases htruthy : row.evidenceJson.truthy = true
  · simp only [readEvidence, ReadableEvidence, htruthy, ↓reduceIte, catching_eq_ok, forall_const]
    constructor
    · rintro ⟨evidence, h⟩
      obtain ⟨raw, hload, h⟩ := bind_eq_ok.mp h
      by_cases htools : tooManyTools raw = true
      · rw [if_pos htools] at h
        cases h
      · rw [if_neg htools] at h
        obtain ⟨parsed, hparsed, -⟩ := bind_eq_ok.mp h
        exact ⟨raw, hload, Bool.eq_false_of_not_eq_true htools,
          Option.isSome_iff_exists.mpr ⟨parsed, orInvalid_ok.mp hparsed⟩⟩
    · rintro ⟨raw, hload, htools, hvalid⟩
      obtain ⟨parsed, hparsed⟩ := Option.isSome_iff_exists.mp hvalid
      refine ⟨some parsed, bind_eq_ok.mpr ⟨raw, hload, ?_⟩⟩
      rw [htools, hparsed]
      rfl
  · simp only [readEvidence, ReadableEvidence, if_neg htruthy]
    exact ⟨fun _ h => absurd h htruthy, fun _ => ⟨none, rfl⟩⟩

theorem readTransparency_ok : (∃ level, readTransparency row = .ok level) ↔
    (row.transparency.truthy = true → ∃ level : TransparencyLevel, row.transparency = .text (u level.text)) := by
  by_cases htruthy : row.transparency.truthy = true
  · simp only [readTransparency, htruthy, ↓reduceIte, forall_const]
    cases row.transparency with
    | null => simp
    | text s => simp only [orInvalid_ok, TransparencyLevel.ofText_eq_some, SqlValue.text.injEq]
    | blob b => simp
  · simp only [readTransparency, if_neg htruthy]
    exact ⟨fun _ h => absurd h htruthy, fun _ => ⟨.high, rfl⟩⟩

theorem readChecked_ok {p : Str → Bool} {v : SqlValue} {s : Str} :
    readStr v >>= checked p = .ok s ↔ readStr v = .ok s ∧ p s = true := by
  rw [bind_eq_ok]
  constructor
  · rintro ⟨t, ht, hcheck⟩
    obtain ⟨rfl, hp⟩ := checked_ok.mp hcheck
    exact ⟨ht, hp⟩
  · rintro ⟨ht, hp⟩
    exact ⟨s, ht, checked_ok.mpr ⟨rfl, hp⟩⟩

theorem readTime_ok {v : SqlValue} {time : DateTime} :
    (readStr v >>= fun s => orInvalid (py.datetime s)) = .ok time ↔
      ∃ s, readStr v = .ok s ∧ py.datetime s = some time := by
  simp only [bind_eq_ok, orInvalid_ok]

/-! ## Rows -/

/-- What a decoded record takes from the columns it copies. -/
structure Copies (py : Pydantic) (row : ScanRow) (record : ScanRecord) : Prop where
  id : readStr row.id = .ok record.id
  serverSlug : readStr row.serverSlug = .ok record.serverSlug
  engineName : readStr row.engineName = .ok record.engineName
  engineVersion : readStr row.engineVersion = .ok record.engineVersion
  grade : row.grade = .text (u record.grade.text)
  scannedAt : (readStr row.scannedAt >>= fun s => orInvalid (py.datetime s)) = .ok record.scannedAt
  sandboxImage : readOptionalStr row.sandboxImage = .ok record.sandboxImage
  reportRef : readOptionalStr row.reportRef = .ok record.reportRef

theorem copies_of_ok (h : rowToScan py interp row = .ok record) : Copies py row record := by
  rw [rowToScan] at h
  obtain ⟨⟨risk, findings⟩, -, h⟩ := bind_eq_ok.mp h
  obtain ⟨level, -, h⟩ := bind_eq_ok.mp h
  obtain ⟨evidence, -, h⟩ := bind_eq_ok.mp h
  obtain ⟨grade, hgrade, h⟩ := bind_eq_ok.mp h
  obtain ⟨id, hid, h⟩ := bind_eq_ok.mp h
  obtain ⟨slug, hslug, h⟩ := bind_eq_ok.mp h
  obtain ⟨name, hname, h⟩ := bind_eq_ok.mp h
  obtain ⟨version, hversion, h⟩ := bind_eq_ok.mp h
  obtain ⟨time, htime, h⟩ := bind_eq_ok.mp h
  obtain ⟨image, himage, h⟩ := bind_eq_ok.mp h
  obtain ⟨ref, href, h⟩ := bind_eq_ok.mp h
  cases h
  exact
    { id := (readChecked_ok.mp hid).1
      serverSlug := (readChecked_ok.mp hslug).1
      engineName := hname
      engineVersion := hversion
      grade := readGrade_ok.mp hgrade
      scannedAt := htime
      sandboxImage := himage
      reportRef := href }

theorem readable_of_ok (h : rowToScan py interp row = .ok record) : Readable py interp row := by
  rw [rowToScan] at h
  obtain ⟨⟨risk, findings⟩, hrisk, h⟩ := bind_eq_ok.mp h
  obtain ⟨level, hlevel, h⟩ := bind_eq_ok.mp h
  obtain ⟨evidence, hevidence, h⟩ := bind_eq_ok.mp h
  obtain ⟨grade, hgrade, h⟩ := bind_eq_ok.mp h
  obtain ⟨id, hid, h⟩ := bind_eq_ok.mp h
  obtain ⟨slug, hslug, h⟩ := bind_eq_ok.mp h
  obtain ⟨name, hname, h⟩ := bind_eq_ok.mp h
  obtain ⟨version, hversion, h⟩ := bind_eq_ok.mp h
  obtain ⟨time, htime, h⟩ := bind_eq_ok.mp h
  obtain ⟨image, himage, h⟩ := bind_eq_ok.mp h
  obtain ⟨ref, href, -⟩ := bind_eq_ok.mp h
  obtain ⟨s, hs, hparsed⟩ := readTime_ok.mp htime
  exact
    { content := readRiskAndFindings_ok.mp ⟨_, hrisk⟩
      evidence := readEvidence_ok.mp ⟨_, hevidence⟩
      transparency := readTransparency_ok.mp ⟨_, hlevel⟩
      grade := ⟨grade, readGrade_ok.mp hgrade⟩
      id := ⟨id, readChecked_ok.mp hid⟩
      serverSlug := ⟨slug, readChecked_ok.mp hslug⟩
      engineName := ⟨name, hname⟩
      engineVersion := ⟨version, hversion⟩
      scannedAt := ⟨s, hs, Option.isSome_iff_exists.mpr ⟨time, hparsed⟩⟩
      sandboxImage := ⟨image, himage⟩
      reportRef := ⟨ref, href⟩ }

theorem ok_of_readable (h : Readable py interp row) : ∃ record, rowToScan py interp row = .ok record := by
  obtain ⟨⟨risk, findings⟩, hrisk⟩ := readRiskAndFindings_ok.mpr h.content
  obtain ⟨level, hlevel⟩ := readTransparency_ok.mpr h.transparency
  obtain ⟨evidence, hevidence⟩ := readEvidence_ok.mpr h.evidence
  obtain ⟨grade, hgrade⟩ := h.grade
  obtain ⟨id, hid⟩ := h.id
  obtain ⟨slug, hslug⟩ := h.serverSlug
  obtain ⟨name, hname⟩ := h.engineName
  obtain ⟨version, hversion⟩ := h.engineVersion
  obtain ⟨s, hs, hparsed⟩ := h.scannedAt
  obtain ⟨time, hparsed⟩ := Option.isSome_iff_exists.mp hparsed
  obtain ⟨image, himage⟩ := h.sandboxImage
  obtain ⟨ref, href⟩ := h.reportRef
  have htime := readTime_ok.mpr ⟨s, hs, hparsed⟩
  simp only [rowToScan, hrisk, hlevel, hevidence, readGrade_ok.mpr hgrade, readChecked_ok.mpr hid,
    readChecked_ok.mpr hslug, hname, hversion, htime, himage, href]
  exact ⟨_, rfl⟩

theorem rowToScan_ok_iff : (∃ record, rowToScan py interp row = .ok record) ↔ Readable py interp row :=
  ⟨fun ⟨_, h⟩ => readable_of_ok h, ok_of_readable⟩

end McpTrust.Store
