import McpTrust.Core.Grading
import McpTrust.Site.Movement
import McpTrust.Site.SpecShift

/-! # The danger score on the public surfaces

The pages show the composite of the engine; the letter, the breakdown, the snapshot
and the receipt come from the weighted dimensions.
-/

namespace McpTrust.Site

set_option autoImplicit false

open Python Store

variable (d : Deployment)

/-! ## The cells -/

def dash : Str := u "—"

/-- The `Danger score` cell of a catalog row. The projection gives every row a freshness state. -/
def catalogCell (row : Dict) : Str :=
  let gradeWithheld := jsonTruthy (getOr row "grade_withheld" (getOr row "masked" (.bool false)))
  let unknown :=
    match Dict.get row "freshness_state" with
    | .str state => decide (state = u FreshnessState.unknown.text)
    | _ => false
  escapeHtml
    (if gradeWithheld || unknown then dash
    else
      match Dict.get row "composite" with
      | .float composite => formatFixed 1 composite
      | _ => dash)

/-- The `Danger score` cell of `render_detail`. -/
def detailCell (server : Server) (record : Option ScanRecord) (unknownScan : Bool) : Except PyErr Str := do
  let freshness ← pageFreshness d record
  let unknown := unknownScan || decide (freshness.map ScanFreshness.state = some .unknown)
  let masked := d.isMasked server.slug && (record.isSome || d.isProved server.slug)
  let composite := (record.map fun record => formatFixed 1 record.risk.composite).getD dash
  .ok (if masked then u "withheld" else if unknown then u "UNKNOWN" else escapeHtml composite ++ u " / 10")

/-- `_dimension_breakdown(record)`: the value, the weight and the product of each dimension. -/
def dimensionBreakdown (risk : RiskSummary) : List (Str × Str × Str) :=
  (weightedDimensions risk).map fun d =>
    (formatFixed 1 d.2, ch '×' :: formatFixed 1 (.ofRat d.1), formatFixed 2 (scaleFloat d.1 d.2))

/-- What the products of the breakdown, as shown, add up to. -/
def breakdownTotal (risk : RiskSummary) : ℚ :=
  ((weightedScores risk).map fun x => fixedValue 2 (x.value?.getD 0)).sum

/-- `danger_score` of the JSON snapshot. -/
def snapshotDangerScore (scan : ScanRecord) : PyFloat := roundFloat 2 (dangerScore scan.risk)

/-- `danger_score` of the scan receipt. -/
def receiptDangerScore (scan : ScanRecord) : PyFloat := dangerScore scan.risk

/-! ## One score -/

/-- The pages show the score that the letter was computed from, as do the snapshot and the receipt. -/
structure ScoreShown (server : Server) (scan : ScanRecord) : Prop where
  catalog : ∀ row, (Listing.mk server (some scan) false).row d = .ok row →
    catalogCell row = formatFixed 1 (receiptDangerScore scan)
  detail : ∀ cell, detailCell d server (some scan) false = .ok cell →
    cell = formatFixed 1 (receiptDangerScore scan) ++ u " / 10"
  snapshot : ∃ score, (receiptDangerScore scan).value? = some score ∧
    Near (snapshotDangerScore scan) score (1 / 200 + ulpBound)
  breakdown : Near (receiptDangerScore scan) (clampScore (breakdownTotal scan.risk)) (26 / 1000)
  letter : band (receiptDangerScore scan) = scan.grade ∨ 0 < scan.risk.count .critical

theorem plain_formatFixed (digits : Nat) (x : PyFloat) : Plain (formatFixed digits x) := by
  have hzeros : ∀ n, Plain (zeros n) := by
    intro n
    apply List.all_eq_true.mpr
    intro c hc
    rw [List.eq_of_mem_replicate hc]
    decide
  have hfixed : ∀ n, Plain (fixedText digits n) := by
    intro n
    have hdot : Plain [ch '.'] := by decide
    exact (plain_natRepr _).append (hdot.append ((hzeros _).append (plain_natRepr _)))
  have hminus : ∀ s, Plain s → Plain (ch '-' :: s) := by
    intro s hs
    have hsign : Plain [ch '-'] := by decide
    exact hsign.append hs
  cases x with
  | finite x =>
    rw [formatFixed]
    split_ifs
    · exact hminus _ (hfixed _)
    · exact hfixed _
  | negZero => exact hminus _ (hfixed _)
  | inf negative =>
    have hinf : Plain (u "inf") := by decide
    have hnegative : Plain (u "-inf") := by decide
    cases negative
    · exact hinf
    · exact hnegative
  | nan =>
    have hnan : Plain (u "nan") := by decide
    exact hnan

section Record

variable {d} {server : Server} {scan : ScanRecord} {freshness : ScanFreshness}
  (hmasked : d.isMasked server.slug = false)
  (hfresh : assessScanFreshness (some scan.scannedAt) d.now true = .ok freshness)
  (hknown : freshness.state ≠ .unknown)

include hknown

/-- A payload of known freshness is the scan's fields under those of its freshness. -/
theorem lookup_readablePayload (key : Str) :
    Dict.lookup (readablePayload d.dumpTime scan freshness false) key =
      (Dict.lookup (freshnessFields scan freshness false) key).or
        (Dict.lookup (scanPayload d.dumpTime scan) key) := by
  have hstate : decide (freshness.state = .unknown) = false := decide_eq_false hknown
  have hnodup : (Dict.keys (freshnessFields scan freshness false)).Nodup := by
    simp [freshnessFields, Dict.keys]
  have hpayload : readablePayload d.dumpTime scan freshness false =
      (scanPayload d.dumpTime scan).update (freshnessFields scan freshness false) := by
    rw [readablePayload, hstate]
    rfl
  rw [hpayload, Dict.lookup_update hnodup]

theorem summary_composite : Dict.get (scanSummary server (readablePayload d.dumpTime scan freshness false) false)
    "composite" = .float scan.risk.composite := by
  have hrisk : Dict.get (readablePayload d.dumpTime scan freshness false) "risk" = riskJson scan.risk := by
    rw [Dict.get, lookup_readablePayload hknown]
    simp [freshnessFields, scanPayload, Dict.lookup_cons]
  simp [scanSummary, Dict.get_cons, hrisk, riskJson]

theorem summary_notWithheld (value : Json) :
    getOr (scanSummary server (readablePayload d.dumpTime scan freshness false) false) "grade_withheld" value =
      .bool false := by
  have hwithheld : getOr (readablePayload d.dumpTime scan freshness false) "grade_withheld" (.bool false) =
      .bool false := by
    rw [getOr, lookup_readablePayload hknown]
    simp [freshnessFields, Dict.lookup_cons, hknown]
  rw [scanSummary, hwithheld]
  simp [getOr, Dict.lookup_cons, jsonTruthy]

theorem summary_freshness : Dict.get (scanSummary server (readablePayload d.dumpTime scan freshness false) false)
    "freshness_state" = text freshness.state.text := by
  have hread : getOr (readablePayload d.dumpTime scan freshness false) "freshness_state"
      (text FreshnessState.unknown.text) = text freshness.state.text := by
    rw [getOr, lookup_readablePayload hknown]
    simp [freshnessFields, Dict.lookup_cons]
  rw [scanSummary, hread]
  simp [Dict.get_cons]

include hmasked hfresh

/-- The catalog cell shows the composite. -/
theorem catalogCell_composite :
    ∃ row, (Listing.mk server (some scan) false).row d = .ok row ∧
      catalogCell row = formatFixed 1 scan.risk.composite := by
  refine ⟨scanSummary server (readablePayload d.dumpTime scan freshness false) false, ?_, ?_⟩
  · unfold Listing.row projectPublicSummary projectPublicScan siteRow
    simp only [hmasked, hfresh, Bool.false_eq_true, if_false, Option.isNone_some, Bool.and_false]
    rfl
  · have hnotUnknown : decide (u freshness.state.text = u FreshnessState.unknown.text) = false := by
      cases hcase : freshness.state with
      | unknown => exact absurd hcase hknown
      | _ => decide
    unfold catalogCell
    simp only [summary_notWithheld hknown, summary_freshness hknown, summary_composite hknown, text, hnotUnknown,
      jsonTruthy, Bool.or_false, Bool.false_eq_true, if_false]
    exact escapeHtml_plain (plain_formatFixed 1 _)

/-- The detail cell shows the composite. -/
theorem detailCell_composite :
    detailCell d server (some scan) false = .ok (formatFixed 1 scan.risk.composite ++ u " / 10") := by
  have hstate : decide (some freshness.state = some FreshnessState.unknown) = false := by
    apply decide_eq_false
    rw [Option.some.injEq]
    exact hknown
  have hpage : pageFreshness d (some scan) = .ok (some freshness) := by
    rw [pageFreshness, hfresh]
    rfl
  unfold detailCell
  rw [hpage]
  simp only [bind, Except.bind, Option.map_some, hstate, hmasked, Bool.false_and, Bool.false_or,
    Bool.false_eq_true, if_false, Option.getD_some]
  rw [escapeHtml_plain (plain_formatFixed 1 _)]

theorem ScoreShown.same_text (h : ScoreShown d server scan) :
    formatFixed 1 scan.risk.composite = formatFixed 1 (dangerScore scan.risk) := by
  obtain ⟨row, hrow, hcell⟩ := catalogCell_composite hmasked hfresh hknown
  exact hcell.symm.trans (h.catalog row hrow)

end Record

/-- The band of the score is the letter, unless a critical finding caps it. -/
theorem band_gradeOf (risk : RiskSummary) : band (dangerScore risk) = gradeOf risk ∨ 0 < risk.count .critical := by
  unfold gradeOf
  by_cases hcritical : 0 < risk.count .critical
  · exact .inr hcritical
  · rw [if_neg hcritical]
    exact .inl rfl

theorem abs_clampScore_le (q : ℚ) : |clampScore q| ≤ 255 := by
  have hlow : 0 ≤ clampScore q := le_max_left _ _
  have hhigh : clampScore q ≤ 10 := max_le (by norm_num) (min_le_left _ _)
  rw [abs_of_nonneg hlow]
  linarith

/-- The displayed score is the published one exactly where the composite and the danger score round to
one tenth. -/
theorem danger_score_shown_iff (d : Deployment) (server : Server) (scan : ScanRecord) (freshness : ScanFreshness)
    (hrange : scan.risk.InRange) (hgrade : scan.grade = gradeOf scan.risk)
    (hmasked : d.isMasked server.slug = false)
    (hfresh : assessScanFreshness (some scan.scannedAt) d.now true = .ok freshness)
    (hknown : freshness.state ≠ .unknown) :
    ScoreShown d server scan ↔ formatFixed 1 scan.risk.composite = formatFixed 1 (dangerScore scan.risk) := by
  refine ⟨fun h => h.same_text hmasked hfresh hknown, fun hsame => ?_⟩
  have hlisted : ∃ row, (Listing.mk server (some scan) false).row d = .ok row ∧
      catalogCell row = formatFixed 1 scan.risk.composite :=
    catalogCell_composite hmasked hfresh hknown
  obtain ⟨row, hrow, hcell⟩ := hlisted
  have hdetail : detailCell d server (some scan) false = .ok (formatFixed 1 scan.risk.composite ++ u " / 10") :=
    detailCell_composite hmasked hfresh hknown
  obtain ⟨exact, hexact⟩ := weightedScores_values hrange
  obtain ⟨raw, hraw, -⟩ := near_sumFloats hexact (le_refl 5)
  have hscore := dangerScore_value hraw
  constructor
  · intro other hother
    rw [hrow, Except.ok.injEq] at hother
    rw [← hother, hcell, hsame]
    rfl
  · intro cell hcell
    rw [hdetail, Except.ok.injEq] at hcell
    rw [← hcell, hsame]
    rfl
  · refine ⟨clampScore raw, hscore, (near_roundFloat hscore (abs_clampScore_le raw) 2).mono ?_⟩
    norm_num
  · exact dangerScore_shown hrange
  · rw [hgrade]
    exact band_gradeOf scan.risk

/-! ## A composite far from the score -/

def broadRisk (composite : ℚ) : RiskSummary where
  composite := .ofRat composite
  fileAccess := .ofRat 0
  networkAccess := .ofRat 0
  shellExecution := .ofRat 0
  destructive := .ofRat 0
  exfiltration := .ofRat 0
  findingsBySeverity := []
  annotationCoverage := .ofRat 1

def broadScan (composite : ℚ) : ScanRecord where
  id := u "s"
  serverSlug := u "a"
  engineName := u "mcpaudit"
  engineVersion := u "1.0"
  grade := .A
  transparency := .high
  risk := broadRisk composite
  findings := []
  evidence := none
  scannedAt := ⟨63902908800000000, some 0, sampleTime.inRange⟩
  sandboxImage := none
  reportRef := none

def openDeployment : Deployment := { reviewedDeployment with masked := [] }

theorem broad_fresh (composite : ℚ) : ∃ freshness,
    assessScanFreshness (some (broadScan composite).scannedAt) openDeployment.now true = .ok freshness ∧
      freshness.state ≠ .unknown := by
  have hfresh : (match assessScanFreshness (some ⟨63902908800000000, some 0, sampleTime.inRange⟩) openDeployment.now true with
      | .ok freshness => decide (freshness.state ≠ .unknown)
      | .error _ => false) = true := by
    decide +kernel
  cases hassess : assessScanFreshness (some ⟨63902908800000000, some 0, sampleTime.inRange⟩) openDeployment.now true with
  | ok freshness =>
    rw [hassess] at hfresh
    exact ⟨freshness, hassess, of_decide_eq_true hfresh⟩
  | error e =>
    rw [hassess] at hfresh
    cases hfresh

theorem broad_inRange {composite : ℚ} (h : Scored (.ofRat composite)) : (broadRisk composite).InRange := by
  have hzero : Scored (.ofRat 0) := ⟨0, value_zero, le_refl 0, by norm_num⟩
  constructor
  · simp only [broadRisk]
    exact h
  all_goals
    simp only [broadRisk]
    exact hzero

theorem danger_score_shown_sample :
    ∃ freshness, assessScanFreshness (some (broadScan 0).scannedAt) openDeployment.now true = .ok freshness ∧
      (ScoreShown openDeployment reviewedServer (broadScan 0) ↔
        formatFixed 1 (broadScan 0).risk.composite = formatFixed 1 (dangerScore (broadScan 0).risk)) := by
  obtain ⟨freshness, hfresh, hknown⟩ := broad_fresh 0
  have hgrade : (broadScan 0).grade = gradeOf (broadScan 0).risk := by decide +kernel
  exact ⟨freshness, hfresh, danger_score_shown_iff openDeployment reviewedServer (broadScan 0) freshness
    (broad_inRange ⟨0, value_zero, le_refl 0, by norm_num⟩) hgrade rfl hfresh hknown⟩

/-- The page shows 8.6 where the score is 0.0. -/
theorem broad_not_shown :
    (broadScan (43 / 5)).grade = gradeOf (broadScan (43 / 5)).risk ∧
      ¬ScoreShown openDeployment reviewedServer (broadScan (43 / 5)) := by
  refine ⟨by decide +kernel, fun h => ?_⟩
  obtain ⟨freshness, hfresh, hknown⟩ := broad_fresh (43 / 5)
  have hsame := h.same_text rfl hfresh hknown
  have hdiffer : formatFixed 1 (broadScan (43 / 5)).risk.composite ≠
      formatFixed 1 (dangerScore (broadScan (43 / 5)).risk) := by
    decide +kernel
  exact hdiffer hsame

end McpTrust.Site
