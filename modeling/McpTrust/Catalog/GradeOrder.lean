import McpTrust.Catalog.GradeBinding
import McpTrust.Refresh.RunPolicy

/-! # The order of the letters

A summary that is worse in every dimension does not get a better letter. The
scores are compared in exact arithmetic; the cap and what a letter depends on do
not need it and hold of the rounded scores as well.
-/

namespace McpTrust.RuntimeSnapshot

set_option autoImplicit false

open Python

/-! ## The rank of a letter -/

/-- `_ORDER.index(grade)`: a lower index is a better letter. -/
def rank (grade : TrustGrade) : Nat := gradeOrder.idxOf grade

/-- Pointwise comparison of what the rubric weighs, and of the critical findings. -/
structure NoWorse (risk other : ExactRisk) : Prop where
  fileAccess : risk.fileAccess ≤ other.fileAccess
  networkAccess : risk.networkAccess ≤ other.networkAccess
  shellExecution : risk.shellExecution ≤ other.shellExecution
  destructive : risk.destructive ≤ other.destructive
  exfiltration : risk.exfiltration ≤ other.exfiltration
  critical : risk.count .critical ≤ other.count .critical

theorem rank_worse (grade other : TrustGrade) : rank (worse grade other) = max (rank grade) (rank other) := by
  cases grade <;> cases other <;> decide

theorem rank_exactBand_mono {score score' : ℚ} (h : score ≤ score') : rank (exactBand score) ≤ rank (exactBand score') := by
  rw [exactBand_eq score, exactBand_eq score']
  split_ifs <;> first | decide | (exfalso; linarith)

theorem rank_gradeOfScore (critical : Bool) (score : ℚ) :
    rank (gradeOfScore critical score) = if critical then max (rank (exactBand score)) (rank .D) else rank (exactBand score) := by
  cases critical with
  | false => rfl
  | true => exact rank_worse _ _

/-- A higher score and a critical finding can only lower a letter. -/
theorem rank_gradeOfScore_mono {critical critical' : Bool} {score score' : ℚ} (hcritical : critical = true → critical' = true)
    (hscore : score ≤ score') : rank (gradeOfScore critical score) ≤ rank (gradeOfScore critical' score') := by
  have hband := rank_exactBand_mono hscore
  rw [rank_gradeOfScore, rank_gradeOfScore]
  cases critical with
  | false =>
    cases critical' with
    | false => exact hband
    | true => exact hband.trans (le_max_left _ _)
  | true =>
    rw [hcritical rfl]
    exact max_le_max_right _ hband

/-! ## Scores -/

theorem clampScore_mono {p q : ℚ} (h : p ≤ q) : clampScore p ≤ clampScore q :=
  max_le_max_left 0 (min_le_min_left 10 h)

theorem dangerScore_mono {risk other : ExactRisk} (h : NoWorse risk other) : risk.dangerScore ≤ other.dangerScore := by
  obtain ⟨hfile, hnetwork, hshell, hdestructive, hexfiltration, -⟩ := h
  apply clampScore_mono
  simp only [ExactRisk.weightedDimensions, List.map_cons, List.map_nil, List.sum_cons, List.sum_nil]
  linarith

/-- The letter of a summary is one of a score and of whether there is a critical finding. -/
theorem gradeOf_congr {risk other : RiskSummary} (hweighted : weightedDimensions risk = weightedDimensions other)
    (hcritical : 0 < risk.count .critical ↔ 0 < other.count .critical) : gradeOf risk = gradeOf other := by
  have hscore : dangerScore risk = dangerScore other := by
    unfold dangerScore
    rw [hweighted]
  unfold gradeOf
  rw [hscore, if_congr hcritical rfl rfl]

/-- A worse summary gets no better letter, a critical finding caps the letter, and the letter is
a function of the weighted dimensions and of whether there is a critical finding. -/
theorem grading_monotone :
    (∀ risk other : ExactRisk, NoWorse risk other → rank (exactGrade risk) ≤ rank (exactGrade other)) ∧
    (∀ risk : ExactRisk, 0 < risk.count .critical → rank .D ≤ rank (exactGrade risk)) ∧
    (∀ risk : RiskSummary, 0 < risk.count .critical → rank .D ≤ rank (gradeOf risk)) ∧
    (∀ risk other : ExactRisk, risk.weightedDimensions = other.weightedDimensions →
      (0 < risk.count .critical ↔ 0 < other.count .critical) → exactGrade risk = exactGrade other) ∧
    (∀ risk other : RiskSummary, weightedDimensions risk = weightedDimensions other →
      (0 < risk.count .critical ↔ 0 < other.count .critical) → gradeOf risk = gradeOf other) := by
  refine ⟨fun risk other h => ?_, fun risk h => ?_, fun risk h => ?_, fun risk other hweighted hcritical => ?_,
    fun risk other => gradeOf_congr⟩
  · apply rank_gradeOfScore_mono _ (dangerScore_mono h)
    intro hcritical
    exact decide_eq_true ((of_decide_eq_true hcritical).trans_le h.critical)
  · rw [exactGrade, rank_gradeOfScore, decide_eq_true h, if_pos rfl]
    exact le_max_right _ _
  · rw [gradeOf, if_pos h, rank_worse]
    exact le_max_right _ _
  · rw [exactGrade, exactGrade, ExactRisk.dangerScore, hweighted, decide_eq_decide.mpr hcritical]
    rfl

/-- A server that reads files, before and after it can also run commands. -/
def readerRisk : ExactRisk := ⟨5 / 2, 0, 0, 0, 0, [], 1⟩

def shellRisk : ExactRisk := ⟨5 / 2, 0, 9 / 4, 0, 0, [(.critical, 1)], 1⟩

theorem grading_monotone_shell : NoWorse readerRisk shellRisk ∧ exactGrade readerRisk = .B ∧ exactGrade shellRisk = .D ∧
    rank (exactGrade readerRisk) ≤ rank (exactGrade shellRisk) ∧ rank .D ≤ rank (exactGrade shellRisk) := by
  have hworse : NoWorse readerRisk shellRisk :=
    { fileAccess := le_refl _, networkAccess := le_refl _, shellExecution := by norm_num [readerRisk, shellRisk],
      destructive := le_refl _, exfiltration := le_refl _, critical := by decide }
  refine ⟨hworse, by decide +kernel, by decide +kernel, grading_monotone.1 _ _ hworse, ?_⟩
  exact grading_monotone.2.1 shellRisk (by decide)

end McpTrust.RuntimeSnapshot
