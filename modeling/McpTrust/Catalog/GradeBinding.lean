import McpTrust.Core.Grading
import McpTrust.Core.PublicProjection
import McpTrust.Catalog.RuntimeSnapshot

/-! # Letters and rounded scores

The producer grades a score and publishes it rounded to two decimals; admission
grades both ends of the half-cent around what was published. Here both are read
in exact arithmetic.
-/

namespace McpTrust.RuntimeSnapshot

set_option autoImplicit false

open Python

/-! ## The rubric in exact arithmetic -/

/-- The parts of a risk summary that the rubric reads. -/
structure ExactRisk where
  fileAccess : ℚ
  networkAccess : ℚ
  shellExecution : ℚ
  destructive : ℚ
  exfiltration : ℚ
  findingsBySeverity : List (Severity × ℤ)
  annotationCoverage : ℚ

namespace ExactRisk

/-- `risk.count(severity)`. -/
def count (risk : ExactRisk) (severity : Severity) : ℤ :=
  ((risk.findingsBySeverity.find? fun entry => decide (entry.1 = severity)).map Prod.snd).getD 0

/-- `_DIM_WEIGHTS`, with the value of each dimension. -/
def weightedDimensions (risk : ExactRisk) : List (ℚ × ℚ) :=
  [(12 / 10, risk.fileAccess), (1, risk.networkAccess), (2, risk.shellExecution),
    (3 / 10, risk.destructive), (4 / 10, risk.exfiltration)]

/-- `danger_score(risk)`. -/
def dangerScore (risk : ExactRisk) : ℚ := clampScore (risk.weightedDimensions.map fun d => d.1 * d.2).sum

/-- The bounds that the model of a risk summary checks. -/
structure InRange (risk : ExactRisk) : Prop where
  dimensions : ∀ d ∈ risk.weightedDimensions, 0 ≤ d.2 ∧ d.2 ≤ 10
  coverage : 0 ≤ risk.annotationCoverage ∧ risk.annotationCoverage ≤ 1

end ExactRisk

/-- `_band(score)`. -/
def exactBand (score : ℚ) : TrustGrade :=
  ((gradeBands.find? fun entry => decide (score ≤ entry.1)).map Prod.snd).getD .F

/-- The grade of a score, capped when there is a critical finding. -/
def gradeOfScore (critical : Bool) (score : ℚ) : TrustGrade :=
  if critical then worse (exactBand score) .D else exactBand score

/-- `grade(risk)`. -/
def exactGrade (risk : ExactRisk) : TrustGrade :=
  gradeOfScore (decide (0 < risk.count .critical)) risk.dangerScore

/-- `transparency(risk)`. -/
def exactTransparency (risk : ExactRisk) : TransparencyLevel :=
  if 7 / 10 ≤ risk.annotationCoverage then .high
  else if 3 / 10 ≤ risk.annotationCoverage then .medium else .low

/-! ## Admission in exact arithmetic -/

/-- `_transparency_band(coverage)`. -/
def exactTransparencyBand (coverage : ℚ) : String :=
  if 7 / 10 ≤ coverage then "high" else if 3 / 10 ≤ coverage then "medium" else "low"

def exactGradeCandidates (findings : Json) (danger : ℚ) : List String :=
  let candidates := [dangerBand (max 0 (danger - 5 / 1000)), dangerBand (min 10 (danger + 5 / 1000))]
  if hasCritical findings then candidates.map capCritical else candidates

def exactTransparencyCandidates (coverage : ℚ) : List String :=
  [exactTransparencyBand (max 0 (coverage - 5 / 1000)), exactTransparencyBand (min 1 (coverage + 5 / 1000))]

/-- `_validate_grade_binding(server, reasons)` of a record whose `danger_score` and
`annotation_coverage` are these numbers. -/
def exactGradeBinding (server : Dict) (danger coverage : ℚ) : List String :=
  let grade := Dict.get server "grade"
  let transparency := Dict.get server "transparency"
  (if supportedString grade grades && decide (0 ≤ danger ∧ danger ≤ 10) then
    reason (!supportedString grade (exactGradeCandidates (Dict.get server "findings") danger))
      "GRADE_DANGER_MISMATCH"
  else []) ++
  (if supportedString transparency transparencyLevels && decide (0 ≤ coverage ∧ coverage ≤ 1) then
    reason (!supportedString transparency (exactTransparencyCandidates coverage))
      "TRANSPARENCY_COVERAGE_MISMATCH"
  else [])

/-- A finding as a snapshot publishes it. -/
def publishedFinding (finding : Finding) : Json :=
  .obj
    [(u "rule_id", .str finding.ruleId), (u "title", .str finding.title),
      (u "severity", .str (u (severityText finding.severity))), (u "category", .str finding.category)]

/-- The producer's record of a risk summary and its findings, apart from its two numbers. -/
structure PublishesRisk (server : Dict) (risk : ExactRisk) (findings : List Finding) : Prop where
  grade : Dict.get server "grade" = .str (u (exactGrade risk).text)
  transparency : Dict.get server "transparency" = .str (u (exactTransparency risk).text)
  published : Dict.get server "findings" = .arr (findings.map publishedFinding)
  critical : risk.count .critical = findings.countP fun finding => decide (finding.severity = .critical)

/-! ## The two rubrics agree -/

theorem exactBand_eq (score : ℚ) : exactBand score =
    if score ≤ 2 then .A else if score ≤ 7 / 2 then .B else if score ≤ 5 then .C
    else if score ≤ 15 / 2 then .D else .F := by
  simp only [exactBand, gradeBands, List.find?_cons, List.find?_nil]
  split_ifs with hA hB hC hD <;> simp [*]

theorem leFloat_value {a b : PyFloat} {p q : ℚ} (ha : a.value? = some p) (hb : b.value? = some q) :
    leFloat a b = decide (p ≤ q) := by
  cases a with
  | nan => cases ha
  | inf s => cases ha
  | finite x => cases b <;> simp_all [leFloat, PyFloat.value?]
  | negZero => cases b <;> simp_all [leFloat, PyFloat.value?]

/-- The exact band of a finite float is the band of the rubric. -/
theorem band_eq_exact {score : PyFloat} {q : ℚ} (h : score.value? = some q) : band score = exactBand q := by
  have hbounds : ∀ entry ∈ gradeBands, (PyFloat.ofRat entry.1).value? = some entry.1 := by decide +kernel
  rw [band, exactBand]
  refine congrArg (fun found : Option (ℚ × TrustGrade) => (found.map Prod.snd).getD TrustGrade.F) ?_
  exact List.find?_congr fun entry hentry => leFloat_value h (hbounds entry hentry)

theorem exactBand_mem (score : ℚ) : exactBand score ∈ gradeOrder := by
  rw [exactBand_eq]
  split_ifs <;> decide

theorem dangerBand_eq (score : ℚ) : dangerBand score = (exactBand score).text := by
  rw [dangerBand, exactBand_eq]
  split_ifs <;> rfl

/-- The two ways of capping a letter. -/
theorem capCritical_text : ∀ grade ∈ gradeOrder, capCritical grade.text = (worse grade .D).text := by
  decide

theorem candidate_eq (critical : Bool) (score : ℚ) :
    (if critical then capCritical (dangerBand score) else dangerBand score) = (gradeOfScore critical score).text := by
  rw [dangerBand_eq, gradeOfScore]
  cases critical with
  | false => rfl
  | true => exact capCritical_text _ (exactBand_mem score)

theorem exactGradeCandidates_eq (findings : Json) (danger : ℚ) : exactGradeCandidates findings danger =
    [(gradeOfScore (hasCritical findings) (max 0 (danger - 5 / 1000))).text,
      (gradeOfScore (hasCritical findings) (min 10 (danger + 5 / 1000))).text] := by
  rw [← candidate_eq, ← candidate_eq, exactGradeCandidates]
  cases hasCritical findings <;> rfl

/-- A finding of a published list is critical if and only if it was. -/
theorem hasCritical_published (findings : List Finding) :
    hasCritical (.arr (findings.map publishedFinding)) =
      decide (0 < findings.countP fun finding => decide (finding.severity = .critical)) := by
  rw [hasCritical, List.any_map, Bool.eq_iff_iff, List.any_eq_true, decide_eq_true_eq, List.countP_pos_iff]
  refine exists_congr fun finding => and_congr_right fun _ => ?_
  simp only [Function.comp_apply, publishedFinding, decide_eq_true_eq]
  cases finding.severity <;> simp [Dict.get_cons, Json.isStr, severityText]

/-! ## A short interval meets one band edge -/

theorem exactBand_between {lo score hi : ℚ} (hlo : lo ≤ score) (hhi : score ≤ hi) (hshort : hi - lo ≤ 1) :
    exactBand score = exactBand lo ∨ exactBand score = exactBand hi := by
  rw [exactBand_eq score, exactBand_eq lo, exactBand_eq hi]
  grind

theorem exactTransparencyBand_between {lo coverage hi : ℚ} (hlo : lo ≤ coverage) (hhi : coverage ≤ hi)
    (hshort : hi - lo ≤ 1 / 10) :
    exactTransparencyBand coverage = exactTransparencyBand lo ∨
      exactTransparencyBand coverage = exactTransparencyBand hi := by
  unfold exactTransparencyBand
  grind

theorem ends_of_near {bound rounded score : ℚ} (hlo : 0 ≤ score) (hhi : score ≤ bound)
    (hnear : |rounded - score| ≤ 5 / 1000) :
    max 0 (rounded - 5 / 1000) ≤ score ∧ score ≤ min bound (rounded + 5 / 1000) ∧
      min bound (rounded + 5 / 1000) - max 0 (rounded - 5 / 1000) ≤ 1 / 100 := by
  obtain ⟨hbelow, habove⟩ := abs_le.mp hnear
  refine ⟨max_le hlo (by linarith), le_min hhi (by linarith), ?_⟩
  linarith [min_le_right bound (rounded + 5 / 1000), le_max_right 0 (rounded - 5 / 1000)]

theorem gradeOfScore_between (critical : Bool) {danger score : ℚ} (hlo : 0 ≤ score) (hhi : score ≤ 10)
    (hnear : |danger - score| ≤ 5 / 1000) :
    gradeOfScore critical score = gradeOfScore critical (max 0 (danger - 5 / 1000)) ∨
      gradeOfScore critical score = gradeOfScore critical (min 10 (danger + 5 / 1000)) := by
  obtain ⟨hbelow, habove, hshort⟩ := ends_of_near hlo hhi hnear
  simp only [gradeOfScore]
  obtain h | h := exactBand_between hbelow habove (hshort.trans (by norm_num))
  · exact .inl (by rw [h])
  · exact .inr (by rw [h])

theorem fixedValue_two_near (q : ℚ) : |fixedValue 2 q - q| ≤ 5 / 1000 :=
  (fixedValue_near 2 q).trans (by norm_num)

theorem clampScore_mem (q : ℚ) : 0 ≤ clampScore q ∧ clampScore q ≤ 10 :=
  ⟨le_max_left _ _, max_le (by norm_num) (min_le_left _ _)⟩

theorem exactTransparency_text (risk : ExactRisk) :
    (exactTransparency risk).text = exactTransparencyBand risk.annotationCoverage := by
  rw [exactTransparency, exactTransparencyBand]
  split_ifs <;> rfl

theorem supportedString_of_mem {name : String} {allowed : List String} (h : name ∈ allowed) :
    supportedString (.str (u name)) allowed = true :=
  List.any_eq_true.mpr ⟨name, h, Json.isStr_eq_true.mpr rfl⟩

/-! ## Both directions -/

theorem PublishesRisk.grade_supported {server : Dict} {risk : ExactRisk} {findings : List Finding}
    (h : PublishesRisk server risk findings) :
    supportedString (Dict.get server "grade")
      (exactGradeCandidates (Dict.get server "findings") (fixedValue 2 risk.dangerScore)) = true := by
  have hcritical : hasCritical (Dict.get server "findings") = decide (0 < risk.count .critical) := by
    rw [h.published, hasCritical_published, h.critical]
    simp only [Nat.cast_pos]
  have hscore : 0 ≤ risk.dangerScore ∧ risk.dangerScore ≤ 10 := clampScore_mem _
  rw [h.grade, exactGradeCandidates_eq, hcritical, exactGrade]
  refine supportedString_of_mem ?_
  rw [List.mem_pair]
  obtain hlo | hhi := gradeOfScore_between (decide (0 < risk.count .critical)) hscore.1 hscore.2
    (fixedValue_two_near risk.dangerScore)
  · exact .inl (congrArg TrustGrade.text hlo)
  · exact .inr (congrArg TrustGrade.text hhi)

theorem PublishesRisk.transparency_supported {server : Dict} {risk : ExactRisk} {findings : List Finding}
    (h : PublishesRisk server risk findings) (hrange : risk.InRange) :
    supportedString (Dict.get server "transparency")
      (exactTransparencyCandidates (fixedValue 2 risk.annotationCoverage)) = true := by
  obtain ⟨hbelow, habove, hshort⟩ := ends_of_near hrange.coverage.1 hrange.coverage.2
    (fixedValue_two_near risk.annotationCoverage)
  rw [h.transparency, exactTransparency_text, exactTransparencyCandidates]
  refine supportedString_of_mem ?_
  rw [List.mem_pair]
  exact exactTransparencyBand_between hbelow habove (hshort.trans (by norm_num))

/-- A letter that is among the candidates is the grade of one end of the half-cent interval. -/
theorem score_of_candidate {grade findings : Json} {danger : ℚ} (hlo : 0 ≤ danger) (hhi : danger ≤ 10)
    (h : supportedString grade (exactGradeCandidates findings danger) = true) :
    ∃ score, 0 ≤ score ∧ score ≤ 10 ∧ |score - danger| ≤ 5 / 1000 ∧
      grade = .str (u (gradeOfScore (hasCritical findings) score).text) := by
  rw [exactGradeCandidates_eq] at h
  obtain ⟨name, hname, hgrade⟩ := List.any_eq_true.mp h
  have hvalue := Json.isStr_eq_true.mp hgrade
  obtain rfl | rfl := List.mem_pair.mp hname
  · refine ⟨_, le_max_left _ _, max_le (by norm_num) (by linarith), ?_, hvalue⟩
    rw [abs_le]
    constructor
    · linarith [le_max_right 0 (danger - 5 / 1000)]
    · linarith [max_le hlo (by linarith : danger - 5 / 1000 ≤ danger)]
  · refine ⟨_, le_min (by norm_num) (by linarith), min_le_left _ _, ?_, hvalue⟩
    rw [abs_le]
    constructor
    · linarith [le_min hhi (by linarith : danger ≤ danger + 5 / 1000)]
    · linarith [min_le_right 10 (danger + 5 / 1000)]

/-- In exact arithmetic the binding accepts every honest record, and a record it accepts has the
grade of a score within half a cent of the published one. -/
theorem gradeBinding_exact :
    (∀ server risk findings, risk.InRange → PublishesRisk server risk findings →
      exactGradeBinding server (fixedValue 2 risk.dangerScore) (fixedValue 2 risk.annotationCoverage) = []) ∧
    (∀ server danger coverage, supportedString (Dict.get server "grade") grades = true →
      0 ≤ danger → danger ≤ 10 → "GRADE_DANGER_MISMATCH" ∉ exactGradeBinding server danger coverage →
        ∃ score, 0 ≤ score ∧ score ≤ 10 ∧ |score - danger| ≤ 5 / 1000 ∧
          Dict.get server "grade" =
            .str (u (gradeOfScore (hasCritical (Dict.get server "findings")) score).text)) := by
  constructor
  · intro server risk findings hrange h
    simp only [exactGradeBinding, h.grade_supported, h.transparency_supported hrange, Bool.not_true, reason,
      Bool.false_eq_true, if_false, ite_self, List.append_nil]
  · intro server danger coverage hsupported hlo hhi h
    refine score_of_candidate hlo hhi (Bool.not_eq_false _ |>.mp fun hfalse => h ?_)
    have hcondition : (supportedString (Dict.get server "grade") grades &&
        decide (0 ≤ danger ∧ danger ≤ 10)) = true := by
      rw [hsupported, decide_eq_true ⟨hlo, hhi⟩]
      rfl
    refine List.mem_append_left _ ?_
    rw [if_pos hcondition, hfalse]
    exact List.mem_singleton_self _

/-- A server with no risk, as it is published. -/
def harmlessServer : Dict :=
  [(u "grade", .str (u "A")), (u "transparency", .str (u "high")), (u "findings", .arr [])]

theorem gradeBinding_exact_harmless :
    exactGradeBinding harmlessServer (fixedValue 2 (ExactRisk.mk 0 0 0 0 0 [] 1).dangerScore) (fixedValue 2 1) = [] ∧
      ∃ score, 0 ≤ score ∧ score ≤ 10 ∧ |score - (0 : ℚ)| ≤ 5 / 1000 ∧
        Dict.get harmlessServer "grade" =
          .str (u (gradeOfScore (hasCritical (Dict.get harmlessServer "findings")) score).text) := by
  have hrange : (ExactRisk.mk 0 0 0 0 0 [] 1).InRange := ⟨by simp [ExactRisk.weightedDimensions], by norm_num⟩
  have hpublished : PublishesRisk harmlessServer (ExactRisk.mk 0 0 0 0 0 [] 1) [] :=
    { grade := Json.isStr_eq_true.mp (by decide +kernel)
      transparency := Json.isStr_eq_true.mp (by decide +kernel)
      published := rfl
      critical := rfl }
  have haccepted : "GRADE_DANGER_MISMATCH" ∉ exactGradeBinding harmlessServer 0 1 := by decide +kernel
  exact ⟨gradeBinding_exact.1 _ _ _ hrange hpublished,
    gradeBinding_exact.2 harmlessServer 0 1 (by decide) le_rfl (by norm_num) haccepted⟩

end McpTrust.RuntimeSnapshot
