import McpTrust.Python.FixedPoint
import McpTrust.Core.Drift
import McpTrust.Core.Governance

/-! # Grades

`grade` bands the danger score and caps it at a critical finding. The score stays
close to the exact sum of the weighted dimensions.
-/

namespace McpTrust

set_option autoImplicit false

open Python

/-! ## The rubric -/

/-- `a <= b`. -/
def leFloat (a b : PyFloat) : Bool :=
  match a, b with
  | .nan, _ | _, .nan => false
  | .inf s, .inf t => s || !t
  | .inf s, _ => s
  | _, .inf t => !t
  | a, b => decide (a.value?.getD 0 ≤ b.value?.getD 0)

/-- `_BANDS`. -/
def gradeBands : List (ℚ × TrustGrade) := [(2, .A), (7 / 2, .B), (5, .C), (15 / 2, .D)]

/-- `_band(score)`. -/
def band (score : PyFloat) : TrustGrade :=
  ((gradeBands.find? fun entry => leFloat score (.ofRat entry.1)).map Prod.snd).getD .F

/-- `_ORDER`. -/
def gradeOrder : List TrustGrade := [.A, .B, .C, .D, .F]

/-- `_worse(a, b)`. -/
def worse (a b : TrustGrade) : TrustGrade := if gradeOrder.idxOf b ≤ gradeOrder.idxOf a then a else b

/-- `risk.count(severity)`. -/
def RiskSummary.count (risk : RiskSummary) (severity : Severity) : ℤ :=
  ((risk.findingsBySeverity.find? fun entry => decide (entry.1 = severity)).map Prod.snd).getD 0

/-- `grade(risk)`. -/
def gradeOf (risk : RiskSummary) : TrustGrade :=
  let banded := band (dangerScore risk)
  if 0 < risk.count .critical then worse banded .D else banded

/-- A field with `ge=0` and `le=10`. -/
def Scored (x : PyFloat) : Prop := ∃ q, x.value? = some q ∧ 0 ≤ q ∧ q ≤ 10

/-- The bounds that the model of a risk summary checks. -/
structure RiskSummary.InRange (risk : RiskSummary) : Prop where
  composite : Scored risk.composite
  fileAccess : Scored risk.fileAccess
  networkAccess : Scored risk.networkAccess
  shellExecution : Scored risk.shellExecution
  destructive : Scored risk.destructive
  exfiltration : Scored risk.exfiltration

/-- The products that `danger_score` sums. -/
def weightedScores (risk : RiskSummary) : List PyFloat :=
  (weightedDimensions risk).map fun d => scaleFloat d.1 d.2

/-- `max(0.0, min(10.0, raw))` of a rational. -/
def clampScore (q : ℚ) : ℚ := max 0 (min 10 q)

/-! ## The error of a sum -/

theorem near_addFloat {a b : PyFloat} {p q : ℚ} (ha : a.value? = some p) (hb : b.value? = some q)
    (h : |p + q| ≤ 256) : Near (addFloat a b) (p + q) ulpBound := by
  have hsum := near_ofRat h
  cases a with
  | finite x =>
    cases ha
    cases b with
    | finite y =>
      cases hb
      exact hsum
    | negZero =>
      cases hb
      exact hsum
    | _ => cases hb
  | negZero =>
    cases ha
    cases b with
    | finite y =>
      cases hb
      exact hsum
    | negZero =>
      cases hb
      refine ⟨0, rfl, ?_⟩
      norm_num [ulpBound]
    | _ => cases hb
  | _ => cases ha

theorem near_negFloat {x : PyFloat} {q : ℚ} (hx : x.value? = some q) (h : |q| ≤ 256) :
    Near (negFloat x) (-q) ulpBound := by
  have hzero : (0 : ℚ) ≤ ulpBound := by norm_num [ulpBound]
  cases x with
  | finite x =>
    cases hx
    rw [negFloat]
    by_cases hval : x.val = 0
    · rw [if_pos hval, hval]
      exact ⟨0, rfl, by simpa using hzero⟩
    · rw [if_neg hval]
      exact near_ofRat (by rwa [abs_neg])
  | negZero =>
    cases hx
    rw [neg_zero]
    exact near_ofRat (by norm_num)
  | _ => cases hx

theorem near_subFloat {a b : PyFloat} {p q : ℚ} (ha : a.value? = some p) (hb : b.value? = some q)
    (hq : |q| ≤ 256) (h : |p - q| ≤ 255) : Near (subFloat a b) (p - q) (2 * ulpBound) := by
  obtain ⟨r, hr, hneg⟩ := near_negFloat hb hq
  have hunit : ulpBound ≤ 1 := by norm_num [ulpBound]
  rw [abs_le] at hneg h
  have hmoderate : |p + r| ≤ 256 := by
    rw [abs_le]
    constructor <;> linarith
  obtain ⟨s, hs, hadd⟩ := near_addFloat ha hr hmoderate
  refine ⟨s, hs, ?_⟩
  rw [abs_le] at hadd ⊢
  constructor <;> linarith

/-- The rounding error of one addition is small, and so is what the sum computes of it. -/
theorem near_error {a b total : PyFloat} {p q t : ℚ} (ha : a.value? = some p) (hb : b.value? = some q)
    (htotal : total.value? = some t) (hnear : |t - (p + q)| ≤ ulpBound) (hp : |p| ≤ 100) (hq : |q| ≤ 100) :
    Near (addFloat (subFloat a total) b) 0 (4 * ulpBound) := by
  have hunit : ulpBound ≤ 1 := by norm_num [ulpBound]
  rw [abs_le] at hnear hp hq
  have htmoderate : |t| ≤ 256 := by
    rw [abs_le]
    constructor <;> linarith
  have hdifference : |p - t| ≤ 255 := by
    rw [abs_le]
    constructor <;> linarith
  obtain ⟨s, hs, hsub⟩ := near_subFloat ha htotal htmoderate hdifference
  rw [abs_le] at hsub
  have hmoderate : |s + q| ≤ 256 := by
    rw [abs_le]
    constructor <;> linarith
  obtain ⟨r, hr, hadd⟩ := near_addFloat hs hb hmoderate
  refine ⟨r, hr, ?_⟩
  rw [abs_le] at hadd ⊢
  constructor <;> linarith

/-- The compensated sum is near the exact one; `low` is small from the start. -/
theorem near_compensatedSum {values : List PyFloat} {exact : List ℚ}
    (hvalues : List.Forall₂ (fun x q => x.value? = some q ∧ 0 ≤ q ∧ q ≤ 21) values exact)
    {high low : PyFloat} {h l : ℚ} (hhigh : high.value? = some h) (hlow : low.value? = some l)
    (hsize : |h| + 22 * values.length ≤ 120) (hsmall : |l| + 5 * values.length * ulpBound ≤ 1 / 2) :
    Near (compensatedSum high low values) (h + exact.sum) (|l| + (6 * values.length + 1) * ulpBound) := by
  induction hvalues generalizing high low h l with
  | nil =>
    simp only [List.length_nil, Nat.cast_zero, mul_zero, zero_mul, add_zero] at hsize hsmall
    rw [List.sum_nil, add_zero, List.length_nil, Nat.cast_zero, mul_zero, zero_add, one_mul]
    have hunit : ulpBound ≤ 1 := by norm_num [ulpBound]
    have hpos : (0 : ℚ) ≤ ulpBound := by norm_num [ulpBound]
    unfold compensatedSum
    by_cases hused : (low.isFinite && decide (low.value? ≠ some 0)) = true
    · rw [if_pos hused]
      have hmoderate : |h + l| ≤ 256 := by
        have htriangle := abs_add_le h l
        linarith
      obtain ⟨r, hr, hadd⟩ := near_addFloat hhigh hlow hmoderate
      refine ⟨r, hr, ?_⟩
      calc |r - h| = |(r - (h + l)) + l| := by ring_nf
        _ ≤ |r - (h + l)| + |l| := abs_add_le _ _
        _ ≤ |l| + ulpBound := by linarith
    · rw [if_neg hused]
      refine ⟨h, hhigh, ?_⟩
      rw [sub_self, abs_zero]
      positivity
  | @cons x q values exact hx hrest ih =>
    obtain ⟨hq, hnonneg, hle⟩ := hx
    rw [List.length_cons, Nat.cast_succ] at hsize hsmall ⊢
    have hunit : ulpBound ≤ 1 / 10 := by norm_num [ulpBound]
    have hpos : (0 : ℚ) ≤ ulpBound := by norm_num [ulpBound]
    have hcount : (0 : ℚ) ≤ values.length := Nat.cast_nonneg _
    have habs : |q| = q := abs_of_nonneg hnonneg
    have hh : |h| ≤ 100 := by linarith
    have hmoderate : |h + q| ≤ 256 := by
      have htriangle := abs_add_le h q
      linarith
    obtain ⟨t, ht, htotal⟩ := near_addFloat hhigh hq hmoderate
    have herror : Near
        (if ltFloat (absFloat high) (absFloat x) then addFloat (subFloat x (addFloat high x)) high
          else addFloat (subFloat high (addFloat high x)) x) 0 (4 * ulpBound) := by
      split_ifs
      · exact near_error hq hhigh ht (by rwa [add_comm q h]) (by linarith) hh
      · exact near_error hhigh hq ht htotal hh (by linarith)
    obtain ⟨e, he, herror⟩ := herror
    rw [sub_zero] at herror
    have hlowModerate : |l + e| ≤ 256 := by
      have htriangle := abs_add_le l e
      have hproduct : 0 ≤ 5 * ((values.length : ℚ) + 1) * ulpBound := by positivity
      linarith
    obtain ⟨l', hl', hcarried⟩ := near_addFloat hlow he hlowModerate
    have hl'le : |l'| ≤ |l| + 5 * ulpBound := by
      calc |l'| = |(l' - (l + e)) + (l + e)| := by rw [sub_add_cancel]
        _ ≤ |l' - (l + e)| + |l + e| := abs_add_le _ _
        _ ≤ |l' - (l + e)| + (|l| + |e|) := by linarith [abs_add_le l e]
        _ ≤ |l| + 5 * ulpBound := by linarith
    have htle : |t| ≤ |h| + 22 := by
      calc |t| = |(t - (h + q)) + (h + q)| := by rw [sub_add_cancel]
        _ ≤ |t - (h + q)| + |h + q| := abs_add_le _ _
        _ ≤ |t - (h + q)| + (|h| + |q|) := by linarith [abs_add_le h q]
        _ ≤ |h| + 22 := by linarith
    obtain ⟨r, hr, hsum⟩ := ih ht hl' (by linarith) (by linarith)
    refine ⟨r, ?_, ?_⟩
    · rw [compensatedSum]
      exact hr
    · calc |r - (h + (q :: exact).sum)|
          = |(r - (t + exact.sum)) + (t - (h + q))| := by rw [List.sum_cons]; ring_nf
        _ ≤ |r - (t + exact.sum)| + |t - (h + q)| := abs_add_le _ _
        _ ≤ |l| + (6 * ((values.length : ℚ) + 1) + 1) * ulpBound := by linarith

theorem value_zero : (PyFloat.ofRat 0).value? = some 0 := by decide +kernel

theorem value_ten : (PyFloat.ofRat 10).value? = some 10 := by decide +kernel

theorem near_sumFloats {values : List PyFloat} {exact : List ℚ}
    (hvalues : List.Forall₂ (fun x q => x.value? = some q ∧ 0 ≤ q ∧ q ≤ 21) values exact)
    (hlength : values.length ≤ 5) : Near (sumFloats values) exact.sum (40 * ulpBound) := by
  have hpos : (0 : ℚ) ≤ ulpBound := by norm_num [ulpBound]
  cases hvalues with
  | nil => exact (near_ofRat (by norm_num)).mono (by linarith)
  | @cons x q values exact hx hrest =>
    obtain ⟨hq, hnonneg, hle⟩ := hx
    have hcount : (values.length : ℚ) ≤ 4 := by
      rw [List.length_cons] at hlength
      exact_mod_cast Nat.le_of_succ_le_succ hlength
    have hproduct : (values.length : ℚ) * ulpBound ≤ 4 * ulpBound := mul_le_mul_of_nonneg_right hcount hpos
    have hunit : ulpBound ≤ 1 / 100 := by norm_num [ulpBound]
    have hmoderate : |0 + q| ≤ 256 := by
      rw [zero_add, abs_of_nonneg hnonneg]
      linarith
    obtain ⟨t, ht, htotal⟩ := near_addFloat value_zero hq hmoderate
    rw [zero_add] at htotal
    have htle : |t| ≤ 22 := by
      rw [abs_le] at htotal ⊢
      constructor <;> linarith
    obtain ⟨r, hr, hsum⟩ := near_compensatedSum hrest ht value_zero (by linarith)
      (by rw [abs_zero, mul_assoc]; linarith)
    refine ⟨r, hr, ?_⟩
    rw [abs_zero, zero_add] at hsum
    calc |r - (q :: exact).sum| = |(r - (t + exact.sum)) + (t - q)| := by rw [List.sum_cons]; ring_nf
      _ ≤ |r - (t + exact.sum)| + |t - q| := abs_add_le _ _
      _ ≤ 40 * ulpBound := by linarith

/-! ## The danger score -/

theorem fl_nonneg {x : ℚ} (h : 0 ≤ x) : 0 ≤ fl x := by
  by_cases hx : x = 0
  · rw [hx, fl_zero]
  · have hpos : (0 : ℚ) < 2 ^ ulpExponent x := by positivity
    have hfloor : (0 : ℤ) ≤ ⌊x / (2 : ℚ) ^ ulpExponent x⌋ := Int.floor_nonneg.mpr (div_nonneg h hpos.le)
    rw [fl_eq hx]
    apply mul_nonneg _ hpos.le
    exact_mod_cast hfloor.trans (floor_le_roundHalfEven _)

theorem scaled_value (weight : ℚ) (hnonneg : 0 ≤ weight) (hle : weight ≤ 2) {x : PyFloat} (hx : Scored x) :
    ∃ p, (scaleFloat weight x).value? = some p ∧ 0 ≤ p ∧ p ≤ 21 := by
  obtain ⟨q, hq, hq0, hq10⟩ := hx
  have hunit : ulpBound ≤ 1 / 100 := by norm_num [ulpBound]
  cases x with
  | finite x =>
    cases hq
    have hweight := fl_near (x := weight) (by rw [abs_of_nonneg hnonneg]; linarith)
    have hweight0 := fl_nonneg hnonneg
    rw [abs_le] at hweight
    have hproduct0 : 0 ≤ fl weight * x.val := mul_nonneg hweight0 hq0
    have hproduct : fl weight * x.val ≤ 201 / 100 * 10 :=
      mul_le_mul (by linarith) hq10 hq0 (by norm_num)
    have hmoderate : |fl weight * x.val| ≤ 256 := by
      rw [abs_of_nonneg hproduct0]
      linarith
    have hsmall : |fl (fl weight * x.val)| < 2 ^ 1024 := by
      obtain ⟨r, hr, hnear⟩ := near_ofRat hmoderate
      by_contra hbig
      rw [PyFloat.ofRat, dif_neg hbig] at hr
      cases hr
    have hnear := fl_near hmoderate
    rw [abs_le] at hnear
    refine ⟨fl (fl weight * x.val), ?_, fl_nonneg hproduct0, by linarith⟩
    rw [scaleFloat, PyFloat.ofRat, dif_pos hsmall]
    rfl
  | negZero => exact ⟨0, rfl, le_refl 0, by norm_num⟩
  | _ => cases hq

/-- The products of a summary within its bounds. -/
theorem weightedScores_values {risk : RiskSummary} (h : risk.InRange) :
    ∃ exact : List ℚ, List.Forall₂ (fun x q => x.value? = some q ∧ 0 ≤ q ∧ q ≤ 21) (weightedScores risk) exact := by
  obtain ⟨file, hfile⟩ := scaled_value (12 / 10) (by norm_num) (by norm_num) h.fileAccess
  obtain ⟨network, hnetwork⟩ := scaled_value 1 (by norm_num) (by norm_num) h.networkAccess
  obtain ⟨shell, hshell⟩ := scaled_value 2 (by norm_num) (by norm_num) h.shellExecution
  obtain ⟨destructive, hdestructive⟩ := scaled_value (3 / 10) (by norm_num) (by norm_num) h.destructive
  obtain ⟨exfiltration, hexfiltration⟩ := scaled_value (4 / 10) (by norm_num) (by norm_num) h.exfiltration
  exact ⟨[file, network, shell, destructive, exfiltration],
    .cons hfile <| .cons hnetwork <| .cons hshell <| .cons hdestructive <| .cons hexfiltration .nil⟩

theorem ltFloat_value {a b : PyFloat} {p q : ℚ} (ha : a.value? = some p) (hb : b.value? = some q) :
    ltFloat a b = decide (p < q) := by
  cases a with
  | finite x =>
    cases ha
    cases b with
    | finite y =>
      cases hb
      rfl
    | negZero =>
      cases hb
      rfl
    | _ => cases hb
  | negZero =>
    cases ha
    cases b with
    | finite y =>
      cases hb
      rfl
    | negZero =>
      cases hb
      rfl
    | _ => cases hb
  | _ => cases ha

theorem dangerScore_value {risk : RiskSummary} {raw : ℚ}
    (h : (sumFloats (weightedScores risk)).value? = some raw) :
    (dangerScore risk).value? = some (clampScore raw) := by
  have hcapped : (if ltFloat (sumFloats (weightedScores risk)) (.ofRat 10) then sumFloats (weightedScores risk)
      else .ofRat 10).value? = some (min 10 raw) := by
    rw [ltFloat_value h value_ten]
    by_cases hlt : raw < 10
    · rw [if_pos (decide_eq_true hlt), h, min_eq_right hlt.le]
    · rw [if_neg (by simpa using hlt), value_ten, min_eq_left (not_lt.mp hlt)]
  unfold dangerScore clampScore
  change (if ltFloat (.ofRat 0) (if ltFloat (sumFloats (weightedScores risk)) (.ofRat 10) then
      sumFloats (weightedScores risk) else .ofRat 10) then _ else _ : PyFloat).value? = _
  rw [ltFloat_value value_zero hcapped]
  by_cases hlt : 0 < min 10 raw
  · rw [if_pos (decide_eq_true hlt), max_eq_right hlt.le]
    exact hcapped
  · rw [if_neg (by simpa using hlt), value_zero, max_eq_left (not_lt.mp hlt)]

theorem clampScore_near (p q : ℚ) : |clampScore p - clampScore q| ≤ |p - q| := by
  unfold clampScore
  calc |max 0 (min 10 p) - max 0 (min 10 q)| ≤ |min 10 p - min 10 q| := by
        simpa using abs_max_sub_max_le_max 0 (min 10 p) 0 (min 10 q)
    _ ≤ |p - q| := by simpa using abs_min_sub_min_le_max 10 p 10 q

/-- The hundredths shown of each product add up to the exact sum, up to half a hundredth each. -/
theorem shown_near {values : List PyFloat} {exact : List ℚ}
    (h : List.Forall₂ (fun x q => x.value? = some q ∧ 0 ≤ q ∧ q ≤ 21) values exact) :
    |(values.map fun x => fixedValue 2 (x.value?.getD 0)).sum - exact.sum| ≤ values.length / 200 := by
  induction h with
  | nil => simp
  | @cons x q values exact hx _ ih =>
    have hfixed := fixedValue_near 2 q
    rw [List.map_cons, List.sum_cons, List.sum_cons, hx.1, Option.getD_some, List.length_cons, Nat.cast_succ]
    calc |fixedValue 2 q + (values.map fun x => fixedValue 2 (x.value?.getD 0)).sum - (q + exact.sum)|
        = |(fixedValue 2 q - q) + ((values.map fun x => fixedValue 2 (x.value?.getD 0)).sum - exact.sum)| := by
          ring_nf
      _ ≤ |fixedValue 2 q - q| + |(values.map fun x => fixedValue 2 (x.value?.getD 0)).sum - exact.sum| :=
        abs_add_le _ _
      _ ≤ ((values.length : ℚ) + 1) / 200 := by linarith

/-- The danger score is the clamped sum of the shown products, up to rounding. -/
theorem dangerScore_shown {risk : RiskSummary} (h : risk.InRange) :
    Near (dangerScore risk) (clampScore ((weightedScores risk).map fun x => fixedValue 2 (x.value?.getD 0)).sum)
      (26 / 1000) := by
  obtain ⟨exact, hexact⟩ := weightedScores_values h
  obtain ⟨raw, hraw, hnear⟩ := near_sumFloats hexact (le_refl 5)
  have hshown := shown_near hexact
  have hlength : ((weightedScores risk).length : ℚ) = 5 := by norm_num [weightedScores, weightedDimensions]
  rw [hlength] at hshown
  refine ⟨clampScore raw, dangerScore_value hraw, (clampScore_near _ _).trans ?_⟩
  have hbound : 40 * ulpBound ≤ 1 / 1000 := by norm_num [ulpBound]
  rw [abs_le] at hnear hshown ⊢
  constructor <;> linarith

end McpTrust
