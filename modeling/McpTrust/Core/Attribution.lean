import McpTrust.Core.Grading

/-! # What a drift report says of itself

`diff` stores the cause, and the report computes its other fields from the ones
it stores. The stored cause tells engines apart by name and version, the report
by the text that joins them.
-/

namespace McpTrust

set_option autoImplicit false

open Python

/-! ## The computed fields -/

inductive GradeDirection
  | improved
  | declined
  | unchanged
  deriving DecidableEq

/-- `_GRADE_ORDER_TOTAL`. -/
def gradeOrderTotal : List TrustGrade := gradeOrder ++ [.unscanned]

namespace ScanDrift

def gradeDirection (drift : ScanDrift) : GradeDirection :=
  if drift.previousGrade = drift.currentGrade then .unchanged
  else if gradeOrderTotal.idxOf drift.currentGrade < gradeOrderTotal.idxOf drift.previousGrade then .improved
  else .declined

def transparencyChanged (drift : ScanDrift) : Bool :=
  decide (drift.previousTransparency ≠ drift.currentTransparency)

def dangerScoreDelta (drift : ScanDrift) : PyFloat :=
  subFloat drift.currentDangerScore drift.previousDangerScore

def engineChanged (drift : ScanDrift) : Bool := decide (drift.previousEngine ≠ drift.currentEngine)

/-- The report's own fields show movement: another grade, another transparency, or a score or a
dimension that moved by more than the tolerance. -/
def ShowsMovement (drift : ScanDrift) : Prop :=
  drift.previousGrade ≠ drift.currentGrade ∨ drift.transparencyChanged = true ∨
    exceedsEpsilon drift.dangerScoreDelta = true ∨
      ∃ delta ∈ drift.dimensionDeltas, exceedsEpsilon delta = true

/-- The cause agrees with the rest of the report. -/
structure Consistent (drift : ScanDrift) : Prop where
  surface : drift.cause = .surfaceChanged ↔ drift.surfaceComparison = .changed
  noChange : drift.surfaceComparison ≠ .changed → (drift.cause = .noChange ↔ ¬drift.ShowsMovement)
  engine : drift.cause = .engineChanged → drift.engineChanged = true
  sameEngine : drift.cause = .scoreMoved ∨ drift.cause = .undetermined →
    drift.engineChanged = false ∧
      (drift.cause = .scoreMoved ↔ drift.surfaceComparison = .unchanged) ∧
        (drift.cause = .undetermined ↔ drift.surfaceComparison = .unknown)
  direction : drift.gradeDirection ≠ .unchanged → drift.cause ≠ .noChange

end ScanDrift

/-! ## Two engines under one text -/

/-- Both scans have evidence, and it differs. -/
def SurfaceMoved (previous current : ScanRecord) : Prop :=
  ∃ a b, previous.evidence = some a ∧ current.evidence = some b ∧ (surfaceDelta a b).anyChange = true

/-- The assessment of two scans differs in grade, transparency, score or a dimension. -/
def AssessmentMoved (previous current : ScanRecord) : Prop :=
  previous.grade ≠ current.grade ∨ previous.transparency ≠ current.transparency ∨
    exceedsEpsilon (subFloat (dangerScore current.risk) (dangerScore previous.risk)) = true ∨
      ∃ delta ∈ dimensionDeltas previous.risk current.risk, exceedsEpsilon delta = true

def SameEngine (previous current : ScanRecord) : Prop :=
  previous.engineName = current.engineName ∧ previous.engineVersion = current.engineVersion

/-- A movement between two engines that share one text, with no surface change to explain it. -/
structure HiddenEngineChange (previous current : ScanRecord) : Prop where
  surface : ¬SurfaceMoved previous current
  moved : AssessmentMoved previous current
  engines : ¬SameEngine previous current
  text : engineText previous = engineText current

theorem compareSurfaces_changed_iff {previous current : ScanRecord} :
    (compareSurfaces previous.evidence current.evidence).1 = .changed ↔ SurfaceMoved previous current := by
  unfold SurfaceMoved
  cases hp : previous.evidence with
  | none => simp [compareSurfaces]
  | some a =>
    cases hc : current.evidence with
    | none => simp [compareSurfaces]
    | some b => cases hd : (surfaceDelta a b).anyChange <;> simp [compareSurfaces, hd]

theorem moved_iff {previous current : ScanRecord} :
    moved previous current = true ↔ AssessmentMoved previous current := by
  simp only [moved, AssessmentMoved, Bool.or_eq_true, decide_eq_true_eq, List.any_eq_true, or_assoc]

theorem engineChanged_eq_false {previous current : ScanRecord} :
    engineChanged previous current = false ↔ SameEngine previous current := by
  simp only [engineChanged, SameEngine, Bool.or_eq_false_iff, decide_eq_false_iff_not, not_not]

theorem SameEngine.text {previous current : ScanRecord} (h : SameEngine previous current) :
    engineText previous = engineText current := by
  rw [engineText, engineText, h.1, h.2]

/-- A joined text that starts like another one, up to a name without a blank. -/
theorem names_eq_of_joined {name name' version version' rest : Str} (hname : ch ' ' ∉ name')
    (hrest : name' = name ++ rest) (htext : ch ' ' :: version = rest ++ ch ' ' :: version') :
    name = name' ∧ version = version' := by
  cases rest with
  | nil => exact ⟨(List.append_nil name).symm.trans hrest.symm, (List.cons.inj htext).2⟩
  | cons c rest =>
    have hc : c = ch ' ' := (List.cons.inj htext).1.symm
    rw [hrest, hc] at hname
    exact absurd (List.mem_append_right _ List.mem_cons_self) hname

/-- Of engines whose names hold no blank, the text tells the name and the version. -/
theorem engineText_eq_iff {previous current : ScanRecord} (hprevious : ch ' ' ∉ previous.engineName)
    (hcurrent : ch ' ' ∉ current.engineName) :
    engineText previous = engineText current ↔ SameEngine previous current := by
  refine ⟨fun h => ?_, SameEngine.text⟩
  obtain ⟨rest, hname, htext⟩ | ⟨rest, hname, htext⟩ := List.append_eq_append_iff.mp h
  · exact names_eq_of_joined hcurrent hname htext
  · obtain ⟨hnames, hversions⟩ := names_eq_of_joined hprevious hname htext
    exact ⟨hnames.symm, hversions.symm⟩

/-! ## The report of `diff` -/

/-- What `diff` puts into a report that the attribution is read against. -/
theorem diff_report {previous current : ScanRecord} (h : previous.serverSlug = current.serverSlug) :
    ∃ drift, diff previous current = .ok drift ∧
      drift.cause = driftCause (compareSurfaces previous.evidence current.evidence).1 previous current ∧
      drift.surfaceComparison = (compareSurfaces previous.evidence current.evidence).1 ∧
      (drift.ShowsMovement ↔ AssessmentMoved previous current) ∧
      (drift.engineChanged = true ↔ engineText previous ≠ engineText current) ∧
      (drift.gradeDirection ≠ .unchanged → previous.grade ≠ current.grade) := by
  unfold diff
  rw [if_neg (not_not.mpr h)]
  refine ⟨_, rfl, rfl, rfl, ?_, ?_, ?_⟩
  · simp only [ScanDrift.ShowsMovement, ScanDrift.transparencyChanged, ScanDrift.dangerScoreDelta,
      AssessmentMoved, decide_eq_true_eq]
  · simp only [ScanDrift.engineChanged, decide_eq_true_eq]
  · intro hdirection hgrade
    exact hdirection (if_pos hgrade)

/-- The four ways the cause is decided once the surface has not changed. -/
theorem driftCause_cases {comparison : SurfaceComparison} {previous current : ScanRecord}
    (h : comparison ≠ .changed) :
    ¬AssessmentMoved previous current ∧ driftCause comparison previous current = .noChange ∨
    AssessmentMoved previous current ∧ ¬SameEngine previous current ∧
      driftCause comparison previous current = .engineChanged ∨
    AssessmentMoved previous current ∧ SameEngine previous current ∧
      (comparison = .unchanged ∧ driftCause comparison previous current = .scoreMoved ∨
        comparison = .unknown ∧ driftCause comparison previous current = .undetermined) := by
  unfold driftCause
  rw [if_neg h]
  by_cases hmoved : moved previous current = true
  · have hmoved' := moved_iff.mp hmoved
    rw [if_neg (by rw [hmoved]; decide)]
    by_cases hengine : engineChanged previous current = true
    · rw [if_pos hengine]
      have hsame : ¬SameEngine previous current := fun hs => by
        rw [engineChanged_eq_false.mpr hs] at hengine
        exact Bool.false_ne_true hengine
      exact .inr (.inl ⟨hmoved', hsame, rfl⟩)
    · rw [if_neg hengine]
      have hsame := engineChanged_eq_false.mp (Bool.eq_false_iff.mpr hengine)
      cases comparison with
      | unchanged => exact .inr (.inr ⟨hmoved', hsame, .inl ⟨rfl, rfl⟩⟩)
      | changed => exact absurd rfl h
      | unknown => exact .inr (.inr ⟨hmoved', hsame, .inr ⟨rfl, rfl⟩⟩)
  · rw [if_pos (Bool.eq_false_iff.mpr hmoved)]
    exact .inl ⟨fun hm => hmoved (moved_iff.mpr hm), rfl⟩

/-- A report whose surface did not change is consistent, if an engine change between the scans shows. -/
theorem consistent_of_unchanged {previous current : ScanRecord} {drift : ScanDrift}
    (hcause : drift.cause = driftCause drift.surfaceComparison previous current)
    (hsurface : drift.surfaceComparison ≠ .changed)
    (hmovement : drift.ShowsMovement ↔ AssessmentMoved previous current)
    (hengine : drift.engineChanged = true ↔ engineText previous ≠ engineText current)
    (hdirection : drift.gradeDirection ≠ .unchanged → previous.grade ≠ current.grade)
    (hshown : AssessmentMoved previous current → ¬SameEngine previous current →
      engineText previous ≠ engineText current) : drift.Consistent := by
  have hsame : SameEngine previous current → drift.engineChanged = false := fun hs =>
    Bool.eq_false_iff.mpr fun hc => hengine.mp hc hs.text
  obtain ⟨hmoved, hc⟩ | ⟨hmoved, hengines, hc⟩ | ⟨hmoved, hengines, hc⟩ := driftCause_cases hsurface
  · rw [hc] at hcause
    exact
      { surface := by simp [hcause, hsurface]
        noChange := fun _ => by simp [hcause, hmovement, hmoved]
        engine := by simp [hcause]
        sameEngine := by simp [hcause]
        direction := fun hd => absurd (.inl (hdirection hd)) hmoved }
  · rw [hc] at hcause
    exact
      { surface := by simp [hcause, hsurface]
        noChange := fun _ => by simp [hcause, hmovement, hmoved]
        engine := fun _ => hengine.mpr (hshown hmoved hengines)
        sameEngine := by simp [hcause]
        direction := fun _ => by simp [hcause] }
  · obtain ⟨hcomparison, hc⟩ | ⟨hcomparison, hc⟩ := hc
    all_goals
      rw [hc] at hcause
      exact
        { surface := by simp [hcause, hsurface]
          noChange := fun _ => by simp [hcause, hmovement, hmoved]
          engine := by simp [hcause]
          sameEngine := fun _ => ⟨hsame hengines, by simp [hcause, hcomparison]⟩
          direction := fun _ => by simp [hcause] }

/-- Between two scans of one server the report is consistent, unless an engine change hides behind
one engine text. -/
theorem diff_consistent_iff {previous current : ScanRecord}
    (h : previous.serverSlug = current.serverSlug) :
    ∃ drift, diff previous current = .ok drift ∧
      (drift.Consistent ↔ ¬HiddenEngineChange previous current) := by
  obtain ⟨drift, hdrift, hcause, hsurface, hmovement, hengine, hdirection⟩ := diff_report h
  have hchanged : drift.surfaceComparison = .changed ↔ SurfaceMoved previous current := by
    rw [hsurface, compareSurfaces_changed_iff]
  rw [← hsurface] at hcause
  refine ⟨drift, hdrift, fun hconsistent hhidden => ?_, fun hshown => ?_⟩
  · have hcomparison := mt hchanged.mp hhidden.surface
    have hcauses : drift.cause = .engineChanged := by
      obtain ⟨hmoved, -⟩ | ⟨-, -, hc⟩ | ⟨-, hsame, -⟩ := driftCause_cases hcomparison
      · exact absurd hhidden.moved hmoved
      · exact hcause.trans hc
      · exact absurd hsame hhidden.engines
    exact hengine.mp (hconsistent.engine hcauses) hhidden.text
  · by_cases hcomparison : drift.surfaceComparison = .changed
    · have hc : drift.cause = .surfaceChanged := by rw [hcause, driftCause, if_pos hcomparison]
      exact
        { surface := by simp [hc, hcomparison]
          noChange := fun hne => absurd hcomparison hne
          engine := by simp [hc]
          sameEngine := by simp [hc]
          direction := fun _ => by simp [hc] }
    · refine consistent_of_unchanged hcause hcomparison hmovement hengine hdirection ?_
      exact fun hmoved hengines htext => hshown ⟨mt hchanged.mpr hcomparison, hmoved, hengines, htext⟩

/-- Engines whose names hold no blank never hide a change. -/
theorem no_hiddenEngineChange {previous current : ScanRecord} (hprevious : ch ' ' ∉ previous.engineName)
    (hcurrent : ch ' ' ∉ current.engineName) : ¬HiddenEngineChange previous current := fun h =>
  h.engines ((engineText_eq_iff hprevious hcurrent).mp h.text)

/-! ## An engine named with a blank -/

theorem epoch_inRange : 0 ≤ (0 : ℤ) ∧ (0 : ℤ) < maxMicros := by decide

/-- A scan by the engine `name` at `version`, with no finding and no evidence. -/
def attributedScan (name version : String) (grade : TrustGrade) : ScanRecord where
  id := u "scan"
  serverSlug := u "server"
  engineName := u name
  engineVersion := u version
  grade := grade
  transparency := .high
  risk := ⟨.ofRat 0, .ofRat 0, .ofRat 0, .ofRat 0, .ofRat 0, .ofRat 0, [], .ofRat 1⟩
  findings := []
  evidence := none
  scannedAt := ⟨0, some 0, epoch_inRange⟩
  sandboxImage := none
  reportRef := none

theorem diff_consistent_iff_same :
    (attributedScan "mcpaudit" "1" .A).serverSlug = (attributedScan "mcpaudit" "2" .B).serverSlug ∧
      ∃ drift, diff (attributedScan "mcpaudit" "1" .A) (attributedScan "mcpaudit" "2" .B) = .ok drift ∧
        (drift.Consistent ↔
          ¬HiddenEngineChange (attributedScan "mcpaudit" "1" .A) (attributedScan "mcpaudit" "2" .B)) :=
  ⟨rfl, diff_consistent_iff rfl⟩

def spacedName : ScanRecord := attributedScan "mcp audit" "1" .A

def spacedVersion : ScanRecord := attributedScan "mcp" "audit 1" .B

/-- `mcp audit` at `1` and `mcp` at `audit 1` have one text, and the report of a grade that moved
between them blames an engine change that it denies. -/
theorem hidden_engine_change :
    spacedName.serverSlug = spacedVersion.serverSlug ∧
      ∃ drift, diff spacedName spacedVersion = .ok drift ∧
        drift.cause = .engineChanged ∧ drift.engineChanged = false ∧ ¬drift.Consistent := by
  have hslug : spacedName.serverSlug = spacedVersion.serverSlug := rfl
  obtain ⟨drift, hdrift, hcause, hsurface, -, hengine, -⟩ := diff_report hslug
  have hmoved : AssessmentMoved spacedName spacedVersion := .inl (by decide)
  have hc : drift.cause = .engineChanged := by
    have hcomparison : (compareSurfaces spacedName.evidence spacedVersion.evidence).1 ≠ .changed := by decide
    rw [hcause]
    obtain ⟨hm, -⟩ | ⟨-, -, hc⟩ | ⟨-, hsame, -⟩ := driftCause_cases hcomparison
    · exact absurd hmoved hm
    · exact hc
    · exact absurd hsame.1 (by decide)
  have hdenied : drift.engineChanged = false := Bool.eq_false_iff.mpr fun hd => hengine.mp hd (by decide)
  refine ⟨hslug, drift, hdrift, hc, hdenied, fun hconsistent => ?_⟩
  exact Bool.false_ne_true (hdenied.symm.trans (hconsistent.engine hc))

end McpTrust
