import McpTrust.Python.IsoFormat
import McpTrust.Core.Models

/-! # Drift between scans

`diff` attributes the movement between two scans of a server; the timeline and
the corpus totals count what it attributes.
-/

namespace McpTrust

set_option autoImplicit false

open Python

/-! ## The danger score -/

/-- `a * b` of a positive constant and a float. -/
def scaleFloat (weight : ℚ) : PyFloat → PyFloat
  | .finite x => .ofRat (fl weight * x.val)
  | x => x

/-- `a + b`. -/
def addFloat (a b : PyFloat) : PyFloat :=
  match a, b with
  | .negZero, .negZero => .negZero
  | .nan, _ | _, .nan => .nan
  | .inf s, .inf t => if s = t then .inf s else .nan
  | .inf s, _ | _, .inf s => .inf s
  | a, b => .ofRat (a.value?.getD 0 + b.value?.getD 0)

/-- `a < b`. -/
def ltFloat (a b : PyFloat) : Bool :=
  match a, b with
  | .nan, _ | _, .nan => false
  | .inf s, .inf t => s && !t
  | .inf s, _ => s
  | _, .inf t => !t
  | a, b => decide (a.value?.getD 0 < b.value?.getD 0)

def negFloat : PyFloat → PyFloat
  | .finite x => if x.val = 0 then .negZero else .ofRat (-x.val)
  | .negZero => .ofRat 0
  | .inf s => .inf !s
  | .nan => .nan

/-- `a - b`. -/
def subFloat (a b : PyFloat) : PyFloat := addFloat a (negFloat b)

def absFloat : PyFloat → PyFloat
  | .finite x => .ofRat |x.val|
  | .negZero => .ofRat 0
  | .inf _ => .inf false
  | .nan => .nan

/-- The float part of `sum`, which carries the rounding errors along in `low`. -/
def compensatedSum (high low : PyFloat) : List PyFloat → PyFloat
  | [] => if low.isFinite && decide (low.value? ≠ some 0) then addFloat high low else high
  | x :: rest =>
    let total := addFloat high x
    let error :=
      if ltFloat (absFloat high) (absFloat x) then addFloat (subFloat x total) high
      else addFloat (subFloat high total) x
    compensatedSum total (addFloat low error) rest

/-- `sum(values)` of floats. -/
def sumFloats : List PyFloat → PyFloat
  | [] => .ofRat 0
  | x :: rest => compensatedSum (addFloat (.ofRat 0) x) (.ofRat 0) rest

/-- `_DIM_WEIGHTS`, with the value of each dimension. -/
def weightedDimensions (risk : RiskSummary) : List (ℚ × PyFloat) :=
  [(12 / 10, risk.fileAccess), (1, risk.networkAccess), (2, risk.shellExecution),
    (3 / 10, risk.destructive), (4 / 10, risk.exfiltration)]

/-- `danger_score(risk)`. -/
def dangerScore (risk : RiskSummary) : PyFloat :=
  let raw := sumFloats ((weightedDimensions risk).map fun d => scaleFloat d.1 d.2)
  let capped := if ltFloat raw (.ofRat 10) then raw else .ofRat 10
  if ltFloat (.ofRat 0) capped then capped else .ofRat 0

/-! ## Surfaces -/

inductive DriftCause
  | surfaceChanged
  | engineChanged
  | scoreMoved
  | undetermined
  | noChange
  deriving DecidableEq

def DriftCause.text : DriftCause → String
  | surfaceChanged => "surface-changed"
  | engineChanged => "engine-changed"
  | scoreMoved => "score-moved"
  | undetermined => "undetermined"
  | noChange => "no-change"

inductive SurfaceComparison
  | unchanged
  | changed
  | unknown
  deriving DecidableEq

def SurfaceComparison.text : SurfaceComparison → String
  | unchanged => "unchanged"
  | changed => "changed"
  | unknown => "unknown"

structure ToolSurfaceDelta where
  toolsAdded : List Str
  toolsRemoved : List Str
  toolsChanged : List Str
  promptCountDelta : ℤ
  resourceCountDelta : ℤ
  deriving DecidableEq

def ToolSurfaceDelta.anyChange (delta : ToolSurfaceDelta) : Bool :=
  !delta.toolsAdded.isEmpty || !delta.toolsRemoved.isEmpty || !delta.toolsChanged.isEmpty ||
    decide (delta.promptCountDelta ≠ 0) || decide (delta.resourceCountDelta ≠ 0)

/-- `{t.name: t for t in tools}[name]`; of tools of one name the last counts. -/
def toolNamed (tools : List ToolEvidence) (name : Str) : Option ToolEvidence :=
  tools.reverse.find? fun tool => decide (tool.name = name)

def toolNames (tools : List ToolEvidence) : List Str := sortedSet (tools.map ToolEvidence.name)

def toolDiffers (a b : ToolEvidence) : Bool :=
  decide (a.inputSchemaSha256 ≠ b.inputSchemaSha256) || decide (a.hasInputSchema ≠ b.hasInputSchema) ||
    decide (a.hasAnnotations ≠ b.hasAnnotations)

/-- `_surface_delta(previous, current)`. -/
def surfaceDelta (previous current : ScanEvidence) : ToolSurfaceDelta where
  toolsAdded := (toolNames current.tools).filter fun name => (toolNamed previous.tools name).isNone
  toolsRemoved := (toolNames previous.tools).filter fun name => (toolNamed current.tools name).isNone
  toolsChanged := (toolNames previous.tools).filter fun name =>
    match toolNamed previous.tools name, toolNamed current.tools name with
    | some a, some b => toolDiffers a b
    | _, _ => false
  promptCountDelta := current.promptCount - previous.promptCount
  resourceCountDelta := current.resourceCount - previous.resourceCount

def compareSurfaces (previous current : Option ScanEvidence) :
    SurfaceComparison × Option ToolSurfaceDelta :=
  match previous, current with
  | some previous, some current =>
    let delta := surfaceDelta previous current
    (if delta.anyChange then .changed else .unchanged, some delta)
  | _, _ => (.unknown, none)

/-! ## Attribution -/

structure ScanDrift where
  serverSlug : Str
  previousScanId : Str
  currentScanId : Str
  previousScannedAt : DateTime
  currentScannedAt : DateTime
  previousGrade : TrustGrade
  currentGrade : TrustGrade
  previousTransparency : TransparencyLevel
  currentTransparency : TransparencyLevel
  previousDangerScore : PyFloat
  currentDangerScore : PyFloat
  dimensionDeltas : List PyFloat
  previousEngine : Str
  currentEngine : Str
  surfaceComparison : SurfaceComparison
  surfaceDelta : Option ToolSurfaceDelta
  cause : DriftCause

/-- `f"{engine_name} {engine_version}"`. -/
def engineText (scan : ScanRecord) : Str := scan.engineName ++ ch ' ' :: scan.engineVersion

/-- `abs(delta) > _EPSILON`. -/
def exceedsEpsilon (delta : PyFloat) : Bool :=
  let epsilon : PyFloat := .ofRat (1 / 1000000)
  ltFloat epsilon delta || ltFloat epsilon (negFloat delta)

def dimensionDeltas (previous current : RiskSummary) : List PyFloat :=
  List.zipWith (fun p c => subFloat c.2 p.2) (weightedDimensions previous) (weightedDimensions current)

def moved (previous current : ScanRecord) : Bool :=
  decide (previous.grade ≠ current.grade) || decide (previous.transparency ≠ current.transparency) ||
    exceedsEpsilon (subFloat (dangerScore current.risk) (dangerScore previous.risk)) ||
    (dimensionDeltas previous.risk current.risk).any exceedsEpsilon

def engineChanged (previous current : ScanRecord) : Bool :=
  decide (previous.engineName ≠ current.engineName) ||
    decide (previous.engineVersion ≠ current.engineVersion)

def driftCause (comparison : SurfaceComparison) (previous current : ScanRecord) : DriftCause :=
  if comparison = .changed then .surfaceChanged
  else if moved previous current = false then .noChange
  else if engineChanged previous current then .engineChanged
  else if comparison = .unchanged then .scoreMoved
  else .undetermined

/-- `diff(previous, current)`. -/
def diff (previous current : ScanRecord) : Except PyErr ScanDrift :=
  if previous.serverSlug ≠ current.serverSlug then .error .valueError
  else
    let (comparison, delta) := compareSurfaces previous.evidence current.evidence
    .ok
      { serverSlug := current.serverSlug
        previousScanId := previous.id
        currentScanId := current.id
        previousScannedAt := previous.scannedAt
        currentScannedAt := current.scannedAt
        previousGrade := previous.grade
        currentGrade := current.grade
        previousTransparency := previous.transparency
        currentTransparency := current.transparency
        previousDangerScore := dangerScore previous.risk
        currentDangerScore := dangerScore current.risk
        dimensionDeltas := dimensionDeltas previous.risk current.risk
        previousEngine := engineText previous
        currentEngine := engineText current
        surfaceComparison := comparison
        surfaceDelta := delta
        cause := driftCause comparison previous current }

structure GradeChange where
  changedAt : DateTime
  previousGrade : TrustGrade
  currentGrade : TrustGrade
  cause : DriftCause
  surfaceComparison : SurfaceComparison

/-- `latest_grade_change(history)` of a history with the newest scan first. -/
def latestGradeChange : List ScanRecord → Except PyErr (Option GradeChange)
  | current :: previous :: rest => do
    let drift ← diff previous current
    if drift.previousGrade ≠ drift.currentGrade then
      .ok (some ⟨drift.currentScannedAt, drift.previousGrade, drift.currentGrade, drift.cause,
        drift.surfaceComparison⟩)
    else latestGradeChange (previous :: rest)
  | _ => .ok none

/-! ## Timelines -/

structure HistoryEntry where
  scannedAt : DateTime
  grade : TrustGrade
  engine : Str
  cause : Option DriftCause
  surfaceComparison : Option SurfaceComparison
  gradeChanged : Bool

/-- The entries after the scan `previous`, oldest first. -/
def timelineAfter (previous : ScanRecord) : List ScanRecord → Except PyErr (List HistoryEntry)
  | [] => .ok []
  | scan :: rest => do
    let drift ← diff previous scan
    let entries ← timelineAfter scan rest
    .ok
      ({ scannedAt := scan.scannedAt
         grade := scan.grade
         engine := engineText scan
         cause := some drift.cause
         surfaceComparison := some drift.surfaceComparison
         gradeChanged := decide (drift.previousGrade ≠ drift.currentGrade) } :: entries)

/-- `grade_timeline(history)`. -/
def gradeTimeline (history : List ScanRecord) : Except PyErr (List HistoryEntry) :=
  match history.reverse with
  | [] => .ok []
  | scan :: rest => do
    let entries ← timelineAfter scan rest
    .ok
      ({ scannedAt := scan.scannedAt
         grade := scan.grade
         engine := engineText scan
         cause := none
         surfaceComparison := none
         gradeChanged := false } :: entries)

structure HistoryTotals where
  servers : Nat
  scans : Nat
  comparedPairs : Nat
  comparablePairs : Nat
  surfaceChanges : Nat
  gradeChanges : Nat
  gradeChangesWithEngineChange : Nat
  firstScannedAt : Option DateTime
  lastScannedAt : Option DateTime
  deriving DecidableEq

/-- `HistoryTotals()`. -/
def HistoryTotals.empty : HistoryTotals := ⟨0, 0, 0, 0, 0, 0, 0, none, none⟩

/-- Adds the step from `previous` to `entry`. -/
def HistoryTotals.addStep (totals : HistoryTotals) (previous entry : HistoryEntry) : HistoryTotals :=
  { totals with
    comparedPairs := totals.comparedPairs + 1
    comparablePairs :=
      totals.comparablePairs + if entry.surfaceComparison = some .unknown then 0 else 1
    surfaceChanges := totals.surfaceChanges + if entry.surfaceComparison = some .changed then 1 else 0
    gradeChanges := totals.gradeChanges + if entry.gradeChanged then 1 else 0
    gradeChangesWithEngineChange :=
      totals.gradeChangesWithEngineChange +
        if entry.gradeChanged = true ∧ entry.engine ≠ previous.engine then 1 else 0 }

/-- `zip(timeline, timeline[1:])`. -/
def HistoryTotals.addSteps (totals : HistoryTotals) : List HistoryEntry → HistoryTotals
  | previous :: entry :: rest => (totals.addStep previous entry).addSteps (entry :: rest)
  | _ => totals

/-- `a < b` of two datetimes, one naive and one aware having no order. -/
def earlier (a b : DateTime) : Except PyErr Bool :=
  if a.offset.isSome = b.offset.isSome then .ok (decide (a.instant < b.instant)) else .error .typeError

/-- `min(a or b, b)`: the first of two equal ones. -/
def minTime (a : Option DateTime) (b : DateTime) : Except PyErr DateTime :=
  match a with
  | none => .ok b
  | some a => do
    let less ← earlier b a
    .ok (if less then b else a)

/-- `max(a or b, b)`. -/
def maxTime (a : Option DateTime) (b : DateTime) : Except PyErr DateTime :=
  match a with
  | none => .ok b
  | some a => do
    let less ← earlier a b
    .ok (if less then b else a)

/-- One turn of the loop of `corpus_history_totals`. -/
def HistoryTotals.addHistory (totals : HistoryTotals) (history : List ScanRecord) :
    Except PyErr HistoryTotals := do
  let timeline ← gradeTimeline history
  match timeline, timeline.getLast? with
  | first :: _, some last => do
    let counted := HistoryTotals.addSteps
      { totals with servers := totals.servers + 1, scans := totals.scans + timeline.length } timeline
    let firstScannedAt ← minTime totals.firstScannedAt first.scannedAt
    let lastScannedAt ← maxTime totals.lastScannedAt last.scannedAt
    .ok { counted with firstScannedAt := some firstScannedAt, lastScannedAt := some lastScannedAt }
  | _, _ => .ok totals

/-- `corpus_history_totals(histories)`. -/
def corpusHistoryTotals (histories : List (List ScanRecord)) : Except PyErr HistoryTotals :=
  histories.foldlM HistoryTotals.addHistory .empty

end McpTrust
