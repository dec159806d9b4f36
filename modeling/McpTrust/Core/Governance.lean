import McpTrust.Python.Lines
import McpTrust.Python.IsoFormat
import McpTrust.Core.Models
import McpTrust.Core.Captures

/-! # Freshness and provenance

When a grade counts as stale, and which engines count as real.
-/

namespace McpTrust

set_option autoImplicit false

open Python

def staleAfterDays : ℤ := 90

def maskedBadgeMessage : String := "under review"

def maskedServerDescription : String :=
  "Server metadata is temporarily withheld while this grade is under governance review."

inductive FreshnessState
  | fresh
  | stale
  | unknown
  | notApplicable
  deriving DecidableEq

def FreshnessState.text : FreshnessState → String
  | fresh => "FRESH"
  | stale => "STALE"
  | unknown => "UNKNOWN"
  | notApplicable => "NOT_APPLICABLE"

structure ScanFreshness where
  state : FreshnessState
  reason : String
  scannedAt : Option DateTime
  evaluatedAt : DateTime
  scanAgeDays : Option PyFloat
  staleAfter : Option DateTime

/-- `_as_utc(value)`. -/
def asUtc (value : DateTime) : Except PyErr DateTime := value.assumeUtc.astimezoneUtc

/-- `round((evaluated_at - parsed).total_seconds() / 86400, 6)`. -/
def ageDays (micros : ℤ) : PyFloat :=
  .ofRat (roundDigits (fl (DateTime.totalSeconds micros / 86400)) 6)

/-- The assessment of a scan at `parsed`, both times in UTC. -/
def assessTimes (parsed evaluatedAt : DateTime) : Except PyErr ScanFreshness :=
  if DateTime.totalSeconds (evaluatedAt.micros - parsed.micros) < 0 then
    .ok
      { state := .unknown
        reason := "future_scanned_at"
        scannedAt := some parsed
        evaluatedAt := evaluatedAt
        scanAgeDays := none
        staleAfter := none }
  else do
    let staleAfter ← parsed.add (staleAfterDays * microsPerDay)
    let late := decide (staleAfter.micros < evaluatedAt.micros)
    .ok
      { state := if late then .stale else .fresh
        reason := if late then "age_exceeds_90_days" else "fresh"
        scannedAt := some parsed
        evaluatedAt := evaluatedAt
        scanAgeDays := some (ageDays (evaluatedAt.micros - parsed.micros))
        staleAfter := some staleAfter }

/-- `assess_scan_freshness(scanned_at, now, scan_exists=…)` of a stored time. -/
def assessScanFreshness (scannedAt : Option DateTime) (now : DateTime) (scanExists : Bool) :
    Except PyErr ScanFreshness := do
  let evaluatedAt ← asUtc now
  if scanExists then
    match scannedAt with
    | none => .ok ⟨.unknown, "missing_scanned_at", none, evaluatedAt, none, none⟩
    | some scannedAt => do
      let parsed ← asUtc scannedAt
      assessTimes parsed evaluatedAt
  else .ok ⟨.notApplicable, "no_scan", none, evaluatedAt, none, none⟩

/-! ## Provenance -/

inductive ScanProvenance
  | real
  | demo
  | unscanned
  | unknown
  deriving DecidableEq

def ScanProvenance.text : ScanProvenance → String
  | real => "real"
  | demo => "demo"
  | unscanned => "unscanned"
  | unknown => "unknown"

/-- `is_real_engine(name)`. -/
def isRealEngine (name : Str) : Bool := decide (lower (strip name) = u "mcpaudit")

def classify : Option ScanRecord → ScanProvenance
  | none => .unscanned
  | some record => if isRealEngine record.engineName then .real else .demo

end McpTrust
