import McpTrust.Python.DateTime
import McpTrust.Python.Json
import McpTrust.Core.Patterns

/-! # Scan records

The registry's normalized records. The validation of a record's parts is
pydantic's; here it is a parameter of the readers.
-/

namespace McpTrust

set_option autoImplicit false

open Python

inductive Severity
  | critical
  | high
  | medium
  | low
  | info
  deriving DecidableEq

inductive TrustGrade
  | A
  | B
  | C
  | D
  | F
  | unscanned
  deriving DecidableEq

inductive TransparencyLevel
  | high
  | medium
  | low
  deriving DecidableEq

def TrustGrade.text : TrustGrade → String
  | A => "A"
  | B => "B"
  | C => "C"
  | D => "D"
  | F => "F"
  | unscanned => "unscanned"

def TransparencyLevel.text : TransparencyLevel → String
  | high => "high"
  | medium => "medium"
  | low => "low"

/-- `TrustGrade(value)`, `none` for the `ValueError`. -/
def TrustGrade.ofText (value : Str) : Option TrustGrade :=
  [A, B, C, D, F, unscanned].find? fun grade => decide (value = u grade.text)

def TransparencyLevel.ofText (value : Str) : Option TransparencyLevel :=
  [high, medium, low].find? fun level => decide (value = u level.text)

theorem TrustGrade.ofText_text (grade : TrustGrade) : ofText (u grade.text) = some grade := by
  cases grade <;> decide

theorem TransparencyLevel.ofText_text (level : TransparencyLevel) : ofText (u level.text) = some level := by
  cases level <;> decide

structure Finding where
  ruleId : Str
  title : Str
  severity : Severity
  category : Str
  detail : Str
  deriving DecidableEq

structure ToolEvidence where
  name : Str
  hasInputSchema : Bool
  inputSchemaSha256 : Option Str
  hasAnnotations : Bool
  deriving DecidableEq

structure ScanEvidence where
  toolCount : ℤ
  tools : List ToolEvidence
  promptCount : ℤ
  resourceCount : ℤ
  schemaHashAlgorithm : Str
  deriving DecidableEq

structure RiskSummary where
  composite : PyFloat
  fileAccess : PyFloat
  networkAccess : PyFloat
  shellExecution : PyFloat
  destructive : PyFloat
  exfiltration : PyFloat
  findingsBySeverity : List (Severity × ℤ)
  annotationCoverage : PyFloat
  deriving DecidableEq

structure ScanRecord where
  id : Str
  serverSlug : Str
  engineName : Str
  engineVersion : Str
  grade : TrustGrade
  transparency : TransparencyLevel
  risk : RiskSummary
  findings : List Finding
  evidence : Option ScanEvidence
  scannedAt : DateTime
  sandboxImage : Option Str
  reportRef : Option Str
  deriving DecidableEq

/-- `^[A-Za-z0-9][A-Za-z0-9._-]{0,127}$`. -/
def isScanId : Str → Bool
  | [] => false
  | c :: rest =>
    isAlnum c && decide (rest.length ≤ 127) && rest.all fun d => isAlnum d || decide (d ∈ u "._-")

/-- `model_validate` of the parts of a record, and pydantic's reading of a timestamp; `none` is
a `ValidationError`. -/
structure Pydantic where
  risk : Json → Option RiskSummary
  finding : Json → Option Finding
  evidence : Json → Option ScanEvidence
  datetime : Str → Option DateTime

end McpTrust
