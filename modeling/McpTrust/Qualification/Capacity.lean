import McpTrust.Python.IsoFormat
import McpTrust.Qualification.Records

/-! # Host-capacity receipts

`validate_host_capacity_receipt` recomputes the arithmetic of two readings; a
scoped receipt wraps one observation for one operation of one cohort.
-/

namespace McpTrust.Qualification

set_option autoImplicit false

open Python Refresh

def hostCapacityError (message : String) : PyErr := .app "HostCapacityError" message

def isHostCapacityError (e : PyErr) : Bool := e.isApp "HostCapacityError"

def refuse (accepted : Bool) (message : String) : Except PyErr Unit :=
  if accepted then .ok () else .error (hostCapacityError message)

def minAvailableBytes : ℤ := 5 * 1024 ^ 3

def minIntervalSeconds : ℤ := 30

def policy : Json :=
  .obj
    [(u "minimum_available_bytes", .int minAvailableBytes),
      (u "maximum_capacity_percent_exclusive", .int 100), (u "required_readings", .int 2),
      (u "minimum_interval_seconds", .int minIntervalSeconds),
      (u "maximum_receipt_age_seconds", .int 120)]

def authorityFields : Dict :=
  [(u "observation_only", .bool true), (u "colima_start_performed", .bool false),
    (u "docker_invoked", .bool false), (u "mcp_execution", .bool false),
    (u "database_accessed", .bool false), (u "publication_performed", .bool false),
    (u "deployment_performed", .bool false), (u "scheduler_change_performed", .bool false)]

def hostClaimCeiling : String :=
  "Host-filesystem capacity observations only; this receipt does not prove Colima was " ++
    "stopped, observation authenticity or same-user tamper resistance, Docker or MCP " ++
    "isolation, scan safety, publication, deployment, scheduler operation, production " ++
    "freshness, or endorsement."

def qualificationAuthority : Json :=
  .obj (authorityFields ++ [(u "qualification_scope_only", .bool true)])

def qualificationClaimCeiling : String :=
  "One fresh host-capacity observation scoped to one local image-qualification or " ++
    "interruption-cleanup invocation. It does not prove Docker cleanup, image " ++
    "qualification, MCP execution, publication, deployment, scheduler operation, " ++
    "production freshness, or endorsement."

/-! ## Readings -/

/-- A sample that passes `_validate_sample`. -/
structure Sample where
  deviceId : ℤ
  totalBytes : ℤ
  availableBytes : ℤ
  consistent : 0 ≤ deviceId ∧ 0 < totalBytes ∧ 0 ≤ availableBytes ∧ availableBytes ≤ totalBytes

def Sample.used (sample : Sample) : ℤ := sample.totalBytes - sample.availableBytes

/-- `round((used * 100) / total_bytes, 6)`; the quotient is at most 100. -/
def Sample.capacityPercent (sample : Sample) : PyFloat :=
  .ofRat (roundDigits (fl ((sample.used * 100 : ℤ) / sample.totalBytes)) 6)

/-- `_validate_sample(HostCapacitySample(…))` of the values of a reading. -/
def readSample (reading : Dict) : Except PyErr Sample :=
  match Dict.get reading "device_id", Dict.get reading "total_bytes", Dict.get reading "available_bytes" with
  | .int device, .int total, .int available =>
    if h : 0 ≤ device ∧ 0 < total ∧ 0 ≤ available ∧ available ≤ total then .ok ⟨device, total, available, h⟩
    else .error (hostCapacityError "host capacity counters are inconsistent")
  | _, _, _ => .error (hostCapacityError "host capacity counters are inconsistent")

/-- `_reading(sample, sequence=…, observed_at=…)` of a time in UTC. -/
def readingOf (sample : Sample) (sequence : ℤ) (observedAt : DateTime) : Json :=
  .obj
    [(u "sequence", .int sequence), (u "observed_at", .str observedAt.isoformat),
      (u "device_id", .int sample.deviceId), (u "total_bytes", .int sample.totalBytes),
      (u "available_bytes", .int sample.availableBytes), (u "used_bytes", .int sample.used),
      (u "capacity_percent", .float sample.capacityPercent)]

/-- `_utc(value)`. -/
def utc (value : DateTime) : Except PyErr DateTime :=
  if value.offset.isSome then value.astimezoneUtc
  else .error (hostCapacityError "capacity timestamp must be timezone-aware")

/-- `_utc(datetime.fromisoformat(str(value)))`; the text of a value that is no string has no
timezone or is no date. -/
def readTime (value : Json) : Except PyErr DateTime :=
  catching
    (match value with
    | .str s =>
      match fromisoformat s with
      | some time => utc time
      | none => .error .valueError
    | _ => .error .valueError)
    (fun e => isHostCapacityError e || e.isValueError)
    (.error (hostCapacityError "host capacity reading timestamp is invalid"))

/-- `type(value) is int` and at least `least`. -/
def isIntFrom (least : ℤ) : Json → Bool
  | .int n => decide (least ≤ n)
  | _ => false

def isInt : Json → Bool
  | .int _ => true
  | _ => false

def isIntOrFloat : Json → Bool
  | .int _ | .float _ => true
  | _ => false

/-- `value >= 100`. -/
def atLeastHundred (value : Json) : Bool :=
  match value.number with
  | some q => decide (100 ≤ q)
  | none =>
    match value with
    | .float (.inf false) => true
    | _ => false

/-- `_reading_reasons(reading)` is not empty. -/
def hasReasons (sample : Sample) (percent : Json) : Bool :=
  decide (sample.availableBytes < minAvailableBytes) || atLeastHundred percent

def readingKeys : List String :=
  ["sequence", "observed_at", "device_id", "total_bytes", "available_bytes", "used_bytes",
    "capacity_percent"]

/-- One turn of the loop over the readings. -/
def checkReading (anchor : Dict) (sequence : ℤ) (value : Json) : Except PyErr DateTime := do
  match value with
  | .obj reading => do
    refuse (Dict.keysEq reading readingKeys) "host capacity reading fields are invalid"
    refuse (Json.pyEq (Dict.get reading "sequence") (.int sequence))
      "host capacity reading sequence is invalid"
    let observedAt ← readTime (Dict.get reading "observed_at")
    let sample ← readSample reading
    let percent := Dict.get reading "capacity_percent"
    refuse (isInt (Dict.get reading "used_bytes") && isIntOrFloat percent)
      "host capacity reading arithmetic is invalid"
    refuse (Json.pyEq value (readingOf sample sequence observedAt))
      "host capacity reading arithmetic is invalid"
    refuse (!hasReasons sample percent) "host capacity reading does not satisfy policy"
    refuse (Json.pyEq (Dict.get reading "device_id") (Dict.get anchor "device_id") &&
        Json.pyEq (Dict.get reading "total_bytes") (Dict.get anchor "total_bytes"))
      "host capacity reading anchor differs"
    .ok observedAt
  | _ => .error (hostCapacityError "host capacity reading fields are invalid")

/-! ## Receipts -/

def receiptKeys : List String :=
  ["schema", "observed_at", "status", "safe_to_start_runtime", "exit_classification", "policy", "anchor",
    "readings", "reasons", "authority", "claim_ceiling", "receipt_digest"]

def isTrueJson : Json → Bool
  | .bool b => b
  | _ => false

def validAnchor (anchor : Dict) : Bool :=
  Dict.keysEq anchor ["kind", "device_id", "total_bytes"] &&
    (Dict.get anchor "kind").isStr "host-filesystem-device" && isIntFrom 0 (Dict.get anchor "device_id") &&
      isIntFrom 1 (Dict.get anchor "total_bytes")

/-- `validate_host_capacity_receipt(receipt)`. -/
def validateHostCapacityReceipt (receipt : Json) : Except PyErr Dict := do
  match receipt with
  | .obj fields => do
    refuse (Dict.keysEq fields receiptKeys) "host capacity receipt fields are invalid"
    refuse ((Dict.get fields "schema").isStr "McpTrustHostCapacityReceiptV1" &&
        Json.pyEq (Dict.get fields "receipt_digest") (.str (unsignedDigest fields)))
      "host capacity receipt integrity is invalid"
    refuse (Json.pyEq (Dict.get fields "policy") policy &&
        Json.pyEq (Dict.get fields "authority") (.obj authorityFields))
      "host capacity receipt policy is invalid"
    refuse ((Dict.get fields "claim_ceiling").isStr hostClaimCeiling)
      "host capacity receipt claim ceiling is invalid"
    match Dict.get fields "anchor", Dict.get fields "readings" with
    | .obj anchor, .arr [first, second] => do
      refuse (validAnchor anchor) "host capacity receipt anchor or readings are invalid"
      let firstAt ← checkReading anchor 1 first
      let secondAt ← checkReading anchor 2 second
      refuse (decide (minIntervalSeconds ≤ DateTime.totalSeconds (secondAt.micros - firstAt.micros)))
        "host capacity reading interval is invalid"
      let last :=
        match second with
        | .obj reading => Dict.get reading "observed_at"
        | _ => .null
      refuse (Json.pyEq (Dict.get fields "observed_at") last) "host capacity receipt timestamp differs"
      refuse ((Dict.get fields "status").isStr "READY" &&
          isTrueJson (Dict.get fields "safe_to_start_runtime") &&
          (Dict.get fields "exit_classification").isStr "ready" &&
          Json.pyEq (Dict.get fields "reasons") (.arr []))
        "host capacity receipt is not READY"
      .ok fields
    | _, _ => .error (hostCapacityError "host capacity receipt anchor or readings are invalid")
  | _ => .error (hostCapacityError "host capacity receipt fields are invalid")

inductive Operation
  | qualification
  | cleanup
  deriving DecidableEq

def Operation.text : Operation → String
  | qualification => "qualification"
  | cleanup => "cleanup"

/-- `^v[0-9]+(?:[-._][A-Za-z0-9][A-Za-z0-9._-]{0,119})?$`. -/
def isReceiptSet : Str → Bool
  | c :: rest =>
    let digits := rest.takeWhile isDigit
    decide (c = ch 'v') && !digits.isEmpty &&
      match rest.drop digits.length with
      | [] => true
      | sep :: head :: tail =>
        decide (sep ∈ u "-._") && isAlnum head && decide (tail.length ≤ 119) &&
          tail.all fun d => isAlnum d || decide (d ∈ u "._-")
      | _ => false
  | [] => false

def qualificationKeys : List String :=
  ["schema", "operation", "receipt_set", "cohort", "host_capacity", "authority", "claim_ceiling",
    "receipt_digest"]

/-- `validate_qualification_capacity_receipt(receipt, operation=…, receipt_set=…, cohort=…)`. -/
def validateQualificationCapacityReceipt (receipt : Json) (operation : Operation) (receiptSet : Str)
    (cohort : Cohort) : Except PyErr Dict := do
  refuse (isReceiptSet receiptSet) "qualification capacity expected scope is invalid"
  match receipt with
  | .obj fields => do
    refuse (Dict.keysEq fields qualificationKeys) "qualification capacity receipt fields are invalid"
    refuse ((Dict.get fields "schema").isStr Kind.capacity.schema &&
        Json.pyEq (Dict.get fields "receipt_digest") (.str (unsignedDigest fields)))
      "qualification capacity receipt integrity is invalid"
    refuse ((Dict.get fields "operation").isStr operation.text &&
        Json.pyEq (Dict.get fields "receipt_set") (.str receiptSet) &&
        (Dict.get fields "cohort").isStr cohort.text)
      "qualification capacity receipt scope differs"
    refuse (Json.pyEq (Dict.get fields "authority") qualificationAuthority &&
        (Dict.get fields "claim_ceiling").isStr qualificationClaimCeiling)
      "qualification capacity receipt authority is invalid"
    let _ ← validateHostCapacityReceipt (Dict.get fields "host_capacity")
    .ok fields
  | _ => .error (hostCapacityError "qualification capacity receipt fields are invalid")

/-! ## What an accepted receipt says -/

theorem refuse_eq_ok {accepted : Bool} {message : String} {a : Unit} :
    refuse accepted message = .ok a ↔ accepted = true := by
  unfold refuse
  by_cases h : accepted = true
  · rw [if_pos h]
    exact iff_of_true rfl h
  · rw [if_neg h]
    exact iff_of_false nofun h

end McpTrust.Qualification
