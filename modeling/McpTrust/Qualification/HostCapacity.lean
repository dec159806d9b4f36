import McpTrust.Python.JsonLoads
import McpTrust.Refresh.LocalRows
import McpTrust.Qualification.Capacity
import McpTrust.Qualification.Runs
import McpTrust.Python.Seconds
import McpTrust.Python.IsoRoundtrip
import McpTrust.Python.JsonArrange
import McpTrust.Python.JsonWritable

/-! # Building a host-capacity receipt

`build_host_capacity_receipt` observes twice; what it returns is accepted after a
JSON round trip exactly where it is READY, and `require_current_host_capacity` asks
for a third observation within two minutes.
-/

namespace McpTrust.Qualification

set_option autoImplicit false

open Python Refresh

/-! ## Observing -/

/-- `HostCapacitySample`, with the counters as they were read. -/
structure RawSample where
  deviceId : ℤ
  totalBytes : ℤ
  availableBytes : ℤ

/-- `_validate_sample(sample)`. -/
def validateSample (raw : RawSample) : Except PyErr Sample :=
  if h : 0 ≤ raw.deviceId ∧ 0 < raw.totalBytes ∧ 0 ≤ raw.availableBytes ∧ raw.availableBytes ≤ raw.totalBytes then
    .ok ⟨raw.deviceId, raw.totalBytes, raw.availableBytes, h⟩
  else .error (hostCapacityError "host capacity counters are inconsistent")

/-- A consistent sample and its time in UTC. -/
structure Observation where
  sample : Sample
  time : DateTime

/-- `reader(anchor)`, `_utc(clock())` and the checks of `_reading`. -/
def observe (reader : Except PyErr RawSample) (clock : DateTime) : Except PyErr Observation := do
  let raw ← reader
  let time ← utc clock
  let sample ← validateSample raw
  .ok ⟨sample, time⟩

/-- `_reading_reasons(reading)`. -/
def readingReasons (sample : Sample) : List Str :=
  (if sample.availableBytes < minAvailableBytes then [u "available_bytes_below_5_gib"] else []) ++
    if atLeastHundred (.float sample.capacityPercent) then [u "capacity_not_below_100_percent"] else []

/-- The reasons a pair of observations gives. -/
def pairReasons (one two : Observation) : List Str :=
  readingReasons two.sample ++
    (if two.sample.deviceId ≠ one.sample.deviceId then [u "capacity_anchor_device_changed"] else []) ++
    (if two.sample.totalBytes ≠ one.sample.totalBytes then [u "capacity_anchor_total_changed"] else []) ++
    if DateTime.totalSeconds (two.time.micros - one.time.micros) < minIntervalSeconds then
      [u "capacity_readings_too_close"]
    else []

/-- The reason an exception leaves, where it is handled. -/
def reasonOf : PyErr → Option Str
  | .app cls message =>
    if cls = "HostCapacityError" then some ((u message).map fun c => if c = ch ' ' then ch '_' else c) else none
  | .osError | .overflowError | .typeError | .valueError | .unicodeError | .jsonDecodeError =>
    some (u "host_capacity_observation_failed")
  | _ => none

/-! ## The receipt -/

def anchorPayload : List Observation → Dict
  | [] => [(u "kind", .str (u "host-filesystem-device")), (u "device_id", .null), (u "total_bytes", .null)]
  | one :: _ =>
    [(u "kind", .str (u "host-filesystem-device")), (u "device_id", .int one.sample.deviceId),
      (u "total_bytes", .int one.sample.totalBytes)]

def readingsJson (readings : List Observation) : List Json :=
  (readings.zipIdx 1).map fun p => readingOf p.1.sample p.2 p.1.time

def receiptPayload (readings : List Observation) (reasons : List Str) (observedAt : DateTime) : Dict :=
  let ready := decide (readings.length = 2) && reasons.isEmpty
  [(u "schema", .str (u "McpTrustHostCapacityReceiptV1")), (u "observed_at", .str observedAt.isoformat),
    (u "status", .str (if ready then u "READY" else u "BLOCKED")), (u "safe_to_start_runtime", .bool ready),
    (u "exit_classification", .str (if ready then u "ready" else u "capacity-blocked")), (u "policy", policy),
    (u "anchor", .obj (anchorPayload readings)), (u "readings", .arr (readingsJson readings)),
    (u "reasons", .arr ((sortedSet reasons).map .str)), (u "authority", .obj authorityFields),
    (u "claim_ceiling", .str (u hostClaimCeiling))]

/-- The interpreter writes no integer of more than 4300 digits. -/
def isPrintable : Json → Bool
  | .int n => decide ((intRepr n).length ≤ 4300)
  | _ => true

/-- `payload["receipt_digest"] = _digest(payload)`. -/
def sealReceipt (payload : Dict) : Except PyErr Dict :=
  if (Json.obj payload).walk.all isPrintable then
    .ok (payload ++ [(u "receipt_digest", .str (digestBytes (canonicalBytes (.obj payload))))])
  else .error .valueError

/-- `build_host_capacity_receipt(…)` of what the reader and the clock return at each call. -/
def buildHostCapacityReceipt (first second : Except PyErr RawSample) (clock clock' : DateTime) : Except PyErr Dict :=
  match observe first clock with
  | .error e =>
    match reasonOf e with
    | none => .error e
    | some reason => do
      -- the clock was read only where the reader returned
      let observedAt ← utc (match first with
        | .ok _ => clock'
        | .error _ => clock)
      sealReceipt (receiptPayload [] [reason] observedAt)
  | .ok one =>
    if readingReasons one.sample ≠ [] then sealReceipt (receiptPayload [one] (readingReasons one.sample) one.time)
    else
      match observe second clock' with
      | .error e =>
        match reasonOf e with
        | none => .error e
        | some reason => sealReceipt (receiptPayload [one] [reason] one.time)
      | .ok two => sealReceipt (receiptPayload [one, two] (pairReasons one two) two.time)

/-- `require_current_host_capacity(receipt, now=…, reader=…)`. -/
def requireCurrentHostCapacity (receipt : Json) (now : DateTime) (reader : Except PyErr RawSample) :
    Except PyErr Dict := do
  let validated ← validateHostCapacityReceipt receipt
  let currentTime ← utc now
  let observedAt ← catching (readTime (Dict.get validated "observed_at")) isHostCapacityError
    (.error (hostCapacityError "host capacity receipt timestamp is invalid"))
  let age := DateTime.totalSeconds (currentTime.micros - observedAt.micros)
  refuse (decide (¬(age < 0 ∨ 120 < age))) "host capacity receipt is stale or future-dated"
  let raw ← reader
  let current ← validateSample raw
  let expectedAnchor :=
    match Dict.get validated "anchor" with
    | .obj anchor => anchor
    | _ => []
  refuse (Json.pyEq (.int current.deviceId) (Dict.get expectedAnchor "device_id") &&
      Json.pyEq (.int current.totalBytes) (Dict.get expectedAnchor "total_bytes"))
    "host capacity anchor changed"
  refuse (decide (readingReasons current = [])) "current host capacity does not satisfy policy"
  .ok
    [(u "receipt_digest", Dict.get validated "receipt_digest"), (u "observed_at", Dict.get validated "observed_at"),
      (u "device_id", .int current.deviceId), (u "total_bytes", .int current.totalBytes),
      (u "current_available_bytes", .int current.availableBytes),
      (u "current_capacity_percent", .float current.capacityPercent)]

/-! ## Percentages -/

theorem capacityPercent_finite (sample : Sample) : sample.capacityPercent.isFinite = true := by
  obtain ⟨-, htotal, havailable, hle⟩ := sample.consistent
  have hused : 0 ≤ sample.used ∧ sample.used ≤ sample.totalBytes := by
    unfold Sample.used
    omega
  have hpos : (0 : ℚ) < sample.totalBytes := by exact_mod_cast htotal
  have hpercent : |((sample.used * 100 : ℤ) : ℚ) / sample.totalBytes| ≤ 100 := by
    have hlow : (0 : ℚ) ≤ sample.used := by exact_mod_cast hused.1
    have hhigh : (sample.used : ℚ) ≤ sample.totalBytes := by exact_mod_cast hused.2
    push_cast
    rw [abs_of_nonneg (by positivity), div_le_iff₀ hpos]
    linarith
  generalize hq : ((sample.used * 100 : ℤ) : ℚ) / sample.totalBytes = q at hpercent
  have hfl := abs_le.mp (fl_near (hpercent.trans (by norm_num)))
  rw [ulpBound] at hfl
  obtain ⟨hq₁, hq₂⟩ := abs_le.mp hpercent
  have herror := abs_le.mp (roundHalfEven_error (fl q * 10 ^ 6))
  have hscaled : |(roundHalfEven (fl q * 10 ^ 6) : ℚ) / 10 ^ 6| ≤ 102 := by
    have hmillion : (10 : ℚ) ^ 6 = 1000000 := by norm_num
    rw [hmillion] at herror ⊢
    have hbounds : -101 ≤ fl q ∧ fl q ≤ 101 := ⟨by linarith [hfl.1], by linarith [hfl.2]⟩
    rw [abs_le, le_div_iff₀ (by norm_num), div_le_iff₀ (by norm_num)]
    exact ⟨by linarith [herror.1, hbounds.1], by linarith [herror.2, hbounds.2]⟩
  have hrounded := abs_le.mp (fl_near (hscaled.trans (by norm_num)))
  rw [ulpBound] at hrounded
  obtain ⟨hs₁, hs₂⟩ := abs_le.mp hscaled
  have hmoderate : |roundDigits (fl q) 6| ≤ 256 := by
    rw [roundDigits, abs_le]
    constructor <;> linarith [hrounded.1, hrounded.2]
  obtain ⟨r, hr, -⟩ := near_ofRat hmoderate
  rw [Sample.capacityPercent, hq]
  cases hx : PyFloat.ofRat (roundDigits (fl q) 6) with
  | finite x => rfl
  | negZero => rfl
  | inf negative =>
    rw [hx] at hr
    cases hr
  | nan =>
    rw [hx] at hr
    cases hr

/-! ## The texts of a receipt -/

theorem chain_reason {e : PyErr} {reason : Str} (h : reasonOf e = some reason) : reason.IsChain NoPair := by
  unfold reasonOf at h
  split at h
  · split_ifs at h
    cases h
    apply chain_of_scalars
    intro c hc
    obtain ⟨d, hd, rfl⟩ := List.mem_map.mp hc
    split
    · exact isSurrogate_ch '_'
    · rw [u_eq_map] at hd
      obtain ⟨e, -, rfl⟩ := List.mem_map.mp hd
      exact isSurrogate_ch e
  all_goals first
    | (cases h; exact chain_u _)
    | cases h

/-! ## The fields of a receipt -/

def readingFields (sample : Sample) (sequence : ℤ) (observedAt : DateTime) : Dict :=
  [(u "sequence", .int sequence), (u "observed_at", .str observedAt.isoformat),
    (u "device_id", .int sample.deviceId), (u "total_bytes", .int sample.totalBytes),
    (u "available_bytes", .int sample.availableBytes), (u "used_bytes", .int sample.used),
    (u "capacity_percent", .float sample.capacityPercent)]

theorem readingOf_eq (sample : Sample) (sequence : ℤ) (observedAt : DateTime) :
    readingOf sample sequence observedAt = .obj (readingFields sample sequence observedAt) := rfl

theorem keys_readingFields (sample : Sample) (sequence : ℤ) (observedAt : DateTime) :
    Dict.keys (readingFields sample sequence observedAt) = readingKeys.map u := rfl

theorem nodup_readingFields (sample : Sample) (sequence : ℤ) (observedAt : DateTime) :
    (Dict.keys (readingFields sample sequence observedAt)).Nodup := by
  rw [keys_readingFields]
  exact nodup_names (by decide)

theorem writable_reading (sample : Sample) (sequence : ℤ) {observedAt : DateTime} (hutc : observedAt.offset = some 0)
    (depth : Nat) : Writable (depth + 1) (readingOf sample sequence observedAt) := by
  have hnames : readingKeys.Nodup := by decide
  apply @writable_named [("sequence", .int sequence), ("observed_at", .str observedAt.isoformat),
    ("device_id", .int sample.deviceId), ("total_bytes", .int sample.totalBytes),
    ("available_bytes", .int sample.availableBytes), ("used_bytes", .int sample.used),
    ("capacity_percent", .float sample.capacityPercent)] depth hnames
  simp only [List.forall_mem_cons, List.not_mem_nil, false_imp_iff, implies_true, and_true]
  exact ⟨writable_int _ _, writable_str (chain_of_ascii (ascii_isoformat hutc)) _, writable_int _ _, writable_int _ _,
    writable_int _ _, writable_int _ _, writable_float (capacityPercent_finite sample) _⟩

theorem writable_policy (depth : Nat) : Writable (depth + 1) policy := by
  apply @writable_named [("minimum_available_bytes", .int minAvailableBytes),
    ("maximum_capacity_percent_exclusive", .int 100), ("required_readings", .int 2),
    ("minimum_interval_seconds", .int minIntervalSeconds), ("maximum_receipt_age_seconds", .int 120)] depth (by decide)
  simp only [List.forall_mem_cons, List.not_mem_nil, false_imp_iff, implies_true, and_true]
  exact ⟨writable_int _ _, writable_int _ _, writable_int _ _, writable_int _ _, writable_int _ _⟩

theorem writable_authority (depth : Nat) : Writable (depth + 1) (.obj authorityFields) := by
  apply @writable_named [("observation_only", .bool true), ("colima_start_performed", .bool false),
    ("docker_invoked", .bool false), ("mcp_execution", .bool false), ("database_accessed", .bool false),
    ("publication_performed", .bool false), ("deployment_performed", .bool false),
    ("scheduler_change_performed", .bool false)] depth (by decide)
  simp only [List.forall_mem_cons, List.not_mem_nil, false_imp_iff, implies_true, and_true]
  exact ⟨writable_bool _ _, writable_bool _ _, writable_bool _ _, writable_bool _ _, writable_bool _ _,
    writable_bool _ _, writable_bool _ _, writable_bool _ _⟩

def anchorKeys : List String := ["kind", "device_id", "total_bytes"]

theorem writable_anchor (readings : List Observation) (depth : Nat) :
    Writable (depth + 1) (.obj (anchorPayload readings)) := by
  have hnames : anchorKeys.Nodup := by decide
  cases readings with
  | nil =>
    apply @writable_named [("kind", .str (u "host-filesystem-device")), ("device_id", .null), ("total_bytes", .null)]
      depth hnames
    simp only [List.forall_mem_cons, List.not_mem_nil, false_imp_iff, implies_true, and_true]
    exact ⟨writable_str (chain_u _) _, writable_null _, writable_null _⟩
  | cons one rest =>
    apply @writable_named [("kind", .str (u "host-filesystem-device")), ("device_id", .int one.sample.deviceId),
      ("total_bytes", .int one.sample.totalBytes)] depth hnames
    simp only [List.forall_mem_cons, List.not_mem_nil, false_imp_iff, implies_true, and_true]
    exact ⟨writable_str (chain_u _) _, writable_int _ _, writable_int _ _⟩

section

variable (readings : List Observation) (reasons : List Str) (observedAt : DateTime)

theorem keys_receiptPayload :
    Dict.keys (receiptPayload readings reasons observedAt) = receiptKeys.dropLast.map u := rfl

theorem keys_sealed : Dict.keys (sealed (receiptPayload readings reasons observedAt)) = receiptKeys.map u := rfl

theorem nodup_sealed : (Dict.keys (sealed (receiptPayload readings reasons observedAt))).Nodup := by
  rw [keys_sealed]
  exact nodup_names (by decide)

theorem fresh_receiptPayload : ∀ kv ∈ receiptPayload readings reasons observedAt, kv.1 ≠ u "receipt_digest" := by
  intro kv hkv
  have hkey : kv.1 ∈ receiptKeys.dropLast.map u := by
    rw [← keys_receiptPayload readings reasons observedAt]
    exact List.mem_map_of_mem hkv
  have hnames : ∀ key ∈ receiptKeys.dropLast.map u, key ≠ u "receipt_digest" := by decide
  exact hnames _ hkey

variable {readings reasons observedAt} (hreadings : ∀ o ∈ readings, o.time.offset = some 0)
  (hreasons : ∀ reason ∈ reasons, reason.IsChain NoPair) (hutc : observedAt.offset = some 0)

include hreadings hreasons hutc

theorem writable_receipt : Writable 64 (.obj (sealed (receiptPayload readings reasons observedAt))) := by
  have hitems : Writable 63 (.arr (readingsJson readings)) := by
    apply writable_arr
    intro v hv
    obtain ⟨p, hp, rfl⟩ := List.mem_map.mp hv
    obtain ⟨o, n⟩ := p
    exact writable_reading _ _ (hreadings o (List.fst_mem_of_mem_zipIdx hp)) _
  have hsorted : Writable 63 (.arr ((sortedSet reasons).map .str)) := by
    apply writable_arr
    intro v hv
    obtain ⟨reason, hreason, rfl⟩ := List.mem_map.mp hv
    exact writable_str (hreasons reason (mem_sortedSet.mp hreason)) _
  apply writable_obj (nodup_sealed _ _ _)
  simp only [sealed, receiptPayload, List.cons_append, List.nil_append, List.forall_mem_cons, List.not_mem_nil,
    false_imp_iff, implies_true, and_true]
  refine ⟨⟨chain_u _, writable_str (chain_u _) _⟩,
    ⟨chain_u _, writable_str (chain_of_ascii (ascii_isoformat hutc)) _⟩, ⟨chain_u _, writable_str ?_ _⟩,
    ⟨chain_u _, writable_bool _ _⟩, ⟨chain_u _, writable_str ?_ _⟩, ⟨chain_u _, writable_policy _⟩, ⟨chain_u _, writable_anchor _ _⟩,
    ⟨chain_u _, hitems⟩, ⟨chain_u _, hsorted⟩, ⟨chain_u _, writable_authority _⟩, ⟨chain_u _, writable_str (chain_u _) _⟩,
    ⟨chain_u _, writable_str (chain_of_ascii (ascii_digestBytes _)) _⟩⟩
  · split <;> exact chain_u _
  · split <;> exact chain_u _

end

/-- What sealing returns holds the digest of the payload. -/
theorem sealReceipt_eq_ok {payload receipt : Dict} (hfresh : ∀ kv ∈ payload, kv.1 ≠ u "receipt_digest")
    (h : sealReceipt payload = .ok receipt) : receipt = sealed payload ∧ Printable (.obj (sealed payload)) := by
  unfold sealReceipt at h
  split_ifs at h with hprint
  cases h
  have hdigest : digestBytes (canonicalBytes (.obj payload)) = unsignedDigest payload := by
    rw [unsignedDigest, List.filter_eq_self.mpr fun kv hkv => decide_eq_true (hfresh kv hkv)]
  rw [hdigest]
  refine ⟨rfl, fun n hn => ?_⟩
  rw [sealed, Json.walk, List.mem_cons, Json.mem_walkFields] at hn
  obtain hn | ⟨kv, hkv, hn⟩ := hn
  · cases hn
  obtain hkv | hkv := List.mem_append.mp hkv
  · have hall := List.all_eq_true.mp hprint (.int n) (by
      rw [Json.walk, List.mem_cons, Json.mem_walkFields]
      exact .inr ⟨kv, hkv, hn⟩)
    exact of_decide_eq_true hall
  · -- the digest is a text
    rw [List.mem_singleton.mp hkv] at hn
    simp [Json.walk] at hn

/-! ## Acceptance -/

theorem pyEq_int_int {m n : ℤ} : Json.pyEq (.int m) (.int n) = true ↔ m = n := by
  simp [Json.pyEq, Json.sameNumber, Json.number]

theorem utc_eq_ok {value time : DateTime} :
    utc value = .ok time ↔ value.offset.isSome = true ∧ time.micros = value.instant ∧ time.offset = some 0 := by
  unfold utc
  split_ifs with haware
  · rw [DateTime.astimezoneUtc_eq_ok]
    exact (and_iff_right haware).symm
  · exact iff_of_false nofun fun h => haware h.1

theorem utc_of_utc {time : DateTime} (hutc : time.offset = some 0) : utc time = .ok time := by
  refine utc_eq_ok.mpr ⟨by rw [hutc]; rfl, ?_, hutc⟩
  rw [DateTime.instant, hutc]
  exact (sub_zero _).symm

theorem readTime_isoformat {time : DateTime} (hutc : time.offset = some 0) :
    readTime (.str time.isoformat) = .ok time := by
  simp only [readTime, fromisoformat_isoformat hutc, utc_of_utc hutc, catching_ok]

theorem readSample_eq {reading : Dict} {sample : Sample} (hdevice : Dict.get reading "device_id" = .int sample.deviceId)
    (htotal : Dict.get reading "total_bytes" = .int sample.totalBytes)
    (havailable : Dict.get reading "available_bytes" = .int sample.availableBytes) :
    readSample reading = .ok sample := by
  unfold readSample
  rw [hdevice, htotal, havailable]
  exact dif_pos sample.consistent

/-- The numbers the policy asks of a sample. -/
structure Safe (sample : Sample) : Prop where
  available : 5 * 1024 ^ 3 ≤ sample.availableBytes
  capacity : ∃ percent, sample.capacityPercent.value? = some percent ∧ percent < 100

theorem readingReasons_eq_nil {sample : Sample} : readingReasons sample = [] ↔
    ¬sample.availableBytes < minAvailableBytes ∧ atLeastHundred (.float sample.capacityPercent) = false := by
  unfold readingReasons
  rw [List.append_eq_nil_iff]
  split_ifs <;> simp_all

theorem readingReasons_eq_nil_iff_safe {sample : Sample} : readingReasons sample = [] ↔ Safe sample := by
  rw [readingReasons_eq_nil]
  have hfinite := capacityPercent_finite sample
  have hpercent : atLeastHundred (.float sample.capacityPercent) = false ↔
      ∃ percent, sample.capacityPercent.value? = some percent ∧ percent < 100 := by
    unfold atLeastHundred
    cases hx : sample.capacityPercent with
    | finite x => simp [Json.number, PyFloat.value?]
    | negZero => simp [Json.number, PyFloat.value?]
    | inf negative =>
      rw [hx] at hfinite
      cases hfinite
    | nan =>
      rw [hx] at hfinite
      cases hfinite
  constructor
  · rintro ⟨havailable, hcapacity⟩
    exact ⟨not_lt.mp havailable, hpercent.mp hcapacity⟩
  · rintro ⟨havailable, hcapacity⟩
    exact ⟨not_lt.mpr havailable, hpercent.mpr hcapacity⟩

theorem hasReasons_of_safe {sample : Sample} (h : readingReasons sample = []) :
    hasReasons sample (.float sample.capacityPercent) = false := by
  obtain ⟨havailable, hcapacity⟩ := readingReasons_eq_nil.mp h
  rw [hasReasons, hcapacity, decide_eq_false havailable]
  rfl

theorem get_arranged (st : Style) {fields : Dict} (hnodup : (Dict.keys fields).Nodup) {name : String} {value : Json}
    (hvalue : Dict.get fields name = value) (hscalar : value.sortKeys = value) :
    Dict.get (arrangeFields st fields) name = value := by
  rw [get_arrangeFields st hnodup, hvalue, arrange_scalar st hscalar]

/-- A reading of the builder is what the loop over the readings expects. -/
theorem checkReading_arranged (st : Style) {anchor : Dict} {sample : Sample} {time : DateTime} (sequence : ℤ)
    (hutc : time.offset = some 0) (hsafe : readingReasons sample = [])
    (hdevice : Dict.get anchor "device_id" = .int sample.deviceId)
    (htotal : Dict.get anchor "total_bytes" = .int sample.totalBytes) :
    checkReading anchor sequence (.obj (arrangeFields st (readingFields sample sequence time))) = .ok time := by
  have hnodup := nodup_readingFields sample sequence time
  have hwritable := writable_reading sample sequence hutc 63
  have hsequence := get_arranged st hnodup (show Dict.get _ "sequence" = .int sequence from rfl) rfl
  have hobserved := get_arranged st hnodup (show Dict.get _ "observed_at" = .str time.isoformat from rfl) rfl
  have hdevice' := get_arranged st hnodup (show Dict.get _ "device_id" = .int sample.deviceId from rfl) rfl
  have htotal' := get_arranged st hnodup (show Dict.get _ "total_bytes" = .int sample.totalBytes from rfl) rfl
  have havailable := get_arranged st hnodup
    (show Dict.get _ "available_bytes" = .int sample.availableBytes from rfl) rfl
  have hused := get_arranged st hnodup (show Dict.get _ "used_bytes" = .int sample.used from rfl) rfl
  have hpercent := get_arranged st hnodup
    (show Dict.get _ "capacity_percent" = .float sample.capacityPercent from rfl) rfl
  rw [checkReading]
  refine bind_eq_ok.mpr ⟨(), refuse_eq_ok.mpr ?_, ?_⟩
  · rw [keysEq_arrangeFields]
    exact keysEq_names (keys_readingFields sample sequence time)
  refine bind_eq_ok.mpr ⟨(), refuse_eq_ok.mpr ?_, ?_⟩
  · rw [hsequence]
    exact pyEq_int_int.mpr rfl
  refine bind_eq_ok.mpr ⟨time, ?_, ?_⟩
  · rw [hobserved]
    exact readTime_isoformat hutc
  refine bind_eq_ok.mpr ⟨sample, readSample_eq hdevice' htotal' havailable, ?_⟩
  refine bind_eq_ok.mpr ⟨(), refuse_eq_ok.mpr ?_, ?_⟩
  · rw [hused, hpercent]
    rfl
  refine bind_eq_ok.mpr ⟨(), refuse_eq_ok.mpr ?_, ?_⟩
  · rw [← arrange_obj, readingOf_eq]
    exact pyEq_arrange st hwritable.unique hwritable.floats
  refine bind_eq_ok.mpr ⟨(), refuse_eq_ok.mpr ?_, ?_⟩
  · rw [hpercent, hasReasons_of_safe hsafe]
    rfl
  refine bind_eq_ok.mpr ⟨(), refuse_eq_ok.mpr ?_, rfl⟩
  rw [hdevice', htotal', hdevice, htotal, Bool.and_eq_true]
  exact ⟨pyEq_int_int.mpr rfl, pyEq_int_int.mpr rfl⟩

theorem unsignedDigest_arranged (st : Style) {fields : Dict} (hunique : (Json.obj fields).UniqueKeys) :
    unsignedDigest (arrangeFields st fields) = unsignedDigest fields := by
  have hsorted := sortKeys_filter_arrange st hunique fun key => decide (key ≠ u "receipt_digest")
  have harrange (v : Json) : asciiStyle.arrange v = v.sortKeys := rfl
  rw [unsignedDigest, unsignedDigest, canonicalBytes, canonicalBytes, dumps, dumps, harrange, harrange, hsorted]

/-- A sealed receipt of two safe observations is READY and is accepted. -/
theorem validate_arranged (st : Style) {one two : Observation} (hone : one.time.offset = some 0)
    (htwo : two.time.offset = some 0) (hsafe : readingReasons one.sample = []) (hsafe' : readingReasons two.sample = [])
    (hdevice : two.sample.deviceId = one.sample.deviceId) (htotal : two.sample.totalBytes = one.sample.totalBytes)
    (hapart : minIntervalSeconds ≤ DateTime.totalSeconds (two.time.micros - one.time.micros)) :
    validateHostCapacityReceipt (.obj (arrangeFields st (sealed (receiptPayload [one, two] [] two.time)))) =
      .ok (arrangeFields st (sealed (receiptPayload [one, two] [] two.time))) := by
  have hnodup := nodup_sealed [one, two] [] two.time
  have hfresh := fresh_receiptPayload [one, two] [] two.time
  have hreadings : ∀ o ∈ [one, two], o.time.offset = some 0 := by
    intro o ho
    obtain rfl | ho := List.mem_cons.mp ho
    · exact hone
    · rwa [List.mem_singleton.mp ho]
  have hunique := (writable_receipt hreadings (List.forall_mem_nil _) htwo).unique
  have hanchorNodup : (Dict.keys (anchorPayload [one, two])).Nodup := by
    have hnames : anchorKeys.Nodup := by decide
    exact nodup_names hnames
  -- what the receipt holds after arranging
  have hschema := get_arranged st hnodup
    (show Dict.get _ "schema" = .str (u "McpTrustHostCapacityReceiptV1") from rfl) rfl
  have hdigest := get_arranged st hnodup (get_sealed hfresh) rfl
  have hpolicy := (get_arrangeFields st hnodup "policy").trans
    (congrArg st.arrange (show Dict.get _ "policy" = policy from rfl))
  have hauthority := (get_arrangeFields st hnodup "authority").trans
    (congrArg st.arrange (show Dict.get _ "authority" = .obj authorityFields from rfl))
  have hceiling := get_arranged st hnodup (show Dict.get _ "claim_ceiling" = .str (u hostClaimCeiling) from rfl) rfl
  have hanchor := (get_arrangeFields st hnodup "anchor").trans
    (congrArg st.arrange (show Dict.get _ "anchor" = .obj (anchorPayload [one, two]) from rfl))
  have hitems := (get_arrangeFields st hnodup "readings").trans (congrArg st.arrange (show Dict.get _ "readings" =
    .arr [.obj (readingFields one.sample 1 one.time), .obj (readingFields two.sample 2 two.time)] from rfl))
  have hobserved := get_arranged st hnodup (show Dict.get _ "observed_at" = .str two.time.isoformat from rfl) rfl
  have hstatus := get_arranged st hnodup (show Dict.get _ "status" = .str (u "READY") from rfl) rfl
  have hstart := get_arranged st hnodup (show Dict.get _ "safe_to_start_runtime" = .bool true from rfl) rfl
  have hexit := get_arranged st hnodup (show Dict.get _ "exit_classification" = .str (u "ready") from rfl) rfl
  have hreasons := get_arranged st hnodup (show Dict.get _ "reasons" = .arr [] from rfl) rfl
  rw [arrange_obj] at hanchor
  rw [arrange_arr, List.map_cons, List.map_cons, List.map_nil, arrange_obj, arrange_obj] at hitems
  have hkind := get_arranged st hanchorNodup (show Dict.get _ "kind" = .str (u "host-filesystem-device") from rfl) rfl
  have hanchorDevice := get_arranged st hanchorNodup
    (show Dict.get _ "device_id" = .int one.sample.deviceId from rfl) rfl
  have hanchorTotal := get_arranged st hanchorNodup
    (show Dict.get _ "total_bytes" = .int one.sample.totalBytes from rfl) rfl
  obtain ⟨hdeviceId, htotalBytes, -, -⟩ := one.sample.consistent
  rw [validateHostCapacityReceipt]
  refine bind_eq_ok.mpr ⟨(), refuse_eq_ok.mpr ?_, ?_⟩
  · rw [keysEq_arrangeFields]
    exact keysEq_names (keys_sealed _ _ _)
  refine bind_eq_ok.mpr ⟨(), refuse_eq_ok.mpr ?_, ?_⟩
  · rw [hschema, hdigest, unsignedDigest_arranged st hunique, unsignedDigest_sealed hfresh, Bool.and_eq_true]
    exact ⟨Json.isStr_eq_true.mpr rfl, Json.pyEq_str.mpr rfl⟩
  refine bind_eq_ok.mpr ⟨(), refuse_eq_ok.mpr ?_, ?_⟩
  · rw [hpolicy, hauthority, Bool.and_eq_true]
    exact ⟨pyEq_arrange st (writable_policy 63).unique (writable_policy 63).floats,
      pyEq_arrange st (writable_authority 63).unique (writable_authority 63).floats⟩
  refine bind_eq_ok.mpr ⟨(), refuse_eq_ok.mpr ?_, ?_⟩
  · rw [hceiling]
    exact Json.isStr_eq_true.mpr rfl
  rw [hanchor, hitems]
  refine bind_eq_ok.mpr ⟨(), refuse_eq_ok.mpr ?_, ?_⟩
  · rw [validAnchor, keysEq_arrangeFields, hkind, hanchorDevice, hanchorTotal]
    simp only [Bool.and_eq_true]
    have hkeys : Dict.keysEq (anchorPayload [one, two]) anchorKeys = true := keysEq_names rfl
    exact ⟨⟨⟨hkeys, Json.isStr_eq_true.mpr rfl⟩, decide_eq_true hdeviceId⟩, decide_eq_true htotalBytes⟩
  refine bind_eq_ok.mpr ⟨one.time, checkReading_arranged st 1 hone hsafe hanchorDevice hanchorTotal, ?_⟩
  rw [← hdevice] at hanchorDevice
  rw [← htotal] at hanchorTotal
  refine bind_eq_ok.mpr ⟨two.time, checkReading_arranged st 2 htwo hsafe' hanchorDevice hanchorTotal, ?_⟩
  refine bind_eq_ok.mpr ⟨(), refuse_eq_ok.mpr (decide_eq_true hapart), ?_⟩
  refine bind_eq_ok.mpr ⟨(), refuse_eq_ok.mpr ?_, ?_⟩
  · have hlast := get_arranged st (nodup_readingFields two.sample 2 two.time)
      (show Dict.get _ "observed_at" = .str two.time.isoformat from rfl) rfl
    rw [hobserved]
    change Json.pyEq _ (Dict.get (arrangeFields st (readingFields two.sample 2 two.time)) "observed_at") = true
    rw [hlast]
    exact Json.pyEq_str.mpr rfl
  refine bind_eq_ok.mpr ⟨(), refuse_eq_ok.mpr ?_, rfl⟩
  rw [hstatus, hstart, hexit, hreasons]
  simp only [Bool.and_eq_true]
  exact ⟨⟨⟨Json.isStr_eq_true.mpr rfl, rfl⟩, Json.isStr_eq_true.mpr rfl⟩, rfl⟩

/-- An accepted receipt says that it is READY. -/
theorem status_of_accepted {fields result : Dict} (h : validateHostCapacityReceipt (.obj fields) = .ok result) :
    Dict.get fields "status" = .str (u "READY") := by
  rw [validateHostCapacityReceipt] at h
  obtain ⟨-, -, h⟩ := bind_eq_ok.mp h
  obtain ⟨-, -, h⟩ := bind_eq_ok.mp h
  obtain ⟨-, -, h⟩ := bind_eq_ok.mp h
  obtain ⟨-, -, h⟩ := bind_eq_ok.mp h
  split at h
  · obtain ⟨-, -, h⟩ := bind_eq_ok.mp h
    obtain ⟨firstAt, -, h⟩ := bind_eq_ok.mp h
    obtain ⟨secondAt, -, h⟩ := bind_eq_ok.mp h
    obtain ⟨-, -, h⟩ := bind_eq_ok.mp h
    obtain ⟨-, -, h⟩ := bind_eq_ok.mp h
    obtain ⟨_, hready, -⟩ := bind_eq_ok.mp h
    have hfields := refuse_eq_ok.mp hready
    simp only [Bool.and_eq_true] at hfields
    exact Json.isStr_eq_true.mp hfields.1.1.1
  · cases h

/-! ## What the builder returns -/

/-- The counters of a sample, as they were read. -/
def Sample.raw (sample : Sample) : RawSample := ⟨sample.deviceId, sample.totalBytes, sample.availableBytes⟩

theorem validateSample_eq_ok {raw : RawSample} {sample : Sample} :
    validateSample raw = .ok sample ↔ raw = sample.raw := by
  unfold validateSample
  split_ifs with h
  · constructor
    · intro heq
      cases heq
      rfl
    · rintro rfl
      rfl
  · refine iff_of_false nofun fun heq => h ?_
    rw [heq]
    exact sample.consistent

theorem observe_eq_ok {reader : Except PyErr RawSample} {clock : DateTime} {o : Observation} :
    observe reader clock = .ok o ↔ reader = .ok o.sample.raw ∧ utc clock = .ok o.time := by
  rw [observe]
  constructor
  · intro h
    obtain ⟨raw, hread, h⟩ := bind_eq_ok.mp h
    obtain ⟨time, htime, h⟩ := bind_eq_ok.mp h
    obtain ⟨sample, hsample, h⟩ := bind_eq_ok.mp h
    cases h
    rw [validateSample_eq_ok.mp hsample] at hread
    exact ⟨hread, htime⟩
  · rintro ⟨hread, htime⟩
    exact bind_eq_ok.mpr ⟨_, hread, bind_eq_ok.mpr ⟨_, htime, bind_eq_ok.mpr ⟨_, validateSample_eq_ok.mpr rfl, rfl⟩⟩⟩

theorem observe_utc {reader : Except PyErr RawSample} {clock : DateTime} {o : Observation}
    (h : observe reader clock = .ok o) : o.time.offset = some 0 := (utc_eq_ok.mp (observe_eq_ok.mp h).2).2.2

/-- The receipt the builder returns, by its readings and reasons. -/
structure Built (first second : Except PyErr RawSample) (clock clock' : DateTime) (receipt : Dict)
    (readings : List Observation) (reasons : List Str) (observedAt : DateTime) : Prop where
  eq : receipt = sealed (receiptPayload readings reasons observedAt)
  printable : Printable (.obj receipt)
  inUtc : ∀ o ∈ readings, o.time.offset = some 0
  chained : ∀ reason ∈ reasons, reason.IsChain NoPair
  atUtc : observedAt.offset = some 0
  observed : readings.length = 2 → reasons = [] → ∃ one two, readings = [one, two] ∧ observedAt = two.time ∧
    observe first clock = .ok one ∧ observe second clock' = .ok two ∧ readingReasons one.sample = [] ∧
      pairReasons one two = []

theorem chain_readingReasons {sample : Sample} : ∀ reason ∈ readingReasons sample, reason.IsChain NoPair := by
  intro reason h
  unfold readingReasons at h
  obtain h | h := List.mem_append.mp h
  · split_ifs at h
    · rw [List.mem_singleton.mp h]
      exact chain_u _
    · cases h
  · split_ifs at h
    · rw [List.mem_singleton.mp h]
      exact chain_u _
    · cases h

theorem chain_pairReasons {one two : Observation} : ∀ reason ∈ pairReasons one two, reason.IsChain NoPair := by
  intro reason h
  unfold pairReasons at h
  have hsingle (c : Prop) [Decidable c] (s : String) (hmem : reason ∈ if c then [u s] else []) :
      reason.IsChain NoPair := by
    split_ifs at hmem
    · rw [List.mem_singleton.mp hmem]
      exact chain_u s
    · cases hmem
  simp only [List.mem_append] at h
  obtain ((h | h) | h) | h := h
  · exact chain_readingReasons reason h
  · exact hsingle _ _ h
  · exact hsingle _ _ h
  · exact hsingle _ _ h

variable {first second : Except PyErr RawSample} {clock clock' : DateTime} {receipt : Dict}

theorem built_of_ok (h : buildHostCapacityReceipt first second clock clock' = .ok receipt) :
    ∃ readings reasons observedAt, Built first second clock clock' receipt readings reasons observedAt := by
  unfold buildHostCapacityReceipt at h
  cases hfirst : observe first clock with
  | error e =>
    rw [hfirst] at h
    cases hreason : reasonOf e with
    | none => simp [hreason] at h
    | some reason =>
      simp only [hreason] at h
      obtain ⟨observedAt, hat, hseal⟩ := bind_eq_ok.mp h
      obtain ⟨heq, hprint⟩ := sealReceipt_eq_ok (fresh_receiptPayload _ _ _) hseal
      refine ⟨[], [reason], observedAt, heq, heq ▸ hprint, List.forall_mem_nil _, ?_, (utc_eq_ok.mp hat).2.2, nofun⟩
      exact List.forall_mem_singleton.mpr (chain_reason hreason)
  | ok one =>
    rw [hfirst] at h
    have hone := observe_utc hfirst
    simp only at h
    split_ifs at h with hunsafe
    · obtain ⟨heq, hprint⟩ := sealReceipt_eq_ok (fresh_receiptPayload _ _ _) h
      exact ⟨[one], readingReasons one.sample, one.time, heq, heq ▸ hprint, List.forall_mem_singleton.mpr hone,
        chain_readingReasons, hone, nofun⟩
    rw [not_not] at hunsafe
    cases hsecond : observe second clock' with
    | error e =>
      rw [hsecond] at h
      cases hreason : reasonOf e with
      | none => simp [hreason] at h
      | some reason =>
        simp only [hreason] at h
        obtain ⟨heq, hprint⟩ := sealReceipt_eq_ok (fresh_receiptPayload _ _ _) h
        exact ⟨[one], [reason], one.time, heq, heq ▸ hprint, List.forall_mem_singleton.mpr hone,
          List.forall_mem_singleton.mpr (chain_reason hreason), hone, nofun⟩
    | ok two =>
      rw [hsecond] at h
      have htwo := observe_utc hsecond
      obtain ⟨heq, hprint⟩ := sealReceipt_eq_ok (fresh_receiptPayload _ _ _) h
      refine ⟨[one, two], pairReasons one two, two.time, heq, heq ▸ hprint, ?_, chain_pairReasons, htwo,
        fun _ hnone => ⟨one, two, rfl, rfl, hfirst, hsecond, hunsafe, hnone⟩⟩
      intro o ho
      obtain rfl | ho := List.mem_cons.mp ho
      · exact hone
      · rwa [List.mem_singleton.mp ho]

/-- What a READY receipt stands for. -/
structure Ready (first second : Except PyErr RawSample) (clock clock' : DateTime) (one two : Sample) : Prop where
  first : first = .ok one.raw
  second : second = .ok two.raw
  device : two.deviceId = one.deviceId
  total : two.totalBytes = one.totalBytes
  apart : 30 * 10 ^ 6 ≤ clock'.instant - clock.instant
  safe : Safe one
  safe' : Safe two

theorem pairReasons_eq_nil {one two : Observation} : pairReasons one two = [] ↔
    readingReasons two.sample = [] ∧ two.sample.deviceId = one.sample.deviceId ∧
      two.sample.totalBytes = one.sample.totalBytes ∧
        minIntervalSeconds ≤ DateTime.totalSeconds (two.time.micros - one.time.micros) := by
  rw [pairReasons, List.append_eq_nil_iff, List.append_eq_nil_iff, List.append_eq_nil_iff, ite_eq_right_iff,
    ite_eq_right_iff, ite_eq_right_iff]
  simp only [List.cons_ne_nil, imp_false, not_not, not_lt, ne_eq, and_assoc]

theorem interval_iff (delta : ℤ) : (minIntervalSeconds : ℚ) ≤ DateTime.totalSeconds delta ↔ 30 * 10 ^ 6 ≤ delta := by
  have hexact : fl ((30 : ℤ) : ℚ) = (30 : ℤ) := by decide +kernel
  have hlt := totalSeconds_lt delta (show |((30 : ℤ) : ℚ)| ≤ 120 by norm_num) hexact
  rw [← not_lt, minIntervalSeconds, hlt, not_lt]
  norm_num

section

variable {readings : List Observation} {reasons : List Str} {observedAt : DateTime}
  (hbuilt : Built first second clock clock' receipt readings reasons observedAt)

include hbuilt

/-- The receipt read back from its text. -/
theorem Built.jsonLoads (interp : Interpreter) (st : Style) :
    jsonLoads interp (dumps st (.obj receipt)) = .ok (.obj (arrangeFields st receipt)) := by
  rw [← arrange_obj]
  apply jsonLoads_dumps interp st _ hbuilt.printable
  rw [hbuilt.eq]
  exact writable_receipt hbuilt.inUtc hbuilt.chained hbuilt.atUtc

theorem Built.member (st : Style) {name : String} {value : Json}
    (hvalue : Dict.get receipt name = value) (hscalar : value.sortKeys = value) :
    Dict.get (arrangeFields st receipt) name = value := by
  have hnodup : (Dict.keys receipt).Nodup := hbuilt.eq ▸ nodup_sealed readings reasons observedAt
  rw [get_arrangeFields st hnodup, hvalue, arrange_scalar st hscalar]

theorem Built.status : Dict.get receipt "status" = .str (u "READY") ↔ readings.length = 2 ∧ reasons = [] := by
  have hget : Dict.get receipt "status" =
      .str (if decide (readings.length = 2) && reasons.isEmpty then u "READY" else u "BLOCKED") := by
    rw [hbuilt.eq]
    rfl
  have hblocked : u "BLOCKED" ≠ u "READY" := by decide
  rw [hget]
  split_ifs with hready
  · obtain ⟨hlength, hnone⟩ := Bool.and_eq_true_iff.mp hready
    exact iff_of_true rfl ⟨of_decide_eq_true hlength, List.isEmpty_iff.mp hnone⟩
  · refine iff_of_false (fun h => hblocked (Json.str.inj h)) fun h => hready ?_
    exact Bool.and_eq_true_iff.mpr ⟨decide_eq_true h.1, List.isEmpty_iff.mpr h.2⟩

/-- Two readings without a reason are two observations the policy accepts. -/
theorem Built.ready (hstatus : Dict.get receipt "status" = .str (u "READY")) : ∃ one two : Observation,
    receipt = sealed (receiptPayload [one, two] [] two.time) ∧ observe first clock = .ok one ∧
      observe second clock' = .ok two ∧ readingReasons one.sample = [] ∧ pairReasons one two = [] := by
  obtain ⟨hlength, hreasons⟩ := hbuilt.status.mp hstatus
  obtain ⟨one, two, hreadings, hat, hone, htwo, hsafe, hpair⟩ := hbuilt.observed hlength hreasons
  refine ⟨one, two, ?_, hone, htwo, hsafe, hpair⟩
  rw [hbuilt.eq, hreadings, hreasons, hat]

/-- What the builder returns is accepted exactly where it is READY. -/
theorem Built.accepted (st : Style) :
    (∃ fields, validateHostCapacityReceipt (.obj (arrangeFields st receipt)) = .ok fields) ↔
      Dict.get receipt "status" = .str (u "READY") := by
  constructor
  · rintro ⟨fields, haccepted⟩
    have hread := status_of_accepted haccepted
    have hkeep := hbuilt.member st rfl (by rw [hbuilt.eq]; rfl : (Dict.get receipt "status").sortKeys = _)
    rwa [hkeep] at hread
  · intro hstatus
    obtain ⟨one, two, heq, hone, htwo, hsafe, hpair⟩ := hbuilt.ready hstatus
    obtain ⟨hsafe', hdevice, htotal, hapart⟩ := pairReasons_eq_nil.mp hpair
    rw [heq]
    exact ⟨_, validate_arranged st (observe_utc hone) (observe_utc htwo) hsafe hsafe' hdevice htotal hapart⟩

end

/-! ## Asking again -/

/-- The third observation `require_current_host_capacity` makes of an accepted receipt. -/
theorem requireCurrent_iff {value : Json} {fields anchor : Dict} {observedAt : DateTime} {device total : ℤ}
    (hvalid : validateHostCapacityReceipt value = .ok fields)
    (hobserved : Dict.get fields "observed_at" = .str observedAt.isoformat) (hutc : observedAt.offset = some 0)
    (hanchor : Dict.get fields "anchor" = .obj anchor) (hdevice : Dict.get anchor "device_id" = .int device)
    (htotal : Dict.get anchor "total_bytes" = .int total) (now : DateTime) (reader : Except PyErr RawSample) :
    (∃ result, requireCurrentHostCapacity value now reader = .ok result) ↔
      ∃ time, utc now = .ok time ∧ 0 ≤ time.micros - observedAt.micros ∧
        time.micros - observedAt.micros ≤ 120 * 10 ^ 6 ∧ ∃ current : Sample, reader = .ok current.raw ∧
          current.deviceId = device ∧ current.totalBytes = total ∧ Safe current := by
  have hzero : fl ((0 : ℤ) : ℚ) = (0 : ℤ) := by decide +kernel
  have hage : fl ((120 : ℤ) : ℚ) = (120 : ℤ) := by decide +kernel
  have hfresh (delta : ℤ) : ¬(DateTime.totalSeconds delta < 0 ∨ 120 < DateTime.totalSeconds delta) ↔
      0 ≤ delta ∧ delta ≤ 120 * 10 ^ 6 := by
    have hlow := totalSeconds_lt delta (show |((0 : ℤ) : ℚ)| ≤ 120 by norm_num) hzero
    have hhigh := lt_totalSeconds delta (show |((120 : ℤ) : ℚ)| ≤ 120 by norm_num) hage
    push_cast at hlow hhigh
    rw [hlow, hhigh]
    omega
  have hreadTime : catching (readTime (Dict.get fields "observed_at")) isHostCapacityError
      (.error (hostCapacityError "host capacity receipt timestamp is invalid")) = .ok observedAt := by
    rw [hobserved, readTime_isoformat hutc]
    rfl
  rw [requireCurrentHostCapacity]
  constructor
  · rintro ⟨result, h⟩
    obtain ⟨fields', hfields, h⟩ := bind_eq_ok.mp h
    rw [hvalid] at hfields
    cases hfields
    obtain ⟨time, htime, h⟩ := bind_eq_ok.mp h
    obtain ⟨at', hat, h⟩ := bind_eq_ok.mp h
    rw [hreadTime] at hat
    cases hat
    obtain ⟨_, hrefuse, h⟩ := bind_eq_ok.mp h
    obtain ⟨hlow, hhigh⟩ := (hfresh _).mp (of_decide_eq_true (refuse_eq_ok.mp hrefuse))
    obtain ⟨raw, hread, h⟩ := bind_eq_ok.mp h
    obtain ⟨current, hcurrent, h⟩ := bind_eq_ok.mp h
    obtain ⟨_, hsame, h⟩ := bind_eq_ok.mp h
    obtain ⟨_, hsafe, -⟩ := bind_eq_ok.mp h
    rw [hanchor] at hsame
    have hboth := refuse_eq_ok.mp hsame
    simp only [Bool.and_eq_true] at hboth
    rw [hdevice, htotal, pyEq_int_int, pyEq_int_int] at hboth
    rw [validateSample_eq_ok.mp hcurrent] at hread
    exact ⟨time, htime, hlow, hhigh, current, hread, hboth.1, hboth.2,
      readingReasons_eq_nil_iff_safe.mp (of_decide_eq_true (refuse_eq_ok.mp hsafe))⟩
  · rintro ⟨time, htime, hlow, hhigh, current, hread, hsameDevice, hsameTotal, hsafe⟩
    refine ⟨_, bind_eq_ok.mpr ⟨fields, hvalid, bind_eq_ok.mpr ⟨time, htime, bind_eq_ok.mpr ⟨observedAt, hreadTime,
      bind_eq_ok.mpr ⟨(), refuse_eq_ok.mpr (decide_eq_true ((hfresh _).mpr ⟨hlow, hhigh⟩)), bind_eq_ok.mpr ⟨_, hread,
        bind_eq_ok.mpr ⟨current, validateSample_eq_ok.mpr rfl, bind_eq_ok.mpr ⟨(), refuse_eq_ok.mpr ?_,
          bind_eq_ok.mpr ⟨(), refuse_eq_ok.mpr ?_, rfl⟩⟩⟩⟩⟩⟩⟩⟩⟩
    · rw [hanchor, Bool.and_eq_true]
      change Json.pyEq _ (Dict.get anchor "device_id") = true ∧ Json.pyEq _ (Dict.get anchor "total_bytes") = true
      rw [hdevice, htotal, pyEq_int_int, pyEq_int_int]
      exact ⟨hsameDevice, hsameTotal⟩
    · exact decide_eq_true (readingReasons_eq_nil_iff_safe.mpr hsafe)

/-! ## Builder and validator -/

/-- What a READY receipt that was read back says, and who may use it. -/
theorem Built.agreement {readings : List Observation} {reasons : List Str} {observedAt : DateTime}
    (hbuilt : Built first second clock clock' receipt readings reasons observedAt) (st : Style)
    (hstatus : Dict.get receipt "status" = .str (u "READY")) :
    ∃ one two : Sample, Ready first second clock clock' one two ∧ ∀ now reader,
      (∃ result, requireCurrentHostCapacity (.obj (arrangeFields st receipt)) now reader = .ok result) ↔
        ∃ time, utc now = .ok time ∧ 0 ≤ time.micros - clock'.instant ∧ time.micros - clock'.instant ≤ 120 * 10 ^ 6 ∧
          ∃ current : Sample, reader = .ok current.raw ∧ current.deviceId = two.deviceId ∧
            current.totalBytes = two.totalBytes ∧ Safe current := by
  obtain ⟨one, two, heq, hone, htwo, hsafe, hpair⟩ := hbuilt.ready hstatus
  obtain ⟨hsafe', hdevice, htotal, hapart⟩ := pairReasons_eq_nil.mp hpair
  obtain ⟨hfirst, hclock⟩ := observe_eq_ok.mp hone
  obtain ⟨hsecond, hclock'⟩ := observe_eq_ok.mp htwo
  have hinstant := (utc_eq_ok.mp hclock).2.1
  have hinstant' := (utc_eq_ok.mp hclock').2.1
  refine ⟨one.sample, two.sample, ⟨hfirst, hsecond, hdevice, htotal, ?_, readingReasons_eq_nil_iff_safe.mp hsafe,
    readingReasons_eq_nil_iff_safe.mp hsafe'⟩, fun now reader => ?_⟩
  · rw [← hinstant, ← hinstant']
    exact (interval_iff _).mp hapart
  · have hvalid := validate_arranged st (observe_utc hone) (observe_utc htwo) hsafe hsafe' hdevice htotal hapart
    rw [← heq] at hvalid
    have hnodup := nodup_sealed [one, two] [] two.time
    have hanchorNodup : (Dict.keys (anchorPayload [one, two])).Nodup := by
      have hnames : anchorKeys.Nodup := by decide
      exact nodup_names hnames
    have hobserved : Dict.get (arrangeFields st receipt) "observed_at" = .str two.time.isoformat := by
      rw [heq]
      exact get_arranged st hnodup rfl rfl
    have hanchor : Dict.get (arrangeFields st receipt) "anchor" = .obj (arrangeFields st (anchorPayload [one, two])) := by
      rw [heq, get_arrangeFields st hnodup, ← arrange_obj]
      rfl
    rw [requireCurrent_iff hvalid hobserved (observe_utc htwo) hanchor
      (get_arranged st hanchorNodup (show Dict.get _ "device_id" = .int one.sample.deviceId from rfl) rfl)
      (get_arranged st hanchorNodup (show Dict.get _ "total_bytes" = .int one.sample.totalBytes from rfl) rfl),
      hinstant', hdevice, htotal]

/-- What the builder returns, once written and read back, is accepted exactly where it is
READY; a READY receipt is usable for two minutes by whoever sees the same safe device,
at any time that UTC can express. -/
theorem capacity_receipts_agree (interp : Interpreter) (st : Style) (first second : Except PyErr RawSample)
    (clock clock' : DateTime) (receipt : Dict)
    (h : buildHostCapacityReceipt first second clock clock' = .ok receipt) :
    ∃ value, jsonLoads interp (dumps st (.obj receipt)) = .ok value ∧
      ((∃ fields, validateHostCapacityReceipt value = .ok fields) ↔
        Dict.get receipt "status" = .str (u "READY")) ∧
      (Dict.get receipt "status" = .str (u "READY") → ∃ one two : Sample, Ready first second clock clock' one two ∧
        ∀ now reader, now.offset.isSome = true →
          ((∃ result, requireCurrentHostCapacity value now reader = .ok result) ↔
            now.instant < maxMicros ∧ 0 ≤ now.instant - clock'.instant ∧
              now.instant - clock'.instant ≤ 120 * 10 ^ 6 ∧ ∃ current : Sample, reader = .ok current.raw ∧
                current.deviceId = two.deviceId ∧ current.totalBytes = two.totalBytes ∧ Safe current)) := by
  obtain ⟨readings, reasons, observedAt, hbuilt⟩ := built_of_ok h
  refine ⟨_, hbuilt.jsonLoads interp st, hbuilt.accepted st, fun hstatus => ?_⟩
  obtain ⟨one, two, hready, hcurrent⟩ := hbuilt.agreement st hstatus
  refine ⟨one, two, hready, fun now reader haware => (hcurrent now reader).trans ?_⟩
  constructor
  · rintro ⟨time, htime, hlow, hhigh, hsample⟩
    have hinstant := (utc_eq_ok.mp htime).2.1
    rw [← hinstant]
    exact ⟨time.inRange.2, hlow, hhigh, hsample⟩
  · rintro ⟨hrange, hlow, hhigh, hsample⟩
    obtain ⟨-, two', -, -, htwo, -, -⟩ := hbuilt.ready hstatus
    have hclock := (utc_eq_ok.mp (observe_eq_ok.mp htwo).2).2.1
    have hstart : 0 ≤ now.instant := by
      have := two'.time.inRange.1
      omega
    exact ⟨⟨now.instant, some 0, hstart, hrange⟩, utc_eq_ok.mpr ⟨haware, rfl, rfl⟩, hlow, hhigh, hsample⟩

/-! ## A receipt at the end of the calendar -/

/-- A filesystem with most of its 100 GiB available. -/
def sampleReading : RawSample := ⟨1, 107374182400, 96636764160⟩

theorem sampleReading_safe : ∃ sample : Sample, sampleReading = sample.raw ∧ Safe sample :=
  ⟨⟨1, 107374182400, 96636764160, by decide⟩, rfl, readingReasons_eq_nil_iff_safe.mp (by decide +kernel)⟩

theorem lastDay_inRange (micros : Nat) (h : micros < 86400000000) :
    0 ≤ maxMicros - 86400000000 + micros ∧ maxMicros - 86400000000 + micros < maxMicros := by
  have hmax : maxMicros = 3652059 * 86400000000 := by decide
  omega

/-- `9999-12-31T23:58:30+00:00`. -/
def lateFirst : DateTime := ⟨maxMicros - 86400000000 + 86310000000, some 0, lastDay_inRange 86310000000 (by decide)⟩

/-- `9999-12-31T23:59:30+00:00`. -/
def lateSecond : DateTime := ⟨maxMicros - 86400000000 + 86370000000, some 0, lastDay_inRange 86370000000 (by decide)⟩

/-- `9999-12-31T23:59:30-00:01`, a minute after `lateSecond`. -/
def lateNow : DateTime :=
  ⟨maxMicros - 86400000000 + 86370000000, some (-60000000), lastDay_inRange 86370000000 (by decide)⟩

theorem toOption_isSome {α : Type} {x : Except PyErr α} (h : x.toOption.isSome = true) : ∃ a, x = .ok a := by
  obtain ⟨a, ha⟩ := Option.isSome_iff_exists.mp h
  exact ⟨a, toOption_eq_some ha⟩

theorem lateReceipt_built : ∃ receipt,
    buildHostCapacityReceipt (.ok sampleReading) (.ok sampleReading) lateFirst lateSecond = .ok receipt :=
  toOption_isSome (by decide +kernel)

theorem lateReceipt_ready {receipt : Dict} (h : buildHostCapacityReceipt (.ok sampleReading) (.ok sampleReading)
    lateFirst lateSecond = .ok receipt) : Dict.get receipt "status" = .str (u "READY") := by
  have hstatus : ((buildHostCapacityReceipt (.ok sampleReading) (.ok sampleReading) lateFirst lateSecond).toOption.map
      fun receipt => (Dict.get receipt "status").isStr "READY") = some true := by decide +kernel
  rw [h] at hstatus
  exact Json.isStr_eq_true.mp (Option.some.inj hstatus)

theorem capacity_receipts_agree_late : ∃ receipt value,
    buildHostCapacityReceipt (.ok sampleReading) (.ok sampleReading) lateFirst lateSecond = .ok receipt ∧
      jsonLoads referenceInterpreter (dumps asciiStyle (.obj receipt)) = .ok value ∧
        ∃ fields, validateHostCapacityReceipt value = .ok fields := by
  obtain ⟨receipt, hbuild⟩ := lateReceipt_built
  obtain ⟨value, hread, haccepted, -⟩ :=
    capacity_receipts_agree referenceInterpreter asciiStyle _ _ _ _ receipt hbuild
  exact ⟨receipt, value, hbuild, hread, haccepted.mpr (lateReceipt_ready hbuild)⟩

/-- A minute after a READY receipt, a clock that UTC cannot express refuses it. -/
theorem late_clock_refused : ∃ receipt value,
    buildHostCapacityReceipt (.ok sampleReading) (.ok sampleReading) lateFirst lateSecond = .ok receipt ∧
      jsonLoads referenceInterpreter (dumps asciiStyle (.obj receipt)) = .ok value ∧
        (∃ fields, validateHostCapacityReceipt value = .ok fields) ∧ lateNow.offset.isSome = true ∧
          lateNow.instant - lateSecond.instant = 60 * 10 ^ 6 ∧
            (∃ sample : Sample, sampleReading = sample.raw ∧ Safe sample) ∧
              ¬∃ result, requireCurrentHostCapacity value lateNow (.ok sampleReading) = .ok result := by
  obtain ⟨receipt, hbuild⟩ := lateReceipt_built
  have hstatus := lateReceipt_ready hbuild
  obtain ⟨readings, reasons, observedAt, hbuilt⟩ := built_of_ok hbuild
  refine ⟨receipt, _, hbuild, hbuilt.jsonLoads referenceInterpreter asciiStyle,
    (hbuilt.accepted asciiStyle).mpr hstatus, rfl, by decide, sampleReading_safe, fun hcurrent => ?_⟩
  obtain ⟨one, two, -, hagree⟩ := hbuilt.agreement asciiStyle hstatus
  obtain ⟨time, htime, -⟩ := (hagree lateNow _).mp hcurrent
  have hrange := time.inRange.2
  have hlate : maxMicros ≤ lateNow.instant := by decide
  rw [(utc_eq_ok.mp htime).2.1] at hrange
  omega

end McpTrust.Qualification
