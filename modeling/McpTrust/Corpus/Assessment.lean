import McpTrust.Python.DateTime
import McpTrust.Corpus.Lineage
import McpTrust.Portability.Stability

/-! # Assessing a lineage record

A record forces a reason code for each piece of evidence it lacks, and a decision is
allowed where no reason is left. Which digest a record has is a parameter.
-/

namespace McpTrust.Corpus

set_option autoImplicit false

open Python
open Failure (bind_ok)

inductive RightsStatus
  | documented
  | unknown
  | restricted
  deriving DecidableEq

inductive EvidenceKind
  | scanReceipt
  deriving DecidableEq

inductive PublicationState
  | draft
  | published
  | withdrawn
  deriving DecidableEq

inductive LineageDecision
  -- the ADMIT of the source
  | admission
  | refresh
  | publish
  | withdraw
  deriving DecidableEq

inductive AssessmentStatus
  | allowed
  | blocked
  | unknown
  | required
  | complete
  | notRequired
  deriving DecidableEq

inductive NetworkMode
  | none
  | unknown
  | live
  deriving DecidableEq

structure EvidenceReference where
  kind : EvidenceKind
  ref : Str
  sha256 : Str
  deriving DecidableEq

/-- `EvidenceLineageRecord`, with what its own validator and the assessment read of it. -/
structure EvidenceRecord where
  recordId : Str
  version : Option Str
  rights : RightsStatus
  artifactSha256 : Option Str
  network : NetworkMode
  receipts : List EvidenceReference
  expiresAt : DateTime
  publication : PublicationState
  blockingReasonCodes : List Str
  tombstone : Bool
  deriving DecidableEq

/-- `_validate_boundaries`. -/
def validateBoundaries (record : EvidenceRecord) : LedgerCheck Unit :=
  let codes := record.blockingReasonCodes
  if record.version = none ∧ u "SUBJECT_VERSION_UNKNOWN" ∉ codes then
    refuse "missing subject version requires SUBJECT_VERSION_UNKNOWN"
  else if record.receipts = [] ∧ u "RECEIPT_MISSING" ∉ codes then refuse "missing receipt requires RECEIPT_MISSING"
  else if record.artifactSha256 = none ∧ u "SCAN_ARTIFACT_DIGEST_UNKNOWN" ∉ codes then
    refuse "missing scan artifact digest requires SCAN_ARTIFACT_DIGEST_UNKNOWN"
  else if record.receipts.any (fun ref => decide (ref.kind ≠ .scanReceipt)) then
    refuse "receipts may contain only scan-receipt references"
  else if record.network = .unknown ∧ u "SANDBOX_NETWORK_UNKNOWN" ∉ codes then
    refuse "unknown network evidence requires SANDBOX_NETWORK_UNKNOWN"
  else if record.publication = .withdrawn ∧ record.tombstone = false then
    refuse "withdrawn publication requires an audit tombstone"
  else .ok ()

structure LineageAssessment where
  recordId : Str
  recordSha256 : Str
  decision : LineageDecision
  status : AssessmentStatus
  assessedAt : DateTime
  expectedVersion : Option Str
  reasonCodes : List Str
  deriving DecidableEq

inductive AssessError
  | valueError (message : String)
  | overflowError
  deriving DecidableEq

/-- `_KNOWN_BLOCKERS`. -/
def knownBlockers : List Str := [u "PUBLICATION_WITHDRAWN", u "RIGHTS_RESTRICTED", u "SUBJECT_VERSION_MISMATCH"]

/-- `value.astimezone(UTC)` of an aware datetime. -/
def inUtc (value : DateTime) : Except AssessError DateTime := value.astimezoneUtc.mapError fun _ => .overflowError

/-- `_aware_utc`. -/
def awareUtc (value : DateTime) : Except AssessError DateTime :=
  if value.offset = none then .error (.valueError "assessment time must be timezone-aware") else inUtc value

/-- What `expected_version` adds to the reasons. -/
def versionReasons (record : EvidenceRecord) : Option Str → List Str
  | none => []
  | some expected =>
    match record.version with
    | none => [u "SUBJECT_VERSION_UNKNOWN"]
    | some version => if version ≠ expected then [u "SUBJECT_VERSION_MISMATCH"] else []

/-- `_base_reason_codes`; the order of the codes is not that of the set. -/
def baseReasonCodes (record : EvidenceRecord) (now : DateTime) (expectedVersion : Option Str) :
    Except AssessError (List Str) := do
  let expires ← inUtc record.expiresAt
  .ok (record.blockingReasonCodes ++ (if record.receipts = [] then [u "RECEIPT_MISSING"] else []) ++
    (if expires.instant ≤ now.instant then [u "EVIDENCE_EXPIRED"] else []) ++ versionReasons record expectedVersion)

/-- `_allow_status`. -/
def allowStatus (reasons : List Str) : AssessmentStatus :=
  if reasons.any fun reason => decide (reason ∈ knownBlockers) then .blocked
  else if reasons ≠ [] then .unknown
  else .allowed

def rightsReasons (record : EvidenceRecord) : List Str :=
  match record.rights with
  | .unknown => [u "RIGHTS_UNKNOWN"]
  | .restricted => [u "RIGHTS_RESTRICTED"]
  | .documented => []

def withdrawnReasons (record : EvidenceRecord) : List Str :=
  if record.publication = .withdrawn then [u "PUBLICATION_WITHDRAWN"] else []

/-- The status of a decision, and the reasons it is given with. -/
def verdict (record : EvidenceRecord) (reasons : List Str) : LineageDecision → AssessmentStatus × List Str
  | .admission => (allowStatus (reasons ++ withdrawnReasons record), reasons ++ withdrawnReasons record)
  | .refresh => (if reasons ≠ [] then .required else .notRequired, reasons)
  | .publish =>
    let reasons := reasons ++ rightsReasons record ++ withdrawnReasons record
    (allowStatus reasons, reasons)
  | .withdraw =>
    match record.publication with
    | .withdrawn => (.complete, [])
    | .draft => (.notRequired, [u "NOT_PUBLISHED"])
    | .published =>
      let reasons := reasons ++ rightsReasons record
      (if reasons ≠ [] then .required else .notRequired, reasons)

/-- `assess_lineage(record, decision, now=now, expected_version=expectedVersion)`. -/
def assessLineage (digest : EvidenceRecord → Str) (record : EvidenceRecord) (decision : LineageDecision)
    (now : DateTime) (expectedVersion : Option Str) : Except AssessError LineageAssessment := do
  let assessedAt ← awareUtc now
  let reasons ← baseReasonCodes record assessedAt expectedVersion
  .ok
    { recordId := record.recordId
      recordSha256 := digest record
      decision := decision
      status := (verdict record reasons decision).1
      assessedAt := assessedAt
      expectedVersion := expectedVersion
      reasonCodes := sortedSet (verdict record reasons decision).2 }

/-! ## Reasons -/

theorem allowStatus_eq_allowed {reasons : List Str} : allowStatus reasons = .allowed ↔ reasons = [] := by
  constructor
  · intro h
    unfold allowStatus at h
    split_ifs at h with hblocked hempty
    exact not_not.mp hempty
  · rintro rfl
    rfl

theorem inUtc_ok {value utc : DateTime} (h : inUtc value = .ok utc) : utc.instant = value.instant := by
  rw [inUtc] at h
  cases hutc : value.astimezoneUtc with
  | error e =>
    rw [hutc] at h
    cases h
  | ok d =>
    rw [hutc] at h
    obtain rfl := Except.ok.inj h
    obtain ⟨hmicros, hoffset⟩ := DateTime.astimezoneUtc_eq_ok.mp hutc
    rw [DateTime.instant, hmicros, hoffset]
    exact sub_zero _

theorem awareUtc_ok {value utc : DateTime} (h : awareUtc value = .ok utc) : utc.instant = value.instant := by
  rw [awareUtc] at h
  split at h
  · cases h
  · exact inUtc_ok h

/-- An aware time in range has a time in UTC. -/
theorem exists_awareUtc {value : DateTime} (haware : value.offset ≠ none) (hlow : 0 ≤ value.instant)
    (hhigh : value.instant < maxMicros) : ∃ utc, awareUtc value = .ok utc := by
  refine ⟨⟨value.instant, some 0, hlow, hhigh⟩, ?_⟩
  rw [awareUtc, if_neg haware, inUtc, DateTime.astimezoneUtc, DateTime.ofMicros, dif_pos ⟨hlow, hhigh⟩]
  rfl

/-- What no reason for a decision means of the record and the time. -/
structure Unblocked (record : EvidenceRecord) (now : DateTime) (expectedVersion : Option Str) : Prop where
  codes : record.blockingReasonCodes = []
  receipts : record.receipts ≠ []
  current : now.instant < record.expiresAt.instant
  version : ∀ expected, expectedVersion = some expected → record.version = some expected

theorem versionReasons_eq_nil {record : EvidenceRecord} {expectedVersion : Option Str} :
    versionReasons record expectedVersion = [] ↔
      ∀ expected, expectedVersion = some expected → record.version = some expected := by
  cases expectedVersion with
  | none => exact iff_of_true rfl nofun
  | some expected =>
    cases hversion : record.version with
    | none => simp [versionReasons, hversion]
    | some version => simp [versionReasons, hversion]

/-- The base reasons of a record whose expiry has a time in UTC. -/
theorem baseReasonCodes_eq_nil {record : EvidenceRecord} {now : DateTime} {expectedVersion : Option Str}
    {reasons : List Str} (h : baseReasonCodes record now expectedVersion = .ok reasons) :
    reasons = [] ↔ Unblocked record now expectedVersion := by
  obtain ⟨expires, hexpires, h⟩ := bind_ok.mp h
  obtain rfl := Except.ok.inj h
  rw [List.append_eq_nil_iff, List.append_eq_nil_iff, List.append_eq_nil_iff, versionReasons_eq_nil,
    inUtc_ok hexpires]
  constructor
  · rintro ⟨⟨⟨hcodes, hreceipts⟩, hcurrent⟩, hversion⟩
    refine ⟨hcodes, fun hnil => ?_, lt_of_not_ge fun hle => ?_, hversion⟩
    · rw [if_pos hnil] at hreceipts
      cases hreceipts
    · rw [if_pos hle] at hcurrent
      cases hcurrent
  · rintro ⟨hcodes, hreceipts, hcurrent, hversion⟩
    exact ⟨⟨⟨hcodes, if_neg hreceipts⟩, if_neg (not_le_of_gt hcurrent)⟩, hversion⟩

theorem rightsReasons_eq_nil {record : EvidenceRecord} : rightsReasons record = [] ↔ record.rights = .documented := by
  cases h : record.rights <;> simp [rightsReasons, h]

theorem withdrawnReasons_eq_nil {record : EvidenceRecord} :
    withdrawnReasons record = [] ↔ record.publication ≠ .withdrawn := by
  cases h : record.publication <;> simp [withdrawnReasons, h]

/-- When a decision on the record is allowed. -/
def Allows (record : EvidenceRecord) (now : DateTime) (expectedVersion : Option Str) : LineageDecision → Prop
  | .admission => Unblocked record now expectedVersion ∧ record.publication ≠ .withdrawn
  | .publish =>
    Unblocked record now expectedVersion ∧ record.rights = .documented ∧ record.publication ≠ .withdrawn
  | .refresh => False
  | .withdraw => False

theorem verdict_eq_allowed {record : EvidenceRecord} {now : DateTime} {expectedVersion : Option Str}
    {reasons : List Str} (h : baseReasonCodes record now expectedVersion = .ok reasons) (decision : LineageDecision) :
    (verdict record reasons decision).1 = .allowed ↔ Allows record now expectedVersion decision := by
  cases decision with
  | admission =>
    rw [verdict, allowStatus_eq_allowed, List.append_eq_nil_iff, withdrawnReasons_eq_nil, baseReasonCodes_eq_nil h]
    rfl
  | publish =>
    rw [verdict, allowStatus_eq_allowed, List.append_eq_nil_iff, List.append_eq_nil_iff, withdrawnReasons_eq_nil,
      rightsReasons_eq_nil, baseReasonCodes_eq_nil h, and_assoc]
    rfl
  | refresh =>
    refine iff_of_false (fun hallowed => ?_) id
    rw [verdict] at hallowed
    split_ifs at hallowed
  | withdraw =>
    refine iff_of_false (fun hallowed => ?_) id
    rw [verdict] at hallowed
    split at hallowed
    · cases hallowed
    · cases hallowed
    · dsimp only at hallowed
      split_ifs at hallowed

/-! ## What an allowance says -/

/-- The evidence behind an allowed decision. -/
structure Evidenced (record : EvidenceRecord) (decision : LineageDecision) (now : DateTime)
    (expectedVersion : Option Str) : Prop where
  decided : decision = .admission ∨ decision = .publish
  receipts : record.receipts ≠ []
  version : ∃ version, record.version = some version ∧ ∀ expected, expectedVersion = some expected → version = expected
  artifact : record.artifactSha256 ≠ none
  network : record.network ≠ .unknown
  codes : record.blockingReasonCodes = []
  current : now.instant < record.expiresAt.instant
  available : record.publication ≠ .withdrawn
  rights : decision = .publish → record.rights = .documented

/-- A valid record without reason codes lacks no evidence. -/
theorem complete_of_valid {record : EvidenceRecord} (hvalid : validateBoundaries record = .ok ())
    (hcodes : record.blockingReasonCodes = []) :
    record.version ≠ none ∧ record.artifactSha256 ≠ none ∧ record.network ≠ .unknown := by
  simp only [validateBoundaries, hcodes, List.not_mem_nil, not_false_eq_true, and_true] at hvalid
  split_ifs at hvalid with hversion hreceipts hartifact hkind hnetwork htombstone
  · exact absurd hvalid refuse_ne_ok
  · exact absurd hvalid refuse_ne_ok
  · exact absurd hvalid refuse_ne_ok
  · exact absurd hvalid refuse_ne_ok
  · exact absurd hvalid refuse_ne_ok
  · exact absurd hvalid refuse_ne_ok
  · exact ⟨hversion, hartifact, hnetwork⟩

theorem Evidenced.of_unblocked {record : EvidenceRecord} (hvalid : validateBoundaries record = .ok ())
    {decision : LineageDecision} {now : DateTime} {expectedVersion : Option Str}
    (hdecided : decision = .admission ∨ decision = .publish) (h : Unblocked record now expectedVersion)
    (havailable : record.publication ≠ .withdrawn) (hrights : decision = .publish → record.rights = .documented) :
    Evidenced record decision now expectedVersion := by
  obtain ⟨hversion, hartifact, hnetwork⟩ := complete_of_valid hvalid h.codes
  obtain ⟨version, hsome⟩ := Option.ne_none_iff_exists'.mp hversion
  refine ⟨hdecided, h.receipts, ⟨version, hsome, fun expected hexpected => ?_⟩, hartifact, hnetwork, h.codes,
    h.current, havailable, hrights⟩
  exact Option.some.inj (hsome.symm.trans (h.version expected hexpected))

/-- An assessment is allowed if and only if the decision is, at a time in UTC. -/
theorem assessLineage_allowed {digest : EvidenceRecord → Str} {record : EvidenceRecord}
    {decision : LineageDecision} {now : DateTime} {expectedVersion : Option Str} {a : LineageAssessment}
    (h : assessLineage digest record decision now expectedVersion = .ok a) :
    a.status = .allowed ↔ Allows record now expectedVersion decision := by
  obtain ⟨assessedAt, htime, h⟩ := bind_ok.mp h
  obtain ⟨reasons, hreasons, h⟩ := bind_ok.mp h
  obtain rfl := Except.ok.inj h
  have hinstant := awareUtc_ok htime
  rw [verdict_eq_allowed hreasons]
  have hunblocked : Unblocked record assessedAt expectedVersion ↔ Unblocked record now expectedVersion :=
    ⟨fun h => ⟨h.codes, h.receipts, hinstant ▸ h.current, h.version⟩,
      fun h => ⟨h.codes, h.receipts, hinstant.symm ▸ h.current, h.version⟩⟩
  cases decision with
  | admission => exact and_congr_left fun _ => hunblocked
  | publish => exact and_congr_left fun _ => hunblocked
  | refresh => exact Iff.rfl
  | withdraw => exact Iff.rfl

/-- Whether the function returns depends on the two times alone. -/
theorem assessLineage_returns {digest : EvidenceRecord → Str} {record : EvidenceRecord} {decision : LineageDecision}
    {now : DateTime} {expectedVersion : Option Str} :
    (∃ a, assessLineage digest record decision now expectedVersion = .ok a) ↔
      (∃ utc, awareUtc now = .ok utc) ∧ ∃ utc, inUtc record.expiresAt = .ok utc := by
  constructor
  · rintro ⟨a, h⟩
    obtain ⟨assessedAt, htime, h⟩ := bind_ok.mp h
    obtain ⟨reasons, hreasons, h⟩ := bind_ok.mp h
    obtain ⟨expires, hexpires, -⟩ := bind_ok.mp hreasons
    exact ⟨⟨assessedAt, htime⟩, ⟨expires, hexpires⟩⟩
  · rintro ⟨⟨assessedAt, htime⟩, ⟨expires, hexpires⟩⟩
    refine ⟨_, bind_ok.mpr ⟨assessedAt, htime, bind_ok.mpr ⟨_, bind_ok.mpr ⟨expires, hexpires, rfl⟩, rfl⟩⟩⟩

/-- A record without reasons needs no refresh. -/
theorem refresh_notRequired {digest : EvidenceRecord → Str} {record : EvidenceRecord} {now : DateTime}
    {expectedVersion : Option Str} {a : LineageAssessment}
    (h : assessLineage digest record .refresh now expectedVersion = .ok a)
    (hunblocked : Unblocked record now expectedVersion) : a.status = .notRequired := by
  obtain ⟨assessedAt, htime, h⟩ := bind_ok.mp h
  obtain ⟨reasons, hreasons, h⟩ := bind_ok.mp h
  obtain rfl := Except.ok.inj h
  have hcurrent : assessedAt.instant < record.expiresAt.instant := awareUtc_ok htime ▸ hunblocked.current
  have hnil : reasons = [] := (baseReasonCodes_eq_nil hreasons).mpr
    ⟨hunblocked.codes, hunblocked.receipts, hcurrent, hunblocked.version⟩
  rw [verdict, hnil]
  rfl

/-- An allowed decision is backed by evidence; it was allowed at every earlier time that has a time
in UTC; and what may be published may be admitted and needs no refresh. -/
theorem allowed_sound (digest : EvidenceRecord → Str) (record : EvidenceRecord)
    (hvalid : validateBoundaries record = .ok ()) (now : DateTime) (expectedVersion : Option Str) :
    (∀ decision a, assessLineage digest record decision now expectedVersion = .ok a → a.status = .allowed →
      Evidenced record decision now expectedVersion ∧
      ∀ earlier : DateTime, earlier.offset ≠ none → 0 ≤ earlier.instant → earlier.instant ≤ now.instant →
        ∃ b, assessLineage digest record decision earlier expectedVersion = .ok b ∧ b.status = .allowed) ∧
    ∀ a, assessLineage digest record .publish now expectedVersion = .ok a → a.status = .allowed →
      (∃ b, assessLineage digest record .admission now expectedVersion = .ok b ∧ b.status = .allowed) ∧
      ∃ c, assessLineage digest record .refresh now expectedVersion = .ok c ∧ c.status = .notRequired := by
  constructor
  · intro decision a h hallowed
    have hallows := (assessLineage_allowed h).mp hallowed
    constructor
    · cases decision with
      | admission => exact .of_unblocked hvalid (.inl rfl) hallows.1 hallows.2 nofun
      | publish => exact .of_unblocked hvalid (.inr rfl) hallows.1 hallows.2.2 fun _ => hallows.2.1
      | refresh => exact hallows.elim
      | withdraw => exact hallows.elim
    · intro earlier haware hlow hle
      obtain ⟨⟨utc, htime⟩, hexpires⟩ := assessLineage_returns.mp ⟨a, h⟩
      have hhigh : earlier.instant < maxMicros := by
        have hutc : utc.instant < maxMicros := by
          rw [awareUtc] at htime
          split at htime
          · cases htime
          · rw [inUtc] at htime
            cases hzone : now.astimezoneUtc with
            | error e =>
              rw [hzone] at htime
              cases htime
            | ok d =>
              rw [hzone] at htime
              obtain rfl := Except.ok.inj htime
              obtain ⟨hmicros, hoffset⟩ := DateTime.astimezoneUtc_eq_ok.mp hzone
              rw [DateTime.instant, hoffset]
              exact (sub_zero _).trans_lt d.inRange.2
        rw [awareUtc_ok htime] at hutc
        exact hle.trans_lt hutc
      obtain ⟨b, hb⟩ := (@assessLineage_returns digest record decision earlier expectedVersion).mpr
        ⟨exists_awareUtc haware hlow hhigh, hexpires⟩
      refine ⟨b, hb, (assessLineage_allowed hb).mpr ?_⟩
      have hearlier : Unblocked record now expectedVersion → Unblocked record earlier expectedVersion := fun h =>
        ⟨h.codes, h.receipts, hle.trans_lt h.current, h.version⟩
      cases decision with
      | admission => exact ⟨hearlier hallows.1, hallows.2⟩
      | publish => exact ⟨hearlier hallows.1, hallows.2⟩
      | refresh => exact hallows.elim
      | withdraw => exact hallows.elim
  · intro a h hallowed
    obtain ⟨hunblocked, -, havailable⟩ := (assessLineage_allowed h).mp hallowed
    obtain ⟨htime, hexpires⟩ := assessLineage_returns.mp ⟨a, h⟩
    obtain ⟨b, hb⟩ := (@assessLineage_returns digest record .admission now expectedVersion).mpr ⟨htime, hexpires⟩
    obtain ⟨c, hc⟩ := (@assessLineage_returns digest record .refresh now expectedVersion).mpr ⟨htime, hexpires⟩
    exact ⟨⟨b, hb, (assessLineage_allowed hb).mpr ⟨hunblocked, havailable⟩⟩, c, hc, refresh_notRequired hc hunblocked⟩

/-! ## A published record -/

theorem year2026_inRange : 0 ≤ (63913708800000000 : ℤ) ∧ (63913708800000000 : ℤ) < maxMicros := by decide

theorem firstDay_inRange : 0 ≤ (0 : ℤ) ∧ (0 : ℤ) < maxMicros := by decide

/-- A record with all its evidence, current until `expiresAt`. -/
def evidencedRecord (expiresAt : DateTime) : EvidenceRecord where
  recordId := u "record"
  version := some (u "1.0.0")
  rights := .documented
  artifactSha256 := some (List.replicate 64 (ch '0'))
  network := .none
  receipts := [⟨.scanReceipt, u "receipts/record.json", List.replicate 64 (ch '0')⟩]
  expiresAt := expiresAt
  publication := .published
  blockingReasonCodes := []
  tombstone := false

def expiry : DateTime := ⟨63913708800000000, some 0, year2026_inRange⟩

def beforeExpiry : DateTime := ⟨0, some 0, firstDay_inRange⟩

theorem allowed_sound_published :
    (∃ a, assessLineage EvidenceRecord.recordId (evidencedRecord expiry) .publish beforeExpiry (some (u "1.0.0")) = .ok a ∧
      a.status = .allowed) ∧
    Evidenced (evidencedRecord expiry) .publish beforeExpiry (some (u "1.0.0")) := by
  obtain ⟨a, h⟩ := (@assessLineage_returns EvidenceRecord.recordId (evidencedRecord expiry) .publish beforeExpiry
    (some (u "1.0.0"))).mpr ⟨exists_awareUtc (by decide) (by decide) (by decide), ⟨expiry, by decide⟩⟩
  have hallowed : a.status = .allowed := (assessLineage_allowed h).mpr
    ⟨⟨rfl, by decide, by decide, fun _ h => h⟩, rfl, by decide⟩
  exact ⟨⟨a, h, hallowed⟩, ((allowed_sound EvidenceRecord.recordId (evidencedRecord expiry) (by decide) beforeExpiry
    (some (u "1.0.0"))).1 .publish a h hallowed).1⟩

/-- The first hour of year 1 east of Greenwich, which no time in UTC is. -/
def beforeFirstDay : DateTime := ⟨0, some 3600000000, firstDay_inRange⟩

theorem earlier_time_raises :
    beforeFirstDay.instant < beforeExpiry.instant ∧
      (∃ a, assessLineage EvidenceRecord.recordId (evidencedRecord expiry) .admission beforeExpiry none = .ok a ∧
        a.status = .allowed) ∧
      assessLineage EvidenceRecord.recordId (evidencedRecord expiry) .admission beforeFirstDay none =
        .error .overflowError := by
  refine ⟨by decide, ?_, rfl⟩
  obtain ⟨a, h⟩ := (@assessLineage_returns EvidenceRecord.recordId (evidencedRecord expiry) .admission beforeExpiry
    none).mpr ⟨exists_awareUtc (by decide) (by decide) (by decide), ⟨expiry, by decide⟩⟩
  exact ⟨a, h, (assessLineage_allowed h).mpr ⟨⟨rfl, by decide, by decide, nofun⟩, by decide⟩⟩

end McpTrust.Corpus
