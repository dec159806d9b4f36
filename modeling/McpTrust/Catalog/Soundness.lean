import McpTrust.Catalog.Verified
import McpTrust.Catalog.Checkpoint

/-! # Threshold soundness of both verifiers -/

namespace McpTrust.SnapshotTrust

set_option autoImplicit false

open Python

/-- What a verifier has checked about the signatures on `documentBytes`, whose signed part is
`signed`. -/
def SignaturesMet (env : Env) (rootBytes documentBytes : Bytes) (schema : String) (role : Role)
    (publicationId : ℤ) (signers : List Str) (signed : Dict) : Prop :=
  ∃ rootFields document signatures,
    strictJson env.interp rootBytes = .ok (.obj rootFields) ∧
    strictJson env.interp documentBytes = .ok document ∧
    SignedDocument document schema signed signatures ∧
    ThresholdMet env rootFields role publicationId (.obj signed) signatures signers

/-- Whenever either verifier answers `VERIFIED`, the threshold of its role is met by distinct
authorized keys of the pinned root, and the document carries no other signature. -/
theorem verified_threshold (env : Env) (rootBytes documentBytes : Bytes)
    (expected : Option Str) (now : DateTime) :
    (∀ snapshotBytes checkpointBytes required result,
      verifySnapshot env snapshotBytes documentBytes rootBytes checkpointBytes expected required now =
          .ok (.verified result) →
        expected = some (sha256Hex rootBytes) ∧
        ∃ signed, Dict.get signed "publication_id" = .int result.publicationId ∧
          SignaturesMet env rootBytes documentBytes statementSchema .snapshot result.publicationId
            result.signerKeyIds signed) ∧
    (∀ checkpointBytes result,
      verifyRootUpdate env rootBytes documentBytes checkpointBytes expected now =
          .ok (.verified result) →
        expected = some (sha256Hex rootBytes) ∧
        ∃ checkpoint signed,
          loadCheckpoint env.interp (some checkpointBytes) = .ok (some checkpoint) ∧
          SignaturesMet env rootBytes documentBytes rootUpdateSchema .recovery
            checkpoint.publicationId result.recoverySignerKeyIds signed) := by
  constructor
  · intro snapshotBytes checkpointBytes required result h
    obtain ⟨fields, root, checkpoint, signed, signatures, hv⟩ := verifySnapshot_verified h
    obtain ⟨document, hdecoded, hvalid⟩ := hv.statement
    obtain ⟨hparts, hid, -⟩ := validateStatement_eq_some hvalid
    have hthreshold := verifySignatures_sound hv.pinnedRoot.reads hv.threshold
    rw [← hv.publicationId] at hid hthreshold
    exact ⟨hv.pinnedRoot.pinned, signed.value, hid, fields, document, signatures,
      hv.pinnedRoot.decoded, hdecoded, hparts, hthreshold⟩
  · intro checkpointBytes result h
    obtain ⟨fields, root, checkpoint, signed, signatures, newRoot, newRootBytes, hv⟩ :=
      verifyRootUpdate_verified h
    obtain ⟨document, hdecoded, hvalid⟩ := hv.update
    obtain ⟨hparts, -⟩ := validateRootUpdate_eq_some hvalid
    exact ⟨hv.pinnedRoot.pinned, checkpoint, signed.value, hv.checkpointLoaded, fields, document,
      signatures, hv.pinnedRoot.decoded, hdecoded, hparts,
      verifySignatures_sound hv.pinnedRoot.reads hv.threshold⟩

/-! ## A sample publication -/

def compactStyle : Style := { canonicalStyle with sortKeys := false }

def jsonBytes (v : Json) : Bytes := (dumps compactStyle v).flatMap encodeCodePoint

/-- The neutral point, and its encoding with the other sign. -/
def neutralKey : Bytes := 1 :: List.replicate 31 0

def signedNeutralKey : Bytes := 1 :: (List.replicate 30 0 ++ [0x80])

/-- The neutral point and the scalar zero. -/
def neutralSignature : Bytes := 1 :: List.replicate 63 0

/-- Under a neutral key the neutral signature is valid for every message. -/
def sampleEnv : Env where
  interp := ⟨1000, initialLimit_deep⟩
  ed25519Verify publicKey signature _ :=
    decide (publicKey = neutralKey ∨ publicKey = signedNeutralKey) &&
      decide (signature = neutralSignature)

def sampleKeyId (publicKey : Bytes) : Str := u "sha256:" ++ sha256Hex publicKey

/-- A key whose bytes `text` spells in base64url. -/
def sampleKey (publicKey : Bytes) (text : Str) (role : Role) : Json :=
  .obj [(u "key_id", .str (sampleKeyId publicKey)), (u "algorithm", .str (u algorithm)),
    (u "public_key", .str text), (u "roles", .arr [.str (u role.name)]),
    (u "valid_from_publication_id", .int 1), (u "valid_through_publication_id", .null)]

def snapshotKey : Json := sampleKey neutralKey (u "AQ" ++ List.replicate 41 (ch 'A')) .snapshot

def recoveryKey : Json :=
  sampleKey signedNeutralKey (u "AQ" ++ (List.replicate 38 (ch 'A') ++ u "AIA")) .recovery

def sampleRoot (version : ℤ) (name : Str) (more : List Json) : Dict :=
  [(u "schema", .str (u rootSchema)), (u "root_version", .int version),
    (u "publisher", .obj [(u "id", .str (u "example")), (u "name", .str name)]),
    (u "minimum_publication_id", .int 1), (u "max_snapshot_lifetime_seconds", .int 86400),
    (u "max_clock_skew_seconds", .int 60), (u "snapshot_threshold", .int 1),
    (u "recovery_threshold", .int 1), (u "keys", .arr (snapshotKey :: recoveryKey :: more))]

def sampleRootBytes : Bytes := jsonBytes (.obj (sampleRoot 1 (u "Example") []))

def sampleSnapshotBytes : Bytes :=
  jsonBytes (.obj [(u "schema_version", .int 2), (u "server_count", .int 0), (u "servers", .arr []),
    (u "generated_at", .str (u "2026-01-01T00:00:00Z")), (u "generated_from_scan_at", .str [])])

def sampleSignatures (publicKey : Bytes) : Json :=
  .arr [.obj [(u "key_id", .str (sampleKeyId publicKey)),
    (u "signature", .str (u "AQ" ++ List.replicate 84 (ch 'A')))]]

def sampleStatementBytes : Bytes :=
  jsonBytes (.obj [(u "schema", .str (u statementSchema)),
    (u "signed", .obj [(u "publisher_id", .str (u "example")), (u "root_version", .int 1),
      (u "publication_id", .int 1), (u "issued_at", .str (u "2026-01-01T00:00:00Z")),
      (u "expires_at", .str (u "2026-01-02T00:00:00Z")),
      (u "snapshot", .obj [(u "media_type", .str (u snapshotMediaType)), (u "schema_version", .int 2),
        (u "length", .int sampleSnapshotBytes.length),
        (u "sha256", .str (sha256Hex sampleSnapshotBytes))]),
      (u "previous", .null)]),
    (u "signatures", sampleSignatures neutralKey)])

def sampleUpdateSigned (newRoot : Json) : Dict :=
  [(u "publisher_id", .str (u "example")), (u "previous_root_version", .int 1),
    (u "previous_root_sha256", .str (sha256Hex sampleRootBytes)),
    (u "issued_at", .str (u "2026-01-01T00:00:00Z")),
    (u "expires_at", .str (u "2026-01-02T00:00:00Z")), (u "new_root", newRoot)]

/-- An update of the sample root to `newRoot`. -/
def sampleUpdate (newRoot : Json) : Json :=
  .obj [(u "schema", .str (u rootUpdateSchema)), (u "signed", .obj (sampleUpdateSigned newRoot)),
    (u "signatures", sampleSignatures signedNeutralKey)]

/-- Keys that make the indented artifact of a root longer than the update around the root. -/
def paddingKeys : List Json :=
  (List.range 4).map fun i =>
    sampleKey (UInt8.ofNat (4 * (i + 1)) :: List.replicate 31 0)
      (⟨(66 + i) % 0x110000, Nat.mod_lt _ (by decide)⟩ :: List.replicate 42 (ch 'A')) .snapshot

def paddedRoot (name : Str) : Dict := sampleRoot 2 name paddingKeys

def sampleUpdateBytes : Bytes := jsonBytes (sampleUpdate (.obj (paddedRoot (u "Example"))))

def sampleCheckpoint : Checkpoint where
  publisherId := u "example"
  rootVersion := 1
  rootSha256 := sha256Hex sampleRootBytes
  publicationId := 1
  snapshotSha256 := List.replicate 64 (ch '0')
  statementSha256 := List.replicate 64 (ch '0')

/-- 1 January 2026, midnight UTC. -/
def sampleNow : DateTime where
  micros := DateTime.epoch + 1767225600 * microsPerSecond
  offset := some 0
  inRange := by decide

def SnapshotResult.verified? : SnapshotResult → Option VerifiedSnapshot
  | .verified result => some result
  | .unknown _ => none

def RootUpdateResult.verified? : RootUpdateResult → Option VerifiedRootUpdate
  | .verified result => some result
  | .unknown _ => none

theorem exists_verifiedSnapshot {x : Except PyErr SnapshotResult}
    (h : (x.toOption.bind SnapshotResult.verified?).isSome = true) : ∃ r, x = .ok (.verified r) := by
  obtain ⟨r, hr⟩ := Option.isSome_iff_exists.mp h
  obtain ⟨y, hy, hverified⟩ := Option.bind_eq_some_iff.mp hr
  cases x with
  | error e => cases hy
  | ok z =>
    have hz : z = y := by simpa [Except.toOption] using hy
    subst hz
    cases z with
    | unknown codes => cases hverified
    | verified s => exact ⟨s, rfl⟩

theorem exists_verifiedRootUpdate {x : Except PyErr RootUpdateResult}
    (h : (x.toOption.bind RootUpdateResult.verified?).isSome = true) :
    ∃ r, x = .ok (.verified r) := by
  obtain ⟨r, hr⟩ := Option.isSome_iff_exists.mp h
  obtain ⟨y, hy, hverified⟩ := Option.bind_eq_some_iff.mp hr
  cases x with
  | error e => cases hy
  | ok z =>
    have hz : z = y := by simpa [Except.toOption] using hy
    subst hz
    cases z with
    | unknown codes => cases hverified
    | verified s => exact ⟨s, rfl⟩

theorem sampleSnapshot_verified : ∃ r, verifySnapshot sampleEnv sampleSnapshotBytes
    sampleStatementBytes sampleRootBytes none (some (sha256Hex sampleRootBytes)) false sampleNow =
      .ok (.verified r) :=
  exists_verifiedSnapshot (by decide +kernel)

theorem sampleRootUpdate_verified : ∃ r, verifyRootUpdate sampleEnv sampleRootBytes sampleUpdateBytes
    (jsonBytes (.obj sampleCheckpoint.fields)) (some (sha256Hex sampleRootBytes)) sampleNow =
      .ok (.verified r) :=
  exists_verifiedRootUpdate (by decide +kernel)

theorem verified_threshold_sample :
    (∃ publicationId signers signed, SignaturesMet sampleEnv sampleRootBytes sampleStatementBytes
      statementSchema .snapshot publicationId signers signed) ∧
    ∃ publicationId signers signed, SignaturesMet sampleEnv sampleRootBytes sampleUpdateBytes
      rootUpdateSchema .recovery publicationId signers signed := by
  constructor
  · obtain ⟨r, hr⟩ := sampleSnapshot_verified
    obtain ⟨-, signed, -, hmet⟩ := (verified_threshold _ _ _ _ _).1 _ _ _ _ hr
    exact ⟨_, _, signed, hmet⟩
  · obtain ⟨r, hr⟩ := sampleRootUpdate_verified
    obtain ⟨-, checkpoint, signed, -, hmet⟩ := (verified_threshold _ _ _ _ _).2 _ _ hr
    exact ⟨_, _, signed, hmet⟩

end McpTrust.SnapshotTrust
