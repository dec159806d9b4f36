import McpTrust.Catalog.Threshold

/-! # What a verified result means

One inversion lemma for each verifier: everything a `VERIFIED` answer has passed.
-/

namespace McpTrust.SnapshotTrust

set_option autoImplicit false

open Python
open RuntimeSnapshot (reason)

theorem catching_none_eq_some {α : Type} {x : Except PyErr (Option α)} {handled : PyErr → Bool}
    {a : α} : catching x handled (.ok none) = .ok (some a) ↔ x = .ok (some a) := by
  cases x with
  | ok b => rfl
  | error e =>
    rw [catching_error]
    split <;> simp

theorem loadRoot_eq_ok {interp : Interpreter} {raw : Bytes} {root : Root} :
    loadRoot interp raw = .ok (some root) ↔
      ∃ v, strictJson interp raw = .ok v ∧ validateRoot v = .ok (some root) := by
  rw [loadRoot, catching_none_eq_some, bind_eq_ok]

theorem loadCheckpoint_eq_ok {interp : Interpreter} {raw : Bytes} {checkpoint : Checkpoint} :
    loadCheckpoint interp (some raw) = .ok (some checkpoint) ↔
      ∃ v, strictJson interp raw = .ok v ∧ validateCheckpoint v = some checkpoint := by
  simp only [loadCheckpoint, catching_none_eq_some, bind_eq_ok, Except.ok.injEq]

/-- The root is what the loader reads from bytes with the pinned digest. -/
structure PinnedRoot (interp : Interpreter) (rootBytes : Bytes) (expected : Option Str)
    (fields : Dict) (root : Root) : Prop where
  pinned : expected = some (sha256Hex rootBytes)
  loaded : loadRoot interp rootBytes = .ok (some root)
  decoded : strictJson interp rootBytes = .ok (.obj fields)
  reads : ReadsRoot fields root

theorem admitRoot_eq_ok {interp : Interpreter} {rootBytes : Bytes} {expected : Option Str}
    {root : Root} (h : admitRoot interp rootBytes expected = .ok (.ok root)) :
    ∃ fields, PinnedRoot interp rootBytes expected fields root := by
  unfold admitRoot at h
  split at h
  · cases h
  · rename_i digest
    split at h
    · cases h
    · rename_i hdigest
      obtain ⟨rootOption, hload, h⟩ := bind_eq_ok.mp h
      cases rootOption with
      | none => cases h
      | some loaded =>
        cases h
        obtain ⟨v, hdecoded, hvalid⟩ := loadRoot_eq_ok.mp hload
        obtain ⟨fields, rfl, hreads⟩ := validateRoot_eq_ok hvalid
        have hpinned : sha256Hex rootBytes = digest := by
          simp only [Bool.or_eq_true, decide_eq_true_eq, not_or, not_not] at hdigest
          exact hdigest.2
        exact ⟨fields, by rw [hpinned], hload, hdecoded, hreads⟩

/-! ## Signed documents -/

/-- `signed` and `signatures` are the two parts of a signed document of the schema. -/
structure SignedDocument (document : Json) (schema : String) (signed : Dict)
    (signatures : List SignatureEntry) : Prop where
  parts : ∃ fields entries, document = .obj fields ∧ Dict.get fields "schema" = .str (u schema) ∧
    Dict.get fields "signed" = .obj signed ∧ Dict.get fields "signatures" = .arr entries ∧
    entries.mapM validateSignature = some signatures

theorem validateSignatures_eq_some {v : Json} {signatures : List SignatureEntry}
    (h : validateSignatures v = some signatures) :
    ∃ entries, v = .arr entries ∧ entries.mapM validateSignature = some signatures := by
  cases v with
  | arr entries =>
    simp only [validateSignatures] at h
    split at h
    · exact ⟨entries, rfl, h⟩
    · cases h
  | _ => cases h

theorem validateSigned_eq_some {v : Json} {signed : Signed} (h : validateSigned v = some signed) :
    v = .obj signed.value ∧ Dict.get signed.value "publication_id" = .int signed.publicationId ∧
      1 ≤ signed.publicationId ∧
      validatePrevious (Dict.get signed.value "previous") = some signed.previous := by
  cases v with
  | obj fields =>
    simp only [validateSigned, Option.bind_eq_bind, Option.bind_eq_some_iff, guard_eq_some,
      Option.some.injEq] at h
    obtain ⟨-, -, publisher, -, version, -, publication, hpublication, issued, -, expires, -, subject,
      -, previous, hprevious, rfl⟩ := h
    obtain ⟨hvalue, hpositive⟩ := isInt_eq_some.mp hpublication
    exact ⟨rfl, hvalue, hpositive, hprevious⟩
  | _ => cases h

theorem validateStatement_eq_some {document : Json} {signed : Signed}
    {signatures : List SignatureEntry} (h : validateStatement document = some (signed, signatures)) :
    SignedDocument document statementSchema signed.value signatures ∧
      Dict.get signed.value "publication_id" = .int signed.publicationId ∧
      1 ≤ signed.publicationId ∧
      validatePrevious (Dict.get signed.value "previous") = some signed.previous := by
  cases document with
  | obj fields =>
    simp only [validateStatement, Option.bind_eq_bind, Option.bind_eq_some_iff, guard_eq_some,
      Option.some.injEq, Prod.mk.injEq] at h
    obtain ⟨-, -, -, hschema, signed', hsigned, signatures', hsignatures, rfl, rfl⟩ := h
    obtain ⟨hvalue, hrest⟩ := validateSigned_eq_some hsigned
    obtain ⟨entries, hentries, hmap⟩ := validateSignatures_eq_some hsignatures
    exact ⟨⟨fields, entries, rfl, Json.isStr_eq_true.mp hschema, hvalue, hentries, hmap⟩, hrest⟩
  | _ => cases h

theorem validateRootUpdate_eq_some {document : Json} {signed : UpdateSigned}
    {signatures : List SignatureEntry} (h : validateRootUpdate document = some (signed, signatures)) :
    SignedDocument document rootUpdateSchema signed.value signatures ∧
      signed.newRoot = Dict.get signed.value "new_root" := by
  cases document with
  | obj fields =>
    simp only [validateRootUpdate, Option.bind_eq_bind, Option.bind_eq_some_iff, guard_eq_some,
      Option.some.injEq, Prod.mk.injEq] at h
    obtain ⟨-, -, -, hschema, signed', hsigned, signatures', hsignatures, rfl, rfl⟩ := h
    obtain ⟨entries, hentries, hmap⟩ := validateSignatures_eq_some hsignatures
    cases hvalue : Dict.get fields "signed" with
    | obj signedFields =>
      rw [hvalue] at hsigned
      simp only [validateUpdateSigned, Option.bind_eq_bind, Option.bind_eq_some_iff, guard_eq_some,
        Option.some.injEq] at hsigned
      obtain ⟨-, -, publisher, -, version, -, digest, -, issued, -, expires, -, rfl⟩ := hsigned
      exact ⟨⟨fields, entries, rfl, Json.isStr_eq_true.mp hschema, hvalue, hentries, hmap⟩, rfl⟩
    | _ =>
      rw [hvalue] at hsigned
      cases hsigned
  | _ => cases h

/-! ## The verifiers -/

/-- Everything a verified snapshot has passed. -/
structure SnapshotVerified (env : Env) (snapshotBytes statementBytes trustRootBytes : Bytes)
    (checkpointBytes : Option Bytes) (expected : Option Str) (required : Bool) (now : DateTime)
    (rootFields : Dict) (root : Root) (checkpoint : Option Checkpoint) (signed : Signed)
    (signatures : List SignatureEntry) (result : VerifiedSnapshot) : Prop where
  pinnedRoot : PinnedRoot env.interp trustRootBytes expected rootFields root
  checkpointLoaded : loadCheckpoint env.interp checkpointBytes = .ok checkpoint
  checkpointPresent : checkpointBytes.isSome = true → checkpoint.isSome = true
  checkpointMatches : ∀ c, checkpoint = some c → checkpointMatchesRoot c root trustRootBytes = true
  statement : ∃ document, strictJson env.interp statementBytes = .ok document ∧
    validateStatement document = some (signed, signatures)
  publisher : signed.publisherId = root.publisherId
  version : signed.rootVersion = root.rootVersion
  floor : root.minimumPublicationId ≤ signed.publicationId
  length : signed.snapshot.length = snapshotBytes.length
  digest : signed.snapshot.sha256 = sha256Hex snapshotBytes
  structural : structureReasons env.interp snapshotBytes = .ok []
  time : ∃ utc, now.assumeUtc.astimezoneUtc = .ok utc ∧
    timeReasons root utc signed.issuedAt signed.expiresAt "SNAPSHOT_NOT_YET_VALID"
      "SNAPSHOT_EXPIRED" "SNAPSHOT_LIFETIME_INVALID" = []
  statementDigest : statementSha256 (.obj signed.value) = .ok result.statementSha256
  snapshotDigest : result.snapshotSha256 = sha256Hex snapshotBytes
  chain : chainReasons root checkpoint signed result.snapshotSha256 result.statementSha256 = []
  current : currentReasons required checkpoint signed = []
  threshold : verifySignatures env root .snapshot signed.publicationId (.obj signed.value)
    signatures = .ok (result.signerKeyIds, [])
  publicationId : result.publicationId = signed.publicationId
  nextCheckpoint : result.nextCheckpoint =
    { publisherId := root.publisherId
      rootVersion := root.rootVersion
      rootSha256 := sha256Hex trustRootBytes
      publicationId := signed.publicationId
      snapshotSha256 := result.snapshotSha256
      statementSha256 := result.statementSha256 }

theorem judgeSnapshot_verified {env : Env} {snapshotBytes trustRootBytes : Bytes} {root : Root}
    {checkpoint : Option Checkpoint} {required : Bool} {now : DateTime} {signed : Signed}
    {signatures : List SignatureEntry} {result : VerifiedSnapshot}
    (h : judgeSnapshot env snapshotBytes trustRootBytes root checkpoint required now signed
      signatures = .ok (.verified result))
    {statementBytes : Bytes} {checkpointBytes : Option Bytes} {expected : Option Str}
    {rootFields : Dict} (hroot : PinnedRoot env.interp trustRootBytes expected rootFields root)
    (hloaded : loadCheckpoint env.interp checkpointBytes = .ok checkpoint)
    (hpresent : checkpointBytes.isSome = true → checkpoint.isSome = true)
    (hmatches : ∀ c, checkpoint = some c → checkpointMatchesRoot c root trustRootBytes = true)
    (hstatement : ∃ document, strictJson env.interp statementBytes = .ok document ∧
      validateStatement document = some (signed, signatures)) :
    SnapshotVerified env snapshotBytes statementBytes trustRootBytes checkpointBytes expected
      required now rootFields root checkpoint signed signatures result := by
  obtain ⟨utc, hutc, h⟩ := bind_eq_ok.mp h
  obtain ⟨digest, hdigest, h⟩ := bind_eq_ok.mp h
  obtain ⟨structural, hstructural, h⟩ := bind_eq_ok.mp h
  obtain ⟨⟨signers, signatureReasons⟩, hsignatures, h⟩ := bind_eq_ok.mp h
  dsimp only at h
  split at h
  · cases h
  · rename_i hreasons
    cases h
    simp only [Bool.not_eq_true, Bool.not_eq_false', List.isEmpty_iff, List.append_eq_nil_iff,
      reason_eq_nil, decide_eq_false_iff_not, not_not, not_or, not_lt] at hreasons
    obtain ⟨⟨⟨⟨⟨⟨⟨⟨⟨hpublisher, hversion⟩, hfloor⟩, -⟩, hlength, hsha⟩, hstruct⟩, htime⟩, hchain⟩,
      hcurrent⟩, hnone⟩ := hreasons
    subst hstruct hnone
    exact
      { pinnedRoot := hroot
        checkpointLoaded := hloaded
        checkpointPresent := hpresent
        checkpointMatches := hmatches
        statement := hstatement
        publisher := hpublisher
        version := hversion
        floor := hfloor
        length := hlength
        digest := hsha
        structural := hstructural
        time := ⟨utc, hutc, htime⟩
        statementDigest := hdigest
        snapshotDigest := rfl
        chain := hchain
        current := hcurrent
        threshold := hsignatures
        publicationId := rfl
        nextCheckpoint := rfl }

theorem verifySnapshot_verified {env : Env} {snapshotBytes statementBytes trustRootBytes : Bytes}
    {checkpointBytes : Option Bytes} {expected : Option Str} {required : Bool} {now : DateTime}
    {result : VerifiedSnapshot}
    (h : verifySnapshot env snapshotBytes statementBytes trustRootBytes checkpointBytes expected
      required now = .ok (.verified result)) :
    ∃ fields root checkpoint signed signatures,
      SnapshotVerified env snapshotBytes statementBytes trustRootBytes checkpointBytes expected
        required now fields root checkpoint signed signatures result := by
  obtain ⟨admitted, hadmit, h⟩ := bind_eq_ok.mp h
  cases admitted with
  | error code => cases h
  | ok root =>
    obtain ⟨fields, hroot⟩ := admitRoot_eq_ok hadmit
    obtain ⟨checkpoint, hloaded, h⟩ := bind_eq_ok.mp h
    split at h
    · cases h
    · rename_i hpresent
      split at h
      · cases h
      · rename_i hmatches
        obtain ⟨loaded, hcatch, h⟩ := bind_eq_ok.mp h
        split at h
        · cases h
        · rename_i signed signatures hvalid
          obtain ⟨document, rfl, hdocument⟩ := Option.bind_eq_some_iff.mp hvalid
          have hdecoded : strictJson env.interp statementBytes = .ok document := by
            have hmap := catching_none_eq_some.mp hcatch
            cases hstrict : strictJson env.interp statementBytes with
            | error e => rw [hstrict] at hmap; cases hmap
            | ok v => rw [hstrict] at hmap; cases hmap; rfl
          refine ⟨fields, root, checkpoint, signed, signatures,
            judgeSnapshot_verified h hroot hloaded ?_ ?_ ⟨document, hdecoded, hdocument⟩⟩
          · intro hsome
            cases checkpoint with
            | none => simp [hsome] at hpresent
            | some c => rfl
          · rintro c rfl
            simpa using hmatches

/-- Everything a verified root update has passed. -/
structure RootUpdateVerified (env : Env) (currentRootBytes updateBytes checkpointBytes : Bytes)
    (expected : Option Str) (now : DateTime) (rootFields : Dict) (root : Root)
    (checkpoint : Checkpoint) (signed : UpdateSigned) (signatures : List SignatureEntry)
    (newRoot : Root) (newRootBytes : Bytes) (result : VerifiedRootUpdate) : Prop where
  pinnedRoot : PinnedRoot env.interp currentRootBytes expected rootFields root
  checkpointLoaded : loadCheckpoint env.interp (some checkpointBytes) = .ok (some checkpoint)
  checkpointMatches : checkpointMatchesRoot checkpoint root currentRootBytes = true
  update : ∃ document, strictJson env.interp updateBytes = .ok document ∧
    validateRootUpdate document = some (signed, signatures)
  publisher : signed.publisherId = root.publisherId
  previousVersion : signed.previousRootVersion = root.rootVersion
  previousDigest : signed.previousRootSha256 = sha256Hex currentRootBytes
  newRootValid : validateRoot signed.newRoot = .ok (some newRoot)
  newPublisher : newRoot.publisherId = root.publisherId
  newVersion : newRoot.rootVersion = root.rootVersion + 1
  floor : rollbackReasons checkpoint signed.newRoot = []
  time : ∃ utc, now.assumeUtc.astimezoneUtc = .ok utc ∧
    timeReasons root utc signed.issuedAt signed.expiresAt "ROOT_UPDATE_NOT_YET_VALID"
      "ROOT_UPDATE_EXPIRED" "ROOT_UPDATE_LIFETIME_INVALID" = []
  threshold : verifySignatures env root .recovery checkpoint.publicationId (.obj signed.value)
    signatures = .ok (result.recoverySignerKeyIds, [])
  canonical : canonicalRootBytes (.obj newRoot.value) = .ok newRootBytes
  decoded : decodeUtf8 newRootBytes = .ok result.newRootJson
  returned : result.newRoot = .obj newRoot.value
  nextCheckpoint : result.nextCheckpoint =
    { checkpoint with
      rootVersion := newRoot.rootVersion
      rootSha256 := sha256Hex newRootBytes }

theorem judgeRootUpdate_verified {env : Env} {currentRootBytes : Bytes} {root : Root}
    {checkpoint : Checkpoint} {now : DateTime} {signed : UpdateSigned}
    {signatures : List SignatureEntry} {result : VerifiedRootUpdate}
    (h : judgeRootUpdate env currentRootBytes root checkpoint now signed signatures =
      .ok (.verified result))
    {updateBytes checkpointBytes : Bytes} {expected : Option Str} {rootFields : Dict}
    (hroot : PinnedRoot env.interp currentRootBytes expected rootFields root)
    (hloaded : loadCheckpoint env.interp (some checkpointBytes) = .ok (some checkpoint))
    (hmatches : checkpointMatchesRoot checkpoint root currentRootBytes = true)
    (hupdate : ∃ document, strictJson env.interp updateBytes = .ok document ∧
      validateRootUpdate document = some (signed, signatures)) :
    ∃ newRoot newRootBytes, RootUpdateVerified env currentRootBytes updateBytes checkpointBytes
      expected now rootFields root checkpoint signed signatures newRoot newRootBytes result := by
  obtain ⟨utc, hutc, h⟩ := bind_eq_ok.mp h
  obtain ⟨newRootOption, hnewRoot, h⟩ := bind_eq_ok.mp h
  obtain ⟨⟨signers, signatureReasons⟩, hsignatures, h⟩ := bind_eq_ok.mp h
  dsimp only at h
  split at h
  · rename_i newRoot _ hreasons
    obtain ⟨newRootBytes, hcanonical, h⟩ := bind_eq_ok.mp h
    obtain ⟨newRootJson, hdecoded, h⟩ := bind_eq_ok.mp h
    cases h
    simp only [List.append_eq_nil_iff, reason_eq_nil, decide_eq_false_iff_not, not_not,
      newRootReasons] at hreasons
    obtain ⟨⟨⟨⟨⟨⟨htime, hpublisher⟩, hversion⟩, hdigest⟩, hfloor⟩, hnewPublisher, hnewVersion⟩,
      hnone⟩ := hreasons
    subst hnone
    exact ⟨newRoot, newRootBytes,
      { pinnedRoot := hroot
        checkpointLoaded := hloaded
        checkpointMatches := hmatches
        update := hupdate
        publisher := hpublisher
        previousVersion := hversion
        previousDigest := hdigest
        newRootValid := hnewRoot
        newPublisher := hnewPublisher
        newVersion := hnewVersion
        floor := hfloor
        time := ⟨utc, hutc, htime⟩
        threshold := hsignatures
        canonical := hcanonical
        decoded := hdecoded
        returned := rfl
        nextCheckpoint := rfl }⟩
  · cases h

theorem verifyRootUpdate_verified {env : Env} {currentRootBytes updateBytes checkpointBytes : Bytes}
    {expected : Option Str} {now : DateTime} {result : VerifiedRootUpdate}
    (h : verifyRootUpdate env currentRootBytes updateBytes checkpointBytes expected now =
      .ok (.verified result)) :
    ∃ fields root checkpoint signed signatures newRoot newRootBytes,
      RootUpdateVerified env currentRootBytes updateBytes checkpointBytes expected now fields root
        checkpoint signed signatures newRoot newRootBytes result := by
  obtain ⟨admitted, hadmit, h⟩ := bind_eq_ok.mp h
  cases admitted with
  | error code => cases h
  | ok root =>
    obtain ⟨fields, hroot⟩ := admitRoot_eq_ok hadmit
    obtain ⟨checkpointOption, hloaded, h⟩ := bind_eq_ok.mp h
    cases checkpointOption with
    | none => cases h
    | some checkpoint =>
      dsimp only at h
      split at h
      · cases h
      · rename_i hmatches
        obtain ⟨loaded, hcatch, h⟩ := bind_eq_ok.mp h
        split at h
        · cases h
        · rename_i signed signatures hvalid
          obtain ⟨document, rfl, hdocument⟩ := Option.bind_eq_some_iff.mp hvalid
          have hdecoded : strictJson env.interp updateBytes = .ok document := by
            have hmap := catching_none_eq_some.mp hcatch
            cases hstrict : strictJson env.interp updateBytes with
            | error e => rw [hstrict] at hmap; cases hmap
            | ok v => rw [hstrict] at hmap; cases hmap; rfl
          obtain ⟨newRoot, newRootBytes, hverified⟩ := judgeRootUpdate_verified h hroot hloaded
            (by simpa using hmatches) ⟨document, hdecoded, hdocument⟩
          exact ⟨fields, root, checkpoint, signed, signatures, newRoot, newRootBytes, hverified⟩

end McpTrust.SnapshotTrust
