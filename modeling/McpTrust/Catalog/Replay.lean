import McpTrust.Catalog.Consumer
import McpTrust.Catalog.RootRotation
import McpTrust.Portability.Models

/-! # Replaying an accepted publication

A verified snapshot is accepted again, with the checkpoint it gave, whatever the
order in which the members of its statement and of the checkpoint are written.
-/

namespace McpTrust.SnapshotTrust

set_option autoImplicit false

open Python
open RuntimeSnapshot (reason)

/-! ## The order of members -/

/-- The same value up to the order of the members of its objects. -/
def SameDocument (a b : Json) : Prop := a.sortKeys = b.sortKeys

/-- The signed part of the document with its keys sorted. -/
def Signed.sorted (signed : Signed) : Signed :=
  { signed with value := (Json.sortFields signed.value).insertionSort KeyLe }

@[simp] theorem utcDatetime_sortKeys (v : Json) : utcDatetime v.sortKeys = utcDatetime v := by
  cases v <;> rfl

theorem pyEq_int_sortKeys (v : Json) (n : ℤ) : v.sortKeys.pyEq (.int n) = v.pyEq (.int n) := by
  cases v <;> rfl

theorem validateSubject_sortKeys {v : Json} (h : v.UniqueKeys) :
    validateSubject v.sortKeys = validateSubject v := by
  cases v with
  | obj fields =>
    have hnodup := (Json.uniqueKeys_obj.mp h).1
    simp only [Json.sortKeys, validateSubject, Json.keysEq_sortKeys, Json.get_sortKeys hnodup,
      matching_sortKeys, isStr_sortKeys, isInt_sortKeys, pyEq_int_sortKeys]
  | _ => rfl

theorem validatePrevious_sortKeys {v : Json} (h : v.UniqueKeys) :
    validatePrevious v.sortKeys = validatePrevious v := by
  cases v with
  | obj fields =>
    have hnodup := (Json.uniqueKeys_obj.mp h).1
    simp only [Json.sortKeys, validatePrevious, Json.keysEq_sortKeys, Json.get_sortKeys hnodup,
      matching_sortKeys, isInt_sortKeys]
  | _ => rfl

theorem validateSignature_sortKeys {v : Json} (h : v.UniqueKeys) :
    validateSignature v.sortKeys = validateSignature v := by
  cases v with
  | obj fields =>
    have hnodup := (Json.uniqueKeys_obj.mp h).1
    simp only [Json.sortKeys, validateSignature, Json.keysEq_sortKeys, Json.get_sortKeys hnodup,
      matching_sortKeys, decodeBase64url_sortKeys]
  | _ => rfl

theorem mapM_validateSignature_sortKeys {entries : List Json} (h : ∀ v ∈ entries, v.UniqueKeys) :
    (entries.map Json.sortKeys).mapM validateSignature = entries.mapM validateSignature := by
  induction entries with
  | nil => rfl
  | cons v rest ih =>
    rw [List.map_cons, List.mapM_cons, List.mapM_cons, validateSignature_sortKeys (h v List.mem_cons_self),
      ih fun w hw => h w (List.mem_cons_of_mem _ hw)]

theorem validateSignatures_sortKeys {v : Json} (h : v.UniqueKeys) :
    validateSignatures v.sortKeys = validateSignatures v := by
  cases v with
  | arr entries =>
    rw [Json.sortKeys, Json.sortItems_eq, validateSignatures, validateSignatures, List.length_map,
      mapM_validateSignature_sortKeys (Json.uniqueKeys_arr.mp h)]
  | _ => rfl

theorem validateSigned_sortKeys {v : Json} (h : v.UniqueKeys) :
    validateSigned v.sortKeys = (validateSigned v).map Signed.sorted := by
  cases v with
  | obj fields =>
    have hnodup := (Json.uniqueKeys_obj.mp h).1
    have hpart : ∀ name, (Dict.get fields name).UniqueKeys := uniqueKeys_get h
    simp only [Json.sortKeys, validateSigned, Json.keysEq_sortKeys, Json.get_sortKeys hnodup,
      matching_sortKeys, isInt_sortKeys, utcDatetime_sortKeys, validateSubject_sortKeys (hpart "snapshot"),
      validatePrevious_sortKeys (hpart "previous"), Option.bind_eq_bind, Option.map_bind,
      Function.comp_def, Option.map_some, Signed.sorted]
  | _ => rfl

/-- Validation sees the members of a document, not their order. -/
theorem validateStatement_sortKeys {v : Json} (h : v.UniqueKeys) :
    validateStatement v.sortKeys = (validateStatement v).map fun p => (p.1.sorted, p.2) := by
  cases v with
  | obj fields =>
    have hnodup := (Json.uniqueKeys_obj.mp h).1
    have hpart : ∀ name, (Dict.get fields name).UniqueKeys := uniqueKeys_get h
    simp only [Json.sortKeys, validateStatement, Json.keysEq_sortKeys, Json.get_sortKeys hnodup,
      isStr_sortKeys, validateSigned_sortKeys (hpart "signed"),
      validateSignatures_sortKeys (hpart "signatures"), Option.bind_eq_bind, Option.map_bind,
      Function.comp_def, Option.map_some, Option.bind_map]
  | _ => rfl

/-- Of one document, the statement is read with the same fields and signatures. -/
theorem validateStatement_same {a b : Json} (ha : a.UniqueKeys) (hb : b.UniqueKeys)
    (hsame : SameDocument a b) {signed : Signed} {signatures : List SignatureEntry}
    (h : validateStatement a = some (signed, signatures)) :
    ∃ signed', validateStatement b = some (signed', signatures) ∧ signed'.sorted = signed.sorted := by
  have hsorted := validateStatement_sortKeys hb
  rw [← hsame, validateStatement_sortKeys ha, h, Option.map_some] at hsorted
  obtain ⟨p, hp, hpair⟩ := Option.map_eq_some_iff.mp hsorted.symm
  have hsignatures : p.2 = signatures := (Prod.mk.inj hpair).2
  refine ⟨p.1, ?_, (Prod.mk.inj hpair).1⟩
  rw [hp, ← hsignatures]

/-- Signatures and digests cover the value with its keys sorted. -/
theorem canonicalSignedBytes_same {a b : Json} (ha : Strict a) (hb : Strict b) (hsame : SameDocument a b) :
    canonicalSignedBytes a = canonicalSignedBytes b := by
  have hdumps : dumps canonicalStyle a = dumps canonicalStyle b := congrArg (render canonicalStyle 0) hsame
  rw [ha.canonicalSignedBytes, hb.canonicalSignedBytes, hdumps]

theorem verifySignatures_same {env : Env} {root : Root} {role : Role} {publicationId : ℤ} {a b : Json}
    (hbytes : canonicalSignedBytes a = canonicalSignedBytes b) (signatures : List SignatureEntry) :
    verifySignatures env root role publicationId a signatures =
      verifySignatures env root role publicationId b signatures := by
  rw [verifySignatures, verifySignatures, hbytes]

theorem statementSha256_same {a b : Json} (hbytes : canonicalSignedBytes a = canonicalSignedBytes b) :
    statementSha256 a = statementSha256 b := by
  rw [statementSha256, statementSha256, hbytes]

/-! ## The second call -/

theorem validateStatement_length {document : Json} {signed : Signed} {signatures : List SignatureEntry}
    (h : validateStatement document = some (signed, signatures)) :
    signed.snapshot.length ≤ maxSnapshotBytes := by
  cases document with
  | obj fields =>
    simp only [validateStatement, Option.bind_eq_bind, Option.bind_eq_some_iff, guard_eq_some,
      Option.some.injEq, Prod.mk.injEq] at h
    obtain ⟨-, -, -, -, signed', hsigned, -, -, rfl, -⟩ := h
    cases hvalue : Dict.get fields "signed" with
    | obj part =>
      rw [hvalue] at hsigned
      simp only [validateSigned, Option.bind_eq_bind, Option.bind_eq_some_iff, guard_eq_some,
        Option.some.injEq] at hsigned
      obtain ⟨-, -, _, -, _, -, _, -, _, -, _, -, subject, hsubject, _, -, rfl⟩ := hsigned
      cases hsubjectValue : Dict.get part "snapshot" with
      | obj subjectFields =>
        rw [hsubjectValue] at hsubject
        simp only [validateSubject, Option.bind_eq_bind, Option.bind_eq_some_iff, guard_eq_some,
          Option.some.injEq] at hsubject
        obtain ⟨-, -, -, -, -, -, length, -, -, hlength, digest, -, rfl⟩ := hsubject
        exact hlength
      | _ =>
        rw [hsubjectValue] at hsubject
        cases hsubject
    | _ =>
      rw [hvalue] at hsigned
      cases hsigned
  | _ => cases h

/-- A checkpoint at the statement's own publication, with its digests, raises no objection. -/
theorem chainReasons_replay {root : Root} {checkpoint : Checkpoint} {signed : Signed}
    (hid : checkpoint.publicationId = signed.publicationId) :
    chainReasons root (some checkpoint) signed checkpoint.snapshotSha256 checkpoint.statementSha256 = [] := by
  simp [chainReasons, hid, reason]

theorem currentReasons_replay {required : Bool} {checkpoint : Checkpoint} {signed : Signed}
    (hid : checkpoint.publicationId = signed.publicationId) :
    currentReasons required (some checkpoint) signed = [] := by
  cases required <;> simp [currentReasons, hid, reason]

/-- The checkpoint of a verified call, judged against the same statement. -/
theorem SnapshotVerified.judge_replay {env : Env} {snapshotBytes statementBytes rootBytes : Bytes}
    {raw : Option Bytes} {expected : Option Str} {required : Bool} {now : DateTime} {rootFields : Dict}
    {root : Root} {checkpoint : Option Checkpoint} {signed : Signed} {signatures : List SignatureEntry}
    {result : VerifiedSnapshot}
    (h : SnapshotVerified env snapshotBytes statementBytes rootBytes raw expected required now rootFields
      root checkpoint signed signatures result)
    {signed' : Signed} (hsorted : signed'.sorted = signed.sorted)
    (hbytes : canonicalSignedBytes (.obj signed'.value) = canonicalSignedBytes (.obj signed.value))
    (required' : Bool) :
    ∃ again, judgeSnapshot env snapshotBytes rootBytes root (some result.nextCheckpoint) required' now
        signed' signatures = .ok (.verified again) ∧ again.nextCheckpoint = result.nextCheckpoint := by
  obtain ⟨utc, hutc, htime⟩ := h.time
  have hpublisher : signed'.publisherId = root.publisherId :=
    (congrArg Signed.publisherId hsorted).trans h.publisher
  have hversion : signed'.rootVersion = root.rootVersion :=
    (congrArg Signed.rootVersion hsorted).trans h.version
  have hid : signed'.publicationId = signed.publicationId := (congrArg Signed.publicationId hsorted :)
  have hsubject : signed'.snapshot = signed.snapshot := (congrArg Signed.snapshot hsorted :)
  have hissued : signed'.issuedAt = signed.issuedAt := (congrArg Signed.issuedAt hsorted :)
  have hexpires : signed'.expiresAt = signed.expiresAt := (congrArg Signed.expiresAt hsorted :)
  have hdigest : statementSha256 (.obj signed'.value) = .ok result.statementSha256 :=
    (statementSha256_same hbytes).trans h.statementDigest
  have hsignatures : verifySignatures env root .snapshot signed'.publicationId (.obj signed'.value)
      signatures = .ok (result.signerKeyIds, []) := by
    rw [verifySignatures_same hbytes, hid]
    exact h.threshold
  have hnext : result.nextCheckpoint.publicationId = signed'.publicationId := by
    rw [hid, h.nextCheckpoint]
  have hchain : chainReasons root (some result.nextCheckpoint) signed' (sha256Hex snapshotBytes)
      result.statementSha256 = [] := by
    have hreplay : chainReasons root (some result.nextCheckpoint) signed' result.nextCheckpoint.snapshotSha256
        result.nextCheckpoint.statementSha256 = [] := chainReasons_replay hnext
    rw [h.nextCheckpoint] at hreplay ⊢
    rwa [h.snapshotDigest] at hreplay ⊢
  have hlength : snapshotBytes.length ≤ maxSnapshotBytes := by
    obtain ⟨document, -, hvalid⟩ := h.statement
    have hle := validateStatement_length hvalid
    rw [h.length] at hle
    exact Int.ofNat_le.mp hle
  have hfloor : ¬signed'.publicationId < root.minimumPublicationId := by
    rw [hid]
    exact not_lt.mpr h.floor
  simp only [judgeSnapshot, hutc, hdigest, h.structural, hsignatures, bind, Except.bind, hpublisher,
    hversion, hsubject, h.length, h.digest, hissued, hexpires, htime, hchain, currentReasons_replay hnext,
    not_lt.mpr hlength, hfloor, ne_eq, not_true_eq_false, or_self, decide_false, reason,
    Bool.false_eq_true, if_false, List.append_nil, List.isEmpty_nil, Bool.not_true]
  refine ⟨_, rfl, ?_⟩
  rw [h.nextCheckpoint, h.snapshotDigest, hid]

/-- Once root, checkpoint and statement are read, the answer is the judgement. -/
theorem verifySnapshot_of_reads {env : Env} {snapshotBytes statementBytes rootBytes text : Bytes}
    {expected : Option Str} {required : Bool} {now : DateTime} {root : Root} {checkpoint : Checkpoint}
    {document : Json} {signed : Signed} {signatures : List SignatureEntry}
    (hroot : admitRoot env.interp rootBytes expected = .ok (.ok root))
    (hcheckpoint : loadCheckpoint env.interp (some text) = .ok (some checkpoint))
    (hmatches : checkpointMatchesRoot checkpoint root rootBytes = true)
    (hdecoded : strictJson env.interp statementBytes = .ok document)
    (hvalid : validateStatement document = some (signed, signatures)) :
    verifySnapshot env snapshotBytes statementBytes rootBytes (some text) expected required now =
      judgeSnapshot env snapshotBytes rootBytes root (some checkpoint) required now signed signatures := by
  simp only [verifySnapshot, hroot, hcheckpoint, hdecoded, bind, Except.bind, hmatches, Option.isSome_some,
    Option.isNone_some, Bool.and_false, Option.any_some, Bool.not_true, Bool.false_eq_true, if_false,
    Except.map, catching_ok, Option.bind_some, hvalid]

/-- Any bytes that parse to the members of a well-formed checkpoint are loaded as it. -/
theorem loadCheckpoint_of_perm {interp : Interpreter} {c : Checkpoint} (hc : c.WellFormed) {text : Bytes}
    {fields : Dict} (hparsed : strictJson interp text = .ok (.obj fields)) (hperm : fields.Perm c.fields) :
    loadCheckpoint interp (some text) = .ok (some c) := by
  have hnodup := (Json.uniqueKeys_obj.mp (strictJson_strict hparsed).unique).1
  refine loadCheckpoint_eq_ok.mpr ⟨_, hparsed, validateCheckpoint_of_fields hc ?_ fun name => ?_⟩
  · rw [keysEq_perm hperm, c.keysEq_fields]
  · rw [Dict.get, Dict.get, Dict.lookup_perm hperm hnodup]

/-- A verified call, made again with the checkpoint it returned, is verified with that checkpoint. -/
theorem replay_idempotent {env : Env} {snapshotBytes statementBytes rootBytes : Bytes} {raw : Option Bytes}
    {expected : Option Str} {required : Bool} {now : DateTime} {result : VerifiedSnapshot}
    (h : verifySnapshot env snapshotBytes statementBytes rootBytes raw expected required now =
      .ok (.verified result))
    {again text : Bytes} {document document' : Json} {fields : Dict}
    (hdocument : strictJson env.interp statementBytes = .ok document)
    (hagain : strictJson env.interp again = .ok document') (hsame : SameDocument document document')
    (htext : strictJson env.interp text = .ok (.obj fields)) (hfields : fields.Perm result.nextCheckpoint.fields)
    (required' : Bool) :
    ∃ next, verifySnapshot env snapshotBytes again rootBytes (some text) expected required' now =
        .ok (.verified next) ∧ next.nextCheckpoint = result.nextCheckpoint := by
  obtain ⟨rootFields, root, checkpoint, signed, signatures, hv⟩ := verifySnapshot_verified h
  obtain ⟨read, hread, hvalid⟩ := hv.statement
  obtain rfl : read = document := Except.ok.inj (hread.symm.trans hdocument)
  have hstrict := strictJson_strict hread
  have hstrict' := strictJson_strict hagain
  obtain ⟨signed', hvalid', hsorted⟩ := validateStatement_same hstrict.unique hstrict'.unique hsame hvalid
  obtain ⟨⟨top, entries, rfl, -, hsigned, -⟩, -⟩ := validateStatement_eq_some hvalid
  obtain ⟨⟨top', entries', rfl, -, hsigned', -⟩, -⟩ := validateStatement_eq_some hvalid'
  have hbytes : canonicalSignedBytes (.obj signed'.value) = canonicalSignedBytes (.obj signed.value) :=
    canonicalSignedBytes_same (hstrict'.get_obj hsigned') (hstrict.get_obj hsigned)
      (congrArg (fun s : Signed => Json.obj s.value) hsorted)
  have hroot : admitRoot env.interp rootBytes expected = .ok (.ok root) := by
    rw [hv.pinnedRoot.pinned]
    exact admitRoot_of_loaded hv.pinnedRoot.loaded
  have hmatches : checkpointMatchesRoot result.nextCheckpoint root rootBytes = true := by
    rw [hv.nextCheckpoint]
    simp [checkpointMatchesRoot]
  obtain ⟨next, hjudged, hnext⟩ := hv.judge_replay hsorted hbytes required'
  refine ⟨next, ?_, hnext⟩
  rw [verifySnapshot_of_reads hroot (loadCheckpoint_of_perm hv.wellFormed htext hfields) hmatches hagain
    hvalid', hjudged]

/-- The checkpoint of the sample publication. -/
def sampleNext : Checkpoint :=
  (((verifySnapshot sampleEnv sampleSnapshotBytes sampleStatementBytes sampleRootBytes none
    (some (sha256Hex sampleRootBytes)) false sampleNow).toOption.bind SnapshotResult.verified?).map
      VerifiedSnapshot.nextCheckpoint).getD sampleCheckpoint

theorem replay_idempotent_sample :
    ∃ result next, verifySnapshot sampleEnv sampleSnapshotBytes sampleStatementBytes sampleRootBytes none
        (some (sha256Hex sampleRootBytes)) false sampleNow = .ok (.verified result) ∧
      verifySnapshot sampleEnv sampleSnapshotBytes sampleStatementBytes sampleRootBytes
        (some (jsonBytes (.obj sampleNext.fields))) (some (sha256Hex sampleRootBytes)) true sampleNow =
          .ok (.verified next) ∧ next.nextCheckpoint = result.nextCheckpoint := by
  obtain ⟨result, hresult⟩ := sampleSnapshot_verified
  have hnext : sampleNext = result.nextCheckpoint := by
    rw [sampleNext, hresult]
    rfl
  obtain ⟨rootFields, root, checkpoint, signed, signatures, hv⟩ := verifySnapshot_verified hresult
  obtain ⟨document, hdocument, -⟩ := hv.statement
  have hlength : (jsonBytes (.obj sampleNext.fields)).length ≤ maxMetadataBytes := by decide +kernel
  have hwell : sampleNext.WellFormed := hnext ▸ hv.wellFormed
  have htext : strictJson sampleEnv.interp (jsonBytes (.obj sampleNext.fields)) = .ok (.obj sampleNext.fields) :=
    strictJson_jsonBytes hwell.strict (sampleNext.plain (List.Perm.refl _)) (by decide) hlength
  obtain ⟨next, hverified, hsame⟩ := replay_idempotent hresult hdocument hdocument rfl htext
    (by rw [hnext]) true
  exact ⟨result, next, hresult, hverified, hsame⟩

end McpTrust.SnapshotTrust
