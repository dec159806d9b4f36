import McpTrust.Catalog.RootRotation
import McpTrust.Portability.Compare

/-! # What the root-update verifier raises

Everything is answered with a status, except at two places: the role of a key of
the new root is looked up in a set, and the time is converted to UTC.
-/

namespace McpTrust.SnapshotTrust

set_option autoImplicit false

open Python
open RuntimeSnapshot (reason)

/-! ## The new root -/

/-- A key that passes every check before its role, which is a list or an object. -/
def UnhashableRole (v : Json) : Prop :=
  ∃ key keyId publicKey role, v = .obj key ∧ Dict.keysEq key rootKeyKeys = true ∧
    matching isKeyId (Dict.get key "key_id") = some keyId ∧
    (Dict.get key "algorithm").isStr algorithm = true ∧
    decodeBase64url 32 (Dict.get key "public_key") = some publicKey ∧
    keyId = u "sha256:" ++ sha256Hex publicKey ∧
    Dict.get key "roles" = .arr [role] ∧ role.hashable = false

theorem roleOf_eq_error {role : Json} {e : PyErr} :
    roleOf role = .error e ↔ e = .typeError ∧ role.hashable = false := by
  unfold roleOf
  cases hrole : role.hashable with
  | false => simp [eq_comm]
  | true =>
    simp only [Bool.not_true, Bool.false_eq_true, if_false, Bool.true_eq_false, and_false, iff_false]
    split_ifs <;> simp

theorem validateRootKey_eq_error {seen : List Str} {v : Json} {e : PyErr} :
    validateRootKey seen v = .error e ↔ e = .typeError ∧ UnhashableRole v := by
  cases v with
  | obj key =>
    simp only [validateRootKey, UnhashableRole]
    constructor
    · intro h
      split at h
      · cases h
      · rename_i hkeys
        split at h
        · rename_i keyId publicKey role hid hpublic hroles
          split at h
          · cases h
          · rename_i halgorithm
            split at h
            · cases h
            · rename_i hdigest
              cases hrole : roleOf role with
              | error e' =>
                rw [hrole] at h
                cases h
                obtain ⟨rfl, hhash⟩ := roleOf_eq_error.mp hrole
                exact ⟨rfl, key, keyId, publicKey, role, rfl, by simpa using hkeys, hid,
                  by simpa using halgorithm, hpublic, not_not.mp hdigest, hroles, hhash⟩
              | ok found =>
                rw [hrole] at h
                simp only [bind, Except.bind] at h
                split at h
                · split at h
                  · split at h <;> cases h
                  · cases h
                · cases h
        · cases h
    · rintro ⟨rfl, _, keyId, publicKey, role, heq, hkeys, hid, halgorithm, hpublic, hdigest, hroles,
        hhash⟩
      cases heq
      have hrole : roleOf role = .error .typeError := roleOf_eq_error.mpr ⟨rfl, hhash⟩
      simp only [hkeys, hid, hpublic, hroles, halgorithm, hdigest, hrole, bind, Except.bind,
        Bool.not_true, Bool.false_eq_true, if_false, ne_eq, not_true_eq_false]
  | _ => simp [validateRootKey, UnhashableRole]

theorem validateRootKeys_eq_error {seen : List Str} {values : List Json} {e : PyErr} :
    validateRootKeys seen values = .error e ↔ e = .typeError ∧ ∃ before v after keys,
      values = before ++ v :: after ∧ validateRootKeys seen before = .ok (some keys) ∧
        UnhashableRole v := by
  induction values generalizing seen with
  | nil => simp [validateRootKeys]
  | cons w rest ih =>
    rw [validateRootKeys]
    constructor
    · intro h
      cases hkey : validateRootKey seen w with
      | error e' =>
        rw [hkey] at h
        cases h
        obtain ⟨rfl, hrole⟩ := validateRootKey_eq_error.mp hkey
        exact ⟨rfl, [], w, rest, [], rfl, rfl, hrole⟩
      | ok found =>
        rw [hkey] at h
        cases found with
        | none => cases h
        | some key =>
          simp only [bind, Except.bind] at h
          cases hrest : validateRootKeys (key.keyId :: seen) rest with
          | ok keys =>
            rw [hrest] at h
            cases h
          | error e' =>
            rw [hrest] at h
            cases h
            obtain ⟨rfl, before, v, after, keys, rfl, hbefore, hrole⟩ := ih.mp hrest
            refine ⟨rfl, w :: before, v, after, key :: keys, rfl, ?_, hrole⟩
            rw [validateRootKeys, hkey]
            simp only [bind, Except.bind, hbefore]
            rfl
    · rintro ⟨rfl, before, v, after, keys, heq, hbefore, hrole⟩
      cases before with
      | nil =>
        cases heq
        rw [validateRootKey_eq_error.mpr ⟨rfl, hrole⟩]
        rfl
      | cons w' before =>
        cases heq
        rw [validateRootKeys] at hbefore
        obtain ⟨found, hkey, hbefore⟩ := bind_eq_ok.mp hbefore
        cases found with
        | none => cases hbefore
        | some key =>
          rw [hkey]
          dsimp only [bind, Except.bind] at hbefore ⊢
          cases hrest : validateRootKeys (key.keyId :: seen) before with
          | error e =>
            rw [hrest] at hbefore
            cases hbefore
          | ok found =>
            cases found with
            | none =>
              rw [hrest] at hbefore
              cases hbefore
            | some keys' =>
              have herror : validateRootKeys (key.keyId :: seen) (before ++ v :: after) =
                  .error .typeError := ih.mpr ⟨rfl, before, v, after, keys', rfl, hrest, hrole⟩
              change Except.map _ (validateRootKeys _ (before ++ v :: after)) = _
              rw [herror]
              rfl

/-- The keys before some key are accepted, and that key has an unhashable role. -/
def UnhashableRoot (v : Json) : Prop :=
  ∃ fields root values before key after keys, v = .obj fields ∧
    rootFields fields = some (root, values) ∧ values = before ++ key :: after ∧
    validateRootKeys [] before = .ok (some keys) ∧ UnhashableRole key

theorem validateRoot_eq_error {v : Json} {e : PyErr} :
    validateRoot v = .error e ↔ e = .typeError ∧ UnhashableRoot v := by
  cases v with
  | obj fields =>
    simp only [validateRoot, UnhashableRoot]
    cases hfields : rootFields fields with
    | none => simp [hfields]
    | some p =>
      obtain ⟨root, values⟩ := p
      cases hkeys : validateRootKeys [] values with
      | error e' =>
        simp only [hkeys, bind, Except.bind, Except.error.injEq]
        obtain ⟨rfl, before, key, after, keys, hvalues, hbefore, hrole⟩ :=
          validateRootKeys_eq_error.mp hkeys
        constructor
        · rintro rfl
          exact ⟨rfl, fields, root, values, before, key, after, keys, rfl, hfields, hvalues, hbefore,
            hrole⟩
        · rintro ⟨rfl, -⟩
          rfl
      | ok found =>
        constructor
        · intro h
          cases found with
          | none =>
            simp only [hkeys, bind, Except.bind] at h
            cases h
          | some keys =>
            simp only [hkeys, bind, Except.bind] at h
            split at h <;> cases h
        · rintro ⟨rfl, _, root', values', before, key, after, keys, heq, hfields', hvalues, hbefore,
            hrole⟩
          cases heq
          rw [hfields] at hfields'
          cases hfields'
          rw [validateRootKeys_eq_error.mpr ⟨rfl, before, key, after, keys, hvalues, hbefore, hrole⟩]
            at hkeys
          cases hkeys
  | _ => simp [validateRoot, UnhashableRoot]

theorem loadRoot_total (interp : Interpreter) (raw : Bytes) : ∃ root, loadRoot interp raw = .ok root := by
  have hraises : RaisesOnly isLoadError (do validateRoot (← strictJson interp raw)) := by
    refine (strictJson_raises_load interp raw).bind fun v _ e he => ?_
    rw [(validateRoot_eq_error.mp he).1]
    rfl
  exact hraises.catching none

theorem loadCheckpoint_total (interp : Interpreter) (raw : Option Bytes) :
    ∃ checkpoint, loadCheckpoint interp raw = .ok checkpoint := by
  cases raw with
  | none => exact ⟨none, rfl⟩
  | some raw =>
    have hraises : RaisesOnly isLoadError
        (do (.ok (validateCheckpoint (← strictJson interp raw)) : Except PyErr (Option Checkpoint))) :=
      (strictJson_raises_load interp raw).bind fun _ _ => raisesOnly_ok _
    exact hraises.catching none

theorem admitRoot_total (interp : Interpreter) (rootBytes : Bytes) (expected : Option Str) :
    ∃ admitted, admitRoot interp rootBytes expected = .ok admitted := by
  unfold admitRoot
  split
  · exact ⟨_, rfl⟩
  · split
    · exact ⟨_, rfl⟩
    · obtain ⟨root, hroot⟩ := loadRoot_total interp rootBytes
      rw [hroot]
      cases root <;> exact ⟨_, rfl⟩

/-! ## The answer -/

/-- A verified answer, or the status `UNKNOWN` with its sorted reasons and nothing else. -/
def FailsClosed (schema : String) (answer : Dict) : Prop :=
  Dict.get answer "status" = .str (u "VERIFIED") ∨
    ∃ codes : List Str, codes ≠ [] ∧ codes.Pairwise StrLe ∧
      answer = [(u "schema", .str (u schema)), (u "status", .str (u "UNKNOWN")),
        (u "reason_codes", .arr (codes.map .str))]

theorem failsClosed_unknown {codes : List String} (hne : codes ≠ [])
    (hsorted : (codes.map u).Pairwise StrLe) :
    FailsClosed rootUpdateVerificationSchema (RootUpdateResult.unknown codes).toJson := by
  refine .inr ⟨codes.map u, by simpa using hne, hsorted, ?_⟩
  simp [RootUpdateResult.toJson, unknownJson]

theorem failsClosed_sorted {reasons : List String} (hne : reasons ≠ []) :
    FailsClosed rootUpdateVerificationSchema
      (RootUpdateResult.unknown (sortedNames reasons)).toJson :=
  failsClosed_unknown (fun h => hne (sortedNames_eq_nil.mp h)) (sortedNames_pairwise reasons)

theorem failsClosed_one (code : String) :
    FailsClosed rootUpdateVerificationSchema (RootUpdateResult.unknown [code]).toJson :=
  failsClosed_unknown (by simp) (by simp)

theorem failsClosed_verified (result : VerifiedRootUpdate) :
    FailsClosed rootUpdateVerificationSchema (RootUpdateResult.verified result).toJson := by
  refine .inl ?_
  simp [RootUpdateResult.toJson, Dict.get_cons]

section Verify

variable {env : Env} {rootBytes updateBytes checkpointBytes : Bytes} {expected : Option Str}
  {now : DateTime}

/-- The verifier reads all its inputs and comes to judge this update. -/
structure Judged (env : Env) (rootBytes updateBytes checkpointBytes : Bytes)
    (expected : Option Str) (root : Root) (checkpoint : Checkpoint) (signed : UpdateSigned)
    (signatures : List SignatureEntry) : Prop where
  rootAdmitted : admitRoot env.interp rootBytes expected = .ok (.ok root)
  checkpointLoaded : loadCheckpoint env.interp (some checkpointBytes) = .ok (some checkpoint)
  checkpointMatches : checkpointMatchesRoot checkpoint root rootBytes = true
  update : ∃ document, strictJson env.interp updateBytes = .ok document ∧
    validateRootUpdate document = some (signed, signatures)

theorem verifyRootUpdate_cases (env : Env) (rootBytes updateBytes checkpointBytes : Bytes)
    (expected : Option Str) (now : DateTime) :
    (∃ code, verifyRootUpdate env rootBytes updateBytes checkpointBytes expected now =
      .ok (.unknown [code])) ∨
    ∃ root checkpoint signed signatures,
      Judged env rootBytes updateBytes checkpointBytes expected root checkpoint signed signatures := by
  obtain ⟨admitted, hadmit⟩ := admitRoot_total env.interp rootBytes expected
  obtain ⟨found, hfound⟩ := loadCheckpoint_total env.interp (some checkpointBytes)
  cases admitted with
  | error code =>
    refine .inl ⟨code, ?_⟩
    simp only [verifyRootUpdate, hadmit, bind, Except.bind]
  | ok root =>
    cases found with
    | none =>
      refine .inl ⟨"CHECKPOINT_INVALID", ?_⟩
      simp only [verifyRootUpdate, hadmit, hfound, bind, Except.bind]
    | some checkpoint =>
      cases hmatches : checkpointMatchesRoot checkpoint root rootBytes with
      | false =>
        refine .inl ⟨"CHECKPOINT_ROOT_MISMATCH", ?_⟩
        simp only [verifyRootUpdate, hadmit, hfound, bind, Except.bind, hmatches, Bool.not_false,
          if_true]
      | true =>
        have hinvalid : ∀ loaded : Option Json, catching ((strictJson env.interp updateBytes).map some)
              isLoadError (.ok none) = .ok loaded → loaded.bind validateRootUpdate = none →
            verifyRootUpdate env rootBytes updateBytes checkpointBytes expected now =
              .ok (.unknown ["ROOT_UPDATE_INVALID"]) := by
          intro loaded hloaded hnone
          simp only [verifyRootUpdate, hadmit, hfound, bind, Except.bind, hmatches, Bool.not_true,
            Bool.false_eq_true, if_false, hloaded, hnone]
        cases hdecoded : strictJson env.interp updateBytes with
        | error e =>
          refine .inl ⟨_, hinvalid none ?_ rfl⟩
          rw [hdecoded]
          exact if_pos (strictJson_raises_load _ _ e hdecoded)
        | ok document =>
          cases hvalid : validateRootUpdate document with
          | none =>
            refine .inl ⟨_, hinvalid (some document) ?_ hvalid⟩
            rw [hdecoded]
            rfl
          | some p =>
            exact .inr ⟨root, checkpoint, p.1, p.2, hadmit, hfound, hmatches, document, hdecoded,
              hvalid⟩

theorem Judged.eq {root : Root} {checkpoint : Checkpoint} {signed : UpdateSigned}
    {signatures : List SignatureEntry}
    (h : Judged env rootBytes updateBytes checkpointBytes expected root checkpoint signed signatures) :
    verifyRootUpdate env rootBytes updateBytes checkpointBytes expected now =
      judgeRootUpdate env rootBytes root checkpoint now signed signatures := by
  obtain ⟨document, hdecoded, hvalid⟩ := h.update
  exact verifyRootUpdate_of_reads h.rootAdmitted h.checkpointLoaded h.checkpointMatches hdecoded hvalid

theorem Judged.strict {root : Root} {checkpoint : Checkpoint} {signed : UpdateSigned}
    {signatures : List SignatureEntry}
    (h : Judged env rootBytes updateBytes checkpointBytes expected root checkpoint signed signatures) :
    Strict (.obj signed.value) ∧ signed.newRoot = Dict.get signed.value "new_root" := by
  obtain ⟨document, hdecoded, hvalid⟩ := h.update
  obtain ⟨⟨fields, entries, rfl, -, hsigned, -⟩, hnewRoot⟩ := validateRootUpdate_eq_some hvalid
  exact ⟨(strictJson_strict hdecoded).get_obj hsigned, hnewRoot⟩

/-- With a representable time and a new root that can be validated, the judgement is an answer. -/
theorem Judged.answers {root : Root} {checkpoint : Checkpoint} {signed : UpdateSigned}
    {signatures : List SignatureEntry}
    (h : Judged env rootBytes updateBytes checkpointBytes expected root checkpoint signed signatures)
    {utc : DateTime} (hutc : now.assumeUtc.astimezoneUtc = .ok utc) {found : Option Root}
    (hnewRoot : validateRoot signed.newRoot = .ok found) :
    ∃ result, judgeRootUpdate env rootBytes root checkpoint now signed signatures = .ok result ∧
      FailsClosed rootUpdateVerificationSchema result.toJson := by
  obtain ⟨hstrict, hvalue⟩ := h.strict
  simp only [judgeRootUpdate, hutc, hnewRoot, verifySignatures, hstrict.canonicalSignedBytes, bind,
    Except.bind]
  split
  · rename_i newRoot _
    obtain ⟨fields, hfields, hreads⟩ := validateRoot_eq_ok hnewRoot
    have hrootStrict : Strict (.obj newRoot.value) := by
      rw [hreads.value]
      exact hstrict.get_obj (hvalue.symm.trans hfields)
    obtain ⟨raw, hraw, hencoded⟩ := hrootStrict.canonicalRootBytes
    rw [hraw]
    simp only [decodeUtf8_encodeUtf8 hencoded]
    exact ⟨_, rfl, failsClosed_verified _⟩
  · rename_i option _ _ hnot
    refine ⟨_, rfl, failsClosed_sorted fun hnil => ?_⟩
    cases option with
    | some loaded => exact hnot loaded hnil rfl
    | none => simp [newRootReasons] at hnil

end Verify

/-- The verifier answers, and answers closed, exactly when it does not come to judge an update at a
time without UTC representation or with a new root that has an unhashable role. -/
theorem verifyRootUpdate_answers_iff (env : Env) (rootBytes updateBytes checkpointBytes : Bytes)
    (expected : Option Str) (now : DateTime) :
    (∃ result, verifyRootUpdate env rootBytes updateBytes checkpointBytes expected now = .ok result ∧
      FailsClosed rootUpdateVerificationSchema result.toJson) ↔
    ∀ root checkpoint signed signatures,
      Judged env rootBytes updateBytes checkpointBytes expected root checkpoint signed signatures →
        (∃ utc, now.assumeUtc.astimezoneUtc = .ok utc) ∧ ¬UnhashableRoot signed.newRoot := by
  constructor
  · rintro ⟨result, hresult, -⟩ root checkpoint signed signatures hjudged
    rw [hjudged.eq] at hresult
    obtain ⟨utc, hutc, hresult⟩ := bind_eq_ok.mp hresult
    obtain ⟨newRoot, hnewRoot, -⟩ := bind_eq_ok.mp hresult
    refine ⟨⟨utc, hutc⟩, fun hunhashable => ?_⟩
    rw [validateRoot_eq_error.mpr ⟨rfl, hunhashable⟩] at hnewRoot
    cases hnewRoot
  · intro h
    rcases verifyRootUpdate_cases env rootBytes updateBytes checkpointBytes expected now with
      ⟨code, hcode⟩ | ⟨root, checkpoint, signed, signatures, hjudged⟩
    · exact ⟨_, hcode, failsClosed_one code⟩
    · obtain ⟨⟨utc, hutc⟩, hhashable⟩ := h _ _ _ _ hjudged
      rw [hjudged.eq]
      cases hnewRoot : validateRoot signed.newRoot with
      | error e => exact absurd (validateRoot_eq_error.mp hnewRoot).2 hhashable
      | ok newRoot => exact hjudged.answers hutc hnewRoot

/-- A new root whose first key has the list `[]` for its role. -/
def unhashableRoot : Json :=
  .obj ((sampleRoot 2 (u "Example") []).take 8 ++
    [(u "keys", .arr [.obj [(u "key_id", .str (sampleKeyId neutralKey)),
      (u "algorithm", .str (u algorithm)),
      (u "public_key", .str (u "AQ" ++ List.replicate 41 (ch 'A'))), (u "roles", .arr [.arr []]),
      (u "valid_from_publication_id", .int 1), (u "valid_through_publication_id", .null)],
      recoveryKey])])

/-- One object with a list for a role makes the verifier raise instead of answering. -/
theorem verifyRootUpdate_raises :
    verifyRootUpdate sampleEnv sampleRootBytes (jsonBytes (sampleUpdate unhashableRoot))
      (jsonBytes (.obj sampleCheckpoint.fields)) (some (sha256Hex sampleRootBytes)) sampleNow =
        .error .typeError := by
  obtain ⟨result, hresult⟩ := sampleRootUpdate_verified
  obtain ⟨fields, root, checkpoint, signed, signatures, newRoot, raw, hv⟩ :=
    verifyRootUpdate_verified hresult
  have hread := hv.sample_read
  have hvalid := validateRootUpdate_sample hread unhashableRoot
  have hshape : Strict (sampleUpdate unhashableRoot) ∧ (sampleUpdate unhashableRoot).depth ≤ 7 ∧
      (sampleUpdate unhashableRoot).walk.all (fun x => !x.isFloat) = true ∧
      (jsonBytes (sampleUpdate unhashableRoot)).length ≤ maxMetadataBytes := by decide +kernel
  obtain ⟨hstrict, hdepth, hfloats, hlen⟩ := hshape
  have hplain : (sampleUpdate unhashableRoot).Plain 7 := Json.plain_of_walk hdepth hfloats
  have hnewRoot : validateRoot unhashableRoot = .error .typeError := by
    have hraises : (validateRoot unhashableRoot).isOk = false := by decide +kernel
    cases hvalidated : validateRoot unhashableRoot with
    | error e => rw [(validateRoot_eq_error.mp hvalidated).1]
    | ok found =>
      rw [hvalidated] at hraises
      cases hraises
  obtain ⟨utc, hutc, -⟩ := hv.time
  rw [verifyRootUpdate_of_reads (admitRoot_of_loaded hv.pinnedRoot.loaded) hv.checkpointLoaded
    hv.checkpointMatches (strictJson_jsonBytes hstrict hplain (by decide) hlen) hvalid]
  simp only [judgeRootUpdate, hutc, hnewRoot, bind, Except.bind]

end McpTrust.SnapshotTrust
