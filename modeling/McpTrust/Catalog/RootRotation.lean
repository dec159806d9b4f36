import McpTrust.Python.JsonContext
import McpTrust.Catalog.Checkpoint
import McpTrust.Catalog.Soundness
import McpTrust.Catalog.Consumer

/-! # Using a rotated root

The verified root is written again in another layout. The loader reads that
artifact back exactly when it stays within the metadata limit.
-/

namespace McpTrust.SnapshotTrust

set_option autoImplicit false

open Python
open RuntimeSnapshot (reason)

/-! ## The reasons of a judged snapshot -/

/-- The codes `judgeSnapshot` can report. -/
def judgedCodes : List String :=
  ["PUBLISHER_ID_MISMATCH", "ROOT_VERSION_MISMATCH", "PUBLICATION_BELOW_ROOT_FLOOR",
    "SNAPSHOT_STRUCTURAL_INVALID", "SNAPSHOT_DIGEST_MISMATCH", "SNAPSHOT_NOT_YET_VALID",
    "SNAPSHOT_EXPIRED", "SNAPSHOT_LIFETIME_INVALID", "FIRST_USE_PUBLICATION_MISMATCH",
    "PUBLICATION_CHAIN_MISMATCH", "PUBLICATION_ROLLBACK", "PUBLICATION_ID_CONFLICT",
    "CHECKPOINT_REQUIRED", "CHECKPOINT_ADVANCE_REQUIRED", "SIGNATURE_DUPLICATE", "UNKNOWN_SIGNER",
    "SIGNER_NOT_AUTHORIZED", "SIGNATURE_INVALID", "SIGNATURE_THRESHOLD_NOT_MET"]

theorem mem_reason {b : Bool} {code name : String} (h : name ∈ reason b code) : name = code := by
  cases b
  · cases h
  · exact List.mem_singleton.mp h

theorem mem_timeReasons {root : Root} {now issuedAt expiresAt : DateTime}
    {notYet expired lifetimeInvalid name : String}
    (h : name ∈ timeReasons root now issuedAt expiresAt notYet expired lifetimeInvalid) :
    name = notYet ∨ name = expired ∨ name = lifetimeInvalid := by
  simp only [timeReasons, List.mem_append] at h
  rcases h with (h | h) | h
  · exact .inl (mem_reason h)
  · exact .inr (.inl (mem_reason h))
  · exact .inr (.inr (mem_reason h))

theorem mem_structureReasons {interp : Interpreter} {snapshotBytes : Bytes} {codes : List String}
    (h : structureReasons interp snapshotBytes = .ok codes) {name : String} (hname : name ∈ codes) :
    name = "SNAPSHOT_STRUCTURAL_INVALID" := by
  unfold structureReasons at h
  cases hparse : (do
      let text ← decodeUtf8 snapshotBytes
      let _ ← RuntimeSnapshot.parseCatalogSnapshot interp text
      (.ok [] : Except PyErr (List String))) with
  | ok a =>
    rw [hparse] at h
    cases h
    obtain ⟨text, -, hparse⟩ := bind_eq_ok.mp hparse
    obtain ⟨catalog, -, hparse⟩ := bind_eq_ok.mp hparse
    cases hparse
    cases hname
  | error e =>
    rw [hparse, catching_error] at h
    split at h
    · cases h
      exact List.mem_singleton.mp hname
    · cases h

theorem mem_chainReasons {root : Root} {checkpoint : Option Checkpoint} {signed : Signed}
    {snapshotSha256 statementSha256 : Str} {name : String}
    (h : name ∈ chainReasons root checkpoint signed snapshotSha256 statementSha256) :
    name ∈ judgedCodes := by
  unfold chainReasons at h
  split at h
  · rcases List.mem_append.mp h with h | h <;> rw [mem_reason h] <;> decide
  · split at h
    · rw [List.mem_singleton.mp h]
      decide
    · split at h <;> rw [mem_reason h] <;> decide

theorem mem_currentReasons {required : Bool} {checkpoint : Option Checkpoint} {signed : Signed}
    {name : String} (h : name ∈ currentReasons required checkpoint signed) : name ∈ judgedCodes := by
  unfold currentReasons at h
  split at h
  · split at h
    · rw [List.mem_singleton.mp h]
      decide
    · rw [mem_reason h]
      decide
  · cases h

theorem mem_countSignatures {env : Env} {root : Root} {publicationId : ℤ} {signedBytes : Bytes}
    {signatures : List SignatureEntry} {name : String}
    (h : name ∈ (countSignatures env root .snapshot publicationId signedBytes signatures).2) :
    name ∈ judgedCodes := by
  have hfold : ∀ (entries : List SignatureEntry) (state : SignatureState),
      (∀ code ∈ state.reasons, code ∈ judgedCodes) →
      ∀ code ∈ (entries.foldl (verifySignature env root .snapshot publicationId signedBytes)
        state).reasons, code ∈ judgedCodes := by
    intro entries
    induction entries with
    | nil => exact fun _ hstate => hstate
    | cons entry rest ih =>
      refine fun state hstate => ih _ fun code hcode => ?_
      have hrefuse : ∀ (s : SignatureState) reason, s.reasons = state.reasons →
          reason ∈ judgedCodes → code ∈ (s.refuse reason).reasons → code ∈ judgedCodes := by
        intro s reason hs hreason hcode
        rw [SignatureState.refuse, List.mem_append, hs] at hcode
        rcases hcode with hcode | hcode
        · exact hstate code hcode
        · rwa [List.mem_singleton.mp hcode]
      unfold verifySignature at hcode
      split at hcode
      · exact hrefuse _ _ rfl (by decide) hcode
      · dsimp only at hcode
        split at hcode
        · exact hrefuse _ _ rfl (by decide) hcode
        · split at hcode
          · exact hrefuse _ _ rfl (by decide) hcode
          · split at hcode
            · exact hrefuse _ _ rfl (by decide) hcode
            · exact hstate code hcode
  simp only [countSignatures, List.mem_append] at h
  rcases h with h | h
  · exact hfold signatures _ (by simp) name h
  · split at h
    · rw [List.mem_singleton.mp h]
      decide
    · cases h

theorem judgeSnapshot_codes {env : Env} {snapshotBytes trustRootBytes : Bytes} {root : Root}
    {checkpoint : Option Checkpoint} {required : Bool} {now : DateTime} {signed : Signed}
    {signatures : List SignatureEntry} {codes : List String}
    (h : judgeSnapshot env snapshotBytes trustRootBytes root checkpoint required now signed
      signatures = .ok (.unknown codes)) : ∀ code ∈ codes, code ∈ judgedCodes := by
  obtain ⟨utc, -, h⟩ := bind_eq_ok.mp h
  obtain ⟨digest, -, h⟩ := bind_eq_ok.mp h
  obtain ⟨structural, hstructural, h⟩ := bind_eq_ok.mp h
  obtain ⟨⟨signers, signatureReasons⟩, hsignatures, h⟩ := bind_eq_ok.mp h
  dsimp only at h
  split at h
  · cases h
    intro code hcode
    obtain ⟨signedBytes, -, hcount⟩ := bind_eq_ok.mp hsignatures
    have hreasons := congrArg Prod.snd (Except.ok.inj hcount)
    dsimp only at hreasons
    simp only [mem_sortedNames, List.mem_append] at hcode
    rcases hcode with (((((((((h | h) | h) | h) | h) | h) | h) | h) | h) | h)
    · rw [mem_reason h]
      decide
    · rw [mem_reason h]
      decide
    · rw [mem_reason h]
      decide
    · rw [mem_reason h]
      decide
    · rw [mem_reason h]
      decide
    · rw [mem_structureReasons hstructural h]
      decide
    · rcases mem_timeReasons h with rfl | rfl | rfl <;> decide
    · exact mem_chainReasons h
    · exact mem_currentReasons h
    · rw [← hreasons] at h
      exact mem_countSignatures h
  · cases h

/-! ## Loading the rotated root -/

/-- The `new_root` member of an update document. -/
def newRootOf (interp : Interpreter) (updateBytes : Bytes) : Json :=
  match strictJson interp updateBytes with
  | .ok (.obj document) =>
    match Dict.get document "signed" with
    | .obj signed => Dict.get signed "new_root"
    | _ => .null
  | _ => .null

/-- The artifact of the update's new root stays within the metadata limit. -/
def ArtifactFits (interp : Interpreter) (updateBytes : Bytes) : Prop :=
  ∃ raw, canonicalRootBytes (newRootOf interp updateBytes) = .ok raw ∧ raw.length ≤ maxMetadataBytes

/-- What a consumer relies on after a verified rotation: the loader reads the artifact back as the
returned root, the returned checkpoint belongs to it, and a following verification stops neither at
the root nor at the checkpoint. -/
structure RotationUsable (env : Env) (result : VerifiedRootUpdate) (rootBytes : Bytes) (root : Root) :
    Prop where
  encoded : encodeUtf8 result.newRootJson = .ok rootBytes
  loaded : loadRoot env.interp rootBytes = .ok (some root)
  sameRoot : Json.obj root.value = result.newRoot.sortKeys
  equalRoot : Json.pyEq (.obj root.value) result.newRoot = true
  checkpointMatches : checkpointMatchesRoot result.nextCheckpoint root rootBytes = true
  next : ∀ checkpointBytes, CheckpointText result.nextCheckpoint checkpointBytes →
    checkpointBytes.length ≤ maxMetadataBytes → ∀ snapshotBytes statementBytes required now codes,
      verifySnapshot env snapshotBytes statementBytes rootBytes (some checkpointBytes)
          (some (sha256Hex rootBytes)) required now = .ok (.unknown codes) →
        "TRUST_ROOT_INVALID" ∉ codes ∧ "CHECKPOINT_INVALID" ∉ codes ∧
          "CHECKPOINT_ROOT_MISMATCH" ∉ codes

theorem admitRoot_of_loaded {interp : Interpreter} {rootBytes : Bytes} {root : Root}
    (h : loadRoot interp rootBytes = .ok (some root)) :
    admitRoot interp rootBytes (some (sha256Hex rootBytes)) = .ok (.ok root) := by
  have hdigest : (!isSha256 (sha256Hex rootBytes) ||
      decide (sha256Hex rootBytes ≠ sha256Hex rootBytes)) = false := by
    simp [isSha256_sha256Hex]
  simp only [admitRoot, hdigest, h]
  rfl

/-- An admitted root and checkpoint leave only the statement and its judgement to fail. -/
theorem verifySnapshot_codes {env : Env} {snapshotBytes statementBytes rootBytes : Bytes}
    {checkpointBytes : Bytes} {root : Root} {checkpoint : Checkpoint} {required : Bool}
    {now : DateTime} {codes : List String} (hroot : loadRoot env.interp rootBytes = .ok (some root))
    (hcheckpoint : loadCheckpoint env.interp (some checkpointBytes) = .ok (some checkpoint))
    (hmatches : checkpointMatchesRoot checkpoint root rootBytes = true)
    (h : verifySnapshot env snapshotBytes statementBytes rootBytes (some checkpointBytes)
      (some (sha256Hex rootBytes)) required now = .ok (.unknown codes)) :
    ∀ code ∈ codes, code = "STATEMENT_INVALID" ∨ code ∈ judgedCodes := by
  simp only [verifySnapshot, admitRoot_of_loaded hroot, hcheckpoint] at h
  obtain ⟨admitted, hadmitted, h⟩ := bind_eq_ok.mp h
  cases hadmitted
  obtain ⟨loaded, hloaded, h⟩ := bind_eq_ok.mp h
  cases hloaded
  simp only [Option.isSome_some, Option.isNone_some, Bool.and_false, Bool.false_eq_true, if_false,
    Option.any_some, hmatches, Bool.not_true] at h
  obtain ⟨document, -, h⟩ := bind_eq_ok.mp h
  split at h
  · cases h
    intro code hcode
    exact .inl (List.mem_singleton.mp hcode)
  · exact fun code hcode => .inr (judgeSnapshot_codes h code hcode)

section Rotation

variable {env : Env} {currentRootBytes updateBytes checkpointBytes : Bytes} {expected : Option Str}
  {now : DateTime} {rootFields : Dict} {root : Root} {checkpoint : Checkpoint}
  {signed : UpdateSigned} {signatures : List SignatureEntry} {newRoot : Root}
  {newRootBytes : Bytes} {result : VerifiedRootUpdate}

theorem RootUpdateVerified.newRootOf_eq (h : RootUpdateVerified env currentRootBytes updateBytes
    checkpointBytes expected now rootFields root checkpoint signed signatures newRoot newRootBytes
    result) : newRootOf env.interp updateBytes = .obj newRoot.value := by
  obtain ⟨document, hdecoded, hvalid⟩ := h.update
  obtain ⟨⟨fields, entries, rfl, -, hsigned, -⟩, hnewRoot⟩ := validateRootUpdate_eq_some hvalid
  obtain ⟨newFields, hvalue, hreads⟩ := validateRoot_eq_ok h.newRootValid
  simp only [newRootOf, hdecoded, hsigned]
  rw [← hnewRoot, hvalue, hreads.value]

/-- The artifact is the UTF-8 of the returned text. -/
theorem RootUpdateVerified.artifact (h : RootUpdateVerified env currentRootBytes updateBytes
    checkpointBytes expected now rootFields root checkpoint signed signatures newRoot newRootBytes
    result) :
    result.newRootJson = dumps rootStyle (.obj newRoot.value) ++ [ch '\n'] ∧
      encodeUtf8 result.newRootJson = .ok newRootBytes := by
  obtain ⟨raw, hcanonical, hencoded⟩ := h.strictNewRoot.1.canonicalRootBytes
  rw [h.canonical] at hcanonical
  cases hcanonical
  have hdecoded := decodeUtf8_encodeUtf8 hencoded
  rw [h.decoded] at hdecoded
  have hjson := Except.ok.inj hdecoded
  exact ⟨hjson, hjson ▸ hencoded⟩

/-- Within the limit the artifact is loaded as the new root with its keys in order. -/
theorem RootUpdateVerified.loadRoot (h : RootUpdateVerified env currentRootBytes updateBytes
    checkpointBytes expected now rootFields root checkpoint signed signatures newRoot newRootBytes
    result) (hlen : newRootBytes.length ≤ maxMetadataBytes) :
    SnapshotTrust.loadRoot env.interp newRootBytes = .ok (some
      { newRoot with value := (Json.sortFields newRoot.value).insertionSort KeyLe }) := by
  obtain ⟨hstrict, hreads⟩ := h.strictNewRoot
  obtain ⟨hjson, hencoded⟩ := h.artifact
  rw [hjson] at hencoded
  have hdeep : 4 ≤ env.interp.recursionLimit := le_trans (by decide) env.interp.deep
  have hspace : ∀ c ∈ [ch '\n'], isSpace c = true := by
    intro c hc
    rw [List.mem_singleton.mp hc]
    decide
  have hload := strictJson_dumps hstrict (hreads.plain hstrict.unique) hdeep hspace hencoded hlen
  have hvalid : validateRoot (.obj newRoot.value) = .ok (some newRoot) := by
    obtain ⟨fields, hvalue, hfields⟩ := validateRoot_eq_ok h.newRootValid
    rw [hfields.value, ← hvalue]
    exact h.newRootValid
  refine loadRoot_eq_ok.mpr ⟨_, hload, ?_⟩
  change validateRoot (Json.obj newRoot.value).sortKeys = _
  rw [validateRoot_sortKeys hstrict.unique, hvalid]
  rfl

theorem RootUpdateVerified.usable (h : RootUpdateVerified env currentRootBytes updateBytes
    checkpointBytes expected now rootFields root checkpoint signed signatures newRoot newRootBytes
    result) (hlen : newRootBytes.length ≤ maxMetadataBytes) :
    RotationUsable env result newRootBytes
      { newRoot with value := (Json.sortFields newRoot.value).insertionSort KeyLe } := by
  obtain ⟨hstrict, hreads⟩ := h.strictNewRoot
  have hloaded := h.loadRoot hlen
  have hmatches : checkpointMatchesRoot result.nextCheckpoint
      { newRoot with value := (Json.sortFields newRoot.value).insertionSort KeyLe } newRootBytes =
        true := by
    have hcurrent := h.checkpointMatches
    simp only [checkpointMatchesRoot, Bool.and_eq_true, decide_eq_true_eq] at hcurrent ⊢
    rw [h.nextCheckpoint]
    exact ⟨⟨hcurrent.1.1.trans h.newPublisher.symm, rfl⟩, rfl⟩
  refine
    { encoded := h.artifact.2
      loaded := hloaded
      sameRoot := ?_
      equalRoot := ?_
      checkpointMatches := hmatches
      next := ?_ }
  · rw [h.returned]
    rfl
  · rw [h.returned]
    exact Json.pyEq_sortKeys hstrict.unique (hreads.plain hstrict.unique)
  · intro raw htext hraw snapshotBytes statementBytes required later codes hunknown
    have hcheckpoint := htext.load h.wellFormed env.interp
    rw [if_pos hraw] at hcheckpoint
    have hcodes := verifySnapshot_codes hloaded hcheckpoint hmatches hunknown
    refine ⟨fun hmem => ?_, fun hmem => ?_, fun hmem => ?_⟩
    · exact absurd (hcodes _ hmem) (by decide)
    · exact absurd (hcodes _ hmem) (by decide)
    · exact absurd (hcodes _ hmem) (by decide)

end Rotation

/-- A verified rotation is usable exactly when the artifact of its new root fits the loader. -/
theorem rotation_usable_iff {env : Env} {currentRootBytes updateBytes checkpointBytes : Bytes}
    {expected : Option Str} {now : DateTime} {result : VerifiedRootUpdate}
    (h : verifyRootUpdate env currentRootBytes updateBytes checkpointBytes expected now =
      .ok (.verified result)) :
    (∃ rootBytes root, RotationUsable env result rootBytes root) ↔
      ArtifactFits env.interp updateBytes := by
  obtain ⟨fields, root, checkpoint, signed, signatures, newRoot, newRootBytes, hverified⟩ :=
    verifyRootUpdate_verified h
  constructor
  · rintro ⟨rootBytes, loadedRoot, husable⟩
    obtain ⟨v, hload, -⟩ := loadRoot_eq_ok.mp husable.loaded
    have hbytes : rootBytes = newRootBytes := by
      have hencoded := husable.encoded
      rw [hverified.artifact.2] at hencoded
      exact (Except.ok.inj hencoded).symm
    refine ⟨newRootBytes, ?_, hbytes ▸ (strictJson_eq_ok.mp hload).1⟩
    rw [hverified.newRootOf_eq]
    exact hverified.canonical
  · rintro ⟨raw, hcanonical, hlen⟩
    rw [hverified.newRootOf_eq, hverified.canonical] at hcanonical
    cases hcanonical
    exact ⟨_, _, hverified.usable hlen⟩

theorem rotation_usable_sample : ∃ result,
    (∃ rootBytes root, RotationUsable sampleEnv result rootBytes root) ↔
      ArtifactFits sampleEnv.interp sampleUpdateBytes := by
  obtain ⟨result, hresult⟩ := sampleRootUpdate_verified
  exact ⟨result, rotation_usable_iff hresult⟩

/-! ## A root whose artifact does not fit -/

theorem walk_fill (p : Path) (s t : Str) {w : Json} (hw : w ∈ (p.fill (.str s)).walk) :
    w = .str s ∨ w ∈ (p.fill (.str t)).walk ∨
      ∃ d e, w = .obj d ∧ .obj e ∈ (p.fill (.str t)).walk ∧ Dict.keys d = Dict.keys e := by
  induction p with
  | nil =>
    simp only [Path.fill, Json.walk, List.mem_singleton] at hw
    exact .inl hw
  | cons f rest ih =>
    simp only [Path.fill, Json.walk, List.mem_cons, Json.mem_walkFields, Frame.fields,
      List.mem_append] at hw ⊢
    rcases hw with rfl | ⟨kv, hkv | rfl | hkv, hw⟩
    · exact .inr (.inr ⟨_, _, rfl, .inl rfl, by simp [Dict.keys]⟩)
    · exact .inr (.inl (.inr ⟨kv, .inl hkv, hw⟩))
    · rcases hw with rfl | hw
      · exact .inr (.inl (.inr ⟨(f.key, Path.fill rest (.str t)), .inr (.inl rfl), .inl rfl⟩))
      · rcases ih hw with h | h | ⟨d, e, hd, he, hkeys⟩
        · exact .inl h
        · exact .inr (.inl (.inr ⟨(f.key, Path.fill rest (.str t)), .inr (.inl rfl), .inr h⟩))
        · exact .inr (.inr ⟨d, e, hd,
            .inr ⟨(f.key, Path.fill rest (.str t)), .inr (.inl rfl), .inr he⟩, hkeys⟩)
    · exact .inr (.inl (.inr ⟨kv, .inr (.inr hkv), hw⟩))

theorem length_walk_fill (p : Path) (s t : Str) :
    (p.fill (.str s)).walk.length = (p.fill (.str t)).walk.length := by
  induction p with
  | nil => rfl
  | cons f rest ih =>
    simp only [Path.fill, Json.walk, List.length_cons, Json.length_walkFields, Frame.fields,
      List.map_append, List.map_cons, ih]

/-- A strict document stays strict when one safe string takes the place of another. -/
theorem Strict.fill {p : Path} {s t : Str} (h : Strict (p.fill (.str t)))
    (hs : scalarIsSafe (.str s) = true) : Strict (p.fill (.str s)) where
  nodes w hw := by
    rcases walk_fill p s t hw with rfl | hw | ⟨d, e, rfl, he, hkeys⟩
    · trivial
    · exact h.nodes w hw
    · change (Dict.keys d).Nodup
      rw [hkeys]
      exact h.nodes _ he
  safe w hw := by
    rcases walk_fill p s t hw with rfl | hw | ⟨d, e, rfl, -, -⟩
    · exact hs
    · exact h.safe w hw
    · rfl
  size := by
    rw [length_walk_fill p s t]
    exact h.size

theorem keysEq_congr {d e : Dict} (h : Dict.keys d = Dict.keys e) (names : List String) :
    Dict.keysEq d names = Dict.keysEq e names := by
  rw [Bool.eq_iff_iff]
  simp only [Dict.keysEq, Bool.and_eq_true, List.all_eq_true, Dict.contains_eq_true, h]

/-- A root is read in the same way under another display name. -/
theorem validateRoot_congr {d e : Dict} (hkeys : Dict.keys d = Dict.keys e)
    (hget : ∀ name, name ≠ "publisher" → Dict.get d name = Dict.get e name)
    (hpublisher : publisherIdOf (Dict.get d "publisher") = publisherIdOf (Dict.get e "publisher")) :
    validateRoot (.obj d) = (validateRoot (.obj e)).map fun root =>
      root.map fun root => { root with value := d } := by
  have hfields := rootFields_congr (d := d) (e := e) (g := id) (fun _ => rfl)
    (keysEq_congr hkeys rootKeys) (by rw [hget "schema" (by decide)])
    (fun name hname least => by rw [hget name hname]) hpublisher
    (fun values h => by rw [hget "keys" (by decide), h]; rfl)
    (fun h values => by rw [hget "keys" (by decide)]; exact h values)
  simp only [validateRoot, hfields]
  cases rootFields e with
  | none => rfl
  | some p =>
    simp only [Option.map_some, id_eq]
    cases validateRootKeys [] p.2 with
    | error e => rfl
    | ok keysOption =>
      cases keysOption with
      | none => rfl
      | some keys =>
        simp only [bind, Except.bind]
        split_ifs <;> rfl

def updatePath : Path :=
  [⟨[(u "schema", .str (u rootUpdateSchema))], u "signed",
      [(u "signatures", sampleSignatures signedNeutralKey)]⟩,
    ⟨(sampleUpdateSigned .null).take 5, u "new_root", []⟩,
    ⟨(paddedRoot []).take 2, u "publisher", (paddedRoot []).drop 3⟩,
    ⟨[(u "id", .str (u "example"))], u "name", []⟩]

theorem updatePath_fill (name : Str) :
    updatePath.fill (.str name) = sampleUpdate (.obj (paddedRoot name)) := rfl

theorem rootPath_fill (name : Str) :
    Path.fill (updatePath.drop 2) (.str name) = .obj (paddedRoot name) := rfl

theorem validateUpdateSigned_iff {v : Json} {signed : UpdateSigned} :
    validateUpdateSigned v = some signed ↔ ∃ fields, v = .obj fields ∧
      Dict.keysEq fields rootUpdateSignedKeys = true ∧
      matching isPublisherId (Dict.get fields "publisher_id") = some signed.publisherId ∧
      isInt 1 (Dict.get fields "previous_root_version") = some signed.previousRootVersion ∧
      matching isSha256 (Dict.get fields "previous_root_sha256") = some signed.previousRootSha256 ∧
      utcDatetime (Dict.get fields "issued_at") = some signed.issuedAt ∧
      utcDatetime (Dict.get fields "expires_at") = some signed.expiresAt ∧
      signed.value = fields ∧ signed.newRoot = Dict.get fields "new_root" := by
  cases v with
  | obj fields =>
    simp only [validateUpdateSigned, Option.bind_eq_bind, Option.bind_eq_some_iff, guard_eq_some,
      Option.some.injEq]
    constructor
    · rintro ⟨-, hkeys, a, ha, b, hb, c, hc, d, hd, e, he, rfl⟩
      exact ⟨fields, rfl, hkeys, ha, hb, hc, hd, he, rfl, rfl⟩
    · rintro ⟨_, heq, hkeys, ha, hb, hc, hd, he, hvalue, hroot⟩
      cases heq
      refine ⟨(), hkeys, _, ha, _, hb, _, hc, _, hd, _, he, ?_⟩
      rw [← hroot, ← hvalue]
  | _ =>
    constructor
    · intro h
      cases h
    · rintro ⟨_, h, -⟩
      cases h

/-- The validator does not look into the new root. -/
theorem validateRootUpdate_sample {newRoot : Json} {signed : UpdateSigned}
    {signatures : List SignatureEntry}
    (h : validateRootUpdate (sampleUpdate newRoot) = some (signed, signatures)) (other : Json) :
    validateRootUpdate (sampleUpdate other) =
      some ({ signed with value := sampleUpdateSigned other, newRoot := other }, signatures) := by
  simp only [sampleUpdate, validateRootUpdate, Option.bind_eq_bind, Option.bind_eq_some_iff,
    guard_eq_some, Option.some.injEq, Prod.mk.injEq] at h ⊢
  obtain ⟨-, hkeys, -, hschema, signed', hsigned, signatures', hsignatures, rfl, rfl⟩ := h
  have hget : ∀ name, name ≠ "new_root" →
      Dict.get (sampleUpdateSigned other) name = Dict.get (sampleUpdateSigned newRoot) name := by
    intro name hname
    simp [sampleUpdateSigned, Dict.get_cons, hname.symm]
  rw [show ∀ a b c : Json, Dict.get [(u "schema", a), (u "signed", b), (u "signatures", c)] "signed" =
    b from fun a b c => by simp [Dict.get_cons]] at hsigned
  obtain ⟨fields, heq, hset, ha, hb, hc, hd, he, hvalue, hroot⟩ := validateUpdateSigned_iff.mp hsigned
  cases heq
  refine ⟨(), hkeys, (), by simp [Dict.get_cons], _, ?_, signatures', ?_, rfl, rfl⟩
  · rw [show ∀ a b c : Json, Dict.get [(u "schema", a), (u "signed", b), (u "signatures", c)] "signed"
      = b from fun a b c => by simp [Dict.get_cons]]
    refine validateUpdateSigned_iff.mpr ⟨_, rfl, ?_, ?_, ?_, ?_, ?_, ?_, rfl, ?_⟩
    · exact hset
    · exact (congrArg (matching isPublisherId) (hget "publisher_id" (by decide))).trans ha
    · exact (congrArg (isInt 1) (hget "previous_root_version" (by decide))).trans hb
    · exact (congrArg (matching isSha256) (hget "previous_root_sha256" (by decide))).trans hc
    · exact (congrArg utcDatetime (hget "issued_at" (by decide))).trans hd
    · exact (congrArg utcDatetime (hget "expires_at" (by decide))).trans he
    · simp [sampleUpdateSigned, Dict.get_cons]
  · simpa [Dict.get_cons] using hsignatures

theorem verifySignatures_message {env : Env} {root : Root} {role : Role} {publicationId : ℤ}
    {signed other : Json} {signatures : List SignatureEntry} {signers : List Str} {raw : Bytes}
    (henv : ∀ publicKey signature message message',
      env.ed25519Verify publicKey signature message = env.ed25519Verify publicKey signature message')
    (hother : canonicalSignedBytes other = .ok raw)
    (h : verifySignatures env root role publicationId signed signatures = .ok (signers, [])) :
    verifySignatures env root role publicationId other signatures = .ok (signers, []) := by
  obtain ⟨signedBytes, -, hcount⟩ := bind_eq_ok.mp h
  have hstep : verifySignature env root role publicationId raw =
      verifySignature env root role publicationId signedBytes := by
    funext state entry
    unfold verifySignature
    simp only [fun key : RootKey => henv key.publicKey entry.signature raw signedBytes]
  refine bind_eq_ok.mpr ⟨raw, hother, ?_⟩
  rw [← hcount, countSignatures, countSignatures, hstep]

theorem judgeRootUpdate_of_checks {env : Env} {currentRootBytes : Bytes} {root : Root}
    {checkpoint : Checkpoint} {now utc : DateTime} {signed : UpdateSigned}
    {signatures : List SignatureEntry} {newRoot : Root} {signers : List Str} {raw : Bytes} {text : Str}
    (hutc : now.assumeUtc.astimezoneUtc = .ok utc)
    (hnewRoot : validateRoot signed.newRoot = .ok (some newRoot))
    (hsignatures : verifySignatures env root .recovery checkpoint.publicationId (.obj signed.value)
      signatures = .ok (signers, []))
    (htime : timeReasons root utc signed.issuedAt signed.expiresAt "ROOT_UPDATE_NOT_YET_VALID"
      "ROOT_UPDATE_EXPIRED" "ROOT_UPDATE_LIFETIME_INVALID" = [])
    (hpublisher : signed.publisherId = root.publisherId)
    (hversion : signed.previousRootVersion = root.rootVersion)
    (hdigest : signed.previousRootSha256 = sha256Hex currentRootBytes)
    (hfloor : rollbackReasons checkpoint signed.newRoot = [])
    (hnewPublisher : newRoot.publisherId = root.publisherId)
    (hnewVersion : newRoot.rootVersion = root.rootVersion + 1)
    (hcanonical : canonicalRootBytes (.obj newRoot.value) = .ok raw)
    (hdecoded : decodeUtf8 raw = .ok text) :
    ∃ result, judgeRootUpdate env currentRootBytes root checkpoint now signed signatures =
      .ok (.verified result) := by
  have hreasons : newRootReasons root (some newRoot) = [] := by
    simp [newRootReasons, hnewPublisher, hnewVersion, reason]
  simp only [judgeRootUpdate, hutc, hnewRoot, hsignatures, hcanonical, hdecoded, htime, hpublisher,
    hversion, hdigest, hfloor, hreasons, bind, Except.bind, ne_eq, not_true_eq_false, decide_false,
    reason, Bool.false_eq_true, if_false, List.append_nil]
  exact ⟨_, rfl⟩

/-- Once root, checkpoint and update are read, the answer is the judgement. -/
theorem verifyRootUpdate_of_reads {env : Env} {rootBytes updateBytes checkpointBytes : Bytes}
    {expected : Option Str} {now : DateTime} {root : Root} {checkpoint : Checkpoint} {document : Json}
    {signed : UpdateSigned} {signatures : List SignatureEntry}
    (hroot : admitRoot env.interp rootBytes expected = .ok (.ok root))
    (hcheckpoint : loadCheckpoint env.interp (some checkpointBytes) = .ok (some checkpoint))
    (hmatches : checkpointMatchesRoot checkpoint root rootBytes = true)
    (hdecoded : strictJson env.interp updateBytes = .ok document)
    (hvalid : validateRootUpdate document = some (signed, signatures)) :
    verifyRootUpdate env rootBytes updateBytes checkpointBytes expected now =
      judgeRootUpdate env rootBytes root checkpoint now signed signatures := by
  simp only [verifyRootUpdate, hroot, hcheckpoint, hdecoded, bind, Except.bind, hmatches,
    Bool.not_true, Bool.false_eq_true, if_false, Except.map, catching_ok, Option.bind_some, hvalid]

theorem paddedUpdate_strict {name : Str} (hname : scalarIsSafe (.str name) = true) :
    Strict (sampleUpdate (.obj (paddedRoot name))) := by
  have hstrict : Strict (updatePath.fill (.str [])) := by decide +kernel
  rw [← updatePath_fill]
  exact hstrict.fill hname

theorem depth_fill (p : Path) (s t : Str) : (p.fill (.str s)).depth = (p.fill (.str t)).depth := by
  induction p with
  | nil => rfl
  | cons f rest ih =>
    have hfields : ∀ before : Dict,
        Json.depthFields (before ++ (f.key, Path.fill rest (.str s)) :: f.after) =
          Json.depthFields (before ++ (f.key, Path.fill rest (.str t)) :: f.after) := by
      intro before
      induction before with
      | nil => simp only [List.nil_append, Json.depthFields, ih]
      | cons kv before hbefore => simp only [List.cons_append, Json.depthFields, hbefore]
    simp only [Path.fill, Json.depth, Frame.fields, hfields]

theorem plain_fill {p : Path} {n : Nat} {t : Str} (h : (p.fill (.str t)).Plain n) (s : Str) :
    (p.fill (.str s)).Plain n := by
  refine ⟨by rw [depth_fill p s t]; exact h.1, fun x hx => ?_⟩
  rcases walk_fill p s t hx with hx | hx | ⟨d, e, hx, -, -⟩
  · cases hx
  · exact h.2 x hx
  · cases hx

theorem sampleUpdate_plain (name : Str) : (sampleUpdate (.obj (paddedRoot name))).Plain 6 := by
  have hshape : (updatePath.fill (.str [])).depth ≤ 6 ∧
      (updatePath.fill (.str [])).walk.all (fun x => !x.isFloat) = true := by decide +kernel
  rw [← updatePath_fill]
  exact plain_fill (t := []) (Json.plain_of_walk hshape.1 hshape.2) name

theorem publisherIdOf_named {id name : Str} (hne : name ≠ []) :
    publisherIdOf (.obj [(u "id", .str id), (u "name", .str name)]) =
      matching isPublisherId (.str id) := by
  have hname : matching (fun s => !s.isEmpty) (.str name) = some name :=
    matching_eq_some.mpr ⟨rfl, by simp [hne]⟩
  have hkeys : Dict.keysEq [(u "id", Json.str id), (u "name", .str name)] ["id", "name"] = true := by
    simp [Dict.keysEq, Dict.keys, Dict.contains]
  simp only [publisherIdOf, hkeys, if_true, Dict.get_cons, String.reduceEq, if_false, hname]
  cases matching isPublisherId (.str id) <;> rfl

theorem strictJson_jsonBytes {interp : Interpreter} {v : Json} {n : Nat} (hv : Strict v)
    (hplain : v.Plain n) (hn : n ≤ interp.recursionLimit)
    (hlen : (jsonBytes v).length ≤ maxMetadataBytes) : strictJson interp (jsonBytes v) = .ok v := by
  have hencodes := hv.encodes compactStyle ascii_nil
  have hraw : encodeUtf8 (dumps compactStyle v ++ []) = .ok (jsonBytes v) := by
    rw [hencodes, List.append_nil]
    rfl
  exact strictJson_dumps hv hplain hn (fun c hc => by cases hc) hraw hlen

theorem RootUpdateVerified.sample_read {rootBytes checkpointBytes : Bytes} {expected : Option Str}
    {now : DateTime} {fields : Dict} {root : Root} {checkpoint : Checkpoint} {signed : UpdateSigned}
    {signatures : List SignatureEntry} {newRoot : Root} {raw : Bytes} {result : VerifiedRootUpdate}
    (hv : RootUpdateVerified sampleEnv rootBytes sampleUpdateBytes checkpointBytes expected now fields
      root checkpoint signed signatures newRoot raw result) :
    validateRootUpdate (sampleUpdate (.obj (paddedRoot (u "Example")))) = some (signed, signatures) := by
  obtain ⟨document, hdecoded, hvalid⟩ := hv.update
  have hlen := (strictJson_eq_ok.mp hdecoded).1
  rw [sampleUpdateBytes, strictJson_jsonBytes (paddedUpdate_strict (by decide))
    (sampleUpdate_plain _) (by decide) hlen] at hdecoded
  cases hdecoded
  exact hvalid

/-- The sample update verifies under every safe display name that keeps it within the limit. -/
theorem paddedUpdate_verified {name : Str} (hne : name ≠ [])
    (hname : scalarIsSafe (.str name) = true)
    (hlen : (jsonBytes (sampleUpdate (.obj (paddedRoot name)))).length ≤ maxMetadataBytes) :
    ∃ result, verifyRootUpdate sampleEnv sampleRootBytes
      (jsonBytes (sampleUpdate (.obj (paddedRoot name)))) (jsonBytes (.obj sampleCheckpoint.fields))
      (some (sha256Hex sampleRootBytes)) sampleNow = .ok (.verified result) := by
  obtain ⟨result, hresult⟩ := sampleRootUpdate_verified
  obtain ⟨fields, root, checkpoint, signed, signatures, newRoot, raw, hv⟩ :=
    verifyRootUpdate_verified hresult
  have hread := hv.sample_read
  have hvalid := validateRootUpdate_sample hread (.obj (paddedRoot name))
  have hsignedRoot : signed.newRoot = .obj (paddedRoot (u "Example")) := by
    obtain ⟨⟨top, entries, htop, -, hsigned, -⟩, hroot⟩ := validateRootUpdate_eq_some hread
    cases htop
    have hvalue : Json.obj (sampleUpdateSigned (.obj (paddedRoot (u "Example")))) =
        .obj signed.value := by
      rw [← hsigned]
      simp [Dict.get_cons]
    rw [hroot, ← Json.obj.inj hvalue]
    simp [sampleUpdateSigned, Dict.get_cons]
  have hnewRoot : validateRoot (.obj (paddedRoot name)) =
      .ok (some { newRoot with value := paddedRoot name }) := by
    have hold := hv.newRootValid
    rw [hsignedRoot] at hold
    have hpublisher : publisherIdOf (Dict.get (paddedRoot name) "publisher") =
        publisherIdOf (Dict.get (paddedRoot (u "Example")) "publisher") := by
      simp only [paddedRoot, sampleRoot, Dict.get_cons, String.reduceEq, if_false, if_true]
      rw [publisherIdOf_named hne, publisherIdOf_named (by decide)]
    have hget : ∀ key, key ≠ "publisher" →
        Dict.get (paddedRoot name) key = Dict.get (paddedRoot (u "Example")) key := by
      intro key hkey
      simp [paddedRoot, sampleRoot, Dict.get_cons, hkey.symm]
    have hcongr := validateRoot_congr (d := paddedRoot name) (e := paddedRoot (u "Example")) rfl hget
      hpublisher
    rw [hold] at hcongr
    exact hcongr
  have hstrict := paddedUpdate_strict hname
  have hsignedStrict : Strict (.obj (sampleUpdateSigned (.obj (paddedRoot name)))) :=
    hstrict.get_obj (show Dict.get _ "signed" = _ by simp [Dict.get_cons])
  have hrootStrict : Strict (.obj (paddedRoot name)) :=
    hsignedStrict.get_obj (show Dict.get _ "new_root" = _ by
      simp [sampleUpdateSigned, Dict.get_cons])
  obtain ⟨artifact, hartifact, hencoded⟩ := hrootStrict.canonicalRootBytes
  obtain ⟨utc, hutc, htime⟩ := hv.time
  rw [verifyRootUpdate_of_reads ?_ hv.checkpointLoaded hv.checkpointMatches
    (strictJson_jsonBytes hstrict (sampleUpdate_plain _) (by decide) hlen) hvalid]
  · refine judgeRootUpdate_of_checks hutc hnewRoot
      (verifySignatures_message (fun _ _ _ _ => rfl) hsignedStrict.canonicalSignedBytes hv.threshold)
      htime hv.publisher hv.previousVersion hv.previousDigest ?_ hv.newPublisher hv.newVersion
      hartifact (decodeUtf8_encodeUtf8 hencoded)
    have hfloor := hv.floor
    rw [hsignedRoot] at hfloor
    exact hfloor
  · exact admitRoot_of_loaded hv.pinnedRoot.loaded

/-- An astral letter: four bytes in UTF-8. -/
def wideChar : CodePoint := ⟨0x10000, by decide⟩

theorem length_wide (n : Nat) : ((List.replicate n wideChar).flatMap encodeCodePoint).length = 4 * n := by
  have hchar : (encodeCodePoint wideChar).length = 4 := by decide
  induction n with
  | zero => rfl
  | succ n ih =>
    rw [List.replicate_succ, List.flatMap_cons, List.length_append, hchar, ih]
    omega

theorem length_wide_fill (p : Path) {st : Style} (hst : escapeChar st wideChar = [wideChar]) (n : Nat) :
    (textBytes st (p.fill (.str (List.replicate n wideChar)))).length =
      (textBytes st (p.fill (.str []))).length + 4 * n := by
  rw [length_textBytes_fill st p, length_wide]
  intro c hc
  rw [List.eq_of_mem_replicate hc]
  exact hst

theorem wide_safe {n : Nat} (h : n ≤ maxJsonStringChars) :
    scalarIsSafe (.str (List.replicate n wideChar)) = true := by
  have hunsafe : isUnsafeChar wideChar = false := by decide
  rw [scalarIsSafe, List.length_replicate, decide_eq_true h, Bool.true_and, Bool.not_eq_true',
    List.any_eq_false]
  intro c hc
  rw [List.eq_of_mem_replicate hc, hunsafe]
  simp

/-- The update is shorter than the artifact by more than one character of the name. -/
theorem padded_sizes : (textBytes compactStyle (updatePath.fill (.str []))).length + 4 ≤
    (textBytes rootStyle (Path.fill (updatePath.drop 2) (.str []))).length ∧
      (textBytes rootStyle (Path.fill (updatePath.drop 2) (.str []))).length ≤ maxMetadataBytes := by
  decide +kernel

/-- A rotation that verifies, and leaves every consumer without a root it can load. -/
theorem rotation_not_usable : ∃ updateBytes result,
    verifyRootUpdate sampleEnv sampleRootBytes updateBytes (jsonBytes (.obj sampleCheckpoint.fields))
      (some (sha256Hex sampleRootBytes)) sampleNow = .ok (.verified result) ∧
    ¬∃ rootBytes root, RotationUsable sampleEnv result rootBytes root := by
  obtain ⟨hroot, hupdate⟩ := padded_sizes
  generalize hsize : (textBytes compactStyle (updatePath.fill (.str []))).length = size at hroot hupdate
  have hmax : maxMetadataBytes = 262144 := rfl
  obtain ⟨n, hn⟩ : ∃ n, n = (maxMetadataBytes - size) / 4 := ⟨_, rfl⟩
  have hupdateLength : (jsonBytes (sampleUpdate (.obj (paddedRoot
      (List.replicate n wideChar))))).length = size + 4 * n := by
    rw [← updatePath_fill, ← hsize]
    exact length_wide_fill updatePath (by decide) n
  have hrootLength : size + 4 + 4 * n ≤ (textBytes rootStyle (.obj (paddedRoot
      (List.replicate n wideChar)))).length := by
    rw [← rootPath_fill, length_wide_fill _ (by decide)]
    omega
  have hsafe := wide_safe (n := n) (by rw [maxJsonStringChars]; omega)
  have hne : List.replicate n wideChar ≠ [] := by
    rw [Ne, List.replicate_eq_nil_iff]
    omega
  have hfits : (jsonBytes (sampleUpdate (.obj (paddedRoot (List.replicate n wideChar))))).length ≤
      maxMetadataBytes := by omega
  obtain ⟨result, hresult⟩ := paddedUpdate_verified hne hsafe hfits
  refine ⟨_, result, hresult, ?_⟩
  rintro ⟨rootBytes, loaded, husable⟩
  obtain ⟨fields, root, checkpoint, signed, signatures, newRoot, newRootBytes, hv⟩ :=
    verifyRootUpdate_verified hresult
  obtain ⟨v, hload, -⟩ := loadRoot_eq_ok.mp husable.loaded
  have hlength := (strictJson_eq_ok.mp hload).1
  have hvalue : Json.obj newRoot.value = .obj (paddedRoot (List.replicate n wideChar)) := by
    rw [← hv.newRootOf_eq, newRootOf, strictJson_jsonBytes (paddedUpdate_strict hsafe)
      (sampleUpdate_plain _) (by decide) hfits]
    simp [sampleUpdate, sampleUpdateSigned, Dict.get_cons]
  have hencoded := husable.encoded
  have hstrict := hv.strictNewRoot.1
  rw [hvalue] at hstrict
  rw [hv.artifact.1, hvalue, hstrict.encodes rootStyle (Ascii.cons (by decide) ascii_nil)]
    at hencoded
  rw [← Except.ok.inj hencoded, List.flatMap_append, List.length_append] at hlength
  change (textBytes rootStyle _).length + _ ≤ _ at hlength
  omega

end McpTrust.SnapshotTrust
