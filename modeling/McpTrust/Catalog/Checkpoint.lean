import McpTrust.Catalog.Verified

/-! # Checkpoint texts

A checkpoint a verifier returns is well formed, and every JSON text of it that
fits the metadata limit is loaded as that checkpoint.
-/

namespace McpTrust.SnapshotTrust

set_option autoImplicit false

open Python

/-- What the loader requires of the fields, and of integers the strict loader can read. -/
structure Checkpoint.WellFormed (c : Checkpoint) : Prop where
  publisherId : isPublisherId c.publisherId = true
  rootVersion : 1 ≤ c.rootVersion
  rootVersionShort : (intRepr c.rootVersion).length ≤ 64
  rootSha256 : isSha256 c.rootSha256 = true
  publicationId : 1 ≤ c.publicationId
  publicationIdShort : (intRepr c.publicationId).length ≤ 64
  snapshotSha256 : isSha256 c.snapshotSha256 = true
  statementSha256 : isSha256 c.statementSha256 = true

/-- `raw` is a JSON text of the checkpoint: its members in any order, in any style, with white space
after it. -/
structure CheckpointText (c : Checkpoint) (raw : Bytes) : Prop where
  text : ∃ st fields space, fields.Perm c.fields ∧ (∀ d ∈ space, isSpace d = true) ∧
    encodeUtf8 (dumps st (.obj fields) ++ space) = .ok raw

/-! ## Its strings are safe -/

theorem isUnsafeChar_of_printable {c : CodePoint} (hlow : 32 ≤ c.val) (hhigh : c.val < 127) :
    isUnsafeChar c = false := by
  rw [isUnsafeChar, isControl_of_printable hlow hhigh, isFormat_of_printable hhigh,
    not_surrogate_of_ascii (by omega)]
  rfl

theorem isHexLower_printable {c : CodePoint} (h : isHexLower c = true) :
    32 ≤ c.val ∧ c.val < 127 := by
  simp only [isHexLower, isDigit, Bool.or_eq_true, Bool.and_eq_true, decide_eq_true_eq] at h
  omega

theorem isAlnum_printable {c : CodePoint} (h : isAlnum c = true) : 32 ≤ c.val ∧ c.val < 127 := by
  simp only [isAlnum, isDigit, isLowerAlpha, isUpperAlpha, Bool.or_eq_true, Bool.and_eq_true,
    decide_eq_true_eq] at h
  omega

theorem isSha256_printable {s : Str} (h : isSha256 s = true) : ∀ c ∈ s, 32 ≤ c.val ∧ c.val < 127 :=
  fun c hc => isHexLower_printable (List.all_eq_true.mp (Bool.and_eq_true_iff.mp h).2 c hc)

theorem isPublisherId_printable {s : Str} (h : isPublisherId s = true) :
    ∀ c ∈ s, 32 ≤ c.val ∧ c.val < 127 := by
  have hpunct : ((u "._/-").all fun d => decide (32 ≤ d.val ∧ d.val < 127)) = true := by decide
  cases s with
  | nil => cases h
  | cons a rest =>
    simp only [isPublisherId, Bool.and_eq_true, List.all_eq_true, Bool.or_eq_true,
      decide_eq_true_eq] at h
    obtain ⟨⟨ha, -⟩, hrest⟩ := h
    intro c hc
    rcases List.mem_cons.mp hc with rfl | hc
    · exact isAlnum_printable ha
    · rcases hrest c hc with h | h
      · exact isAlnum_printable h
      · exact of_decide_eq_true (List.all_eq_true.mp hpunct c h)

theorem scalarIsSafe_of_printable {s : Str} (h : ∀ c ∈ s, 32 ≤ c.val ∧ c.val < 127)
    (hlen : s.length ≤ maxJsonStringChars) : scalarIsSafe (.str s) = true := by
  have hany : s.any isUnsafeChar = false := by
    rw [List.any_eq_false]
    intro c hc
    rw [isUnsafeChar_of_printable (h c hc).1 (h c hc).2]
    simp
  rw [scalarIsSafe, hany, decide_eq_true hlen]
  rfl

theorem scalarIsSafe_sha256 {s : Str} (h : isSha256 s = true) : scalarIsSafe (.str s) = true := by
  have hlen : s.length = 64 := of_decide_eq_true (Bool.and_eq_true_iff.mp h).1
  exact scalarIsSafe_of_printable (isSha256_printable h) (by rw [hlen]; decide)

theorem scalarIsSafe_publisherId {s : Str} (h : isPublisherId s = true) :
    scalarIsSafe (.str s) = true := by
  refine scalarIsSafe_of_printable (isPublisherId_printable h) ?_
  cases s with
  | nil => cases h
  | cons a rest =>
    simp only [isPublisherId, Bool.and_eq_true, decide_eq_true_eq] at h
    simp only [List.length_cons, maxJsonStringChars]
    omega

/-! ## Reading a text back -/

theorem Checkpoint.keys_fields (c : Checkpoint) : Dict.keys c.fields =
    [u "schema", u "publisher_id", u "root_version", u "root_sha256", u "publication_id",
      u "snapshot_sha256", u "statement_sha256"] := rfl

theorem Checkpoint.nodup_fields (c : Checkpoint) : (Dict.keys c.fields).Nodup := by
  rw [c.keys_fields]
  simp

theorem Checkpoint.keysEq_fields (c : Checkpoint) : Dict.keysEq c.fields checkpointKeys = true := by
  simp [Dict.keysEq, Dict.contains_eq_true, c.keys_fields, checkpointKeys]

theorem Checkpoint.leaves (c : Checkpoint) :
    ∀ kv ∈ c.fields, (∃ s, kv.2 = .str s) ∨ ∃ n, kv.2 = .int n := by
  intro kv hkv
  simp only [fields, List.mem_cons, List.not_mem_nil, or_false] at hkv
  rcases hkv with rfl | rfl | rfl | rfl | rfl | rfl | rfl
  · exact .inl ⟨_, rfl⟩
  · exact .inl ⟨_, rfl⟩
  · exact .inr ⟨_, rfl⟩
  · exact .inl ⟨_, rfl⟩
  · exact .inr ⟨_, rfl⟩
  · exact .inl ⟨_, rfl⟩
  · exact .inl ⟨_, rfl⟩

theorem Checkpoint.plain (c : Checkpoint) {fields : Dict} (hperm : fields.Perm c.fields) :
    (Json.obj fields).Plain 1 := by
  refine Json.plain_obj fun kv hkv => ?_
  rcases c.leaves kv (hperm.mem_iff.mp hkv) with ⟨s, hs⟩ | ⟨n, hn⟩
  · rw [hs]
    exact Json.plain_str 0 s
  · rw [hn]
    exact Json.plain_int 0 n

theorem Checkpoint.sortKeys_get (c : Checkpoint) (name : String) :
    (Dict.get c.fields name).sortKeys = Dict.get c.fields name := by
  by_cases hnull : Dict.get c.fields name = .null
  · rw [hnull]
    rfl
  · obtain ⟨kv, hkv, heq⟩ := Dict.get_mem_walk hnull
    rw [← heq]
    rcases c.leaves kv hkv with ⟨s, hs⟩ | ⟨n, hn⟩
    · rw [hs]
      rfl
    · rw [hn]
      rfl

theorem Checkpoint.WellFormed.strict {c : Checkpoint} (hc : c.WellFormed) : Strict (.obj c.fields) := by
  have hkeys : ∀ kv ∈ c.fields, scalarIsSafe (.str kv.1) = true := by
    have hall : ((Dict.keys c.fields).all fun key => scalarIsSafe (.str key)) = true := by
      rw [c.keys_fields]
      decide
    intro kv hkv
    exact List.all_eq_true.mp hall kv.1 (List.mem_map_of_mem hkv)
  have hschema : scalarIsSafe (.str (u checkpointSchema)) = true := by decide
  refine ⟨fun w hw => ?_, fun w hw => ?_, ?_⟩
  · rw [Json.walk, List.mem_cons, Json.mem_walkFields] at hw
    rcases hw with rfl | ⟨kv, hkv, rfl | hw⟩
    · exact c.nodup_fields
    · trivial
    · simp only [Checkpoint.fields, List.mem_cons, List.not_mem_nil, or_false] at hkv
      rcases hkv with rfl | rfl | rfl | rfl | rfl | rfl | rfl <;>
        simp only [Json.walk, List.mem_singleton] at hw <;> subst hw
      · trivial
      · trivial
      · exact hc.rootVersionShort
      · trivial
      · exact hc.publicationIdShort
      · trivial
      · trivial
  · rw [Json.walk, List.mem_cons, Json.mem_walkFields] at hw
    rcases hw with rfl | ⟨kv, hkv, rfl | hw⟩
    · rfl
    · exact hkeys kv hkv
    · simp only [Checkpoint.fields, List.mem_cons, List.not_mem_nil, or_false] at hkv
      rcases hkv with rfl | rfl | rfl | rfl | rfl | rfl | rfl <;>
        simp only [Json.walk, List.mem_singleton] at hw <;> subst hw
      · exact hschema
      · exact scalarIsSafe_publisherId hc.publisherId
      · rfl
      · exact scalarIsSafe_sha256 hc.rootSha256
      · rfl
      · exact scalarIsSafe_sha256 hc.snapshotSha256
      · exact scalarIsSafe_sha256 hc.statementSha256
  · rw [Json.walk, List.length_cons, Json.length_walkFields]
    simp [Checkpoint.fields, Json.walk, maxJsonNodes]

/-- The validator looks at a checkpoint by its key set and its members only. -/
theorem validateCheckpoint_of_fields {c : Checkpoint} (hc : c.WellFormed) {value : Dict}
    (hkeys : Dict.keysEq value checkpointKeys = true)
    (hget : ∀ name, Dict.get value name = Dict.get c.fields name) :
    validateCheckpoint (.obj value) = some c := by
  have hint : ∀ {n : ℤ}, 1 ≤ n → isInt 1 (.int n) = some n := fun h => isInt_eq_some.mpr ⟨rfl, h⟩
  have hstr : ∀ {pattern : Str → Bool} {s : Str}, pattern s = true →
      matching pattern (.str s) = some s := fun h => matching_eq_some.mpr ⟨rfl, h⟩
  have h1 : Dict.get c.fields "schema" = .str (u checkpointSchema) := by
    simp [Checkpoint.fields, Dict.get_cons]
  have h2 : Dict.get c.fields "publisher_id" = .str c.publisherId := by
    simp [Checkpoint.fields, Dict.get_cons]
  have h3 : Dict.get c.fields "root_version" = .int c.rootVersion := by
    simp [Checkpoint.fields, Dict.get_cons]
  have h4 : Dict.get c.fields "root_sha256" = .str c.rootSha256 := by
    simp [Checkpoint.fields, Dict.get_cons]
  have h5 : Dict.get c.fields "publication_id" = .int c.publicationId := by
    simp [Checkpoint.fields, Dict.get_cons]
  have h6 : Dict.get c.fields "snapshot_sha256" = .str c.snapshotSha256 := by
    simp [Checkpoint.fields, Dict.get_cons]
  have h7 : Dict.get c.fields "statement_sha256" = .str c.statementSha256 := by
    simp [Checkpoint.fields, Dict.get_cons]
  have hschema : (Json.str (u checkpointSchema)).isStr checkpointSchema = true :=
    Json.isStr_eq_true.mpr rfl
  simp only [validateCheckpoint, hkeys, hget, h1, h2, h3, h4, h5, h6, h7, hschema,
    hstr hc.publisherId, hint hc.rootVersion, hstr hc.rootSha256, hint hc.publicationId,
    hstr hc.snapshotSha256, hstr hc.statementSha256]
  rfl

theorem keysEq_perm {d e : Dict} (h : d.Perm e) (names : List String) :
    Dict.keysEq d names = Dict.keysEq e names := by
  have hmem : ∀ key, key ∈ Dict.keys d ↔ key ∈ Dict.keys e := fun key => (h.map Prod.fst).mem_iff
  rw [Bool.eq_iff_iff]
  simp only [Dict.keysEq, Bool.and_eq_true, List.all_eq_true, Dict.contains_eq_true, hmem]

theorem Strict.perm {d e : Dict} (h : d.Perm e) (hd : Strict (.obj d)) : Strict (.obj e) := by
  have hwalk : ∀ w, w ∈ (Json.obj e).walk → w = .obj e ∨ w ∈ (Json.obj d).walk := by
    intro w hw
    rw [Json.walk, List.mem_cons, Json.mem_walkFields] at hw
    rcases hw with rfl | ⟨kv, hkv, hw⟩
    · exact .inl rfl
    · refine .inr ?_
      rw [Json.walk, List.mem_cons, Json.mem_walkFields]
      exact .inr ⟨kv, h.mem_iff.mpr hkv, hw⟩
  refine ⟨fun w hw => ?_, fun w hw => ?_, ?_⟩
  · rcases hwalk w hw with rfl | hw
    · exact (h.map Prod.fst).nodup_iff.mp (hd.nodes _ (Json.mem_walk_self _))
    · exact hd.nodes w hw
  · rcases hwalk w hw with rfl | hw
    · rfl
    · exact hd.safe w hw
  · have hsize := hd.size
    rw [Json.walk, List.length_cons, Json.length_walkFields] at hsize ⊢
    rwa [← (h.map _).sum_eq]

/-- A text of a well-formed checkpoint is loaded as it, unless it is too long. -/
theorem CheckpointText.load {c : Checkpoint} {raw : Bytes} (htext : CheckpointText c raw)
    (hc : c.WellFormed) (interp : Interpreter) :
    loadCheckpoint interp (some raw) =
      if raw.length ≤ maxMetadataBytes then .ok (some c) else .ok none := by
  obtain ⟨st, fields, space, hperm, hspace, hraw⟩ := htext
  split_ifs with hlen
  · have hstrict : Strict (.obj fields) := hc.strict.perm hperm.symm
    have hnodup := (Json.uniqueKeys_obj.mp hstrict.unique).1
    have hdeep : 1 ≤ interp.recursionLimit := le_trans (by decide) interp.deep
    have hload := strictJson_dumps hstrict (c.plain hperm) hdeep hspace hraw hlen
    have hget : ∀ name, Dict.get fields name = Dict.get c.fields name := by
      intro name
      rw [Dict.get, Dict.get, Dict.lookup_perm hperm hnodup]
    have hkeys : Dict.keysEq fields checkpointKeys = true := by
      rw [keysEq_perm hperm, c.keysEq_fields]
    refine loadCheckpoint_eq_ok.mpr ⟨_, hload, ?_⟩
    rw [Style.arrange]
    split
    · rw [Json.sortKeys]
      refine validateCheckpoint_of_fields hc (by rwa [Json.keysEq_sortKeys]) fun name => ?_
      rw [Json.get_sortKeys hnodup, hget, c.sortKeys_get]
    · exact validateCheckpoint_of_fields hc hkeys hget
  · rw [loadCheckpoint, strictJson_too_long (not_le.mp hlen)]
    rfl

/-! ## The verifiers return well-formed checkpoints -/

theorem Strict.int_short {fields : Dict} (hv : Strict (.obj fields)) {name : String} {n : ℤ}
    (h : Dict.get fields name = .int n) : (intRepr n).length ≤ 64 := by
  have hmem : Dict.get fields name ∈ (Json.obj fields).walk := Json.get_mem_walk (by simp [h])
  rw [h] at hmem
  exact hv.nodes _ hmem

theorem Strict.get_obj {fields part : Dict} (hv : Strict (.obj fields)) {name : String}
    (h : Dict.get fields name = .obj part) : Strict (.obj part) := by
  have hmem : Dict.get fields name ∈ (Json.obj fields).walk := Json.get_mem_walk (by simp [h])
  rw [h] at hmem
  exact hv.part hmem

theorem validateCheckpoint_wellFormed {v : Json} {c : Checkpoint} (hv : Strict v)
    (h : validateCheckpoint v = some c) : c.WellFormed := by
  cases v with
  | obj fields =>
    simp only [validateCheckpoint, Option.bind_eq_bind, Option.bind_eq_some_iff, guard_eq_some,
      Option.some.injEq] at h
    obtain ⟨-, -, -, -, publisherId, hpublisher, version, hversion, rootSha, hroot, id, hid,
      snapshot, hsnapshot, statement, hstatement, rfl⟩ := h
    obtain ⟨hversionValue, hversionPositive⟩ := isInt_eq_some.mp hversion
    obtain ⟨hidValue, hidPositive⟩ := isInt_eq_some.mp hid
    exact
      { publisherId := (matching_eq_some.mp hpublisher).2
        rootVersion := hversionPositive
        rootVersionShort := hv.int_short hversionValue
        rootSha256 := (matching_eq_some.mp hroot).2
        publicationId := hidPositive
        publicationIdShort := hv.int_short hidValue
        snapshotSha256 := (matching_eq_some.mp hsnapshot).2
        statementSha256 := (matching_eq_some.mp hstatement).2 }
  | _ => cases h

theorem loadCheckpoint_wellFormed {interp : Interpreter} {raw : Bytes} {c : Checkpoint}
    (h : loadCheckpoint interp (some raw) = .ok (some c)) : c.WellFormed := by
  obtain ⟨v, hv, hc⟩ := loadCheckpoint_eq_ok.mp h
  exact validateCheckpoint_wellFormed (strictJson_strict hv) hc

theorem statementSha256_isSha256 {v : Json} {digest : Str} (h : statementSha256 v = .ok digest) :
    isSha256 digest = true := by
  rw [statementSha256] at h
  cases hbytes : canonicalSignedBytes v with
  | error e =>
    rw [hbytes] at h
    cases h
  | ok b =>
    rw [hbytes] at h
    cases h
    exact isSha256_sha256Hex b

section Returned

variable {env : Env} {rootFields : Dict} {root : Root} {expected : Option Str} {now : DateTime}
  {signatures : List SignatureEntry}

theorem SnapshotVerified.wellFormed {snapshotBytes statementBytes trustRootBytes : Bytes}
    {checkpointBytes : Option Bytes} {required : Bool} {checkpoint : Option Checkpoint}
    {signed : Signed} {result : VerifiedSnapshot}
    (h : SnapshotVerified env snapshotBytes statementBytes trustRootBytes checkpointBytes expected
      required now rootFields root checkpoint signed signatures result) :
    result.nextCheckpoint.WellFormed := by
  obtain ⟨document, hdecoded, hvalid⟩ := h.statement
  obtain ⟨⟨fields, entries, rfl, -, hsigned, -⟩, hid, hpositive, -⟩ := validateStatement_eq_some hvalid
  have hstrict := (strictJson_strict hdecoded).get_obj hsigned
  rw [h.nextCheckpoint]
  exact
    { publisherId := h.pinnedRoot.reads.publisherId
      rootVersion := h.pinnedRoot.reads.versionPositive
      rootVersionShort :=
        (strictJson_strict h.pinnedRoot.decoded).int_short h.pinnedRoot.reads.rootVersion
      rootSha256 := isSha256_sha256Hex _
      publicationId := hpositive
      publicationIdShort := hstrict.int_short hid
      snapshotSha256 := by
        rw [h.snapshotDigest]
        exact isSha256_sha256Hex _
      statementSha256 := statementSha256_isSha256 h.statementDigest }

theorem RootUpdateVerified.strictNewRoot {currentRootBytes updateBytes checkpointBytes : Bytes}
    {checkpoint : Checkpoint} {signed : UpdateSigned} {newRoot : Root} {newRootBytes : Bytes}
    {result : VerifiedRootUpdate}
    (h : RootUpdateVerified env currentRootBytes updateBytes checkpointBytes expected now rootFields
      root checkpoint signed signatures newRoot newRootBytes result) :
    Strict (.obj newRoot.value) ∧ ReadsRoot newRoot.value newRoot := by
  obtain ⟨document, hdecoded, hvalid⟩ := h.update
  obtain ⟨⟨fields, entries, rfl, -, hsigned, -⟩, hnewRoot⟩ := validateRootUpdate_eq_some hvalid
  obtain ⟨newFields, hvalue, hreads⟩ := validateRoot_eq_ok h.newRootValid
  have hstrict := (strictJson_strict hdecoded).get_obj hsigned
  rw [hreads.value]
  exact ⟨hstrict.get_obj (by rw [← hnewRoot, hvalue]), hreads⟩

theorem RootUpdateVerified.wellFormed {currentRootBytes updateBytes checkpointBytes : Bytes}
    {checkpoint : Checkpoint} {signed : UpdateSigned} {newRoot : Root} {newRootBytes : Bytes}
    {result : VerifiedRootUpdate}
    (h : RootUpdateVerified env currentRootBytes updateBytes checkpointBytes expected now rootFields
      root checkpoint signed signatures newRoot newRootBytes result) :
    result.nextCheckpoint.WellFormed := by
  obtain ⟨hstrict, hreads⟩ := h.strictNewRoot
  have hchecked := loadCheckpoint_wellFormed h.checkpointLoaded
  rw [h.nextCheckpoint]
  exact
    { hchecked with
      rootVersion := hreads.versionPositive
      rootVersionShort := hstrict.int_short hreads.rootVersion
      rootSha256 := isSha256_sha256Hex _ }

end Returned

end McpTrust.SnapshotTrust
