import McpTrust.Catalog.TrustRoot

/-! # Threshold soundness

A verified document carries the signatures of distinct keys of the pinned root,
one for each entry, as many as the threshold of the role asks for.
-/

namespace McpTrust.SnapshotTrust

set_option autoImplicit false

open Python
open RuntimeSnapshot (reason)

theorem reason_eq_nil {b : Bool} {code : String} : reason b code = [] ↔ b = false := by
  cases b <;> simp [reason]

section Signatures

variable (env : Env) (root : Root) (role : Role) (publicationId : ℤ) (signedBytes : Bytes)

/-- The entry is a valid signature of an authorized key of the root. -/
structure Accepted (entry : SignatureEntry) (key : RootKey) : Prop where
  inRoot : key ∈ root.keys
  keyId : key.keyId = entry.keyId
  role : key.role = role
  validFrom : key.validFrom ≤ publicationId
  validThrough : ∀ last, key.validThrough = some last → publicationId ≤ last
  valid : env.ed25519Verify key.publicKey entry.signature signedBytes = true

variable {env root role publicationId signedBytes}

theorem keyIsAuthorized_eq_true {key : RootKey} (h : keyIsAuthorized key role publicationId = true) :
    key.role = role ∧ key.validFrom ≤ publicationId ∧
      ∀ last, key.validThrough = some last → publicationId ≤ last := by
  simp only [keyIsAuthorized, Bool.and_eq_true, decide_eq_true_eq] at h
  obtain ⟨⟨hrole, hfrom⟩, hthrough⟩ := h
  refine ⟨hrole, hfrom, fun last hlast => ?_⟩
  rw [hlast] at hthrough
  simpa using hthrough

theorem Root.key_eq_some {keyId : Str} {key : RootKey} (h : root.key keyId = some key) :
    key ∈ root.keys ∧ key.keyId = keyId :=
  ⟨List.mem_of_find?_eq_some h,
    of_decide_eq_true (List.find?_some (p := fun key : RootKey => decide (key.keyId = keyId)) h)⟩

/-- A pass that adds no reason counts its entry, which was not seen before. -/
theorem verifySignature_reasons {state : SignatureState} {entry : SignatureEntry}
    (h : (verifySignature env root role publicationId signedBytes state entry).reasons = []) :
    state.reasons = [] ∧ entry.keyId ∉ state.seen ∧
      (∃ key, Accepted env root role publicationId signedBytes entry key) ∧
      verifySignature env root role publicationId signedBytes state entry =
        ⟨entry.keyId :: state.seen, state.verified ++ [entry.keyId], []⟩ := by
  have hrefuse : ∀ (s : SignatureState) code, (s.refuse code).reasons ≠ [] := by
    intro s code
    simp [SignatureState.refuse]
  unfold verifySignature at h ⊢
  split at h
  · exact absurd h (hrefuse _ _)
  · rename_i hseen
    rw [if_neg hseen]
    dsimp only at h ⊢
    split at h
    · exact absurd h (hrefuse _ _)
    · rename_i key hkey
      split at h
      · exact absurd h (hrefuse _ _)
      · rename_i hauthorized
        split at h
        · exact absurd h (hrefuse _ _)
        · rename_i hvalid
          obtain ⟨hmem, hid⟩ := Root.key_eq_some hkey
          obtain ⟨hrole, hfrom, hthrough⟩ := keyIsAuthorized_eq_true (by simpa using hauthorized)
          refine ⟨h, hseen, ⟨key, hmem, hid, hrole, hfrom, hthrough, by simpa using hvalid⟩, ?_⟩
          rw [if_neg hauthorized, if_neg hvalid, show state.reasons = [] from h]

/-- The whole loop, started from any state: every entry is accepted and counted once. -/
theorem foldl_verifySignature {signatures : List SignatureEntry} {state : SignatureState}
    (h : (signatures.foldl (verifySignature env root role publicationId signedBytes) state).reasons =
      []) :
    (signatures.foldl (verifySignature env root role publicationId signedBytes) state).verified =
        state.verified ++ signatures.map SignatureEntry.keyId ∧
      (signatures.map SignatureEntry.keyId).Nodup ∧
      (∀ entry ∈ signatures, entry.keyId ∉ state.seen) ∧
      (∀ entry ∈ signatures, ∃ key, Accepted env root role publicationId signedBytes entry key) ∧
      state.reasons = [] := by
  induction signatures generalizing state with
  | nil => exact ⟨by simp, List.nodup_nil, by simp, by simp, h⟩
  | cons entry rest ih =>
    rw [List.foldl_cons] at h ⊢
    obtain ⟨hverified, hnodup, hfresh, haccepted, hreasons⟩ := ih h
    obtain ⟨hstate, hseen, hkey, hstep⟩ := verifySignature_reasons hreasons
    rw [hstep] at hverified hfresh
    refine ⟨?_, ?_, ?_, ?_, hstate⟩
    · rw [hstep, hverified]
      simp
    · rw [List.map_cons, List.nodup_cons]
      refine ⟨fun hmem => ?_, hnodup⟩
      obtain ⟨other, hother, heq⟩ := List.mem_map.mp hmem
      exact hfresh other hother (heq ▸ List.mem_cons_self)
    · intro other hother
      rcases List.mem_cons.mp hother with rfl | hother
      · exact hseen
      · exact fun hmem => hfresh other hother (List.mem_cons_of_mem _ hmem)
    · intro other hother
      rcases List.mem_cons.mp hother with rfl | hother
      · exact hkey
      · exact haccepted other hother

theorem countSignatures_reasons {signatures : List SignatureEntry}
    (h : (countSignatures env root role publicationId signedBytes signatures).2 = []) :
    (countSignatures env root role publicationId signedBytes signatures).1 =
        sortedStr (signatures.map SignatureEntry.keyId) ∧
      (signatures.map SignatureEntry.keyId).Nodup ∧ root.threshold role ≤ signatures.length ∧
      ∀ entry ∈ signatures, ∃ key, Accepted env root role publicationId signedBytes entry key := by
  simp only [countSignatures, List.append_eq_nil_iff] at h ⊢
  obtain ⟨hverified, hnodup, -, haccepted, -⟩ := foldl_verifySignature h.1
  refine ⟨by rw [hverified]; rfl, hnodup, ?_, haccepted⟩
  have hthreshold := h.2
  rw [hverified] at hthreshold
  simp only [List.nil_append, List.length_map] at hthreshold
  by_contra hlt
  rw [if_pos (by omega)] at hthreshold
  cases hthreshold

end Signatures

/-- The signatures of one document against the pinned root `fields`: every entry, and at least the
threshold of them, is by its own key of the role, valid for the publication, over the signed
bytes; `signers` are their identities in order. -/
structure ThresholdMet (env : Env) (fields : Dict) (role : Role) (publicationId : ℤ) (signed : Json)
    (signatures : List SignatureEntry) (signers : List Str) : Prop where
  threshold : ∃ n : ℤ, Dict.get fields (role.name ++ "_threshold") = .int n ∧ 1 ≤ n ∧
    n ≤ signatures.length
  distinct : (signatures.map SignatureEntry.keyId).Nodup
  signers : signers = sortedStr (signatures.map SignatureEntry.keyId)
  keys : ∃ values signedBytes, Dict.get fields "keys" = .arr values ∧
    canonicalSignedBytes signed = .ok signedBytes ∧
    ∀ entry ∈ signatures, ∃ keyFields key, .obj keyFields ∈ values ∧ ReadsKey keyFields key ∧
      key.keyId = entry.keyId ∧ key.role = role ∧ key.publicKey.length = 32 ∧
      key.validFrom ≤ publicationId ∧
      (∀ last, key.validThrough = some last → publicationId ≤ last) ∧
      env.ed25519Verify key.publicKey entry.signature signedBytes = true

theorem verifySignatures_sound {env : Env} {fields : Dict} {root : Root} {role : Role}
    {publicationId : ℤ} {signed : Json} {signatures : List SignatureEntry} {signers : List Str}
    (hroot : ReadsRoot fields root)
    (h : verifySignatures env root role publicationId signed signatures = .ok (signers, [])) :
    ThresholdMet env fields role publicationId signed signatures signers := by
  obtain ⟨signedBytes, hbytes, h⟩ := bind_eq_ok.mp h
  have hcount := Except.ok.inj h
  obtain ⟨hsigners, hdistinct, hthreshold, haccepted⟩ :=
    countSignatures_reasons (congrArg Prod.snd hcount)
  rw [hcount] at hsigners
  obtain ⟨values, hvalues, hread⟩ := hroot.keyList
  refine ⟨⟨root.threshold role, ?_, hroot.thresholdPositive role, hthreshold⟩, hdistinct, hsigners,
    values, signedBytes, hvalues, hbytes, fun entry hentry => ?_⟩
  · cases role
    · exact hroot.snapshotThreshold
    · exact hroot.recoveryThreshold
  · obtain ⟨key, hkey⟩ := haccepted entry hentry
    obtain ⟨keyFields, hmem, hreads⟩ := hread.exists_value hkey.inRoot
    exact ⟨keyFields, key, hmem, hreads, hkey.keyId, hkey.role,
      (decodeBase64url_eq_some hreads.publicKey).2, hkey.validFrom, hkey.validThrough, hkey.valid⟩

end McpTrust.SnapshotTrust
