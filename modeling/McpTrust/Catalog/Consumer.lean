import McpTrust.Transition
import McpTrust.Catalog.Checkpoint
import McpTrust.Catalog.Soundness

/-! # A consumer over whole runs

A consumer keeps its root, pin and checkpoint, and replaces them exactly when a
verifier answers `VERIFIED`. The checkpoint orders what it has accepted.
-/

namespace McpTrust.SnapshotTrust

set_option autoImplicit false

open Python
open RuntimeSnapshot (reason)
open Transition (Run)

structure Consumer where
  rootBytes : Bytes
  pinned : Option Str
  checkpoint : Option Checkpoint

/-- A call with the bytes it was given, and what it returned when it verified. -/
inductive Event
  | snapshot (snapshotBytes statementBytes : Bytes) (checkpointBytes : Option Bytes)
      (requireCurrentCheckpoint : Bool) (now : DateTime) (outcome : Option VerifiedSnapshot)
  | rootUpdate (updateBytes checkpointBytes : Bytes) (now : DateTime)
      (outcome : Option VerifiedRootUpdate)

/-- A text of its checkpoint, or anything at all as long as it has none. -/
def Consumer.Passes (c : Consumer) (raw : Option Bytes) : Prop :=
  ∀ k, c.checkpoint = some k → ∃ text, raw = some text ∧ CheckpointText k text

inductive Step (env : Env) : Consumer → Event → Consumer → Prop
  | snapshotVerified {c : Consumer} {snapshotBytes statementBytes : Bytes} {raw : Option Bytes}
      {required : Bool} {now : DateTime} {result : VerifiedSnapshot} (passes : c.Passes raw)
      (verified : verifySnapshot env snapshotBytes statementBytes c.rootBytes raw c.pinned required
        now = .ok (.verified result)) :
      Step env c (.snapshot snapshotBytes statementBytes raw required now (some result))
        { c with checkpoint := some result.nextCheckpoint }
  | snapshotRefused {c : Consumer} {snapshotBytes statementBytes : Bytes} {raw : Option Bytes}
      {required : Bool} {now : DateTime} (passes : c.Passes raw)
      (refused : ∀ result, verifySnapshot env snapshotBytes statementBytes c.rootBytes raw c.pinned
        required now ≠ .ok (.verified result)) :
      Step env c (.snapshot snapshotBytes statementBytes raw required now none) c
  | rootVerified {c : Consumer} {updateBytes raw rootBytes : Bytes} {now : DateTime}
      {result : VerifiedRootUpdate} (passes : c.Passes (some raw))
      (verified : verifyRootUpdate env c.rootBytes updateBytes raw c.pinned now =
        .ok (.verified result))
      (stored : encodeUtf8 result.newRootJson = .ok rootBytes) :
      Step env c (.rootUpdate updateBytes raw now (some result))
        ⟨rootBytes, some (sha256Hex rootBytes), some result.nextCheckpoint⟩
  | rootRefused {c : Consumer} {updateBytes raw : Bytes} {now : DateTime}
      (passes : c.Passes (some raw))
      (refused : ∀ result, verifyRootUpdate env c.rootBytes updateBytes raw c.pinned now ≠
        .ok (.verified result)) :
      Step env c (.rootUpdate updateBytes raw now none) c

/-- The publication an event accepts. -/
def Event.accepted : Event → Option Previous
  | .snapshot _ _ _ _ _ (some result) =>
    some ⟨result.publicationId, result.snapshotSha256, result.statementSha256⟩
  | _ => none

def Event.isSnapshot : Event → Bool
  | .snapshot .. => true
  | .rootUpdate .. => false

/-- The statement's `previous` is an object of exactly these three values. -/
def StatesPrevious (interp : Interpreter) (statementBytes : Bytes) (p : Previous) : Prop :=
  ∃ document signed previous, strictJson interp statementBytes = .ok (.obj document) ∧
    Dict.get document "signed" = .obj signed ∧ Dict.get signed "previous" = .obj previous ∧
    Dict.keysEq previous previousKeys = true ∧
    Dict.get previous "publication_id" = .int p.publicationId ∧
    Dict.get previous "snapshot_sha256" = .str p.snapshotSha256 ∧
    Dict.get previous "statement_sha256" = .str p.statementSha256

theorem validatePrevious_eq_some {v : Json} {p : Previous} (h : validatePrevious v = some (some p)) :
    ∃ previous, v = .obj previous ∧ Dict.keysEq previous previousKeys = true ∧
      Dict.get previous "publication_id" = .int p.publicationId ∧
      Dict.get previous "snapshot_sha256" = .str p.snapshotSha256 ∧
      Dict.get previous "statement_sha256" = .str p.statementSha256 := by
  cases v with
  | obj previous =>
    simp only [validatePrevious, Option.bind_eq_bind, Option.bind_eq_some_iff, guard_eq_some,
      Option.some.injEq] at h
    obtain ⟨-, hkeys, id, hid, snapshot, hsnapshot, statement, hstatement, rfl⟩ := h
    exact ⟨previous, rfl, hkeys, (isInt_eq_some.mp hid).1, (matching_eq_some.mp hsnapshot).1,
      (matching_eq_some.mp hstatement).1⟩
  | null => cases h
  | _ => cases h

/-! ## One step -/

variable {env : Env}

/-- What a verified snapshot does to a consumer that has a well-formed checkpoint. -/
structure SnapshotAdvance (interp : Interpreter) (statementBytes : Bytes) (k : Checkpoint)
    (result : VerifiedSnapshot) : Prop where
  rootVersion : result.nextCheckpoint.rootVersion = k.rootVersion
  rootSha256 : result.nextCheckpoint.rootSha256 = k.rootSha256
  least : k.publicationId ≤ result.publicationId
  same : result.publicationId = k.publicationId → result.nextCheckpoint.previous = k.previous
  chained : k.publicationId < result.publicationId →
    StatesPrevious interp statementBytes k.previous

theorem next_previous {snapshotBytes statementBytes rootBytes : Bytes} {raw : Option Bytes}
    {expected : Option Str} {required : Bool} {now : DateTime} {result : VerifiedSnapshot}
    (h : verifySnapshot env snapshotBytes statementBytes rootBytes raw expected required now =
      .ok (.verified result)) :
    result.nextCheckpoint.WellFormed ∧ result.nextCheckpoint.previous =
      ⟨result.publicationId, result.snapshotSha256, result.statementSha256⟩ := by
  obtain ⟨fields, root, checkpoint, signed, signatures, hv⟩ := verifySnapshot_verified h
  refine ⟨hv.wellFormed, ?_⟩
  rw [hv.nextCheckpoint, hv.publicationId]
  rfl

theorem snapshot_advance {snapshotBytes statementBytes rootBytes text : Bytes}
    {expected : Option Str} {required : Bool} {now : DateTime} {result : VerifiedSnapshot}
    {k : Checkpoint} (hk : k.WellFormed) (htext : CheckpointText k text)
    (h : verifySnapshot env snapshotBytes statementBytes rootBytes (some text) expected required
      now = .ok (.verified result)) : SnapshotAdvance env.interp statementBytes k result := by
  obtain ⟨fields, root, checkpoint, signed, signatures, hv⟩ := verifySnapshot_verified h
  have hloaded := htext.load hk env.interp
  rw [hv.checkpointLoaded] at hloaded
  have hcheckpoint : checkpoint = some k := by
    split_ifs at hloaded with hlen
    · exact Except.ok.inj hloaded
    · have hnone := Except.ok.inj hloaded
      have hsome := hv.checkpointPresent rfl
      rw [hnone] at hsome
      cases hsome
  subst hcheckpoint
  have hmatches := hv.checkpointMatches k rfl
  simp only [checkpointMatchesRoot, Bool.and_eq_true, decide_eq_true_eq] at hmatches
  obtain ⟨⟨-, hversion⟩, hdigest⟩ := hmatches
  have hchain := hv.chain
  simp only [chainReasons] at hchain
  have hnext := (next_previous h).2
  split at hchain
  · cases hchain
  · rename_i hleast
    split at hchain
    · rename_i hequal
      have hpair := reason_eq_nil.mp hchain
      simp only [decide_eq_false_iff_not, not_or, not_not] at hpair
      refine
        { rootVersion := ?_
          rootSha256 := ?_
          least := ?_
          same := ?_
          chained := ?_ }
      · rw [hv.nextCheckpoint, hversion]
      · rw [hv.nextCheckpoint, hdigest]
      · rw [hv.publicationId]
        omega
      · intro hid
        rw [hnext, hid, Checkpoint.previous, hpair.1, hpair.2]
      · intro hlt
        rw [hv.publicationId] at hlt
        omega
    · rename_i hdiffers
      have hprevious := reason_eq_nil.mp hchain
      simp only [decide_eq_false_iff_not, ne_eq, not_not] at hprevious
      refine
        { rootVersion := ?_
          rootSha256 := ?_
          least := ?_
          same := ?_
          chained := ?_ }
      · rw [hv.nextCheckpoint, hversion]
      · rw [hv.nextCheckpoint, hdigest]
      · rw [hv.publicationId]
        omega
      · intro hid
        rw [hv.publicationId] at hid
        exact absurd hid hdiffers
      · intro _
        obtain ⟨document, hdecoded, hvalid⟩ := hv.statement
        obtain ⟨⟨top, entries, rfl, -, hsigned, -⟩, -, -, hvalidated⟩ :=
          validateStatement_eq_some hvalid
        rw [hprevious] at hvalidated
        obtain ⟨previous, hobject, hrest⟩ := validatePrevious_eq_some hvalidated
        exact ⟨top, signed.value, previous, hdecoded, hsigned, hobject, hrest⟩

/-- What a verified root update does to a consumer that has a well-formed checkpoint. -/
theorem root_advance {rootBytes updateBytes text : Bytes} {expected : Option Str} {now : DateTime}
    {result : VerifiedRootUpdate} {k : Checkpoint} (hk : k.WellFormed) (htext : CheckpointText k text)
    (h : verifyRootUpdate env rootBytes updateBytes text expected now = .ok (.verified result)) :
    k.rootVersion ≤ result.nextCheckpoint.rootVersion ∧
      result.nextCheckpoint.previous = k.previous := by
  obtain ⟨fields, root, checkpoint, signed, signatures, newRoot, raw, hv⟩ :=
    verifyRootUpdate_verified h
  have hloaded := htext.load hk env.interp
  rw [hv.checkpointLoaded] at hloaded
  have hcheckpoint : checkpoint = k := by
    split_ifs at hloaded with hlen
    · exact Option.some.inj (Except.ok.inj hloaded)
    · cases hloaded
  subst hcheckpoint
  have hmatches := hv.checkpointMatches
  simp only [checkpointMatchesRoot, Bool.and_eq_true, decide_eq_true_eq] at hmatches
  rw [hv.nextCheckpoint]
  refine ⟨?_, rfl⟩
  rw [hv.newVersion, hmatches.1.2]
  exact (lt_add_one _).le

/-! ## The invariant -/

/-- The checkpoint is well formed, and every accepted publication is older than it or is the one it
names; no two of them share an id. -/
structure Ordered (events : List Event) (c : Consumer) : Prop where
  wellFormed : ∀ k, c.checkpoint = some k → k.WellFormed
  below : ∀ p ∈ events.filterMap Event.accepted, ∃ k, c.checkpoint = some k ∧
    p.publicationId ≤ k.publicationId ∧ (p.publicationId = k.publicationId → p = k.previous)
  unique : ∀ p ∈ events.filterMap Event.accepted, ∀ q ∈ events.filterMap Event.accepted,
    p.publicationId = q.publicationId → p = q

theorem Ordered.fresh (rootBytes : Bytes) (pinned : Option Str) :
    Ordered [] ⟨rootBytes, pinned, none⟩ where
  wellFormed k h := by cases h
  below p h := by cases h
  unique p h := by cases h

/-- An event that accepts nothing keeps the order when the new checkpoint names the same
publication. -/
theorem Ordered.idle {events : List Event} {c c' : Consumer} {e : Event} (h : Ordered events c)
    (he : e.accepted = none) (hwell : ∀ k, c'.checkpoint = some k → k.WellFormed)
    (hsame : ∀ k, c.checkpoint = some k → ∃ k', c'.checkpoint = some k' ∧ k'.previous = k.previous) :
    Ordered (events ++ [e]) c' := by
  have hevents : (events ++ [e]).filterMap Event.accepted = events.filterMap Event.accepted := by
    simp [he]
  refine ⟨hwell, fun p hp => ?_, ?_⟩
  · rw [hevents] at hp
    obtain ⟨k, hk, hle, heq⟩ := h.below p hp
    obtain ⟨k', hk', hprevious⟩ := hsame k hk
    have hid : k'.publicationId = k.publicationId := congrArg Previous.publicationId hprevious
    refine ⟨k', hk', by rwa [hid], fun hp' => ?_⟩
    rw [hprevious]
    exact heq (hp'.trans hid)
  · rw [hevents]
    exact h.unique

theorem Ordered.accept {events : List Event} {c c' : Consumer} {e : Event} {p : Previous}
    {k' : Checkpoint} (h : Ordered events c) (he : e.accepted = some p)
    (hwell : k'.WellFormed) (hnext : c'.checkpoint = some k') (hp : k'.previous = p)
    (hleast : ∀ k, c.checkpoint = some k → k.publicationId ≤ p.publicationId ∧
      (p.publicationId = k.publicationId → p = k.previous)) : Ordered (events ++ [e]) c' := by
  have hevents : (events ++ [e]).filterMap Event.accepted = events.filterMap Event.accepted ++ [p] := by
    simp [he]
  have hid : k'.publicationId = p.publicationId := congrArg Previous.publicationId hp
  -- an older publication with the id of the new one is the one the old checkpoint names
  have hold : ∀ q ∈ events.filterMap Event.accepted, q.publicationId ≤ p.publicationId ∧
      (q.publicationId = p.publicationId → q = p) := by
    intro q hq
    obtain ⟨k, hk, hle, heq⟩ := h.below q hq
    obtain ⟨hle', heq'⟩ := hleast k hk
    refine ⟨hle.trans hle', fun hqp => ?_⟩
    have hqk : q.publicationId = k.publicationId := le_antisymm hle (hqp ▸ hle')
    rw [heq hqk, heq' (hqp.symm.trans hqk)]
  refine ⟨fun k hk => ?_, fun q hq => ⟨k', hnext, ?_⟩, ?_⟩
  · rw [hnext] at hk
    cases hk
    exact hwell
  · rw [hevents, List.mem_append, List.mem_singleton] at hq
    rw [hid, hp]
    rcases hq with hq | rfl
    · exact hold q hq
    · exact ⟨le_rfl, fun _ => rfl⟩
  · rw [hevents]
    intro q hq r hr heq
    rw [List.mem_append, List.mem_singleton] at hq hr
    rcases hq with hq | rfl <;> rcases hr with hr | rfl
    · exact h.unique q hq r hr heq
    · exact (hold q hq).2 heq
    · exact ((hold r hr).2 heq.symm).symm
    · rfl

theorem Ordered.step {events : List Event} {c c' : Consumer} {e : Event} (h : Ordered events c)
    (hstep : Step env c e c') : Ordered (events ++ [e]) c' := by
  cases hstep with
  | snapshotVerified hpasses hverified =>
    obtain ⟨hwell, hprevious⟩ := next_previous hverified
    refine h.accept rfl hwell rfl hprevious fun k hk => ?_
    obtain ⟨text, rfl, htext⟩ := hpasses k hk
    have hadvance := snapshot_advance (h.wellFormed k hk) htext hverified
    refine ⟨hadvance.least, fun hid => ?_⟩
    rw [← hprevious]
    exact hadvance.same hid
  | snapshotRefused => exact h.idle rfl h.wellFormed fun k hk => ⟨k, hk, rfl⟩
  | rootVerified hpasses hverified =>
    obtain ⟨fields, root, checkpoint, signed, signatures, newRoot, raw, hv⟩ :=
      verifyRootUpdate_verified hverified
    refine h.idle rfl (fun k hk => ?_) fun k hk => ⟨_, rfl, ?_⟩
    · cases hk
      exact hv.wellFormed
    · obtain ⟨text, heq, htext⟩ := hpasses k hk
      cases heq
      exact (root_advance (h.wellFormed k hk) htext hverified).2
  | rootRefused => exact h.idle rfl h.wellFormed fun k hk => ⟨k, hk, rfl⟩

theorem Ordered.run {rootBytes : Bytes} {pinned : Option Str} {events : List Event} {c : Consumer}
    (hrun : Run (Step env) ⟨rootBytes, pinned, none⟩ events c) : Ordered events c :=
  hrun.invariant (Ordered.fresh rootBytes pinned) Ordered.step

/-- The checkpoint after a step, with what the step left alone. -/
structure Advances (e : Event) (k k' : Checkpoint) : Prop where
  rootVersion : k.rootVersion ≤ k'.rootVersion
  publicationId : k.publicationId ≤ k'.publicationId
  snapshotStep : e.isSnapshot = true → k'.rootVersion = k.rootVersion ∧ k'.rootSha256 = k.rootSha256
  rootStep : e.isSnapshot = false → k'.publicationId = k.publicationId ∧
    k'.snapshotSha256 = k.snapshotSha256 ∧ k'.statementSha256 = k.statementSha256

theorem Advances.refl (e : Event) (k : Checkpoint) : Advances e k k :=
  ⟨le_rfl, le_rfl, fun _ => ⟨rfl, rfl⟩, fun _ => ⟨rfl, rfl, rfl⟩⟩

theorem Step.advances {c c' : Consumer} {e : Event} {k : Checkpoint} (hstep : Step env c e c')
    (hk : c.checkpoint = some k) (hwell : k.WellFormed) :
    ∃ k', c'.checkpoint = some k' ∧ Advances e k k' := by
  cases hstep with
  | snapshotVerified hpasses hverified =>
    obtain ⟨text, rfl, htext⟩ := hpasses k hk
    have hadvance := snapshot_advance hwell htext hverified
    have hid := congrArg Previous.publicationId (next_previous hverified).2
    refine ⟨_, rfl, hadvance.rootVersion.ge, ?_, fun _ => ⟨hadvance.rootVersion, hadvance.rootSha256⟩,
      fun h => by cases h⟩
    exact hadvance.least.trans hid.ge
  | snapshotRefused => exact ⟨k, hk, .refl _ k⟩
  | rootVerified hpasses hverified =>
    obtain ⟨text, heq, htext⟩ := hpasses k hk
    cases heq
    obtain ⟨hversion, hprevious⟩ := root_advance hwell htext hverified
    have hid := congrArg Previous.publicationId hprevious
    exact ⟨_, rfl, hversion, hid.ge, fun h => (by cases h), fun _ =>
      ⟨hid, congrArg Previous.snapshotSha256 hprevious, congrArg Previous.statementSha256 hprevious⟩⟩
  | rootRefused => exact ⟨k, hk, .refl _ k⟩

theorem Run.advances {rootBytes : Bytes} {pinned : Option Str} {events later : List Event}
    {c c' : Consumer} {k : Checkpoint} (hrun : Run (Step env) ⟨rootBytes, pinned, none⟩ events c)
    (hk : c.checkpoint = some k) (hlater : Run (Step env) c later c') :
    ∃ k', c'.checkpoint = some k' ∧ k.rootVersion ≤ k'.rootVersion ∧
      k.publicationId ≤ k'.publicationId := by
  induction hlater with
  | nil => exact ⟨k, hk, le_rfl, le_rfl⟩
  | snoc hfront hlast ih =>
    obtain ⟨k₁, hk₁, hversion, hid⟩ := ih
    have hwell := (Ordered.run (hrun.append hfront)).wellFormed k₁ hk₁
    obtain ⟨k₂, hk₂, hadvances⟩ := hlast.advances hk₁ hwell
    exact ⟨k₂, hk₂, hversion.trans hadvances.rootVersion, hid.trans hadvances.publicationId⟩

/-- Along every run of a consumer that starts without a checkpoint the checkpoint only advances,
each publication id is accepted with one pair of digests, and each step beyond the checkpoint is
chained to it. -/
theorem consumer_run_safe {rootBytes : Bytes} {pinned : Option Str} {events : List Event}
    {c : Consumer} (hrun : Run (Step env) ⟨rootBytes, pinned, none⟩ events c) :
    (∀ k, c.checkpoint = some k → ∀ later c', Run (Step env) c later c' →
      ∃ k', c'.checkpoint = some k' ∧ k.rootVersion ≤ k'.rootVersion ∧
        k.publicationId ≤ k'.publicationId) ∧
    (∀ k, c.checkpoint = some k → ∀ e c', Step env c e c' →
      ∃ k', c'.checkpoint = some k' ∧ Advances e k k') ∧
    (∀ p ∈ events.filterMap Event.accepted, ∀ q ∈ events.filterMap Event.accepted,
      p.publicationId = q.publicationId → p = q) ∧
    (∀ k, c.checkpoint = some k → ∀ snapshotBytes statementBytes raw required now result c',
      Step env c (.snapshot snapshotBytes statementBytes raw required now (some result)) c' →
        k.publicationId < result.publicationId →
          StatesPrevious env.interp statementBytes k.previous) := by
  have hordered := Ordered.run hrun
  refine ⟨fun k hk later c' hlater => Run.advances hrun hk hlater,
    fun k hk e c' hstep => hstep.advances hk (hordered.wellFormed k hk), hordered.unique, ?_⟩
  intro k hk snapshotBytes statementBytes raw required now result c' hstep hlt
  cases hstep with
  | snapshotVerified hpasses hverified =>
    obtain ⟨text, rfl, htext⟩ := hpasses k hk
    exact (snapshot_advance (hordered.wellFormed k hk) htext hverified).chained hlt

/-- A consumer of the sample root that has accepted the sample snapshot. -/
theorem consumer_run_sample : ∃ (e : Event) (c : Consumer) (k : Checkpoint),
    Run (Step sampleEnv) ⟨sampleRootBytes, some (sha256Hex sampleRootBytes), none⟩ [e] c ∧
    c.checkpoint = some k ∧ ∀ later c', Run (Step sampleEnv) c later c' →
      ∃ k', c'.checkpoint = some k' ∧ k.rootVersion ≤ k'.rootVersion ∧
        k.publicationId ≤ k'.publicationId := by
  obtain ⟨result, hresult⟩ := sampleSnapshot_verified
  have hstep : Step sampleEnv ⟨sampleRootBytes, some (sha256Hex sampleRootBytes), none⟩ _ _ :=
    .snapshotVerified (fun k hk => by cases hk) hresult
  have hrun : Run (Step sampleEnv) _ [_] _ := Run.nil.snoc hstep
  exact ⟨_, _, _, hrun, rfl, (consumer_run_safe hrun).1 _ rfl⟩

end McpTrust.SnapshotTrust
