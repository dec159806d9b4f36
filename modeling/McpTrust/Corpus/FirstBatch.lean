import McpTrust.Corpus.Registry
import McpTrust.Catalog.DataModel

/-! # The first batch

The planner marks candidates by their stable id. The marked ones are the first eligible
ones exactly when no other candidate has the id of one of them.
-/

namespace McpTrust.Corpus

set_option autoImplicit false

open Python

/-- Marks the first `limit` of the positions that hold. -/
def marksFirst : Nat → List Bool → List Bool
  | _, [] => []
  | 0, _ :: rest => false :: marksFirst 0 rest
  | limit + 1, true :: rest => true :: marksFirst limit rest
  | limit + 1, false :: rest => false :: marksFirst (limit + 1) rest

theorem length_marksFirst (limit : Nat) (flags : List Bool) : (marksFirst limit flags).length = flags.length := by
  fun_induction marksFirst limit flags with
  | case1 => rfl
  | case2 flag rest ih => rw [List.length_cons, List.length_cons, ih]
  | case3 limit rest ih => rw [List.length_cons, List.length_cons, ih]
  | case4 limit rest ih => rw [List.length_cons, List.length_cons, ih]

theorem count_marksFirst (limit : Nat) (flags : List Bool) :
    (marksFirst limit flags).count true = min limit (flags.count true) := by
  fun_induction marksFirst limit flags with
  | case1 => simp
  | case2 flag rest ih => rw [List.count_cons_of_ne (by decide), ih, Nat.zero_min, Nat.zero_min]
  | case3 limit rest ih => rw [List.count_cons_self, List.count_cons_self, ih, Nat.succ_min_succ]
  | case4 limit rest ih => rw [List.count_cons_of_ne (by decide), List.count_cons_of_ne (by decide), ih]

/-- The candidates that the batch should hold, with their marks. -/
def marked (limit : Nat) (candidates : List Candidate) : List (Candidate × Bool) :=
  candidates.zip (marksFirst limit (candidates.map Candidate.eligibleForFirstLiveBatch))

/-- No candidate outside the first eligible ones has the stable id of one of them. -/
def DistinctIds (limit : Nat) (candidates : List Candidate) : Prop :=
  ∀ first ∈ marked limit candidates, first.2 = true →
    ∀ other ∈ marked limit candidates, other.1.stableId = first.1.stableId → other.2 = true

instance (limit : Nat) (candidates : List Candidate) : Decidable (DistinctIds limit candidates) :=
  inferInstanceAs (Decidable (∀ first ∈ marked limit candidates, first.2 = true →
    ∀ other ∈ marked limit candidates, other.1.stableId = first.1.stableId → other.2 = true))

/-- What a manifest promises of its first batch. -/
structure RespectsBatch (limit : Nat) (candidates : List Candidate) : Prop where
  eligible : ∀ c ∈ candidates, c.selectedForFirstBatch = true → c.eligibleForFirstLiveBatch = true
  count : candidates.countP Candidate.selectedForFirstBatch =
    min limit (candidates.countP Candidate.eligibleForFirstLiveBatch)
  first : candidates.map Candidate.selectedForFirstBatch =
    marksFirst limit (candidates.map Candidate.eligibleForFirstLiveBatch)

theorem countP_eq_count (p : Candidate → Bool) (candidates : List Candidate) :
    candidates.countP p = (candidates.map p).count true := by
  rw [List.count, List.countP_map]
  congr 1
  funext c
  simp

theorem map_fst_marked (limit : Nat) (candidates : List Candidate) :
    (marked limit candidates).map Prod.fst = candidates := by
  apply List.map_fst_zip
  rw [length_marksFirst, List.length_map]

theorem map_snd_marked (limit : Nat) (candidates : List Candidate) :
    (marked limit candidates).map Prod.snd = marksFirst limit (candidates.map Candidate.eligibleForFirstLiveBatch) := by
  apply List.map_snd_zip
  rw [length_marksFirst, List.length_map]

/-- The marked candidates are the eligible ones that the slice takes. -/
theorem filter_marked (limit : Nat) (candidates : List Candidate) :
    ((marked limit candidates).filter Prod.snd).map Prod.fst =
      (candidates.filter Candidate.eligibleForFirstLiveBatch).take limit := by
  unfold marked
  induction candidates generalizing limit with
  | nil => simp
  | cons c rest ih =>
    cases limit with
    | zero =>
      rw [List.map_cons, marksFirst, List.zip_cons_cons, List.filter_cons_of_neg (by simp), ih 0, List.take_zero,
        List.take_zero]
    | succ limit =>
      cases heligible : c.eligibleForFirstLiveBatch with
      | true =>
        rw [List.map_cons, heligible, marksFirst, List.zip_cons_cons, List.filter_cons_of_pos rfl,
          List.filter_cons_of_pos heligible, List.map_cons, List.take_succ_cons, ih limit]
      | false =>
        rw [List.map_cons, heligible, marksFirst, List.zip_cons_cons, List.filter_cons_of_neg (by simp),
          List.filter_cons_of_neg (by simp [heligible]), ih (limit + 1)]

theorem eligible_of_marked {limit : Nat} {candidates : List Candidate} {c : Candidate}
    (h : (c, true) ∈ marked limit candidates) : c.eligibleForFirstLiveBatch = true := by
  have hmem : c ∈ (candidates.filter Candidate.eligibleForFirstLiveBatch).take limit := by
    rw [← filter_marked]
    exact List.mem_map.mpr ⟨_, List.mem_filter.mpr ⟨h, rfl⟩, rfl⟩
  exact (List.mem_filter.mp (List.mem_of_mem_take hmem)).2

theorem mem_selectedIds {limit : Nat} {candidates : List Candidate} {id : Str} :
    id ∈ selectedIds limit candidates ↔ ∃ first ∈ marked limit candidates, first.2 = true ∧ first.1.stableId = id := by
  rw [selectedIds, ← filter_marked, List.map_map, List.mem_map]
  constructor
  · rintro ⟨first, hfirst, hid⟩
    obtain ⟨hmem, hmark⟩ := List.mem_filter.mp hfirst
    exact ⟨first, hmem, hmark, hid⟩
  · rintro ⟨first, hmem, hmark, hid⟩
    exact ⟨first, List.mem_filter.mpr ⟨hmem, hmark⟩, hid⟩

/-! ## The selection -/

theorem eligible_selectFirstBatch (limit : Nat) (candidates : List Candidate) :
    (selectFirstBatch limit candidates).map Candidate.eligibleForFirstLiveBatch =
      candidates.map Candidate.eligibleForFirstLiveBatch := by
  rw [selectFirstBatch, List.map_map]
  rfl

theorem selected_selectFirstBatch (limit : Nat) (candidates : List Candidate) :
    (selectFirstBatch limit candidates).map Candidate.selectedForFirstBatch =
      (marked limit candidates).map fun p => decide (p.1.stableId ∈ selectedIds limit candidates) := by
  have hfst := map_fst_marked limit candidates
  rw [selectFirstBatch, List.map_map]
  conv_lhs => rw [← hfst]
  rw [List.map_map]
  conv_rhs => rw [← hfst]
  rw [hfst]
  rfl

/-- The marks by id are the marks of the first eligible ones where the ids are distinct. -/
theorem selected_eq_marksFirst_iff (limit : Nat) (candidates : List Candidate) :
    (selectFirstBatch limit candidates).map Candidate.selectedForFirstBatch =
      marksFirst limit (candidates.map Candidate.eligibleForFirstLiveBatch) ↔ DistinctIds limit candidates := by
  rw [selected_selectFirstBatch, ← map_snd_marked, List.map_inj_left]
  constructor
  · intro h first hfirst hmark other hother hid
    rw [← h other hother, decide_eq_true_eq, mem_selectedIds]
    exact ⟨first, hfirst, hmark, hid.symm⟩
  · intro h p hp
    cases hmark : p.2 with
    | true =>
      rw [decide_eq_true_eq, mem_selectedIds]
      exact ⟨p, hp, hmark, rfl⟩
    | false =>
      rw [decide_eq_false_iff_not, mem_selectedIds]
      rintro ⟨first, hfirst, hfirstMark, hid⟩
      rw [h first hfirst hfirstMark p hp hid.symm] at hmark
      cases hmark

theorem respectsBatch_iff (limit : Nat) (candidates : List Candidate) :
    RespectsBatch limit (selectFirstBatch limit candidates) ↔ DistinctIds limit candidates := by
  constructor
  · intro h
    rw [← selected_eq_marksFirst_iff, h.first, eligible_selectFirstBatch]
  · intro h
    have hmarks := (selected_eq_marksFirst_iff limit candidates).mpr h
    refine ⟨?_, ?_, ?_⟩
    · intro c hc hselected
      obtain ⟨planned, hplanned, rfl⟩ := List.mem_map.mp hc
      rw [decide_eq_true_eq, mem_selectedIds] at hselected
      obtain ⟨first, hfirst, hmark, hid⟩ := hselected
      rw [← map_fst_marked limit candidates] at hplanned
      obtain ⟨p, hp, rfl⟩ := List.mem_map.mp hplanned
      have hp' := h first hfirst hmark p hp hid.symm
      have hmem : (p.1, true) ∈ marked limit candidates := by
        rw [← hp']
        exact hp
      have heligible : p.1.eligibleForFirstLiveBatch = true := eligible_of_marked hmem
      exact heligible
    · rw [countP_eq_count, countP_eq_count, hmarks, eligible_selectFirstBatch, count_marksFirst]
    · rw [hmarks, eligible_selectFirstBatch]

theorem build_eq_ok {lib : Library} {payload : Json} {generatedAt : DateTime} {limit : Nat}
    {manifest : CandidateManifest}
    (h : buildRegistryCandidateManifest lib payload generatedAt limit = .ok manifest) :
    ∃ planned, plannedCandidates lib payload generatedAt = .ok planned ∧
      manifest.candidates = selectFirstBatch limit planned := by
  unfold buildRegistryCandidateManifest at h
  obtain ⟨time, -, h⟩ := bind_eq_ok.mp h
  obtain ⟨servers, -, h⟩ := bind_eq_ok.mp h
  obtain ⟨planned, hplanned, h⟩ := bind_eq_ok.mp h
  obtain rfl := Except.ok.inj h
  exact ⟨planned, hplanned, rfl⟩

/-- The manifest keeps its promise exactly where no other planned candidate shares an id with the first batch. -/
theorem firstBatch_iff {lib : Library} {payload : Json} {generatedAt : DateTime} {limit : Nat}
    {manifest : CandidateManifest}
    (h : buildRegistryCandidateManifest lib payload generatedAt limit = .ok manifest) :
    RespectsBatch limit manifest.candidates ↔
      ∀ planned, plannedCandidates lib payload generatedAt = .ok planned → DistinctIds limit planned := by
  obtain ⟨planned, hplanned, hmanifest⟩ := build_eq_ok h
  rw [hmanifest, respectsBatch_iff]
  constructor
  · intro hids other hother
    rw [hplanned] at hother
    cases hother
    exact hids
  · intro hids
    exact hids planned hplanned

/-! ## Two entries with one id -/

/-- The library at the one address and the ASCII names below. -/
def asciiLibrary : Library where
  nfkc := id
  lower := lower
  urlsplit := fun _ => .ok { scheme := u "https", netloc := u "example.test", path := u "/demo" }
  urlunsplit := fun parts => parts.scheme ++ u "://" ++ parts.netloc ++ parts.path

def samplePackage (entries : List Json) : Json :=
  .obj
    [(u "registryType", .str (u "npm")), (u "identifier", .str (u "demo")), (u "version", .str (u "1.0.0")),
      (u "environmentVariables", .arr entries)]

def sampleServer (name : String) (entries : List Json) : Json :=
  .obj
    [(u "name", .str (u name)), (u "version", .str (u "1.0.0")), (u "status", .str (u "active")),
      (u "repository", .str (u "https://example.test/demo")), (u "packages", .arr [samplePackage entries])]

def secretVariable : Json := .obj [(u "name", .str (u "API_TOKEN")), (u "isSecret", .bool true)]

/-- An eligible server and one that needs a secret; both names become `io-example-demo`. -/
def collidingPayload : Json :=
  .obj [(u "servers", .arr [sampleServer "io.example/demo" [], sampleServer "io.example-demo" [secretVariable]])]

theorem planTime_inRange : 0 ≤ (63913708800000000 : ℤ) ∧ (63913708800000000 : ℤ) < maxMicros := by decide

def planTime : DateTime := ⟨63913708800000000, some 0, planTime_inRange⟩

theorem build_colliding :
    ((buildRegistryCandidateManifest asciiLibrary collidingPayload planTime 25).toOption.map fun manifest =>
      manifest.candidates.map fun c => (c.eligibleForFirstLiveBatch, c.selectedForFirstBatch)) =
        some [(true, true), (false, true)] := by decide +kernel

theorem colliding_manifest : ∃ manifest,
    buildRegistryCandidateManifest asciiLibrary collidingPayload planTime 25 = .ok manifest ∧
      manifest.candidates.map (fun c => (c.eligibleForFirstLiveBatch, c.selectedForFirstBatch)) =
        [(true, true), (false, true)] := by
  have hbuild := build_colliding
  cases hmanifest : buildRegistryCandidateManifest asciiLibrary collidingPayload planTime 25 with
  | error e =>
    rw [hmanifest] at hbuild
    cases hbuild
  | ok manifest =>
    rw [hmanifest] at hbuild
    exact ⟨manifest, rfl, Option.some.inj hbuild⟩

theorem firstBatch_iff_colliding : ∃ manifest,
    buildRegistryCandidateManifest asciiLibrary collidingPayload planTime 25 = .ok manifest ∧
      (RespectsBatch 25 manifest.candidates ↔
        ∀ planned, plannedCandidates asciiLibrary collidingPayload planTime = .ok planned → DistinctIds 25 planned) := by
  obtain ⟨manifest, hmanifest, -⟩ := colliding_manifest
  exact ⟨manifest, hmanifest, firstBatch_iff hmanifest⟩

/-- The entry that needs a secret is selected. -/
theorem firstBatch_colliding :
    ¬∀ (lib : Library) (payload : Json) (generatedAt : DateTime) (limit : Nat) (manifest : CandidateManifest),
      buildRegistryCandidateManifest lib payload generatedAt limit = .ok manifest →
        RespectsBatch limit manifest.candidates := by
  intro h
  obtain ⟨manifest, hmanifest, hpairs⟩ := colliding_manifest
  have hmem : (false, true) ∈
      manifest.candidates.map fun c => (c.eligibleForFirstLiveBatch, c.selectedForFirstBatch) := by
    rw [hpairs]
    decide
  obtain ⟨c, hc, hflags⟩ := List.mem_map.mp hmem
  obtain ⟨hineligible, hselected⟩ := Prod.mk.inj hflags
  have heligible := (h _ _ _ _ manifest hmanifest).eligible c hc hselected
  rw [hineligible] at heligible
  cases heligible

end McpTrust.Corpus
