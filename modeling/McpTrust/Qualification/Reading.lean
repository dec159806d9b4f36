import McpTrust.Qualification.Names

/-! # Reading a set directory

`readArtifacts` accepts a directory whose records are valid one by one and whose
capacity receipts do not share an observation.
-/

namespace McpTrust.Qualification

set_option autoImplicit false

open Python Refresh

variable {interp : Interpreter} {dir : SetDir} {manifest : Dict}

/-! ## One record -/

/-- What `_validated_set_attempts` asks of a record beside its own digest. -/
def Valid (interp : Interpreter) (dir : SetDir) (manifest : Dict) (label : Label) (payload : Dict) : Prop :=
  match label.kind with
  | .capacity =>
    removeDigestPrefix (strOf (Dict.get payload "receipt_digest")) = label.id ∧
      ∃ operation fields, operationOf (Dict.get payload "operation") = .ok operation ∧
        validateQualificationCapacityReceipt (.obj payload) operation dir.name label.cohort = .ok fields
  | .attempt =>
    ∃ capacity binding, readCapacity interp dir (Dict.get payload "capacity_receipt") = .ok capacity ∧
      cohortBinding manifest label.cohort = .ok binding ∧
        validAttempt manifest label payload binding capacity.2.2 capacity.2.1 = true
  | kind =>
    (Dict.keysEq payload (resolutionKeys kind) &&
      Json.pyEq (Dict.get payload "attempt_id") (.str label.id)) = true

structure Reads (interp : Interpreter) (dir : SetDir) (manifest : Dict) (name : Str)
    (record : Label × Dict) : Prop where
  label : labelOf name = some record.1
  bound : readBoundJson interp dir name record.1.kind.schema = .ok record.2
  cohort : (Dict.get record.2 "cohort").isStr record.1.cohort.text = true
  valid : Valid interp dir manifest record.1 record.2

/-- The observation a capacity receipt wraps. -/
def observation (payload : Dict) : Str := strOf (hostDigest payload)

def Found.add (found : Found) (record : Label × Dict) : Found :=
  match record.1.kind with
  | .capacity => { found with hostDigests := observation record.2 :: found.hostDigests }
  | .attempt => { found with attempts := found.attempts ++ [record] }
  | _ => found.resolve record.1

theorem ite_eq_ok {α : Type} {c : Prop} [Decidable c] {a b : α} {e : PyErr} :
    (if c then .ok a else .error e : Except PyErr α) = .ok b ↔ c ∧ b = a := by
  by_cases hc : c
  · rw [if_pos hc, Except.ok.injEq, eq_comm]
    exact ⟨fun h => ⟨hc, h⟩, And.right⟩
  · rw [if_neg hc]
    exact iff_of_false nofun fun h => hc h.1

theorem readCapacityArtifact_eq_ok (interp : Interpreter) (manifest : Dict) {found found' : Found}
    {record : Label × Dict} (hkind : record.1.kind = .capacity) :
    readCapacityArtifact dir found record.1 record.2 = .ok found' ↔
      Valid interp dir manifest record.1 record.2 ∧ observation record.2 ∉ found.hostDigests ∧
        found' = found.add record := by
  unfold readCapacityArtifact Valid Found.add
  rw [hkind]
  by_cases hname : removeDigestPrefix (strOf (Dict.get record.2 "receipt_digest")) = record.1.id
  · rw [if_neg (not_not.mpr hname)]
    constructor
    · intro h
      obtain ⟨operation, hoperation, h⟩ := bind_eq_ok.mp h
      obtain ⟨fields, hfields, h⟩ := bind_eq_ok.mp h
      have hvalid := catching_eq_ok.mp hfields
      by_cases hfresh : strOf (hostDigest record.2) ∈ found.hostDigests
      · simp only [if_pos hfresh] at h
        cases h
      · simp only [if_neg hfresh] at h
        cases h
        exact ⟨⟨hname, operation, fields, hoperation, hvalid⟩, hfresh, rfl⟩
    · rintro ⟨⟨-, operation, fields, hoperation, hvalid⟩, hfresh, rfl⟩
      apply bind_eq_ok.mpr
      refine ⟨operation, hoperation, bind_eq_ok.mpr ⟨fields, catching_eq_ok.mpr hvalid, ?_⟩⟩
      exact if_neg hfresh
  · rw [if_pos hname]
    exact iff_of_false nofun fun h => hname h.1.1

theorem readAttemptArtifact_eq_ok {found found' : Found} {record : Label × Dict}
    (hkind : record.1.kind = .attempt) :
    readAttemptArtifact interp dir manifest found record.1 record.2 = .ok found' ↔
      Valid interp dir manifest record.1 record.2 ∧ found' = found.add record := by
  unfold readAttemptArtifact Valid Found.add
  rw [hkind]
  constructor
  · intro h
    obtain ⟨capacity, hcapacity, h⟩ := bind_eq_ok.mp h
    obtain ⟨binding, hbinding, h⟩ := bind_eq_ok.mp h
    obtain ⟨hvalid, hfound⟩ := ite_eq_ok.mp h
    exact ⟨⟨capacity, binding, hcapacity, hbinding, hvalid⟩, hfound⟩
  · rintro ⟨⟨capacity, binding, hcapacity, hbinding, hvalid⟩, rfl⟩
    apply bind_eq_ok.mpr
    refine ⟨capacity, hcapacity, bind_eq_ok.mpr ⟨binding, hbinding, ?_⟩⟩
    exact if_pos hvalid

theorem readResolutionArtifact_eq_ok {found found' : Found} {record : Label × Dict}
    (hcapacity : record.1.kind ≠ .capacity) (hattempt : record.1.kind ≠ .attempt) :
    readResolutionArtifact found record.1 record.2 = .ok found' ↔
      Valid interp dir manifest record.1 record.2 ∧ found' = found.add record := by
  unfold readResolutionArtifact Valid Found.add
  cases hkind : record.1.kind
  case capacity => exact absurd hkind hcapacity
  case attempt => exact absurd hkind hattempt
  all_goals exact ite_eq_ok

theorem readRecord_eq_ok (record : Label × Dict) {found found' : Found} :
    readRecord interp dir manifest found record.1 record.2 = .ok found' ↔
      Valid interp dir manifest record.1 record.2 ∧
        (record.1.kind = .capacity → observation record.2 ∉ found.hostDigests) ∧
          found' = found.add record := by
  have hother : record.1.kind ≠ .capacity → ∀ {p : Prop},
      (p ∧ found' = found.add record ↔
        p ∧ (record.1.kind = .capacity → observation record.2 ∉ found.hostDigests) ∧
          found' = found.add record) := by
    intro hkind p
    exact and_congr_right fun _ => (and_iff_right fun h => absurd h hkind).symm
  unfold readRecord
  split
  next hkind =>
    rw [readCapacityArtifact_eq_ok interp manifest hkind]
    simp only [hkind, forall_const]
  next hkind =>
    rw [readAttemptArtifact_eq_ok hkind]
    exact hother (by rw [hkind]; decide)
  next hcapacity hattempt =>
    rw [readResolutionArtifact_eq_ok hcapacity hattempt]
    exact hother hcapacity

theorem readArtifact_eq_ok {found found' : Found} {name : Str} :
    readArtifact interp dir manifest found name = .ok found' ↔
      ∃ record, Reads interp dir manifest name record ∧
        (record.1.kind = .capacity → observation record.2 ∉ found.hostDigests) ∧
          found' = found.add record := by
  unfold readArtifact
  cases hlabel : labelOf name with
  | none =>
    refine iff_of_false nofun ?_
    rintro ⟨record, hreads, -⟩
    cases hlabel.symm.trans hreads.label
  | some label =>
    simp only [bind_eq_ok]
    constructor
    · rintro ⟨payload, hbound, h⟩
      by_cases hcohort : (Dict.get payload "cohort").isStr label.cohort.text = true
      · rw [if_pos hcohort] at h
        obtain ⟨hvalid, hfresh, hfound⟩ := (readRecord_eq_ok (label, payload)).mp h
        exact ⟨(label, payload), ⟨hlabel, hbound, hcohort, hvalid⟩, hfresh, hfound⟩
      · rw [if_neg hcohort] at h
        cases h
    · rintro ⟨⟨other, payload⟩, hreads, hfresh, hfound⟩
      cases hlabel.symm.trans hreads.label
      refine ⟨payload, hreads.bound, ?_⟩
      rw [if_pos hreads.cohort]
      exact (readRecord_eq_ok _).mpr ⟨hreads.valid, hfresh, hfound⟩

/-! ## All records -/

def observations (records : List (Label × Dict)) : List Str :=
  (records.filter fun r => decide (r.1.kind = .capacity)).map fun r => observation r.2

theorem add_hostDigests (found : Found) (record : Label × Dict) :
    (found.add record).hostDigests = observations [record] ++ found.hostDigests := by
  unfold Found.add observations
  cases hkind : record.1.kind <;> simp [hkind, Found.resolve]

theorem observations_cons (record : Label × Dict) (records : List (Label × Dict)) :
    observations (record :: records) = observations [record] ++ observations records := by
  simp only [observations, ← List.map_append, ← List.filter_append, List.singleton_append]

theorem mem_observations_singleton {record : Label × Dict} {d : Str} :
    d ∈ observations [record] ↔ record.1.kind = .capacity ∧ d = observation record.2 := by
  simp only [observations, List.mem_map, List.mem_filter, List.mem_singleton, decide_eq_true_eq]
  constructor
  · rintro ⟨_, ⟨rfl, hkind⟩, rfl⟩
    exact ⟨hkind, rfl⟩
  · rintro ⟨hkind, rfl⟩
    exact ⟨record, ⟨rfl, hkind⟩, rfl⟩

theorem nodup_observations_singleton (record : Label × Dict) : (observations [record]).Nodup := by
  simp only [observations, List.filter_cons, List.filter_nil]
  split
  · exact List.nodup_singleton _
  · exact List.nodup_nil

/-- Adding one record leaves the later ones fresh observations. -/
theorem fresh_cons {found : Found} {record : Label × Dict} {records : List (Label × Dict)} :
    ((observations (record :: records)).Nodup ∧
        ∀ d ∈ observations (record :: records), d ∉ found.hostDigests) ↔
      (record.1.kind = .capacity → observation record.2 ∉ found.hostDigests) ∧
        (observations records).Nodup ∧ ∀ d ∈ observations records, d ∉ (found.add record).hostDigests := by
  rw [observations_cons, List.nodup_append', add_hostDigests]
  constructor
  · rintro ⟨⟨-, hnodup, hdisjoint⟩, hfresh⟩
    refine ⟨fun hkind => ?_, hnodup, fun d hd h => ?_⟩
    · exact hfresh _ (List.mem_append_left _ (mem_observations_singleton.mpr ⟨hkind, rfl⟩))
    · rcases List.mem_append.mp h with h | h
      · exact hdisjoint h hd
      · exact hfresh d (List.mem_append_right _ hd) h
  · rintro ⟨hrecord, hnodup, hfresh⟩
    refine ⟨⟨nodup_observations_singleton record, hnodup, fun d hd h => ?_⟩, fun d hd => ?_⟩
    · exact hfresh d h (List.mem_append_left _ hd)
    · rcases List.mem_append.mp hd with hd | hd
      · obtain ⟨hkind, rfl⟩ := mem_observations_singleton.mp hd
        exact hrecord hkind
      · exact fun h => hfresh d hd (List.mem_append_right _ h)

theorem readArtifacts_eq_ok {names : List Str} {found found' : Found} :
    readArtifacts interp dir manifest names found = .ok found' ↔
      ∃ records, List.Forall₂ (Reads interp dir manifest) (names.filter fun n => !isPlainName n) records ∧
        ((observations records).Nodup ∧ ∀ d ∈ observations records, d ∉ found.hostDigests) ∧
          found' = records.foldl Found.add found := by
  induction names generalizing found with
  | nil =>
    rw [readArtifacts, List.filter_nil]
    constructor
    · intro h
      cases h
      exact ⟨[], .nil, ⟨List.nodup_nil, by simp [observations]⟩, rfl⟩
    · rintro ⟨records, hall, -, rfl⟩
      cases hall
      rfl
  | cons name names ih =>
    rw [readArtifacts]
    by_cases hplain : isPlainName name = true
    · rw [List.filter_cons_of_neg (by rw [hplain]; decide), ← ih, if_pos hplain]
      rfl
    · rw [List.filter_cons_of_pos (by rw [Bool.eq_false_iff.mpr hplain]; rfl)]
      simp only [if_neg hplain, bind_eq_ok, readArtifact_eq_ok, ih]
      constructor
      · rintro ⟨_, ⟨record, hreads, hfresh, rfl⟩, records, hall, hrest, rfl⟩
        exact ⟨record :: records, .cons hreads hall, fresh_cons.mpr ⟨hfresh, hrest⟩, rfl⟩
      · rintro ⟨_, hall, hrest, rfl⟩
        cases hall with
        | cons hreads hall =>
          obtain ⟨hfresh, hrest⟩ := fresh_cons.mp hrest
          exact ⟨_, ⟨_, hreads, hfresh, rfl⟩, _, hall, hrest, rfl⟩

end McpTrust.Qualification
