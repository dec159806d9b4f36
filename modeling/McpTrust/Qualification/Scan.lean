import McpTrust.Qualification.Reading

/-! # What a scan of the directory holds

The records of a directory are its names that are not plain. The identities the
graph gathers over all cohorts are the identities of these records.
-/

namespace McpTrust.Qualification

set_option autoImplicit false

open Python Refresh

variable {interp : Interpreter} {dir : SetDir} {manifest : Dict}

/-! ## The records -/

/-- The directory holds a record of this kind, cohort and identity. -/
def Has (dir : SetDir) (label : Label) : Prop := isSha256 label.id = true ∧ labelName label ∈ dir.names

instance (dir : SetDir) (label : Label) : Decidable (Has dir label) :=
  inferInstanceAs (Decidable (_ ∧ _))

/-- The records of a directory, each of them valid, no two capacity receipts with one observation. -/
structure Scanned (interp : Interpreter) (dir : SetDir) (manifest : Dict) (records : List (Label × Dict)) :
    Prop where
  reads : List.Forall₂ (Reads interp dir manifest) (dir.names.filter fun n => !isPlainName n) records
  fresh : (observations records).Nodup

theorem forall₂_mem_right {α β : Type} {R : α → β → Prop} {as : List α} {bs : List β}
    (h : List.Forall₂ R as bs) {b : β} (hb : b ∈ bs) : ∃ a ∈ as, R a b := by
  induction h with
  | nil => cases hb
  | cons hhead _ ih =>
    cases hb with
    | head => exact ⟨_, List.mem_cons_self, hhead⟩
    | tail _ hb =>
      obtain ⟨a, ha, hR⟩ := ih hb
      exact ⟨a, List.mem_cons_of_mem _ ha, hR⟩

theorem forall₂_mem_left {α β : Type} {R : α → β → Prop} {as : List α} {bs : List β}
    (h : List.Forall₂ R as bs) {a : α} (ha : a ∈ as) : ∃ b ∈ bs, R a b :=
  forall₂_mem_right h.flip ha

section

variable {records : List (Label × Dict)} (hscan : Scanned interp dir manifest records)

include hscan

theorem Scanned.reads_of_mem {record : Label × Dict} (h : record ∈ records) :
    Reads interp dir manifest (labelName record.1) record := by
  obtain ⟨name, -, hreads⟩ := forall₂_mem_right hscan.reads h
  have hname := (labelOf_eq_some.mp hreads.label).1
  rw [← hname]
  exact hreads

theorem Scanned.has_of_mem {record : Label × Dict} (h : record ∈ records) : Has dir record.1 := by
  obtain ⟨name, hname, hreads⟩ := forall₂_mem_right hscan.reads h
  obtain ⟨rfl, hsha⟩ := labelOf_eq_some.mp hreads.label
  exact ⟨hsha, (List.mem_filter.mp hname).1⟩

theorem Scanned.mem_of_has {label : Label} (h : Has dir label) : ∃ payload, (label, payload) ∈ records := by
  have hname : labelName label ∈ dir.names.filter fun n => !isPlainName n := by
    apply List.mem_filter.mpr
    rw [labelName_not_plain]
    exact ⟨h.2, rfl⟩
  obtain ⟨⟨other, payload⟩, hmem, hreads⟩ := forall₂_mem_left hscan.reads hname
  have hlabel := hreads.label
  rw [labelOf_eq_some.mpr ⟨rfl, h.1⟩] at hlabel
  cases hlabel
  exact ⟨payload, hmem⟩

theorem Scanned.payload_unique {label : Label} {p q : Dict} (hp : (label, p) ∈ records)
    (hq : (label, q) ∈ records) : p = q := by
  have hboth := (hscan.reads_of_mem hp).bound
  rw [(hscan.reads_of_mem hq).bound] at hboth
  exact (Except.ok.inj hboth).symm

/-- Every name is plain or the name of a record. -/
theorem Scanned.has_of_name {name : Str} (hname : name ∈ dir.names) (hplain : isPlainName name = false) :
    ∃ label, Has dir label ∧ name = labelName label := by
  have hfilter : name ∈ dir.names.filter fun n => !isPlainName n := by
    apply List.mem_filter.mpr
    rw [hplain]
    exact ⟨hname, rfl⟩
  obtain ⟨record, hmem, hreads⟩ := forall₂_mem_left hscan.reads hfilter
  exact ⟨record.1, hscan.has_of_mem hmem, (labelOf_eq_some.mp hreads.label).1⟩

/-- Two capacity receipts with one observation are one receipt. -/
theorem Scanned.observation_injective {r s : Label × Dict} (hr : r ∈ records) (hs : s ∈ records)
    (hkr : r.1.kind = .capacity) (hks : s.1.kind = .capacity) (h : observation r.2 = observation s.2) :
    r = s := by
  apply List.inj_on_of_nodup_map hscan.fresh _ _ h
  · exact List.mem_filter.mpr ⟨hr, decide_eq_true hkr⟩
  · exact List.mem_filter.mpr ⟨hs, decide_eq_true hks⟩

end

/-! ## What is gathered -/

/-- The identities gathered of a kind of resolution. -/
def Found.ids (found : Found) : Kind → List Str
  | .complete => found.completions
  | .cleanup => found.cleanups
  | .ownership => found.ownerships
  | _ => []

def Kind.resolves : Kind → Bool
  | .complete | .cleanup | .ownership => true
  | _ => false

theorem add_ids {kind : Kind} (hkind : kind.resolves = true) (found : Found) (record : Label × Dict) (id : Str) :
    id ∈ (found.add record).ids kind ↔ id ∈ found.ids kind ∨ record.1.kind = kind ∧ record.1.id = id := by
  obtain ⟨⟨recordKind, cohort, recordId⟩, payload⟩ := record
  have hadded : id = recordId ∨ id ∈ found.ids kind ↔ id ∈ found.ids kind ∨ recordId = id := by
    rw [or_comm, eq_comm]
  cases kind
  case capacity => cases hkind
  case attempt => cases hkind
  all_goals
    simp only [Found.ids] at hadded ⊢
    cases recordKind <;> simp [Found.add, Found.resolve, hadded]

theorem foldl_add_ids {kind : Kind} (hkind : kind.resolves = true) (records : List (Label × Dict))
    (found : Found) (id : Str) :
    id ∈ (records.foldl Found.add found).ids kind ↔
      id ∈ found.ids kind ∨ ∃ r ∈ records, r.1.kind = kind ∧ r.1.id = id := by
  induction records generalizing found with
  | nil => simp
  | cons record records ih =>
    rw [List.foldl_cons, ih, add_ids hkind, List.exists_mem_cons_iff, or_assoc]

theorem add_attempts (found : Found) (record : Label × Dict) :
    (found.add record).attempts = found.attempts ++ [record].filter fun r => decide (r.1.kind = .attempt) := by
  unfold Found.add
  cases hkind : record.1.kind <;> simp [hkind, Found.resolve]

theorem foldl_add_attempts (records : List (Label × Dict)) (found : Found) :
    (records.foldl Found.add found).attempts =
      found.attempts ++ records.filter fun r => decide (r.1.kind = .attempt) := by
  induction records generalizing found with
  | nil => simp
  | cons record records ih =>
    rw [List.foldl_cons, ih, add_attempts, List.append_assoc, ← List.filter_append, List.singleton_append]

/-- All records of the directory gathered. -/
def gathered (records : List (Label × Dict)) : Found := records.foldl Found.add .empty

theorem mem_gathered_attempts {records : List (Label × Dict)} {a : Label × Dict} :
    a ∈ (gathered records).attempts ↔ a ∈ records ∧ a.1.kind = .attempt := by
  unfold gathered
  rw [foldl_add_attempts]
  simp [Found.empty]

theorem Scanned.mem_ids {records : List (Label × Dict)} (hscan : Scanned interp dir manifest records)
    (kind : Kind) (hkind : kind.resolves = true) {id : Str} :
    id ∈ (gathered records).ids kind ↔ ∃ cohort, Has dir ⟨kind, cohort, id⟩ := by
  unfold gathered
  rw [foldl_add_ids hkind]
  constructor
  · rintro (h | ⟨⟨label, payload⟩, hmem, rfl, rfl⟩)
    · cases kind <;> cases h
    · exact ⟨label.cohort, hscan.has_of_mem hmem⟩
  · rintro ⟨cohort, hhas⟩
    obtain ⟨payload, hmem⟩ := hscan.mem_of_has hhas
    exact .inr ⟨_, hmem, rfl, rfl⟩

theorem validatedSetAttempts_eq_ok {cohort : Cohort} {found : Found} :
    validatedSetAttempts interp dir manifest cohort = .ok found ↔
      setFileNames dir = .ok dir.names ∧
        ∃ records, Scanned interp dir manifest records ∧
          found = { gathered records with
            attempts := (gathered records).attempts.filter fun a => decide (a.1.cohort = cohort) } := by
  have hnames : ∀ {names : List Str}, setFileNames dir = .ok names ↔
      setFileNames dir = .ok dir.names ∧ names = dir.names := by
    intro names
    unfold setFileNames
    rw [ite_eq_ok, ite_eq_ok]
    simp
  unfold validatedSetAttempts
  simp only [bind_eq_ok, Except.ok.injEq, readArtifacts_eq_ok]
  constructor
  · rintro ⟨names, hset, _, ⟨records, hall, ⟨hfresh, -⟩, rfl⟩, rfl⟩
    obtain ⟨hset, rfl⟩ := hnames.mp hset
    exact ⟨hset, records, ⟨hall, hfresh⟩, rfl⟩
  · rintro ⟨hset, records, hscan, rfl⟩
    exact ⟨_, hset, _, ⟨records, hscan.reads, ⟨hscan.fresh, by simp [Found.empty]⟩, rfl⟩, rfl⟩

end McpTrust.Qualification
