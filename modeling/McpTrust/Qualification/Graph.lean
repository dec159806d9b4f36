import McpTrust.Qualification.Scan

/-! # What an accepted graph holds

The checks of `validateSetGraph` as facts about the records of the directory.
-/

namespace McpTrust.Qualification

set_option autoImplicit false

open Python Refresh

variable {interp : Interpreter} {dir : SetDir} {manifest : Dict}

theorem demand_eq_ok {accepted : Bool} {message : String} {a : Unit} :
    demand accepted message = .ok a ↔ accepted = true := by
  unfold demand
  rw [ite_eq_ok]
  exact and_iff_left rfl

theorem subset_iff {values catalog : List Str} : subset values catalog = true ↔ ∀ s ∈ values, s ∈ catalog := by
  unfold subset
  simp only [List.all_eq_true, decide_eq_true_eq]

/-! ## Attempts of all cohorts -/

/-- The attempts with one identity are of one cohort. -/
def UniqueIds (attempts : List (Label × Dict)) : Prop :=
  ∀ a ∈ attempts, ∀ b ∈ attempts, a.1.id = b.1.id → a.1.cohort = b.1.cohort

theorem uniqueIds_append {known more : List (Label × Dict)} {cohort : Cohort} (hknown : UniqueIds known)
    (hmore : ∀ a ∈ more, a.1.cohort = cohort)
    (hnew : ∀ a ∈ more, a.1.id ∉ known.map fun k => k.1.id) : UniqueIds (known ++ more) := by
  have hdisjoint : ∀ a ∈ known, ∀ b ∈ more, a.1.id ≠ b.1.id :=
    fun a ha b hb h => hnew b hb (List.mem_map.mpr ⟨a, ha, h⟩)
  intro a ha b hb hid
  obtain ha | ha := List.mem_append.mp ha
  · obtain hb | hb := List.mem_append.mp hb
    · exact hknown a ha b hb hid
    · exact absurd hid (hdisjoint a ha b hb)
  · obtain hb | hb := List.mem_append.mp hb
    · exact absurd hid.symm (hdisjoint b hb a ha)
    · rw [hmore a ha, hmore b hb]

theorem scanned_unique {records records' : List (Label × Dict)} (h : Scanned interp dir manifest records)
    (h' : Scanned interp dir manifest records') : records = records' := by
  have hreads : ∀ {name : Str} {r s : Label × Dict}, Reads interp dir manifest name r →
      Reads interp dir manifest name s → r = s := by
    rintro name ⟨label, payload⟩ ⟨other, payload'⟩ hr hs
    have hlabel := hr.label
    rw [hs.label] at hlabel
    cases hlabel
    have hbound := hr.bound
    rw [hs.bound] at hbound
    cases hbound
    rfl
  have hall := h.reads
  have hall' := h'.reads
  clear h h'
  generalize dir.names.filter (fun n => !isPlainName n) = names at hall hall'
  induction hall generalizing records' with
  | nil =>
    cases hall'
    rfl
  | cons hhead _ ih =>
    cases hall' with
    | cons hhead' hrest' => rw [hreads hhead hhead', ih hrest']

/-- What the loop over the cohorts gathers. -/
structure Gathers (records : List (Label × Dict)) (cohorts : List Cohort) (known found : Found) : Prop where
  unique : UniqueIds known.attempts → UniqueIds found.attempts
  attempts : ∀ a, a ∈ found.attempts ↔
    a ∈ known.attempts ∨ a ∈ (gathered records).attempts ∧ a.1.cohort ∈ cohorts
  resolutions : cohorts ≠ [] → ∀ kind, found.ids kind = (gathered records).ids kind

theorem Gathers.nil (records : List (Label × Dict)) (known : Found) : Gathers records [] known known where
  unique := id
  attempts a := by simp
  resolutions h := absurd rfl h

theorem attemptsById_eq_ok {cohorts : List Cohort} {known found : Found} (hcohorts : cohorts ≠ [])
    (h : attemptsById interp dir manifest cohorts known = .ok found) :
    ∃ records, Scanned interp dir manifest records ∧ Gathers records cohorts known found := by
  induction cohorts generalizing known with
  | nil => exact absurd rfl hcohorts
  | cons cohort rest ih =>
    rw [attemptsById] at h
    obtain ⟨scan, hscan, h⟩ := bind_eq_ok.mp h
    obtain ⟨-, records, hrecords, rfl⟩ := validatedSetAttempts_eq_ok.mp hscan
    obtain ⟨_, hdemand, h⟩ := bind_eq_ok.mp h
    have hnew := List.all_eq_true.mp (demand_eq_ok.mp hdemand)
    have hunique : UniqueIds known.attempts → UniqueIds (known.attempts ++
        (gathered records).attempts.filter fun a => decide (a.1.cohort = cohort)) := fun hknown =>
      uniqueIds_append hknown (fun a ha => of_decide_eq_true (List.mem_filter.mp ha).2)
        fun a ha => of_decide_eq_true (hnew a ha)
    refine ⟨records, hrecords, ?_⟩
    have hrest : Gathers records rest
        { gathered records with
          attempts := known.attempts ++
            (gathered records).attempts.filter fun a => decide (a.1.cohort = cohort) } found := by
      cases rest with
      | nil =>
        rw [attemptsById] at h
        cases h
        exact .nil records _
      | cons next rest =>
        obtain ⟨other, hother, hrest⟩ := ih (List.cons_ne_nil _ _) h
        cases scanned_unique hrecords hother
        exact hrest
    refine ⟨fun hknown => hrest.unique (hunique hknown), fun a => ?_, fun _ kind => ?_⟩
    · rw [hrest.attempts, List.mem_append, List.mem_filter, List.mem_cons, decide_eq_true_eq, or_assoc,
        ← and_or_left]
    · cases rest with
      | nil =>
        rw [attemptsById] at h
        cases h
        cases kind <;> rfl
      | cons next rest => exact hrest.resolutions (List.cons_ne_nil _ _) kind

/-! ## The loops over identities -/

theorem attemptWith_eq_ok {attempts : List (Label × Dict)} {id : Str} {a : Label × Dict}
    (h : attemptWith attempts id = .ok a) : a ∈ attempts ∧ a.1.id = id := by
  unfold attemptWith at h
  cases hfound : attempts.find? fun a => decide (a.1.id = id) with
  | none =>
    rw [hfound] at h
    cases h
  | some b =>
    rw [hfound] at h
    cases h
    have hid := List.find?_some hfound
    exact ⟨List.mem_of_find?_eq_some hfound, of_decide_eq_true hid⟩

theorem checkResolutions_eq_ok {found : Found} {ids : List Str} {u : Unit}
    (h : checkResolutions interp dir found ids = .ok u) :
    ∀ id ∈ ids, ∃ a ∈ found.attempts, a.1.id = id ∧
      attemptResolved interp dir a.1 found.completions found.cleanups = .ok true := by
  induction ids with
  | nil =>
    intro id hid
    cases hid
  | cons id ids ih =>
    rw [checkResolutions] at h
    obtain ⟨a, ha, h⟩ := bind_eq_ok.mp h
    obtain ⟨resolved, hresolved, h⟩ := bind_eq_ok.mp h
    obtain ⟨_, hdemand, h⟩ := bind_eq_ok.mp h
    obtain ⟨hmem, hid⟩ := attemptWith_eq_ok ha
    rw [demand_eq_ok.mp hdemand] at hresolved
    intro other hother
    obtain rfl | hother := List.mem_cons.mp hother
    · exact ⟨a, hmem, hid, hresolved⟩
    · exact ih h other hother

theorem checkReceipts_eq_ok {found : Found} {cohorts : List Cohort} {u : Unit}
    (h : checkReceipts dir found cohorts = .ok u) :
    ∀ cohort ∈ cohorts, if (dir.file (receiptName cohort)).isSome then (completedOf found cohort).length = 1
      else (completedOf found cohort).length = 0 := by
  induction cohorts with
  | nil => exact fun cohort hcohort => nomatch hcohort
  | cons cohort cohorts ih =>
    rw [checkReceipts] at h
    obtain ⟨_, hone, h⟩ := bind_eq_ok.mp h
    obtain ⟨_, hzero, h⟩ := bind_eq_ok.mp h
    have hone := demand_eq_ok.mp hone
    have hzero := demand_eq_ok.mp hzero
    intro other hother
    obtain rfl | hother := List.mem_cons.mp hother
    · cases hpresent : (dir.file (receiptName other)).isSome
      · rw [hpresent] at hzero
        exact of_decide_eq_true hzero
      · rw [hpresent] at hone
        exact of_decide_eq_true hone
    · exact ih h other hother

theorem cleanupCapacities_eq_ok {found : Found} {ids names : List Str}
    (h : cleanupCapacities interp dir found ids = .ok names) :
    ∀ id ∈ ids, ∃ a ∈ found.attempts, a.1.id = id ∧ ∃ cleanup,
      readBoundJson interp dir (recordName .cleanup a.1.cohort id) Kind.cleanup.schema = .ok cleanup ∧
        strOf (Dict.get cleanup "capacity_receipt") ∈ names := by
  induction ids generalizing names with
  | nil =>
    intro id hid
    cases hid
  | cons id ids ih =>
    rw [cleanupCapacities] at h
    obtain ⟨a, ha, h⟩ := bind_eq_ok.mp h
    obtain ⟨cleanup, hcleanup, h⟩ := bind_eq_ok.mp h
    obtain ⟨rest, hrest, h⟩ := bind_eq_ok.mp h
    obtain ⟨hmem, hid⟩ := attemptWith_eq_ok ha
    cases h
    intro other hother
    obtain rfl | hother := List.mem_cons.mp hother
    · exact ⟨a, hmem, hid, cleanup, hcleanup, List.mem_cons_self⟩
    · obtain ⟨b, hb, hbid, c, hc, hcmem⟩ := ih hrest other hother
      exact ⟨b, hb, hbid, c, hc, List.mem_cons_of_mem _ hcmem⟩

/-! ## Records by their labels -/

/-- The payload of a record. -/
def recordOf (interp : Interpreter) (dir : SetDir) (label : Label) : Dict :=
  match readBoundJson interp dir (labelName label) label.kind.schema with
  | .ok payload => payload
  | .error _ => []

theorem recordOf_eq {label : Label} {payload : Dict}
    (h : readBoundJson interp dir (labelName label) label.kind.schema = .ok payload) :
    recordOf interp dir label = payload := by
  unfold recordOf
  rw [h]

theorem Scanned.recordOf_eq {records : List (Label × Dict)} (hscan : Scanned interp dir manifest records)
    {label : Label} {payload : Dict} (h : (label, payload) ∈ records) : recordOf interp dir label = payload :=
  Qualification.recordOf_eq (hscan.reads_of_mem h).bound

theorem Scanned.mem_recordOf {records : List (Label × Dict)} (hscan : Scanned interp dir manifest records)
    {label : Label} (h : Has dir label) : (label, recordOf interp dir label) ∈ records := by
  obtain ⟨payload, hmem⟩ := hscan.mem_of_has h
  rw [hscan.recordOf_eq hmem]
  exact hmem

/-- The capacity receipt a record names. -/
def capacityName (interp : Interpreter) (dir : SetDir) (label : Label) : Str :=
  strOf (Dict.get (recordOf interp dir label) "capacity_receipt")

/-- What an accepted graph says of the records. -/
structure Graph (interp : Interpreter) (dir : SetDir) (manifest : Dict) (records : List (Label × Dict)) :
    Prop where
  scanned : Scanned interp dir manifest records
  unique : ∀ {cohort cohort' : Cohort} {id : Str}, Has dir ⟨.attempt, cohort, id⟩ →
    Has dir ⟨.attempt, cohort', id⟩ → cohort = cohort'
  attempted : ∀ {kind : Kind} {cohort : Cohort} {id : Str}, kind.resolves = true → Has dir ⟨kind, cohort, id⟩ →
    ∃ cohort', Has dir ⟨.attempt, cohort', id⟩
  owned : ∀ {cohort : Cohort} {id : Str}, Has dir ⟨.complete, cohort, id⟩ →
    ∃ cohort', Has dir ⟨.ownership, cohort', id⟩
  resolved : ∀ {kind : Kind} {cohort cohort' : Cohort} {id : Str}, kind = .complete ∨ kind = .cleanup →
    Has dir ⟨kind, cohort, id⟩ → Has dir ⟨.attempt, cohort', id⟩ →
      attemptResolved interp dir ⟨.attempt, cohort', id⟩ (gathered records).completions
        (gathered records).cleanups = .ok true
  receipts : ∀ cohort, (dir.file (receiptName cohort)).isSome = true ↔
    ∃! id, Has dir ⟨.attempt, cohort, id⟩ ∧ ∃ cohort', Has dir ⟨.complete, cohort', id⟩
  attemptCapacity : ∀ {a : Label}, Has dir a → a.kind = .attempt →
    capacityName interp dir a ∈ dir.names ∧ isCapacityName (capacityName interp dir a) = true
  cleanupCapacity : ∀ {cohort : Cohort} {id : Str}, Has dir ⟨.attempt, cohort, id⟩ →
    Has dir ⟨.cleanup, cohort, id⟩ →
      capacityName interp dir ⟨.cleanup, cohort, id⟩ ∈ dir.names ∧
        isCapacityName (capacityName interp dir ⟨.cleanup, cohort, id⟩) = true

/-- A cohort with one completed attempt in its list has exactly one. -/
theorem completedOf_unique {found : Found} {cohort : Cohort} {completed : Str → Prop}
    (hmem : ∀ id, (∃ a ∈ completedOf found cohort, a.1.id = id) ↔ completed id) {present : Bool}
    (hcount : if present then (completedOf found cohort).length = 1
      else (completedOf found cohort).length = 0) : present = true ↔ ∃! id, completed id := by
  cases present with
  | true =>
    obtain ⟨a, ha⟩ := List.length_eq_one_iff.mp hcount
    rw [ha] at hmem
    refine iff_of_true rfl ⟨a.1.id, (hmem _).mp ⟨a, List.mem_singleton_self a, rfl⟩, ?_⟩
    intro id hid
    obtain ⟨b, hb, rfl⟩ := (hmem id).mpr hid
    rw [List.mem_singleton.mp hb]
  | false =>
    refine iff_of_false nofun ?_
    rintro ⟨id, hid, -⟩
    obtain ⟨a, ha, -⟩ := (hmem id).mpr hid
    rw [List.length_eq_zero_iff.mp hcount] at ha
    cases ha

/-- What the loop over the cohorts leaves. -/
structure Collected (interp : Interpreter) (dir : SetDir) (manifest : Dict) (records : List (Label × Dict))
    (found : Found) : Prop where
  scanned : Scanned interp dir manifest records
  attempts : ∀ a, a ∈ found.attempts ↔ a ∈ records ∧ a.1.kind = .attempt
  ids : ∀ kind, found.ids kind = (gathered records).ids kind
  unique : UniqueIds found.attempts

theorem attemptsById_collected {found : Found}
    (h : attemptsById interp dir manifest cohorts .empty = .ok found) :
    ∃ records, Collected interp dir manifest records found := by
  obtain ⟨records, hscan, hgathers⟩ := attemptsById_eq_ok (by decide) h
  refine ⟨records, hscan, fun a => ?_, hgathers.resolutions (by decide), ?_⟩
  · rw [hgathers.attempts, ← mem_gathered_attempts]
    simp [Found.empty, mem_cohorts]
  · apply hgathers.unique
    intro a ha
    cases ha

namespace Collected

variable {records : List (Label × Dict)} {found : Found} (hfound : Collected interp dir manifest records found)

include hfound

theorem mem_ids (kind : Kind) (hkind : kind.resolves = true) {id : Str} :
    id ∈ found.ids kind ↔ ∃ cohort, Has dir ⟨kind, cohort, id⟩ := by
  rw [hfound.ids]
  exact hfound.scanned.mem_ids kind hkind

theorem mem_attempts {cohort : Cohort} {id : Str} (h : Has dir ⟨.attempt, cohort, id⟩) :
    (⟨.attempt, cohort, id⟩, recordOf interp dir ⟨.attempt, cohort, id⟩) ∈ found.attempts :=
  (hfound.attempts _).mpr ⟨hfound.scanned.mem_recordOf h, rfl⟩

theorem label {a : Label × Dict} (ha : a ∈ found.attempts) :
    Has dir ⟨.attempt, a.1.cohort, a.1.id⟩ ∧ a.1 = ⟨.attempt, a.1.cohort, a.1.id⟩ := by
  obtain ⟨hmem, hkind⟩ := (hfound.attempts a).mp ha
  have hshape : a.1 = ⟨.attempt, a.1.cohort, a.1.id⟩ := by rw [← hkind]
  have hhas := hfound.scanned.has_of_mem hmem
  rw [hshape] at hhas
  exact ⟨hhas, hshape⟩

/-- The attempt of an identity is the one attempt the directory has of it. -/
theorem eq_label {a : Label × Dict} (ha : a ∈ found.attempts) {cohort : Cohort} {id : Str}
    (h : Has dir ⟨.attempt, cohort, id⟩) (hid : a.1.id = id) : a.1 = ⟨.attempt, cohort, id⟩ := by
  have hcohort := hfound.unique a ha _ (hfound.mem_attempts h) hid
  rw [(hfound.label ha).2, hid, hcohort]

theorem attempted {kind : Kind} (hkind : kind.resolves = true) {message : String} {u : Unit}
    (h : demand (subset (found.ids kind) (found.attempts.map fun a => a.1.id)) message = .ok u)
    {cohort : Cohort} {id : Str} (hhas : Has dir ⟨kind, cohort, id⟩) :
    ∃ cohort', Has dir ⟨.attempt, cohort', id⟩ := by
  have hid := (hfound.mem_ids kind hkind).mpr ⟨cohort, hhas⟩
  obtain ⟨a, ha, rfl⟩ := List.mem_map.mp (subset_iff.mp (demand_eq_ok.mp h) id hid)
  exact ⟨_, (hfound.label ha).1⟩

theorem resolved {u : Unit}
    (h : checkResolutions interp dir found (found.completions ++ found.cleanups) = .ok u) {kind : Kind}
    {cohort cohort' : Cohort} {id : Str} (hkind : kind = .complete ∨ kind = .cleanup)
    (hhas : Has dir ⟨kind, cohort, id⟩) (hattempt : Has dir ⟨.attempt, cohort', id⟩) :
    attemptResolved interp dir ⟨.attempt, cohort', id⟩ found.completions found.cleanups = .ok true := by
  have hid : id ∈ found.completions ++ found.cleanups := by
    apply List.mem_append.mpr
    obtain rfl | rfl := hkind
    · exact .inl ((hfound.mem_ids .complete rfl).mpr ⟨cohort, hhas⟩)
    · exact .inr ((hfound.mem_ids .cleanup rfl).mpr ⟨cohort, hhas⟩)
  obtain ⟨a, ha, haid, hresolved⟩ := checkResolutions_eq_ok h id hid
  rw [hfound.eq_label ha hattempt haid] at hresolved
  exact hresolved

theorem receipts {u : Unit} (h : checkReceipts dir found cohorts = .ok u) (cohort : Cohort) :
    (dir.file (receiptName cohort)).isSome = true ↔
      ∃! id, Has dir ⟨.attempt, cohort, id⟩ ∧ ∃ cohort', Has dir ⟨.complete, cohort', id⟩ := by
  refine completedOf_unique ?_ (checkReceipts_eq_ok h cohort (mem_cohorts cohort))
  intro id
  have hcompletions : id ∈ found.completions ↔ _ := hfound.mem_ids .complete rfl
  rw [← hcompletions]
  constructor
  · rintro ⟨a, ha, rfl⟩
    obtain ⟨ha, hcompleted⟩ := List.mem_filter.mp ha
    obtain ⟨hcohort, hcompleted⟩ := Bool.and_eq_true_iff.mp hcompleted
    have hattempt := (hfound.label ha).1
    rw [of_decide_eq_true hcohort] at hattempt
    exact ⟨hattempt, of_decide_eq_true hcompleted⟩
  · rintro ⟨hattempt, hcompleted⟩
    refine ⟨_, List.mem_filter.mpr ⟨hfound.mem_attempts hattempt, ?_⟩, rfl⟩
    apply Bool.and_eq_true_iff.mpr
    exact ⟨decide_eq_true rfl, decide_eq_true hcompleted⟩

theorem cleanupNames {names : List Str} (h : cleanupCapacities interp dir found found.cleanups = .ok names)
    {cohort : Cohort} {id : Str} (hattempt : Has dir ⟨.attempt, cohort, id⟩)
    (hhas : Has dir ⟨.cleanup, cohort, id⟩) : capacityName interp dir ⟨.cleanup, cohort, id⟩ ∈ names := by
  have hid : id ∈ found.cleanups := (hfound.mem_ids .cleanup rfl).mpr ⟨cohort, hhas⟩
  obtain ⟨a, ha, haid, cleanup, hcleanup, hname⟩ := cleanupCapacities_eq_ok h id hid
  rw [hfound.eq_label ha hattempt haid] at hcleanup
  have hrecord : recordOf interp dir ⟨.cleanup, cohort, id⟩ = cleanup := recordOf_eq hcleanup
  unfold capacityName
  rw [hrecord]
  exact hname

end Collected

theorem validateSetGraph_eq_ok (h : validateSetGraph interp dir manifest = .ok ()) :
    ∃ records, Graph interp dir manifest records := by
  unfold validateSetGraph at h
  obtain ⟨found, hfound, h⟩ := bind_eq_ok.mp h
  obtain ⟨_, hcompletions, h⟩ := bind_eq_ok.mp h
  obtain ⟨_, hcleanups, h⟩ := bind_eq_ok.mp h
  obtain ⟨_, hownerships, h⟩ := bind_eq_ok.mp h
  obtain ⟨_, howned, h⟩ := bind_eq_ok.mp h
  obtain ⟨_, -, h⟩ := bind_eq_ok.mp h
  obtain ⟨_, hresolutions, h⟩ := bind_eq_ok.mp h
  obtain ⟨_, hreceipts, h⟩ := bind_eq_ok.mp h
  obtain ⟨cleanupNames, hcleanupNames, h⟩ := bind_eq_ok.mp h
  have hnames := subset_iff.mp (Bool.and_eq_true_iff.mp (demand_eq_ok.mp h)).2
  obtain ⟨records, hfound⟩ := attemptsById_collected hfound
  refine ⟨records, hfound.scanned, ?_, ?_, ?_, ?_, hfound.receipts hreceipts, ?_, ?_⟩
  · intro cohort cohort' id ha hb
    exact hfound.unique _ (hfound.mem_attempts ha) _ (hfound.mem_attempts hb) rfl
  · intro kind cohort id hkind hhas
    cases kind
    case complete => exact hfound.attempted hkind hcompletions hhas
    case cleanup => exact hfound.attempted hkind hcleanups hhas
    case ownership => exact hfound.attempted hkind hownerships hhas
    all_goals cases hkind
  · intro cohort id hhas
    have hid : id ∈ found.completions := (hfound.mem_ids .complete rfl).mpr ⟨cohort, hhas⟩
    exact (hfound.mem_ids .ownership rfl).mp (subset_iff.mp (demand_eq_ok.mp howned) id hid)
  · intro kind cohort cohort' id hkind hhas hattempt
    have hresolved := hfound.resolved hresolutions hkind hhas hattempt
    have hsame : found.completions = (gathered records).completions := hfound.ids .complete
    have hsame' : found.cleanups = (gathered records).cleanups := hfound.ids .cleanup
    rw [hsame, hsame'] at hresolved
    exact hresolved
  · rintro ⟨kind, cohort, id⟩ ha hkind
    cases hkind
    have hname := List.mem_map_of_mem (f := fun a => strOf (Dict.get a.2 "capacity_receipt"))
      (hfound.mem_attempts ha)
    exact List.mem_filter.mp (hnames _ (List.mem_append_left _ hname))
  · intro cohort id hattempt hhas
    have hname := hfound.cleanupNames hcleanupNames hattempt hhas
    exact List.mem_filter.mp (hnames _ (List.mem_append_right _ hname))

end McpTrust.Qualification
