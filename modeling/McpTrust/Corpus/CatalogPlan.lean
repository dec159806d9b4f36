import McpTrust.Corpus.Promotion

/-! # The integration plan

The planner turns the published records of a set into proposed catalog actions. After any run of
promotions these are the records the calls published and did not pass over later, each with the
receipt it was scanned with.
-/

namespace McpTrust.Corpus

set_option autoImplicit false

open Python

/-- A row of `_load_source_specs`. -/
structure SourceRow where
  source : Json
  homepage : Option Str

/-- `source_specs.get(record_id)`. -/
abbrev SourceSpecs := Str → Option SourceRow

inductive Blocker
  | missingSourceSpec
  | missingSource
  | missingCommand
  | missingReceipt
  deriving DecidableEq

inductive ActionKind
  | alreadySeeded
  | blocked
  | addSeedEntry
  deriving DecidableEq

structure SeedPreview where
  slug : Str
  name : Str
  source : Json
  homepage : Option Str

structure CatalogAction where
  recordId : Str
  registryName : Str
  action : ActionKind
  blockers : List Blocker
  seedPreview : SeedPreview
  receipt : Option ReceiptEvidenceRef

/-- `_package_fallback_source(record)`. -/
def packageFallbackSource (record : PublicCorpusRecord) : Json :=
  match record.package with
  | none => .null
  | some package =>
    named [("kind", .str package.registryType), ("reference", .str package.identifier), ("command", .null),
      ("args", .arr []), ("env_keys", .arr [])]

/-- `value or other` of two texts that may be absent. -/
def textOr (value other : Option Str) : Option Str := if value = none ∨ value = some [] then other else value

def seedPreview (record : PublicCorpusRecord) (row : Option SourceRow) : SeedPreview where
  slug := record.recordId
  name := record.displayName
  source := row.elim (packageFallbackSource record) SourceRow.source
  homepage := textOr (row.bind SourceRow.homepage) (record.package.bind PackageSource.repositoryUrl)

/-- The blockers a source gives; what is neither `None` nor a `dict` has no `get`. -/
def sourceBlockers : Json → Except PyErr (List Blocker)
  | .null => .ok [.missingSource]
  | .obj fields => .ok (if truthy (Dict.get fields "command") then [] else [.missingCommand])
  | _ => .error .attributeError

def catalogAction (seedSlugs : List Str) (specs : SourceSpecs) (record : PublicCorpusRecord) :
    Except PyErr CatalogAction := do
  let row := specs record.recordId
  let preview := seedPreview record row
  let ofSource ← sourceBlockers preview.source
  let blockers := (if row = none then [.missingSourceSpec] else []) ++ ofSource ++
    (if record.receipt = none then [.missingReceipt] else [])
  let action : ActionKind :=
    if record.recordId ∈ seedSlugs then .alreadySeeded
    else if blockers ≠ [] then .blocked
    else .addSeedEntry
  .ok
    { recordId := record.recordId
      registryName := record.registryName
      action := action
      blockers := blockers
      seedPreview := preview
      receipt := record.receipt }

structure IntegrationPlan where
  recordCount : Nat
  actions : List CatalogAction
  deferredRecordIds : List Str

/-- `build_integration_plan(…)` of the loaded set, the seeded slugs and the source specs. -/
def buildIntegrationPlan (seedSlugs : List Str) (specs : SourceSpecs) (set : CorpusRecordSet) :
    Except PyErr IntegrationPlan := do
  let published := set.records.filter fun record => decide (record.status = .published)
  let actions ← published.mapM (catalogAction seedSlugs specs)
  .ok
    { recordCount := set.records.length
      actions := actions
      deferredRecordIds := recordIds (set.records.filter fun record => decide (record.status = .deferred)) }

/-! ## One action -/

variable {seedSlugs : List Str} {specs : SourceSpecs} {record : PublicCorpusRecord} {action : CatalogAction}

/-- A new entry is proposed for an id that is not seeded and whose source row can be launched. -/
def Launchable (seedSlugs : List Str) (specs : SourceSpecs) (id : Str) : Prop :=
  id ∉ seedSlugs ∧ ∃ row fields, specs id = some row ∧ row.source = .obj fields ∧
    truthy (Dict.get fields "command") = true

/-- What the planner says about a record that holds a receipt. -/
structure Proposes (seedSlugs : List Str) (specs : SourceSpecs) (record : PublicCorpusRecord) (action : CatalogAction) :
    Prop where
  id : action.recordId = record.recordId
  receipt : action.receipt = record.receipt
  evidenced : Blocker.missingReceipt ∉ action.blockers
  entry : action.action = .addSeedEntry ↔ Launchable seedSlugs specs record.recordId
  seeded : action.action = .alreadySeeded ↔ record.recordId ∈ seedSlugs

theorem sourceBlockers_ok {source : Json} {blockers : List Blocker} (h : sourceBlockers source = .ok blockers) :
    Blocker.missingReceipt ∉ blockers ∧
      (blockers = [] ↔ ∃ fields, source = .obj fields ∧ truthy (Dict.get fields "command") = true) := by
  cases source <;> simp only [sourceBlockers, reduceCtorEq, Except.ok.injEq] at h
  case null =>
    subst h
    simp
  case obj fields =>
    subst h
    by_cases hcommand : truthy (Dict.get fields "command") = true
    · simp [hcommand]
    · simp [hcommand]

theorem proposes_of_ok (hreceipt : record.receipt ≠ none) (h : catalogAction seedSlugs specs record = .ok action) :
    Proposes seedSlugs specs record action := by
  obtain ⟨ofSource, hsource, h⟩ := bind_eq_ok.mp h
  cases h
  obtain ⟨hevidenced, hempty⟩ := sourceBlockers_ok hsource
  have hblockers : ((if specs record.recordId = none then [Blocker.missingSourceSpec] else []) ++ ofSource ++
      (if record.receipt = none then [.missingReceipt] else [])) =
      (if specs record.recordId = none then [Blocker.missingSourceSpec] else []) ++ ofSource := by
    rw [if_neg hreceipt, List.append_nil]
  refine ⟨rfl, rfl, ?_, ?_, ?_⟩
  · dsimp only
    rw [hblockers, List.mem_append, not_or]
    refine ⟨?_, hevidenced⟩
    split_ifs <;> simp
  · dsimp only
    rw [hblockers]
    unfold Launchable
    cases hrow : specs record.recordId with
    | none => split_ifs <;> simp_all
    | some row =>
      have hrowSource : (seedPreview record (specs record.recordId)).source = row.source := by
        rw [hrow]
        rfl
      rw [hrowSource] at hempty
      simp only [reduceCtorEq, if_false, List.nil_append]
      split_ifs with hseeded hblocked
      · simp [hseeded]
      · have hnone := mt hempty.mpr hblocked
        simp only [false_iff, not_and]
        rintro - ⟨row', fields, hsame, hobj, hcommand⟩
        cases hsame
        exact hnone ⟨fields, hobj, hcommand⟩
      · obtain ⟨fields, hobj, hcommand⟩ := hempty.mp (not_not.mp hblocked)
        simp only [true_iff]
        exact ⟨hseeded, row, fields, rfl, hobj, hcommand⟩
  · dsimp only
    split_ifs with hseeded hblocked <;> simp [hseeded]

/-! ## A plan after a run -/

variable {calls : List Promotion} {start finish : CorpusRecordSet}

/-- The calls leave the record published. -/
def leftPublished (calls : List Promotion) (record : PublicCorpusRecord) : Bool :=
  decide (statusAfter calls record = .published)

/-- The calls leave the record deferred. -/
def leftDeferred (calls : List Promotion) (record : PublicCorpusRecord) : Bool :=
  decide (statusAfter calls record = .deferred)

theorem Lived.status {before after : PublicCorpusRecord} (h : Lived calls before after) :
    after.status = statusAfter calls before := by rw [h.record]

theorem Lived.recordId {before after : PublicCorpusRecord} (h : Lived calls before after) :
    after.recordId = before.recordId := by rw [h.record]

theorem Lived.receipt {before after : PublicCorpusRecord} (h : Lived calls before after) :
    after.receipt = before.receipt := by rw [h.record]

/-- The records of one status correspond before and after the run. -/
theorem forall₂_filter {befores afters : List PublicCorpusRecord} (h : List.Forall₂ (Lived calls) befores afters)
    (status : CorpusRecordStatus) :
    List.Forall₂ (Lived calls) (befores.filter fun record => decide (statusAfter calls record = status))
      (afters.filter fun record => decide (record.status = status)) := by
  induction h with
  | nil => exact .nil
  | @cons before after befores afters hlived _ ih =>
    rw [List.filter_cons, List.filter_cons, hlived.status]
    split_ifs
    · exact .cons hlived ih
    · exact ih

theorem recordIds_of_lived {befores afters : List PublicCorpusRecord} (h : List.Forall₂ (Lived calls) befores afters) :
    recordIds afters = recordIds befores := by
  unfold recordIds
  induction h with
  | nil => rfl
  | cons hlived _ ih => rw [List.map_cons, List.map_cons, hlived.recordId, ih]

theorem receipt_of_published (hvalid : finish.valid = true) (hmem : record ∈ finish.records)
    (hstatus : record.status = .published) : record.receipt ≠ none := by
  intro hnone
  have habsent := publishedWithoutReceipts_valid hvalid
  unfold publishedWithoutReceipts recordIds at habsent
  rw [List.map_eq_nil_iff, List.filter_eq_nil_iff] at habsent
  exact habsent record hmem (decide_eq_true ⟨hstatus, hnone⟩)

def noSpecs : SourceSpecs := fun _ => none

def promotedRecord : PublicCorpusRecord := scannedRecord.marked .published (promotionNote (u "ref"))

def promotedAction : CatalogAction where
  recordId := u "a"
  registryName := u "a"
  action := .blocked
  blockers := [.missingSourceSpec, .missingSource]
  seedPreview := seedPreview promotedRecord none
  receipt := some scannedReceipt

def promotedPlan : IntegrationPlan where
  recordCount := 1
  actions := [promotedAction]
  deferredRecordIds := []

theorem promotedSet_clean : promotedSet.Clean := by
  intro record hrecord
  rw [List.mem_singleton.mp hrecord]
  exact clean_of_all (by decide +kernel)

theorem promotedSet_loads :
    loadCorpusRecords plainInts Launch.sampleInterpreter (writtenBytes promotedSet) = .ok promotedSet := by
  have hprint : promotedSet.json.walk.all Qualification.isPrintable = true := by decide +kernel
  have hvalid : promotedSet.valid = true := by decide +kernel
  have hsize : (writtenBytes promotedSet).length ≤ maxCorpusRecordBytes := by decide +kernel
  exact load_written plainInts Launch.sampleInterpreter hvalid promotedSet_clean (if_pos hprint) hsize

theorem buildIntegrationPlan_promoted : buildIntegrationPlan [] noSpecs promotedSet = .ok promotedPlan := by
  rfl

end McpTrust.Corpus
