import McpTrust.Qualification.Graph

/-! # The history of a set

An accepted graph is a consistent history exactly when its resolutions are filed
under their attempts, the owned images are the qualified ones, the attempts name
capacity receipts of their own scope and the cleanups do not share one.
-/

namespace McpTrust.Qualification

set_option autoImplicit false

open Python Refresh

variable {interp : Interpreter} {dir : SetDir} {manifest : Dict}

section

variable (interp dir)

def field (label : Label) (key : String) : Json := Dict.get (recordOf interp dir label) key

/-- The image the receipt of the cohort qualifies. -/
def qualifiedImage (cohort : Cohort) : Json :=
  match loadJson interp (dir.file (receiptName cohort)) with
  | .ok (.obj receipt) => Dict.get receipt "first_build_image_id"
  | _ => .null

/-- The record is bound to this capacity receipt. -/
structure BoundTo (record capacity : Label) : Prop where
  has : Has dir capacity
  kind : capacity.kind = .capacity
  name : field interp dir record "capacity_receipt" = .str (labelName capacity)
  digest : field interp dir record "capacity_receipt_digest" = field interp dir capacity "receipt_digest"
  sha256 : field interp dir record "capacity_receipt_sha256" =
    .str (digestFile ((dir.file (labelName capacity)).getD []))

structure Scope (capacity : Label) (operation : Operation) (cohort : Cohort) : Prop where
  operation : field interp dir capacity "operation" = .str (u operation.text)
  cohort : capacity.cohort = cohort

/-- The completion binds the receipt of its cohort. -/
structure BindsReceipt (cohort : Cohort) (id : Str) : Prop where
  name : field interp dir ⟨.complete, cohort, id⟩ "qualification_receipt" = .str (receiptName cohort)
  sha256 : ∃ content, dir.file (receiptName cohort) = some content ∧
    field interp dir ⟨.complete, cohort, id⟩ "qualification_receipt_sha256" = .str (digestFile content)
  digest : ∃ receipt, loadJson interp (dir.file (receiptName cohort)) = .ok (.obj receipt) ∧
    Json.pyEq (field interp dir ⟨.complete, cohort, id⟩ "qualification_receipt_digest")
      (Dict.get receipt "receipt_digest") = true

def Kind.usesCapacity : Kind → Bool
  | .attempt | .cleanup => true
  | _ => false

structure Consistent : Prop where
  filed : ∀ {kind : Kind} {cohort : Cohort} {id : Str}, kind.resolves = true → Has dir ⟨kind, cohort, id⟩ →
    Has dir ⟨.attempt, cohort, id⟩
  once : ∀ {cohort cohort' : Cohort} {id : Str}, Has dir ⟨.complete, cohort, id⟩ →
    ¬Has dir ⟨.cleanup, cohort', id⟩
  receipt : ∀ cohort, (dir.file (receiptName cohort)).isSome = true ↔
    ∃! id, Has dir ⟨.attempt, cohort, id⟩ ∧ Has dir ⟨.complete, cohort, id⟩
  binds : ∀ {cohort : Cohort} {id : Str}, Has dir ⟨.complete, cohort, id⟩ → BindsReceipt interp dir cohort id
  owned : ∀ {cohort : Cohort} {id : Str}, Has dir ⟨.complete, cohort, id⟩ →
    Has dir ⟨.ownership, cohort, id⟩ ∧
      field interp dir ⟨.ownership, cohort, id⟩ "owned_final_image_id" = qualifiedImage interp dir cohort
  attemptCapacity : ∀ {cohort : Cohort} {id : Str}, Has dir ⟨.attempt, cohort, id⟩ →
    ∃ capacity, BoundTo interp dir ⟨.attempt, cohort, id⟩ capacity ∧
      Scope interp dir capacity .qualification cohort
  cleanupCapacity : ∀ {cohort : Cohort} {id : Str}, Has dir ⟨.cleanup, cohort, id⟩ →
    ∃ capacity, BoundTo interp dir ⟨.cleanup, cohort, id⟩ capacity ∧
      Scope interp dir capacity .cleanup cohort
  fresh : ∀ {r s c d : Label}, r.kind.usesCapacity = true → s.kind.usesCapacity = true → Has dir r → Has dir s →
    BoundTo interp dir r c → BoundTo interp dir s d →
      observation (recordOf interp dir c) = observation (recordOf interp dir d) → r = s

/-- What the graph does not check. -/
structure Linked : Prop where
  filed : ∀ {kind : Kind} {cohort : Cohort} {id : Str}, kind.resolves = true → Has dir ⟨kind, cohort, id⟩ →
    Has dir ⟨.attempt, cohort, id⟩
  image : ∀ {cohort : Cohort} {id : Str}, Has dir ⟨.complete, cohort, id⟩ →
    field interp dir ⟨.ownership, cohort, id⟩ "owned_final_image_id" = qualifiedImage interp dir cohort
  scope : ∀ {cohort : Cohort} {id : Str} {capacity : Label}, Has dir ⟨.attempt, cohort, id⟩ →
    BoundTo interp dir ⟨.attempt, cohort, id⟩ capacity → Scope interp dir capacity .qualification cohort
  reuse : ∀ {r s : Label}, r.kind = .cleanup → s.kind = .cleanup → Has dir r → Has dir s →
    field interp dir r "capacity_receipt" = field interp dir s "capacity_receipt" → r = s

end

/-! ## Capacity receipts -/

theorem validateQualification_scope {receipt : Json} {operation : Operation} {set : Str} {cohort : Cohort}
    {fields : Dict} (h : validateQualificationCapacityReceipt receipt operation set cohort = .ok fields) :
    receipt = .obj fields ∧ Dict.get fields "operation" = .str (u operation.text) ∧
      Dict.get fields "cohort" = .str (u cohort.text) := by
  unfold validateQualificationCapacityReceipt at h
  obtain ⟨_, -, h⟩ := bind_eq_ok.mp h
  cases receipt with
  | obj entries =>
    obtain ⟨_, -, h⟩ := bind_eq_ok.mp h
    obtain ⟨_, -, h⟩ := bind_eq_ok.mp h
    obtain ⟨_, hscope, h⟩ := bind_eq_ok.mp h
    obtain ⟨_, -, h⟩ := bind_eq_ok.mp h
    obtain ⟨_, -, h⟩ := bind_eq_ok.mp h
    cases h
    have hscope := refuse_eq_ok.mp hscope
    simp only [Bool.and_eq_true, Json.isStr_eq_true] at hscope
    exact ⟨rfl, hscope.1.1, hscope.2⟩
  | _ => cases h

theorem Cohort.text_injective {a b : Cohort} (h : u a.text = u b.text) : a = b := by
  cases a <;> cases b <;> first | rfl | exact absurd h (by decide)

theorem isCapacityName_not_plain {name : Str} (h : isCapacityName name = true) : isPlainName name = false := by
  apply Bool.eq_false_iff.mpr
  intro hplain
  obtain hset | hreceipt := Bool.or_eq_true_iff.mp hplain
  · rw [of_decide_eq_true hset] at h
    exact absurd h (by decide)
  · obtain ⟨cohort, -, hname⟩ := List.any_eq_true.mp hreceipt
    rw [of_decide_eq_true hname] at h
    cases cohort <;> exact absurd h (by decide)

theorem safeSetChild_eq_ok {value : Json} {name : Str} (h : safeSetChild value = .ok name) :
    value = .str name := by
  cases value with
  | str s =>
    unfold safeSetChild at h
    by_cases hbad : s = [] ∨ s = u "." ∨ s = u ".." ∨ ch '/' ∈ s ∨ ch '\\' ∈ s
    · simp only [if_pos hbad] at h
      cases h
    · simp only [if_neg hbad] at h
      cases h
      rfl
  | _ => cases h

section

variable {records : List (Label × Dict)} (hscan : Scanned interp dir manifest records)

include hscan

theorem Scanned.reads_record {label : Label} (h : Has dir label) :
    Reads interp dir manifest (labelName label) (label, recordOf interp dir label) :=
  hscan.reads_of_mem (hscan.mem_recordOf h)

theorem Scanned.capacity_label {name : Str} (hname : name ∈ dir.names) (hcapacity : isCapacityName name = true) :
    ∃ capacity, Has dir capacity ∧ capacity.kind = .capacity ∧ name = labelName capacity := by
  obtain ⟨capacity, hhas, rfl⟩ := hscan.has_of_name hname (isCapacityName_not_plain hcapacity)
  exact ⟨capacity, hhas, (isCapacityName_label capacity).mp hcapacity, rfl⟩

/-- The receipt digest of a record is the digest of the record. -/
theorem Scanned.receipt_digest {label : Label} (h : Has dir label) :
    ∃ digest, field interp dir label "receipt_digest" = .str digest := by
  have hbound := (hscan.reads_record h).bound
  unfold readBoundJson at hbound
  cases hfile : dir.file (labelName label) with
  | none =>
    rw [hfile] at hbound
    cases hbound
  | some content =>
    rw [hfile] at hbound
    obtain ⟨payload, -, hbound⟩ := bind_eq_ok.mp hbound
    cases payload with
    | obj fields =>
      obtain ⟨haccepted, hrecord⟩ := ite_eq_ok.mp hbound
      have hrecord : recordOf interp dir label = fields := hrecord
      simp only [Bool.and_eq_true, Json.pyEq_str] at haccepted
      unfold field
      rw [hrecord]
      exact ⟨_, haccepted.2⟩
    | _ => cases hbound

theorem Scanned.cohort {label : Label} (h : Has dir label) :
    field interp dir label "cohort" = .str (u label.cohort.text) :=
  Json.isStr_eq_true.mp (hscan.reads_record h).cohort

end

theorem readCapacity_eq_ok {value : Json} {capacity : Str × Bytes × Dict}
    (h : readCapacity interp dir value = .ok capacity) :
    value = .str capacity.1 ∧ capacity.2.1 = (dir.file capacity.1).getD [] ∧
      readBoundJson interp dir capacity.1 Kind.capacity.schema = .ok capacity.2.2 := by
  unfold readCapacity at h
  obtain ⟨name, hname, h⟩ := bind_eq_ok.mp h
  obtain ⟨payload, hpayload, h⟩ := bind_eq_ok.mp h
  cases h
  exact ⟨safeSetChild_eq_ok hname, rfl, hpayload⟩

/-- What a valid attempt says of its identity and its capacity receipt. -/
theorem validAttempt_iff {label : Label} {payload binding capacity : Dict} {content : Bytes}
    (h : validAttempt manifest label payload binding capacity content = true) :
    label.id = attemptIdOf (Dict.get payload "set_receipt_digest") (Dict.get payload "cohort")
        (Dict.get payload "capacity_receipt_digest") ∧
      Json.pyEq (Dict.get payload "set_receipt_digest") (Dict.get manifest "receipt_digest") = true ∧
        Json.pyEq (Dict.get payload "capacity_receipt_digest") (Dict.get capacity "receipt_digest") = true ∧
          Dict.get payload "capacity_receipt_sha256" = .str (digestFile content) := by
  unfold validAttempt at h
  simp only [Bool.and_eq_true, decide_eq_true_eq, Json.pyEq_str] at h
  obtain ⟨⟨⟨⟨⟨⟨⟨⟨⟨⟨⟨⟨-, -⟩, hid⟩, hset⟩, -⟩, -⟩, -⟩, -⟩, -⟩, -⟩, -⟩, hdigest⟩, hsha⟩ := h
  exact ⟨hid, hset, hdigest, hsha⟩

namespace Graph

variable {records : List (Label × Dict)} (hgraph : Graph interp dir manifest records)

include hgraph

theorem attempt_binds {cohort : Cohort} {id : Str} (h : Has dir ⟨.attempt, cohort, id⟩) :
    ∃ capacity, BoundTo interp dir ⟨.attempt, cohort, id⟩ capacity := by
  have hscan := hgraph.scanned
  obtain ⟨hname, hcapacity⟩ := hgraph.attemptCapacity h rfl
  obtain ⟨label, hhas, hkind, hlabel⟩ := hscan.capacity_label hname hcapacity
  obtain ⟨capacity, binding, hread, -, hvalid⟩ := (hscan.reads_record h).valid
  obtain ⟨hvalue, hcontent, hbound⟩ := readCapacity_eq_ok hread
  obtain ⟨-, -, hdigest, hsha⟩ := validAttempt_iff hvalid
  have hsame : capacity.1 = labelName label := by
    rw [← hlabel, capacityName, hvalue]
    rfl
  rw [hsame] at hcontent hbound hvalue
  rw [← hkind] at hbound
  rw [hcontent] at hsha
  obtain ⟨digest, hreceipt⟩ := hscan.receipt_digest hhas
  rw [field, recordOf_eq hbound] at hreceipt
  rw [hreceipt, Json.pyEq_str] at hdigest
  refine ⟨label, hhas, hkind, hvalue, ?_, hsha⟩
  unfold field
  rw [recordOf_eq hbound, hreceipt, hdigest]

/-- The identity of an attempt is a function of its cohort and its capacity receipt. -/
theorem attempt_id {digest : Str} (hmanifest : Dict.get manifest "receipt_digest" = .str digest)
    {cohort : Cohort} {id : Str} {capacity : Label} (h : Has dir ⟨.attempt, cohort, id⟩)
    (hbound : BoundTo interp dir ⟨.attempt, cohort, id⟩ capacity) :
    id = attemptIdOf (.str digest) (.str (u cohort.text)) (field interp dir capacity "receipt_digest") := by
  have hscan := hgraph.scanned
  obtain ⟨payload, binding, -, -, hvalid⟩ := (hscan.reads_record h).valid
  obtain ⟨hid, hset, -, -⟩ := validAttempt_iff hvalid
  rw [hmanifest, Json.pyEq_str] at hset
  have hcohort := hscan.cohort h
  have hdigest := hbound.digest
  unfold field at hcohort hdigest
  rw [hset, hcohort, hdigest] at hid
  exact hid

end Graph

/-! ## Resolutions -/

theorem attemptResolved_eq_true {attempt : Label} {completions cleanups : List Str}
    (h : attemptResolved interp dir attempt completions cleanups = .ok true) :
    ¬(attempt.id ∈ completions ∧ attempt.id ∈ cleanups) ∧
      (attempt.id ∈ cleanups → cleanupResolves interp dir attempt = .ok true) ∧
        (attempt.id ∈ completions → completionResolves interp dir attempt = .ok true) := by
  unfold attemptResolved at h
  by_cases hboth : attempt.id ∈ completions ∧ attempt.id ∈ cleanups
  · rw [if_pos hboth] at h
    cases h
  · rw [if_neg hboth] at h
    refine ⟨hboth, fun hcleanup => ?_, fun hcompletion => ?_⟩
    · rw [if_pos hcleanup] at h
      exact h
    · rw [if_neg fun hcleanup => hboth ⟨hcompletion, hcleanup⟩, if_pos hcompletion] at h
      exact h

theorem catching_none_eq_some {α : Type} {x : Except PyErr (Option α)} {handled : PyErr → Bool} {a : α}
    (h : catching x handled (.ok none) = .ok (some a)) : x = .ok (some a) := by
  cases x with
  | ok _ => exact h
  | error e =>
    rw [catching_error] at h
    by_cases hhandled : handled e = true
    · rw [if_pos hhandled] at h
      cases h
    · rw [if_neg hhandled] at h
      cases h

theorem map_some_eq_ok {α : Type} {x : Except PyErr α} {a : α} (h : x.map some = .ok (some a)) :
    x = .ok a := by
  cases x with
  | ok _ =>
    cases h
    rfl
  | error _ => cases h

theorem cleanupCapacity_eq_some {attempt : Label} {name : Str} {capacity : Dict}
    (h : cleanupCapacity interp dir attempt name = .ok (some capacity)) :
    readBoundJson interp dir name Kind.capacity.schema = .ok capacity ∧
      ∃ fields, validateQualificationCapacityReceipt (.obj capacity) .cleanup dir.name attempt.cohort =
        .ok fields := by
  unfold cleanupCapacity at h
  obtain ⟨payload, hread, h⟩ := bind_eq_ok.mp (catching_none_eq_some h)
  obtain ⟨fields, hfields, h⟩ := bind_eq_ok.mp h
  cases h
  exact ⟨hread, fields, hfields⟩

/-- What `cleanupResolves` reads before its conjunction. -/
theorem cleanupResolves_eq_ok {attempt : Label} {resolved : Bool}
    (h : cleanupResolves interp dir attempt = .ok resolved) :
    ∃ cleanup,
      readBoundJson interp dir (recordName .cleanup attempt.cohort attempt.id) Kind.cleanup.schema =
          .ok cleanup ∧
        (resolved = false ∨
          ∃ name, Dict.get cleanup "capacity_receipt" = .str name ∧
            ∃ capacity, cleanupCapacity interp dir attempt name = .ok (some capacity)) ∧
        ∀ name capacity, Dict.get cleanup "capacity_receipt" = .str name →
          cleanupCapacity interp dir attempt name = .ok (some capacity) →
            ∃ owned, ownedFinalImageId interp dir attempt = .ok owned ∧
              cleanupAccepted dir attempt cleanup capacity ((dir.file name).getD []) owned = .ok resolved := by
  unfold cleanupResolves at h
  obtain ⟨cleanup, hcleanup, h⟩ := bind_eq_ok.mp h
  refine ⟨cleanup, hcleanup, ?_⟩
  cases hvalue : Dict.get cleanup "capacity_receipt" with
  | str value =>
    rw [hvalue] at h
    obtain ⟨name, hname, h⟩ := bind_eq_ok.mp h
    obtain ⟨read, hread, h⟩ := bind_eq_ok.mp h
    cases safeSetChild_eq_ok hname
    cases read with
    | none =>
      cases h
      refine ⟨.inl rfl, ?_⟩
      rintro name capacity ⟨⟩ hcapacity
      rw [hread] at hcapacity
      cases hcapacity
    | some capacity =>
      obtain ⟨owned, howned, h⟩ := bind_eq_ok.mp h
      refine ⟨.inr ⟨value, rfl, capacity, hread⟩, ?_⟩
      rintro name capacity' ⟨⟩ hcapacity
      rw [hread] at hcapacity
      cases hcapacity
      exact ⟨owned, howned, h⟩
  | _ =>
    rw [hvalue] at h
    cases h
    exact ⟨.inl rfl, nofun⟩

theorem cleanupResolves_eq_true {attempt : Label} (h : cleanupResolves interp dir attempt = .ok true) :
    ∃ cleanup name capacity owned,
      readBoundJson interp dir (recordName .cleanup attempt.cohort attempt.id) Kind.cleanup.schema =
          .ok cleanup ∧
        Dict.get cleanup "capacity_receipt" = .str name ∧
          cleanupCapacity interp dir attempt name = .ok (some capacity) ∧
            ownedFinalImageId interp dir attempt = .ok owned ∧
              cleanupAccepted dir attempt cleanup capacity ((dir.file name).getD []) owned = .ok true := by
  obtain ⟨cleanup, hcleanup, hread, haccepted⟩ := cleanupResolves_eq_ok h
  obtain hfalse | ⟨name, hname, capacity, hcapacity⟩ := hread
  · cases hfalse
  · obtain ⟨owned, howned, haccepted⟩ := haccepted name capacity hname hcapacity
    exact ⟨cleanup, name, capacity, owned, hcleanup, hname, hcapacity, howned, haccepted⟩

theorem cleanupAccepted_bound {attempt : Label} {cleanup capacity : Dict} {content : Bytes}
    {owned : Option Str} (h : cleanupAccepted dir attempt cleanup capacity content owned = .ok true) :
    cleanupBound dir attempt cleanup capacity content = true := by
  unfold cleanupAccepted at h
  by_contra hbound
  rw [Bool.not_eq_true] at hbound
  simp only [hbound, Bool.not_false, if_true] at h
  cases h

theorem completionResolves_eq_true {attempt : Label} (h : completionResolves interp dir attempt = .ok true) :
    ∃ content completion receipt, dir.file (receiptName attempt.cohort) = some content ∧
      readBoundJson interp dir (recordName .complete attempt.cohort attempt.id) Kind.complete.schema =
          .ok completion ∧
        loadJson interp (some content) = .ok (.obj receipt) ∧
          Dict.get completion "qualification_receipt" = .str (receiptName attempt.cohort) ∧
            Dict.get completion "qualification_receipt_sha256" = .str (digestFile content) ∧
              Json.pyEq (Dict.get completion "qualification_receipt_digest")
                (Dict.get receipt "receipt_digest") = true := by
  unfold completionResolves at h
  cases hfile : dir.file (receiptName attempt.cohort) with
  | none =>
    rw [hfile] at h
    cases h
  | some content =>
    rw [hfile] at h
    obtain ⟨completion, hcompletion, h⟩ := bind_eq_ok.mp h
    obtain ⟨loaded, hloaded, h⟩ := bind_eq_ok.mp h
    cases loaded with
    | none => cases h
    | some receipt =>
      have hvalue := map_some_eq_ok (catching_none_eq_some hloaded)
      split_ifs at h with hbound
      · obtain ⟨digest, hdigest, h⟩ := bind_eq_ok.mp h
        cases receipt with
        | obj fields =>
          cases hdigest
          have hclassified := Except.ok.inj h
          simp only [Bool.and_eq_true, Json.pyEq_str] at hbound hclassified
          obtain ⟨⟨⟨-, -⟩, hname⟩, hsha⟩ := hbound
          exact ⟨content, completion, fields, rfl, hcompletion, hvalue, hname, hsha, hclassified.1⟩
        | _ => cases hdigest
      · cases h

/-! ## The history -/

namespace Graph

variable {records : List (Label × Dict)} (hgraph : Graph interp dir manifest records)

include hgraph

theorem once {cohort cohort' : Cohort} {id : Str} (hcomplete : Has dir ⟨.complete, cohort, id⟩) :
    ¬Has dir ⟨.cleanup, cohort', id⟩ := by
  intro hcleanup
  have hscan := hgraph.scanned
  obtain ⟨attemptCohort, hattempt⟩ := hgraph.attempted rfl hcomplete
  have hresolved := attemptResolved_eq_true (hgraph.resolved (.inl rfl) hcomplete hattempt)
  apply hresolved.1
  constructor
  · exact (hscan.mem_ids .complete rfl).mpr ⟨cohort, hcomplete⟩
  · exact (hscan.mem_ids .cleanup rfl).mpr ⟨cohort', hcleanup⟩

theorem cleanup_binds {cohort : Cohort} {id : Str} (hattempt : Has dir ⟨.attempt, cohort, id⟩)
    (h : Has dir ⟨.cleanup, cohort, id⟩) :
    ∃ capacity, BoundTo interp dir ⟨.cleanup, cohort, id⟩ capacity ∧
      Scope interp dir capacity .cleanup cohort := by
  have hscan := hgraph.scanned
  have hmem := (hscan.mem_ids .cleanup rfl).mpr ⟨cohort, h⟩
  have hresolved := attemptResolved_eq_true (hgraph.resolved (.inr rfl) h hattempt)
  obtain ⟨cleanup, name, capacity, owned, hcleanup, hvalue, hcapacity, -, haccepted⟩ :=
    cleanupResolves_eq_true (hresolved.2.1 hmem)
  have hbound := cleanupAccepted_bound haccepted
  obtain ⟨hread, fields, hvalid⟩ := cleanupCapacity_eq_some hcapacity
  have hrecord : recordOf interp dir ⟨.cleanup, cohort, id⟩ = cleanup := recordOf_eq hcleanup
  obtain ⟨hname, hfront⟩ := hgraph.cleanupCapacity hattempt h
  obtain ⟨label, hhas, hkind, hlabel⟩ := hscan.capacity_label hname hfront
  have hsame : name = labelName label := by
    rw [← hlabel, capacityName, hrecord, hvalue]
    rfl
  rw [hsame, ← hkind] at hread
  have hpayload := recordOf_eq hread
  obtain ⟨hobj, hoperation, hcohort⟩ := validateQualification_scope hvalid
  cases hobj
  unfold cleanupBound at hbound
  simp only [Bool.and_eq_true, Json.pyEq_str] at hbound
  obtain ⟨⟨⟨⟨⟨-, -⟩, hsha⟩, hdigest⟩, -⟩, -⟩ := hbound
  obtain ⟨digest, hreceipt⟩ := hscan.receipt_digest hhas
  rw [field, hpayload] at hreceipt
  rw [hreceipt, Json.pyEq_str] at hdigest
  rw [hsame] at hsha hvalue
  have hlabelCohort := hscan.cohort hhas
  rw [field, hpayload] at hlabelCohort
  refine ⟨label, ⟨hhas, hkind, ?_, ?_, ?_⟩, ?_, ?_⟩
  · rw [field, hrecord, hvalue]
  · rw [field, field, hrecord, hpayload, hreceipt, hdigest]
  · rw [field, hrecord, hsha]
  · rw [field, hpayload, hoperation]
  · rw [hcohort] at hlabelCohort
    exact (Cohort.text_injective (Json.str.inj hlabelCohort)).symm

theorem completion_binds {cohort : Cohort} {id : Str} (hattempt : Has dir ⟨.attempt, cohort, id⟩)
    (h : Has dir ⟨.complete, cohort, id⟩) : BindsReceipt interp dir cohort id := by
  have hscan := hgraph.scanned
  have hmem := (hscan.mem_ids .complete rfl).mpr ⟨cohort, h⟩
  have hresolved := attemptResolved_eq_true (hgraph.resolved (.inl rfl) h hattempt)
  obtain ⟨content, completion, receipt, hfile, hcompletion, hreceipt, hname, hsha, hdigest⟩ :=
    completionResolves_eq_true (hresolved.2.2 hmem)
  have hrecord : recordOf interp dir ⟨.complete, cohort, id⟩ = completion := recordOf_eq hcompletion
  refine ⟨?_, ⟨content, hfile, ?_⟩, receipt, ?_, ?_⟩
  · rw [field, hrecord, hname]
  · rw [field, hrecord, hsha]
  · rw [hfile]
    exact hreceipt
  · rw [field, hrecord]
    exact hdigest

end Graph

/-- A directory the graph accepts has a consistent history exactly when its records are linked. -/
theorem Graph.consistent_iff {records : List (Label × Dict)} (hgraph : Graph interp dir manifest records)
    {digest : Str} (hmanifest : Dict.get manifest "receipt_digest" = .str digest) :
    Consistent interp dir ↔ Linked interp dir := by
  constructor
  · intro h
    refine ⟨h.filed, fun hhas => (h.owned hhas).2, ?_, ?_⟩
    · intro cohort id capacity hhas hbound
      obtain ⟨own, hown, hscope⟩ := h.attemptCapacity hhas
      have hname := hbound.name
      rw [hown.name] at hname
      rw [labelName_injective hbound.has.1 hown.has.1 (Json.str.inj hname).symm]
      exact hscope
    · rintro ⟨_, cohort, id⟩ ⟨_, cohort', id'⟩ ⟨⟩ ⟨⟩ hr hs hname
      obtain ⟨c, hc, -⟩ := h.cleanupCapacity hr
      obtain ⟨d, hd, -⟩ := h.cleanupCapacity hs
      rw [hc.name, hd.name] at hname
      have hsame := labelName_injective hc.has.1 hd.has.1 (Json.str.inj hname)
      apply h.fresh rfl rfl hr hs hc hd
      rw [hsame]
  · intro h
    have hcleanup : ∀ {cohort : Cohort} {id : Str}, Has dir ⟨.cleanup, cohort, id⟩ →
        ∃ capacity, BoundTo interp dir ⟨.cleanup, cohort, id⟩ capacity ∧
          Scope interp dir capacity .cleanup cohort :=
      fun hhas => hgraph.cleanup_binds (h.filed rfl hhas) hhas
    refine ⟨h.filed, hgraph.once, ?_, ?_, ?_, ?_, hcleanup, ?_⟩
    · intro cohort
      rw [hgraph.receipts]
      refine existsUnique_congr fun id => and_congr_right fun hattempt => ?_
      refine ⟨?_, fun hhas => ⟨cohort, hhas⟩⟩
      rintro ⟨cohort', hhas⟩
      rw [hgraph.unique hattempt (h.filed rfl hhas)]
      exact hhas
    · exact fun hhas => hgraph.completion_binds (h.filed rfl hhas) hhas
    · intro cohort id hhas
      refine ⟨?_, h.image hhas⟩
      obtain ⟨cohort', howned⟩ := hgraph.owned hhas
      rw [hgraph.unique (h.filed rfl hhas) (h.filed rfl howned)]
      exact howned
    · intro cohort id hhas
      obtain ⟨capacity, hbound⟩ := hgraph.attempt_binds hhas
      exact ⟨capacity, hbound, h.scope hhas hbound⟩
    · rintro ⟨kind, cohort, id⟩ ⟨kind', cohort', id'⟩ c d hkind hkind' hr hs hc hd hobserved
      have hsame : c = d := by
        have hpair := hgraph.scanned.observation_injective (hgraph.scanned.mem_recordOf hc.has)
          (hgraph.scanned.mem_recordOf hd.has) hc.kind hd.kind hobserved
        exact congrArg Prod.fst hpair
      rw [← hsame] at hd
      have hcleanupScope : ∀ {cohort : Cohort} {id : Str}, Has dir ⟨.cleanup, cohort, id⟩ →
          BoundTo interp dir ⟨.cleanup, cohort, id⟩ c → Scope interp dir c .cleanup cohort := by
        intro cohort id hhas hbound
        obtain ⟨own, hown, hscope⟩ := hcleanup hhas
        have hname := hbound.name
        rw [hown.name] at hname
        rw [labelName_injective hbound.has.1 hown.has.1 (Json.str.inj hname).symm]
        exact hscope
      have hdiffer : ¬(field interp dir c "operation" = .str (u Operation.qualification.text) ∧
          field interp dir c "operation" = .str (u Operation.cleanup.text)) := by
        rintro ⟨hqualification, hclean⟩
        rw [hqualification] at hclean
        exact absurd (Json.str.inj hclean) (by decide)
      cases kind <;> cases kind'
      case attempt.attempt =>
        have hcohort := (h.scope hr hc).cohort
        rw [(h.scope hs hd).cohort] at hcohort
        cases hcohort
        rw [hgraph.attempt_id hmanifest hr hc, ← hgraph.attempt_id hmanifest hs hd]
      case attempt.cleanup =>
        exact absurd ⟨(h.scope hr hc).operation, (hcleanupScope hs hd).operation⟩ hdiffer
      case cleanup.attempt =>
        exact absurd ⟨(h.scope hs hd).operation, (hcleanupScope hr hc).operation⟩ hdiffer
      case cleanup.cleanup =>
        apply h.reuse rfl rfl hr hs
        rw [hc.name, hd.name]
      all_goals first
        | exact absurd hkind Bool.false_ne_true
        | exact absurd hkind' Bool.false_ne_true

end McpTrust.Qualification
