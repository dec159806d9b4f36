import McpTrust.Python.Text
import McpTrust.Walk

/-! # The evidence lineage ledger

The links of the records of a ledger and their validation, which derives the successors in
one pass and then follows them from every record.
-/

namespace McpTrust.Corpus

set_option autoImplicit false

open Python

structure LineageLinks where
  predecessor : Option Str := none
  successor : Option Str := none
  deriving DecidableEq

/-- `EvidenceLineageRecord`, with what the ledger reads of it. -/
structure LineageRecord where
  recordId : Str
  packageId : Str
  lineage : LineageLinks
  deriving DecidableEq

inductive LedgerError
  | valueError (message : String)
  | keyError
  deriving DecidableEq

abbrev LedgerCheck := Except LedgerError

def refuse {α : Type} (message : String) : LedgerCheck α := .error (.valueError message)

/-- `by_id.get(id)`; of two records with one id the later one is kept. -/
def byId (records : List LineageRecord) (id : Str) : Option LineageRecord :=
  records.reverse.find? fun record => decide (record.recordId = id)

abbrev Successors := List (Str × Str)

/-- `derived_successors.get(id)`. -/
def successorOf (derived : Successors) (id : Str) : Option Str := List.lookup id derived

/-- The branch of a record that names a predecessor. -/
def checkPredecessor (records : List LineageRecord) (derived : Successors) (record : LineageRecord) :
    LedgerCheck Successors :=
  match record.lineage.predecessor with
  | none => .ok derived
  | some predecessorId =>
    match byId records predecessorId with
    | none => refuse "predecessor links must be closed within the ledger"
    | some predecessor =>
      if predecessor.packageId ≠ record.packageId then refuse "lineage links must retain package identity"
      else if (successorOf derived predecessorId).isSome then refuse "one lineage record must not have multiple successors"
      else if predecessor.lineage.successor.any (fun successor => decide (successor ≠ record.recordId)) then
        refuse "declared successor does not match the derived successor"
      else .ok (derived ++ [(predecessorId, record.recordId)])

/-- The branch of a record that declares a successor. -/
def checkSuccessor (records : List LineageRecord) (record : LineageRecord) : LedgerCheck Unit :=
  match record.lineage.successor with
  | none => .ok ()
  | some successorId =>
    match byId records successorId with
    | none => refuse "successor links must be closed and reciprocal"
    | some successor =>
      if successor.lineage.predecessor ≠ some record.recordId then
        refuse "successor links must be closed and reciprocal"
      else if successor.packageId ≠ record.packageId then refuse "lineage links must retain package identity"
      else .ok ()

def checkRecord (records : List LineageRecord) (derived : Successors) (record : LineageRecord) :
    LedgerCheck Successors := do
  let derived ← checkPredecessor records derived record
  checkSuccessor records record
  .ok derived

def deriveSuccessors (records : List LineageRecord) : LedgerCheck Successors :=
  records.foldlM (checkRecord records) []

/-- The `while` loop from `current`; `none` while it runs. -/
def followSuccessors (records : List LineageRecord) (derived : Successors) :
    Nat → List Str → LineageRecord → Option (LedgerCheck Unit)
  | 0, _, _ => none
  | fuel + 1, seen, current =>
    match successorOf derived current.recordId with
    | none => some (.ok ())
    | some successorId =>
      if current.recordId ∈ seen then some (refuse "lineage successor links must not form a cycle")
      else
        match byId records successorId with
        | none => some (.error .keyError)
        | some successor => followSuccessors records derived fuel (current.recordId :: seen) successor

/-- The walks from the remaining starts. -/
def followAll (records : List LineageRecord) (derived : Successors) (fuel : Nat) :
    List LineageRecord → Option (LedgerCheck Unit)
  | [] => some (.ok ())
  | start :: rest =>
    match followSuccessors records derived fuel [] start with
    | none => none
    | some (.error e) => some (.error e)
    | some (.ok ()) => followAll records derived fuel rest

/-- `_validate_ledger`, with every walk cut after `fuel` steps. -/
def validateLedger (fuel : Nat) (records : List LineageRecord) : Option (LedgerCheck Unit) :=
  let recordIds := records.map LineageRecord.recordId
  if sortedSet recordIds ≠ recordIds then some (refuse "ledger records must have unique, sorted record_id values")
  else
    match deriveSuccessors records with
    | .error e => some (.error e)
    | .ok derived => followAll records derived fuel records

/-! ## Chains -/

/-- `b` names `a` as its predecessor. -/
def Precedes (records : List LineageRecord) (a b : LineageRecord) : Prop :=
  a ∈ records ∧ b ∈ records ∧ b.lineage.predecessor = some a.recordId

/-- The records form disjoint simple chains. -/
structure Chains (records : List LineageRecord) : Prop where
  unique : (records.map LineageRecord.recordId).Nodup
  predecessorClosed : ∀ b ∈ records, ∀ id ∈ b.lineage.predecessor, ∃ a ∈ records, a.recordId = id
  successorClosed : ∀ a ∈ records, ∀ id ∈ a.lineage.successor, ∃ b ∈ records, b.recordId = id
  injective : ∀ a b c, Precedes records a b → Precedes records a c → b = c
  acyclic : ∀ a, ¬Relation.TransGen (Precedes records) a a
  reciprocal : ∀ a ∈ records, ∀ b ∈ records, a.lineage.successor = some b.recordId →
    Precedes records a b ∧ ∀ c, Precedes records a c → c = b
  package : ∀ a b, Relation.EqvGen (Precedes records) a b → a.packageId = b.packageId

variable {records : List LineageRecord}

theorem byId_eq_some {id : Str} {record : LineageRecord} (h : byId records id = some record) :
    record ∈ records ∧ record.recordId = id := by
  have hmem := List.mem_of_find?_eq_some h
  have hid := List.find?_some h
  rw [decide_eq_true_eq] at hid
  exact ⟨List.mem_reverse.mp hmem, hid⟩

theorem eq_of_recordId (hunique : (records.map LineageRecord.recordId).Nodup) {a b : LineageRecord}
    (ha : a ∈ records) (hb : b ∈ records) (hid : a.recordId = b.recordId) : a = b :=
  List.inj_on_of_nodup_map hunique ha hb hid

theorem byId_recordId (hunique : (records.map LineageRecord.recordId).Nodup) {record : LineageRecord}
    (h : record ∈ records) : byId records record.recordId = some record := by
  cases hfound : byId records record.recordId with
  | none =>
    have habsent := List.find?_eq_none.mp hfound record (List.mem_reverse.mpr h)
    exact absurd (decide_eq_true rfl) habsent
  | some other =>
    obtain ⟨hother, hid⟩ := byId_eq_some hfound
    rw [eq_of_recordId hunique hother h hid]

/-! ## One record -/

/-- What the pass demands of a record. -/
structure LinksOk (records : List LineageRecord) (record : LineageRecord) : Prop where
  predecessor : ∀ id ∈ record.lineage.predecessor, ∃ a, byId records id = some a ∧
    a.packageId = record.packageId ∧ ∀ successor ∈ a.lineage.successor, successor = record.recordId
  successor : ∀ id ∈ record.lineage.successor, ∃ b, byId records id = some b ∧
    b.lineage.predecessor = some record.recordId ∧ b.packageId = record.packageId

/-- The entry a record adds to the derived successors. -/
def derivedEntry (record : LineageRecord) : Option (Str × Str) :=
  record.lineage.predecessor.map fun id => (id, record.recordId)

theorem refuse_ne_ok {α : Type} {message : String} {a : α} : refuse message ≠ .ok a := by
  intro h
  cases h

theorem checkPredecessor_ok {derived after : Successors} {record : LineageRecord}
    (h : checkPredecessor records derived record = .ok after) :
    after = derived ++ (derivedEntry record).toList ∧
      (∀ id ∈ record.lineage.predecessor, successorOf derived id = none ∧ ∃ a, byId records id = some a ∧
        a.packageId = record.packageId ∧ ∀ successor ∈ a.lineage.successor, successor = record.recordId) := by
  unfold checkPredecessor at h
  cases hpredecessor : record.lineage.predecessor with
  | none =>
    rw [hpredecessor] at h
    cases h
    refine ⟨?_, ?_⟩
    · rw [derivedEntry, hpredecessor]
      exact (List.append_nil _).symm
    · intro id hid
      cases hid
  | some predecessorId =>
    simp only [hpredecessor] at h
    cases hfound : byId records predecessorId with
    | none =>
      rw [hfound] at h
      cases h
    | some a =>
      simp only [hfound, refuse] at h
      split_ifs at h with hpackage hderived hdeclared
      cases h
      refine ⟨?_, ?_⟩
      · rw [derivedEntry, hpredecessor]
        rfl
      · rintro id ⟨⟩
        refine ⟨Option.not_isSome_iff_eq_none.mp hderived, a, hfound, not_not.mp hpackage, ?_⟩
        intro successor hsuccessor
        rw [hsuccessor, Option.any_some, decide_eq_true_eq, not_not] at hdeclared
        exact hdeclared

theorem checkSuccessor_ok {record : LineageRecord} (h : checkSuccessor records record = .ok ()) :
    ∀ id ∈ record.lineage.successor, ∃ b, byId records id = some b ∧
      b.lineage.predecessor = some record.recordId ∧ b.packageId = record.packageId := by
  intro id hid
  unfold checkSuccessor at h
  simp only [Option.mem_def.mp hid] at h
  cases hfound : byId records id with
  | none =>
    rw [hfound] at h
    cases h
  | some b =>
    simp only [hfound, refuse] at h
    split_ifs at h with hreciprocal hpackage
    exact ⟨b, rfl, not_not.mp hreciprocal, not_not.mp hpackage⟩

theorem checkRecord_ok {derived after : Successors} {record : LineageRecord}
    (h : checkRecord records derived record = .ok after) :
    after = derived ++ (derivedEntry record).toList ∧ LinksOk records record ∧
      ∀ id ∈ record.lineage.predecessor, successorOf derived id = none := by
  unfold checkRecord at h
  cases hpredecessor : checkPredecessor records derived record with
  | error e =>
    rw [hpredecessor] at h
    cases h
  | ok next =>
    cases hsuccessor : checkSuccessor records record with
    | error e =>
      rw [hpredecessor, hsuccessor] at h
      cases h
    | ok u =>
      rw [hpredecessor, hsuccessor] at h
      cases h
      obtain ⟨hafter, hlinks⟩ := checkPredecessor_ok hpredecessor
      refine ⟨hafter, ⟨fun id hid => (hlinks id hid).2, checkSuccessor_ok hsuccessor⟩, ?_⟩
      exact fun id hid => (hlinks id hid).1

/-! ## The pass -/

/-- The derived successors of the records passed so far. -/
def derivedOf (passed : List LineageRecord) : Successors := passed.filterMap derivedEntry

theorem foldlM_checkRecord {rest : List LineageRecord} : ∀ {passed : List LineageRecord} {derived : Successors},
    rest.foldlM (checkRecord records) (derivedOf passed) = .ok derived →
      derived = derivedOf (passed ++ rest) ∧ (∀ record ∈ rest, LinksOk records record) ∧
        (((derivedOf passed).map Prod.fst).Nodup → (derived.map Prod.fst).Nodup) := by
  induction rest with
  | nil =>
    intro passed derived h
    cases h
    rw [List.append_nil]
    refine ⟨rfl, ?_, id⟩
    intro record hrecord
    cases hrecord
  | cons record rest ih =>
    intro passed derived h
    rw [List.foldlM_cons] at h
    cases hcheck : checkRecord records (derivedOf passed) record with
    | error e =>
      rw [hcheck] at h
      cases h
    | ok next =>
      rw [hcheck] at h
      obtain ⟨hnext, hlinks, hfresh⟩ := checkRecord_ok hcheck
      have hpassed : next = derivedOf (passed ++ [record]) := by
        rw [hnext, derivedOf, derivedOf, List.filterMap_append]
        cases hentry : derivedEntry record with
        | none => simp [hentry]
        | some entry => simp [hentry]
      change rest.foldlM (checkRecord records) next = .ok derived at h
      rw [hpassed] at h
      obtain ⟨hderived, hrest, hnodup⟩ := ih h
      refine ⟨?_, ?_, ?_⟩
      · rw [hderived, List.append_assoc, List.singleton_append]
      · intro other hother
        obtain rfl | hother := List.mem_cons.mp hother
        · exact hlinks
        · exact hrest other hother
      · intro hbefore
        apply hnodup
        rw [← hpassed, hnext, List.map_append, List.nodup_append]
        refine ⟨hbefore, ?_, ?_⟩
        · cases derivedEntry record <;> simp
        · intro id hid other hother
          cases hpredecessor : record.lineage.predecessor with
          | none =>
            rw [derivedEntry, hpredecessor] at hother
            cases hother
          | some predecessorId =>
            rw [derivedEntry, hpredecessor] at hother
            have hother : other = predecessorId := by simpa using hother
            rintro rfl
            rw [hother] at hid
            have hnone := hfresh predecessorId hpredecessor
            obtain ⟨entry, hentry, hkey⟩ := List.mem_map.mp hid
            have hmiss := List.lookup_eq_none_iff.mp hnone entry hentry
            rw [hkey] at hmiss
            simp at hmiss

theorem deriveSuccessors_ok {derived : Successors} (h : deriveSuccessors records = .ok derived) :
    derived = derivedOf records ∧ (∀ record ∈ records, LinksOk records record) ∧ (derived.map Prod.fst).Nodup := by
  have hpass := @foldlM_checkRecord _ _ [] _ h
  rw [List.nil_append] at hpass
  exact ⟨hpass.1, hpass.2.1, hpass.2.2 List.nodup_nil⟩

theorem mem_derivedOf {passed : List LineageRecord} {id successor : Str} :
    (id, successor) ∈ derivedOf passed ↔
      ∃ b ∈ passed, b.lineage.predecessor = some id ∧ b.recordId = successor := by
  rw [derivedOf, List.mem_filterMap]
  apply exists_congr
  intro b
  apply and_congr_right
  intro _
  rw [derivedEntry, Option.map_eq_some_iff]
  constructor
  · rintro ⟨a, ha, hpair⟩
    cases hpair
    exact ⟨ha, rfl⟩
  · rintro ⟨ha, rfl⟩
    exact ⟨id, ha, rfl⟩

theorem lookup_eq_some {entries : Successors} (hnodup : (entries.map Prod.fst).Nodup) {id successor : Str} :
    successorOf entries id = some successor ↔ (id, successor) ∈ entries := by
  unfold successorOf
  induction entries with
  | nil => simp
  | cons entry entries ih =>
    obtain ⟨key, value⟩ := entry
    rw [List.map_cons, List.nodup_cons] at hnodup
    rw [List.lookup_cons, List.mem_cons]
    by_cases hkey : id = key
    · subst hkey
      rw [beq_self_eq_true]
      constructor
      · intro h
        left
        rw [Option.some.injEq] at h
        rw [h]
      · rintro (h | h)
        · rw [Prod.mk.injEq] at h
          rw [h.2]
        · exact absurd (List.mem_map.mpr ⟨_, h, rfl⟩) hnodup.1
    · rw [beq_eq_false_iff_ne.mpr hkey]
      dsimp only
      rw [ih hnodup.2]
      constructor
      · exact .inr
      · rintro (h | h)
        · rw [Prod.mk.injEq] at h
          exact absurd h.1 hkey
        · exact h

/-! ## The walks -/

/-- The record after `current` on its chain. -/
def nextRecord (records : List LineageRecord) (derived : Successors) (current : LineageRecord) :
    Option LineageRecord :=
  (successorOf derived current.recordId).bind (byId records)

/-- A chain of records followed over their ids is the walk over the ids. -/
theorem followSuccessors_walk {derived : Successors} (hclosed : ∀ id successor, successorOf derived id = some successor →
    ∃ b, byId records successor = some b) (fuel : Nat) (seen : List Str) (current : LineageRecord) :
    followSuccessors records derived fuel seen current =
      (Walk.walk (successorOf derived) fuel seen current.recordId).map fun ended =>
        if ended then .ok () else refuse "lineage successor links must not form a cycle" := by
  induction fuel generalizing seen current with
  | zero => rfl
  | succ fuel ih =>
    rw [followSuccessors, Walk.walk]
    cases hlookup : successorOf derived current.recordId with
    | none => rfl
    | some successorId =>
      dsimp only
      split_ifs with hseen
      · rfl
      · obtain ⟨successor, hfound⟩ := hclosed _ _ hlookup
        rw [hfound]
        dsimp only
        rw [ih, (byId_eq_some hfound).2]

theorem followAll_ok {derived : Successors} {fuel : Nat} {starts : List LineageRecord}
    (h : followAll records derived fuel starts = some (.ok ())) :
    ∀ start ∈ starts, followSuccessors records derived fuel [] start = some (.ok ()) := by
  induction starts with
  | nil =>
    intro start hstart
    cases hstart
  | cons first rest ih =>
    rw [followAll] at h
    split at h
    · cases h
    · cases h
    · rename_i hfirst
      intro start hstart
      obtain rfl | hstart := List.mem_cons.mp hstart
      · exact hfirst
      · exact ih h start hstart

/-- Every walk ends, so all of them have one verdict for every larger bound. -/
theorem followAll_ends {derived : Successors} (hclosed : ∀ id successor, successorOf derived id = some successor →
    ∃ b, byId records successor = some b) {bound : Nat} (hbound : derived.length < bound)
    (starts : List LineageRecord) :
    ∃ verdict, ∀ fuel ≥ bound, followAll records derived fuel starts = some verdict := by
  induction starts with
  | nil => exact ⟨.ok (), fun _ _ => rfl⟩
  | cons start rest ih =>
    have hdomain : ∀ a b, successorOf derived a = some b → a ∈ derived.map Prod.fst := by
      intro a b hlookup
      by_contra habsent
      have hnone : successorOf derived a = none := by
        rw [successorOf, List.lookup_eq_none_iff]
        intro entry hentry
        rw [bne_iff_ne]
        rintro rfl
        exact habsent (List.mem_map.mpr ⟨entry, hentry, rfl⟩)
      rw [hnone] at hlookup
      cases hlookup
    obtain ⟨ended, hended⟩ := @Walk.walk_ends _ _ _ _ hdomain bound [] start.recordId List.nodup_nil
      (List.nil_subset _) (by rw [List.length_map]; exact hbound)
    obtain ⟨verdict, hrest⟩ := ih
    have hstart : ∀ fuel ≥ bound, followSuccessors records derived fuel [] start =
        some (if ended then .ok () else refuse "lineage successor links must not form a cycle") := by
      intro fuel hfuel
      rw [followSuccessors_walk hclosed, Walk.walk_mono hended hfuel]
      rfl
    cases ended with
    | true =>
      refine ⟨verdict, fun fuel hfuel => ?_⟩
      rw [followAll, hstart fuel hfuel]
      exact hrest fuel hfuel
    | false =>
      refine ⟨refuse "lineage successor links must not form a cycle", fun fuel hfuel => ?_⟩
      rw [followAll, hstart fuel hfuel]
      rfl

/-! ## Admitted ledgers -/

theorem unique_of_sorted (h : sortedSet (records.map LineageRecord.recordId) = records.map LineageRecord.recordId) :
    (records.map LineageRecord.recordId).Nodup := by
  rw [← h]
  exact sortedSet_nodup _

theorem derived_closed (hunique : (records.map LineageRecord.recordId).Nodup) {id successor : Str}
    (h : successorOf (derivedOf records) id = some successor) : ∃ b, byId records successor = some b := by
  have hmem : (id, successor) ∈ derivedOf records := by
    obtain ⟨before, after, hsplit, -⟩ := List.lookup_eq_some_iff.mp h
    rw [hsplit]
    exact List.mem_append_right _ List.mem_cons_self
  obtain ⟨b, hb, -, hid⟩ := mem_derivedOf.mp hmem
  refine ⟨b, ?_⟩
  rw [← hid]
  exact byId_recordId hunique hb

/-- Precedence is one step of the derived successors. -/
theorem Precedes.derived (hnodup : ((derivedOf records).map Prod.fst).Nodup) {a b : LineageRecord}
    (h : Precedes records a b) : successorOf (derivedOf records) a.recordId = some b.recordId := by
  rw [lookup_eq_some hnodup]
  exact mem_derivedOf.mpr ⟨b, h.2.1, h.2.2, rfl⟩

theorem chains_of_links (hunique : (records.map LineageRecord.recordId).Nodup)
    (hlinks : ∀ record ∈ records, LinksOk records record)
    (hnodup : ((derivedOf records).map Prod.fst).Nodup) {fuel : Nat}
    (hwalks : ∀ start ∈ records, Walk.walk (successorOf (derivedOf records)) fuel [] start.recordId = some true) :
    Chains records := by
  have hinjective : ∀ a b c, Precedes records a b → Precedes records a c → b = c := by
    intro a b c hab hac
    have hsame := (hab.derived hnodup).symm.trans (hac.derived hnodup)
    rw [Option.some.injEq] at hsame
    exact eq_of_recordId hunique hab.2.1 hac.2.1 hsame
  constructor
  case unique => exact hunique
  case predecessorClosed =>
    intro b hb id hid
    obtain ⟨a, hfound, -⟩ := (hlinks b hb).predecessor id hid
    exact ⟨a, byId_eq_some hfound⟩
  case successorClosed =>
    intro a ha id hid
    obtain ⟨b, hfound, -⟩ := (hlinks a ha).successor id hid
    exact ⟨b, byId_eq_some hfound⟩
  case injective => exact hinjective
  case acyclic =>
    intro a hcycle
    have ha : a ∈ records := by
      obtain ⟨b, hab, -⟩ := Relation.TransGen.head'_iff.mp hcycle
      exact hab.1
    apply Walk.acyclic_of_walk (hwalks a ha)
    have hlift : Precedes records ≤
        Function.onFun (fun a b => successorOf (derivedOf records) a = some b) LineageRecord.recordId :=
      fun x y hxy => hxy.derived hnodup
    exact Relation.TransGen.lift LineageRecord.recordId hlift a a hcycle
  case reciprocal =>
    intro a ha b hb hdeclared
    obtain ⟨found, hfound, hnames, -⟩ := (hlinks a ha).successor b.recordId hdeclared
    rw [byId_recordId hunique hb, Option.some.injEq] at hfound
    subst hfound
    have hab : Precedes records a b := ⟨ha, hb, hnames⟩
    exact ⟨hab, fun c hac => hinjective a c b hac hab⟩
  case package =>
    intro a b hchain
    induction hchain with
    | rel a b hab =>
      obtain ⟨found, hfound, hpackage, -⟩ := (hlinks b hab.2.1).predecessor a.recordId hab.2.2
      rw [byId_recordId hunique hab.1, Option.some.injEq] at hfound
      subst hfound
      exact hpackage
    | refl a => rfl
    | symm a b _ ih => exact ih.symm
    | trans a b c _ _ ihab ihbc => exact ihab.trans ihbc

/-- Validation ends with one verdict whatever larger bound its walks get, and what it accepts is a
set of disjoint simple chains. -/
theorem ledger_chains (records : List LineageRecord) :
    ∃ verdict, (∀ fuel > records.length, validateLedger fuel records = some verdict) ∧
      (verdict = .ok () → Chains records) := by
  by_cases hsorted : sortedSet (records.map LineageRecord.recordId) = records.map LineageRecord.recordId
  · have hunique := unique_of_sorted hsorted
    cases hderive : deriveSuccessors records with
    | error e =>
      refine ⟨.error e, fun fuel _ => ?_, ?_⟩
      · simp only [validateLedger, hsorted, hderive, ne_eq, not_true_eq_false, if_false]
      · intro h
        cases h
    | ok derived =>
      obtain ⟨rfl, hlinks, hnodup⟩ := deriveSuccessors_ok hderive
      have hclosed : ∀ id successor, successorOf (derivedOf records) id = some successor →
          ∃ b, byId records successor = some b := fun id successor => derived_closed hunique
      have hlength : (derivedOf records).length < records.length + 1 :=
        Nat.lt_succ_of_le (List.length_filterMap_le _ _)
      obtain ⟨verdict, hverdict⟩ := followAll_ends hclosed hlength records
      have hvalidate : ∀ fuel > records.length, validateLedger fuel records = some verdict := by
        intro fuel hfuel
        simp only [validateLedger, hsorted, hderive, ne_eq, not_true_eq_false, if_false]
        exact hverdict fuel hfuel
      refine ⟨verdict, hvalidate, ?_⟩
      rintro rfl
      have hall := followAll_ok (hverdict (records.length + 1) le_rfl)
      apply @chains_of_links _ hunique hlinks hnodup (records.length + 1)
      intro start hstart
      have hfollow := hall start hstart
      rw [followSuccessors_walk hclosed] at hfollow
      obtain ⟨ended, hwalk, hended⟩ := Option.map_eq_some_iff.mp hfollow
      cases ended with
      | true => exact hwalk
      | false => cases hended
  · refine ⟨refuse "ledger records must have unique, sorted record_id values", fun fuel _ => ?_, ?_⟩
    · simp only [validateLedger, hsorted, ne_eq, not_false_eq_true, if_true]
    · intro h
      cases h

end McpTrust.Corpus
