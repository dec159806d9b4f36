import McpTrust.Walk
import McpTrust.Corpus.Lineage
import McpTrust.Launch.Sanitized

/-! # Which ledgers are accepted

Validation accepts the sorted ledgers whose records form disjoint simple chains, and no others.
A fresh record keeps a ledger accepted exactly when it opens a chain or follows the last record
of one.
-/

namespace McpTrust.Corpus

set_option autoImplicit false

open Python

variable {records grown : List LineageRecord} {record a b : LineageRecord}

def Sorted (records : List LineageRecord) : Prop :=
  sortedSet (records.map LineageRecord.recordId) = records.map LineageRecord.recordId

/-! ## Chains pass the check -/

/-- The record that names `a`, if any does, is the one its successor link declares. -/
theorem Chains.linksOk (h : Chains records) (hrecord : record ∈ records) : LinksOk records record := by
  constructor
  · intro id hid
    obtain ⟨a, ha, rfl⟩ := h.predecessorClosed record hrecord id hid
    have hprecedes : Precedes records a record := ⟨ha, hrecord, hid⟩
    refine ⟨a, byId_recordId h.unique ha, h.package a record (.rel _ _ hprecedes), ?_⟩
    intro successor hsuccessor
    obtain ⟨b, hb, rfl⟩ := h.successorClosed a ha successor hsuccessor
    rw [(h.reciprocal a ha b hb hsuccessor).2 record hprecedes]
  · intro id hid
    obtain ⟨b, hb, rfl⟩ := h.successorClosed record hrecord id hid
    have hprecedes := (h.reciprocal record hrecord b hb hid).1
    exact ⟨b, byId_recordId h.unique hb, hprecedes.2.2, (h.package record b (.rel _ _ hprecedes)).symm⟩

theorem checkPredecessor_of_links {derived : Successors} (hlinks : LinksOk records record)
    (hfresh : ∀ id ∈ record.lineage.predecessor, successorOf derived id = none) :
    checkPredecessor records derived record = .ok (derived ++ (derivedEntry record).toList) := by
  unfold checkPredecessor derivedEntry
  cases hpredecessor : record.lineage.predecessor with
  | none => simp
  | some id =>
    obtain ⟨a, hfound, hpackage, hdeclared⟩ := hlinks.predecessor id hpredecessor
    have hsuccessor : a.lineage.successor.any (fun successor => decide (successor ≠ record.recordId)) = false := by
      rw [Option.any_eq_false]
      intro successor hsuccessor
      simpa using hdeclared successor hsuccessor
    simp only [hfound, hpackage, hfresh id hpredecessor, hsuccessor, ne_eq, not_true_eq_false, if_false,
      Option.isSome_none, Bool.false_eq_true, Option.map_some, Option.toList_some]

theorem checkSuccessor_of_links (hlinks : LinksOk records record) : checkSuccessor records record = .ok () := by
  unfold checkSuccessor
  cases hsuccessor : record.lineage.successor with
  | none => rfl
  | some id =>
    obtain ⟨b, hfound, hnames, hpackage⟩ := hlinks.successor id hsuccessor
    simp [hfound, hnames, hpackage]

theorem Chains.nodup_derived (h : Chains records) : ((derivedOf records).map Prod.fst).Nodup := by
  have hsub : ∀ {rest : List LineageRecord}, rest.Sublist records → ((derivedOf rest).map Prod.fst).Nodup := by
    intro rest
    induction rest with
    | nil => exact fun _ => List.nodup_nil
    | cons record rest ih =>
      intro hrest
      have htail := ih ((List.sublist_cons_self record rest).trans hrest)
      cases hpredecessor : record.lineage.predecessor with
      | none =>
        have hentry : derivedEntry record = none := by rw [derivedEntry, hpredecessor]; rfl
        rwa [derivedOf, List.filterMap_cons_none hentry]
      | some id =>
        have hentry : derivedEntry record = some (id, record.recordId) := by
          rw [derivedEntry, hpredecessor]
          rfl
        rw [derivedOf, List.filterMap_cons_some hentry, List.map_cons, List.nodup_cons]
        refine ⟨?_, htail⟩
        intro hmem
        obtain ⟨⟨_, successor⟩, hin, rfl⟩ := List.mem_map.mp hmem
        obtain ⟨other, hother, hnames, -⟩ := mem_derivedOf.mp hin
        have hrecord := hrest.subset List.mem_cons_self
        have hother' := hrest.subset (List.mem_cons_of_mem record hother)
        obtain ⟨a, ha, hid⟩ := h.predecessorClosed record hrecord _ hpredecessor
        have hsame := h.injective a record other ⟨ha, hrecord, by rw [hpredecessor, hid]⟩
          ⟨ha, hother', by rw [hnames, hid]⟩
        -- the records have distinct ids, so none stands twice
        have hnodup := (h.unique.of_map).sublist hrest
        exact (List.nodup_cons.mp hnodup).1 (hsame ▸ hother)
  exact hsub (List.Sublist.refl records)

theorem foldlM_of_links {rest passed : List LineageRecord} (hlinks : ∀ record ∈ rest, LinksOk records record)
    (hnodup : ((derivedOf (passed ++ rest)).map Prod.fst).Nodup) :
    rest.foldlM (checkRecord records) (derivedOf passed) = .ok (derivedOf (passed ++ rest)) := by
  induction rest generalizing passed with
  | nil =>
    rw [List.append_nil]
    rfl
  | cons record rest ih =>
    have hentry : derivedOf (passed ++ [record]) = derivedOf passed ++ (derivedEntry record).toList := by
      rw [derivedOf, derivedOf, List.filterMap_append]
      cases hentry : derivedEntry record <;> simp [hentry]
    have hsplit : passed ++ record :: rest = (passed ++ [record]) ++ rest := by simp
    have hfresh : ∀ id ∈ record.lineage.predecessor, successorOf (derivedOf passed) id = none := by
      intro id hid
      apply List.lookup_eq_none_iff.mpr
      intro entry hin
      rw [bne_iff_ne]
      rintro rfl
      rw [derivedOf, List.filterMap_append, List.map_append, List.nodup_append] at hnodup
      apply hnodup.2.2 entry.1 (List.mem_map_of_mem hin) entry.1 _ rfl
      have hrecord : derivedEntry record = some (entry.1, record.recordId) := by
        rw [derivedEntry, Option.mem_def.mp hid]
        rfl
      rw [List.filterMap_cons_some hrecord]
      exact List.mem_cons_self
    have hcheck : checkRecord records (derivedOf passed) record = .ok (derivedOf (passed ++ [record])) := by
      unfold checkRecord
      rw [checkPredecessor_of_links (hlinks record List.mem_cons_self) hfresh,
        checkSuccessor_of_links (hlinks record List.mem_cons_self), hentry]
      rfl
    rw [List.foldlM_cons, hcheck, hsplit]
    rw [hsplit] at hnodup
    exact ih (fun other hother => hlinks other (List.mem_cons_of_mem _ hother)) hnodup

theorem Chains.deriveSuccessors (h : Chains records) : deriveSuccessors records = .ok (derivedOf records) := by
  have hfold := @foldlM_of_links records records [] (fun record hrecord => h.linksOk hrecord)
  rw [List.nil_append] at hfold
  exact hfold h.nodup_derived

/-- A step of the derived successors is a step between records. -/
theorem precedes_of_derived (h : Chains records) {id successor : Str}
    (hstep : successorOf (derivedOf records) id = some successor) :
    ∃ a b, a.recordId = id ∧ b.recordId = successor ∧ Precedes records a b := by
  obtain ⟨b, hb, hnames, rfl⟩ := mem_derivedOf.mp ((lookup_eq_some h.nodup_derived).mp hstep)
  obtain ⟨a, ha, rfl⟩ := h.predecessorClosed b hb id hnames
  exact ⟨a, b, rfl, rfl, ha, hb, hnames⟩

theorem transGen_of_derived (h : Chains records) {id successor : Str}
    (hpath : Relation.TransGen (fun a b => successorOf (derivedOf records) a = some b) id successor) :
    ∃ a b, a.recordId = id ∧ b.recordId = successor ∧ Relation.TransGen (Precedes records) a b := by
  induction hpath with
  | single hstep =>
    obtain ⟨a, b, ha, hb, hab⟩ := precedes_of_derived h hstep
    exact ⟨a, b, ha, hb, .single hab⟩
  | tail _ hstep ih =>
    obtain ⟨a, b, ha, hb, hab⟩ := ih
    obtain ⟨b', c, hb', hc, hbc⟩ := precedes_of_derived h hstep
    obtain ⟨_, _, -, hmem, -⟩ := Relation.TransGen.tail'_iff.mp hab
    have hsame := eq_of_recordId h.unique hbc.1 hmem (hb'.trans hb.symm)
    exact ⟨a, c, ha, hc, hab.tail (hsame ▸ hbc)⟩

theorem Chains.noCycle (h : Chains records) (id : Str) :
    ¬Relation.TransGen (fun a b => successorOf (derivedOf records) a = some b) id id := by
  intro hcycle
  obtain ⟨a, b, ha, hb, hab⟩ := transGen_of_derived h hcycle
  obtain ⟨_, hfirst, -⟩ := Relation.TransGen.head'_iff.mp hab
  obtain ⟨_, -, hlast⟩ := Relation.TransGen.tail'_iff.mp hab
  have hsame := eq_of_recordId h.unique hfirst.1 hlast.2.1 (ha.trans hb.symm)
  rw [← hsame] at hab
  exact h.acyclic a hab

theorem Chains.follow (h : Chains records) {fuel : Nat} (hfuel : records.length < fuel) (start : LineageRecord) :
    followSuccessors records (derivedOf records) fuel [] start = some (.ok ()) := by
  rw [followSuccessors_walk fun id successor => derived_closed h.unique]
  have hdomain : ∀ id successor, successorOf (derivedOf records) id = some successor →
      id ∈ (derivedOf records).map Prod.fst := by
    intro id successor hstep
    exact List.mem_map_of_mem ((lookup_eq_some h.nodup_derived).mp hstep)
  have hlength : (derivedOf records).length ≤ records.length := List.length_filterMap_le _ _
  obtain ⟨ended, hended⟩ := @Walk.walk_ends _ _ _ _ hdomain fuel [] start.recordId List.nodup_nil
    (List.nil_subset _) (by rw [List.length_map, List.length_nil]; omega)
  rw [hended]
  cases ended with
  | true => rfl
  | false =>
    have hseen : ∀ s ∈ ([] : List Str), Relation.TransGen
        (fun a b => successorOf (derivedOf records) a = some b) s start.recordId := by
      intro s hs
      cases hs
    obtain ⟨id, hcycle⟩ := Walk.cycle_of_walk hseen hended
    exact absurd hcycle (h.noCycle id)

theorem followAll_of_chains (h : Chains records) {fuel : Nat} (hfuel : records.length < fuel)
    (starts : List LineageRecord) : followAll records (derivedOf records) fuel starts = some (.ok ()) := by
  induction starts with
  | nil => rfl
  | cons start rest ih =>
    rw [followAll, h.follow hfuel start]
    exact ih

theorem validateLedger_of_chains (hsorted : Sorted records) (h : Chains records) {fuel : Nat}
    (hfuel : records.length < fuel) : validateLedger fuel records = some (.ok ()) := by
  have hids : sortedSet (records.map LineageRecord.recordId) = records.map LineageRecord.recordId := hsorted
  simp only [validateLedger, hids, h.deriveSuccessors, ne_eq, not_true_eq_false, if_false]
  exact followAll_of_chains h hfuel records

theorem chains_of_validateLedger {fuel : Nat} (h : validateLedger fuel records = some (.ok ())) :
    Sorted records ∧ Chains records := by
  unfold validateLedger at h
  by_cases hsorted : Sorted records
  · have hids : sortedSet (records.map LineageRecord.recordId) = records.map LineageRecord.recordId := hsorted
    have hunique := unique_of_sorted hids
    refine ⟨hsorted, ?_⟩
    simp only [hids, ne_eq, not_true_eq_false, if_false] at h
    cases hderive : deriveSuccessors records with
    | error e =>
      rw [hderive] at h
      cases h
    | ok derived =>
      rw [hderive] at h
      obtain ⟨rfl, hlinks, hnodup⟩ := deriveSuccessors_ok hderive
      apply @chains_of_links _ hunique hlinks hnodup fuel
      intro start hstart
      have hfollow := followAll_ok h start hstart
      rw [followSuccessors_walk fun id successor => derived_closed hunique] at hfollow
      obtain ⟨ended, hwalk, hended⟩ := Option.map_eq_some_iff.mp hfollow
      cases ended with
      | true => exact hwalk
      | false => cases hended
  · have hids : ¬sortedSet (records.map LineageRecord.recordId) = records.map LineageRecord.recordId := hsorted
    simp only [hids, ne_eq, not_false_eq_true, if_true] at h
    cases h

/-- The validation accepts. -/
def Accepts (records : List LineageRecord) : Prop := ∃ fuel, validateLedger fuel records = some (.ok ())

theorem accepts_iff : Accepts records ↔ Sorted records ∧ Chains records := by
  constructor
  · rintro ⟨fuel, h⟩
    exact chains_of_validateLedger h
  · rintro ⟨hsorted, hchains⟩
    exact ⟨records.length + 1, validateLedger_of_chains hsorted hchains (Nat.lt_succ_self _)⟩

/-! ## One more record -/

/-- `record` names the last record of a chain of its own package. -/
def FollowsLast (records : List LineageRecord) (record : LineageRecord) : Prop :=
  ∃ a ∈ records, record.lineage.predecessor = some a.recordId ∧ a.packageId = record.packageId ∧
    ∀ b ∈ records, b.lineage.predecessor ≠ some a.recordId

/-- A ledger with one more record, whose id is fresh and which declares no successor. -/
structure Grows (records : List LineageRecord) (record : LineageRecord) (grown : List LineageRecord) : Prop where
  perm : grown.Perm (record :: records)
  fresh : ∀ other ∈ records, other.recordId ≠ record.recordId
  last : record.lineage.successor = none

theorem Grows.mem (h : Grows records record grown) : a ∈ grown ↔ a = record ∨ a ∈ records := by
  rw [h.perm.mem_iff, List.mem_cons]

theorem Grows.unique (h : Grows records record grown) (hchains : Chains records) :
    (grown.map LineageRecord.recordId).Nodup := by
  rw [(h.perm.map LineageRecord.recordId).nodup_iff, List.map_cons, List.nodup_cons]
  refine ⟨?_, hchains.unique⟩
  intro hmem
  obtain ⟨other, hother, hid⟩ := List.mem_map.mp hmem
  exact h.fresh other hother hid

/-- No record of the ledger names the new one. -/
theorem Grows.unnamed (h : Grows records record grown) (hchains : Chains records) (hb : b ∈ records) :
    b.lineage.predecessor ≠ some record.recordId := by
  intro hnames
  obtain ⟨a, ha, hid⟩ := hchains.predecessorClosed b hb _ hnames
  exact h.fresh a ha hid

/-- The only new step is the one to the new record. -/
theorem Grows.precedes_iff (h : Grows records record grown) (hchains : Chains records)
    (hself : record.lineage.predecessor ≠ some record.recordId) :
    Precedes grown a b ↔ Precedes records a b ∨ a ∈ records ∧ b = record ∧ record.lineage.predecessor = some a.recordId := by
  constructor
  · rintro ⟨ha, hb, hnames⟩
    obtain rfl | hb := h.mem.mp hb
    · obtain rfl | ha := h.mem.mp ha
      · exact absurd hnames hself
      · exact .inr ⟨ha, rfl, hnames⟩
    · obtain rfl | ha := h.mem.mp ha
      · exact absurd hnames (h.unnamed hchains hb)
      · exact .inl ⟨ha, hb, hnames⟩
  · rintro (⟨ha, hb, hnames⟩ | ⟨ha, rfl, hnames⟩)
    · exact ⟨h.mem.mpr (.inr ha), h.mem.mpr (.inr hb), hnames⟩
    · exact ⟨h.mem.mpr (.inr ha), h.mem.mpr (.inl rfl), hnames⟩

theorem follows_of_chains (h : Grows records record grown) (hgrown : Chains grown) {id : Str}
    (hpredecessor : record.lineage.predecessor = some id) : FollowsLast records record := by
  have hrecord : record ∈ grown := h.mem.mpr (.inl rfl)
  obtain ⟨a, ha, rfl⟩ := hgrown.predecessorClosed record hrecord id hpredecessor
  have hprecedes : Precedes grown a record := ⟨ha, hrecord, hpredecessor⟩
  obtain rfl | ha := h.mem.mp ha
  · exact absurd (.single hprecedes) (hgrown.acyclic a)
  · refine ⟨a, ha, hpredecessor, hgrown.package a record (.rel _ _ hprecedes), ?_⟩
    intro b hb hnames
    have hsame := hgrown.injective a b record ⟨hprecedes.1, h.mem.mpr (.inr hb), hnames⟩ hprecedes
    exact h.fresh b hb (congrArg LineageRecord.recordId hsame)

/-- The record opens a chain or follows the last record of one. -/
def Placed (records : List LineageRecord) (record : LineageRecord) : Prop :=
  record.lineage.predecessor = none ∨ FollowsLast records record

theorem Placed.no_self (hplace : Placed records record) (h : Grows records record grown) :
    record.lineage.predecessor ≠ some record.recordId := by
  intro hself
  obtain hnone | ⟨a, ha, hnames, -⟩ := hplace
  · rw [hnone] at hself
    cases hself
  · rw [hnames, Option.some.injEq] at hself
    exact h.fresh a ha hself

/-- What the new record names is in its package and has no other follower. -/
theorem Placed.named_last (hplace : Placed records record) (hchains : Chains records) (ha : a ∈ records)
    (hnames : record.lineage.predecessor = some a.recordId) :
    a.packageId = record.packageId ∧ ∀ b, ¬Precedes records a b := by
  obtain hnone | ⟨last, hlast, hnames', hpackage, hfree⟩ := hplace
  · rw [hnone] at hnames
    cases hnames
  · rw [hnames', Option.some.injEq] at hnames
    obtain rfl := eq_of_recordId hchains.unique hlast ha hnames
    exact ⟨hpackage, fun b hb => hfree b hb.2.1 hb.2.2⟩

theorem path_grown (h : Grows records record grown) (hchains : Chains records) (hplace : Placed records record)
    (hpath : Relation.TransGen (Precedes grown) a b) :
    Relation.TransGen (Precedes records) a b ∨ b = record ∧ a ∈ records := by
  have hself := hplace.no_self h
  induction hpath with
  | single hstep =>
    obtain hstep | ⟨ha, rfl, -⟩ := (h.precedes_iff hchains hself).mp hstep
    · exact .inl (.single hstep)
    · exact .inr ⟨rfl, ha⟩
  | tail _ hstep ih =>
    obtain hstep | ⟨hb, rfl, -⟩ := (h.precedes_iff hchains hself).mp hstep
    · obtain hpath | ⟨rfl, -⟩ := ih
      · exact .inl (hpath.tail hstep)
      · exact absurd rfl (h.fresh _ hstep.1)
    · obtain hpath | ⟨rfl, -⟩ := ih
      · obtain ⟨_, hfirst, -⟩ := Relation.TransGen.head'_iff.mp hpath
        exact .inr ⟨rfl, hfirst.1⟩
      · exact absurd rfl (h.fresh _ hb)

theorem chains_grown (h : Grows records record grown) (hchains : Chains records)
    (hplace : Placed records record) : Chains grown := by
  have hself := hplace.no_self h
  have hsteps : ∀ {a b}, Precedes grown a b ↔ Precedes records a b ∨
      a ∈ records ∧ b = record ∧ record.lineage.predecessor = some a.recordId := h.precedes_iff hchains hself
  constructor
  case unique => exact h.unique hchains
  case predecessorClosed =>
    intro b hb id hid
    obtain rfl | hb := h.mem.mp hb
    · obtain hnone | ⟨a, ha, hnames, -⟩ := hplace
      · rw [hnone] at hid
        cases hid
      · rw [hnames, Option.mem_some_iff] at hid
        exact ⟨a, h.mem.mpr (.inr ha), hid⟩
    · obtain ⟨a, ha, hid⟩ := hchains.predecessorClosed b hb id hid
      exact ⟨a, h.mem.mpr (.inr ha), hid⟩
  case successorClosed =>
    intro a ha id hid
    obtain rfl | ha := h.mem.mp ha
    · rw [h.last] at hid
      cases hid
    · obtain ⟨b, hb, hid⟩ := hchains.successorClosed a ha id hid
      exact ⟨b, h.mem.mpr (.inr hb), hid⟩
  case injective =>
    intro a b c hab hac
    obtain hab | ⟨ha, rfl, hnames⟩ := hsteps.mp hab
    · obtain hac | ⟨ha, rfl, hnames⟩ := hsteps.mp hac
      · exact hchains.injective a b c hab hac
      · exact absurd hab ((hplace.named_last hchains ha hnames).2 b)
    · obtain hac | ⟨-, rfl, -⟩ := hsteps.mp hac
      · exact absurd hac ((hplace.named_last hchains ha hnames).2 c)
      · rfl
  case acyclic =>
    intro a hcycle
    obtain hcycle | ⟨rfl, ha⟩ := path_grown h hchains hplace hcycle
    · exact hchains.acyclic a hcycle
    · exact h.fresh a ha rfl
  case reciprocal =>
    intro a ha b hb hdeclared
    obtain rfl | ha := h.mem.mp ha
    · rw [h.last] at hdeclared
      cases hdeclared
    · obtain ⟨b', hb', hid⟩ := hchains.successorClosed a ha b.recordId hdeclared
      have hmem : b ∈ records := by
        obtain rfl | hb := h.mem.mp hb
        · exact absurd hid (h.fresh b' hb')
        · exact hb
      obtain ⟨hab, honly⟩ := hchains.reciprocal a ha b hmem hdeclared
      refine ⟨hsteps.mpr (.inl hab), fun c hac => ?_⟩
      obtain hac | ⟨ha, rfl, hnames⟩ := hsteps.mp hac
      · exact honly c hac
      · exact absurd hab ((hplace.named_last hchains ha hnames).2 b)
  case package =>
    intro a b hchain
    induction hchain with
    | rel a b hab =>
      obtain hab | ⟨ha, rfl, hnames⟩ := hsteps.mp hab
      · exact hchains.package a b (.rel _ _ hab)
      · exact (hplace.named_last hchains ha hnames).1
    | refl a => rfl
    | symm a b _ ih => exact ih.symm
    | trans a b c _ _ ihab ihbc => exact ihab.trans ihbc

end McpTrust.Corpus
