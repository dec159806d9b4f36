import McpTrust.Launch.Readiness
import McpTrust.Corpus.Records

/-! # Promotions of corpus records

Every promotion reads a record set from a file and writes a new one. Over any sequence of them
a record keeps its identity and its evidence; its status and its caveats follow from the calls
that name it or pass it over, and it is named once at most.
-/

namespace McpTrust.Corpus

set_option autoImplicit false

open Python

/-- The arguments of one call of the script. -/
structure Promotion where
  promoteIds : List Str
  promotionRef : Str
  deferUnpromoted : Bool := false
  deferReason : Str := u "not selected for this reviewed promotion cohort"

inductive PromotionError
  | noPromoteIds
  | unreadable (error : PyErr)
  | duplicateIds
  | missingIds (ids : List Str)
  | notScannedTemp (id : Str) (status : CorpusRecordStatus)
  | withoutReceipt (id : Str)
  | invalidSet
  | unwritable (error : PyErr)
  deriving DecidableEq

def appendUnique (items : List Str) (value : Str) : List Str := if value ∈ items then items else items ++ [value]

def promotionNote (promotionRef : Str) : Str := u "Review-only promotion artifact: " ++ promotionRef ++ u "."

def deferNote (reason : Str) : Str := u "Deferred: " ++ reason ++ u "."

/-- `record.model_copy(update=…)`, which runs no validator. -/
def PublicCorpusRecord.marked (record : PublicCorpusRecord) (status : CorpusRecordStatus) (note : Str) :
    PublicCorpusRecord :=
  { record with status := status, publishCaveats := appendUnique record.publishCaveats note }

def promoteRecord (record : PublicCorpusRecord) (promotionRef : Str) : Except PromotionError PublicCorpusRecord :=
  if record.status ≠ .scannedTemp then .error (.notScannedTemp record.recordId record.status)
  else if record.receipt = none then .error (.withoutReceipt record.recordId)
  else .ok (record.marked .published (promotionNote promotionRef))

def deferRecord (record : PublicCorpusRecord) (reason : Str) : PublicCorpusRecord :=
  record.marked .deferred (deferNote reason)

/-- The branch of the loop for one record. -/
def promoteOne (call : Promotion) (record : PublicCorpusRecord) : Except PromotionError PublicCorpusRecord :=
  if record.recordId ∈ call.promoteIds then promoteRecord record call.promotionRef
  else if call.deferUnpromoted then .ok (deferRecord record call.deferReason)
  else .ok record

/-- The ids to promote that no record has, as the message lists them. -/
def missingIds (call : Promotion) (records : List PublicCorpusRecord) : List Str :=
  sortedSet (call.promoteIds.filter fun id => decide (id ∉ recordIds records))

def promoteRecordSet (ints : IntField) (interp : Interpreter) (content : Bytes) (call : Promotion) :
    Except PromotionError CorpusRecordSet :=
  if call.promoteIds = [] then .error .noPromoteIds
  else
    match loadCorpusRecords ints interp content with
    | .error e => .error (.unreadable e)
    | .ok set =>
      if ¬(recordIds set.records).Nodup then .error .duplicateIds
      else if missingIds call set.records ≠ [] then .error (.missingIds (missingIds call set.records))
      else do
        let promoted ← set.records.mapM (promoteOne call)
        -- a record that is passed as a model is not validated again
        if (recordIds promoted).Nodup then .ok { set with records := promoted } else .error .invalidSet

/-- `main(argv)`, as the file it writes. -/
def promoteFile (ints : IntField) (interp : Interpreter) (content : Bytes) (call : Promotion) :
    Except PromotionError Bytes := do
  let set ← promoteRecordSet ints interp content call
  match writeCorpusRecords set with
  | .error e => .error (.unwritable e)
  | .ok written => .ok written

/-- Each call reads the file the one before wrote. -/
def runPromotions (ints : IntField) (interp : Interpreter) (content : Bytes) (calls : List Promotion) :
    Except PromotionError Bytes := calls.foldlM (promoteFile ints interp) content

/-- `published_without_receipts` of the operator summary. -/
def publishedWithoutReceipts (set : CorpusRecordSet) : List Str :=
  recordIds (set.records.filter fun record => decide (record.status = .published ∧ record.receipt = none))

/-! ## One record over a run -/

section Bind

variable {ε α β : Type}

theorem exceptBind_ok {x : Except ε α} {f : α → Except ε β} {b : β} :
    (x >>= f) = .ok b ↔ ∃ a, x = .ok a ∧ f a = .ok b := by
  cases x with
  | error e => simp [bind, Except.bind]
  | ok a => simp [bind, Except.bind]

theorem forall₂_of_mapM {f : α → Except ε β} {items : List α} {results : List β} (h : items.mapM f = .ok results) :
    List.Forall₂ (fun a b => f a = .ok b) items results := by
  induction items generalizing results with
  | nil =>
    cases h
    exact .nil
  | cons a items ih =>
    rw [List.mapM_cons] at h
    obtain ⟨b, hb, h⟩ := exceptBind_ok.mp h
    obtain ⟨rest, hrest, h⟩ := exceptBind_ok.mp h
    cases h
    exact .cons hb (ih hrest)

theorem forall₂_comp {γ : Type} {R : α → β → Prop} {S : β → γ → Prop} {T : α → γ → Prop}
    (hcomp : ∀ a b c, R a b → S b c → T a c) {as : List α} {bs : List β} {cs : List γ}
    (hab : List.Forall₂ R as bs) (hbc : List.Forall₂ S bs cs) : List.Forall₂ T as cs := by
  induction hab generalizing cs with
  | nil =>
    cases hbc
    exact .nil
  | cons hR _ ih =>
    cases hbc with
    | cons hS hrest => exact .cons (hcomp _ _ _ hR hS) (ih hrest)

end Bind

namespace Promotion

def promotes (call : Promotion) (id : Str) : Bool := decide (id ∈ call.promoteIds)

def defers (call : Promotion) (id : Str) : Bool := !call.promotes id && call.deferUnpromoted

/-- The caveat the call adds to the record. -/
def note (call : Promotion) (id : Str) : Option Str :=
  if call.promotes id then some (promotionNote call.promotionRef)
  else if call.deferUnpromoted then some (deferNote call.deferReason)
  else none

/-- The texts of the call are made of characters. -/
def Clean (call : Promotion) : Prop := Refresh.Clean call.promotionRef ∧ Refresh.Clean call.deferReason

end Promotion

variable {call : Promotion} {calls : List Promotion} {before after record : PublicCorpusRecord}

/-- The status the calls leave. -/
def statusAfter (calls : List Promotion) (before : PublicCorpusRecord) : CorpusRecordStatus :=
  if calls.any fun call => call.defers before.recordId then .deferred
  else if calls.any fun call => call.promotes before.recordId then .published
  else before.status

/-- The caveats the calls leave. -/
def caveatsAfter (calls : List Promotion) (before : PublicCorpusRecord) : List Str :=
  (calls.filterMap fun call => call.note before.recordId).foldl appendUnique before.publishCaveats

/-- A call names the record while it is scanned and holds its receipt; no earlier call touched it
and no later one names it. -/
def NamedOnce (calls : List Promotion) (before : PublicCorpusRecord) : Prop :=
  ∀ earlier call later, calls = earlier ++ call :: later → call.promotes before.recordId = true →
    before.status = .scannedTemp ∧ before.receipt ≠ none ∧
      (∀ c ∈ earlier, c.note before.recordId = none) ∧ ∀ c ∈ later, c.promotes before.recordId = false

/-- What the calls make of a record. -/
structure Lived (calls : List Promotion) (before after : PublicCorpusRecord) : Prop where
  record : after = { before with status := statusAfter calls before, publishCaveats := caveatsAfter calls before }
  once : NamedOnce calls before

theorem promoteOne_cases (h : promoteOne call before = .ok after) :
    (call.promotes before.recordId = true ∧ before.status = .scannedTemp ∧ before.receipt ≠ none ∧
      after = before.marked .published (promotionNote call.promotionRef)) ∨
    (call.defers before.recordId = true ∧ after = before.marked .deferred (deferNote call.deferReason)) ∨
    (call.promotes before.recordId = false ∧ call.deferUnpromoted = false ∧ after = before) := by
  unfold promoteOne promoteRecord at h
  split_ifs at h with hnamed hstatus hreceipt hdefer
  · cases h
    exact .inl ⟨decide_eq_true hnamed, not_not.mp hstatus, hreceipt, rfl⟩
  · cases h
    have hnot : call.promotes before.recordId = false := decide_eq_false hnamed
    exact .inr (.inl ⟨by rw [Promotion.defers, hnot, hdefer]; rfl, rfl⟩)
  · cases h
    exact .inr (.inr ⟨decide_eq_false hnamed, Bool.eq_false_iff.mpr hdefer, rfl⟩)

theorem NamedOnce.none_of_status (h : NamedOnce calls record) (hstatus : record.status ≠ .scannedTemp) :
    ∀ call ∈ calls, call.promotes record.recordId = false := by
  intro call hcall
  obtain ⟨earlier, later, hsplit⟩ := List.append_of_mem hcall
  by_contra hnamed
  exact hstatus (h earlier call later hsplit (Bool.eq_true_of_not_eq_false hnamed)).1

/-- A record that was marked is named by no later call. -/
theorem namedOnce_cons_marked {status : CorpusRecordStatus} {note : Str} (hstatus : status ≠ .scannedTemp)
    (hfirst : call.promotes before.recordId = true → before.status = .scannedTemp ∧ before.receipt ≠ none)
    (h : NamedOnce calls (before.marked status note)) : NamedOnce (call :: calls) before := by
  have hnone : ∀ c ∈ calls, c.promotes before.recordId = false := h.none_of_status hstatus
  intro earlier named later hsplit hnamed
  cases earlier with
  | nil =>
    obtain ⟨rfl, rfl⟩ := List.cons.inj hsplit
    obtain ⟨hscanned, hreceipt⟩ := hfirst hnamed
    exact ⟨hscanned, hreceipt, fun c hc => absurd hc List.not_mem_nil, hnone⟩
  | cons first earlier =>
    obtain ⟨rfl, hrest⟩ := List.cons.inj hsplit
    have hmem : named ∈ calls := hrest ▸ List.mem_append_right _ List.mem_cons_self
    exact absurd hnamed (Bool.eq_false_iff.mp (hnone named hmem))

theorem statusAfter_marked (calls : List Promotion) (record : PublicCorpusRecord) (status : CorpusRecordStatus)
    (note : Str) : statusAfter calls (record.marked status note) =
      if calls.any fun call => call.defers record.recordId then .deferred
      else if calls.any fun call => call.promotes record.recordId then .published
      else status := rfl

theorem caveatsAfter_marked (calls : List Promotion) (record : PublicCorpusRecord) (status : CorpusRecordStatus)
    (note : Str) : caveatsAfter calls (record.marked status note) =
      (calls.filterMap fun call => call.note record.recordId).foldl appendUnique
        (appendUnique record.publishCaveats note) := rfl

theorem caveatsAfter_cons {note : Str} (hnote : call.note record.recordId = some note) (status : CorpusRecordStatus) :
    caveatsAfter (call :: calls) record = caveatsAfter calls (record.marked status note) := by
  have hnotes : (call :: calls).filterMap (fun call => call.note record.recordId) =
      note :: calls.filterMap fun call => call.note record.recordId := List.filterMap_cons_some hnote
  rw [caveatsAfter_marked, caveatsAfter, hnotes, List.foldl_cons]

/-- The run goes on from a record that was marked. -/
theorem record_of_marked {status : CorpusRecordStatus} {note : Str} (hnote : call.note before.recordId = some note)
    (hstatus : statusAfter (call :: calls) before = statusAfter calls (before.marked status note))
    (h : Lived calls (before.marked status note) after) :
    after = { before with
      status := statusAfter (call :: calls) before, publishCaveats := caveatsAfter (call :: calls) before } := by
  rw [h.record, hstatus, caveatsAfter_cons hnote status]
  rfl

theorem Lived.cons_promoted (hnamed : call.promotes before.recordId = true) (hscanned : before.status = .scannedTemp)
    (hreceipt : before.receipt ≠ none)
    (h : Lived calls (before.marked .published (promotionNote call.promotionRef)) after) :
    Lived (call :: calls) before after := by
  have hdefers : call.defers before.recordId = false := by
    rw [Promotion.defers, hnamed]
    rfl
  have hnote : call.note before.recordId = some (promotionNote call.promotionRef) := if_pos hnamed
  refine ⟨record_of_marked hnote ?_ h, ?_⟩
  · rw [statusAfter_marked]
    simp only [statusAfter, List.any_cons, hdefers, hnamed, Bool.false_or, Bool.true_or, if_true, ite_self]
  · have hstatus : CorpusRecordStatus.published ≠ .scannedTemp := by decide
    exact namedOnce_cons_marked hstatus (fun _ => ⟨hscanned, hreceipt⟩) h.once

theorem Lived.cons_deferred (hdefers : call.defers before.recordId = true)
    (h : Lived calls (before.marked .deferred (deferNote call.deferReason)) after) :
    Lived (call :: calls) before after := by
  have hsplit := hdefers
  rw [Promotion.defers, Bool.and_eq_true, Bool.not_eq_true'] at hsplit
  obtain ⟨hnamed, hdefer⟩ := hsplit
  have hstatus : CorpusRecordStatus.deferred ≠ .scannedTemp := by decide
  have hnone := h.once.none_of_status hstatus
  have hnote : call.note before.recordId = some (deferNote call.deferReason) := by
    rw [Promotion.note, hnamed, hdefer]
    rfl
  refine ⟨record_of_marked hnote ?_ h, namedOnce_cons_marked hstatus (fun hpromotes => ?_) h.once⟩
  · -- no later call names the record, so it stays deferred
    have hlater : (calls.any fun call => call.promotes before.recordId) = false := by
      rw [List.any_eq_false]
      intro c hc
      rw [Bool.not_eq_true]
      exact hnone c hc
    rw [statusAfter_marked]
    simp only [statusAfter, List.any_cons, hdefers, hlater, Bool.true_or, if_true, Bool.false_eq_true, if_false,
      ite_self]
  · rw [hnamed] at hpromotes
    cases hpromotes

theorem Lived.cons_untouched (hnamed : call.promotes before.recordId = false) (hdefer : call.deferUnpromoted = false)
    (h : Lived calls before after) : Lived (call :: calls) before after := by
  have hnote : call.note before.recordId = none := by
    rw [Promotion.note, hnamed, hdefer]
    rfl
  have hdefers : call.defers before.recordId = false := by
    rw [Promotion.defers, hdefer, Bool.and_false]
  refine ⟨?_, ?_⟩
  · rw [h.record]
    simp only [statusAfter, caveatsAfter, List.any_cons, hdefers, hnamed, Bool.false_or, List.filterMap_cons, hnote]
  · intro earlier named later hsplit hnamed'
    cases earlier with
    | nil =>
      obtain ⟨rfl, rfl⟩ := List.cons.inj hsplit
      rw [hnamed] at hnamed'
      cases hnamed'
    | cons first earlier =>
      obtain ⟨rfl, hrest⟩ := List.cons.inj hsplit
      obtain ⟨hscanned, hreceipt, hearlier, hlater⟩ := h.once earlier named later hrest hnamed'
      exact ⟨hscanned, hreceipt, List.forall_mem_cons.mpr ⟨hnote, hearlier⟩, hlater⟩

theorem lived_nil (record : PublicCorpusRecord) : Lived [] record record where
  record := rfl
  once earlier call later hsplit := by simp at hsplit

theorem lived_cons {middle : PublicCorpusRecord} (hstep : promoteOne call before = .ok middle)
    (h : Lived calls middle after) : Lived (call :: calls) before after := by
  obtain ⟨hnamed, hscanned, hreceipt, rfl⟩ | ⟨hdefers, rfl⟩ | ⟨hnamed, hdefer, rfl⟩ := promoteOne_cases hstep
  · exact h.cons_promoted hnamed hscanned hreceipt
  · exact h.cons_deferred hdefers
  · exact h.cons_untouched hnamed hdefer

/-! ## Validity and texts -/

theorem mem_appendUnique {items : List Str} {value s : Str} (h : s ∈ appendUnique items value) : s ∈ items ∨ s = value := by
  unfold appendUnique at h
  split_ifs at h with hin
  · exact .inl h
  · obtain h | h := List.mem_append.mp h
    · exact .inl h
    · exact .inr (List.mem_singleton.mp h)

theorem prefix_appendUnique (items : List Str) (value : Str) : items <+: appendUnique items value := by
  unfold appendUnique
  split_ifs
  · exact List.prefix_rfl
  · exact List.prefix_append _ _

theorem nodup_appendUnique {items : List Str} {value : Str} (h : items.Nodup) : (appendUnique items value).Nodup := by
  unfold appendUnique
  split_ifs with hin
  · exact h
  · rw [← List.concat_eq_append]
    exact h.concat hin

theorem prefix_caveatsAfter (calls : List Promotion) (record : PublicCorpusRecord) :
    record.publishCaveats <+: caveatsAfter calls record := by
  unfold caveatsAfter
  generalize record.publishCaveats = items
  induction calls.filterMap (fun call => call.note record.recordId) generalizing items with
  | nil => exact List.prefix_rfl
  | cons value notes ih => exact (prefix_appendUnique items value).trans (ih _)

theorem nodup_caveatsAfter (calls : List Promotion) (h : record.publishCaveats.Nodup) :
    (caveatsAfter calls record).Nodup := by
  unfold caveatsAfter
  revert h
  generalize record.publishCaveats = items
  intro h
  induction calls.filterMap (fun call => call.note record.recordId) generalizing items with
  | nil => exact h
  | cons value notes ih => exact ih _ (nodup_appendUnique h)

theorem clean_append {s t : Str} (hs : Refresh.Clean s) (ht : Refresh.Clean t) : Refresh.Clean (s ++ t) := by
  intro c hc
  obtain hc | hc := List.mem_append.mp hc
  · exact hs c hc
  · exact ht c hc

theorem clean_marked {status : CorpusRecordStatus} {note : Str} (h : before.Clean) (hnote : Refresh.Clean note) :
    (before.marked status note).Clean := by
  intro s hs
  simp only [PublicCorpusRecord.texts, PublicCorpusRecord.marked, List.mem_append] at hs
  have hold : s ∈ before.texts → Refresh.Clean s := h s
  simp only [PublicCorpusRecord.texts, List.mem_append] at hold
  obtain hs | hs | hs | hs | hs := hs
  · exact hold (.inl hs)
  · exact hold (.inr (.inl hs))
  · exact hold (.inr (.inr (.inl hs)))
  · obtain hs | rfl := mem_appendUnique hs
    · exact hold (.inr (.inr (.inr (.inl hs))))
    · exact hnote
  · exact hold (.inr (.inr (.inr (.inr hs))))

theorem valid_marked {status : CorpusRecordStatus} {note : Str} (h : before.valid = true)
    (hreceipt : status = .published → before.receipt ≠ none) : (before.marked status note).valid = true := by
  simp only [PublicCorpusRecord.valid, validBoundaries, PublicCorpusRecord.marked, Bool.and_eq_true] at h ⊢
  exact ⟨h.1, ⟨decide_eq_true hreceipt, h.2.1.2⟩, h.2.2⟩

/-- A call keeps a valid record valid, although it runs no validator on it. -/
theorem promoteOne_keeps (h : promoteOne call before = .ok after) (hcall : call.Clean)
    (hvalid : before.valid = true) (hclean : before.Clean) :
    after.valid = true ∧ after.Clean ∧ after.recordId = before.recordId := by
  obtain ⟨-, -, hreceipt, rfl⟩ | ⟨-, rfl⟩ | ⟨-, -, rfl⟩ := promoteOne_cases h
  · refine ⟨valid_marked hvalid fun _ => hreceipt, clean_marked hclean ?_, rfl⟩
    exact clean_append (clean_append (clean_u _) hcall.1) (clean_u _)
  · refine ⟨valid_marked hvalid fun hpublished => ?_, clean_marked hclean ?_, rfl⟩
    · cases hpublished
    · exact clean_append (clean_append (clean_u _) hcall.2) (clean_u _)
  · exact ⟨hvalid, hclean, rfl⟩

/-! ## One call -/

variable {ints : IntField} {interp : Interpreter} {content final : Bytes} {start finish set : CorpusRecordSet}

/-- What a call leaves of the set it loads. -/
structure Stepped (call : Promotion) (before after : CorpusRecordSet) : Prop where
  version : after.formatVersion = before.formatVersion
  records : List.Forall₂ (fun a b => promoteOne call a = .ok b) before.records after.records

theorem stepped_of_ok (hload : loadCorpusRecords ints interp content = .ok start)
    (h : promoteRecordSet ints interp content call = .ok set) : Stepped call start set := by
  unfold promoteRecordSet at h
  split_ifs at h
  rw [hload] at h
  dsimp only at h
  split_ifs at h
  obtain ⟨promoted, hpromoted, h⟩ := exceptBind_ok.mp h
  split_ifs at h
  cases h
  exact ⟨rfl, forall₂_of_mapM hpromoted⟩

theorem promoteRecordSet_of_load (hload : loadCorpusRecords ints interp content = .ok start)
    (hcall : call.promoteIds ≠ []) (hmissing : missingIds call start.records = []) {promoted : List PublicCorpusRecord}
    (hpromoted : start.records.mapM (promoteOne call) = .ok promoted) (hnodup : (recordIds promoted).Nodup) :
    promoteRecordSet ints interp content call = .ok { start with records := promoted } := by
  have hunique : (recordIds start.records).Nodup := by
    have hvalid := (loaded hload).1
    rw [CorpusRecordSet.valid, Bool.and_eq_true, decide_eq_true_eq] at hvalid
    exact hvalid.2
  rw [promoteRecordSet, if_neg hcall, hload]
  dsimp only
  rw [if_neg (not_not.mpr hunique), if_neg (not_not.mpr hmissing), hpromoted]
  exact if_pos hnodup

theorem promoteFile_of_ok {written : Bytes} (hset : promoteRecordSet ints interp content call = .ok set)
    (hwrite : writeCorpusRecords set = .ok written) : promoteFile ints interp content call = .ok written := by
  rw [promoteFile, hset]
  change (match writeCorpusRecords set with
    | .error e => Except.error (PromotionError.unwritable e)
    | .ok written => .ok written) = _
  rw [hwrite]

theorem Stepped.keeps (h : Stepped call start set) (hcall : call.Clean) (hvalid : start.valid = true)
    (hclean : start.Clean) : set.valid = true ∧ set.Clean := by
  rw [CorpusRecordSet.valid, Bool.and_eq_true, List.all_eq_true, decide_eq_true_eq] at hvalid
  obtain ⟨hrecords, hnodup⟩ := hvalid
  have hkept : List.Forall₂ (fun a b => b.valid = true ∧ b.Clean ∧ b.recordId = a.recordId) start.records
      set.records := by
    have hsteps := h.records
    clear h hnodup
    have hall : ∀ record ∈ start.records, record.valid = true ∧ record.Clean :=
      fun record hmem => ⟨hrecords record hmem, hclean record hmem⟩
    clear hrecords hclean
    generalize start.records = befores at hsteps hall ⊢
    generalize set.records = afters at hsteps ⊢
    induction hsteps with
    | nil => exact .nil
    | cons hstep _ ih =>
      obtain ⟨hvalid, hclean⟩ := hall _ List.mem_cons_self
      exact .cons (promoteOne_keeps hstep hcall hvalid hclean)
        (ih fun record hmem => hall record (List.mem_cons_of_mem _ hmem))
  have hids : recordIds set.records = recordIds start.records := by
    unfold recordIds
    symm
    rw [← List.forall₂_eq_eq_eq, List.forall₂_map_left_iff, List.forall₂_map_right_iff]
    exact hkept.imp fun _ _ hab => hab.2.2.symm
  have hall : ∀ record ∈ set.records, record.valid = true ∧ record.Clean := by
    intro record hmem
    obtain ⟨index, hindex, rfl⟩ := List.getElem_of_mem hmem
    have hsame := (List.forall₂_iff_get.mp hkept).2 index (hkept.length_eq ▸ hindex) hindex
    exact ⟨hsame.1, hsame.2.1⟩
  refine ⟨?_, fun record hmem => (hall record hmem).2⟩
  rw [CorpusRecordSet.valid, Bool.and_eq_true, List.all_eq_true, decide_eq_true_eq, hids]
  exact ⟨fun record hmem => (hall record hmem).1, hnodup⟩

/-! ## A run over files -/

/-- What a run leaves of the set in its first file. -/
structure Ran (calls : List Promotion) (start finish : CorpusRecordSet) : Prop where
  version : finish.formatVersion = start.formatVersion
  records : List.Forall₂ (Lived calls) start.records finish.records
  valid : finish.valid = true
  clean : finish.Clean

theorem loads_of_promoteFile (h : promoteFile ints interp content call = .ok final) :
    ∃ set, loadCorpusRecords ints interp content = .ok set := by
  obtain ⟨set, hset, -⟩ := exceptBind_ok.mp h
  unfold promoteRecordSet at hset
  split_ifs at hset
  cases hload : loadCorpusRecords ints interp content with
  | error e =>
    rw [hload] at hset
    cases hset
  | ok loaded => exact ⟨loaded, rfl⟩

theorem size_of_load (h : loadCorpusRecords ints interp content = .ok set) : content.length ≤ maxCorpusRecordBytes := by
  unfold loadCorpusRecords at h
  split_ifs at h with hsize
  exact Nat.not_lt.mp hsize

/-- The last file of a run holds what the calls made of the first. -/
theorem ran_of_ok (hcalls : ∀ call ∈ calls, call.Clean) (hload : loadCorpusRecords ints interp content = .ok start)
    (hrun : runPromotions ints interp content calls = .ok final) :
    ∃ finish, Ran calls start finish ∧
      (final.length ≤ maxCorpusRecordBytes → loadCorpusRecords ints interp final = .ok finish) := by
  induction calls generalizing content start with
  | nil =>
    cases hrun
    obtain ⟨hvalid, hclean⟩ := loaded hload
    exact ⟨start, ⟨rfl, List.forall₂_same.mpr fun record _ => lived_nil record, hvalid, hclean⟩, fun _ => hload⟩
  | cons call calls ih =>
    rw [runPromotions, List.foldlM_cons] at hrun
    obtain ⟨middle, hmiddle, hrest⟩ := exceptBind_ok.mp hrun
    obtain ⟨set, hset, hwritten⟩ := exceptBind_ok.mp hmiddle
    have hstep := stepped_of_ok hload hset
    obtain ⟨hvalid, hclean⟩ := loaded hload
    obtain ⟨hvalid', hclean'⟩ := hstep.keeps (hcalls call List.mem_cons_self) hvalid hclean
    have hwrite : writeCorpusRecords set = .ok middle := by
      cases hwrite : writeCorpusRecords set with
      | error e =>
        rw [hwrite] at hwritten
        cases hwritten
      | ok written =>
        rw [hwrite] at hwritten
        cases hwritten
        rfl
    have hreload := fun hsize => load_written ints interp hvalid' hclean' hwrite hsize
    cases calls with
    | nil =>
      cases hrest
      refine ⟨set, ⟨hstep.version, hstep.records.imp fun a b hab => lived_cons hab (lived_nil b), hvalid', hclean'⟩,
        hreload⟩
    | cons next calls =>
      obtain ⟨_, hnext, -⟩ := exceptBind_ok.mp hrest
      obtain ⟨_, hloaded⟩ := loads_of_promoteFile hnext
      obtain ⟨finish, hran, hfinal⟩ := ih (fun c hc => hcalls c (List.mem_cons_of_mem _ hc))
        (hreload (size_of_load hloaded)) hrest
      refine ⟨finish, ⟨hran.version.trans hstep.version, ?_, hran.valid, hran.clean⟩, hfinal⟩
      have hcomp : ∀ a b c, promoteOne call a = .ok b → Lived (next :: calls) b c →
          Lived (call :: next :: calls) a c := fun _ _ _ => lived_cons
      exact forall₂_comp hcomp hstep.records hran.records

theorem publishedWithoutReceipts_valid (h : set.valid = true) : publishedWithoutReceipts set = [] := by
  rw [CorpusRecordSet.valid, Bool.and_eq_true, List.all_eq_true] at h
  unfold publishedWithoutReceipts recordIds
  rw [List.map_eq_nil_iff, List.filter_eq_nil_iff]
  intro record hmem
  have hvalid := h.1 record hmem
  simp only [PublicCorpusRecord.valid, validBoundaries, Bool.and_eq_true, decide_eq_true_eq] at hvalid
  rw [decide_eq_true_eq]
  rintro ⟨hstatus, hreceipt⟩
  exact hvalid.2.1.1 hstatus hreceipt

def plainRead : Json → Option ℤ
  | .int n => some n
  | _ => none

theorem plainRead_int (n : ℤ) : plainRead (.int n) = some n := rfl

def plainInts : IntField := ⟨plainRead, plainRead_int⟩

def scannedReceipt : ReceiptEvidenceRef where
  receiptRef := u "r/a.json"
  approvalRef := u "ok"
  scannedAt := u "t"
  scanMode := .packageOnly
  grade := .A
  transparency := .high
  toolCount := 1

def scannedRecord : PublicCorpusRecord where
  recordId := u "a"
  registryName := u "a"
  displayName := u "a"
  status := .scannedTemp
  recommendedMode := .packageOnly
  receipt := some scannedReceipt

def scannedSet : CorpusRecordSet where
  records := [scannedRecord]

def promotedSet : CorpusRecordSet where
  records := [scannedRecord.marked .published (promotionNote (u "ref"))]

def scannedCall : Promotion where
  promoteIds := [u "a"]
  promotionRef := u "ref"

def writtenBytes (set : CorpusRecordSet) : Bytes := (dumps manifestStyle set.json ++ [ch '\n']).flatMap encodeCodePoint

theorem clean_of_all {record : PublicCorpusRecord}
    (h : record.texts.all (fun s => s.all fun c => !isSurrogate c) = true) : record.Clean := by
  intro s hs c hc
  have hscalar := List.all_eq_true.mp (List.all_eq_true.mp h s hs) c hc
  rwa [Bool.not_eq_true'] at hscalar

theorem scannedSet_clean : scannedSet.Clean := by
  intro record hrecord
  rw [List.mem_singleton.mp hrecord]
  exact clean_of_all (by decide +kernel)

theorem scannedSet_loads :
    loadCorpusRecords plainInts Launch.sampleInterpreter (writtenBytes scannedSet) = .ok scannedSet := by
  have hprint : scannedSet.json.walk.all Qualification.isPrintable = true := by decide +kernel
  have hvalid : scannedSet.valid = true := by decide +kernel
  have hsize : (writtenBytes scannedSet).length ≤ maxCorpusRecordBytes := by decide +kernel
  exact load_written plainInts Launch.sampleInterpreter hvalid scannedSet_clean (if_pos hprint) hsize

theorem scannedCall_clean : ∀ call ∈ [scannedCall], call.Clean := by
  intro call hcall
  rw [List.mem_singleton.mp hcall]
  exact ⟨clean_u "ref", clean_u "not selected for this reviewed promotion cohort"⟩

theorem scannedCall_runs : runPromotions plainInts Launch.sampleInterpreter (writtenBytes scannedSet) [scannedCall] =
    .ok (writtenBytes promotedSet) := by
  have hmissing : missingIds scannedCall scannedSet.records = [] := by decide +kernel
  have hone : scannedSet.records.mapM (promoteOne scannedCall) = .ok promotedSet.records := by decide +kernel
  have hset : promoteRecordSet plainInts Launch.sampleInterpreter (writtenBytes scannedSet) scannedCall =
      .ok promotedSet :=
    promoteRecordSet_of_load scannedSet_loads (List.cons_ne_nil _ _) hmissing hone (List.nodup_singleton _)
  have hprint : promotedSet.json.walk.all Qualification.isPrintable = true := by decide +kernel
  have hfile := promoteFile_of_ok hset (if_pos hprint)
  rw [runPromotions, List.foldlM_cons, hfile]
  rfl

end McpTrust.Corpus
