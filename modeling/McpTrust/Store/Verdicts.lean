import McpTrust.Store.Readable
import McpTrust.Core.PublicProjection
import McpTrust.Store.Servers

/-! # Tables that differ in verdicts only

Two tables whose rows agree but for the verdicts of masked slugs answer the
queries with scans that agree in the same way.
-/

namespace McpTrust.Store

set_option autoImplicit false

open Python Sqlite

/-! ## Related lists -/

section Sorting

variable {α : Type} {R : α → α → Prop} {r : α → α → Prop} [DecidableRel r]

/-- The order does not tell related items apart. -/
def Respects (R r : α → α → Prop) : Prop := ∀ a a' b b', R a a' → R b b' → (r a b ↔ r a' b')

theorem forall₂_orderedInsert (hr : Respects R r) {a a' : α} (ha : R a a') {l l' : List α}
    (h : List.Forall₂ R l l') : List.Forall₂ R (l.orderedInsert r a) (l'.orderedInsert r a') := by
  induction h with
  | nil => exact .cons ha .nil
  | @cons b b' l l' hb hl ih =>
    by_cases hab : r a b
    · rw [List.orderedInsert, List.orderedInsert, if_pos hab, if_pos ((hr _ _ _ _ ha hb).mp hab)]
      exact .cons ha (.cons hb hl)
    · have hab' : ¬r a' b' := fun h => hab ((hr _ _ _ _ ha hb).mpr h)
      rw [List.orderedInsert, List.orderedInsert, if_neg hab, if_neg hab']
      exact .cons hb ih

theorem forall₂_insertionSort (hr : Respects R r) {l l' : List α} (h : List.Forall₂ R l l') :
    List.Forall₂ R (l.insertionSort r) (l'.insertionSort r) := by
  induction h with
  | nil => exact .nil
  | cons ha _ ih => exact forall₂_orderedInsert hr ha ih

end Sorting

theorem forall₂_filter {α : Type} {R : α → α → Prop} {p q : α → Bool} (hpq : ∀ a b, R a b → p a = q b)
    {l l' : List α} (h : List.Forall₂ R l l') : List.Forall₂ R (l.filter p) (l'.filter q) := by
  apply List.rel_filter (fun a b hab => ?_) h
  change p a = true ↔ q b = true
  rw [hpq a b hab]

theorem forall₂_map_eq {α β : Type} {R : α → α → Prop} {f : α → β} (hf : ∀ a b, R a b → f a = f b)
    {l l' : List α} (h : List.Forall₂ R l l') : l.map f = l'.map f := by
  induction h with
  | nil => rfl
  | cons hab _ ih => rw [List.map_cons, List.map_cons, hf _ _ hab, ih]

/-! ## Related rows -/

section Rows

variable {py : Pydantic} {interp : Interpreter} {masked : List Str}

/-- Both raise the same, or both return with related results. -/
def SameOutcome {α : Type} (R : α → α → Prop) (x y : Except PyErr α) : Prop :=
  match x, y with
  | .ok a, .ok b => R a b
  | .error e, .error e' => e = e'
  | _, _ => False

theorem SameOutcome.refl {α : Type} {R : α → α → Prop} (hR : ∀ a, R a a) (x : Except PyErr α) :
    SameOutcome R x x := by
  cases x with
  | ok a => exact hR a
  | error e => rfl

/-- The continuations may use what both sides returned. -/
theorem SameOutcome.bind_of {α β : Type} {R : α → α → Prop} {S : β → β → Prop} {x y : Except PyErr α}
    {f g : α → Except PyErr β} (h : SameOutcome R x y)
    (hfg : ∀ a b, x = .ok a → y = .ok b → R a b → SameOutcome S (f a) (g b)) :
    SameOutcome S (x >>= f) (y >>= g) := by
  cases x <;> cases y
  case error.error e e' => exact h
  case error.ok => exact h.elim
  case ok.error => exact h.elim
  case ok.ok a b => exact hfg a b rfl rfl h

theorem SameOutcome.bind {α β : Type} {R : α → α → Prop} {S : β → β → Prop} {x y : Except PyErr α}
    {f g : α → Except PyErr β} (h : SameOutcome R x y)
    (hfg : ∀ a b, R a b → SameOutcome S (f a) (g b)) : SameOutcome S (x >>= f) (y >>= g) :=
  h.bind_of fun a b _ _ => hfg a b

theorem SameOutcome.eq {α : Type} {x y : Except PyErr α} (h : SameOutcome Eq x y) : x = y := by
  cases x <;> cases y
  case error.error e e' => exact congrArg _ h
  case error.ok => exact h.elim
  case ok.error => exact h.elim
  case ok.ok a b => exact congrArg _ h

theorem SameOutcome.mono {α : Type} {R S : α → α → Prop} {x y : Except PyErr α} (h : SameOutcome R x y)
    (hRS : ∀ a b, R a b → S a b) : SameOutcome S x y := by
  cases x <;> cases y
  case error.error e e' => exact h
  case error.ok => exact h.elim
  case ok.error => exact h.elim
  case ok.ok a b => exact hRS a b h

theorem SameOutcome.map {α β : Type} {R : α → α → Prop} {S : β → β → Prop} {x y : Except PyErr α}
    {f g : α → β} (h : SameOutcome R x y) (hfg : ∀ a b, R a b → S (f a) (g b)) :
    SameOutcome S (x.map f) (y.map g) := by
  cases x <;> cases y
  case error.error e e' => exact h
  case error.ok => exact h.elim
  case ok.error => exact h.elim
  case ok.ok a b => exact hfg a b h

theorem SameOutcome.catching {α : Type} {R : α → α → Prop} {x y hx hy : Except PyErr α}
    {p : PyErr → Bool} (h : SameOutcome R x y) (hh : SameOutcome R hx hy) :
    SameOutcome R (catching x p hx) (catching y p hy) := by
  cases x <;> cases y
  case error.error e e' =>
    have hsame : e = e' := h
    subst hsame
    simp only [Python.catching]
    by_cases hp : p e = true
    · rw [if_pos hp, if_pos hp]
      exact hh
    · rw [if_neg hp, if_neg hp]
      rfl
  case error.ok => exact h.elim
  case ok.error => exact h.elim
  case ok.ok a b => exact h

/-- The columns beside the verdict are the same. -/
structure SameColumns (a b : ScanRow) : Prop where
  id : a.id = b.id
  serverSlug : a.serverSlug = b.serverSlug
  engineName : a.engineName = b.engineName
  engineVersion : a.engineVersion = b.engineVersion
  scannedAt : a.scannedAt = b.scannedAt
  sandboxImage : a.sandboxImage = b.sandboxImage

/-- The rows are the same, or rows of a masked slug with scans that differ in their verdicts. -/
def VerdictOnly (py : Pydantic) (interp : Interpreter) (masked : List Str) (a b : ScanRow) : Prop :=
  a = b ∨ (∃ slug ∈ masked, a.serverSlug = .text slug) ∧ SameColumns a b ∧
    (∃ record, rowToScan py interp a = .ok record) ∧ ∃ record, rowToScan py interp b = .ok record

theorem VerdictOnly.columns {a b : ScanRow} (h : VerdictOnly py interp masked a b) : SameColumns a b := by
  obtain rfl | ⟨-, hcolumns, -⟩ := h
  · exact ⟨rfl, rfl, rfl, rfl, rfl, rfl⟩
  · exact hcolumns

theorem sameButVerdict_of_columns {a b : ScanRow} {x y : ScanRecord} (h : SameColumns a b)
    (hx : rowToScan py interp a = .ok x) (hy : rowToScan py interp b = .ok y) : SameButVerdict x y := by
  have hcx := copies_of_ok hx
  have hcy := copies_of_ok hy
  constructor
  · exact Except.ok.inj (hcx.id.symm.trans (h.id ▸ hcy.id))
  · exact Except.ok.inj (hcx.serverSlug.symm.trans (h.serverSlug ▸ hcy.serverSlug))
  · exact Except.ok.inj (hcx.engineName.symm.trans (h.engineName ▸ hcy.engineName))
  · exact Except.ok.inj (hcx.engineVersion.symm.trans (h.engineVersion ▸ hcy.engineVersion))
  · exact Except.ok.inj (hcx.scannedAt.symm.trans (h.scannedAt ▸ hcy.scannedAt))
  · exact Except.ok.inj (hcx.sandboxImage.symm.trans (h.sandboxImage ▸ hcy.sandboxImage))

/-- The scans found under a slug agree, and are the same where the slug is not masked. -/
def DifferIfMasked (masked : List Str) (slug : SqlValue) (x y : ScanRecord) : Prop :=
  SameButVerdict x y ∧ ((∀ s ∈ masked, slug ≠ .text s) → x = y)

theorem DifferIfMasked.eq {slug : Str} {x y : ScanRecord} (h : DifferIfMasked masked (.text slug) x y)
    (hslug : slug ∉ masked) : x = y := by
  apply h.2
  rintro s hs hsame
  exact hslug (SqlValue.text.inj hsame ▸ hs)

theorem rowToScan_related {a b : ScanRow} (h : VerdictOnly py interp masked a b) :
    SameOutcome (DifferIfMasked masked a.serverSlug) (rowToScan py interp a) (rowToScan py interp b) := by
  obtain rfl | ⟨⟨slug, hslug, hrow⟩, hcolumns, ⟨x, hx⟩, y, hy⟩ := h
  · exact SameOutcome.refl (fun x => ⟨.refl x, fun _ => rfl⟩) _
  · rw [hx, hy]
    exact ⟨sameButVerdict_of_columns hcolumns hx hy, fun hnot => absurd hrow (hnot slug hslug)⟩

theorem mapM_related {α β : Type} {R : α → α → Prop} {S : β → β → Prop} {f : α → Except PyErr β}
    (hf : ∀ a b, R a b → SameOutcome S (f a) (f b)) {l l' : List α} (h : List.Forall₂ R l l') :
    SameOutcome (List.Forall₂ S) (l.mapM f) (l'.mapM f) := by
  induction h with
  | nil => exact .nil
  | cons hab _ ih =>
    rw [List.mapM_cons, List.mapM_cons]
    exact (hf _ _ hab).bind fun x y hxy => ih.bind fun xs ys hxys => .cons hxy hxys

theorem foldlM_related {α β : Type} {R : α → α → Prop} {S : β → β → Prop} {f : β → α → Except PyErr β}
    (hf : ∀ x y a b, S x y → R a b → SameOutcome S (f x a) (f y b)) {l l' : List α}
    (h : List.Forall₂ R l l') {x y : β} (hxy : S x y) : SameOutcome S (l.foldlM f x) (l'.foldlM f y) := by
  induction h generalizing x y with
  | nil => exact hxy
  | cons hab _ ih =>
    rw [List.foldlM_cons, List.foldlM_cons]
    exact (hf _ _ _ _ hxy hab).bind fun _ _ h => ih h

/-! ## Related tables -/

/-- The tables differ in verdicts of masked slugs only. -/
def SameScans (py : Pydantic) (interp : Interpreter) (masked : List Str) (s t : ScanTable) : Prop :=
  List.Forall₂ (VerdictOnly py interp masked) s.rows t.rows

variable {s t : ScanTable}

theorem newerOrSame_respects : Respects (VerdictOnly py interp masked) NewerOrSame := by
  intro a a' b b' ha hb
  unfold NewerOrSame
  rw [ha.columns.scannedAt, ha.columns.id, hb.columns.scannedAt, hb.columns.id]

theorem SameScans.newestFirst (h : SameScans py interp masked s t) (slug : SqlValue) :
    List.Forall₂ (VerdictOnly py interp masked) (newestFirst slug s.rows) (newestFirst slug t.rows) := by
  apply forall₂_insertionSort newerOrSame_respects
  exact forall₂_filter (fun a b hab => by rw [hab.columns.serverSlug]) h

theorem SameScans.newestTime (h : SameScans py interp masked s t) (slug : SqlValue) :
    newestTime slug s.rows = newestTime slug t.rows := by
  unfold Store.newestTime
  congr 1
  apply forall₂_map_eq (R := VerdictOnly py interp masked) fun a b hab => hab.columns.scannedAt
  exact forall₂_filter (fun a b hab => by rw [hab.columns.serverSlug]) h

theorem SameScans.newestRows (h : SameScans py interp masked s t) :
    List.Forall₂ (VerdictOnly py interp masked) (newestRows s.rows) (newestRows t.rows) := by
  apply forall₂_filter (fun a b hab => ?_) h
  rw [hab.columns.scannedAt, hab.columns.serverSlug, h.newestTime]

/-- The rows of one slug. -/
theorem SameScans.ofSlug (h : SameScans py interp masked s t) (slug : SqlValue) :
    List.Forall₂ (fun a b => a.serverSlug = slug ∧ VerdictOnly py interp masked a b)
      (Store.newestFirst slug s.rows) (Store.newestFirst slug t.rows) :=
  (List.forall₂_and_left _ _).mpr ⟨fun _ ha => (mem_newestFirst.mp ha).2, h.newestFirst slug⟩

theorem SameScans.history (h : SameScans py interp masked s t) (slug : Str) :
    SameOutcome (List.Forall₂ (DifferIfMasked masked (.text slug))) (history py interp s slug)
      (history py interp t slug) :=
  mapM_related (f := rowToScan py interp) (fun _ _ hab => hab.1 ▸ rowToScan_related hab.2)
    (h.ofSlug (.text slug))

theorem SameScans.latest (h : SameScans py interp masked s t) (slug : Str) :
    SameOutcome (Option.Rel (DifferIfMasked masked (.text slug))) (latest py interp s slug)
      (latest py interp t slug) := by
  have hrows := h.ofSlug (.text slug)
  unfold Store.latest
  cases hs : Store.newestFirst (.text slug) s.rows <;> cases ht : Store.newestFirst (.text slug) t.rows
  all_goals rw [hs, ht] at hrows
  case nil.nil => exact .none
  case cons.cons a as b bs =>
    obtain ⟨⟨hslug, hab⟩, -⟩ := List.forall₂_cons.mp hrows
    have hrow := rowToScan_related hab
    rw [hslug] at hrow
    exact hrow.map fun _ _ hxy => .some hxy
  all_goals cases hrows

/-! ## The latest scans of all slugs -/

structure SameReadback (masked : List Str) (r r' : LatestReadback) : Prop where
  records : ∀ slug, Option.Rel (DifferIfMasked masked slug) (r.records slug) (r'.records slug)
  unreadable : r.unreadable = r'.unreadable

theorem SameReadback.set {r r' : LatestReadback} (h : SameReadback masked r r') {slug : SqlValue}
    {x y : Option ScanRecord} (hxy : Option.Rel (DifferIfMasked masked slug) x y) (b : Bool) :
    SameReadback masked ⟨Function.update r.records slug x, Function.update r.unreadable slug b⟩
      ⟨Function.update r'.records slug y, Function.update r'.unreadable slug b⟩ := by
  constructor
  · intro other
    by_cases hother : other = slug
    · subst hother
      simp only [Function.update_self]
      exact hxy
    · simp only [Function.update_of_ne hother]
      exact h.records other
  · simp only [h.unreadable]

theorem readLatest_related {r r' : LatestReadback} (h : SameReadback masked r r') {a b : ScanRow}
    (hab : VerdictOnly py interp masked a b) :
    SameOutcome (SameReadback masked) (readLatest py interp r a) (readLatest py interp r' b) := by
  have hrow := rowToScan_related hab
  unfold readLatest
  rw [hab.columns.serverSlug]
  cases ha : rowToScan py interp a <;> cases hb : rowToScan py interp b
  all_goals rw [ha, hb] at hrow
  case error.error e e' =>
    have hsame : e = e' := hrow
    subst hsame
    by_cases hcorrupt : isCorruption e = true
    · simp only [hcorrupt, if_true]
      exact h.set .none true
    · simp only [hcorrupt]
      rfl
  case ok.ok x y =>
    exact h.set (.some (hab.columns.serverSlug ▸ hrow)) false
  all_goals exact hrow.elim

theorem SameScans.latestAllReadback (h : SameScans py interp masked s t) :
    SameOutcome (SameReadback masked) (latestAllReadback py interp s) (latestAllReadback py interp t) := by
  have hsorted := forall₂_insertionSort (r := IdBefore)
    (fun a a' b b' (ha : VerdictOnly py interp masked a a') (hb : VerdictOnly py interp masked b b') => by
      unfold IdBefore
      rw [ha.columns.id, hb.columns.id]) h.newestRows
  exact foldlM_related (f := readLatest py interp) (fun _ _ _ _ h hab => readLatest_related h hab) hsorted
    ⟨fun _ => .none, rfl⟩

end Rows

end McpTrust.Store
