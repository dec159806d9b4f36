import McpTrust.Core.Drift
import McpTrust.Store.Verdicts

/-! # What the corpus totals count

Servers, scans and times of the totals do not look at verdicts; the other counts
are sums over the steps of the histories.
-/

namespace McpTrust

set_option autoImplicit false

open Python Store

/-- The counts of the totals that look at verdicts. -/
structure StepCounts where
  comparable : Nat
  surfaceChanges : Nat
  gradeChanges : Nat
  withEngineChange : Nat
  deriving DecidableEq

namespace StepCounts

def zero : StepCounts := ⟨0, 0, 0, 0⟩

def add (a b : StepCounts) : StepCounts :=
  ⟨a.comparable + b.comparable, a.surfaceChanges + b.surfaceChanges, a.gradeChanges + b.gradeChanges,
    a.withEngineChange + b.withEngineChange⟩

theorem add_zero (a : StepCounts) : a.add zero = a := rfl

theorem zero_add (a : StepCounts) : zero.add a = a := by
  simp only [add, zero, Nat.zero_add]

theorem add_assoc (a b c : StepCounts) : (a.add b).add c = a.add (b.add c) := by
  simp only [add, Nat.add_assoc]

theorem add_left_comm (a b c : StepCounts) : a.add (b.add c) = b.add (a.add c) := by
  simp only [add, Nat.add_left_comm]

theorem add_left_cancel {a b c : StepCounts} : a.add b = a.add c ↔ b = c := by
  cases b
  cases c
  simp only [add, mk.injEq, Nat.add_left_cancel_iff]

theorem add_right_cancel {a b c : StepCounts} : b.add a = c.add a ↔ b = c := by
  cases b
  cases c
  simp only [add, mk.injEq, Nat.add_right_cancel_iff]

end StepCounts

/-- What the step from one scan to the next adds. -/
def stepCounts (previous scan : ScanRecord) : StepCounts where
  comparable := if previous.evidence.isSome && scan.evidence.isSome then 1 else 0
  surfaceChanges := if (compareSurfaces previous.evidence scan.evidence).1 = .changed then 1 else 0
  gradeChanges := if previous.grade ≠ scan.grade then 1 else 0
  withEngineChange :=
    if previous.grade ≠ scan.grade ∧ engineText scan ≠ engineText previous then 1 else 0

/-- The sum over the steps of a history, oldest scan first. -/
def countSteps : List ScanRecord → StepCounts
  | previous :: scan :: rest => (stepCounts previous scan).add (countSteps (scan :: rest))
  | _ => .zero

/-- The sum over the steps of a stored history, newest scan first. -/
def historyCounts (history : List ScanRecord) : StepCounts := countSteps history.reverse

def corpusCounts (histories : List (List ScanRecord)) : StepCounts :=
  histories.foldr (fun history total => (historyCounts history).add total) .zero

def HistoryTotals.counts (totals : HistoryTotals) : StepCounts :=
  ⟨totals.comparablePairs, totals.surfaceChanges, totals.gradeChanges,
    totals.gradeChangesWithEngineChange⟩

/-! ## The totals are the sums -/

theorem compareSurfaces_unknown {previous current : Option ScanEvidence} :
    (compareSurfaces previous current).1 = .unknown ↔ (previous.isSome && current.isSome) = false := by
  cases previous with
  | none => simp [compareSurfaces]
  | some p =>
    cases current with
    | none => simp [compareSurfaces]
    | some c =>
      simp only [compareSurfaces, Option.isSome_some, Bool.and_self, Bool.true_eq_false, iff_false]
      by_cases hchange : (surfaceDelta p c).anyChange = true
      · simp [hchange]
      · simp [hchange]

theorem counts_addStep {totals : HistoryTotals} {previous scan : ScanRecord} {before entry : HistoryEntry}
    (hbefore : before.engine = engineText previous) (hengine : entry.engine = engineText scan)
    (hsurface : entry.surfaceComparison = some (compareSurfaces previous.evidence scan.evidence).1)
    (hgrade : entry.gradeChanged = decide (previous.grade ≠ scan.grade)) :
    (totals.addStep before entry).counts = totals.counts.add (stepCounts previous scan) := by
  simp only [HistoryTotals.addStep, HistoryTotals.counts, StepCounts.add, stepCounts, hbefore, hengine,
    hsurface, hgrade, decide_eq_true_eq, Option.some.injEq, compareSurfaces_unknown]
  cases (previous.evidence.isSome && scan.evidence.isSome) <;> rfl

theorem diff_ok {previous scan : ScanRecord} {drift : ScanDrift} (h : diff previous scan = .ok drift) :
    drift.surfaceComparison = (compareSurfaces previous.evidence scan.evidence).1 ∧
      drift.previousGrade = previous.grade ∧ drift.currentGrade = scan.grade := by
  unfold diff at h
  by_cases hslug : previous.serverSlug ≠ scan.serverSlug
  · rw [if_pos hslug] at h
    cases h
  · rw [if_neg hslug] at h
    cases h
    exact ⟨rfl, rfl, rfl⟩

theorem counts_timelineAfter {previous : ScanRecord} {scans : List ScanRecord}
    {entries : List HistoryEntry} (h : timelineAfter previous scans = .ok entries)
    {before : HistoryEntry} (hbefore : before.engine = engineText previous) (totals : HistoryTotals) :
    (totals.addSteps (before :: entries)).counts = totals.counts.add (countSteps (previous :: scans)) := by
  induction scans generalizing previous entries before totals with
  | nil =>
    cases h
    rfl
  | cons scan rest ih =>
    obtain ⟨drift, hdrift, h⟩ := bind_eq_ok.mp h
    obtain ⟨tail, htail, h⟩ := bind_eq_ok.mp h
    cases h
    obtain ⟨hsurface, hprevious, hcurrent⟩ := diff_ok hdrift
    rw [HistoryTotals.addSteps, ih htail rfl, countSteps, ← StepCounts.add_assoc,
      counts_addStep hbefore rfl (by rw [hsurface]) (by rw [hprevious, hcurrent])]

theorem counts_addHistory {totals totals' : HistoryTotals} {history : List ScanRecord}
    (h : totals.addHistory history = .ok totals') :
    totals'.counts = totals.counts.add (historyCounts history) := by
  rw [HistoryTotals.addHistory] at h
  obtain ⟨timeline, htimeline, h⟩ := bind_eq_ok.mp h
  unfold gradeTimeline at htimeline
  unfold historyCounts
  cases hreverse : history.reverse with
  | nil =>
    rw [hreverse] at htimeline
    cases htimeline
    cases h
    rfl
  | cons first rest =>
    rw [hreverse] at htimeline
    obtain ⟨entries, hentries, htimeline⟩ := bind_eq_ok.mp htimeline
    cases htimeline
    have hlast := List.getLast?_eq_some_getLast (List.cons_ne_nil
      (⟨first.scannedAt, first.grade, engineText first, none, none, false⟩ : HistoryEntry) entries)
    simp only [hlast] at h
    obtain ⟨firstAt, -, h⟩ := bind_eq_ok.mp h
    obtain ⟨lastAt, -, h⟩ := bind_eq_ok.mp h
    cases h
    exact counts_timelineAfter hentries rfl _

theorem counts_foldlM {histories : List (List ScanRecord)} {totals totals' : HistoryTotals}
    (h : histories.foldlM HistoryTotals.addHistory totals = .ok totals') :
    totals'.counts = totals.counts.add (corpusCounts histories) := by
  induction histories generalizing totals with
  | nil =>
    cases h
    rfl
  | cons history histories ih =>
    rw [List.foldlM_cons] at h
    obtain ⟨next, hnext, h⟩ := bind_eq_ok.mp h
    rw [ih h, counts_addHistory hnext, StepCounts.add_assoc]
    rfl

theorem counts_corpus {histories : List (List ScanRecord)} {totals : HistoryTotals}
    (h : corpusHistoryTotals histories = .ok totals) : totals.counts = corpusCounts histories :=
  (counts_foldlM h).trans (StepCounts.zero_add _)

/-- The sum splits over the two halves of a partition. -/
theorem corpusCounts_split {α : Type} (p : α → Bool) (f : α → List ScanRecord) (items : List α) :
    corpusCounts (items.map f) =
      (corpusCounts ((items.filter p).map f)).add (corpusCounts ((items.filter fun a => !p a).map f)) := by
  induction items with
  | nil => rfl
  | cons item items ih =>
    have hcons : ∀ history histories,
        corpusCounts (history :: histories) = (historyCounts history).add (corpusCounts histories) :=
      fun _ _ => rfl
    by_cases hp : p item = true
    · rw [List.filter_cons_of_pos hp, List.filter_cons_of_neg (by rw [hp]; decide), List.map_cons,
        List.map_cons, hcons, hcons, ih, StepCounts.add_assoc]
    · rw [List.filter_cons_of_neg hp, List.filter_cons_of_pos (by rw [Bool.eq_false_iff.mpr hp]; rfl),
        List.map_cons, List.map_cons, hcons, hcons, ih, StepCounts.add_left_comm]

/-- A grade change with a change of engine is a grade change. -/
theorem countSteps_engine_le (scans : List ScanRecord) :
    (countSteps scans).withEngineChange ≤ (countSteps scans).gradeChanges := by
  induction scans with
  | nil => exact Nat.le_refl 0
  | cons previous rest ih =>
    cases rest with
    | nil => exact Nat.le_refl 0
    | cons scan rest =>
      have hstep : (stepCounts previous scan).withEngineChange ≤ (stepCounts previous scan).gradeChanges := by
        simp only [stepCounts]
        by_cases hgrade : previous.grade ≠ scan.grade
        · rw [if_pos hgrade]
          split_ifs <;> omega
        · rw [if_neg fun h => hgrade h.1]
          exact Nat.zero_le _
      exact Nat.add_le_add hstep ih

theorem corpusCounts_engine_le (histories : List (List ScanRecord)) :
    (corpusCounts histories).withEngineChange ≤ (corpusCounts histories).gradeChanges := by
  induction histories with
  | nil => exact Nat.le_refl 0
  | cons history histories ih => exact Nat.add_le_add (countSteps_engine_le history.reverse) ih

/-! ## What the totals say beside the counts -/

structure SameFrame (s t : HistoryTotals) : Prop where
  servers : s.servers = t.servers
  scans : s.scans = t.scans
  firstScannedAt : s.firstScannedAt = t.firstScannedAt
  lastScannedAt : s.lastScannedAt = t.lastScannedAt

theorem SameFrame.refl (t : HistoryTotals) : SameFrame t t := ⟨rfl, rfl, rfl, rfl⟩

/-- The steps add to the counts only. -/
theorem addSteps_frame (entries : List HistoryEntry) (totals : HistoryTotals) :
    SameFrame (totals.addSteps entries) totals := by
  induction entries generalizing totals with
  | nil => exact .refl totals
  | cons previous rest ih =>
    cases rest with
    | nil => exact .refl totals
    | cons entry rest =>
      have hrest := ih (totals.addStep previous entry)
      exact ⟨hrest.servers, hrest.scans, hrest.firstScannedAt, hrest.lastScannedAt⟩

theorem diff_related {a a' b b' : ScanRecord} (ha : SameButVerdict a a') (hb : SameButVerdict b b') :
    SameOutcome (fun _ _ => True) (diff a b) (diff a' b') := by
  unfold diff
  rw [ha.serverSlug, hb.serverSlug]
  by_cases hslug : a'.serverSlug ≠ b'.serverSlug
  · rw [if_pos hslug, if_pos hslug]
    rfl
  · rw [if_neg hslug, if_neg hslug]
    trivial

def SameTime (e f : HistoryEntry) : Prop := e.scannedAt = f.scannedAt

theorem timelineAfter_related {a b : ScanRecord} (h : SameButVerdict a b) {xs ys : List ScanRecord}
    (hall : List.Forall₂ SameButVerdict xs ys) :
    SameOutcome (List.Forall₂ SameTime) (timelineAfter a xs) (timelineAfter b ys) := by
  induction hall generalizing a b with
  | nil => exact .nil
  | cons hxy _ ih =>
    refine (diff_related h hxy).bind fun _ _ _ => (ih hxy).bind fun _ _ hrest => ?_
    exact .cons hxy.scannedAt hrest

theorem gradeTimeline_related {xs ys : List ScanRecord} (hall : List.Forall₂ SameButVerdict xs ys) :
    SameOutcome (List.Forall₂ SameTime) (gradeTimeline xs) (gradeTimeline ys) := by
  have hreverse := List.rel_reverse hall
  unfold gradeTimeline
  cases hx : xs.reverse <;> cases hy : ys.reverse
  all_goals rw [hx, hy] at hreverse
  case nil.nil => exact .nil
  case cons.cons x xs y ys =>
    obtain ⟨hxy, hrest⟩ := List.forall₂_cons.mp hreverse
    exact (timelineAfter_related hxy hrest).bind fun _ _ h => .cons hxy.scannedAt h
  all_goals cases hreverse

theorem addHistory_related {s t : HistoryTotals} (h : SameFrame s t) {xs ys : List ScanRecord}
    (hall : List.Forall₂ SameButVerdict xs ys) :
    SameOutcome SameFrame (s.addHistory xs) (t.addHistory ys) := by
  refine (gradeTimeline_related hall).bind fun es fs hrel => ?_
  have hlength := hrel.length_eq
  cases hrel with
  | nil => exact h
  | @cons e f es fs hef hrest =>
    have hfull : List.Forall₂ SameTime (e :: es) (f :: fs) := .cons hef hrest
    have htimes : (e :: es).map HistoryEntry.scannedAt = (f :: fs).map HistoryEntry.scannedAt :=
      forall₂_map_eq (fun _ _ h => h) hfull
    have hlasts : ((e :: es).getLast?).map HistoryEntry.scannedAt =
        ((f :: fs).getLast?).map HistoryEntry.scannedAt := by
      rw [← List.getLast?_map, ← List.getLast?_map, htimes]
    have hx := List.getLast?_eq_some_getLast (List.cons_ne_nil e es)
    have hy := List.getLast?_eq_some_getLast (List.cons_ne_nil f fs)
    rw [hx, hy] at hlasts
    have hxy := Option.some.inj hlasts
    have hef : e.scannedAt = f.scannedAt := hef
    simp only [hx, hy, h.firstScannedAt, h.lastScannedAt, hxy, hef]
    refine (SameOutcome.refl (R := Eq) (fun _ => rfl) _).bind fun first first' hfirst => ?_
    refine (SameOutcome.refl (R := Eq) (fun _ => rfl) _).bind fun last last' hlast => ?_
    subst hfirst hlast
    constructor
    · exact ((addSteps_frame _ _).servers.trans (congrArg (· + 1) h.servers)).trans
        (addSteps_frame _ _).servers.symm
    · have hscans : s.scans + (e :: es).length = t.scans + (f :: fs).length := by
        rw [h.scans, hlength]
      exact ((addSteps_frame _ _).scans.trans hscans).trans (addSteps_frame _ _).scans.symm
    · rfl
    · rfl

/-- The totals say something, or there was nothing to count. -/
def HistoryTotals.Spoken (totals : HistoryTotals) : Prop :=
  totals.firstScannedAt.isSome = true ∧ totals.lastScannedAt.isSome = true ∧ totals.scans ≠ 0

theorem spoken_addHistory {totals totals' : HistoryTotals} {history : List ScanRecord}
    (h : totals.addHistory history = .ok totals') (hspoken : totals.Spoken ∨ totals.counts = .zero) :
    totals'.Spoken ∨ totals'.counts = .zero := by
  obtain ⟨timeline, -, h⟩ := bind_eq_ok.mp h
  cases timeline with
  | nil =>
    cases h
    exact hspoken
  | cons first rest =>
    have hlast := List.getLast?_eq_some_getLast (List.cons_ne_nil first rest)
    simp only [hlast] at h
    obtain ⟨firstAt, -, h⟩ := bind_eq_ok.mp h
    obtain ⟨lastAt, -, h⟩ := bind_eq_ok.mp h
    cases h
    refine .inl ⟨rfl, rfl, ?_⟩
    rw [(addSteps_frame _ _).scans]
    exact Nat.succ_ne_zero _

theorem spoken_corpus {histories : List (List ScanRecord)} {totals : HistoryTotals}
    (h : corpusHistoryTotals histories = .ok totals) : totals.Spoken ∨ totals.counts = .zero := by
  have hfold : ∀ (histories : List (List ScanRecord)) (start : HistoryTotals),
      start.Spoken ∨ start.counts = .zero →
        histories.foldlM HistoryTotals.addHistory start = .ok totals →
          totals.Spoken ∨ totals.counts = .zero := by
    intro histories
    induction histories with
    | nil =>
      intro start hstart h
      cases h
      exact hstart
    | cons history histories ih =>
      intro start hstart h
      rw [List.foldlM_cons] at h
      obtain ⟨next, hnext, h⟩ := bind_eq_ok.mp h
      exact ih next (spoken_addHistory hnext hstart) h
  exact hfold histories .empty (.inr rfl) h

theorem corpusHistoryTotals_related {xs ys : List (List ScanRecord)}
    (hall : List.Forall₂ (List.Forall₂ SameButVerdict) xs ys) :
    SameOutcome SameFrame (corpusHistoryTotals xs) (corpusHistoryTotals ys) :=
  foldlM_related (f := HistoryTotals.addHistory) (fun _ _ _ _ h hxy => addHistory_related h hxy) hall
    (.refl _)

end McpTrust
