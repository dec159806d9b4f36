import McpTrust.Core.Totals

/-! # Three views of one history

The latest change walks the scans from the newest, the timeline from the oldest,
and the totals count the steps of the timelines; all of them read one list.
-/

namespace McpTrust

set_option autoImplicit false

open Python

/-! ## The timeline -/

/-- The scans of one server. -/
def OneServer (history : List ScanRecord) : Prop := ∀ a ∈ history, ∀ b ∈ history, a.serverSlug = b.serverSlug

theorem OneServer.sub {history part : List ScanRecord} (h : OneServer history) (hsub : ∀ a ∈ part, a ∈ history) :
    OneServer part := fun a ha b hb => h a (hsub a ha) b (hsub b hb)

theorem OneServer.tail {scan : ScanRecord} {rest : List ScanRecord} (h : OneServer (scan :: rest)) :
    OneServer rest := h.sub fun _ ha => List.mem_cons_of_mem _ ha

theorem OneServer.reverse {history : List ScanRecord} (h : OneServer history) : OneServer history.reverse :=
  h.sub fun _ ha => List.mem_reverse.mp ha

def firstEntry (scan : ScanRecord) : HistoryEntry := ⟨scan.scannedAt, scan.grade, engineText scan, none, none, false⟩

/-- The entry of a scan after another. -/
def stepEntry (previous scan : ScanRecord) : HistoryEntry where
  scannedAt := scan.scannedAt
  grade := scan.grade
  engine := engineText scan
  cause := some (driftCause (compareSurfaces previous.evidence scan.evidence).1 previous scan)
  surfaceComparison := some (compareSurfaces previous.evidence scan.evidence).1
  gradeChanged := decide (previous.grade ≠ scan.grade)

def stepEntries : ScanRecord → List ScanRecord → List HistoryEntry
  | _, [] => []
  | previous, scan :: rest => stepEntry previous scan :: stepEntries scan rest

/-- The entries of scans, oldest first. -/
def timelineOf : List ScanRecord → List HistoryEntry
  | [] => []
  | scan :: rest => firstEntry scan :: stepEntries scan rest

theorem diff_of_slug {previous current : ScanRecord} (h : previous.serverSlug = current.serverSlug) :
    ∃ drift, diff previous current = .ok drift ∧ drift.currentScannedAt = current.scannedAt ∧
      drift.previousGrade = previous.grade ∧ drift.currentGrade = current.grade ∧
        drift.cause = driftCause (compareSurfaces previous.evidence current.evidence).1 previous current ∧
          drift.surfaceComparison = (compareSurfaces previous.evidence current.evidence).1 := by
  unfold diff
  rw [if_neg (not_not.mpr h)]
  exact ⟨_, rfl, rfl, rfl, rfl, rfl, rfl⟩

theorem timelineAfter_eq {previous : ScanRecord} {scans : List ScanRecord} (h : OneServer (previous :: scans)) :
    timelineAfter previous scans = .ok (stepEntries previous scans) := by
  induction scans generalizing previous with
  | nil => rfl
  | cons scan rest ih =>
    have hslug := h previous List.mem_cons_self scan (List.mem_cons_of_mem _ List.mem_cons_self)
    obtain ⟨drift, hdrift, -, hprevious, hcurrent, hcause, hsurface⟩ := diff_of_slug hslug
    rw [timelineAfter, hdrift, ih h.tail]
    simp only [bind, Except.bind, stepEntries, stepEntry, hprevious, hcurrent, hcause, hsurface]

theorem gradeTimeline_eq {history : List ScanRecord} (h : OneServer history) :
    gradeTimeline history = .ok (timelineOf history.reverse) := by
  have hreverse := h.reverse
  unfold gradeTimeline
  cases hscans : history.reverse with
  | nil => rfl
  | cons scan rest =>
    rw [hscans] at hreverse
    simp only [timelineAfter_eq hreverse, bind, Except.bind, timelineOf, firstEntry]

theorem stepEntries_append (previous : ScanRecord) (scans : List ScanRecord) (a b : ScanRecord) :
    stepEntries previous (scans ++ [a, b]) = stepEntries previous (scans ++ [a]) ++ [stepEntry a b] := by
  induction scans generalizing previous with
  | nil => rfl
  | cons scan rest ih => rw [List.cons_append, List.cons_append, stepEntries, ih, stepEntries, List.cons_append]

theorem timelineOf_append (scans : List ScanRecord) (a b : ScanRecord) :
    timelineOf (scans ++ [a, b]) = timelineOf (scans ++ [a]) ++ [stepEntry a b] := by
  cases scans with
  | nil => rfl
  | cons scan rest => rw [List.cons_append, List.cons_append, timelineOf, stepEntries_append, timelineOf, List.cons_append]

/-- The last entry is the entry of the last scan. -/
theorem timelineOf_last (scans : List ScanRecord) (a : ScanRecord) :
    ∃ before entry, timelineOf (scans ++ [a]) = before ++ [entry] ∧ entry.grade = a.grade ∧
      entry.scannedAt = a.scannedAt := by
  have hreverse := List.reverse_reverse scans
  cases hscans : scans.reverse with
  | nil =>
    rw [List.reverse_eq_nil_iff.mp hscans]
    exact ⟨[], firstEntry a, rfl, rfl, rfl⟩
  | cons last rest =>
    rw [hscans, List.reverse_cons] at hreverse
    rw [← hreverse, List.append_assoc, List.singleton_append, timelineOf_append]
    exact ⟨_, stepEntry last a, rfl, rfl, rfl⟩

/-! ## The latest change -/

/-- The change is the last of the timeline, or the timeline has none. -/
def LastChange (entries : List HistoryEntry) : Option GradeChange → Prop
  | none => ∀ entry ∈ entries, entry.gradeChanged = false
  | some change =>
    ∃ before previous entry after, entries = before ++ previous :: entry :: after ∧
      entry.gradeChanged = true ∧ (∀ later ∈ after, later.gradeChanged = false) ∧
        change.changedAt = entry.scannedAt ∧ change.previousGrade = previous.grade ∧
          change.currentGrade = entry.grade ∧ some change.cause = entry.cause ∧
            some change.surfaceComparison = entry.surfaceComparison

theorem LastChange.append {entries : List HistoryEntry} {change : Option GradeChange}
    (h : LastChange entries change) {last : HistoryEntry} (hlast : last.gradeChanged = false) :
    LastChange (entries ++ [last]) change := by
  cases change with
  | none =>
    intro entry hentry
    obtain hentry | hentry := List.mem_append.mp hentry
    · exact h entry hentry
    · rw [List.mem_singleton.mp hentry]
      exact hlast
  | some change =>
    obtain ⟨before, previous, entry, after, rfl, hchanged, hafter, hsame⟩ := h
    refine ⟨before, previous, entry, after ++ [last], by simp, hchanged, ?_, hsame⟩
    intro later hlater
    obtain hlater | hlater := List.mem_append.mp hlater
    · exact hafter later hlater
    · rw [List.mem_singleton.mp hlater]
      exact hlast

theorem latestGradeChange_eq {history : List ScanRecord} (h : OneServer history) :
    ∃ change, latestGradeChange history = .ok change ∧ LastChange (timelineOf history.reverse) change := by
  induction history with
  | nil => exact ⟨none, rfl, fun entry hentry => nomatch hentry⟩
  | cons current rest ih =>
    cases rest with
    | nil =>
      refine ⟨none, rfl, fun entry hentry => ?_⟩
      rw [List.mem_singleton.mp hentry]
      rfl
    | cons previous rest =>
      obtain ⟨change, hchange, hlast⟩ := ih h.tail
      have hslug := h previous (List.mem_cons_of_mem _ List.mem_cons_self) current List.mem_cons_self
      obtain ⟨drift, hdrift, htime, hprevious, hcurrent, hcause, hsurface⟩ := diff_of_slug hslug
      have htimeline : timelineOf (current :: previous :: rest).reverse =
          timelineOf (previous :: rest).reverse ++ [stepEntry previous current] := by
        rw [List.reverse_cons, List.reverse_cons, List.append_assoc, List.singleton_append, timelineOf_append]
      rw [latestGradeChange, hdrift, htimeline]
      by_cases hgrade : previous.grade ≠ current.grade
      · obtain ⟨before, entry, hbefore, hentry, -⟩ := timelineOf_last rest.reverse previous
        rw [← List.reverse_cons] at hbefore
        simp only [bind, Except.bind, hprevious, hcurrent, if_pos hgrade]
        refine ⟨_, rfl, before, entry, stepEntry previous current, [], ?_, decide_eq_true hgrade,
          (fun later hlater => nomatch hlater), htime, hentry.symm, rfl, ?_, ?_⟩
        · rw [hbefore, List.append_assoc, List.singleton_append]
        · rw [hcause]
          rfl
        · rw [hsurface]
          rfl
      · simp only [bind, Except.bind, hprevious, hcurrent, if_neg hgrade]
        exact ⟨change, hchange, hlast.append (decide_eq_false hgrade)⟩

/-! ## The totals -/

/-- The times of the history are aware. -/
def Aware (history : List ScanRecord) : Prop := ∀ scan ∈ history, scan.scannedAt.offset.isSome = true

/-- The adjacent pairs of scans whose letters differ. -/
def letterChanges : List ScanRecord → Nat
  | a :: b :: rest => (if a.grade ≠ b.grade then 1 else 0) + letterChanges (b :: rest)
  | _ => 0

theorem letterChanges_append (scans : List ScanRecord) (a b : ScanRecord) :
    letterChanges (scans ++ [a, b]) = letterChanges (scans ++ [a]) + if a.grade ≠ b.grade then 1 else 0 := by
  induction scans with
  | nil => exact Nat.add_comm _ _
  | cons scan rest ih =>
    cases rest with
    | nil =>
      simp only [List.cons_append, List.nil_append, letterChanges]
      omega
    | cons next rest =>
      have hcons : ∀ tail, letterChanges (scan :: next :: tail) =
          (if scan.grade ≠ next.grade then 1 else 0) + letterChanges (next :: tail) := fun _ => rfl
      simp only [List.cons_append] at ih ⊢
      rw [hcons, hcons, ih, Nat.add_assoc]

theorem letterChanges_reverse (scans : List ScanRecord) : letterChanges scans.reverse = letterChanges scans := by
  induction scans with
  | nil => rfl
  | cons a rest ih =>
    cases rest with
    | nil => rfl
    | cons b rest =>
      rw [List.reverse_cons] at ih
      rw [List.reverse_cons, List.reverse_cons, List.append_assoc, List.singleton_append, letterChanges_append, ih,
        Nat.add_comm, letterChanges]
      simp only [ne_comm]

theorem countSteps_gradeChanges (scans : List ScanRecord) : (countSteps scans).gradeChanges = letterChanges scans := by
  induction scans with
  | nil => rfl
  | cons a rest ih =>
    cases rest with
    | nil => rfl
    | cons b rest => exact congrArg ((if a.grade ≠ b.grade then 1 else 0) + ·) ih

theorem countSteps_surface_le (scans : List ScanRecord) :
    (countSteps scans).surfaceChanges ≤ (countSteps scans).comparable := by
  induction scans with
  | nil => exact Nat.le_refl 0
  | cons a rest ih =>
    cases rest with
    | nil => exact Nat.le_refl 0
    | cons b rest =>
      have hstep : (stepCounts a b).surfaceChanges ≤ (stepCounts a b).comparable := by
        simp only [stepCounts]
        cases ha : a.evidence <;> cases hb : b.evidence <;> simp [compareSurfaces]
        split_ifs <;> omega
      exact Nat.add_le_add hstep ih

theorem countSteps_comparable_le (scans : List ScanRecord) :
    (countSteps scans).comparable ≤ scans.length - 1 ∧ (countSteps scans).gradeChanges ≤ scans.length - 1 := by
  induction scans with
  | nil => exact ⟨Nat.le_refl 0, Nat.le_refl 0⟩
  | cons a rest ih =>
    cases rest with
    | nil => exact ⟨Nat.le_refl 0, Nat.le_refl 0⟩
    | cons b rest =>
      have hstep : (stepCounts a b).comparable ≤ 1 ∧ (stepCounts a b).gradeChanges ≤ 1 := by
        simp only [stepCounts]
        constructor <;> split_ifs <;> omega
      have hcomparable : (countSteps (a :: b :: rest)).comparable =
          (stepCounts a b).comparable + (countSteps (b :: rest)).comparable := rfl
      have hgrades : (countSteps (a :: b :: rest)).gradeChanges =
          (stepCounts a b).gradeChanges + (countSteps (b :: rest)).gradeChanges := rfl
      simp only [List.length_cons] at ih ⊢
      omega

theorem addSteps_comparedPairs (totals : HistoryTotals) (entries : List HistoryEntry) :
    (totals.addSteps entries).comparedPairs = totals.comparedPairs + (entries.length - 1) := by
  induction entries generalizing totals with
  | nil => rfl
  | cons previous rest ih =>
    cases rest with
    | nil => rfl
    | cons entry rest =>
      have hstep : (totals.addStep previous entry).comparedPairs = totals.comparedPairs + 1 := rfl
      rw [HistoryTotals.addSteps, ih, hstep]
      simp only [List.length_cons]
      omega

/-- The earliest of some times, equal instants being equal times. -/
def EarliestOf (times : List DateTime) : Option DateTime → Prop
  | none => times = []
  | some first => first ∈ times ∧ ∀ time ∈ times, first.instant ≤ time.instant

def LatestOf (times : List DateTime) : Option DateTime → Prop
  | none => times = []
  | some last => last ∈ times ∧ ∀ time ∈ times, time.instant ≤ last.instant

def AwareTime (time : DateTime) : Prop := time.offset.isSome = true

theorem earlier_aware {a b : DateTime} (ha : AwareTime a) (hb : AwareTime b) :
    earlier a b = .ok (decide (a.instant < b.instant)) := by
  unfold earlier
  rw [if_pos (ha.trans hb.symm)]

theorem minTime_ok {times : List DateTime} {a : Option DateTime} (h : EarliestOf times a)
    (htimes : ∀ time ∈ times, AwareTime time) {b : DateTime} (hb : AwareTime b) :
    ∃ first, minTime a b = .ok first ∧ EarliestOf (times ++ [b]) (some first) := by
  cases a with
  | none =>
    have hnil : times = [] := h
    rw [hnil]
    refine ⟨b, rfl, List.mem_singleton_self b, fun time htime => ?_⟩
    rw [List.mem_singleton.mp htime]
  | some a =>
    obtain ⟨ha, hle⟩ := h
    simp only [minTime, earlier_aware hb (htimes a ha), bind, Except.bind]
    by_cases hless : b.instant < a.instant
    · refine ⟨b, by rw [decide_eq_true hless, if_pos rfl], List.mem_append_right _ (List.mem_singleton_self b), ?_⟩
      intro time htime
      obtain htime | htime := List.mem_append.mp htime
      · exact (le_of_lt hless).trans (hle time htime)
      · rw [List.mem_singleton.mp htime]
    · refine ⟨a, by rw [decide_eq_false hless]; rfl, List.mem_append_left _ ha, ?_⟩
      intro time htime
      obtain htime | htime := List.mem_append.mp htime
      · exact hle time htime
      · rw [List.mem_singleton.mp htime]
        exact not_lt.mp hless

theorem maxTime_ok {times : List DateTime} {a : Option DateTime} (h : LatestOf times a)
    (htimes : ∀ time ∈ times, AwareTime time) {b : DateTime} (hb : AwareTime b) :
    ∃ last, maxTime a b = .ok last ∧ LatestOf (times ++ [b]) (some last) := by
  cases a with
  | none =>
    have hnil : times = [] := h
    rw [hnil]
    refine ⟨b, rfl, List.mem_singleton_self b, fun time htime => ?_⟩
    rw [List.mem_singleton.mp htime]
  | some a =>
    obtain ⟨ha, hle⟩ := h
    simp only [maxTime, earlier_aware (htimes a ha) hb, bind, Except.bind]
    by_cases hless : a.instant < b.instant
    · refine ⟨b, by rw [decide_eq_true hless, if_pos rfl], List.mem_append_right _ (List.mem_singleton_self b), ?_⟩
      intro time htime
      obtain htime | htime := List.mem_append.mp htime
      · exact (hle time htime).trans (le_of_lt hless)
      · rw [List.mem_singleton.mp htime]
    · refine ⟨a, by rw [decide_eq_false hless]; rfl, List.mem_append_left _ ha, ?_⟩
      intro time htime
      obtain htime | htime := List.mem_append.mp htime
      · exact hle time htime
      · rw [List.mem_singleton.mp htime]
        exact not_lt.mp hless

/-- The totals of one history. -/
def singleTotals (history : List ScanRecord) : HistoryTotals where
  servers := if history.isEmpty then 0 else 1
  scans := history.length
  comparedPairs := history.length - 1
  comparablePairs := (historyCounts history).comparable
  surfaceChanges := (historyCounts history).surfaceChanges
  gradeChanges := (historyCounts history).gradeChanges
  gradeChangesWithEngineChange := (historyCounts history).withEngineChange
  firstScannedAt := history.getLast?.map ScanRecord.scannedAt
  lastScannedAt := history.head?.map ScanRecord.scannedAt

/-- The totals are the component-wise sum, minimum and maximum of parts. -/
structure SumOf (parts : List HistoryTotals) (totals : HistoryTotals) : Prop where
  servers : totals.servers = (parts.map HistoryTotals.servers).sum
  scans : totals.scans = (parts.map HistoryTotals.scans).sum
  comparedPairs : totals.comparedPairs = (parts.map HistoryTotals.comparedPairs).sum
  comparablePairs : totals.comparablePairs = (parts.map HistoryTotals.comparablePairs).sum
  surfaceChanges : totals.surfaceChanges = (parts.map HistoryTotals.surfaceChanges).sum
  gradeChanges : totals.gradeChanges = (parts.map HistoryTotals.gradeChanges).sum
  gradeChangesWithEngineChange :
    totals.gradeChangesWithEngineChange = (parts.map HistoryTotals.gradeChangesWithEngineChange).sum
  firstScannedAt : EarliestOf (parts.filterMap HistoryTotals.firstScannedAt) totals.firstScannedAt
  lastScannedAt : LatestOf (parts.filterMap HistoryTotals.lastScannedAt) totals.lastScannedAt

theorem sumOf_nil : SumOf [] .empty := ⟨rfl, rfl, rfl, rfl, rfl, rfl, rfl, rfl, rfl⟩

theorem timelineOf_length (scans : List ScanRecord) : (timelineOf scans).length = scans.length := by
  have hsteps : ∀ (scans : List ScanRecord) (previous : ScanRecord),
      (stepEntries previous scans).length = scans.length := by
    intro scans
    induction scans with
    | nil => exact fun _ => rfl
    | cons scan rest ih => exact fun previous => congrArg (· + 1) (ih scan)
  cases scans with
  | nil => rfl
  | cons scan rest => exact congrArg (· + 1) (hsteps rest scan)

/-- The timeline of a history begins with its oldest scan and ends with its newest. -/
theorem timelineOf_ends {history : List ScanRecord} {newest oldest : ScanRecord}
    (hnewest : history.head? = some newest) (holdest : history.getLast? = some oldest) :
    ∃ first rest last, timelineOf history.reverse = first :: rest ∧ (first :: rest).getLast? = some last ∧
      first.scannedAt = oldest.scannedAt ∧ last.scannedAt = newest.scannedAt := by
  rw [← List.head?_reverse] at holdest
  obtain ⟨others, hothers⟩ := List.head?_eq_some_iff.mp holdest
  obtain ⟨before, hbefore⟩ := List.head?_eq_some_iff.mp hnewest
  obtain ⟨entries, last, hlast, -, htime⟩ := timelineOf_last before.reverse newest
  rw [← List.reverse_cons, ← hbefore] at hlast
  refine ⟨firstEntry oldest, stepEntries oldest others, last, ?_, ?_, rfl, htime⟩
  · rw [hothers]
    rfl
  · have htimeline : firstEntry oldest :: stepEntries oldest others = entries ++ [last] := by
      rw [← hlast, hothers]
      rfl
    rw [htimeline, List.getLast?_concat]

/-- One more history adds its own totals. -/
theorem SumOf.addHistory {parts : List HistoryTotals} {totals : HistoryTotals} (h : SumOf parts totals)
    (hfirst : ∀ time ∈ parts.filterMap HistoryTotals.firstScannedAt, AwareTime time)
    (hlast : ∀ time ∈ parts.filterMap HistoryTotals.lastScannedAt, AwareTime time) {history : List ScanRecord}
    (hserver : OneServer history) (haware : Aware history) :
    ∃ totals', totals.addHistory history = .ok totals' ∧ SumOf (parts ++ [singleTotals history]) totals' := by
  have htimeline := gradeTimeline_eq hserver
  cases history with
  | nil =>
    refine ⟨totals, rfl, ?_⟩
    constructor
    case firstScannedAt =>
      rw [List.filterMap_append]
      simpa [singleTotals] using h.firstScannedAt
    case lastScannedAt =>
      rw [List.filterMap_append]
      simpa [singleTotals] using h.lastScannedAt
    all_goals
      rw [List.map_append, List.sum_append]
    · exact h.servers
    · exact h.scans
    · exact h.comparedPairs
    · exact h.comparablePairs
    · exact h.surfaceChanges
    · exact h.gradeChanges
    · exact h.gradeChangesWithEngineChange
  | cons newest rest =>
    have hne : newest :: rest ≠ [] := List.cons_ne_nil _ _
    have holdest := List.getLast?_eq_some_getLast hne
    obtain ⟨first, entries, last, hentries, hgetLast, hfirstAt, hlastAt⟩ :=
      @timelineOf_ends (newest :: rest) _ _ rfl holdest
    have hlength := timelineOf_length (newest :: rest).reverse
    rw [hentries, List.length_reverse] at hlength
    obtain ⟨firstAt, hminTime, hmin⟩ := minTime_ok h.firstScannedAt hfirst
      (b := first.scannedAt) (by rw [hfirstAt]; exact haware _ (List.getLast_mem hne))
    obtain ⟨lastAt, hmaxTime, hmax⟩ := maxTime_ok h.lastScannedAt hlast
      (b := last.scannedAt) (by rw [hlastAt]; exact haware _ List.mem_cons_self)
    have hframe := addSteps_frame (first :: entries)
      { totals with servers := totals.servers + 1, scans := totals.scans + (first :: entries).length }
    have hpairs := addSteps_comparedPairs
      { totals with servers := totals.servers + 1, scans := totals.scans + (first :: entries).length }
      (first :: entries)
    have hadded : ∃ totals', totals.addHistory (newest :: rest) = .ok totals' ∧
        totals'.servers = totals.servers + 1 ∧ totals'.scans = totals.scans + (newest :: rest).length ∧
          totals'.comparedPairs = totals.comparedPairs + ((newest :: rest).length - 1) ∧
            totals'.firstScannedAt = some firstAt ∧ totals'.lastScannedAt = some lastAt := by
      rw [HistoryTotals.addHistory, htimeline, hentries]
      simp only [bind, Except.bind, hgetLast, hminTime, hmaxTime]
      refine ⟨_, rfl, hframe.servers, ?_, ?_, rfl, rfl⟩
      · rw [← hlength]
        exact hframe.scans
      · rw [← hlength]
        exact hpairs
    obtain ⟨totals', hok, hservers, hscans, hcompared, hfirstScanned, hlastScanned⟩ := hadded
    have hcounts := counts_addHistory hok
    simp only [HistoryTotals.counts, StepCounts.add, StepCounts.mk.injEq] at hcounts
    obtain ⟨hcomparable, hsurface, hgrades, hengines⟩ := hcounts
    refine ⟨totals', hok, ?_⟩
    constructor
    case firstScannedAt =>
      rw [hfirstScanned, List.filterMap_append]
      have hsingle : [singleTotals (newest :: rest)].filterMap HistoryTotals.firstScannedAt = [first.scannedAt] := by
        rw [hfirstAt]
        simp [singleTotals, holdest]
      rw [hsingle]
      exact hmin
    case lastScannedAt =>
      rw [hlastScanned, List.filterMap_append]
      have hsingle : [singleTotals (newest :: rest)].filterMap HistoryTotals.lastScannedAt = [last.scannedAt] := by
        rw [hlastAt]
        rfl
      rw [hsingle]
      exact hmax
    all_goals
      rw [List.map_append, List.sum_append]
    · rw [hservers, h.servers]
      rfl
    · rw [hscans, h.scans]
      rfl
    · rw [hcompared, h.comparedPairs]
      rfl
    · rw [hcomparable, h.comparablePairs]
      rfl
    · rw [hsurface, h.surfaceChanges]
      rfl
    · rw [hgrades, h.gradeChanges]
      rfl
    · rw [hengines, h.gradeChangesWithEngineChange]
      rfl

theorem aware_singles {histories : List (List ScanRecord)} (h : ∀ history ∈ histories, Aware history) :
    (∀ time ∈ (histories.map singleTotals).filterMap HistoryTotals.firstScannedAt, AwareTime time) ∧
      ∀ time ∈ (histories.map singleTotals).filterMap HistoryTotals.lastScannedAt, AwareTime time := by
  constructor
  all_goals
    intro time htime
    obtain ⟨single, hsingle, htime⟩ := List.mem_filterMap.mp htime
    obtain ⟨history, hhistory, rfl⟩ := List.mem_map.mp hsingle
    obtain ⟨scan, hscan, rfl⟩ := Option.map_eq_some_iff.mp htime
  · exact h history hhistory scan (List.mem_of_getLast? hscan)
  · exact h history hhistory scan (List.mem_of_head? hscan)

/-- The corpus totals are the sum of the totals of the single histories. -/
theorem corpusHistoryTotals_sum {histories : List (List ScanRecord)}
    (hserver : ∀ history ∈ histories, OneServer history) (haware : ∀ history ∈ histories, Aware history) :
    ∃ totals, corpusHistoryTotals histories = .ok totals ∧ SumOf (histories.map singleTotals) totals := by
  have hfold : ∀ (rest before : List (List ScanRecord)) (start : HistoryTotals),
      (∀ history ∈ rest, OneServer history) → (∀ history ∈ before ++ rest, Aware history) →
        SumOf (before.map singleTotals) start → ∃ totals,
          rest.foldlM HistoryTotals.addHistory start = .ok totals ∧
            SumOf ((before ++ rest).map singleTotals) totals := by
    intro rest
    induction rest with
    | nil =>
      intro before start _ _ hstart
      rw [List.append_nil]
      exact ⟨start, rfl, hstart⟩
    | cons history rest ih =>
      intro before start hone haware hstart
      obtain ⟨hfirst, hlast⟩ := aware_singles fun h hh => haware h (List.mem_append_left _ hh)
      obtain ⟨next, hnext, hsum⟩ := hstart.addHistory hfirst hlast (hone history List.mem_cons_self)
        (haware history (List.mem_append_right _ List.mem_cons_self))
      have hsum : SumOf ((before ++ [history]).map singleTotals) next := by
        rw [List.map_append]
        exact hsum
      obtain ⟨totals, htotals, hrest⟩ := ih (before ++ [history]) next
        (fun h hh => hone h (List.mem_cons_of_mem _ hh)) (by rwa [List.append_assoc]) hsum
      rw [List.append_assoc] at hrest
      refine ⟨totals, ?_, hrest⟩
      rw [List.foldlM_cons, hnext]
      exact htotals
  exact hfold histories [] .empty hserver haware sumOf_nil

/-! ## Order and bounds -/

/-- `a == b` of totals; equal instants are equal times. -/
structure SameTotals (a b : HistoryTotals) : Prop where
  servers : a.servers = b.servers
  scans : a.scans = b.scans
  comparedPairs : a.comparedPairs = b.comparedPairs
  comparablePairs : a.comparablePairs = b.comparablePairs
  surfaceChanges : a.surfaceChanges = b.surfaceChanges
  gradeChanges : a.gradeChanges = b.gradeChanges
  gradeChangesWithEngineChange : a.gradeChangesWithEngineChange = b.gradeChangesWithEngineChange
  firstScannedAt : a.firstScannedAt.map DateTime.instant = b.firstScannedAt.map DateTime.instant
  lastScannedAt : a.lastScannedAt.map DateTime.instant = b.lastScannedAt.map DateTime.instant

theorem EarliestOf.perm {times times' : List DateTime} (hperm : times.Perm times') {a b : Option DateTime}
    (ha : EarliestOf times a) (hb : EarliestOf times' b) :
    a.map DateTime.instant = b.map DateTime.instant := by
  cases a with
  | none =>
    have hnil : times = [] := ha
    rw [hnil] at hperm
    rw [hperm.symm.eq_nil] at hb
    cases b with
    | none => rfl
    | some _ => exact absurd hb.1 List.not_mem_nil
  | some first =>
    cases b with
    | none =>
      have hnil : times' = [] := hb
      rw [hnil] at hperm
      rw [hperm.eq_nil] at ha
      exact absurd ha.1 List.not_mem_nil
    | some first' =>
      have hle := ha.2 first' (hperm.mem_iff.mpr hb.1)
      have hge := hb.2 first (hperm.mem_iff.mp ha.1)
      exact congrArg some (le_antisymm hle hge)

theorem LatestOf.perm {times times' : List DateTime} (hperm : times.Perm times') {a b : Option DateTime}
    (ha : LatestOf times a) (hb : LatestOf times' b) : a.map DateTime.instant = b.map DateTime.instant := by
  cases a with
  | none =>
    have hnil : times = [] := ha
    rw [hnil] at hperm
    rw [hperm.symm.eq_nil] at hb
    cases b with
    | none => rfl
    | some _ => exact absurd hb.1 List.not_mem_nil
  | some last =>
    cases b with
    | none =>
      have hnil : times' = [] := hb
      rw [hnil] at hperm
      rw [hperm.eq_nil] at ha
      exact absurd ha.1 List.not_mem_nil
    | some last' =>
      have hle := hb.2 last (hperm.mem_iff.mp ha.1)
      have hge := ha.2 last' (hperm.mem_iff.mpr hb.1)
      exact congrArg some (le_antisymm hle hge)

/-- Totals of the same parts in another order are the same. -/
theorem SumOf.perm {parts parts' : List HistoryTotals} (hperm : parts.Perm parts') {a b : HistoryTotals}
    (ha : SumOf parts a) (hb : SumOf parts' b) : SameTotals a b := by
  have hsum : ∀ count : HistoryTotals → Nat, (parts.map count).sum = (parts'.map count).sum :=
    fun count => (hperm.map count).sum_eq
  constructor
  · rw [ha.servers, hb.servers, hsum]
  · rw [ha.scans, hb.scans, hsum]
  · rw [ha.comparedPairs, hb.comparedPairs, hsum]
  · rw [ha.comparablePairs, hb.comparablePairs, hsum]
  · rw [ha.surfaceChanges, hb.surfaceChanges, hsum]
  · rw [ha.gradeChanges, hb.gradeChanges, hsum]
  · rw [ha.gradeChangesWithEngineChange, hb.gradeChangesWithEngineChange, hsum]
  · exact ha.firstScannedAt.perm (hperm.filterMap _) hb.firstScannedAt
  · exact ha.lastScannedAt.perm (hperm.filterMap _) hb.lastScannedAt

/-- The counts of the totals under one another. -/
structure Bounded (totals : HistoryTotals) : Prop where
  servers : totals.servers ≤ totals.scans
  compared : totals.comparedPairs = totals.scans - totals.servers
  surface : totals.surfaceChanges ≤ totals.comparablePairs
  comparable : totals.comparablePairs ≤ totals.comparedPairs
  engine : totals.gradeChangesWithEngineChange ≤ totals.gradeChanges
  grades : totals.gradeChanges ≤ totals.comparedPairs

theorem bounded_single (history : List ScanRecord) : Bounded (singleTotals history) := by
  obtain ⟨hcomparable, hgrades⟩ := countSteps_comparable_le history.reverse
  rw [List.length_reverse] at hcomparable hgrades
  refine ⟨?_, ?_, countSteps_surface_le _, hcomparable, countSteps_engine_le _, hgrades⟩
  all_goals
    simp only [singleTotals]
    cases history with
    | nil => rfl
    | cons scan rest => simp

theorem bounded_sum {parts : List HistoryTotals} {totals : HistoryTotals} (h : SumOf parts totals)
    (hparts : ∀ part ∈ parts, Bounded part) : Bounded totals := by
  have hle : ∀ f g : HistoryTotals → Nat, (∀ part ∈ parts, f part ≤ g part) →
      (parts.map f).sum ≤ (parts.map g).sum := fun f g => List.sum_le_sum
  have hcompared : (parts.map HistoryTotals.comparedPairs).sum + (parts.map HistoryTotals.servers).sum =
      (parts.map HistoryTotals.scans).sum := by
    rw [← List.sum_map_add]
    apply congrArg List.sum
    apply List.map_congr_left
    intro part hpart
    obtain ⟨hservers, heq, -⟩ := hparts part hpart
    omega
  have hservers := hle _ _ fun part hpart => (hparts part hpart).servers
  constructor
  · rw [h.servers, h.scans]
    exact hservers
  · rw [h.servers, h.scans, h.comparedPairs]
    omega
  · rw [h.surfaceChanges, h.comparablePairs]
    exact hle _ _ fun part hpart => (hparts part hpart).surface
  · rw [h.comparablePairs, h.comparedPairs]
    exact hle _ _ fun part hpart => (hparts part hpart).comparable
  · rw [h.gradeChangesWithEngineChange, h.gradeChanges]
    exact hle _ _ fun part hpart => (hparts part hpart).engine
  · rw [h.gradeChanges, h.comparedPairs]
    exact hle _ _ fun part hpart => (hparts part hpart).grades

/-- A sum of one part is that part. -/
theorem sumOf_singleton {part totals : HistoryTotals} (h : SumOf [part] totals) : totals = part := by
  have hfirst := h.firstScannedAt
  have hlast := h.lastScannedAt
  obtain ⟨hservers, hscans, hcompared, hcomparable, hsurface, hgrades, hengines, -, -⟩ := h
  obtain ⟨servers, scans, compared, comparable, surface, grades, engines, first, last⟩ := totals
  obtain ⟨servers', scans', compared', comparable', surface', grades', engines', first', last'⟩ := part
  simp only [List.map_cons, List.map_nil, List.sum_cons, List.sum_nil, Nat.add_zero] at *
  subst hservers hscans hcompared hcomparable hsurface hgrades hengines
  have hfirst : first = first' := by
    cases first <;> cases first' <;> simp_all [EarliestOf]
  have hlast : last = last' := by
    cases last <;> cases last' <;> simp_all [LatestOf]
  rw [hfirst, hlast]

/-- The latest change, the timeline and the totals are views of one history. -/
theorem history_views :
    (∀ history, OneServer history → ∃ entries change, gradeTimeline history = .ok entries ∧
      latestGradeChange history = .ok change ∧ LastChange entries change) ∧
    ∀ histories : List (List ScanRecord), (∀ history ∈ histories, OneServer history) →
      (∀ history ∈ histories, Aware history) → ∃ totals, corpusHistoryTotals histories = .ok totals ∧
        (∀ other, histories.Perm other → ∃ totals', corpusHistoryTotals other = .ok totals' ∧
          SameTotals totals totals') ∧
        (∃ singles, List.Forall₂ (fun history single => corpusHistoryTotals [history] = .ok single)
          histories singles ∧ SumOf singles totals) ∧
        Bounded totals ∧ totals.gradeChanges = (histories.map letterChanges).sum := by
  constructor
  · intro history hserver
    obtain ⟨change, hchange, hlast⟩ := latestGradeChange_eq hserver
    exact ⟨_, change, gradeTimeline_eq hserver, hchange, hlast⟩
  · intro histories hserver haware
    obtain ⟨totals, htotals, hsum⟩ := corpusHistoryTotals_sum hserver haware
    refine ⟨totals, htotals, ?_, ⟨histories.map singleTotals, ?_, hsum⟩, ?_, ?_⟩
    · intro other hperm
      obtain ⟨totals', htotals', hsum'⟩ := corpusHistoryTotals_sum
        (fun history h => hserver history (hperm.mem_iff.mpr h)) fun history h => haware history (hperm.mem_iff.mpr h)
      exact ⟨totals', htotals', hsum.perm (hperm.map _) hsum'⟩
    · apply List.forall₂_map_right_iff.mpr
      apply List.forall₂_same.mpr
      intro history hhistory
      obtain ⟨single, hsingle, hpart⟩ := @corpusHistoryTotals_sum
        [history] (fun h hh => by rw [List.mem_singleton.mp hh]; exact hserver _ hhistory)
        fun h hh => by rw [List.mem_singleton.mp hh]; exact haware _ hhistory
      rw [hsingle, sumOf_singleton hpart]
    · apply bounded_sum hsum
      intro part hpart
      obtain ⟨history, -, rfl⟩ := List.mem_map.mp hpart
      exact bounded_single history
    · rw [hsum.gradeChanges, List.map_map]
      apply congrArg List.sum
      apply List.map_congr_left
      intro history _
      exact (countSteps_gradeChanges history.reverse).trans (letterChanges_reverse history)

end McpTrust
