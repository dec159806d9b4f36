import McpTrust.Site.Movement

/-! # Masked verdicts on the public surfaces

Every projection cuts the verdict of a masked scan. The methodology page is not a
projection: it counts the steps of all histories.
-/

namespace McpTrust.Site

set_option autoImplicit false

open Python Store Sqlite

variable {d : Deployment} {templates : Templates}

/-- The same servers, and scans that differ in verdicts of masked slugs only. -/
structure SameRegistry (d : Deployment) (s t : Registry) : Prop where
  servers : s.servers = t.servers
  scans : SameScans d.py d.interp d.masked s.scans t.scans

variable {s t : Registry}

/-- Two scans found under `slug`. -/
abbrev Differ (d : Deployment) (slug : Str) : ScanRecord → ScanRecord → Prop :=
  DifferIfMasked d.masked (.text slug)

/-! ## Projections -/

section Projections

variable {slug : Str} {x y : Option ScanRecord}

theorem Differ.eq_of_unmasked {a b : ScanRecord} (h : Differ d slug a b) (hslug : d.isMasked slug = false) :
    a = b := DifferIfMasked.eq h (of_decide_eq_false hslug)

theorem isSome_related (h : Option.Rel (Differ d slug) x y) : x.isSome = y.isSome := by
  cases h with
  | none => rfl
  | some => rfl

theorem classify_related (h : Option.Rel (Differ d slug) x y) : classify x = classify y := by
  cases h with
  | none => rfl
  | some hxy => exact hxy.1.classify

theorem scannedAt_related (h : Option.Rel (Differ d slug) x y) :
    x.map ScanRecord.scannedAt = y.map ScanRecord.scannedAt := by
  cases h with
  | none => rfl
  | some hxy => exact congrArg some hxy.1.scannedAt

theorem projectPublicScan_related (h : Option.Rel (Differ d slug) x y) (unreadable : Bool) :
    projectPublicScan d.dumpTime x d.now (d.isMasked slug) unreadable =
      projectPublicScan d.dumpTime y d.now (d.isMasked slug) unreadable := by
  cases h with
  | none => rfl
  | @some a b hab =>
    by_cases hmasked : d.isMasked slug = true
    · simp only [projectPublicScan, hmasked, hab.1.scannedAt, readablePayload_masked hab.1]
    · rw [hab.eq_of_unmasked (Bool.eq_false_iff.mpr hmasked)]

theorem projectPublicSummary_related (h : Option.Rel (Differ d slug) x y) (server : Server)
    (unreadable : Bool) :
    projectPublicSummary d.dumpTime server x d.now (d.isMasked slug) unreadable =
      projectPublicSummary d.dumpTime server y d.now (d.isMasked slug) unreadable := by
  unfold projectPublicSummary
  rw [projectPublicScan_related h]

/-- A withheld badge does not look at the grade. -/
theorem badgePayload_masked (grade grade' : Str) (provenance : ScanProvenance) (stale succeeded : Bool)
    (historicalAt : Option DateTime) :
    badgePayload grade provenance stale true succeeded historicalAt =
      badgePayload grade' provenance stale true succeeded historicalAt := by
  unfold badgePayload
  by_cases hunknown : provenance = .unknown
  · rw [if_pos hunknown, if_pos hunknown]
  · rw [if_neg hunknown, if_neg hunknown]
    by_cases hunscanned : provenance = .unscanned
    · rw [if_pos hunscanned, if_pos hunscanned]
    · rw [if_neg hunscanned, if_neg hunscanned]
      rfl

theorem gradeText_related (h : Option.Rel (Differ d slug) x y) :
    gradeText x = gradeText y ∨ d.isMasked slug = true ∧ x.isSome = true := by
  cases h with
  | none => exact .inl rfl
  | @some a b hab =>
    by_cases hmasked : d.isMasked slug = true
    · exact .inr ⟨hmasked, rfl⟩
    · rw [hab.eq_of_unmasked (Bool.eq_false_iff.mpr hmasked)]
      exact .inl rfl

end Projections

/-! ## Endpoints -/

theorem listServers_eq (h : SameRegistry d s t) : listServers d s = listServers d t := by
  apply SameOutcome.eq
  refine h.scans.latestAllReadback.bind fun r r' hr => ?_
  rw [h.servers, hr.unreadable]
  have hsummary : ∀ server : Server,
      projectPublicSummary d.dumpTime server (r.records (.text server.slug)) d.now (d.isMasked server.slug)
          (r'.unreadable (.text server.slug)) =
        projectPublicSummary d.dumpTime server (r'.records (.text server.slug)) d.now
          (d.isMasked server.slug) (r'.unreadable (.text server.slug)) :=
    fun server => projectPublicSummary_related (hr.records (.text server.slug)) server _
  simp only [hsummary]
  exact SameOutcome.refl (fun _ => rfl) _

theorem readableHistory_related (h : SameRegistry d s t) (slug : Str) :
    SameOutcome (Option.Rel (List.Forall₂ (Differ d slug))) (readableHistory d s slug)
      (readableHistory d t slug) := by
  apply SameOutcome.catching
  · exact (h.scans.history slug).map fun _ _ hxy => .some hxy
  · exact .none

theorem readableLatest_related (h : SameRegistry d s t) (slug : Str) :
    SameOutcome (Option.Rel (Option.Rel (Differ d slug))) (readableLatest d s slug)
      (readableLatest d t slug) := by
  apply SameOutcome.catching
  · exact (h.scans.latest slug).map fun _ _ hxy => .some hxy
  · exact .none

theorem forall₂_eq_of_unmasked {slug : Str} (hslug : d.isMasked slug = false) {xs ys : List ScanRecord}
    (h : List.Forall₂ (Differ d slug) xs ys) : xs = ys := by
  induction h with
  | nil => rfl
  | cons hxy _ ih => rw [hxy.eq_of_unmasked hslug, ih]

/-- An unmasked slug has one history. -/
theorem readableHistory_eq (h : SameRegistry d s t) {slug : Str} (hslug : d.isMasked slug = false) :
    readableHistory d s slug = readableHistory d t slug := by
  apply SameOutcome.eq
  apply (readableHistory_related h slug).mono
  intro xs ys hxy
  cases hxy with
  | none => rfl
  | some hxy => exact congrArg some (forall₂_eq_of_unmasked hslug hxy)

/-- `try: x except handled: None` has a value only from `x`. -/
theorem catching_none_eq_some {α : Type} {x : Except PyErr α} {handled : PyErr → Bool} {a : α} :
    catching (x.map some) handled (.ok none) = .ok (some a) ↔ x = .ok a := by
  cases x with
  | ok b =>
    simp only [Except.map, catching_ok, Except.ok.injEq, Option.some.injEq]
  | error e =>
    simp only [Except.map, catching_error, reduceCtorEq, iff_false]
    by_cases hhandled : handled e = true
    · rw [if_pos hhandled]
      exact nofun
    · rw [if_neg hhandled]
      exact nofun

/-- A slug without a newest scan has no history. -/
theorem readableHistory_of_none {registry : Registry} {slug : Str}
    (h : readableLatest d registry slug = .ok (some none)) :
    readableHistory d registry slug = .ok (some []) := by
  have hlatest := catching_none_eq_some.mp h
  apply catching_none_eq_some.mpr
  unfold latest at hlatest
  unfold history
  cases hrows : newestFirst (.text slug) registry.scans.rows with
  | nil => rfl
  | cons row rest =>
    rw [hrows] at hlatest
    simp only [List.head?_cons] at hlatest
    cases hrow : rowToScan d.py d.interp row <;> rw [hrow] at hlatest <;> cases hlatest

theorem diff_same_slug {a b : ScanRecord} (h : a.serverSlug = b.serverSlug) : ∃ drift, diff a b = .ok drift := by
  unfold diff
  rw [if_neg (not_not.mpr h)]
  exact ⟨_, rfl⟩

theorem latestGradeChange_ok {slug : Str} {scans : List ScanRecord}
    (h : ∀ scan ∈ scans, scan.serverSlug = slug) : ∃ change, latestGradeChange scans = .ok change := by
  induction scans with
  | nil => exact ⟨none, rfl⟩
  | cons current rest ih =>
    cases rest with
    | nil => exact ⟨none, rfl⟩
    | cons previous rest =>
      have hcurrent := h current List.mem_cons_self
      have hprevious := h previous (List.mem_cons_of_mem _ List.mem_cons_self)
      obtain ⟨drift, hdrift⟩ := diff_same_slug (hprevious.trans hcurrent.symm)
      obtain ⟨change, hchange⟩ := ih fun scan hscan => h scan (List.mem_cons_of_mem _ hscan)
      rw [latestGradeChange, hdrift]
      by_cases hgrade : drift.previousGrade ≠ drift.currentGrade
      · exact ⟨_, if_pos hgrade⟩
      · exact ⟨change, (if_neg hgrade).trans hchange⟩

theorem readableHistory_slug {registry : Registry} {slug : Str} {scans : List ScanRecord}
    (h : readableHistory d registry slug = .ok (some scans)) : ∀ scan ∈ scans, scan.serverSlug = slug := by
  intro scan hscan
  obtain ⟨row, hrow, hread⟩ := (mapM_ok_mem (catching_none_eq_some.mp h)).mp hscan
  have hslug := (copies_of_ok hread).serverSlug
  rw [(mem_newestFirst.mp hrow).2] at hslug
  exact (Except.ok.inj hslug).symm

theorem readableHistory_change {registry : Registry} {slug : Str} {stored : Option (List ScanRecord)}
    (h : readableHistory d registry slug = .ok stored) :
    ∃ change, latestGradeChange (stored.getD []) = .ok change := by
  cases stored with
  | none => exact ⟨none, rfl⟩
  | some scans => exact latestGradeChange_ok (readableHistory_slug h)

theorem readServer_eq (h : SameRegistry d s t) (server : Server) {x y : Option ScanRecord}
    (hxy : Option.Rel (Differ d server.slug) x y)
    (hx : readableLatest d s server.slug = .ok (some x))
    (hy : readableLatest d t server.slug = .ok (some y)) :
    readServer d s server x = readServer d t server y := by
  by_cases hwithheld : (d.isMasked server.slug && x.isSome) = true
  · -- the verdict of a masked scan: whatever the histories say is withheld
    have hwithheld' : (d.isMasked server.slug && y.isSome) = true := isSome_related hxy ▸ hwithheld
    apply SameOutcome.eq
    unfold readServer
    rw [projectPublicScan_related hxy, hwithheld, hwithheld']
    refine (readableHistory_related h server.slug).bind_of fun stored stored' hs ht _ => ?_
    refine (SameOutcome.refl (R := Eq) (fun _ => rfl) _).bind fun projected _ hprojected => ?_
    subst hprojected
    obtain ⟨change, hchange⟩ := readableHistory_change hs
    obtain ⟨change', hchange'⟩ := readableHistory_change ht
    rw [hchange, hchange']
    rfl
  · have hsame : readableHistory d s server.slug = readableHistory d t server.slug := by
      by_cases hmasked : d.isMasked server.slug = true
      · rw [hmasked, Bool.true_and, Bool.not_eq_true] at hwithheld
        cases hxy with
        | none => rw [readableHistory_of_none hx, readableHistory_of_none hy]
        | some => cases hwithheld
      · exact readableHistory_eq h (Bool.eq_false_iff.mpr hmasked)
    unfold readServer
    simp only [hsame, projectPublicScan_related hxy, isSome_related hxy]

theorem getServer_eq (h : SameRegistry d s t) (slug : Str) : getServer d s slug = getServer d t slug := by
  unfold getServer findServer
  rw [h.servers]
  cases t.servers.find? fun server => decide (server.slug = slug) with
  | none => rfl
  | some server =>
    apply SameOutcome.eq
    refine (readableLatest_related h server.slug).bind_of fun x y hx hy hxy => ?_
    cases hxy with
    | none => exact SameOutcome.refl (fun _ => rfl) _
    | some hxy =>
      simp only [readServer_eq h server hxy hx hy]
      exact SameOutcome.refl (fun _ => rfl) _

/-- The grade of a masked scan is withheld. -/
theorem readablePayload_withheld (scan : ScanRecord) (freshness : ScanFreshness) :
    Dict.get (readablePayload d.dumpTime scan freshness true) "grade_withheld" = .bool true := by
  have hwithheld : (Dict.keys (withheldFields true)).Nodup := by decide
  have hfreshness : (Dict.keys (freshnessFields scan freshness true)).Nodup := by
    simp [freshnessFields, Dict.keys]
  unfold Dict.get readablePayload
  rw [Bool.true_or, if_pos rfl, Dict.lookup_update hwithheld, Dict.lookup_update hfreshness]
  have hnot : Dict.lookup (withheldFields true) (u "grade_withheld") = none := by
    simp [withheldFields, Dict.lookup_cons]
  rw [hnot]
  simp [freshnessFields, Dict.lookup_cons]

theorem projectPublicScan_withheld {scan : ScanRecord} {projected : Option Dict}
    (h : projectPublicScan d.dumpTime (some scan) d.now true false = .ok projected) :
    ∃ fields, projected = some fields ∧ Dict.get fields "grade_withheld" = .bool true := by
  obtain ⟨freshness, -, h⟩ := bind_eq_ok.mp h
  cases h
  exact ⟨_, rfl, readablePayload_withheld scan freshness⟩

theorem badgeOf_eq (server : Server) {x y : Option ScanRecord}
    (hxy : Option.Rel (Differ d server.slug) x y) : badgeOf d server x = badgeOf d server y := by
  unfold badgeOf
  rw [projectPublicScan_related hxy, classify_related hxy]
  obtain hgrade | ⟨hmasked, hsome⟩ := gradeText_related hxy
  · rw [hgrade]
  · obtain ⟨scan, hscan⟩ := Option.isSome_iff_exists.mp (isSome_related hxy ▸ hsome)
    rw [hmasked, hscan]
    apply SameOutcome.eq
    refine (SameOutcome.refl (R := Eq) (fun _ => rfl) _).bind_of fun projected _ hprojected _ hsame => ?_
    subst hsame
    obtain ⟨fields, rfl, hfield⟩ := projectPublicScan_withheld hprojected
    have htruthy : (jsonTruthy (((some fields).map fun fields => Dict.get fields "grade_withheld").getD
        .null) && true) = true := by
      rw [Option.map_some, Option.getD_some, hfield]
      rfl
    simp only [htruthy, badgePayload_masked (gradeText x) (gradeText (some scan))]
    exact SameOutcome.refl (fun _ => rfl) _

theorem getBadge_eq (h : SameRegistry d s t) (slug : Str) : getBadge d s slug = getBadge d t slug := by
  unfold getBadge findServer
  rw [h.servers]
  cases t.servers.find? fun server => decide (server.slug = slug) with
  | none => rfl
  | some server =>
    apply SameOutcome.eq
    refine (readableLatest_related h server.slug).bind fun x y hxy => ?_
    cases hxy with
    | none => rfl
    | some hxy =>
      simp only [badgeOf_eq server hxy]
      exact SameOutcome.refl (fun _ => rfl) _

/-! ## The static site -/

section StaticSite

/-- What the loop keeps of one server in the two registries. -/
structure EntryRelated (d : Deployment) (e f : SiteEntry) : Prop where
  slug : e.slug = f.slug
  badge : e.badge = f.badge
  row : e.row = f.row
  demo : e.demo = f.demo
  history : List.Forall₂ (Differ d e.slug) e.history f.history

theorem siteBadge_related {slug : Str} {x y : Option ScanRecord} (h : Option.Rel (Differ d slug) x y)
    (unknownScan : Bool) (freshness : ScanFreshness) :
    siteBadge d slug x unknownScan freshness = siteBadge d slug y unknownScan freshness := by
  simp only [siteBadge, isSome_related h, classify_related h, scannedAt_related h]
  obtain hgrade | ⟨hmasked, hsome⟩ := gradeText_related h
  · rw [hgrade]
  · rw [isSome_related h] at hsome
    rw [hmasked, hsome, Bool.true_or, Bool.true_and]
    exact badgePayload_masked _ _ _ _ _ _

theorem siteRow_related {slug : Str} {x y : Option ScanRecord} (h : Option.Rel (Differ d slug) x y)
    (row : Dict) : siteRow d slug x row = siteRow d slug y row := by
  cases h with
  | none => rfl
  | some => rfl

theorem siteHistory_related (h : SameRegistry d s t) {r r' : LatestReadback}
    (hr : SameReadback d.masked r r') (slug : Str) :
    SameOutcome (Option.Rel (List.Forall₂ (Differ d slug))) (siteHistory d s r slug)
      (siteHistory d t r' slug) := by
  unfold siteHistory
  rw [hr.unreadable]
  by_cases hunreadable : r'.unreadable (.text slug) = true
  · rw [if_pos hunreadable, if_pos hunreadable]
    exact .none
  · rw [if_neg hunreadable, if_neg hunreadable]
    exact readableHistory_related h slug

theorem siteEntry_related (h : SameRegistry d s t) {r r' : LatestReadback}
    (hr : SameReadback d.masked r r') (server : Server) :
    SameOutcome (EntryRelated d) (siteEntry d s r server) (siteEntry d t r' server) := by
  have hxy := hr.records (.text server.slug)
  simp only [siteEntry, hr.unreadable, scannedAt_related hxy, isSome_related hxy, classify_related hxy,
    projectPublicSummary_related hxy, siteBadge_related hxy, siteRow_related hxy]
  refine (siteHistory_related h hr server.slug).bind fun stored stored' hstored => ?_
  refine (SameOutcome.refl (R := Eq) (fun _ => rfl) _).bind fun freshness _ hsame => ?_
  subst hsame
  refine (SameOutcome.refl (R := Eq) (fun _ => rfl) _).bind fun row _ hsame => ?_
  subst hsame
  constructor
  · rfl
  · rfl
  · rfl
  · rfl
  · cases hstored with
    | none => exact .nil
    | some hstored => exact hstored

theorem mapUntil_related {α β : Type} {R : β → β → Prop} {f g : α → Except PyErr β}
    (hfg : ∀ a, SameOutcome R (f a) (g a)) (items : List α) :
    List.Forall₂ R (mapUntil f items).1 (mapUntil g items).1 ∧
      (mapUntil f items).2 = (mapUntil g items).2 := by
  induction items with
  | nil => exact ⟨.nil, rfl⟩
  | cons a items ih =>
    have ha := hfg a
    unfold mapUntil
    cases hf : f a <;> cases hg : g a
    all_goals rw [hf, hg] at ha
    case error.error e e' => exact ⟨.nil, congrArg some ha⟩
    case ok.ok b b' => exact ⟨.cons ha ih.1, ih.2⟩
    all_goals exact ha.elim

theorem mapUntil_eq_none {α β : Type} {f : α → Except PyErr β} {items : List α} {results : List β} :
    mapUntil f items = (results, none) ↔ items.mapM f = .ok results := by
  induction items generalizing results with
  | nil =>
    rw [List.mapM_nil, mapUntil]
    constructor
    · rintro ⟨⟩
      rfl
    · rintro ⟨⟩
      rfl
  | cons a items ih =>
    rw [List.mapM_cons, mapUntil]
    cases hf : f a with
    | error e =>
      constructor
      · rintro ⟨⟩
      · rintro ⟨⟩
    | ok b =>
      constructor
      · intro h
        obtain ⟨hresults, hnone⟩ := Prod.mk.inj h
        have hrest := ih.mp (Prod.ext rfl hnone)
        exact bind_eq_ok.mpr ⟨b, rfl, bind_eq_ok.mpr ⟨_, hrest, congrArg Except.ok hresults⟩⟩
      · intro h
        obtain ⟨_, hb, h⟩ := bind_eq_ok.mp h
        obtain ⟨rest, hrest, h⟩ := bind_eq_ok.mp h
        cases hb
        cases h
        rw [ih.mpr hrest]

/-! ### Counts -/

theorem maskedHistories_related {es fs : List SiteEntry} (h : List.Forall₂ (EntryRelated d) es fs) :
    corpusCounts (es.map SiteEntry.history) = corpusCounts (fs.map SiteEntry.history) ↔
      corpusCounts ((es.filter fun e => d.isMasked e.slug).map SiteEntry.history) =
        corpusCounts ((fs.filter fun e => d.isMasked e.slug).map SiteEntry.history) := by
  have hunmasked : (es.filter fun e => !d.isMasked e.slug).map SiteEntry.history =
      (fs.filter fun e => !d.isMasked e.slug).map SiteEntry.history := by
    induction h with
    | nil => rfl
    | @cons e f es fs hef _ ih =>
      by_cases hmasked : d.isMasked e.slug = true
      · have hmasked' : d.isMasked f.slug = true := hef.slug ▸ hmasked
        rw [List.filter_cons_of_neg (by rw [hmasked]; decide),
          List.filter_cons_of_neg (by rw [hmasked']; decide), ih]
      · have hunmasked := Bool.eq_false_iff.mpr hmasked
        have hunmasked' : d.isMasked f.slug = false := hef.slug ▸ hunmasked
        rw [List.filter_cons_of_pos (by rw [hunmasked]; rfl),
          List.filter_cons_of_pos (by rw [hunmasked']; rfl), List.map_cons, List.map_cons, ih,
          forall₂_eq_of_unmasked hunmasked hef.history]
  rw [corpusCounts_split (fun e => d.isMasked e.slug) SiteEntry.history es,
    corpusCounts_split (fun e => d.isMasked e.slug) SiteEntry.history fs, hunmasked,
    StepCounts.add_right_cancel]

theorem totals_engine_le {histories : List (List ScanRecord)} {totals : HistoryTotals}
    (h : corpusHistoryTotals histories = .ok totals) :
    totals.gradeChangesWithEngineChange ≤ totals.gradeChanges := by
  have hle := corpusCounts_engine_le histories
  rw [← counts_corpus h] at hle
  exact hle

theorem methodology_eq_iff {xs ys : List (List ScanRecord)} {a b : HistoryTotals}
    (ha : corpusHistoryTotals xs = .ok a) (hb : corpusHistoryTotals ys = .ok b) (hframe : SameFrame a b) :
    renderMethodology templates a = renderMethodology templates b ↔ corpusCounts xs = corpusCounts ys := by
  rw [← counts_corpus ha, ← counts_corpus hb]
  apply renderMethodology_eq_iff templates hframe (totals_engine_le ha) (totals_engine_le hb)
  obtain hspoken | hzero := spoken_corpus ha
  · exact .inl hspoken
  · obtain hspoken | hzero' := spoken_corpus hb
    · refine .inl ⟨?_, ?_, ?_⟩
      · rw [hframe.firstScannedAt]
        exact hspoken.1
      · rw [hframe.lastScannedAt]
        exact hspoken.2.1
      · rw [hframe.scans]
        exact hspoken.2.2
    · exact .inr (hzero.trans hzero'.symm)

/-- The builds differ at most in the methodology page, and there unless `counts`. -/
structure SiteRelated (counts : Prop) (a b : SiteBuild) : Prop where
  badges : a.badges = b.badges
  index : a.index = b.index
  raised : a.raised = b.raised
  methodology : a.methodology = b.methodology ↔ counts

theorem SiteRelated.of_eq {counts : Prop} {a b : SiteBuild} (h : a = b) (hcounts : counts) :
    SiteRelated counts a b := by
  subst h
  exact ⟨rfl, rfl, rfl, iff_of_true rfl hcounts⟩

theorem SiteRelated.of_iff {counts counts' : Prop} {a b : SiteBuild} (h : SiteRelated counts a b)
    (hiff : counts ↔ counts') : SiteRelated counts' a b :=
  ⟨h.badges, h.index, h.raised, h.methodology.trans hiff⟩

theorem finishSite_related {es fs : List SiteEntry} (h : List.Forall₂ (EntryRelated d) es fs) :
    SiteRelated
      ((∃ totals, corpusHistoryTotals (es.map SiteEntry.history) = .ok totals) →
        corpusCounts (es.map SiteEntry.history) = corpusCounts (fs.map SiteEntry.history))
      (finishSite d templates es) (finishSite d templates fs) := by
  have hbadges : es.map (fun e => (e.slug, e.badge)) = fs.map fun e => (e.slug, e.badge) :=
    forall₂_map_eq (fun e f hef => Prod.ext hef.slug hef.badge) h
  have hrows : es.map SiteEntry.row = fs.map SiteEntry.row := forall₂_map_eq (fun e f hef => hef.row) h
  have hdemos : es.map SiteEntry.demo = fs.map SiteEntry.demo := forall₂_map_eq (fun e f hef => hef.demo) h
  have hdemo : es.any SiteEntry.demo = fs.any SiteEntry.demo := by
    have hmap : ∀ gs : List SiteEntry, gs.any SiteEntry.demo = (gs.map SiteEntry.demo).any id := by
      intro gs
      rw [List.any_map]
      rfl
    rw [hmap, hmap, hdemos]
  have hhistories : List.Forall₂ (List.Forall₂ SameButVerdict) (es.map SiteEntry.history)
      (fs.map SiteEntry.history) := by
    apply List.forall₂_map_left_iff.mpr
    apply List.forall₂_map_right_iff.mpr
    exact h.imp fun e f hef => hef.history.imp fun x y hxy => hxy.1
  have htotals := corpusHistoryTotals_related hhistories
  unfold finishSite
  rw [hbadges, hrows, hdemo]
  cases ha : corpusHistoryTotals (es.map SiteEntry.history) <;>
    cases hb : corpusHistoryTotals (fs.map SiteEntry.history)
  all_goals rw [ha, hb] at htotals
  case error.error e e' =>
    have hsame : e = e' := htotals
    subst hsame
    exact .of_eq rfl fun ⟨_, hok⟩ => nomatch hok
  case ok.ok a b =>
    refine ⟨rfl, rfl, rfl, ?_⟩
    rw [Option.some.injEq, methodology_eq_iff ha hb htotals]
    exact ⟨fun hcounts _ => hcounts, fun hcounts => hcounts ⟨a, rfl⟩⟩
  all_goals exact htotals.elim

end StaticSite

/-! ## All surfaces -/

/-- The build does not raise before the methodology page. -/
def Builds (d : Deployment) (registry : Registry) : Prop :=
  d.maskedScanSucceeded ⊆ d.masked ∧ ∃ readback entries totals,
    latestAllReadback d.py d.interp registry.scans = .ok readback ∧
      registry.servers.mapM (siteEntry d registry readback) = .ok entries ∧
        corpusHistoryTotals (entries.map SiteEntry.history) = .ok totals

/-- The history a masked server adds to the totals. -/
def countedHistory (d : Deployment) (registry : Registry) (readback : LatestReadback) (server : Server) :
    List ScanRecord :=
  match siteHistory d registry readback server.slug with
  | .ok stored => stored.getD []
  | .error _ => []

/-- The counts over the histories of the masked servers. -/
def maskedCounts (d : Deployment) (registry : Registry) : StepCounts :=
  match latestAllReadback d.py d.interp registry.scans with
  | .ok readback =>
    corpusCounts
      ((registry.servers.filter fun server => d.isMasked server.slug).map
        (countedHistory d registry readback))
  | .error _ => .zero

theorem siteEntry_ok {registry : Registry} {readback : LatestReadback} {server : Server} {entry : SiteEntry}
    (h : siteEntry d registry readback server = .ok entry) :
    entry.slug = server.slug ∧ entry.history = countedHistory d registry readback server := by
  obtain ⟨stored, hstored, h⟩ := bind_eq_ok.mp h
  obtain ⟨freshness, -, h⟩ := bind_eq_ok.mp h
  obtain ⟨row, -, h⟩ := bind_eq_ok.mp h
  cases h
  unfold countedHistory
  rw [hstored]
  exact ⟨rfl, rfl⟩

theorem maskedHistories_of_entries {registry : Registry} {readback : LatestReadback}
    {servers : List Server} {entries : List SiteEntry}
    (h : servers.mapM (siteEntry d registry readback) = .ok entries) :
    (entries.filter fun e => d.isMasked e.slug).map SiteEntry.history =
      (servers.filter fun server => d.isMasked server.slug).map (countedHistory d registry readback) := by
  have hall := mapM_eq_ok.mp h
  clear h
  induction hall with
  | nil => rfl
  | @cons server entry servers entries hentry _ ih =>
    obtain ⟨hslug, hhistory⟩ := siteEntry_ok hentry
    by_cases hmasked : d.isMasked server.slug = true
    · have hentry : d.isMasked entry.slug = true := hslug ▸ hmasked
      simp only [List.filter_cons, hmasked, hentry, if_true, List.map_cons, ih, hhistory]
    · have hentry : ¬d.isMasked entry.slug = true := hslug ▸ hmasked
      simp only [List.filter_cons, hmasked, hentry, if_false, Bool.false_eq_true, ih]

theorem generateSite_related (templates : Templates) (h : SameRegistry d s t) :
    SiteRelated (Builds d s → maskedCounts d s = maskedCounts d t) (generateSite d s templates)
      (generateSite d t templates) := by
  unfold generateSite
  by_cases hsub : d.maskedScanSucceeded ⊆ d.masked
  · rw [if_pos hsub, if_pos hsub]
    have hreadback := h.scans.latestAllReadback
    unfold Builds maskedCounts
    cases hr : latestAllReadback d.py d.interp s.scans <;>
      cases hr' : latestAllReadback d.py d.interp t.scans
    all_goals rw [hr, hr'] at hreadback
    case error.error e e' =>
      have hsame : e = e' := hreadback
      subst hsame
      exact .of_eq rfl fun _ => rfl
    case ok.ok r r' =>
      obtain ⟨hentries, hraised⟩ := mapUntil_related (fun server => siteEntry_related h hreadback server)
        s.servers
      rw [← h.servers]
      obtain ⟨es, raised, hs⟩ : ∃ es raised, mapUntil (siteEntry d s r) s.servers = (es, raised) :=
        ⟨_, _, rfl⟩
      obtain ⟨fs, raised', ht⟩ : ∃ fs raised', mapUntil (siteEntry d t r') s.servers = (fs, raised') :=
        ⟨_, _, rfl⟩
      rw [hs, ht] at hentries hraised
      have hsame : raised = raised' := hraised
      subst hsame
      cases raised with
      | some e =>
        apply SiteRelated.of_eq
        · have hbadges : es.map (fun e => (e.slug, e.badge)) = fs.map fun e => (e.slug, e.badge) :=
            forall₂_map_eq (fun e f hef => Prod.ext hef.slug hef.badge) hentries
          simp only [hs, ht, hbadges]
        · rintro ⟨-, r, entries, totals, hok, hmap, -⟩
          cases hok
          rw [mapUntil_eq_none.mpr hmap] at hs
          cases hs
      | none =>
        have hes := mapUntil_eq_none.mp hs
        have hfs := mapUntil_eq_none.mp ht
        simp only [hs, ht]
        apply (finishSite_related hentries).of_iff
        rw [maskedHistories_related hentries, maskedHistories_of_entries hes,
          maskedHistories_of_entries hfs]
        constructor
        · rintro hcounts ⟨-, r, entries, totals, hok, hmap, htotals⟩
          cases hok
          cases hes.symm.trans hmap
          exact hcounts ⟨totals, htotals⟩
        · rintro hcounts ⟨totals, htotals⟩
          exact hcounts ⟨hsub, r, es, totals, rfl, hes, htotals⟩
    all_goals exact hreadback.elim
  · rw [if_neg hsub, if_neg hsub]
    exact .of_eq rfl fun hbuilds => absurd hbuilds.1 hsub

/-- Two corresponding rows show the same, whatever the server and the page. -/
def SameProjections (d : Deployment) (a b : ScanRow) : Prop :=
  ∀ x y, rowToScan d.py d.interp a = .ok x → rowToScan d.py d.interp b = .ok y → ∀ unreadable,
    projectPublicScan d.dumpTime (some x) d.now (d.isMasked x.serverSlug) unreadable =
        projectPublicScan d.dumpTime (some y) d.now (d.isMasked y.serverSlug) unreadable ∧
      ∀ server, projectPublicSummary d.dumpTime server (some x) d.now (d.isMasked x.serverSlug) unreadable =
        projectPublicSummary d.dumpTime server (some y) d.now (d.isMasked y.serverSlug) unreadable

/-- Every public surface shows the same of both registries, the methodology page apart. -/
structure SamePublic (d : Deployment) (templates : Templates) (s t : Registry) : Prop where
  projections : List.Forall₂ (SameProjections d) s.scans.rows t.scans.rows
  servers : listServers d s = listServers d t
  server : ∀ slug, getServer d s slug = getServer d t slug
  badge : ∀ slug, getBadge d s slug = getBadge d t slug
  badges : (generateSite d s templates).badges = (generateSite d t templates).badges
  index : (generateSite d s templates).index = (generateSite d t templates).index
  raised : (generateSite d s templates).raised = (generateSite d t templates).raised

/-- The methodology page is the same. -/
def SameMethodology (d : Deployment) (templates : Templates) (s t : Registry) : Prop :=
  (generateSite d s templates).methodology = (generateSite d t templates).methodology

theorem sameProjections_of_rows {a b : ScanRow} (h : VerdictOnly d.py d.interp d.masked a b) :
    SameProjections d a b := by
  intro x y hx hy unreadable
  have hdiffer : Differ d x.serverSlug x y := by
    obtain rfl | ⟨⟨slug, hslug, htext⟩, hcolumns, -⟩ := h
    · cases hx.symm.trans hy
      exact ⟨.refl x, fun _ => rfl⟩
    · have hread := (copies_of_ok hx).serverSlug
      rw [htext] at hread
      cases hread
      exact ⟨sameButVerdict_of_columns hcolumns hx hy, fun hnot => absurd rfl (hnot _ hslug)⟩
  rw [← hdiffer.1.serverSlug]
  constructor
  · exact projectPublicScan_related (.some hdiffer) unreadable
  · intro server
    exact projectPublicSummary_related (.some hdiffer) server unreadable

def sampleTime : DateTime where
  micros := 63902908800000000
  offset := some 0
  inRange := by decide

/-- The risk summary `{"composite": 0}` stands for. -/
def sampleRisk : RiskSummary where
  composite := .ofRat 0
  fileAccess := .ofRat 0
  networkAccess := .ofRat 0
  shellExecution := .ofRat 0
  destructive := .ofRat 0
  exfiltration := .ofRat 0
  findingsBySeverity := []
  annotationCoverage := .ofRat 1

def sampleModels : Pydantic where
  risk _ := some sampleRisk
  finding _ := none
  evidence _ := none
  datetime := fromisoformat

def sampleScan (id scannedAt : String) (grade : TrustGrade) : ScanRow where
  id := .text (u id)
  serverSlug := .text (u "a")
  engineName := .text (u "mcpaudit")
  engineVersion := .text (u "1.0")
  grade := .text (u grade.text)
  transparency := .text (u "high")
  riskJson := .text (u "\x7b\"composite\":0\x7d")
  findingsJson := .text (u "[]")
  evidenceJson := .null
  scannedAt := .text (u scannedAt)
  sandboxImage := .null
  reportRef := .null
  declared := by simp

theorem sampleSlug_valid : isSlug (u "a") = true := by decide

/-- Two scans of the slug, the second with the grade `last`. -/
def sampleRegistry (last : TrustGrade) : Registry where
  servers :=
    [{ slug := u "a"
       name := u "A"
       description := []
       source := ⟨.npm, u "a", none, [], [], none, false, Engine.ServerSource.noKeys_names, Engine.ServerSource.noKeys_nodup⟩
       homepage := none
       addedAt := sampleTime
       slug_valid := sampleSlug_valid }]
  scans :=
    { rows :=
        [sampleScan "s1" "2026-01-01T00:00:00+00:00" .A, sampleScan "s2" "2026-01-02T00:00:00+00:00" last]
      uniqueIds := by simp [sampleScan] }

def sampleDeployment : Deployment where
  py := sampleModels
  interp := ⟨1000, initialLimit_deep⟩
  dumpTime := DateTime.isoformat
  now := sampleTime
  masked := [u "a"]
  maskedScanSucceeded := []

/-- Pages of the counts alone. -/
def sampleTemplates : Templates where
  catalog _ _ _ := []
  methodologyBefore := []
  methodologyAfter := []

theorem exists_ok {α : Type} {x : Except PyErr α} (h : x.isOk = true) : ∃ a, x = .ok a := by
  cases x with
  | ok a => exact ⟨a, rfl⟩
  | error e => cases h

theorem sampleScan_reads (grade : TrustGrade) : ∃ record, rowToScan sampleModels sampleDeployment.interp
    (sampleScan "s2" "2026-01-02T00:00:00+00:00" grade) = .ok record := by
  have hok : (rowToScan sampleModels sampleDeployment.interp
      (sampleScan "s2" "2026-01-02T00:00:00+00:00" grade)).isOk = true := by
    cases grade <;> decide +kernel
  exact exists_ok hok

theorem sampleRegistry_same (first last : TrustGrade) :
    SameRegistry sampleDeployment (sampleRegistry first) (sampleRegistry last) := by
  constructor
  · rfl
  · refine .cons (.inl rfl) (.cons (.inr ⟨⟨u "a", List.mem_singleton.mpr rfl, rfl⟩, ?_, ?_, ?_⟩) .nil)
    · exact ⟨rfl, rfl, rfl, rfl, rfl, rfl⟩
    · exact sampleScan_reads first
    · exact sampleScan_reads last

theorem sampleRegistry_builds : Builds sampleDeployment (sampleRegistry .A) := by
  have hok : (do
      let readback ← latestAllReadback sampleModels sampleDeployment.interp (sampleRegistry .A).scans
      let entries ← (sampleRegistry .A).servers.mapM (siteEntry sampleDeployment (sampleRegistry .A) readback)
      corpusHistoryTotals (entries.map SiteEntry.history)).isOk = true := by decide +kernel
  obtain ⟨totals, hok⟩ := exists_ok hok
  obtain ⟨readback, hreadback, hok⟩ := bind_eq_ok.mp hok
  obtain ⟨entries, hentries, htotals⟩ := bind_eq_ok.mp hok
  exact ⟨List.nil_subset _, readback, entries, totals, hreadback, hentries, htotals⟩

theorem sampleRegistry_counts : maskedCounts sampleDeployment (sampleRegistry .A) ≠
    maskedCounts sampleDeployment (sampleRegistry .B) := by decide +kernel

end McpTrust.Site
