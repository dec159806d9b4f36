import McpTrust.Store.Readback
import McpTrust.Site.Masking
import McpTrust.Release.Routes
import McpTrust.Release.ReadbackManifest

/-! # The live service and the static site

The service reads one slug with `latest` and `history`, the generator reads the table
with `latest_all_readback`. Both show the same badges and the same pages, up to the date
the static badge adds to a fresh grade.
-/

namespace McpTrust.Site

set_option autoImplicit false

open Python Store Sqlite

/-! ## Pages -/

/-- What `render_detail` is called with. -/
structure DetailArgs where
  server : Server
  record : Option ScanRecord
  baseUrl : Str
  banner : Option Str
  now : DateTime
  masked : Bool
  maskedScanSucceeded : Bool
  unknownScan : Bool
  unknownHistory : Bool
  history : List ScanRecord

structure PageTemplates extends Templates where
  /-- `render_detail(server, record, …)`. -/
  detail : DetailArgs → Except PyErr Str
  /-- `render_not_found(slug)`. -/
  notFound : Str → Str

structure PageResponse where
  status : Nat
  content : Str

variable (d : Deployment) (registry : Registry) (templates : PageTemplates) (baseUrl : Str)

def demoBanner (demo : Bool) : Option Str := if demo then some (u demoDisclosure) else none

/-- `GET /`. -/
def catalogPage : Except PyErr PageResponse := do
  let readback ← latestAllReadback d.py d.interp registry.scans
  let rows ← registry.servers.mapM fun server =>
    projectPublicSummary d.dumpTime server (readback.records (.text server.slug)) d.now
      (d.isMasked server.slug) (readback.unreadable (.text server.slug))
  let hasDemo := registry.servers.any fun server =>
    decide (classify (readback.records (.text server.slug)) = .demo)
  .ok ⟨200, templates.catalog rows (demoBanner hasDemo) d.now⟩

/-- The history the detail page shows; an unreadable newest scan leaves none. -/
def pageHistory (slug : Str) (newest : Option (Option ScanRecord)) :
    Except PyErr (Option (List ScanRecord)) :=
  match newest with
  | none => .ok (some [])
  | some _ => readableHistory d registry slug

/-- `GET /ui/servers/{slug}`. -/
def serverDetailPage (slug : Str) : Except PyErr PageResponse :=
  match findServer registry slug with
  | none => .ok ⟨404, templates.notFound slug⟩
  | some server => do
    let newest ← readableLatest d registry server.slug
    let stored ← pageHistory d registry server.slug newest
    let page ← templates.detail
      { server := server
        record := newest.getD none
        baseUrl := Release.rstripSlashes baseUrl
        banner := demoBanner (decide (classify (newest.getD none) = .demo))
        now := d.now
        masked := d.isMasked server.slug
        maskedScanSucceeded := false
        unknownScan := newest.isNone
        unknownHistory := stored.isNone
        history := stored.getD [] }
    .ok ⟨200, page⟩

/-- The detail page the loop of `generate_site` writes for one server. -/
def siteDetail (readback : LatestReadback) (server : Server) : Except PyErr Str := do
  let scan := readback.records (.text server.slug)
  let unknownScan := readback.unreadable (.text server.slug)
  let stored ← siteHistory d registry readback server.slug
  templates.detail
    { server := server
      record := scan
      baseUrl := Release.rstripSlashes baseUrl
      banner := demoBanner (!unknownScan && decide (classify scan = .demo))
      now := d.now
      masked := d.isMasked server.slug
      maskedScanSucceeded := decide (server.slug ∈ d.maskedScanSucceeded)
      unknownScan := unknownScan
      unknownHistory := !unknownScan && stored.isNone
      history := stored.getD [] }

/-- One turn of the loop with the detail page. -/
def siteTurn (readback : LatestReadback) (server : Server) : Except PyErr (SiteEntry × Str) := do
  let entry ← siteEntry d registry readback server
  let page ← siteDetail d registry templates baseUrl readback server
  .ok (entry, page)

/-- The badges, the index and the methodology page with the detail pages. -/
structure SiteFiles where
  build : SiteBuild
  details : List (Str × Str)

/-- The pages after the loop, or what an exception in the loop leaves. -/
def siteFiles (turns : List (SiteEntry × Str)) (raised : Option PyErr) : SiteFiles :=
  let entries := turns.map Prod.fst
  let details := turns.map fun turn => (turn.1.slug, turn.2)
  match raised with
  | some e => ⟨⟨entries.map fun entry => (entry.slug, entry.badge), none, none, some e⟩, details⟩
  | none => ⟨finishSite d templates.toTemplates entries, details⟩

/-- `generate_site(conn, out_dir, base_url=…)`. -/
def generateFiles : SiteFiles :=
  if d.maskedScanSucceeded ⊆ d.masked then
    match latestAllReadback d.py d.interp registry.scans with
    | .error e => ⟨⟨[], none, none, some e⟩, []⟩
    | .ok readback =>
      let turns := mapUntil (siteTurn d registry templates baseUrl readback) registry.servers
      siteFiles d templates turns.1 turns.2
  else ⟨⟨[], none, none, some .valueError⟩, []⟩

variable {d registry templates baseUrl}

/-! ## Two readings of the store -/

/-- The readbacks hold the same of every slug. -/
def SameSlugs (r : LatestReadback) (s : ScanReadback) : Prop :=
  ∀ slug, isSlug slug = true →
    r.records (.text slug) = s.records slug ∧ r.unreadable (.text slug) = s.unreadable slug

theorem SameSlugs.update {r : LatestReadback} {s : ScanReadback} (h : SameSlugs r s) (key : SqlValue)
    (record : Option ScanRecord) (unreadable : Bool) :
    SameSlugs ⟨Function.update r.records key record, Function.update r.unreadable key unreadable⟩
      ⟨Function.update s.records (pyStr key) record, Function.update s.unreadable (pyStr key) unreadable⟩ := by
  intro slug hslug
  by_cases hkey : key = .text slug
  · have hprinted : pyStr key = slug := (pyStr_eq_slug hslug).mpr hkey
    subst hkey
    simp only [hprinted, Function.update_self, and_self]
  · have hprinted : ¬slug = pyStr key := fun h => hkey ((pyStr_eq_slug hslug).mp h.symm)
    simp only [Function.update_of_ne (Ne.symm hkey), Function.update_of_ne hprinted]
    exact h slug hslug

/-- A loop that ends met handled errors only. -/
theorem foldlM_readLatest_handled {py : Pydantic} {interp : Interpreter} {rows : List ScanRow}
    {start readback : LatestReadback} (h : rows.foldlM (readLatest py interp) start = .ok readback) :
    ∀ row ∈ rows, Handled py interp row := by
  induction rows generalizing start with
  | nil => exact fun _ hrow => absurd hrow List.not_mem_nil
  | cons row rows ih =>
    rw [List.foldlM_cons] at h
    obtain ⟨next, hnext, h⟩ := bind_eq_ok.mp h
    refine List.forall_mem_cons.mpr ⟨fun e he => ?_, ih h⟩
    unfold readLatest at hnext
    rw [he] at hnext
    by_cases hhandled : isCorruption e = true
    · exact hhandled
    · simp only [if_neg hhandled] at hnext
      cases hnext

theorem foldlM_admitRow_same {py : Pydantic} {interp : Interpreter} {rows : List ScanRow}
    {r readback : LatestReadback} {s : ScanReadback} (hrs : SameSlugs r s)
    (h : rows.foldlM (readLatest py interp) r = .ok readback) :
    ∃ admitted, rows.foldlM (admitRow py interp) s = .ok admitted ∧ SameSlugs readback admitted := by
  induction rows generalizing r s with
  | nil =>
    cases h
    exact ⟨s, rfl, hrs⟩
  | cons row rows ih =>
    rw [List.foldlM_cons] at h
    obtain ⟨next, hnext, h⟩ := bind_eq_ok.mp h
    have hstep : ∃ s', admitRow py interp s row = .ok s' ∧ SameSlugs next s' := by
      unfold readLatest at hnext
      unfold admitRow
      cases hrow : rowToScan py interp row with
      | ok record =>
        rw [hrow] at hnext
        cases hnext
        exact ⟨_, rfl, hrs.update row.serverSlug (some record) false⟩
      | error e =>
        rw [hrow] at hnext
        by_cases hhandled : isCorruption e = true
        · simp only [if_pos hhandled] at hnext ⊢
          cases hnext
          exact ⟨_, rfl, hrs.update row.serverSlug none true⟩
        · simp only [if_neg hhandled] at hnext
          cases hnext
    obtain ⟨s', hs', hsame⟩ := hstep
    rw [List.foldlM_cons, hs']
    exact ih hsame h

variable {readback : LatestReadback} {slug : Str}

/-- What the readback holds of a slug: `none` for a row that does not decode. -/
def LatestReadback.newest (readback : LatestReadback) (slug : Str) : Option (Option ScanRecord) :=
  if readback.unreadable (.text slug) then none else some (readback.records (.text slug))

/-- `latest` reads of a slug what the readback holds of it. -/
theorem readableLatest_readback (h : latestAllReadback d.py d.interp registry.scans = .ok readback)
    (hslug : isSlug slug = true) :
    readableLatest d registry slug = .ok (LatestReadback.newest readback slug) ∧
      (readback.unreadable (.text slug) = true → readback.records (.text slug) = none) := by
  have hhandled : ∀ row ∈ newestRows registry.scans.rows, Handled d.py d.interp row := fun row hrow =>
    foldlM_readLatest_handled h row ((List.mem_insertionSort _).mpr hrow)
  have hstart : SameSlugs ⟨fun _ => none, fun _ => false⟩ ⟨fun _ => none, fun _ => false⟩ :=
    fun _ _ => ⟨rfl, rfl⟩
  obtain ⟨admitted', hadmitted, hsame⟩ := foldlM_admitRow_same hstart h
  obtain ⟨other, hother, hslot⟩ := scanReadback_latest hhandled hslug
  obtain rfl : admitted' = other := Except.ok.inj (hadmitted.symm.trans hother)
  obtain ⟨hrecords, hunreadable⟩ := hsame slug hslug
  rw [← hrecords, ← hunreadable] at hslot
  unfold readableLatest latest LatestReadback.newest
  cases hnewest : (newestFirst (.text slug) registry.scans.rows).head? with
  | none =>
    rw [hnewest] at hslot
    obtain ⟨hrecord, hflag⟩ := Prod.mk.inj hslot
    rw [hrecord, hflag]
    exact ⟨rfl, fun h => absurd h Bool.false_ne_true⟩
  | some row =>
    rw [hnewest] at hslot
    have hrow := hhandled row (head_mem_newestRows hnewest)
    simp only [admitted] at hslot
    cases hread : rowToScan d.py d.interp row with
    | ok record =>
      rw [hread] at hslot
      obtain ⟨hrecord, hflag⟩ := Prod.mk.inj hslot
      rw [hrecord, hflag]
      simp only [hread]
      exact ⟨rfl, fun h => absurd h Bool.false_ne_true⟩
    | error e =>
      rw [hread] at hslot
      obtain ⟨hrecord, hflag⟩ := Prod.mk.inj hslot
      rw [hrecord, hflag]
      simp only [hread, Except.map, catching_error, hrow e hread, if_true]
      exact ⟨trivial, fun _ => trivial⟩

/-! ## Badges -/

section Badges

variable {scan : ScanRecord} {freshness : ScanFreshness} {server : Server}

/-- The fields the projection withholds are none of the freshness fields. -/
theorem get_readablePayload {key : String} {value : Json}
    (hkey : key ∈ ["freshness_state", "stale", "grade_withheld"]) (operatorMasked : Bool)
    (h : Dict.lookup (freshnessFields scan freshness operatorMasked) (u key) = some value) :
    Dict.get (readablePayload d.dumpTime scan freshness operatorMasked) key = value := by
  have hfreshness : (Dict.keys (freshnessFields scan freshness operatorMasked)).Nodup := by
    simp [freshnessFields, Dict.keys]
  have hwithheld : (Dict.keys (withheldFields operatorMasked)).Nodup := by
    simp [withheldFields, Dict.keys]
  have hnot : Dict.lookup (withheldFields operatorMasked) (u key) = none := by
    simp only [List.mem_cons, List.not_mem_nil, or_false] at hkey
    obtain rfl | rfl | rfl := hkey <;> simp [withheldFields, Dict.lookup_cons]
  have hbase : Dict.lookup ((scanPayload d.dumpTime scan).update
      (freshnessFields scan freshness operatorMasked)) (u key) = some value := by
    rw [Dict.lookup_update hfreshness, h]
    rfl
  unfold Dict.get readablePayload
  by_cases hcut : (operatorMasked || decide (freshness.state = .unknown)) = true
  · rw [if_pos hcut, Dict.lookup_update hwithheld, hnot, Option.none_or, hbase]
    rfl
  · rw [if_neg hcut, hbase]
    rfl

theorem freshnessUnknown_payload (operatorMasked : Bool) :
    freshnessUnknown (some (readablePayload d.dumpTime scan freshness operatorMasked)) =
      decide (freshness.state = .unknown) := by
  have hstate : Dict.get (readablePayload d.dumpTime scan freshness operatorMasked) "freshness_state" =
      text freshness.state.text :=
    get_readablePayload (by simp) operatorMasked (by simp [freshnessFields, Dict.lookup_cons])
  unfold freshnessUnknown
  simp only [hstate, text]
  cases freshness.state <;> decide

theorem stale_payload (operatorMasked : Bool) :
    jsonTruthy (Dict.get (readablePayload d.dumpTime scan freshness operatorMasked) "stale") =
      decide (freshness.state = .stale) := by
  have hstale : Dict.get (readablePayload d.dumpTime scan freshness operatorMasked) "stale" =
      if freshness.state = .fresh ∨ freshness.state = .stale then
        .bool (decide (freshness.state = .stale))
      else .null :=
    get_readablePayload (by simp) operatorMasked (by simp [freshnessFields, Dict.lookup_cons])
  rw [hstale]
  cases freshness.state <;> rfl

theorem withheld_payload (operatorMasked : Bool) :
    (jsonTruthy (Dict.get (readablePayload d.dumpTime scan freshness operatorMasked) "grade_withheld") &&
      operatorMasked) = operatorMasked := by
  have hwithheld : Dict.get (readablePayload d.dumpTime scan freshness operatorMasked) "grade_withheld" =
      .bool (operatorMasked || decide (freshness.state = .unknown)) :=
    get_readablePayload (by simp) operatorMasked (by simp [freshnessFields, Dict.lookup_cons])
  rw [hwithheld]
  cases operatorMasked <;> simp [jsonTruthy]

/-- The freshness of a stored scan. -/
theorem assessScanFreshness_state {now : DateTime} {time : DateTime}
    (h : assessScanFreshness (some time) now true = .ok freshness) :
    freshness.state = .unknown ∨ freshness.state = .stale ∨ freshness.state = .fresh := by
  obtain ⟨evaluatedAt, -, h⟩ := bind_eq_ok.mp h
  obtain ⟨parsed, -, h⟩ := bind_eq_ok.mp h
  unfold assessTimes at h
  by_cases hfuture : DateTime.totalSeconds (evaluatedAt.micros - parsed.micros) < 0
  · rw [if_pos hfuture] at h
    cases h
    exact .inl rfl
  · rw [if_neg hfuture] at h
    obtain ⟨staleAfter, -, h⟩ := bind_eq_ok.mp h
    cases h
    by_cases hlate : staleAfter.micros < evaluatedAt.micros
    · exact .inr (.inl (by simp [hlate]))
    · exact .inr (.inr (by simp [hlate]))

/-- The badge of a readable scan. -/
def scanBadge (d : Deployment) (server : Server) (scan : ScanRecord) (freshness : ScanFreshness)
    (historicalAt : Option DateTime) : Dict :=
  if freshness.state = .unknown then badge (u "unknown") "lightgrey"
  else
    badgePayload (gradeText (some scan)) (classify (some scan)) (decide (freshness.state = .stale))
      (d.isMasked server.slug) false historicalAt

theorem badgeOf_scan (h : assessScanFreshness (some scan.scannedAt) d.now true = .ok freshness) :
    badgeOf d server (some scan) = .ok (scanBadge d server scan freshness none) := by
  have hprojected : projectPublicScan d.dumpTime (some scan) d.now (d.isMasked server.slug) false =
      .ok (some (readablePayload d.dumpTime scan freshness (d.isMasked server.slug))) := by
    unfold projectPublicScan
    simp only [Bool.false_eq_true, if_false, h]
    rfl
  unfold badgeOf scanBadge
  rw [hprojected]
  change (if freshnessUnknown _ = true then _ else _) = _
  rw [freshnessUnknown_payload]
  by_cases hunknown : freshness.state = .unknown
  · rw [if_pos (decide_eq_true hunknown), if_pos hunknown]
    rfl
  · rw [if_neg (mt of_decide_eq_true hunknown), if_neg hunknown]
    simp only [Option.map_some, Option.getD_some, stale_payload, withheld_payload]

theorem siteBadge_scan (hmasked : d.maskedScanSucceeded = []) :
    siteBadge d server.slug (some scan) false freshness =
      scanBadge d server scan freshness (some scan.scannedAt) := by
  unfold siteBadge scanBadge
  simp only [hmasked, List.not_mem_nil, decide_false, Bool.or_false, Option.isSome_some, Bool.and_true,
    Option.map_some, decide_eq_true_eq]
  by_cases hunknown : freshness.state = .unknown
  · simp only [if_pos hunknown]
    rfl
  · simp only [if_neg hunknown]

theorem classify_some (scan : ScanRecord) : classify (some scan) = .real ∨ classify (some scan) = .demo := by
  by_cases hreal : isRealEngine scan.engineName = true
  · exact .inl (if_pos hreal)
  · exact .inr (if_neg hreal)

/-- The static badge dates a grade that is real, shown and fresh. -/
structure Dated (d : Deployment) (server : Server) (scan : ScanRecord) : Prop where
  real : classify (some scan) = .real
  shown : d.isMasked server.slug = false
  fresh : ∃ freshness, assessScanFreshness (some scan.scannedAt) d.now true = .ok freshness ∧
    freshness.state = .fresh

/-- What the static badge adds to the message of a dated grade. -/
def datedMessage (scan : ScanRecord) : Str :=
  upperAscii (gradeText (some scan)) ++
    (u " (historical " ++ scan.scannedAt.isoformat.take 10 ++ u ")")

theorem scanBadge_dated (h : assessScanFreshness (some scan.scannedAt) d.now true = .ok freshness)
    (hdated : Dated d server scan) :
    scanBadge d server scan freshness none =
        badge (upperAscii (gradeText (some scan))) (badgeColor (gradeText (some scan))) ∧
      scanBadge d server scan freshness (some scan.scannedAt) =
        badge (datedMessage scan) (badgeColor (gradeText (some scan))) := by
  obtain ⟨hreal, hshown, other, hother, hfresh⟩ := hdated
  obtain rfl : other = freshness := Except.ok.inj (hother.symm.trans h)
  unfold scanBadge badgePayload datedMessage
  rw [hreal, hshown, hfresh]
  constructor
  · rfl
  · simp only [List.append_assoc]
    rfl

theorem scanBadge_undated (h : assessScanFreshness (some scan.scannedAt) d.now true = .ok freshness)
    (hdated : ¬Dated d server scan) (historicalAt : Option DateTime) :
    scanBadge d server scan freshness historicalAt = scanBadge d server scan freshness none := by
  unfold scanBadge
  by_cases hunknown : freshness.state = .unknown
  · rw [if_pos hunknown, if_pos hunknown]
  rw [if_neg hunknown, if_neg hunknown]
  unfold badgePayload
  obtain hreal | hdemo := classify_some scan
  · cases hmasked : d.isMasked server.slug with
    | true =>
      rw [hreal]
      rfl
    | false =>
      obtain hstate | hstale | hfresh := assessScanFreshness_state h
      · exact absurd hstate hunknown
      · rw [hreal, hstale]
        rfl
      · exact absurd ⟨hreal, hmasked, freshness, h, hfresh⟩ hdated
  · rw [hdemo]
    cases d.isMasked server.slug <;> rfl

/-- The messages of a badge without a grade. -/
def gradeless : List Str := [u "unknown", u "unscanned", u maskedBadgeMessage]

theorem scanBadge_masked (hmasked : d.isMasked server.slug = true) :
    ∃ message ∈ gradeless, scanBadge d server scan freshness none = badge message "lightgrey" := by
  unfold scanBadge badgePayload
  by_cases hunknown : freshness.state = .unknown
  · rw [if_pos hunknown]
    exact ⟨u "unknown", by simp [gradeless], rfl⟩
  · rw [if_neg hunknown, hmasked]
    obtain hkind | hkind := classify_some scan
    all_goals
      rw [hkind]
      exact ⟨u maskedBadgeMessage, by simp [gradeless], rfl⟩

end Badges

/-! ## One turn of the loop -/

section Turn

variable {server : Server} {entry : SiteEntry} {page : Str}

theorem findServer_mem (hkeys : (registry.servers.map Server.slug).Nodup) (hserver : server ∈ registry.servers) :
    findServer registry server.slug = some server := by
  unfold findServer
  generalize registry.servers = servers at hkeys hserver
  induction servers with
  | nil => exact absurd hserver List.not_mem_nil
  | cons first rest ih =>
    rw [List.map_cons, List.nodup_cons] at hkeys
    rw [List.find?_cons]
    obtain rfl | hrest := List.mem_cons.mp hserver
    · rw [decide_eq_true rfl]
    · have hne : first.slug ≠ server.slug := fun h => hkeys.1 (h ▸ List.mem_map_of_mem hrest)
      rw [decide_eq_false hne]
      exact ih hkeys.2 hrest

/-- The text of a badge file. -/
def badgeFile (payload : Dict) : Str := dumps badgeStyle (.obj payload) ++ u "\n"

/-- The static badge of a server beside the payload of the endpoint. -/
structure BadgeAgrees (d : Deployment) (registry : Registry) (server : Server) (live : Dict) (file : Str) :
    Prop where
  dated : ∀ scan, readableLatest d registry server.slug = .ok (some (some scan)) → Dated d server scan →
    live = badge (upperAscii (gradeText (some scan))) (badgeColor (gradeText (some scan))) ∧
      file = badgeFile (badge (datedMessage scan) (badgeColor (gradeText (some scan))))
  same : (∀ scan, readableLatest d registry server.slug = .ok (some (some scan)) → ¬Dated d server scan) →
    file = badgeFile live
  gradeless : ∀ newest, readableLatest d registry server.slug = .ok newest →
    d.isMasked server.slug = true ∨ newest = none ∨ newest = some none →
      file = badgeFile live ∧ ∃ message ∈ gradeless, live = badge message "lightgrey"

/-- The badge one turn writes agrees with the badge the endpoint answers. -/
theorem siteEntry_badge (hkeys : (registry.servers.map Server.slug).Nodup)
    (hmasked : d.maskedScanSucceeded = [])
    (hreadback : latestAllReadback d.py d.interp registry.scans = .ok readback)
    (hserver : server ∈ registry.servers) (h : siteEntry d registry readback server = .ok entry) :
    ∃ live, getBadge d registry server.slug = .ok (some live) ∧
      BadgeAgrees d registry server live entry.badge := by
  obtain ⟨hlatest, hnone⟩ := readableLatest_readback hreadback server.slug_valid
  obtain ⟨stored, -, h⟩ := bind_eq_ok.mp h
  obtain ⟨freshness, hfreshness, h⟩ := bind_eq_ok.mp h
  obtain ⟨row, -, h⟩ := bind_eq_ok.mp h
  cases h
  unfold getBadge
  rw [findServer_mem hkeys hserver]
  simp only [hlatest, LatestReadback.newest]
  cases hunreadable : readback.unreadable (.text server.slug) with
  | true =>
    have hlive : readableLatest d registry server.slug = .ok none := by
      rw [hlatest, LatestReadback.newest, hunreadable]
      rfl
    have hstatic : siteBadge d server.slug none true freshness = badge (u "unknown") "lightgrey" := by
      unfold siteBadge
      simp only [Bool.or_true, if_true]
      rfl
    rw [hnone hunreadable, hstatic]
    refine ⟨badge (u "unknown") "lightgrey", rfl, ?_, fun _ => rfl, fun _ _ _ => ⟨rfl, ?_⟩⟩
    · intro scan hscan
      rw [hlive] at hscan
      cases hscan
    · exact ⟨u "unknown", by simp [gradeless], rfl⟩
  | false =>
    cases hrecord : readback.records (.text server.slug) with
    | none =>
      have hlive : readableLatest d registry server.slug = .ok (some none) := by
        rw [hlatest, LatestReadback.newest, hunreadable, hrecord]
        rfl
      have hstatic : siteBadge d server.slug none false freshness = badge (u "unscanned") "lightgrey" := by
        rw [hrecord] at hfreshness
        obtain ⟨evaluatedAt, -, hfreshness⟩ := bind_eq_ok.mp hfreshness
        cases hfreshness
        unfold siteBadge
        simp only [hmasked, List.not_mem_nil, decide_false, Option.isSome_none, Bool.or_false, Bool.and_false]
        rfl
      rw [hstatic]
      refine ⟨badge (u "unscanned") "lightgrey", rfl, ?_, fun _ => rfl, fun _ _ _ => ⟨rfl, ?_⟩⟩
      · intro scan hscan
        rw [hlive] at hscan
        cases hscan
      · exact ⟨u "unscanned", by simp [gradeless], rfl⟩
    | some scan =>
      have hlive : readableLatest d registry server.slug = .ok (some (some scan)) := by
        rw [hlatest, LatestReadback.newest, hunreadable, hrecord]
        rfl
      rw [hrecord] at hfreshness
      have hbadge : badgeOf d server (some scan) = .ok (scanBadge d server scan freshness none) :=
        badgeOf_scan hfreshness
      rw [siteBadge_scan hmasked]
      refine ⟨scanBadge d server scan freshness none, ?_, ?_, ?_, ?_⟩
      · exact bind_eq_ok.mpr ⟨some (some scan), rfl, congrArg (Except.map some) hbadge⟩
      · intro other hother hdated
        rw [hlive] at hother
        cases hother
        obtain ⟨hplain, hdate⟩ := scanBadge_dated hfreshness hdated
        exact ⟨hplain, congrArg badgeFile hdate⟩
      · intro hundated
        exact congrArg badgeFile (scanBadge_undated hfreshness (hundated scan hlive) _)
      · intro newest hnewest hwithheld
        rw [hlive] at hnewest
        cases hnewest
        obtain hmasked | hnewest | hnewest := hwithheld
        · have hundated : ¬Dated d server scan := fun hdated => by
            rw [hdated.shown] at hmasked
            cases hmasked
          exact ⟨congrArg badgeFile (scanBadge_undated hfreshness hundated _), scanBadge_masked hmasked⟩
        · cases hnewest
        · cases hnewest

/-- The detail page one turn writes is the page the service answers with. -/
theorem siteDetail_page (hkeys : (registry.servers.map Server.slug).Nodup)
    (hmasked : d.maskedScanSucceeded = [])
    (hreadback : latestAllReadback d.py d.interp registry.scans = .ok readback)
    (hserver : server ∈ registry.servers)
    (h : siteDetail d registry templates baseUrl readback server = .ok page) :
    serverDetailPage d registry templates baseUrl server.slug = .ok ⟨200, page⟩ := by
  obtain ⟨hlatest, hnone⟩ := readableLatest_readback hreadback server.slug_valid
  obtain ⟨stored, hstored, h⟩ := bind_eq_ok.mp h
  unfold serverDetailPage
  rw [findServer_mem hkeys hserver]
  simp only [hlatest, LatestReadback.newest]
  unfold siteHistory at hstored
  cases hunreadable : readback.unreadable (.text server.slug) with
  | true =>
    rw [hunreadable] at hstored h
    cases hstored
    rw [hnone hunreadable, hmasked] at h
    simp only [if_true, pageHistory]
    exact bind_eq_ok.mpr ⟨none, rfl, bind_eq_ok.mpr ⟨some [], rfl, bind_eq_ok.mpr ⟨page, h, rfl⟩⟩⟩
  | false =>
    rw [hunreadable] at hstored h
    rw [hmasked] at h
    simp only [Bool.false_eq_true, if_false]
    exact bind_eq_ok.mpr ⟨_, rfl, bind_eq_ok.mpr ⟨stored, hstored, bind_eq_ok.mpr ⟨page, h, rfl⟩⟩⟩

end Turn

/-! ## The whole site -/

theorem mem_mapUntil {α β : Type} {f : α → Except PyErr β} {items : List α} {b : β}
    (h : b ∈ (mapUntil f items).1) : ∃ a ∈ items, f a = .ok b := by
  induction items with
  | nil => exact absurd h List.not_mem_nil
  | cons a items ih =>
    unfold mapUntil at h
    cases hf : f a with
    | error e =>
      rw [hf] at h
      exact absurd h List.not_mem_nil
    | ok first =>
      rw [hf] at h
      obtain rfl | hrest := List.mem_cons.mp h
      · exact ⟨a, List.mem_cons_self, hf⟩
      · obtain ⟨a', ha', hb⟩ := ih hrest
        exact ⟨a', List.mem_cons_of_mem _ ha', hb⟩

/-- What two loops over one list leave, item by item. -/
theorem mapM_map {α β γ : Type} {f : α → Except PyErr β} {g : α → Except PyErr γ} {h : β → γ}
    {items : List α} {results : List β} (hitems : items.mapM f = .ok results)
    (hstep : ∀ a ∈ items, ∀ b, f a = .ok b → g a = .ok (h b)) : items.mapM g = .ok (results.map h) := by
  apply mapM_eq_ok.mpr
  have hall := mapM_eq_ok.mp hitems
  clear hitems
  induction hall with
  | nil => exact .nil
  | cons hab _ ih =>
    refine .cons (hstep _ List.mem_cons_self _ hab) (ih fun a ha => ?_)
    exact hstep a (List.mem_cons_of_mem _ ha)

theorem forall₂_map_eq {α β γ : Type} {R : α → β → Prop} {f : α → γ} {g : β → γ} {as : List α} {bs : List β}
    (h : List.Forall₂ R as bs) (hfg : ∀ a b, R a b → f a = g b) : as.map f = bs.map g := by
  induction h with
  | nil => rfl
  | cons hab _ ih => rw [List.map_cons, List.map_cons, hfg _ _ hab, ih]

theorem siteEntry_fields {server : Server} {entry : SiteEntry} (hmasked : d.maskedScanSucceeded = [])
    (hreadback : latestAllReadback d.py d.interp registry.scans = .ok readback)
    (h : siteEntry d registry readback server = .ok entry) :
    entry.slug = server.slug ∧
      projectPublicSummary d.dumpTime server (readback.records (.text server.slug)) d.now
        (d.isMasked server.slug) (readback.unreadable (.text server.slug)) = .ok entry.row ∧
      entry.demo = decide (classify (readback.records (.text server.slug)) = .demo) := by
  obtain ⟨-, hnone⟩ := readableLatest_readback hreadback server.slug_valid
  obtain ⟨stored, -, h⟩ := bind_eq_ok.mp h
  obtain ⟨freshness, -, h⟩ := bind_eq_ok.mp h
  obtain ⟨row, hrow, h⟩ := bind_eq_ok.mp h
  cases h
  refine ⟨rfl, ?_, ?_⟩
  · have hkept : siteRow d server.slug (readback.records (.text server.slug)) row = row := by
      unfold siteRow
      rw [hmasked]
      rfl
    rw [hrow, hkept]
  · cases hunreadable : readback.unreadable (.text server.slug) with
    | true => rw [hnone hunreadable]; rfl
    | false => rfl

/-- The files of the static site agree with the answers of the live service. -/
structure FilesAgree (d : Deployment) (registry : Registry) (templates : PageTemplates) (baseUrl : Str)
    (files : SiteFiles) : Prop where
  badges : ∀ slug file, (slug, file) ∈ files.build.badges → ∃ server ∈ registry.servers, server.slug = slug ∧
    ∃ live, getBadge d registry slug = .ok (some live) ∧ BadgeAgrees d registry server live file
  details : ∀ slug page, (slug, page) ∈ files.details →
    serverDetailPage d registry templates baseUrl slug = .ok ⟨200, page⟩
  index : ∀ page, files.build.index = some page → catalogPage d registry templates = .ok ⟨200, page⟩
  /-- A finished loop has written both files of every server. -/
  complete : files.build.index.isSome = true →
    files.build.badges.map Prod.fst = registry.servers.map Server.slug ∧
      files.details.map Prod.fst = registry.servers.map Server.slug

theorem finishSite_badges (d : Deployment) (templates : Templates) (entries : List SiteEntry) :
    (finishSite d templates entries).badges = entries.map (fun entry => (entry.slug, entry.badge)) ∧
      (finishSite d templates entries).index =
        some (templates.catalog (entries.map SiteEntry.row) (demoBanner (entries.any SiteEntry.demo)) d.now) := by
  unfold finishSite
  cases corpusHistoryTotals (entries.map SiteEntry.history) <;> exact ⟨rfl, rfl⟩

/-- Every turn of the loop agrees, whether or not the loop ends. -/
theorem siteFiles_turns (d : Deployment) (templates : PageTemplates) (turns : List (SiteEntry × Str))
    (raised : Option PyErr) :
    (siteFiles d templates turns raised).build.badges = turns.map (fun turn => (turn.1.slug, turn.1.badge)) ∧
      (siteFiles d templates turns raised).details = turns.map (fun turn => (turn.1.slug, turn.2)) := by
  cases raised with
  | some e =>
    refine ⟨?_, rfl⟩
    exact List.map_map
  | none =>
    refine ⟨?_, rfl⟩
    exact (finishSite_badges d templates.toTemplates _).1.trans List.map_map

section Loop

variable {turns : List (SiteEntry × Str)} {raised : Option PyErr}

/-- A turn the loop left came from a server. -/
theorem siteTurn_of_mem
    (hturns : mapUntil (siteTurn d registry templates baseUrl readback) registry.servers = (turns, raised))
    {turn : SiteEntry × Str} (hturn : turn ∈ turns) :
    ∃ server ∈ registry.servers, siteTurn d registry templates baseUrl readback server = .ok turn := by
  apply mem_mapUntil
  rw [hturns]
  exact hturn

theorem siteTurn_ok {server : Server} {turn : SiteEntry × Str}
    (h : siteTurn d registry templates baseUrl readback server = .ok turn) :
    siteEntry d registry readback server = .ok turn.1 ∧
      siteDetail d registry templates baseUrl readback server = .ok turn.2 := by
  obtain ⟨entry, hentry, h⟩ := bind_eq_ok.mp h
  obtain ⟨page, hpage, h⟩ := bind_eq_ok.mp h
  cases h
  exact ⟨hentry, hpage⟩

/-- The index of a finished loop is the answer of the catalog page. -/
theorem catalogPage_turns (hmasked : d.maskedScanSucceeded = [])
    (hreadback : latestAllReadback d.py d.interp registry.scans = .ok readback)
    (hturns : registry.servers.mapM (siteTurn d registry templates baseUrl readback) = .ok turns) :
    catalogPage d registry templates =
        .ok ⟨200, templates.catalog (turns.map fun turn => turn.1.row)
          (demoBanner (turns.any fun turn => turn.1.demo)) d.now⟩ ∧
      turns.map (fun turn => turn.1.slug) = registry.servers.map Server.slug := by
  have hfields : ∀ server turn, siteTurn d registry templates baseUrl readback server = .ok turn →
      turn.1.slug = server.slug ∧
        projectPublicSummary d.dumpTime server (readback.records (.text server.slug)) d.now
          (d.isMasked server.slug) (readback.unreadable (.text server.slug)) = .ok turn.1.row ∧
        turn.1.demo = decide (classify (readback.records (.text server.slug)) = .demo) :=
    fun server turn h => siteEntry_fields hmasked hreadback (siteTurn_ok h).1
  have hrows := mapM_map hturns fun server _ turn h => (hfields server turn h).2.1
  have hall := mapM_eq_ok.mp hturns
  have hdemo : registry.servers.map (fun server =>
      decide (classify (readback.records (.text server.slug)) = .demo)) =
        turns.map fun turn => turn.1.demo :=
    forall₂_map_eq hall fun server turn h => (hfields server turn h).2.2.symm
  have hany : (registry.servers.any fun server =>
      decide (classify (readback.records (.text server.slug)) = .demo)) =
        turns.any fun turn => turn.1.demo := by
    have hdemo := congrArg (fun flags => flags.any id) hdemo
    rwa [List.any_map, List.any_map] at hdemo
  refine ⟨?_, (forall₂_map_eq hall fun server turn h => (hfields server turn h).1.symm).symm⟩
  refine bind_eq_ok.mpr ⟨readback, hreadback, bind_eq_ok.mpr ⟨_, hrows, ?_⟩⟩
  simp only [hany]

theorem siteFiles_agree (hkeys : (registry.servers.map Server.slug).Nodup)
    (hmasked : d.maskedScanSucceeded = [])
    (hreadback : latestAllReadback d.py d.interp registry.scans = .ok readback)
    (hturns : mapUntil (siteTurn d registry templates baseUrl readback) registry.servers = (turns, raised)) :
    FilesAgree d registry templates baseUrl (siteFiles d templates turns raised) := by
  obtain ⟨hbadges, hdetails⟩ := siteFiles_turns d templates turns raised
  refine ⟨?_, ?_, ?_, ?_⟩
  · intro slug file hfile
    rw [hbadges] at hfile
    obtain ⟨turn, hmem, heq⟩ := List.mem_map.mp hfile
    obtain ⟨server, hserver, hturn⟩ := siteTurn_of_mem hturns hmem
    obtain ⟨hentry, -⟩ := siteTurn_ok hturn
    obtain ⟨rfl, rfl⟩ := Prod.mk.inj heq
    obtain ⟨hslug, -⟩ := siteEntry_fields hmasked hreadback hentry
    obtain ⟨live, hlive, hagrees⟩ := siteEntry_badge hkeys hmasked hreadback hserver hentry
    exact ⟨server, hserver, hslug.symm, live, hslug ▸ hlive, hagrees⟩
  · intro slug page hpage
    rw [hdetails] at hpage
    obtain ⟨turn, hmem, heq⟩ := List.mem_map.mp hpage
    obtain ⟨server, hserver, hturn⟩ := siteTurn_of_mem hturns hmem
    obtain ⟨hentry, hdetail⟩ := siteTurn_ok hturn
    obtain ⟨rfl, rfl⟩ := Prod.mk.inj heq
    obtain ⟨hslug, -⟩ := siteEntry_fields hmasked hreadback hentry
    rw [hslug]
    exact siteDetail_page hkeys hmasked hreadback hserver hdetail
  · intro page hpage
    cases raised with
    | some e => cases hpage
    | none =>
      obtain ⟨hcatalog, -⟩ := catalogPage_turns hmasked hreadback (mapUntil_eq_none.mp hturns)
      have hindex := (finishSite_badges d templates.toTemplates (turns.map Prod.fst)).2
      rw [List.map_map, List.any_map] at hindex
      obtain rfl := Option.some.inj (hindex.symm.trans hpage)
      exact hcatalog
  · intro hindex
    rw [hbadges, hdetails, List.map_map, List.map_map]
    cases raised with
    | some e => cases hindex
    | none =>
      obtain ⟨-, hslugs⟩ := catalogPage_turns hmasked hreadback (mapUntil_eq_none.mp hturns)
      exact ⟨hslugs, hslugs⟩

end Loop

/-- The site `generate_site` writes and the service it mirrors show the same. -/
theorem generateFiles_agree (d : Deployment) (registry : Registry) (templates : PageTemplates) (baseUrl : Str)
    (hkeys : (registry.servers.map Server.slug).Nodup) (hmasked : d.maskedScanSucceeded = []) :
    FilesAgree d registry templates baseUrl (generateFiles d registry templates baseUrl) := by
  have hsubset : d.maskedScanSucceeded ⊆ d.masked := hmasked ▸ List.nil_subset _
  unfold generateFiles
  rw [if_pos hsubset]
  cases hreadback : latestAllReadback d.py d.interp registry.scans with
  | ok readback => exact siteFiles_agree hkeys hmasked hreadback rfl
  | error e =>
    refine ⟨fun _ _ h => absurd h List.not_mem_nil, fun _ _ h => absurd h List.not_mem_nil, ?_, ?_⟩
    · intro page h
      cases h
    · intro h
      cases h

/-! ## The site without its detail pages -/

theorem siteTurn_of_total (htotal : ∀ args, ∃ page, templates.detail args = .ok page) (d : Deployment)
    (registry : Registry) (baseUrl : Str) (readback : LatestReadback) (server : Server) :
    match siteEntry d registry readback server with
    | .error e => siteTurn d registry templates baseUrl readback server = .error e
    | .ok entry => ∃ page, siteTurn d registry templates baseUrl readback server = .ok (entry, page) := by
  unfold siteTurn
  cases hentry : siteEntry d registry readback server with
  | error e => rfl
  | ok entry =>
    obtain ⟨stored, hstored, -⟩ := bind_eq_ok.mp hentry
    have hdetail : ∃ page, siteDetail d registry templates baseUrl readback server = .ok page := by
      unfold siteDetail
      simp only [hstored]
      exact htotal _
    obtain ⟨page, hpage⟩ := hdetail
    exact ⟨page, bind_eq_ok.mpr ⟨entry, rfl, bind_eq_ok.mpr ⟨page, hpage, rfl⟩⟩⟩

theorem mapUntil_turns (htotal : ∀ args, ∃ page, templates.detail args = .ok page) (d : Deployment)
    (registry : Registry) (baseUrl : Str) (readback : LatestReadback) (servers : List Server) :
    (mapUntil (siteTurn d registry templates baseUrl readback) servers).1.map Prod.fst =
        (mapUntil (siteEntry d registry readback) servers).1 ∧
      (mapUntil (siteTurn d registry templates baseUrl readback) servers).2 =
        (mapUntil (siteEntry d registry readback) servers).2 := by
  induction servers with
  | nil => exact ⟨rfl, rfl⟩
  | cons server servers ih =>
    have hturn := siteTurn_of_total htotal d registry baseUrl readback server
    unfold mapUntil
    cases hentry : siteEntry d registry readback server with
    | error e =>
      rw [hentry] at hturn
      rw [hturn]
      exact ⟨rfl, rfl⟩
    | ok entry =>
      rw [hentry] at hturn
      obtain ⟨page, hpage⟩ := hturn
      simp only [hpage]
      exact ⟨congrArg (entry :: ·) ih.1, ih.2⟩

/-- Where no detail page raises, the other files are those of the site without them. -/
theorem generateFiles_build (htotal : ∀ args, ∃ page, templates.detail args = .ok page) :
    (generateFiles d registry templates baseUrl).build = generateSite d registry templates.toTemplates := by
  unfold generateFiles generateSite
  by_cases hsubset : d.maskedScanSucceeded ⊆ d.masked
  · rw [if_pos hsubset, if_pos hsubset]
    cases hreadback : latestAllReadback d.py d.interp registry.scans with
    | error e => rfl
    | ok readback =>
      obtain ⟨hentries, hraised⟩ := mapUntil_turns htotal d registry baseUrl readback registry.servers
      simp only [siteFiles, hentries, hraised]
      cases mapUntil (siteEntry d registry readback) registry.servers with
      | mk entries raised => cases raised <;> rfl
  · rw [if_neg hsubset, if_neg hsubset]

/-! ## A fresh grade -/

/-- Nothing is masked. -/
def unmaskedDeployment : Deployment := { sampleDeployment with masked := [] }

def plainTemplates : PageTemplates :=
  { sampleTemplates with
    detail := fun args => .ok args.server.name
    notFound := fun slug => slug }

theorem generateFiles_agree_sample :
    FilesAgree unmaskedDeployment (sampleRegistry .A) plainTemplates (u "https://trust.example/")
      (generateFiles unmaskedDeployment (sampleRegistry .A) plainTemplates (u "https://trust.example/")) :=
  generateFiles_agree unmaskedDeployment (sampleRegistry .A) plainTemplates (u "https://trust.example/")
    (List.nodup_singleton _) rfl

/-- The badges of fresh evidence are not the same. -/
theorem fresh_badges_differ :
    (∃ scan freshness, readableLatest unmaskedDeployment (sampleRegistry .A) (u "a") = .ok (some (some scan)) ∧
        assessScanFreshness (some scan.scannedAt) unmaskedDeployment.now true = .ok freshness ∧
          freshness.state = .fresh) ∧
      ∃ live file, getBadge unmaskedDeployment (sampleRegistry .A) (u "a") = .ok (some live) ∧
        (u "a", file) ∈ (generateFiles unmaskedDeployment (sampleRegistry .A) plainTemplates []).build.badges ∧
          file ≠ badgeFile live := by
  constructor
  · have hfresh : (readableLatest unmaskedDeployment (sampleRegistry .A) (u "a") >>= fun newest =>
        assessScanFreshness ((newest.getD none).map ScanRecord.scannedAt) unmaskedDeployment.now true).map
          ScanFreshness.state = .ok .fresh := by decide +kernel
    cases hread : readableLatest unmaskedDeployment (sampleRegistry .A) (u "a") >>= fun newest =>
        assessScanFreshness ((newest.getD none).map ScanRecord.scannedAt) unmaskedDeployment.now true with
    | error e =>
      rw [hread] at hfresh
      cases hfresh
    | ok freshness =>
      rw [hread] at hfresh
      obtain ⟨newest, hnewest, hassessed⟩ := bind_eq_ok.mp hread
      have hstate : freshness.state = .fresh := Except.ok.inj hfresh
      obtain _ | _ | scan := newest
      · obtain ⟨_, -, h⟩ := bind_eq_ok.mp hassessed
        cases h
        cases hstate
      · obtain ⟨_, -, h⟩ := bind_eq_ok.mp hassessed
        cases h
        cases hstate
      · exact ⟨scan, freshness, hnewest, hassessed, hstate⟩
  · have hlive : (getBadge unmaskedDeployment (sampleRegistry .A) (u "a")).map (Option.map badgeFile) =
        .ok (some (badgeFile (badge (u "A") "brightgreen"))) := by decide +kernel
    have hstatic : (generateFiles unmaskedDeployment (sampleRegistry .A) plainTemplates []).build.badges =
        [(u "a", badgeFile (badge (u "A (historical 2026-01-02)") "brightgreen"))] := by decide +kernel
    cases hbadge : getBadge unmaskedDeployment (sampleRegistry .A) (u "a") with
    | error e =>
      rw [hbadge] at hlive
      cases hlive
    | ok answer =>
      rw [hbadge] at hlive
      cases answer with
      | none => cases hlive
      | some live =>
        have hfile : badgeFile live = badgeFile (badge (u "A") "brightgreen") :=
          Option.some.inj (Except.ok.inj hlive)
        refine ⟨live, _, rfl, hstatic ▸ List.mem_singleton_self _, ?_⟩
        rw [hfile]
        decide

end McpTrust.Site
