import McpTrust.Store.Servers
import McpTrust.Site.Surfaces
import McpTrust.Site.Masking

/-! # Spec-shift verdicts on the catalog and detail pages

The detail page decides by the server, the newest scan and a rebound mask; the
notice of the catalog page by the projected rows.
-/

namespace McpTrust.Site

set_option autoImplicit false

open Python Store Sqlite

/-! ## The verdict document -/

/-- The value of a bound field. -/
inductive Bound
  | null
  | bool (b : Bool)
  | text (s : Str)
  | list (items : List Str)
  deriving DecidableEq

namespace Bound

def isList : Bound → Bool
  | list _ => true
  | _ => false

/-- `list(value or [])`. -/
def items : Bound → Except PyErr (List Str)
  | null => .ok []
  | bool b => if b then .error .typeError else .ok []
  | text s => .ok (s.map fun c => [c])
  | list items => .ok items

/-- The comparison of `matches_audited_source` for one field. -/
def agrees (expected actual : Bound) : Except PyErr Bool :=
  if expected.isList || actual.isList then do
    let expected ← expected.items
    let actual ← actual.items
    .ok (decide (expected = actual))
  else .ok (decide (expected = actual))

end Bound

structure Remediation where
  dimension : Str
  effort : Str
  action : Str

structure SpecVerdict where
  overall : Str
  confidence : Str
  dimensions : List (Str × Str)
  remediations : List Remediation
  auditedSource : List (Str × Bound)
  auditedVersion : Option Str

structure VerdictDoc where
  specVersion : Str
  ruledAt : Str
  deltaCheckedAt : Option Str
  boundFields : List Str
  dimensionTitles : List (Str × Str)
  servers : List (Str × SpecVerdict)

def adverseVerdicts : List String := ["BREAKS", "EXPOSED"]

/-- `is_adverse(record)`. -/
def SpecVerdict.isAdverse (record : SpecVerdict) : Bool := decide (record.overall ∈ adverseVerdicts.map u)

/-- `audited.get(field)`. -/
def SpecVerdict.audited (record : SpecVerdict) (field : Str) : Bound :=
  ((record.auditedSource.find? fun entry => decide (entry.1 = field)).map Prod.snd).getD .null

/-- `getattr(source, field, None)`. -/
def sourceField (source : Engine.ServerSource) (field : Str) : Bound :=
  if field = u "kind" then .text (u source.kind.text)
  else if field = u "reference" then .text source.reference
  else if field = u "command" then (source.command.map Bound.text).getD .null
  else if field = u "args" then .list source.args
  else if field = u "env_keys" then .list source.envKeys
  else if field = u "sandbox_image" then (source.sandboxImage.map Bound.text).getD .null
  else if field = u "trusted" then .bool source.trusted
  else .null

namespace VerdictDoc

variable (doc : VerdictDoc)

/-- `for_server(slug)`. -/
def forServer (slug : Str) : Option SpecVerdict :=
  (doc.servers.find? fun entry => decide (entry.1 = slug)).map Prod.snd

def matchFields (record : SpecVerdict) (source : Engine.ServerSource) : List Str → Except PyErr Bool
  | [] => .ok true
  | field :: rest => do
    let same ← (record.audited field).agrees (sourceField source field)
    if same then matchFields record source rest else .ok false

/-- `matches_audited_source(record, source)`. -/
def matchesAuditedSource (record : SpecVerdict) (source : Engine.ServerSource) : Except PyErr Bool :=
  matchFields record source doc.boundFields

/-- `dimension_title(unit)`. -/
def dimensionTitle (unit : Str) : Str :=
  ((doc.dimensionTitles.find? fun entry => decide (entry.1 = unit)).map Prod.snd).getD unit

end VerdictDoc

/-! ## The pages -/

/-- The spec-shift card. A verdict comes with the rows of its table. -/
inductive Card
  | withheld
  | notAudited (ruledAt specVersion : Str)
  | sourceChanged (ruledAt : Str) (auditedVersion : Option Str)
  | verdict (record : SpecVerdict) (adverse : Bool) (dimensions : List (Str × Str × Str))

def Card.isVerdict : Card → Bool
  | verdict _ _ _ => true
  | _ => false

def Card.isAdverse : Card → Bool
  | verdict _ adverse _ => adverse
  | _ => false

variable (d : Deployment) (doc : VerdictDoc)

/-- `_spec_shift_card(slug, masked=…, source=…)`. -/
def specShiftCard (slug : Str) (masked : Bool) (source : Engine.ServerSource) : Except PyErr Card :=
  if masked then .ok .withheld
  else
    match doc.forServer slug with
    | none => .ok (.notAudited doc.ruledAt doc.specVersion)
    | some record => do
      let current ← doc.matchesAuditedSource record source
      if current then
        .ok
          (.verdict record record.isAdverse
            (record.dimensions.map fun row => (row.1, doc.dimensionTitle row.1, row.2)))
      else .ok (.sourceChanged doc.ruledAt record.auditedVersion)

def Deployment.isProved (slug : Str) : Bool := decide (slug ∈ d.maskedScanSucceeded)

/-- The `freshness` of `render_detail`. -/
def pageFreshness : Option ScanRecord → Except PyErr (Option ScanFreshness)
  | none => .ok none
  | some record => (assessScanFreshness (some record.scannedAt) d.now true).map some

/-- The card of `render_detail`, which rebinds the mask. -/
def detailCard (server : Server) (record : Option ScanRecord) : Except PyErr Card := do
  let _ ← pageFreshness d record
  specShiftCard doc server.slug (d.isMasked server.slug && (record.isSome || d.isProved server.slug))
    server.source

/-- The slug of a row that the notice counts. -/
def ruledSlug (row : Dict) : Option Str :=
  if jsonTruthy (Dict.get row "masked") then none
  else
    match Dict.get row "slug" with
    | .str slug => if (doc.forServer slug).isSome then some slug else none
    | _ => none

def adverseSlug (slug : Str) : Bool :=
  match doc.forServer slug with
  | some record => record.isAdverse
  | none => false

structure Notice where
  specVersion : Str
  ruledAt : Str
  exposed : Nat
  shown : Nat

/-- `_spec_shift_notice(rows)`. -/
def specShiftNotice (rows : List Dict) : Option Notice :=
  let shown := rows.filterMap (ruledSlug doc)
  let exposed := shown.filter (adverseSlug doc)
  if exposed = [] then none else some ⟨doc.specVersion, doc.ruledAt, exposed.length, shown.length⟩

/-- What the readback holds of a listed server. -/
structure Listing where
  server : Server
  scan : Option ScanRecord
  unreadable : Bool

def listing (readback : ScanReadback) (server : Server) : Listing :=
  ⟨server, readback.records server.slug, readback.unreadable server.slug⟩

/-- The catalog row of a listed server. -/
def Listing.row (l : Listing) : Except PyErr Dict := do
  let row ←
    projectPublicSummary d.dumpTime l.server l.scan d.now (d.isMasked l.server.slug) l.unreadable
  .ok (siteRow d l.server.slug l.scan row)

/-- The application knows no proofs of masked scans. -/
def Deployment.served : Deployment := { d with maskedScanSucceeded := [] }

/-- The card of `GET /ui/servers/{slug}`. -/
def servedCard (registry : Registry) (server : Server) : Except PyErr Card := do
  let found ← readableLatest d registry server.slug
  detailCard d.served doc server (found.getD none)

/-- The card of the generated page. -/
def siteCard (readback : ScanReadback) (server : Server) : Except PyErr Card :=
  detailCard d doc server (readback.records server.slug)

/-! ## Agreement of the pages -/

/-- The server is in the document, under the source it has now. -/
def AuditedNow (server : Server) : Prop :=
  ∃ record, doc.forServer server.slug = some record ∧
    ∀ field ∈ doc.boundFields, (record.audited field).agrees (sourceField server.source field) = .ok true

def shows (page : Except PyErr Card) (p : Card → Bool) : Bool :=
  match page with
  | .ok card => p card
  | .error _ => false

/-- The cards show the verdicts of the document for unmasked servers, and the notice counts them. -/
structure Disclosed (listings : List Listing) (card : Server → Except PyErr Card) : Prop where
  shown : ∀ l ∈ listings, ∀ c, card l.server = .ok c →
    (c.isVerdict = true ↔ d.isMasked l.server.slug = false ∧ AuditedNow doc l.server)
  counted : ∀ rows notice, listings.mapM (Listing.row d) = .ok rows → specShiftNotice doc rows = some notice →
    notice.exposed = listings.countP (fun l => shows (card l.server) Card.isAdverse) ∧
      notice.shown = listings.countP fun l => shows (card l.server) Card.isVerdict

/-- The mask of the catalog row is lost with an unreadable scan. -/
def Listing.rowMasked (l : Listing) : Bool :=
  d.isMasked l.server.slug && (!l.unreadable || d.isProved l.server.slug)

def Listing.isCounted (l : Listing) : Bool := (doc.forServer l.server.slug).isSome && !l.rowMasked d

/-- The freshness of the newest scan is defined, if there is one. -/
def Listing.Assessable (l : Listing) : Prop :=
  l.scan = none ∧ l.unreadable = false ∨
    ∃ freshness, assessScanFreshness (l.scan.map ScanRecord.scannedAt) d.now true = .ok freshness

/-- No masked server without a scan has a current verdict; and what the notice counts is current. -/
structure Guarded (listings : List Listing) : Prop where
  masked : ∀ l ∈ listings, d.isMasked l.server.slug = true → l.scan = none →
    d.isProved l.server.slug = false → ¬AuditedNow doc l.server
  current : (∀ l ∈ listings, l.Assessable d) →
    (∃ l ∈ listings, l.isCounted d doc = true ∧ adverseSlug doc l.server.slug = true) →
      ∀ l ∈ listings, l.isCounted d doc = true → AuditedNow doc l.server

section Proofs

variable {d doc} {listings : List Listing} {card : Server → Except PyErr Card}

theorem matchFields_iff {record : SpecVerdict} {source : Engine.ServerSource} {fields : List Str} :
    VerdictDoc.matchFields record source fields = .ok true ↔
      ∀ field ∈ fields, (record.audited field).agrees (sourceField source field) = .ok true := by
  induction fields with
  | nil =>
    refine iff_of_true rfl ?_
    intro field hfield
    cases hfield
  | cons field rest ih =>
    rw [List.forall_mem_cons, ← ih, VerdictDoc.matchFields, bind_eq_ok]
    constructor
    · rintro ⟨same, hsame, hrest⟩
      cases same
      · cases hrest
      · exact ⟨hsame, hrest⟩
    · rintro ⟨hsame, hrest⟩
      exact ⟨true, hsame, hrest⟩

/-- A card that renders shows a verdict exactly for a current audit under no mask. -/
theorem specShiftCard_verdict {slug : Str} {masked : Bool} {source : Engine.ServerSource} {c : Card} :
    specShiftCard doc slug masked source = .ok c →
      (c.isVerdict = true ↔ masked = false ∧ ∃ record, doc.forServer slug = some record ∧
        doc.matchesAuditedSource record source = .ok true) := by
  unfold specShiftCard
  intro h
  cases masked with
  | true =>
    cases h
    simp [Card.isVerdict]
  | false =>
    rw [if_neg Bool.false_ne_true] at h
    cases hrecord : doc.forServer slug with
    | none =>
      rw [hrecord] at h
      cases h
      simp [Card.isVerdict]
    | some record =>
      simp only [hrecord] at h
      obtain ⟨current, hcurrent, h⟩ := bind_eq_ok.mp h
      cases current <;> cases h <;> simp [Card.isVerdict, hcurrent]

theorem specShiftCard_current {slug : Str} {source : Engine.ServerSource} {record : SpecVerdict}
    (hrecord : doc.forServer slug = some record) (hcurrent : doc.matchesAuditedSource record source = .ok true) :
    ∃ c, specShiftCard doc slug false source = .ok c ∧ c.isVerdict = true ∧ c.isAdverse = record.isAdverse := by
  unfold specShiftCard
  rw [if_neg Bool.false_ne_true, hrecord]
  simp only [hcurrent]
  exact ⟨_, rfl, rfl, rfl⟩

theorem auditedNow_iff {server : Server} :
    AuditedNow doc server ↔
      ∃ record, doc.forServer server.slug = some record ∧ doc.matchesAuditedSource record server.source = .ok true := by
  unfold AuditedNow VerdictDoc.matchesAuditedSource
  simp only [matchFields_iff]

/-- The mask of the detail page, after it is rebound. -/
def Listing.pageMasked (d : Deployment) (l : Listing) : Bool :=
  d.isMasked l.server.slug && (l.scan.isSome || d.isProved l.server.slug)

theorem detailCard_shown {l : Listing} {c : Card} (h : detailCard d doc l.server l.scan = .ok c) :
    c.isVerdict = true ↔ l.pageMasked d = false ∧ AuditedNow doc l.server := by
  unfold detailCard at h
  obtain ⟨_, -, hcard⟩ := bind_eq_ok.mp h
  rw [auditedNow_iff]
  exact specShiftCard_verdict hcard

theorem detailCard_current {l : Listing} (hmasked : l.pageMasked d = false) (haudited : AuditedNow doc l.server)
    (hassess : ∀ scan, l.scan = some scan →
      ∃ freshness, assessScanFreshness (some scan.scannedAt) d.now true = .ok freshness) :
    shows (detailCard d doc l.server l.scan) Card.isVerdict = true ∧
      shows (detailCard d doc l.server l.scan) Card.isAdverse = adverseSlug doc l.server.slug := by
  obtain ⟨record, hrecord, hcurrent⟩ := auditedNow_iff.mp haudited
  obtain ⟨c, hcard, hverdict, hadverse⟩ := specShiftCard_current hrecord hcurrent
  have hdetail : detailCard d doc l.server l.scan = .ok c := by
    unfold detailCard
    rw [show (d.isMasked l.server.slug && (l.scan.isSome || d.isProved l.server.slug)) = false from hmasked]
    cases hscan : l.scan with
    | none => exact hcard
    | some scan =>
      obtain ⟨freshness, hfreshness⟩ := hassess scan hscan
      rw [pageFreshness, hfreshness]
      exact hcard
  rw [hdetail]
  refine ⟨hverdict, hadverse.trans ?_⟩
  rw [adverseSlug, hrecord]

/-- Only a verdict is adverse. -/
theorem detailCard_adverse {l : Listing} (h : shows (detailCard d doc l.server l.scan) Card.isAdverse = true) :
    shows (detailCard d doc l.server l.scan) Card.isVerdict = true := by
  cases hcard : detailCard d doc l.server l.scan with
  | error e =>
    rw [hcard] at h
    cases h
  | ok c =>
    rw [hcard] at h
    cases c with
    | verdict record adverse dimensions => rfl
    | _ => cases h

/-! ### The rows -/

theorem scanSummary_masked (server : Server) (projected : Dict) (operatorMasked : Bool) :
    Dict.get (scanSummary server projected operatorMasked) "slug" = .str server.slug ∧
      jsonTruthy (Dict.get (scanSummary server projected operatorMasked) "masked") =
        jsonTruthy (getOr projected "masked" (.bool false)) := by
  constructor
  · simp [scanSummary, Dict.get, Dict.lookup_cons]
  · simp [scanSummary, Dict.get, Dict.lookup_cons, jsonTruthy]

theorem readablePayload_mask (scan : ScanRecord) (freshness : ScanFreshness) (operatorMasked : Bool) :
    getOr (readablePayload d.dumpTime scan freshness operatorMasked) "masked" (.bool false) = .bool operatorMasked := by
  have hfreshness : (Dict.keys (freshnessFields scan freshness operatorMasked)).Nodup := by
    simp [freshnessFields, Dict.keys]
  have hwithheld : (Dict.keys (withheldFields operatorMasked)).Nodup := by
    simp [withheldFields, Dict.keys]
  have hmask : Dict.lookup ((scanPayload d.dumpTime scan).update (freshnessFields scan freshness operatorMasked))
      (u "masked") = some (.bool operatorMasked) := by
    rw [Dict.lookup_update hfreshness]
    simp [freshnessFields, Dict.lookup_cons]
  unfold getOr readablePayload
  by_cases hhidden : (operatorMasked || decide (freshness.state = .unknown)) = true
  · rw [if_pos hhidden, Dict.lookup_update hwithheld, hmask]
    simp [withheldFields, Dict.lookup_cons]
  · rw [if_neg hhidden, hmask]
    rfl

/-- A row names its server, and the mask it kept. -/
def RowOf (d : Deployment) (l : Listing) (row : Dict) : Prop :=
  Dict.get row "slug" = .str l.server.slug ∧ jsonTruthy (Dict.get row "masked") = l.rowMasked d

theorem siteRow_of {l : Listing} {row : Dict} (hproved : d.maskedScanSucceeded ⊆ d.masked)
    (hslug : Dict.get row "slug" = .str l.server.slug)
    (hmasked : jsonTruthy (Dict.get row "masked") = (d.isMasked l.server.slug && !l.unreadable))
    (hscan : l.unreadable = true → l.scan = none) : RowOf d l (siteRow d l.server.slug l.scan row) := by
  have hkeys : (Dict.keys reviewRow).Nodup := by decide
  unfold RowOf siteRow Listing.rowMasked Deployment.isProved
  by_cases hreview : (decide (l.server.slug ∈ d.maskedScanSucceeded) && l.scan.isNone) = true
  · rw [if_pos hreview]
    obtain ⟨hin, -⟩ := Bool.and_eq_true_iff.mp hreview
    have hoperator : d.isMasked l.server.slug = true := decide_eq_true (hproved (of_decide_eq_true hin))
    have hreviewSlug : Dict.lookup reviewRow (u "slug") = none := by simp [reviewRow, Dict.lookup_cons]
    have hreviewMasked : Dict.lookup reviewRow (u "masked") = some (.bool true) := by
      simp [reviewRow, Dict.lookup_cons]
    unfold Dict.get at hslug ⊢
    rw [Dict.lookup_update hkeys, Dict.lookup_update hkeys, hreviewSlug, hreviewMasked, hoperator, hin, Bool.or_true]
    exact ⟨hslug, rfl⟩
  · rw [if_neg hreview, hmasked]
    refine ⟨hslug, ?_⟩
    cases hunreadable : l.unreadable with
    | false => rfl
    | true =>
      have hin : decide (l.server.slug ∈ d.maskedScanSucceeded) = false := by
        rw [hscan hunreadable, Option.isNone_none, Bool.and_true] at hreview
        exact Bool.eq_false_of_not_eq_true hreview
      rw [hin]
      rfl

theorem row_ok {l : Listing} {row : Dict} (hproved : d.maskedScanSucceeded ⊆ d.masked)
    (hscan : l.unreadable = true → l.scan = none) (h : l.row d = .ok row) : l.Assessable d ∧ RowOf d l row := by
  unfold Listing.row at h
  obtain ⟨summary, hsummary, h⟩ := bind_eq_ok.mp h
  cases h
  unfold projectPublicSummary at hsummary
  obtain ⟨projected, hprojected, h⟩ := bind_eq_ok.mp hsummary
  cases h
  unfold projectPublicScan at hprojected
  cases hunreadable : l.unreadable with
  | true =>
    rw [hunreadable, if_pos rfl] at hprojected
    obtain ⟨freshness, hfreshness, hprojected⟩ := bind_eq_ok.mp hprojected
    cases hprojected
    refine ⟨.inr ⟨freshness, ?_⟩, siteRow_of hproved (scanSummary_masked ..).1 ?_ hscan⟩
    · rw [hscan hunreadable]
      exact hfreshness
    · rw [(scanSummary_masked ..).2, hunreadable, Bool.not_true, Bool.and_false]
      simp [unreadablePayload, getOr, Dict.lookup_cons, jsonTruthy]
  | false =>
    rw [hunreadable, if_neg Bool.false_ne_true] at hprojected
    cases hrecord : l.scan with
    | none =>
      simp only [hrecord] at hprojected
      cases hprojected
      rw [← hrecord]
      refine ⟨.inl ⟨hrecord, hunreadable⟩, siteRow_of hproved ?_ ?_ hscan⟩
      · simp [noScanSummary, Dict.get, Dict.lookup_cons]
      · rw [hunreadable, Bool.not_false, Bool.and_true]
        simp [noScanSummary, Dict.get, Dict.lookup_cons, jsonTruthy]
    | some scan =>
      simp only [hrecord] at hprojected
      obtain ⟨freshness, hfreshness, hprojected⟩ := bind_eq_ok.mp hprojected
      cases hprojected
      rw [← hrecord]
      refine ⟨.inr ⟨freshness, ?_⟩, siteRow_of hproved (scanSummary_masked ..).1 ?_ hscan⟩
      · rw [hrecord]
        exact hfreshness
      · rw [(scanSummary_masked ..).2, readablePayload_mask, hunreadable, Bool.not_false, Bool.and_true]
        rfl

theorem row_of_assessable {l : Listing} (hscan : l.unreadable = true → l.scan = none) (h : l.Assessable d) :
    ∃ row, l.row d = .ok row := by
  unfold Listing.row projectPublicSummary projectPublicScan
  cases hunreadable : l.unreadable with
  | true =>
    obtain ⟨-, hread⟩ | ⟨freshness, hfreshness⟩ := h
    · rw [hunreadable] at hread
      cases hread
    · rw [hscan hunreadable] at hfreshness
      simp only [Option.map_none] at hfreshness
      simp only [if_true, hfreshness]
      exact ⟨_, rfl⟩
  | false =>
    cases hrecord : l.scan with
    | none => exact ⟨_, rfl⟩
    | some scan =>
      obtain ⟨hnone, -⟩ | ⟨freshness, hfreshness⟩ := h
      · rw [hrecord] at hnone
        cases hnone
      · rw [hrecord, Option.map_some] at hfreshness
        simp only [Bool.false_eq_true, if_false, hfreshness]
        exact ⟨_, rfl⟩

theorem countP_eq_iff {α : Type} {p q : α → Bool} {items : List α} (h : ∀ a ∈ items, p a = true → q a = true) :
    items.countP p = items.countP q ↔ ∀ a ∈ items, q a = true → p a = true := by
  induction items with
  | nil => exact iff_of_true rfl fun _ h => nomatch h
  | cons a items ih =>
    obtain ⟨ha, hitems⟩ := List.forall_mem_cons.mp h
    have hle : items.countP p ≤ items.countP q := List.countP_mono_left hitems
    rw [List.forall_mem_cons, ← ih hitems, List.countP_cons, List.countP_cons]
    by_cases hq : q a = true
    · by_cases hp : p a = true
      · rw [if_pos hp, if_pos hq]
        simp [hp]
      · rw [if_neg hp, if_pos hq]
        constructor
        · omega
        · exact fun h => absurd (h.1 hq) hp
    · rw [if_neg fun hp => hq (ha hp), if_neg hq]
      simp [hq]

theorem ruledSlug_row {l : Listing} {row : Dict} (h : RowOf d l row) :
    ruledSlug doc row = if l.isCounted d doc then some l.server.slug else none := by
  obtain ⟨hslug, hmasked⟩ := h
  unfold ruledSlug Listing.isCounted
  rw [hmasked, hslug]
  cases l.rowMasked d with
  | true => rw [if_pos rfl, Bool.not_true, Bool.and_false, if_neg Bool.false_ne_true]
  | false => rw [if_neg Bool.false_ne_true, Bool.not_false, Bool.and_true]

/-- The notice counts the listed servers, each by its row. -/
theorem shown_rows {rows : List Dict} (hrow : ∀ l ∈ listings, ∀ row, l.row d = .ok row → RowOf d l row)
    (h : listings.mapM (Listing.row d) = .ok rows) :
    rows.filterMap (ruledSlug doc) =
      (listings.filter (Listing.isCounted d doc)).map fun l => l.server.slug := by
  induction listings generalizing rows with
  | nil =>
    cases h
    rfl
  | cons l listings ih =>
    rw [List.mapM_cons] at h
    obtain ⟨row, hl, h⟩ := bind_eq_ok.mp h
    obtain ⟨rest, hrest, h⟩ := bind_eq_ok.mp h
    cases h
    obtain ⟨hhead, htail⟩ := List.forall_mem_cons.mp hrow
    rw [List.filterMap_cons, ruledSlug_row (hhead row hl), ih htail hrest, List.filter_cons]
    by_cases hcounted : l.isCounted d doc = true
    · rw [if_pos hcounted, if_pos hcounted, List.map_cons]
    · rw [if_neg hcounted, if_neg hcounted]

def isExposed (d : Deployment) (doc : VerdictDoc) (l : Listing) : Bool :=
  l.isCounted d doc && adverseSlug doc l.server.slug

theorem notice_counts {rows : List Dict} {notice : Notice}
    (hrow : ∀ l ∈ listings, ∀ row, l.row d = .ok row → RowOf d l row)
    (hrows : listings.mapM (Listing.row d) = .ok rows) (h : specShiftNotice doc rows = some notice) :
    (∃ l ∈ listings, isExposed d doc l = true) ∧ notice.exposed = listings.countP (isExposed d doc) ∧
      notice.shown = listings.countP (Listing.isCounted d doc) := by
  have hexposed : (rows.filterMap (ruledSlug doc)).filter (adverseSlug doc) =
      (listings.filter (isExposed d doc)).map fun l => l.server.slug := by
    rw [shown_rows hrow hrows, List.filter_map, List.filter_filter]
    congr 2
    funext l
    exact Bool.and_comm _ _
  unfold specShiftNotice at h
  simp only [hexposed] at h
  split_ifs at h with hnone
  cases h
  refine ⟨?_, ?_, ?_⟩
  · obtain ⟨l, hl⟩ := List.exists_mem_of_ne_nil _ fun hempty => hnone (List.map_eq_nil_iff.mpr hempty)
    exact ⟨l, List.mem_filter.mp hl⟩
  · rw [List.length_map, List.countP_eq_length_filter]
  · rw [shown_rows hrow hrows, List.countP_eq_length_filter]
    exact List.length_map _

theorem notice_some {rows : List Dict} (hrow : ∀ l ∈ listings, ∀ row, l.row d = .ok row → RowOf d l row)
    (hrows : listings.mapM (Listing.row d) = .ok rows) (h : ∃ l ∈ listings, isExposed d doc l = true) :
    ∃ notice, specShiftNotice doc rows = some notice := by
  obtain ⟨l, hl, hexposed⟩ := h
  obtain ⟨hcounted, hadverse⟩ := Bool.and_eq_true_iff.mp hexposed
  unfold specShiftNotice
  rw [shown_rows hrow hrows]
  refine ⟨_, if_neg fun hnone => ?_⟩
  have hmem : l.server.slug ∈ ((listings.filter (Listing.isCounted d doc)).map fun l => l.server.slug).filter
      (adverseSlug doc) :=
    List.mem_filter.mpr ⟨List.mem_map_of_mem (List.mem_filter.mpr ⟨hl, hcounted⟩), hadverse⟩
  rw [hnone] at hmem
  cases hmem

theorem Listing.Assessable.scan {l : Listing} (h : l.Assessable d) :
    ∀ scan, l.scan = some scan → ∃ freshness, assessScanFreshness (some scan.scannedAt) d.now true = .ok freshness := by
  intro scan hscan
  obtain ⟨hnone, -⟩ | hfreshness := h
  · rw [hscan] at hnone
    cases hnone
  · rwa [hscan, Option.map_some] at hfreshness

theorem pageMasked_false {l : Listing} :
    l.pageMasked d = false ↔
      d.isMasked l.server.slug = false ∨ l.scan = none ∧ d.isProved l.server.slug = false := by
  rw [Listing.pageMasked, Bool.and_eq_false_iff, Bool.or_eq_false_iff, Option.isSome_eq_false_iff,
    Option.isNone_iff_eq_none]

theorem shows_eq_true {page : Except PyErr Card} {p : Card → Bool} :
    shows page p = true ↔ ∃ c, page = .ok c ∧ p c = true := by
  constructor
  · intro h
    cases page with
    | ok c => exact ⟨c, rfl, h⟩
    | error e => cases h
  · rintro ⟨c, rfl, h⟩
    exact h

/-- What the notice counts under a kept mask is an unreadable scan of a masked server. -/
theorem rowMasked_false {l : Listing} (hscan : l.unreadable = true → l.scan = none) (h : l.rowMasked d = false) :
    d.isMasked l.server.slug = false ∨ l.scan = none ∧ d.isProved l.server.slug = false := by
  rw [Listing.rowMasked, Bool.and_eq_false_iff, Bool.or_eq_false_iff, Bool.not_eq_false'] at h
  exact h.imp_right fun h => ⟨hscan h.1, h.2⟩

section Guards

variable (hproved : d.maskedScanSucceeded ⊆ d.masked)
  (hscan : ∀ l ∈ listings, l.unreadable = true → l.scan = none)
  (hcard : ∀ l ∈ listings, card l.server = detailCard d doc l.server l.scan)

include hcard in
theorem visible_iff {l : Listing} (hl : l ∈ listings) (h : shows (card l.server) Card.isVerdict = true) :
    l.pageMasked d = false ∧ AuditedNow doc l.server := by
  rw [hcard l hl] at h
  obtain ⟨c, hc, hverdict⟩ := shows_eq_true.mp h
  exact (detailCard_shown hc).mp hverdict

/-- Where no masked server leaks, every verdict on a page is counted. -/
theorem isCounted_of_shown {l : Listing} (hmasked : d.isMasked l.server.slug = true → l.scan = none →
      d.isProved l.server.slug = false → ¬AuditedNow doc l.server)
    (hpage : l.pageMasked d = false) (haudited : AuditedNow doc l.server) :
    d.isMasked l.server.slug = false ∧ l.isCounted d doc = true := by
  have hopen : d.isMasked l.server.slug = false := by
    obtain hopen | ⟨hnone, hunproved⟩ := pageMasked_false.mp hpage
    · exact hopen
    · by_contra hoperator
      exact hmasked (Bool.eq_true_of_not_eq_false hoperator) hnone hunproved haudited
  obtain ⟨record, hrecord, -⟩ := haudited
  refine ⟨hopen, ?_⟩
  rw [Listing.isCounted, Listing.rowMasked, hrecord, hopen]
  rfl

include hproved hscan hcard

theorem Disclosed.guarded (h : Disclosed d doc listings card) : Guarded d doc listings := by
  have hmasked : ∀ l ∈ listings, d.isMasked l.server.slug = true → l.scan = none →
      d.isProved l.server.slug = false → ¬AuditedNow doc l.server := by
    intro l hl hoperator hnone hunproved haudited
    have hnoscan : ∀ scan, l.scan = some scan →
        ∃ freshness, assessScanFreshness (some scan.scannedAt) d.now true = .ok freshness := by
      intro scan hsome
      rw [hnone] at hsome
      cases hsome
    obtain ⟨hverdict, -⟩ := detailCard_current (pageMasked_false.mpr (.inr ⟨hnone, hunproved⟩)) haudited hnoscan
    obtain ⟨c, hc, hverdict⟩ := shows_eq_true.mp hverdict
    have hopen := ((h.shown l hl c ((hcard l hl).trans hc)).mp hverdict).1
    rw [hoperator] at hopen
    cases hopen
  refine ⟨hmasked, ?_⟩
  rintro hassess ⟨l, hl, hcounted, hadverse⟩
  have hrow : ∀ l ∈ listings, ∀ row, l.row d = .ok row → RowOf d l row :=
    fun l hl row h => (row_ok hproved (hscan l hl) h).2
  obtain ⟨rows, hrows⟩ := exists_mapM_ok.mpr fun l hl => row_of_assessable (hscan l hl) (hassess l hl)
  obtain ⟨notice, hnotice⟩ :=
    notice_some hrow hrows ⟨l, hl, Bool.and_eq_true_iff.mpr ⟨hcounted, hadverse⟩⟩
  have hshown := (h.counted rows notice hrows hnotice).2
  rw [(notice_counts hrow hrows hnotice).2.2] at hshown
  have hvisible : ∀ l ∈ listings, shows (card l.server) Card.isVerdict = true → l.isCounted d doc = true := by
    intro l hl hverdict
    obtain ⟨hpage, haudited⟩ := visible_iff hcard hl hverdict
    exact (isCounted_of_shown (hmasked l hl) hpage haudited).2
  intro l hl hcounted
  exact (visible_iff hcard hl ((countP_eq_iff hvisible).mp hshown.symm l hl hcounted)).2

theorem Guarded.disclosed (h : Guarded d doc listings) : Disclosed d doc listings card := by
  refine ⟨?_, ?_⟩
  · intro l hl c hc
    rw [detailCard_shown ((hcard l hl).symm.trans hc)]
    constructor
    · rintro ⟨hpage, haudited⟩
      exact ⟨(isCounted_of_shown (h.masked l hl) hpage haudited).1, haudited⟩
    · rintro ⟨hopen, haudited⟩
      exact ⟨pageMasked_false.mpr (.inl hopen), haudited⟩
  · intro rows notice hrows hnotice
    have hrow : ∀ l ∈ listings, ∀ row, l.row d = .ok row → RowOf d l row :=
      fun l hl row h => (row_ok hproved (hscan l hl) h).2
    have hassess : ∀ l ∈ listings, l.Assessable d := by
      intro l hl
      obtain ⟨row, hrow⟩ := exists_mapM_ok.mp ⟨rows, hrows⟩ l hl
      exact (row_ok hproved (hscan l hl) hrow).1
    obtain ⟨⟨l, hl, hexposed⟩, hexposedCount, hshownCount⟩ := notice_counts hrow hrows hnotice
    have hcurrent := h.current hassess ⟨l, hl, Bool.and_eq_true_iff.mp hexposed⟩
    have hpage : ∀ l ∈ listings, l.isCounted d doc = true → l.pageMasked d = false := by
      intro l hl hcounted
      have hrowMasked := (Bool.and_eq_true_iff.mp hcounted).2
      rw [Bool.not_eq_true'] at hrowMasked
      exact pageMasked_false.mpr (rowMasked_false (hscan l hl) hrowMasked)
    have hcards : ∀ l ∈ listings, l.isCounted d doc = true →
        shows (card l.server) Card.isVerdict = true ∧
          shows (card l.server) Card.isAdverse = adverseSlug doc l.server.slug := by
      intro l hl hcounted
      rw [hcard l hl]
      exact detailCard_current (hpage l hl hcounted) (hcurrent l hl hcounted) (hassess l hl).scan
    have hvisible : ∀ l ∈ listings, shows (card l.server) Card.isVerdict = true → l.isCounted d doc = true := by
      intro l hl hverdict
      obtain ⟨hpage, haudited⟩ := visible_iff hcard hl hverdict
      exact (isCounted_of_shown (h.masked l hl) hpage haudited).2
    constructor
    · rw [hexposedCount]
      apply List.countP_congr
      intro l hl
      constructor
      · intro hexposed
        obtain ⟨hcounted, hadverse⟩ := Bool.and_eq_true_iff.mp hexposed
        rw [(hcards l hl hcounted).2]
        exact hadverse
      · intro hadverse
        have hverdict : shows (card l.server) Card.isVerdict = true := by
          rw [hcard l hl] at hadverse ⊢
          exact detailCard_adverse hadverse
        have hcounted := hvisible l hl hverdict
        rw [(hcards l hl hcounted).2] at hadverse
        exact Bool.and_eq_true_iff.mpr ⟨hcounted, hadverse⟩
    · rw [hshownCount]
      exact ((countP_eq_iff hvisible).mpr fun l hl hcounted => (hcards l hl hcounted).1).symm

end Guards

/-! ### The pages of a registry -/

theorem readback_slot {registry : Registry} {readback : ScanReadback}
    (h : scanReadback d.py d.interp registry.scans = .ok readback) (server : Server) :
    (readback.records server.slug, readback.unreadable server.slug) =
      match (newestFirst (.text server.slug) registry.scans.rows).head? with
      | none => (none, false)
      | some row => admitted d.py d.interp row := by
  have hhandled : ∀ row ∈ newestRows registry.scans.rows, Handled d.py d.interp row :=
    fun row hrow => foldlM_admitRow_handled h row ((List.mem_insertionSort _).mpr hrow)
  obtain ⟨other, hother, hslot⟩ := scanReadback_latest hhandled server.slug_valid
  rw [h, Except.ok.injEq] at hother
  rw [hother]
  exact hslot

theorem readback_unreadable {registry : Registry} {readback : ScanReadback}
    (h : scanReadback d.py d.interp registry.scans = .ok readback) {server : Server}
    (hunreadable : readback.unreadable server.slug = true) : readback.records server.slug = none := by
  have hslot := readback_slot h server
  cases hnewest : (newestFirst (.text server.slug) registry.scans.rows).head? with
  | none =>
    rw [hnewest, Prod.mk.injEq] at hslot
    exact hslot.1
  | some row =>
    rw [hnewest] at hslot
    cases hrow : rowToScan d.py d.interp row with
    | ok record =>
      simp only [admitted, hrow, Prod.mk.injEq, hunreadable] at hslot
      cases hslot.2
    | error e =>
      simp only [admitted, hrow, Prod.mk.injEq] at hslot
      exact hslot.1

/-- The detail page of the application reads what the catalog page holds. -/
theorem servedCard_eq {registry : Registry} {readback : ScanReadback}
    (h : scanReadback d.py d.interp registry.scans = .ok readback) (server : Server) :
    servedCard d doc registry server = detailCard d.served doc server (readback.records server.slug) := by
  have hslot := readback_slot h server
  unfold servedCard readableLatest latest
  cases hnewest : (newestFirst (.text server.slug) registry.scans.rows).head? with
  | none =>
    rw [hnewest, Prod.mk.injEq] at hslot
    rw [hslot.1]
    rfl
  | some row =>
    have hhandled := foldlM_admitRow_handled h row
      ((List.mem_insertionSort _).mpr (head_mem_newestRows hnewest))
    rw [hnewest] at hslot
    cases hrow : rowToScan d.py d.interp row with
    | ok record =>
      simp only [admitted, hrow, Prod.mk.injEq] at hslot
      rw [hslot.1]
      simp only [hrow]
      rfl
    | error e =>
      simp only [admitted, hrow, Prod.mk.injEq] at hslot
      rw [hslot.1]
      simp only [hrow, Except.map]
      rw [catching_error, if_pos (hhandled e hrow)]
      rfl

end Proofs

/-- The generated site and the application show the verdicts they should, and count what they show,
exactly where no masked server leaks and all that is counted is current. -/
theorem spec_shift_disclosed_iff (d : Deployment) (doc : VerdictDoc) (registry : Registry) (readback : ScanReadback)
    (hreadback : scanReadback d.py d.interp registry.scans = .ok readback)
    (hproved : d.maskedScanSucceeded ⊆ d.masked) :
    (Disclosed d doc (registry.servers.map (listing readback)) (siteCard d doc readback) ↔
        Guarded d doc (registry.servers.map (listing readback))) ∧
      (Disclosed d.served doc (registry.servers.map (listing readback)) (servedCard d doc registry) ↔
        Guarded d.served doc (registry.servers.map (listing readback))) := by
  have hscan : ∀ l ∈ registry.servers.map (listing readback), l.unreadable = true → l.scan = none := by
    intro l hl hunreadable
    obtain ⟨server, -, rfl⟩ := List.mem_map.mp hl
    exact readback_unreadable hreadback hunreadable
  have hsite : ∀ l ∈ registry.servers.map (listing readback),
      siteCard d doc readback l.server = detailCard d doc l.server l.scan := by
    intro l hl
    obtain ⟨server, -, rfl⟩ := List.mem_map.mp hl
    rfl
  have hserved : ∀ l ∈ registry.servers.map (listing readback),
      servedCard d doc registry l.server = detailCard d.served doc l.server l.scan := by
    intro l hl
    obtain ⟨server, -, rfl⟩ := List.mem_map.mp hl
    exact servedCard_eq hreadback server
  refine ⟨⟨?_, ?_⟩, ⟨?_, ?_⟩⟩
  · exact fun h => h.guarded hproved hscan hsite
  · exact fun h => h.disclosed hproved hscan hsite
  · exact fun h => h.guarded (List.nil_subset _) hscan hserved
  · exact fun h => h.disclosed (List.nil_subset _) hscan hserved

/-! ## A masked server without a scan -/

def reviewedServer : Server where
  slug := u "a"
  name := u "A"
  description := []
  source := ⟨.npm, u "a", none, [], [], none, false, Engine.ServerSource.noKeys_names, Engine.ServerSource.noKeys_nodup⟩
  homepage := none
  addedAt := ⟨63902908800000000, some 0, sampleTime.inRange⟩
  slug_valid := sampleSlug_valid

def reviewedRegistry : Registry where
  servers := [reviewedServer]
  scans := ⟨[], by simp⟩

def reviewedDeployment : Deployment where
  py := refusing
  interp := ⟨1000, initialLimit_deep⟩
  dumpTime := DateTime.isoformat
  now := ⟨63902908800000000, some 0, sampleTime.inRange⟩
  masked := [u "a"]
  maskedScanSucceeded := []

def breakingDoc : VerdictDoc where
  specVersion := u "2026-07-28"
  ruledAt := u "2026-07-18"
  deltaCheckedAt := none
  boundFields := ["kind", "reference"].map u
  dimensionTitles := []
  servers :=
    [(u "a", ⟨u "BREAKS", u "high", [], [],
      [(u "kind", .text (u "npm")), (u "reference", .text (u "a"))], none⟩)]

theorem spec_shift_disclosed_sample :
    Disclosed reviewedDeployment breakingDoc (reviewedRegistry.servers.map (listing ⟨fun _ => none, fun _ => false⟩))
        (siteCard reviewedDeployment breakingDoc ⟨fun _ => none, fun _ => false⟩) ↔
      Guarded reviewedDeployment breakingDoc
        (reviewedRegistry.servers.map (listing ⟨fun _ => none, fun _ => false⟩)) :=
  (spec_shift_disclosed_iff reviewedDeployment breakingDoc reviewedRegistry _ rfl (List.nil_subset _)).1

theorem reviewed_audited : AuditedNow breakingDoc reviewedServer := by
  refine ⟨_, rfl, ?_⟩
  decide

/-- The page of the masked server shows the verdict. -/
theorem reviewed_verdict_shown :
    ¬Disclosed reviewedDeployment.served breakingDoc
      (reviewedRegistry.servers.map (listing ⟨fun _ => none, fun _ => false⟩))
      (servedCard reviewedDeployment breakingDoc reviewedRegistry) := by
  intro h
  have hguarded := h.guarded (List.nil_subset _) (fun l hl hunreadable => by
    obtain ⟨server, -, rfl⟩ := List.mem_map.mp hl
    cases hunreadable) (fun l hl => by
    obtain ⟨server, -, rfl⟩ := List.mem_map.mp hl
    exact @servedCard_eq reviewedDeployment breakingDoc reviewedRegistry _ rfl server)
  exact hguarded.masked (listing ⟨fun _ => none, fun _ => false⟩ reviewedServer) (List.mem_singleton.mpr rfl)
    (by decide) rfl (by decide) reviewed_audited

end McpTrust.Site
