import McpTrust.Python.JsonEncode
import McpTrust.Core.Totals
import McpTrust.Qualification.Runs

/-! # The public surfaces

The catalog endpoints, the badges and the static pages read the same registry.
The fixed text of a page is a parameter; what the page adds to it is not.
-/

namespace McpTrust.Site

set_option autoImplicit false

open Python Store Sqlite

/-- `ServerRepository.list()` beside the table of scans. -/
structure Registry where
  servers : List Server
  scans : ScanTable

/-- What a deployment of the registry fixes. -/
structure Deployment where
  py : Pydantic
  interp : Interpreter
  dumpTime : TimeDump
  now : DateTime
  masked : List Str
  maskedScanSucceeded : List Str

variable (d : Deployment) (registry : Registry)

def Deployment.isMasked (slug : Str) : Bool := decide (slug ∈ d.masked)

/-! ## Endpoints -/

/-- `GET /servers`. -/
def listServers : Except PyErr (List Dict) := do
  let readback ← latestAllReadback d.py d.interp registry.scans
  registry.servers.mapM fun server =>
    projectPublicSummary d.dumpTime server (readback.records (.text server.slug)) d.now
      (d.isMasked server.slug) (readback.unreadable (.text server.slug))

/-- `GradeChange.model_dump(mode="json")`. -/
def gradeChangeJson (change : GradeChange) : Json :=
  .obj
    [(u "changed_at", .str (d.dumpTime change.changedAt)),
      (u "previous_grade", text change.previousGrade.text),
      (u "current_grade", text change.currentGrade.text), (u "cause", text change.cause.text),
      (u "surface_comparison", text change.surfaceComparison.text)]

def unreadableHistory : Json :=
  .obj [(u "status", text "UNKNOWN"), (u "reason_codes", .arr [text "SCAN_HISTORY_UNREADABLE"])]

def serverPage (server : Server) (scan : Option Dict) (gradeChange : Json) : Dict :=
  [(u "server", .obj (projectPublicServer d.dumpTime server (d.isMasked server.slug))),
    (u "latest_scan", optional .obj scan), (u "grade_change", gradeChange)]

/-- A history that does not decode counts as none. -/
def readableHistory (slug : Str) : Except PyErr (Option (List ScanRecord)) :=
  catching ((history d.py d.interp registry.scans slug).map some) isCorruption (.ok none)

def freshnessUnknown (scan : Option Dict) : Bool :=
  match scan with
  | some fields =>
    match Dict.get fields "freshness_state" with
    | .str state => decide (state = u FreshnessState.unknown.text)
    | _ => false
  | none => false

/-- The page of a server whose newest scan decodes, if it has one. -/
def readServer (server : Server) (scan : Option ScanRecord) : Except PyErr Dict := do
  let stored ← readableHistory d registry server.slug
  let projected ← projectPublicScan d.dumpTime scan d.now (d.isMasked server.slug) false
  let change ← latestGradeChange (stored.getD [])
  let withheld := (d.isMasked server.slug && scan.isSome) || freshnessUnknown projected
  let gradeChange :=
    if withheld then .null
    else if stored.isNone then unreadableHistory
    else optional (gradeChangeJson d) change
  .ok (serverPage d server projected gradeChange)

/-- `scan_repo.latest(slug)`, with `none` for a row that does not decode. -/
def readableLatest (slug : Str) : Except PyErr (Option (Option ScanRecord)) :=
  catching ((latest d.py d.interp registry.scans slug).map some) isCorruption (.ok none)

def findServer (slug : Str) : Option Server :=
  registry.servers.find? fun server => decide (server.slug = slug)

/-- `GET /servers/{slug}`, `none` for the 404. -/
def getServer (slug : Str) : Except PyErr (Option Dict) :=
  match findServer registry slug with
  | none => .ok none
  | some server => do
    let found ← readableLatest d registry server.slug
    match found with
    | some scan => (readServer d registry server scan).map some
    | none => do
      let projected ← projectPublicScan d.dumpTime none d.now (d.isMasked server.slug) true
      .ok (some (serverPage d server projected .null))

def gradeText (scan : Option ScanRecord) : Str := u ((scan.map ScanRecord.grade).getD .unscanned).text

def badgeOf (server : Server) (scan : Option ScanRecord) : Except PyErr Dict := do
  let projected ← projectPublicScan d.dumpTime scan d.now (d.isMasked server.slug) false
  if freshnessUnknown projected then .ok (badgePayload (u "unknown") .unknown false false false none)
  else
    let field := fun key => jsonTruthy ((projected.map fun fields => Dict.get fields key).getD .null)
    .ok
      (badgePayload (gradeText scan) (classify scan) (field "stale")
        (field "grade_withheld" && d.isMasked server.slug) false none)

/-- `GET /servers/{slug}/badge.json`. -/
def getBadge (slug : Str) : Except PyErr (Option Dict) :=
  match findServer registry slug with
  | none => .ok none
  | some server => do
    let found ← readableLatest d registry server.slug
    match found with
    | some scan => (badgeOf d server scan).map some
    | none => .ok (some (badgePayload (u "unknown") .unknown false false false none))

/-! ## The static site -/

/-- What the loop of `generate_site` keeps of one server. -/
structure SiteEntry where
  slug : Str
  badge : Str
  row : Dict
  history : List ScanRecord
  demo : Bool

/-- `json.dumps(payload, indent=2)`. -/
def badgeStyle : Style where
  ensureAscii := true
  indent := some 2
  itemPad := false
  keyPad := true
  sortKeys := false

def reviewRow : Dict :=
  [(u "grade", text "under review"), (u "masked", .bool true), (u "grade_withheld", .bool true)]

/-- The history of a server, none where its newest scan or the history does not decode. -/
def siteHistory (readback : LatestReadback) (slug : Str) : Except PyErr (Option (List ScanRecord)) :=
  if readback.unreadable (.text slug) then .ok none else readableHistory d registry slug

def siteBadge (slug : Str) (scan : Option ScanRecord) (unknownScan : Bool) (freshness : ScanFreshness) :
    Dict :=
  let succeeded := decide (slug ∈ d.maskedScanSucceeded)
  let unknown := decide (freshness.state = .unknown)
  badgePayload (if unknown || unknownScan then u "unknown" else gradeText scan)
    (if unknown || unknownScan then .unknown else classify scan) (decide (freshness.state = .stale))
    (d.isMasked slug && (scan.isSome || succeeded)) succeeded
    (if unknown then none else scan.map ScanRecord.scannedAt)

/-- A verified proof of success shows the review state where no scan is left. -/
def siteRow (slug : Str) (scan : Option ScanRecord) (row : Dict) : Dict :=
  if decide (slug ∈ d.maskedScanSucceeded) && scan.isNone then row.update reviewRow else row

/-- One turn of the loop over the servers. The detail page is written between the row and the
badge. -/
def siteEntry (readback : LatestReadback) (server : Server) : Except PyErr SiteEntry := do
  let scan := readback.records (.text server.slug)
  let unknownScan := readback.unreadable (.text server.slug)
  let stored ← siteHistory d registry readback server.slug
  let freshness ← assessScanFreshness (scan.map ScanRecord.scannedAt) d.now scan.isSome
  let row ← projectPublicSummary d.dumpTime server scan d.now (d.isMasked server.slug) unknownScan
  .ok
    { slug := server.slug
      badge := dumps badgeStyle (.obj (siteBadge d server.slug scan unknownScan freshness)) ++ u "\n"
      row := siteRow d server.slug scan row
      history := stored.getD []
      demo := !unknownScan && decide (classify scan = .demo) }

/-- The fixed texts of the pages. -/
structure Templates where
  /-- `render_catalog(rows, banner=…, now=…)`. -/
  catalog : List Dict → Option Str → DateTime → Str
  methodologyBefore : Str
  methodologyAfter : Str

def demoDisclosure : String :=
  "DEMO DATA — Grades on this site were generated by the deterministic stub " ++
    "engine for demonstration, not by scanning real MCP servers. Do not rely on them."

/-- `html.escape(text)`. -/
def escapeHtml (s : Str) : Str :=
  s.flatMap fun c =>
    if c = ch '&' then u "&amp;"
    else if c = ch '<' then u "&lt;"
    else if c = ch '>' then u "&gt;"
    else if c = ch '"' then u "&quot;"
    else if c = ch '\'' then u "&#x27;"
    else [c]

def countedChanges (changes : Nat) : Str :=
  if changes = 0 then u "no grade change."
  else natRepr changes ++ u (if changes = 1 then " grade change." else " grade changes.")

/-- How many of the changes came with a change of the engine. -/
def engineSentence (changes withEngine : Nat) : Str :=
  if changes = 0 then []
  else if changes = 1 then
    if withEngine = 0 then u " It did not coincide with a change of scanner engine version."
    else u " It coincided with a change of scanner engine version."
  else if withEngine = changes then
    u " All " ++ natRepr changes ++ u " coincided with a change of scanner engine version."
  else
    u " " ++ natRepr withEngine ++ u " of " ++ natRepr changes ++
      u " coincided with a change of scanner engine version."

def comparisonNoun (comparisons : Nat) : Str := u (if comparisons = 1 then "comparison" else "comparisons")

def surfaceSentence (comparisons surfaceChanges : Nat) : Str :=
  if surfaceChanges = 0 then
    u " No declared tool surface changed in the " ++ natRepr comparisons ++ u " scan-to-scan " ++
      comparisonNoun comparisons ++ u " where evidence was recorded on both sides."
  else
    u " " ++ natRepr surfaceChanges ++ u " declared tool-surface changes were recorded across the " ++
      natRepr comparisons ++ u " scan-to-scan " ++ comparisonNoun comparisons ++
      u " where evidence was recorded on both sides."

/-- `_grade_movement_sentences(totals)`. -/
def gradeMovementSentences (totals : HistoryTotals) : Str :=
  match totals.firstScannedAt, totals.lastScannedAt with
  | some first, some last =>
    if totals.scans = 0 then []
    else
      escapeHtml
        (u "Across " ++ natRepr totals.scans ++ u " scans of " ++ natRepr totals.servers ++
          u " servers recorded between " ++ first.date.isoformat ++ u " and " ++ last.date.isoformat ++
          u ", this registry has recorded " ++
          (countedChanges totals.gradeChanges ++
            (engineSentence totals.gradeChanges totals.gradeChangesWithEngineChange ++
              surfaceSentence totals.comparablePairs totals.surfaceChanges)))
  | _, _ => []

def movementCard (movement : Str) : Str :=
  if movement = [] then []
  else
    u "<div class=\"card\"><h2 style=\"font-size:1rem;font-weight:600;margin-bottom:0.5rem\">" ++
      u "6. How much grades have moved</h2>" ++
      u "<p style=\"font-size:0.875rem;color:#24292f;line-height:1.7\">" ++ movement ++
      u " A grade movement attributed to a scanner engine change is " ++
      u "a re-evaluation of the same recorded surface, not evidence that the " ++
      u "server itself changed. Each server's full history, with the cause " ++
      u "attributed to every step, is on its own page.</p></div>"

/-- `render_methodology(history_totals=…)`. -/
def renderMethodology (templates : Templates) (totals : HistoryTotals) : Str :=
  templates.methodologyBefore ++ movementCard (gradeMovementSentences totals) ++
    templates.methodologyAfter

/-- The pages written before `generate_site` returned or raised. -/
structure SiteBuild where
  badges : List (Str × Str)
  index : Option Str
  methodology : Option Str
  raised : Option PyErr
  deriving DecidableEq

/-- The results before the first exception, and the exception. -/
def mapUntil {α β : Type} (f : α → Except PyErr β) : List α → List β × Option PyErr
  | [] => ([], none)
  | a :: rest =>
    match f a with
    | .error e => ([], some e)
    | .ok b => ((b :: (mapUntil f rest).1), (mapUntil f rest).2)

/-- The pages that come after the loop. -/
def finishSite (templates : Templates) (entries : List SiteEntry) : SiteBuild :=
  let badges := entries.map fun entry => (entry.slug, entry.badge)
  let banner := if entries.any SiteEntry.demo then some (u demoDisclosure) else none
  let index := templates.catalog (entries.map SiteEntry.row) banner d.now
  match corpusHistoryTotals (entries.map SiteEntry.history) with
  | .error e => ⟨badges, some index, none, some e⟩
  | .ok totals => ⟨badges, some index, some (renderMethodology templates totals), none⟩

/-- `generate_site(conn, out_dir, …)`. -/
def generateSite (templates : Templates) : SiteBuild :=
  if d.maskedScanSucceeded ⊆ d.masked then
    match latestAllReadback d.py d.interp registry.scans with
    | .error e => ⟨[], none, none, some e⟩
    | .ok readback =>
      match mapUntil (siteEntry d registry readback) registry.servers with
      | (entries, some e) => ⟨entries.map fun entry => (entry.slug, entry.badge), none, none, some e⟩
      | (entries, none) => finishSite d templates entries
  else ⟨[], none, none, some .valueError⟩

end McpTrust.Site
