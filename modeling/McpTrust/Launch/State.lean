import McpTrust.Store.Repository
import McpTrust.Site.Publish

/-! # The launch-state check

`validate_launch_state` compares the newest rows of a registry with the seed
catalog, the masked slugs and the receipt files; `_copy_sanitized_db` reduces a
registry to the rows the same query selects.
-/

namespace McpTrust.Launch

set_option autoImplicit false

open Python Sqlite Store

/-- An entry that is there; the bytes of a regular file. -/
inductive FileEntry
  | file (content : Bytes)
  | directory

/-- The entries of a receipts directory by name. -/
abbrev Receipts := Str → Option FileEntry

structure LaunchInputs where
  db : Option ScanTable
  receipts : Option Receipts
  seed : Option Bytes
  /-- `masked_path`; the inner option is the file at that path. -/
  masked : Option (Option Bytes)
  allowStub : Bool

inductive LaunchError
  | missingRegistryDb
  | missingReceiptsDirectory
  | missingSeedCatalog
  | missingMaskedGrades
  | maskedNotUniqueStringList
  | maskedUnseeded (slugs : List Str)
  | maskedExposed (slugs : List Str)
  | missingScans (slugs : List Str)
  | unseededScans (slugs : List Str)
  | invalidGrade (slug grade : SqlValue)
  | invalidTransparency (slug transparency : SqlValue)
  | stubEngine (slug : SqlValue)
  | missingReportRef (slug : SqlValue)
  | reportRefNotPortable (slug reportRef : SqlValue)
  | receiptFileMissing (slug : SqlValue) (reportRef : Str)
  | receiptJsonInvalid (slug : SqlValue)
  | receiptSlugMismatch (slug : SqlValue)
  | receiptScanIdMismatch (slug : SqlValue)
  | receiptEngineNameMismatch (slug : SqlValue)
  | receiptEngineVersionMismatch (slug : SqlValue)
  deriving DecidableEq

structure LaunchSummary where
  seededServers : Nat
  maskedServers : Nat
  latestScans : Nat
  receiptsChecked : Nat
  grades : List (SqlValue × Nat)
  transparency : List (SqlValue × Nat)
  engines : List (SqlValue × Nat)
  deriving DecidableEq

variable (interp : Interpreter)

def loadJson (content : Bytes) : Except PyErr Json := decodeUtf8 content >>= jsonLoads interp

/-! ## Slugs -/

/-- `row["slug"]`, to be put in a set. -/
def rowSlug : Json → Except PyErr Json
  | .obj fields =>
    match Dict.lookup fields (u "slug") with
    | some slug => if slug.hashable then .ok slug else .error .typeError
    | none => .error .keyError
  | _ => .error .typeError

/-- `{row["slug"] for row in seed}`, with repetitions. -/
def seedSlugs : Json → Except PyErr (List Json)
  | .arr rows => rows.mapM rowSlug
  | .obj fields => if fields = [] then .ok [] else .error .typeError
  | .str s => if s = [] then .ok [] else .error .typeError
  | _ => .error .typeError

def strings (values : List Json) : Option (List Str) :=
  values.mapM fun
    | .str s => some s
    | _ => none

/-- A list of distinct strings, none of them empty. -/
def uniqueStrings : Json → Option (List Str)
  | .arr items => (strings items).filter fun slugs => decide ([] ∉ slugs ∧ slugs.Nodup)
  | _ => none

/-- The expected slugs and the masked ones, or the one error that ends the check. -/
def readSlugs (inputs : LaunchInputs) (seed : Bytes) :
    Except PyErr (Except LaunchError (List Json × List Str)) := do
  let seed ← loadJson interp seed
  let expected ← seedSlugs seed
  match inputs.masked with
  | none => .ok (.ok (expected, []))
  | some none => .ok (.error .missingMaskedGrades)
  | some (some content) => do
    let masked ← loadJson interp content
    match uniqueStrings masked with
    | none => .ok (.error .maskedNotUniqueStringList)
    | some masked =>
      let unseeded := masked.filter fun slug => !expected.any fun v => v.pyEq (.str slug)
      if unseeded ≠ [] then .ok (.error (.maskedUnseeded (sortedStr unseeded)))
      else .ok (.ok (expected.filter (fun v => !masked.any fun slug => v.pyEq (.str slug)), masked))

/-- `", ".join(sorted(slugs))`, which takes strings only. -/
def joined (slugs : Option (List Str)) (message : List Str → LaunchError) :
    Except PyErr (List LaunchError) :=
  match slugs with
  | none => .error .typeError
  | some [] => .ok []
  | some slugs => .ok [message (sortedStr slugs)]

def texts (values : List SqlValue) : Option (List Str) :=
  values.mapM fun
    | .text s => some s
    | _ => none

def compareSlugs (expected : List Json) (masked : List Str) (latest : List SqlValue) :
    Except PyErr (List LaunchError) := do
  let leaked ← joined (texts (latest.filter fun v => decide (v ∈ masked.map .text))) .maskedExposed
  let missing ← joined
    (strings (expected.filter fun v => !latest.any fun w => match v, w with
      | .str s, .text t => decide (s = t)
      | _, _ => false)) .missingScans
  let extras ← joined
    (texts (latest.filter fun w => !expected.any fun v => match v, w with
      | .str s, .text t => decide (s = t)
      | _, _ => false)) .unseededScans
  .ok (leaked ++ missing ++ extras)

/-! ## Rows -/

/-- `value == column`. -/
def sameValue : Json → SqlValue → Bool
  | .str s, .text t => decide (s = t)
  | .null, .null => true
  | _, _ => false

/-- `_is_portable_ref(report_ref)`. -/
def isPortableRef : SqlValue → Except PyErr Bool
  | .text s => .ok (decide (s ≠ []) && decide (ch '/' ∉ s) && decide (ch '\\' ∉ s))
  | _ => .error .typeError

/-- `receipt.get("scanner") or {}`. -/
def scannerOf (receipt : Dict) : Except PyErr Dict :=
  match Dict.get receipt "scanner" with
  | .obj scanner => .ok scanner
  | .null | .bool false | .str [] | .arr [] => .ok []
  | .int n => if n = 0 then .ok [] else .error .attributeError
  | .float x => if x.value? = some 0 then .ok [] else .error .attributeError
  | _ => .error .attributeError

def errorIf (c : Bool) (e : LaunchError) : List LaunchError := if c then [e] else []

/-- What the checks behind a row's receipt report. -/
def checkReceipt (row : ScanRow) (receipt : Json) : Except PyErr (List LaunchError) :=
  match receipt with
  | .obj receipt => do
    let scanner ← scannerOf receipt
    .ok (errorIf (!sameValue (Dict.get receipt "server_slug") row.serverSlug)
        (.receiptSlugMismatch row.serverSlug) ++
      errorIf (!sameValue (Dict.get receipt "scan_id") row.id) (.receiptScanIdMismatch row.serverSlug) ++
      errorIf (!sameValue (Dict.get scanner "engine_name") row.engineName)
        (.receiptEngineNameMismatch row.serverSlug) ++
      errorIf (!sameValue (Dict.get scanner "engine_version") row.engineVersion)
        (.receiptEngineVersionMismatch row.serverSlug))
  | _ => .error .attributeError

/-- `_load_json(receipt_path)` of an entry that exists. -/
def readEntry : FileEntry → Except PyErr Json
  | .file content => loadJson interp content
  | .directory => .error .osError

def isJsonDecodeError (e : PyErr) : Bool := decide (e = .jsonDecodeError)

def checkReceiptFile (receipts : Receipts) (row : ScanRow) (reportRef : Str) :
    Except PyErr (List LaunchError) :=
  match receipts reportRef with
  | none => .ok [.receiptFileMissing row.serverSlug reportRef]
  | some entry =>
    match readEntry interp entry with
    | .ok receipt => checkReceipt row receipt
    | .error e => if isJsonDecodeError e then .ok [.receiptJsonInvalid row.serverSlug] else .error e

def checkReportRef (receipts : Receipts) (row : ScanRow) : Except PyErr (List LaunchError) :=
  if row.reportRef.truthy = false then .ok [.missingReportRef row.serverSlug]
  else do
    let portable ← isPortableRef row.reportRef
    match row.reportRef with
    | .text reportRef =>
      if portable then checkReceiptFile interp receipts row reportRef
      else .ok [.reportRefNotPortable row.serverSlug row.reportRef]
    | _ => .error .typeError

/-- The row's receipt was there to be read. -/
def hasReceipt (receipts : Receipts) (row : ScanRow) : Bool :=
  match row.reportRef with
  | .text reportRef =>
    decide (isPortableRef row.reportRef = .ok true) && (receipts reportRef).isSome
  | _ => false

def validGrades : List SqlValue := ["A", "B", "C", "D", "F"].map fun grade => .text (u grade)

def validTransparency : List SqlValue := ["high", "medium", "low"].map fun level => .text (u level)

/-- The checks on the columns of a row. -/
def columnErrors (allowStub : Bool) (row : ScanRow) : List LaunchError :=
  errorIf (decide (row.grade ∉ validGrades)) (.invalidGrade row.serverSlug row.grade) ++
    errorIf (decide (row.transparency ∉ validTransparency))
      (.invalidTransparency row.serverSlug row.transparency) ++
    errorIf (decide (row.engineName = .text (u "stub")) && !allowStub) (.stubEngine row.serverSlug)

/-- The body of the loop over the newest rows. -/
def checkRow (allowStub : Bool) (receipts : Receipts) (row : ScanRow) :
    Except PyErr (List LaunchError) := do
  let refErrors ← checkReportRef interp receipts row
  .ok (columnErrors allowStub row ++ refErrors)

/-- `_latest_scan_rows(conn)`. -/
def latestScanRows (rows : List ScanRow) : List ScanRow :=
  (newestRows rows).insertionSort fun a b => a.serverSlug ≤ b.serverSlug

def isText : SqlValue → Bool
  | .text _ => true
  | _ => false

/-- `dict(sorted(Counter(values).items()))`; `str` and `bytes` have no order between them. -/
def sortedCounts (values : List SqlValue) : Except PyErr (List (SqlValue × Nat)) :=
  let distinct := values.dedup.insertionSort fun v w => v ≤ w
  if values.all isText || values.all (fun v => !isText v) then
    .ok (distinct.map fun v => (v, values.count v))
  else .error .typeError

def launchSummary (rows : List ScanRow) (receipts : Receipts) (expected : List Json)
    (masked : List Str) : Except PyErr LaunchSummary := do
  let grades ← sortedCounts (rows.map ScanRow.grade)
  let transparency ← sortedCounts (rows.map ScanRow.transparency)
  let engines ← sortedCounts (rows.map ScanRow.engineName)
  .ok
    { seededServers := (expected.eraseDupsBy fun v w => v.pyEq w).length
      maskedServers := masked.length
      latestScans := rows.length
      receiptsChecked := rows.countP (hasReceipt receipts)
      grades := grades
      transparency := transparency
      engines := engines }

def checkRegistry (allowStub : Bool) (table : ScanTable) (receipts : Receipts) (expected : List Json)
    (masked : List Str) : Except PyErr (List LaunchError × LaunchSummary) := do
  let rows := latestScanRows table.rows
  let slugErrors ← compareSlugs expected masked (rows.map ScanRow.serverSlug).dedup
  let rowErrors ← rows.mapM (checkRow interp allowStub receipts)
  let summary ← launchSummary rows receipts expected masked
  .ok (slugErrors ++ rowErrors.flatten, summary)

/-- `validate_launch_state(…)`; an error that ends the check comes without a summary. -/
def validateLaunchState (inputs : LaunchInputs) :
    Except PyErr (List LaunchError × Option LaunchSummary) :=
  match inputs.db, inputs.receipts, inputs.seed with
  | none, _, _ => .ok ([.missingRegistryDb], none)
  | some _, none, _ => .ok ([.missingReceiptsDirectory], none)
  | some _, some _, none => .ok ([.missingSeedCatalog], none)
  | some table, some receipts, some seed => do
    let slugs ← readSlugs interp inputs seed
    match slugs with
    | .error e => .ok ([e], none)
    | .ok (expected, masked) => do
      let (errors, summary) ← checkRegistry interp inputs.allowStub table receipts expected masked
      .ok (errors, some summary)

/-! ## The sanitized copy -/

/-- `_copy_sanitized_db(…)`, as the rows that remain. -/
def copySanitizedDb (table : ScanTable) (masked : List Str) : Except PyErr (List ScanRow) :=
  let latestIds := (latestScanRows table.rows).map ScanRow.id
  if latestIds = [] then .error .valueError
  else
    let kept := table.rows.filter fun row => !row.id.notIn latestIds
    .ok (kept.filter fun row => decide (row.serverSlug ∉ masked.map SqlValue.text))

end McpTrust.Launch
