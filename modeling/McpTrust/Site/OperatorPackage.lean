import McpTrust.Effects
import McpTrust.Site.Publish
import McpTrust.Qualification.Runs
import McpTrust.Python.JsonWritable
import McpTrust.Store.Recording

/-! # The operator review package

A package is a flat directory: four files made from the inputs, and a manifest. The
verifier makes the four files again and compares their bytes; the manifest it parses
and compares by value.
-/

namespace McpTrust.OperatorPackage

set_option autoImplicit false

open Python Effects Effects.Eff
open Refresh (canonicalBytes digestBytes)
open Failure (bind_ok)
open Site (Node entryAt Build subscript isCredentialText receiptValid signed removeEntry replaceEntry)

def operatorPackageError (message : String) : PyErr := .app "OperatorPackageError" message

/-- A name as a message shows it. -/
def shown (name : Str) : String := String.ofList (name.map fun c => Char.ofNat c.val)

/-! ## Reading files -/

def maxFileBytes : Nat := 2 * 1024 * 1024

/-- `_stable_bytes(path, label)` of what is at the path. -/
def stableBytes (node : Option Node) (label : String) : Except PyErr Bytes :=
  match node with
  | some (.file content) =>
    if maxFileBytes < content.length then .error (operatorPackageError (label ++ " exceeds the size limit"))
    else .ok content
  | some .symlink | none => .error (operatorPackageError (label ++ " cannot be opened safely"))
  | some _ => .error (operatorPackageError (label ++ " must be a regular file"))

/-- The first key that stands twice. -/
def duplicateKey : List Str → Option Str
  | [] => none
  | key :: rest => if key ∈ rest then some key else duplicateKey rest

def rejectDuplicateKeys (pairs : Dict) : Except PyErr Json :=
  match duplicateKey (Dict.keys pairs) with
  | none => .ok (.obj pairs)
  | some key => .error (operatorPackageError ("duplicate JSON key is forbidden: " ++ shown key))

def manifestHooks : Hooks := { defaultHooks with objectPairs := rejectDuplicateKeys }

/-- What `_inputs` and `_expected_content` make of the inputs at one reading. -/
structure Expected where
  lineage : Dict
  evidenceAsOf : Json
  stateCard : Bytes
  resumeCapsule : Bytes
  review : Bytes
  rollback : Bytes
  evidence_listed : Dict.lookup lineage (u "evidence_as_of") = some evidenceAsOf

/-- What a verifier is given besides the package. `decode` is how `json.loads` decodes bytes. -/
structure Reading where
  interp : Interpreter
  decode : Bytes → Except PyErr Str
  taskId : Str
  expected : Except PyErr Expected

def isDecodeError (e : PyErr) : Bool :=
  decide (e = .unicodeError) || decide (e = .jsonDecodeError) || decide (e = .recursionError)

/-- `_strict_json(path, label)` of what is at the path. -/
def strictJson (reading : Reading) (node : Option Node) (label : String) : Except PyErr (Dict × Bytes) := do
  let content ← stableBytes node label
  let payload ← catching
    (do
      let text ← reading.decode content
      loads manifestHooks reading.interp.recursionLimit text)
    isDecodeError (.error (operatorPackageError (label ++ " is invalid JSON")))
  match payload with
  | .obj fields => .ok (fields, content)
  | _ => .error (operatorPackageError (label ++ " must be a JSON object"))

/-! ## Privacy -/

def forbiddenKeys : List String :=
  ["credential", "credential_value", "password", "private_key", "raw_chat", "report_ref", "secret", "token",
    "worker.hostname", "containerd.uuid"]

/-- `re.sub(r"[^a-z0-9]", "", text)`. -/
def lettersAndDigits (text : Str) : Str := text.filter fun c => isLowerAlpha c || isDigit c

def isForbiddenKey (key : Str) : Bool :=
  let lowered := lower key
  let normalized := lettersAndDigits lowered
  decide (lowered ∈ forbiddenKeys.map u) ||
    decide (normalized ∈ forbiddenKeys.map fun item => lettersAndDigits (u item)) ||
    ["token", "password", "secret", "apikey"].any fun ending => (u ending).isSuffixOf normalized

/-- `re.search(r"/(?:Users|home)/", value)`. -/
def hasHostPath (value : Str) : Bool :=
  value.tails.any fun tail => (u "/Users/").isPrefixOf tail || (u "/home/").isPrefixOf tail

/-- `(?:\.[0-9]{1,3}){n}(?![0-9])`. -/
def dottedGroups : Nat → Str → Bool
  | 0, _ => true
  | n + 1, text =>
    let run := text.tail.takeWhile isDigit
    decide (text.head? = some (ch '.')) && decide (1 ≤ run.length) && decide (run.length ≤ 3) &&
      dottedGroups n (text.tail.drop run.length)

/-- The first numbers of a private network and how many more stand behind them. -/
def privateHeads : List (String × Nat) :=
  ("10", 3) :: ("192.168", 2) ::
    (["16", "17", "18", "19", "20", "21", "22", "23", "24", "25", "26", "27", "28", "29", "30", "31"].map
      fun second => ("172." ++ second, 2))

def startsPrivate (text : Str) : Bool :=
  privateHeads.any fun head => (u head.1).isPrefixOf text && dottedGroups head.2 (text.drop (u head.1).length)

/-- The search for a private address, behind a character that is a digit or none. -/
def hasPrivateAddress (afterDigit : Bool) : Str → Bool
  | [] => false
  | c :: rest => (!afterDigit && startsPrivate (c :: rest)) || hasPrivateAddress (isDigit c) rest

def privacyText (value : Str) : Except PyErr Unit :=
  if hasHostPath value then .error (operatorPackageError "host-specific absolute path is forbidden")
  else if isCredentialText value then .error (operatorPackageError "credential-like value is forbidden")
  else if hasPrivateAddress false value then .error (operatorPackageError "private network address is forbidden")
  else .ok ()

def privacyKey (key : Str) : Except PyErr Unit :=
  if isForbiddenKey key then .error (operatorPackageError ("privacy-forbidden field: " ++ shown key)) else .ok ()

mutual
/-- `_privacy_walk(value, key=key)`. -/
def privacyWalk (key : Str) : Json → Except PyErr Unit
  | .obj fields => do
    privacyKey key
    privacyFields fields
  | .arr items => do
    privacyKey key
    privacyItems key items
  | .str value => do
    privacyKey key
    privacyText value
  | _ => privacyKey key

def privacyFields : List (Str × Json) → Except PyErr Unit
  | [] => .ok ()
  | (key, value) :: rest => do
    privacyWalk key value
    privacyFields rest

def privacyItems (key : Str) : List Json → Except PyErr Unit
  | [] => .ok ()
  | value :: rest => do
    privacyWalk key value
    privacyItems key rest
end

/-! ## The content -/

def operatorPackageSchema : String := "McpTrustOperatorReviewPackageV3"

def operatorPackageState : String := "LOCAL_REVIEW_ONLY"

def operatorPackageManifest : Str := u "OPERATOR_PACKAGE.json"

def contentFiles : List String :=
  ["state-card.json", "HumanGateResumeCapsuleV1.json", "operator-review.md", "rollback.md"]

/-- The dictionary `_expected_content` returns. -/
def Expected.files (expected : Expected) : List (Str × Bytes) :=
  [(u "state-card.json", expected.stateCard), (u "HumanGateResumeCapsuleV1.json", expected.resumeCapsule),
    (u "operator-review.md", expected.review), (u "rollback.md", expected.rollback)]

def inventoryEntry (name : Str) (content : Bytes) : Json :=
  .obj
    [(u "path", .str name), (u "bytes", .int content.length), (u "sha256", .str (digestBytes content))]

/-- One turn of the loop of `_content_inventory`. -/
def inventoryStep (entry : Str × Node) : Except PyErr (Option (Str × Json)) :=
  match entry.2 with
  | .symlink => .error (operatorPackageError ("operator package contains a symlink: " ++ shown entry.1))
  | .directory _ => .error (operatorPackageError ("operator package contains a directory: " ++ shown entry.1))
  | node =>
    if entry.1 = operatorPackageManifest then .ok none
    else do
      let content ← stableBytes (some node) ("operator package file " ++ shown entry.1)
      .ok (some (entry.1, inventoryEntry entry.1 content))

def NameLe (a b : Str × Node) : Prop := strLe a.1 b.1 = true

instance : DecidableRel NameLe := fun a b => inferInstanceAs (Decidable (strLe a.1 b.1 = true))

/-- The listed names are the four of a package. -/
def contentNames (names : List Str) : Bool :=
  names.all (fun name => decide (name ∈ contentFiles.map u)) && contentFiles.all fun name => decide (u name ∈ names)

/-- `_content_inventory(root)`. -/
def contentInventory (entries : List (Str × Node)) : Except PyErr (List Json) := do
  let found ← (entries.insertionSort NameLe).mapM inventoryStep
  if contentNames ((found.filterMap id).map Prod.fst) then .ok ((found.filterMap id).map Prod.snd)
  else .error (operatorPackageError "operator package content file set is invalid")

/-! ## The manifest -/

def manifestKeys : List String :=
  ["schema", "state", "evidence_as_of", "task_identity_digest", "lineage", "content_files", "content_digest",
    "rollback_lineage_digest", "authority", "privacy", "claim_ceiling", "receipt_digest"]

def authority : Json :=
  .obj
    [(u "publication_allowed", .bool false), (u "deployment_allowed", .bool false),
      (u "scheduler_change_allowed", .bool false), (u "third_party_execution_allowed", .bool false)]

def privacy : Json :=
  .obj
    [(u "validated", .bool true), (u "host_specific_paths_allowed", .bool false),
      (u "credential_values_allowed", .bool false), (u "raw_masked_evidence_allowed", .bool false)]

def claimCeiling : String :=
  "Local deterministic review package only; no MCP runtime proof, publication, " ++
    "deployment, rollback execution, scheduler change, or endorsement authority."

/-- The fields of the manifest, in the order of the verifier's comparisons. -/
def manifestFields (expected : Expected) (taskIdentity : Bytes) (files : List Json) (rollback : Bytes) : Dict :=
  [(u "schema", .str (u operatorPackageSchema)), (u "state", .str (u operatorPackageState)),
    (u "evidence_as_of", expected.evidenceAsOf), (u "task_identity_digest", .str (digestBytes taskIdentity)),
    (u "lineage", .obj expected.lineage), (u "content_files", .arr files),
    (u "content_digest", .str (digestBytes (canonicalBytes (.arr files)))),
    (u "rollback_lineage_digest", .str (digestBytes rollback)), (u "authority", authority),
    (u "privacy", privacy), (u "claim_ceiling", .str (u claimCeiling))]

/-- `_manifest(task_id=…, lineage=…, files=…, rollback=…)`. -/
def manifest (reading : Reading) (expected : Expected) (files : List Json) (rollback : Bytes) : Except PyErr Dict := do
  let taskIdentity ← encodeUtf8 reading.taskId
  let payload := manifestFields expected taskIdentity files rollback
  privacyWalk [] (.obj payload)
  .ok (signed payload)

/-! ## The verifier -/

structure Verdict where
  schema : Json
  state : Json
  receiptDigest : Json
  contentDigest : Json
  lineageDigest : Json
  fileCount : Nat

/-- A field of the manifest that is not as it has to be. -/
def differs (payload : Dict) (field : Str × Json) : Bool :=
  !Json.pyEq ((Dict.lookup payload field.1).getD .null) field.2

/-- The comparison of the four files. -/
def compareContent (entries : List (Str × Node)) : List (Str × Bytes) → Except PyErr Unit
  | [] => .ok ()
  | (name, content) :: rest => do
    let found ← stableBytes (entryAt entries name) ("operator package file " ++ shown name)
    if found ≠ content then
      .error (operatorPackageError ("operator package generated content changed: " ++ shown name))
    else compareContent entries rest

/-- What is checked of a parsed manifest. -/
def verifyManifest (reading : Reading) (expected : Expected) (payload : Dict) (entries : List (Str × Node)) :
    Except PyErr Verdict := do
  let files ← contentInventory entries
  let rollback ← stableBytes (entryAt entries (u "rollback.md")) "operator rollback"
  let taskIdentity ← encodeUtf8 reading.taskId
  if (manifestFields expected taskIdentity files rollback).any (differs payload) then
    .error (operatorPackageError "operator package binding changed")
  else do
    compareContent entries expected.files
    privacyWalk [] (.obj payload)
    let lineageDigest ← subscript (.obj expected.lineage) "lineage_digest"
    .ok
      { schema := Dict.get payload "schema"
        state := Dict.get payload "state"
        receiptDigest := Dict.get payload "receipt_digest"
        contentDigest := Dict.get payload "content_digest"
        lineageDigest := lineageDigest
        fileCount := files.length }

/-- `verify_operator_review_package(root, …)`. -/
def verifyOperatorReviewPackage (reading : Reading) (root : Node) : Except PyErr Verdict :=
  match root with
  | .directory entries => do
    let expected ← reading.expected
    let (payload, _) ← strictJson reading (entryAt entries operatorPackageManifest) "operator package manifest"
    if Dict.keysEq payload manifestKeys = false ∨ receiptValid payload = false then
      .error (operatorPackageError "operator package manifest receipt is invalid")
    else verifyManifest reading expected payload entries
  | _ => .error (operatorPackageError "operator package root must be a real directory")

/-! ## What an accepted package is -/

theorem stableBytes_ok {node : Option Node} {label : String} {content : Bytes}
    (h : stableBytes node label = .ok content) : node = some (.file content) := by
  unfold stableBytes at h
  split at h
  · next found =>
    split_ifs at h
    exact congrArg (fun c => some (Node.file c)) (Except.ok.inj h)
  all_goals cases h

theorem strictJson_ok {reading : Reading} {node : Option Node} {label : String} {payload : Dict} {content : Bytes}
    (h : strictJson reading node label = .ok (payload, content)) : node = some (.file content) := by
  obtain ⟨found, hfound, h⟩ := bind_ok.mp h
  obtain ⟨value, -, h⟩ := bind_ok.mp h
  cases value with
  | obj fields =>
    cases h
    exact stableBytes_ok hfound
  | _ => cases h

theorem compareContent_ok {entries : List (Str × Node)} {files : List (Str × Bytes)}
    (h : compareContent entries files = .ok ()) :
    ∀ file ∈ files, entryAt entries file.1 = some (.file file.2) := by
  induction files with
  | nil => exact fun _ hfile => absurd hfile List.not_mem_nil
  | cons file rest ih =>
    unfold compareContent at h
    obtain ⟨found, hfound, h⟩ := bind_ok.mp h
    split_ifs at h with hsame
    refine List.forall_mem_cons.mpr ⟨?_, ih h⟩
    rw [stableBytes_ok hfound, not_not.mp hsame]

theorem inventoryStep_ok {entry : Str × Node} {found : Option (Str × Json)} (h : inventoryStep entry = .ok found) :
    entry.1 = operatorPackageManifest ∧ found = none ∨
      entry.1 ≠ operatorPackageManifest ∧ ∃ content, entry.2 = .file content ∧
        found = some (entry.1, inventoryEntry entry.1 content) := by
  obtain ⟨name, node⟩ := entry
  unfold inventoryStep at h
  by_cases hname : name = operatorPackageManifest
  · refine .inl ⟨hname, ?_⟩
    cases node <;> simp only [if_pos hname] at h <;> cases h <;> rfl
  · refine .inr ⟨hname, ?_⟩
    cases node with
    | symlink => cases h
    | directory inner => cases h
    | special =>
      simp only [if_neg hname] at h
      obtain ⟨content, hcontent, -⟩ := bind_ok.mp h
      cases stableBytes_ok hcontent
    | file content =>
      simp only [if_neg hname] at h
      obtain ⟨read, hread, h⟩ := bind_ok.mp h
      cases stableBytes_ok hread
      cases h
      exact ⟨content, rfl, rfl⟩

/-- The entry of a directory with distinct names. -/
theorem entryAt_of_mem {entries : List (Str × Node)} (hdistinct : (entries.map Prod.fst).Nodup) {entry : Str × Node}
    (h : entry ∈ entries) : entryAt entries entry.1 = some entry.2 := by
  cases hfound : entryAt entries entry.1 with
  | none =>
    have hnone := Option.map_eq_none_iff.mp hfound
    exact absurd (decide_eq_true rfl) (List.find?_eq_none.mp hnone entry h)
  | some node =>
    have hmem := Site.entryAt_mem hfound
    exact congrArg (fun e => some (Prod.snd e)) (List.inj_on_of_nodup_map hdistinct hmem h rfl)

/-- The bytes of a file. -/
def fileBytes : Option Node → Bytes
  | some (.file content) => content
  | _ => []

/-- What the inventory lists, name by name. -/
structure Listed (entries : List (Str × Node)) (files : List Json) (names : List Str) : Prop where
  files : ∃ contentOf : Str → Bytes, files = names.map (fun name => inventoryEntry name (contentOf name)) ∧
    ∀ name ∈ names, entryAt entries name = some (.file (contentOf name))
  sorted : names.Pairwise fun a b => strLe a b = true
  distinct : names.Nodup
  mem : ∀ name, name ∈ names ↔ name ∈ contentFiles.map u
  others : ∀ name, name ≠ operatorPackageManifest → name ∉ names → entryAt entries name = none

theorem contentNames_iff {names : List Str} :
    contentNames names = true ↔ ∀ name, name ∈ names ↔ name ∈ contentFiles.map u := by
  unfold contentNames
  rw [Bool.and_eq_true, List.all_eq_true, List.all_eq_true]
  simp only [decide_eq_true_eq]
  constructor
  · rintro ⟨hsub, hsup⟩ name
    refine ⟨hsub name, fun hname => ?_⟩
    obtain ⟨file, hfile, rfl⟩ := List.mem_map.mp hname
    exact hsup file hfile
  · intro h
    exact ⟨fun name => (h name).mp, fun file hfile => (h (u file)).mpr (List.mem_map_of_mem hfile)⟩

/-- The entries the loop lists and what it lists of them. -/
theorem listed_entries {entries : List (Str × Node)} {found : List (Option (Str × Json))}
    (h : entries.mapM inventoryStep = .ok found) :
    (found.filterMap id).map Prod.fst = (entries.map Prod.fst).filter (fun name => decide (name ≠ operatorPackageManifest)) ∧
      ∀ listed ∈ found.filterMap id, ∃ content, (listed.1, Node.file content) ∈ entries ∧
        listed.2 = inventoryEntry listed.1 content := by
  induction entries generalizing found with
  | nil =>
    cases h
    exact ⟨rfl, fun _ hlisted => absurd hlisted List.not_mem_nil⟩
  | cons entry entries ih =>
    rw [List.mapM_cons] at h
    obtain ⟨first, hfirst, h⟩ := bind_ok.mp h
    obtain ⟨rest, hrest, h⟩ := bind_ok.mp h
    cases h
    obtain ⟨hnames, hlisted⟩ := ih hrest
    obtain ⟨hname, rfl⟩ | ⟨hname, content, hnode, rfl⟩ := inventoryStep_ok hfirst
    · have hdrop : decide (entry.1 ≠ operatorPackageManifest) = false := decide_eq_false (not_not.mpr hname)
      refine ⟨?_, fun listed hmem => ?_⟩
      · simp only [List.map_cons, List.filter_cons, hdrop, Bool.false_eq_true, if_false, List.filterMap_cons, id]
        exact hnames
      · obtain ⟨content, hcontent, hjson⟩ := hlisted listed hmem
        exact ⟨content, List.mem_cons_of_mem _ hcontent, hjson⟩
    · have hkeep : decide (entry.1 ≠ operatorPackageManifest) = true := decide_eq_true hname
      refine ⟨?_, fun listed hmem => ?_⟩
      · simp only [List.map_cons, List.filter_cons, hkeep, if_true, List.filterMap_cons, id]
        exact congrArg (entry.1 :: ·) hnames
      · simp only [List.filterMap_cons, id, List.mem_cons] at hmem
        obtain rfl | hmem := hmem
        · refine ⟨content, ?_, rfl⟩
          rw [← hnode]
          exact List.mem_cons_self
        · obtain ⟨content, hcontent, hjson⟩ := hlisted listed hmem
          exact ⟨content, List.mem_cons_of_mem _ hcontent, hjson⟩

instance : Std.Total NameLe := ⟨fun a b => strLe_total a.1 b.1⟩

instance : IsTrans (Str × Node) NameLe := ⟨fun _ _ _ => strLe_trans⟩

theorem contentInventory_listed {entries : List (Str × Node)} (hdistinct : (entries.map Prod.fst).Nodup)
    {files : List Json} (h : contentInventory entries = .ok files) : ∃ names, Listed entries files names := by
  obtain ⟨found, hfound, h⟩ := bind_ok.mp h
  split_ifs at h with hcontent
  cases h
  obtain ⟨hnames, hlisted⟩ := listed_entries hfound
  have hperm := List.perm_insertionSort NameLe entries
  have hsorted : ((entries.insertionSort NameLe).map Prod.fst).Pairwise fun a b => strLe a b = true :=
    List.pairwise_map.mpr (List.pairwise_insertionSort NameLe entries)
  have hmem := contentNames_iff.mp hcontent
  refine ⟨(found.filterMap id).map Prod.fst, ?_, ?_, ?_, hmem, ?_⟩
  · have hcontents : ∀ listed ∈ found.filterMap id, ∃ content, entryAt entries listed.1 = some (.file content) ∧
        listed.2 = inventoryEntry listed.1 content := by
      intro listed hmem
      obtain ⟨content, hentry, hjson⟩ := hlisted listed hmem
      exact ⟨content, entryAt_of_mem hdistinct (hperm.subset hentry), hjson⟩
    let contentOf : Str → Bytes := fun name => fileBytes (entryAt entries name)
    refine ⟨contentOf, ?_, ?_⟩
    · rw [List.map_map]
      refine List.map_congr_left fun listed hmem => ?_
      obtain ⟨content, hentry, hjson⟩ := hcontents listed hmem
      have hread : contentOf listed.1 = content := by
        simp only [contentOf, hentry, fileBytes]
      rw [hjson, Function.comp_apply, hread]
    · intro name hname
      obtain ⟨listed, hmem, rfl⟩ := List.mem_map.mp hname
      obtain ⟨content, hentry, -⟩ := hcontents listed hmem
      have hread : contentOf listed.1 = content := by
        simp only [contentOf, hentry, fileBytes]
      rw [hentry, hread]
  · rw [hnames]
    exact hsorted.filter _
  · rw [hnames]
    exact ((hperm.map Prod.fst).nodup_iff.mpr hdistinct).filter _
  · intro name hname hlist
    cases hfind : entryAt entries name with
    | none => rfl
    | some node =>
      have hin := List.mem_map_of_mem (f := Prod.fst) (hperm.symm.subset (Site.entryAt_mem hfind))
      rw [hnames] at hlist
      exact absurd (List.mem_filter.mpr ⟨hin, decide_eq_true hname⟩) hlist

/-- The manifest without its own digest. -/
def unsigned (payload : Dict) : Dict := payload.filter fun kv => decide (kv.1 ≠ u "receipt_digest")

theorem receiptValid_ok {payload : Dict} (h : receiptValid payload = true) :
    Dict.get payload "receipt_digest" = .str (digestBytes (canonicalBytes (.obj (unsigned payload)))) := by
  unfold receiptValid at h
  split at h
  · next claimed hclaimed =>
    rw [hclaimed, of_decide_eq_true h]
    rfl
  · cases h

/-- What the verifier found in order. -/
structure Accepted (reading : Reading) (entries : List (Str × Node)) (v : Verdict) (expected : Expected)
    (payload : Dict) (content taskIdentity : Bytes) (files : List Json) : Prop where
  inputs : reading.expected = .ok expected
  parsed : strictJson reading (entryAt entries operatorPackageManifest) "operator package manifest" =
    .ok (payload, content)
  keys : Dict.keysEq payload manifestKeys = true
  receipt : Dict.get payload "receipt_digest" = .str (digestBytes (canonicalBytes (.obj (unsigned payload))))
  task : encodeUtf8 reading.taskId = .ok taskIdentity
  inventory : contentInventory entries = .ok files
  fields : ∀ field ∈ manifestFields expected taskIdentity files expected.rollback,
    Json.pyEq ((Dict.lookup payload field.1).getD .null) field.2 = true
  content : ∀ file ∈ expected.files, entryAt entries file.1 = some (.file file.2)
  reported : v.receiptDigest = Dict.get payload "receipt_digest"

theorem accepted_of_verify {reading : Reading} {entries : List (Str × Node)} {v : Verdict}
    (h : verifyOperatorReviewPackage reading (.directory entries) = .ok v) :
    ∃ expected payload content taskIdentity files,
      Accepted reading entries v expected payload content taskIdentity files := by
  obtain ⟨expected, hexpected, h⟩ := bind_ok.mp h
  obtain ⟨⟨payload, content⟩, hparsed, h⟩ := bind_ok.mp h
  dsimp only at h
  split_ifs at h with hinvalid
  rw [not_or, Bool.not_eq_false, Bool.not_eq_false] at hinvalid
  obtain ⟨files, hfiles, h⟩ := bind_ok.mp h
  obtain ⟨rollback, hrollback, h⟩ := bind_ok.mp h
  obtain ⟨taskIdentity, htask, h⟩ := bind_ok.mp h
  split_ifs at h with hdiffers
  obtain ⟨_, hcontent, h⟩ := bind_ok.mp h
  obtain ⟨_, -, h⟩ := bind_ok.mp h
  obtain ⟨lineageDigest, -, h⟩ := bind_ok.mp h
  cases h
  have hcontent := compareContent_ok hcontent
  have hsame : rollback = expected.rollback := by
    have hfile := hcontent (u "rollback.md", expected.rollback) (by simp [Expected.files])
    rw [stableBytes_ok hrollback] at hfile
    exact Node.file.inj (Option.some.inj hfile)
  refine ⟨expected, payload, content, taskIdentity, files, hexpected, hparsed, hinvalid.1,
    receiptValid_ok hinvalid.2, htask, hfiles, fun field hfield => ?_, hcontent, rfl⟩
  rw [← hsame] at hfield
  have hequal := List.any_eq_false.mp (Bool.eq_false_of_not_eq_true hdiffers) field hfield
  rwa [differs, Bool.not_eq_true, Bool.not_eq_false'] at hequal

/-- Two packages of the same inputs. Their manifests may be spelled differently. -/
structure SamePackage (reading : Reading) (entries other : List (Str × Node)) (v w : Verdict) : Prop where
  files : ∀ name, name ≠ operatorPackageManifest → entryAt entries name = entryAt other name
  manifests : ∃ payload content payload' content',
    entryAt entries operatorPackageManifest = some (.file content) ∧
      entryAt other operatorPackageManifest = some (.file content') ∧
        strictJson reading (some (.file content)) "operator package manifest" = .ok (payload, content) ∧
          strictJson reading (some (.file content')) "operator package manifest" = .ok (payload', content') ∧
            Dict.keysEq payload manifestKeys = true ∧ Dict.keysEq payload' manifestKeys = true ∧
    (∃ fields : Dict, Dict.keys fields ++ [u "receipt_digest"] = manifestKeys.map u ∧ ∀ field ∈ fields,
      Json.pyEq ((Dict.lookup payload field.1).getD .null) field.2 = true ∧
        Json.pyEq ((Dict.lookup payload' field.1).getD .null) field.2 = true) ∧
    v.receiptDigest = .str (digestBytes (canonicalBytes (.obj (unsigned payload)))) ∧
    w.receiptDigest = .str (digestBytes (canonicalBytes (.obj (unsigned payload')))) ∧
    (canonicalBytes (.obj (unsigned payload)) = canonicalBytes (.obj (unsigned payload')) →
      v.receiptDigest = w.receiptDigest)

/-- Two inventories of the same four files are the same list. -/
theorem Listed.files_eq {entries other : List (Str × Node)} {files files' : List Json} {names names' : List Str}
    (h : Listed entries files names) (h' : Listed other files' names')
    (hsame : ∀ name ∈ contentFiles.map u, entryAt entries name = entryAt other name) : files = files' := by
  have hperm : names.Perm names' :=
    (List.perm_ext_iff_of_nodup h.distinct h'.distinct).mpr fun name => (h.mem name).trans (h'.mem name).symm
  obtain rfl : names = names' :=
    hperm.eq_of_pairwise (fun _ _ _ _ hab hba => strLe_antisymm hab hba) h.sorted h'.sorted
  obtain ⟨contentOf, rfl, hread⟩ := h.files
  obtain ⟨contentOf', rfl, hread'⟩ := h'.files
  refine List.map_congr_left fun name hname => ?_
  have hfile := hsame name ((h.mem name).mp hname)
  rw [hread name hname, hread' name hname] at hfile
  rw [Node.file.inj (Option.some.inj hfile)]

theorem samePackage_of_accepted {reading : Reading} {entries other : List (Str × Node)} {v w : Verdict}
    (hdistinct : (entries.map Prod.fst).Nodup) (hdistinct' : (other.map Prod.fst).Nodup)
    (h : verifyOperatorReviewPackage reading (.directory entries) = .ok v)
    (h' : verifyOperatorReviewPackage reading (.directory other) = .ok w) :
    SamePackage reading entries other v w := by
  obtain ⟨expected, payload, content, taskIdentity, files, ha⟩ := accepted_of_verify h
  obtain ⟨expected', payload', content', taskIdentity', files', hb⟩ := accepted_of_verify h'
  obtain rfl : expected = expected' := Except.ok.inj (ha.inputs.symm.trans hb.inputs)
  obtain rfl : taskIdentity = taskIdentity' := Except.ok.inj (ha.task.symm.trans hb.task)
  obtain ⟨names, hlisted⟩ := contentInventory_listed hdistinct ha.inventory
  obtain ⟨names', hlisted'⟩ := contentInventory_listed hdistinct' hb.inventory
  have hcontent : ∀ name ∈ contentFiles.map u, entryAt entries name = entryAt other name := by
    intro name hname
    have hfile : ∃ file ∈ expected.files, file.1 = name := by
      have hnames : contentFiles.map u = expected.files.map Prod.fst := rfl
      rw [hnames] at hname
      exact List.mem_map.mp hname
    obtain ⟨file, hfile, rfl⟩ := hfile
    rw [ha.content file hfile, hb.content file hfile]
  obtain rfl : files = files' := hlisted.files_eq hlisted' hcontent
  have hentry := strictJson_ok ha.parsed
  have hentry' := strictJson_ok hb.parsed
  constructor
  · intro name hname
    by_cases hfour : name ∈ contentFiles.map u
    · exact hcontent name hfour
    · rw [hlisted.others name hname fun hin => hfour ((hlisted.mem name).mp hin),
        hlisted'.others name hname fun hin => hfour ((hlisted'.mem name).mp hin)]
  · refine ⟨payload, content, payload', content', hentry, hentry', hentry ▸ ha.parsed, hentry' ▸ hb.parsed,
      ha.keys, hb.keys, ⟨manifestFields expected taskIdentity files expected.rollback, rfl, fun field hfield =>
        ⟨ha.fields field hfield, hb.fields field hfield⟩⟩, ha.reported.trans ha.receipt,
      hb.reported.trans hb.receipt, fun hspelled => ?_⟩
    rw [ha.reported, hb.reported, ha.receipt, hb.receipt, hspelled]

/-! ## The build -/

/-- What a build is given about its output. -/
structure Output where
  name : Str
  /-- The output is a candidate, or one of the two lies below the other. -/
  overlaps : Bool
  /-- The random end of the temporary name. -/
  suffix : Str

/-- The name that `tempfile.mkdtemp` makes of the output's. -/
def Output.temporary (output : Output) : Str := ch '.' :: output.name ++ u ".tmp-" ++ output.suffix

/-- How the calls of a build end that can fail. -/
structure Answers where
  staged : Except PyErr Unit
  renamed : Except PyErr Unit
  identified : Except PyErr Unit
  synced : Except PyErr Unit
  cleaned : Except PyErr Unit
  /-- The identity of the output in the handler is that read behind the rename. -/
  unchanged : Except PyErr Bool
  removed : Except PyErr Unit

/-- The directory of the output, and whether `finalized_identity` is set. -/
structure Progress where
  entries : List (Str × Node)
  finalized : Bool

abbrev PackageBuild := Eff Progress PyErr

def putDirectory (name : Str) (inner : List (Str × Node)) : PackageBuild Unit :=
  update fun state => { state with entries := state.entries.map fun entry =>
    if entry.1 = name then (name, .directory inner) else entry }

def verifyAt (reading : Reading) (name : Str) : PackageBuild Unit := do
  let state ← read
  let _ ← lift (verifyOperatorReviewPackage reading ((entryAt state.entries name).getD .special))
  pure ()

/-- `_rename_no_replace(temporary, output_path)`. -/
def renameNoReplace (answers : Answers) (output : Output) : PackageBuild Unit := do
  let state ← read
  if (entryAt state.entries output.name).isSome = true then
    raise (operatorPackageError "operator package output collision detected")
  else do
    lift answers.renamed
    update fun state => { state with entries := state.entries.map fun entry =>
      if entry.1 = output.temporary then (output.name, entry.2) else entry }

/-- The body of the `try` up to the rename. -/
def stage (answers : Answers) (output : Output) (first second : Reading) (expected : Expected) : PackageBuild Unit := do
  lift answers.staged
  let content := expected.files.map fun file => (file.1, Node.file file.2)
  let files ← lift (contentInventory content)
  let payload ← lift (manifest first expected files expected.rollback)
  putDirectory output.temporary (content ++ [(operatorPackageManifest, .file (canonicalBytes (.obj payload)))])
  verifyAt second output.temporary

/-- The body of the `try`. -/
def finish (answers : Answers) (output : Output) (first second third : Reading) (expected : Expected) :
    PackageBuild Unit := do
  stage answers output first second expected
  renameNoReplace answers output
  lift answers.identified
  update fun state => { state with finalized := true }
  lift answers.synced
  verifyAt third output.name

def removeNamed (name : Str) : PackageBuild Unit :=
  update fun state => { state with entries := state.entries.filter fun entry => decide (entry.1 ≠ name) }

/-- The handler where the temporary directory is still there. -/
def cleanTemporary (answers : Answers) (output : Output) : PackageBuild Unit := do
  let state ← read
  if (entryAt state.entries output.temporary).isSome = true then do
    lift answers.cleaned
    removeNamed output.temporary
  else pure ()

/-- The handler where the output has been finalized. -/
def cleanOutput (answers : Answers) (output : Output) : PackageBuild Unit := do
  let state ← read
  if state.finalized = true ∧ (entryAt state.entries output.name).isSome = true then do
    let same ← lift answers.unchanged
    if same = true then do
      lift answers.removed
      removeNamed output.name
    else raise (operatorPackageError "operator package final readback failed after ownership changed")
  else pure ()

/-- `build_operator_review_package(…)`, which reads the inputs three times. -/
def buildOperatorReviewPackage (answers : Answers) (output : Output) (first second third : Reading) :
    PackageBuild Unit := do
  let state ← read
  if (entryAt state.entries output.name).isSome = true then
    raise (operatorPackageError "operator package output must not already exist")
  else if output.overlaps = true then raise (operatorPackageError "operator package output overlaps a candidate")
  else do
    let expected ← lift first.expected
    update fun state => { state with entries := state.entries ++ [(output.temporary, .directory [])] }
    handle (finish answers output first second third expected) fun e => do
      cleanTemporary answers output
      cleanOutput answers output
      raise e

/-! ## What a build leaves -/

theorem entryAt_cons (entry : Str × Node) (rest : List (Str × Node)) (name : Str) :
    entryAt (entry :: rest) name = if entry.1 = name then some entry.2 else entryAt rest name := by
  unfold entryAt
  by_cases h : entry.1 = name <;> simp [h]

/-- An entry away from `name` stays when every entry keeps its name or moves away from it. -/
theorem entryAt_map_ne {entries : List (Str × Node)} {name old : Str} {f : Str × Node → Str × Node} (hne : name ≠ old)
    (hold : ∀ entry, entry.1 = old → (f entry).1 ≠ name) (hother : ∀ entry, entry.1 ≠ old → f entry = entry) :
    entryAt (entries.map f) name = entryAt entries name := by
  induction entries with
  | nil => rfl
  | cons entry rest ih =>
    rw [List.map_cons, entryAt_cons, entryAt_cons, ih]
    by_cases h : entry.1 = old
    · rw [if_neg (hold entry h), if_neg (fun heq => hne (heq.symm.trans h))]
    · rw [hother entry h]

/-- What stands at `new` once `old` has been moved there. -/
theorem entryAt_map_to {entries : List (Str × Node)} {old new : Str} {f : Str × Node → Node}
    (hnew : old = new ∨ entryAt entries new = none) :
    entryAt (entries.map fun entry => if entry.1 = old then (new, f entry) else entry) new =
      (entries.find? fun entry => decide (entry.1 = old)).map f := by
  induction entries with
  | nil => rfl
  | cons entry rest ih =>
    rw [List.map_cons, entryAt_cons, List.find?_cons]
    by_cases h : entry.1 = old
    · simp [h]
    · have hrest : old = new ∨ entryAt rest new = none ∧ entry.1 ≠ new := by
        refine hnew.imp id fun hnone => ?_
        rw [entryAt_cons] at hnone
        split_ifs at hnone with hentry
        exact ⟨hnone, hentry⟩
      have hentry : entry.1 ≠ new := by
        obtain rfl | hrest := hrest
        · exact h
        · exact hrest.2
      rw [if_neg h, if_neg hentry, decide_eq_false h]
      exact ih (hrest.imp id And.left)

theorem entryAt_remove (entries : List (Str × Node)) (name : Str) :
    entryAt (entries.filter fun entry => decide (entry.1 ≠ name)) name = none := by
  refine Site.entryAt_eq_none.mpr fun hmem => ?_
  obtain ⟨entry, hentry, hname⟩ := List.mem_map.mp hmem
  exact of_decide_eq_true (List.mem_filter.mp hentry).2 hname

theorem entryAt_filter_none {entries : List (Str × Node)} {name : Str} {p : Str × Node → Bool}
    (h : entryAt entries name = none) : entryAt (entries.filter p) name = none := by
  refine Site.entryAt_eq_none.mpr fun hmem => Site.entryAt_eq_none.mp h ?_
  exact (List.filter_sublist.map Prod.fst).subset hmem

theorem Output.temporary_ne (output : Output) : output.temporary ≠ output.name := by
  intro h
  have hlength := congrArg List.length h
  simp only [Output.temporary, List.length_append, List.length_cons] at hlength
  omega

/-- Before the rename. -/
structure Staging (output : Output) (state : Progress) : Prop where
  unfinished : state.finalized = false
  absent : entryAt state.entries output.name = none
  staged : ∃ inner, entryAt state.entries output.temporary = some (.directory inner) ∧ (inner.map Prod.fst).Nodup

/-- Behind the rename. -/
structure Moved (output : Output) (state : Progress) : Prop where
  gone : entryAt state.entries output.temporary = none
  moved : ∃ inner, entryAt state.entries output.name = some (.directory inner) ∧ (inner.map Prod.fst).Nodup

/-- The output is a directory that the verifier accepts. -/
def Built (reading : Reading) (output : Output) (state : Progress) : Prop :=
  ∃ inner v, entryAt state.entries output.name = some (.directory inner) ∧ (inner.map Prod.fst).Nodup ∧
    verifyOperatorReviewPackage reading (.directory inner) = .ok v

theorem putDirectory_staging (output : Output) {inner : List (Str × Node)} (hinner : (inner.map Prod.fst).Nodup) :
    Meets (Staging output) (putDirectory output.temporary inner) (fun _ => Staging output)
      fun (_ : PyErr) => Staging output := by
  refine meets_update fun state h => ⟨h.unfinished, ?_, inner, ?_, hinner⟩
  · refine (entryAt_map_ne output.temporary_ne.symm ?_ ?_).trans h.absent
    · intro entry hentry
      rw [if_pos hentry]
      exact output.temporary_ne
    · intro entry hentry
      rw [if_neg hentry]
  · obtain ⟨before, hbefore, -⟩ := h.staged
    refine (entryAt_map_to (.inl rfl)).trans ?_
    obtain ⟨entry, hfound, -⟩ := Option.map_eq_some_iff.mp hbefore
    rw [hfound]
    rfl

theorem verifyAt_meets (reading : Reading) (name : Str) (P : Progress → Prop) :
    Meets P (verifyAt reading name)
      (fun _ state => P state ∧
        ∃ v, verifyOperatorReviewPackage reading ((entryAt state.entries name).getD .special) = .ok v)
      fun _ => P := by
  refine meets_of_state fun state hstate => ?_
  refine (meets_read (Q := fun a s => a = state ∧ s = state) fun s hs => ⟨hs, hs⟩).bind fun found => ?_
  refine (meets_lift (Q := fun v s => s = state ∧
    verifyOperatorReviewPackage reading ((entryAt state.entries name).getD .special) = .ok v) ?_ ?_).bind fun v => ?_
  · rintro v s hv ⟨rfl, rfl⟩
    exact ⟨rfl, hv⟩
  · rintro e s - ⟨-, rfl⟩
    exact hstate
  · refine meets_pure ?_
    rintro s ⟨rfl, hv⟩
    exact ⟨hstate, v, hv⟩

theorem stage_staging (answers : Answers) (output : Output) (first second : Reading) (expected : Expected) :
    Meets (Staging output) (stage answers output first second expected) (fun _ => Staging output)
      fun _ => Staging output := by
  refine (meets_lift (fun _ _ _ h => h) fun _ _ _ h => h).bind fun _ => ?_
  refine (meets_lift (fun _ _ _ h => h) fun _ _ _ h => h).bind fun files => ?_
  refine (meets_lift (fun _ _ _ h => h) fun _ _ _ h => h).bind fun payload => ?_
  have hnames : ((expected.files.map fun file : Str × Bytes => (file.1, Node.file file.2)) ++
      [(operatorPackageManifest, Node.file (canonicalBytes (.obj payload)))]).map Prod.fst =
        contentFiles.map u ++ [operatorPackageManifest] := rfl
  have hdistinct : (contentFiles.map u ++ [operatorPackageManifest]).Nodup := by decide
  refine (putDirectory_staging output (hnames ▸ hdistinct)).bind fun _ => ?_
  exact (verifyAt_meets second output.temporary (Staging output)).mono (fun _ h => h) (fun _ _ h => h.1) fun _ _ h => h

theorem renameNoReplace_meets (answers : Answers) (output : Output) :
    Meets (Staging output) (renameNoReplace answers output) (fun _ => Moved output) fun _ => Staging output := by
  refine (meets_read (Q := fun _ => Staging output) fun _ h => h).bind fun found => Meets.ite (fun _ => ?_) fun _ => ?_
  · exact meets_raise fun _ h => h
  · refine (meets_lift (Q := fun _ => Staging output) (fun _ _ _ h => h) fun _ _ _ h => h).bind fun _ => ?_
    refine meets_update fun state h => ⟨?_, ?_⟩
    · refine Site.entryAt_eq_none.mpr fun hmem => ?_
      obtain ⟨moved, hmoved, hname⟩ := List.mem_map.mp hmem
      obtain ⟨entry, -, rfl⟩ := List.mem_map.mp hmoved
      split_ifs at hname with hentry
      · exact output.temporary_ne hname.symm
      · exact hentry hname
    · obtain ⟨inner, hinner, hdistinct⟩ := h.staged
      refine ⟨inner, ?_, hdistinct⟩
      exact (entryAt_map_to (f := Prod.snd) (.inr h.absent)).trans hinner

theorem finish_meets (answers : Answers) (output : Output) (first second third : Reading) (expected : Expected) :
    Meets (Staging output) (finish answers output first second third expected) (fun _ => Built third output)
      fun _ state => answers.identified = .ok () →
        Staging output state ∨ Moved output state ∧ state.finalized = true := by
  refine ((stage_staging answers output first second expected).mono (fun _ h => h) (fun _ _ h => h)
    fun _ _ h _ => .inl h).bind fun _ => ?_
  refine ((renameNoReplace_meets answers output).mono (fun _ h => h) (fun _ _ h => h)
    fun _ _ h _ => .inl h).bind fun _ => ?_
  refine (meets_lift (Q := fun _ => Moved output) (fun _ _ _ h => h) fun e _ he _ hidentified => ?_).bind fun _ => ?_
  · rw [he] at hidentified
    cases hidentified
  refine (meets_update (Q := fun _ state => Moved output state ∧ state.finalized = true) fun state h =>
    ⟨⟨h.gone, h.moved⟩, rfl⟩).bind fun _ => ?_
  refine (meets_lift (Q := fun _ state => Moved output state ∧ state.finalized = true) (fun _ _ _ h => h)
    fun _ _ _ h _ => .inr h).bind fun _ => ?_
  refine (verifyAt_meets third output.name _).mono (fun _ h => h) ?_ fun _ _ h _ => .inr h
  rintro _ state ⟨⟨hmoved, -⟩, v, hv⟩
  obtain ⟨inner, hinner, hdistinct⟩ := hmoved.moved
  rw [hinner] at hv
  exact ⟨inner, v, hinner, hdistinct, hv⟩

/-- The clean-up of the temporary directory ends without the output or with the moved one. -/
theorem cleanTemporary_meets (answers : Answers) (output : Output) :
    Meets (fun state => Staging output state ∨ Moved output state ∧ state.finalized = true) (cleanTemporary answers output)
      (fun _ state => entryAt state.entries output.name = none ∨ state.finalized = true)
      fun _ state => entryAt state.entries output.name = none := by
  refine meets_of_state fun state h => ?_
  refine (meets_read (Q := fun a s => a = state ∧ s = state) fun s hs => ⟨hs, hs⟩).bind fun found => ?_
  refine Meets.ite (fun htemporary => ?_) fun _ => meets_pure ?_
  · have habsent : found = state → entryAt state.entries output.name = none := by
      rintro rfl
      obtain hstaging | ⟨hmoved, -⟩ := h
      · exact hstaging.absent
      · rw [hmoved.gone] at htemporary
        cases htemporary
    refine (meets_lift (Q := fun _ s => found = state ∧ s = state) (fun _ _ _ hs => hs) ?_).bind fun _ => ?_
    · rintro _ s - ⟨hfound, rfl⟩
      exact habsent hfound
    · refine meets_update ?_
      rintro s ⟨hfound, rfl⟩
      exact .inl (entryAt_filter_none (habsent hfound))
  · rintro s ⟨-, rfl⟩
    exact h.imp Staging.absent And.right

theorem cleanOutput_meets {answers : Answers} (output : Output) (hunchanged : answers.unchanged = .ok true)
    (hremoved : answers.removed = .ok ()) :
    Meets (fun state => entryAt state.entries output.name = none ∨ state.finalized = true) (cleanOutput answers output)
      (fun _ state => entryAt state.entries output.name = none)
      fun _ state => entryAt state.entries output.name = none := by
  refine meets_of_state fun state h => ?_
  refine (meets_read (Q := fun a s => a = state ∧ s = state) fun s hs => ⟨hs, hs⟩).bind fun found => ?_
  refine Meets.ite (fun _ => ?_) fun hnot => meets_pure ?_
  · rw [hunchanged, hremoved]
    refine (meets_lift (Q := fun same _ => same = true) (fun same _ hsame _ => ?_) fun _ _ he => ?_).bind fun same => ?_
    · cases hsame
      rfl
    · cases he
    refine Meets.ite (fun _ => ?_) fun hsame => fun s hs => absurd hs hsame
    refine (meets_lift (Q := fun _ _ => True) (fun _ _ _ _ => trivial) fun _ _ he => ?_).bind fun _ => ?_
    · cases he
    · exact meets_update fun s _ => entryAt_remove s.entries output.name
  · rintro s ⟨rfl, rfl⟩
    cases habsent : entryAt s.entries output.name with
    | none => rfl
    | some node =>
      rw [habsent] at h hnot
      exact absurd ⟨h.resolve_left (Option.some_ne_none node), rfl⟩ hnot

/-- A program of which only the exceptions are bounded, and those by nothing. -/
theorem meets_of_raised {α : Type} {P : Progress → Prop} {x : PackageBuild α} {E : PyErr → Progress → Prop}
    (h : ∀ e state, E e state) : Meets P x (fun _ _ => True) E := by
  intro state _
  rcases x state with ⟨e | _, last⟩
  · exact h e last
  · trivial

theorem build_meets (answers : Answers) (output : Output) (first second third : Reading) {start : List (Str × Node)}
    (htemporary : output.temporary ∉ start.map Prod.fst) :
    Meets (fun state => state = ⟨start, false⟩) (buildOperatorReviewPackage answers output first second third)
      (fun _ => Built third output)
      fun _ state => answers.identified = .ok () → answers.unchanged = .ok true → answers.removed = .ok () →
        entryAt state.entries output.name = entryAt start output.name := by
  refine (meets_read (Q := fun (a s : Progress) => a = ⟨start, false⟩ ∧ s = ⟨start, false⟩) fun s hs => ⟨hs, hs⟩).bind
    fun found => ?_
  refine Meets.ite (fun _ => ?_) fun hfree => Meets.ite (fun _ => ?_) fun _ => ?_
  · refine meets_raise ?_
    rintro _ ⟨-, rfl⟩ - - -
    rfl
  · refine meets_raise ?_
    rintro _ ⟨-, rfl⟩ - - -
    rfl
  refine (meets_lift (Q := fun _ s => s = ⟨start, false⟩ ∧ entryAt start output.name = none) ?_ ?_).bind fun expected => ?_
  · rintro _ s - ⟨rfl, rfl⟩
    exact ⟨rfl, Option.not_isSome_iff_eq_none.mp hfree⟩
  · rintro _ s - ⟨-, rfl⟩ - - -
    rfl
  refine meets_of_fact (P := fun s : Progress => s = ⟨start, false⟩) fun habsent => ?_
  refine (meets_update (Q := fun _ => Staging output) ?_).bind fun _ => ?_
  · rintro s rfl
    refine ⟨rfl, ?_, [], Site.entryAt_append htemporary _, List.nodup_nil⟩
    refine Site.entryAt_eq_none.mpr fun hmem => ?_
    rw [List.map_append, List.mem_append, List.map_cons, List.map_nil, List.mem_singleton] at hmem
    exact hmem.elim (Site.entryAt_eq_none.mp habsent) output.temporary_ne.symm
  refine (finish_meets answers output first second third expected).handle fun e => ?_
  rw [habsent]
  by_cases hanswers : answers.identified = .ok () ∧ answers.unchanged = .ok true ∧ answers.removed = .ok ()
  · obtain ⟨hidentified, hunchanged, hremoved⟩ := hanswers
    refine ((cleanTemporary_meets answers output).mono (fun _ h => h hidentified) (fun _ _ h => h)
      fun _ _ h _ _ _ => h).bind fun _ => ?_
    refine ((cleanOutput_meets output hunchanged hremoved).mono (fun _ h => h) (fun _ _ h => h)
      fun _ _ h _ _ _ => h).bind fun _ => ?_
    exact meets_raise fun _ h _ _ _ => h
  · refine (meets_of_raised fun _ _ => ?_).bind fun _ => (meets_of_raised fun _ _ => ?_).bind fun _ => meets_raise ?_
    · exact fun hidentified hunchanged hremoved => absurd ⟨hidentified, hunchanged, hremoved⟩ hanswers
    · exact fun hidentified hunchanged hremoved => absurd ⟨hidentified, hunchanged, hremoved⟩ hanswers
    · exact fun _ _ hidentified hunchanged hremoved => absurd ⟨hidentified, hunchanged, hremoved⟩ hanswers

theorem bind_unit_ok {x y : Except PyErr Unit} : (do x; y) = .ok () ↔ x = .ok () ∧ y = .ok () := by
  refine bind_ok.trans ⟨?_, fun h => ⟨(), h⟩⟩
  rintro ⟨_, h⟩
  exact h

theorem privacyFields_ok {fields : Dict} :
    privacyFields fields = .ok () ↔ ∀ kv ∈ fields, privacyWalk kv.1 kv.2 = .ok () := by
  induction fields with
  | nil => simp [privacyFields]
  | cons kv rest ih =>
    obtain ⟨key, value⟩ := kv
    rw [privacyFields, List.forall_mem_cons, ← ih]
    exact bind_unit_ok

theorem privacyItems_ok {key : Str} {items : List Json} :
    privacyItems key items = .ok () ↔ ∀ v ∈ items, privacyWalk key v = .ok () := by
  induction items with
  | nil => simp [privacyItems]
  | cons v rest ih =>
    rw [privacyItems, List.forall_mem_cons, ← ih]
    exact bind_unit_ok

theorem privacyWalk_obj {key : Str} {fields : Dict} : privacyWalk key (.obj fields) = .ok () ↔
    privacyKey key = .ok () ∧ ∀ kv ∈ fields, privacyWalk kv.1 kv.2 = .ok () := by
  rw [privacyWalk, ← privacyFields_ok]
  exact bind_unit_ok

theorem privacyWalk_arr {key : Str} {items : List Json} : privacyWalk key (.arr items) = .ok () ↔
    privacyKey key = .ok () ∧ ∀ v ∈ items, privacyWalk key v = .ok () := by
  rw [privacyWalk, ← privacyItems_ok]
  exact bind_unit_ok

theorem privacyWalk_sortKeys (v : Json) (key : Str) :
    privacyWalk key v.sortKeys = .ok () ↔ privacyWalk key v = .ok () := by
  induction v using Json.induct generalizing key with
  | arr items ih =>
    rw [Json.sortKeys, Json.sortItems_eq, privacyWalk_arr, privacyWalk_arr, List.forall_mem_map]
    exact and_congr_right fun _ => forall₂_congr fun v hv => ih v hv key
  | obj fields ih =>
    rw [Json.sortKeys, privacyWalk_obj, privacyWalk_obj, Json.sortFields_eq]
    refine and_congr_right fun _ => ?_
    have hperm := List.perm_insertionSort KeyLe (fields.map fun kv => (kv.1, kv.2.sortKeys))
    constructor
    · intro h kv hkv
      exact (ih kv hkv kv.1).mp (h _ (hperm.symm.subset (List.mem_map_of_mem hkv)))
    · intro h kv hkv
      obtain ⟨member, hmember, rfl⟩ := List.mem_map.mp (hperm.subset hkv)
      exact (ih member hmember member.1).mpr (h member hmember)
  | _ => rfl

/-- The characters of a digest. -/
def isBland (c : CodePoint) : Bool := isHexLower c || decide (c.val = 58) || decide (c.val = 104) || decide (c.val = 115)

theorem isBland_iff {c : CodePoint} : isBland c = true ↔
    48 ≤ c.val ∧ c.val ≤ 57 ∨ 97 ≤ c.val ∧ c.val ≤ 102 ∨ c.val = 58 ∨ c.val = 104 ∨ c.val = 115 := by
  simp only [isBland, isHexLower, isDigit, Bool.or_eq_true, Bool.and_eq_true, decide_eq_true_eq]
  omega

theorem bland_digestBytes (content : Bytes) : ∀ c ∈ digestBytes content, isBland c = true := by
  have hall : (u "sha256:").all isBland = true := by decide
  intro c hc
  rw [digestBytes, List.mem_append] at hc
  obtain hc | hc := hc
  · exact List.all_eq_true.mp hall c hc
  · rw [isBland, sha256Hex_isHexLower content c hc]
    rfl

theorem foldPoint_bland {c : CodePoint} (h : isBland c = true) : Site.foldPoint c = c := by
  have hcode := isBland_iff.mp h
  have hlower : lowerPoint c = c := by
    have hupper : isUpperAlpha c = false := by
      simp only [isUpperAlpha, Bool.and_eq_false_iff, decide_eq_false_iff_not]
      omega
    rw [lowerPoint, hupper, if_neg Bool.false_ne_true, if_neg (by omega)]
  rw [Site.foldPoint, if_neg (by omega), if_neg (by omega), hlower]

/-- No word a value may not hold is made of such characters. -/
theorem privacyText_bland {value : Str} (h : ∀ c ∈ value, isBland c = true) : privacyText value = .ok () := by
  have hin : ∀ tail ∈ value.tails, ∀ c ∈ tail, isBland c = true := fun tail htail c hc =>
    h c ((List.mem_tails tail value).mp htail |>.subset hc)
  have hoff : [ch '/', ch '.', ch 'r', ch 't'].all (fun c => !isBland c) = true := by decide
  have houtside : ∀ c ∈ [ch '/', ch '.', ch 'r', ch 't'], ¬isBland c = true := fun c hc =>
    Bool.not_eq_true _ ▸ (Bool.not_eq_true' _).mp (List.all_eq_true.mp hoff c hc)
  have hhost : hasHostPath value = false := by
    refine List.any_eq_false.mpr fun tail htail hpath => ?_
    rw [Bool.or_eq_true, List.isPrefixOf_iff_prefix, List.isPrefixOf_iff_prefix] at hpath
    have hslash : ch '/' ∈ tail := hpath.elim (fun hp => hp.subset (by decide)) fun hp => hp.subset (by decide)
    exact houtside _ (by decide) (hin tail htail _ hslash)
  have hcredential : isCredentialText value = false := by
    refine List.any_eq_false.mpr fun tail htail hword => ?_
    obtain ⟨word, hword, hpath⟩ := List.any_eq_true.mp hword
    have hpre := List.isPrefixOf_iff_prefix.mp (Bool.and_eq_true_iff.mp hpath).1
    have hletter : ∀ word ∈ ["token", "secret", "password", "credential"], ch 'r' ∈ u word ∨ ch 't' ∈ u word := by decide
    have hfolded : tail.map Site.foldPoint = tail :=
      (List.map_congr_left fun c hc => foldPoint_bland (hin tail htail c hc)).trans (List.map_id' tail)
    rw [hfolded] at hpre
    obtain hr | ht := hletter word hword
    · exact houtside _ (by decide) (hin tail htail _ (hpre.subset hr))
    · exact houtside _ (by decide) (hin tail htail _ (hpre.subset ht))
  have haddress : ∀ after, hasPrivateAddress after value = false := by
    clear hhost hcredential hin
    induction value with
    | nil => exact fun _ => rfl
    | cons c rest ih =>
      intro after
      have hstart : startsPrivate (c :: rest) = false := by
        refine List.any_eq_false.mpr fun head hhead hpath => ?_
        obtain ⟨hpre, hgroups⟩ := Bool.and_eq_true_iff.mp hpath
        have hpositive : ∀ head ∈ privateHeads, head.2 ≠ 0 := by decide
        obtain ⟨n, hn⟩ := Nat.exists_eq_succ_of_ne_zero (hpositive head hhead)
        rw [hn, dottedGroups] at hgroups
        simp only [Bool.and_eq_true, decide_eq_true_eq] at hgroups
        have hdot := List.mem_of_mem_drop (List.mem_of_mem_head? hgroups.1.1.1)
        exact houtside _ (by decide) (h _ hdot)
      rw [hasPrivateAddress, hstart, Bool.and_false, Bool.false_or]
      exact ih (fun d hd => h d (List.mem_cons_of_mem _ hd)) _
  rw [privacyText, hhost, if_neg Bool.false_ne_true, hcredential, if_neg Bool.false_ne_true, haddress,
    if_neg Bool.false_ne_true]

theorem privacyWalk_digest {key : Str} (hkey : privacyKey key = .ok ()) (content : Bytes) :
    privacyWalk key (.str (digestBytes content)) = .ok () := by
  rw [privacyWalk]
  exact bind_ok.mpr ⟨(), hkey, privacyText_bland (bland_digestBytes content)⟩

/-! ## A manifest as it may be spelled -/

/-- The text a build writes, other blanks behind it. -/
def spelled (fields : Dict) (space : Str) : Bytes := (dumps Refresh.asciiStyle (.obj fields) ++ space).flatMap encodeCodePoint

theorem duplicateKey_nodup {names : List Str} (h : names.Nodup) : duplicateKey names = none := by
  induction names with
  | nil => rfl
  | cons name rest ih =>
    obtain ⟨hname, hrest⟩ := List.nodup_cons.mp h
    rw [duplicateKey, if_neg hname]
    exact ih hrest

theorem admits_manifestHooks {depth : Nat} {v : Json} (h : Writable depth v) (hints : Printable v) (st : Style) :
    Admits manifestHooks st v := by
  intro w hw
  have hnode := admits_of_writable h hints st w hw
  cases w with
  | obj fields =>
    change rejectDuplicateKeys fields = .ok (.obj fields)
    rw [rejectDuplicateKeys, duplicateKey_nodup (h.unique fields hw)]
  | _ => exact hnode

theorem strictJson_spelled {reading : Reading} (hdecode : reading.decode = decodeUtf8) {fields : Dict}
    (h : Writable 64 (.obj fields)) (hints : Printable (.obj fields)) {space : Str}
    (hspace : ∀ c ∈ space, isSpace c = true) (hascii : Ascii space)
    (hsize : (spelled fields space).length ≤ maxFileBytes) (label : String) :
    strictJson reading (some (.file (spelled fields space))) label =
      .ok (arrangeFields Refresh.asciiStyle fields, spelled fields space) := by
  have hread : stableBytes (some (.file (spelled fields space))) label = .ok (spelled fields space) :=
    if_neg (Nat.not_lt.mpr hsize)
  have htext : reading.decode (spelled fields space) = .ok (dumps Refresh.asciiStyle (.obj fields) ++ space) := by
    rw [hdecode]
    exact Refresh.decodeUtf8_ascii ((Refresh.ascii_dumps rfl _).append hascii)
  have hsorted : Writable 64 (Refresh.asciiStyle.arrange (.obj fields)) := h.sortKeys
  have hprintable : Printable (Refresh.asciiStyle.arrange (.obj fields)) := fun n hn =>
    hints n (Receipt.mem_walk_sortKeys hn (Receipt.int_not_container n).1 (Receipt.int_not_container n).2)
  have hload := loads_dumps (admits_manifestHooks hsorted hprintable Refresh.asciiStyle)
    (hsorted.shallow.trans reading.interp.deep) hspace
  rw [arrange_obj] at hload
  have hparsed : (do
      let text ← reading.decode (spelled fields space)
      loads manifestHooks reading.interp.recursionLimit text) =
        .ok (.obj (arrangeFields Refresh.asciiStyle fields)) := bind_ok.mpr ⟨_, htext, hload⟩
  refine bind_ok.mpr ⟨_, hread, bind_ok.mpr ⟨.obj (arrangeFields Refresh.asciiStyle fields), ?_, rfl⟩⟩
  rw [hparsed]
  rfl

theorem receiptValid_spelled {fields : Dict} (hunique : (Json.obj (signed fields)).UniqueKeys) :
    receiptValid (arrangeFields Refresh.asciiStyle (signed fields)) = true := by
  have hnodup : (Dict.keys (signed fields)).Nodup := (Json.uniqueKeys_obj.mp hunique).1
  have hmem : (u "receipt_digest", Json.str (digestBytes (canonicalBytes (.obj fields)))) ∈ signed fields :=
    List.mem_append_right _ List.mem_cons_self
  have hget : Dict.get (arrangeFields Refresh.asciiStyle (signed fields)) "receipt_digest" =
      .str (digestBytes (canonicalBytes (.obj fields))) := by
    rw [get_arrangeFields _ hnodup, Dict.get, Dict.lookup_of_mem hnodup hmem]
    rfl
  have hkept : (signed fields).filter (fun kv => decide (kv.1 ≠ u "receipt_digest")) = fields := by
    have hfresh : ∀ kv ∈ fields, decide (kv.1 ≠ u "receipt_digest") = true := by
      intro kv hkv
      rw [signed, Dict.keys, List.map_append] at hnodup
      exact decide_eq_true fun hname =>
        List.disjoint_of_nodup_append hnodup (List.mem_map_of_mem hkv) (hname ▸ List.mem_cons_self)
    rw [signed, List.filter_append, List.filter_eq_self.mpr hfresh]
    exact List.append_nil fields
  have hsorted := sortKeys_filter_arrange Refresh.asciiStyle hunique fun key => decide (key ≠ u "receipt_digest")
  have harrange (v : Json) : Refresh.asciiStyle.arrange v = v.sortKeys := rfl
  unfold receiptValid
  rw [hget]
  refine decide_eq_true ?_
  rw [canonicalBytes, canonicalBytes, dumps, dumps, harrange, harrange, hsorted, hkept]

/-- A field of the manifest is read back as it was. -/
theorem same_spelled {fields : Dict} (h : Writable 64 (.obj fields)) {field : Str × Json} (hfield : field ∈ fields)
    (hname : field.1 ∈ manifestKeys.map u) : differs (arrangeFields Refresh.asciiStyle fields) field = false := by
  obtain ⟨hnodup, hmembers⟩ := Json.uniqueKeys_obj.mp h.unique
  obtain ⟨name, -, hname⟩ := List.mem_map.mp hname
  have hget : Dict.get fields name = field.2 := by
    rw [Dict.get, hname, Dict.lookup_of_mem hnodup hfield]
    rfl
  have hread := get_arrangeFields Refresh.asciiStyle hnodup name
  rw [hget] at hread
  have hequal := pyEq_arrange Refresh.asciiStyle (hmembers field hfield) fun x hx =>
    h.floats x (List.mem_cons_of_mem _ (Json.mem_walkFields.mpr ⟨field, hfield, .inr hx⟩))
  rw [differs, Bool.not_eq_false', ← hname]
  rw [← hread] at hequal
  exact hequal

theorem printable_obj {fields : Dict} (h : ∀ kv ∈ fields, Printable kv.2) : Printable (.obj fields) := by
  intro n hn
  rw [Json.walk, List.mem_cons, Json.mem_walkFields] at hn
  obtain hn | ⟨kv, hkv, hn | hn⟩ := hn
  · cases hn
  · cases hn
  · exact h kv hkv n hn

theorem printable_arr {items : List Json} (h : ∀ v ∈ items, Printable v) : Printable (.arr items) := by
  intro n hn
  rw [Json.walk, List.mem_cons, Json.mem_walkItems] at hn
  obtain hn | ⟨v, hv, hn⟩ := hn
  · cases hn
  · exact h v hv n hn

theorem printable_str (s : Str) : Printable (.str s) := by
  intro n hn
  cases List.mem_singleton.mp hn

theorem printable_bool (b : Bool) : Printable (.bool b) := by
  intro n hn
  cases List.mem_singleton.mp hn

/-! ## Two spellings of one manifest -/

def smallExpected : Expected where
  lineage := [(u "evidence_as_of", .str (u "2026-01-01T00:00:00+00:00")), (u "lineage_digest", .str (u "l"))]
  evidenceAsOf := .str (u "2026-01-01T00:00:00+00:00")
  stateCard := [1]
  resumeCapsule := [2]
  review := [3]
  rollback := [4]
  evidence_listed := rfl

def smallReading : Reading where
  interp := ⟨1000, initialLimit_deep⟩
  decode := decodeUtf8
  taskId := u "task"
  expected := .ok smallExpected

def smallContent : List (Str × Node) := smallExpected.files.map fun file => (file.1, .file file.2)

def smallFiles : List Json :=
  [inventoryEntry (u "HumanGateResumeCapsuleV1.json") [2], inventoryEntry (u "operator-review.md") [3],
    inventoryEntry (u "rollback.md") [4], inventoryEntry (u "state-card.json") [1]]

def smallFields : Dict := manifestFields smallExpected [116, 97, 115, 107] smallFiles smallExpected.rollback

/-- The manifest a build writes over the four files. -/
def smallManifest : Bytes := canonicalBytes (.obj (signed smallFields))

def smallEntries (manifestContent : Bytes) : List (Str × Node) :=
  smallContent ++ [(operatorPackageManifest, .file manifestContent)]

theorem smallEntries_nodup (manifestContent : Bytes) : ((smallEntries manifestContent).map Prod.fst).Nodup := by
  have hnames : (smallEntries manifestContent).map Prod.fst = contentFiles.map u ++ [operatorPackageManifest] := rfl
  have hdistinct : (contentFiles.map u ++ [operatorPackageManifest]).Nodup := by decide
  exact hnames ▸ hdistinct

theorem smallFiles_listed (manifestContent : Bytes) :
    contentInventory (smallEntries manifestContent) = .ok smallFiles := by
  rfl

theorem smallContent_compared (manifestContent : Bytes) :
    compareContent (smallEntries manifestContent) smallExpected.files = .ok () := by
  rfl

theorem writable_inventoryEntry {name : String} (content : Bytes) (depth : Nat) :
    Writable (depth + 1) (inventoryEntry (u name) content) := by
  have hnames : ["path", "bytes", "sha256"].Nodup := by decide
  have hdigest := chain_of_ascii (Qualification.ascii_digestBytes content)
  apply @writable_named [("path", .str (u name)), ("bytes", .int content.length), ("sha256", .str (digestBytes content))]
    depth hnames
  simp only [List.forall_mem_cons, List.not_mem_nil, false_imp_iff, implies_true, and_true]
  exact ⟨writable_str (chain_u _) _, writable_int _ _, writable_str hdigest _⟩

theorem writable_digest (content : Bytes) (depth : Nat) : Writable depth (.str (digestBytes content)) :=
  writable_str (chain_of_ascii (Qualification.ascii_digestBytes content)) depth

theorem smallFields_writable : Writable 64 (.obj (signed smallFields)) := by
  have hkeys : manifestKeys.Nodup := by decide
  have hlineage : Writable 63 (.obj smallExpected.lineage) := by
    apply @writable_named [("evidence_as_of", .str (u "2026-01-01T00:00:00+00:00")), ("lineage_digest", .str (u "l"))]
      62 (by decide)
    simp only [List.forall_mem_cons, List.not_mem_nil, false_imp_iff, implies_true, and_true]
    exact ⟨writable_str (chain_u _) _, writable_str (chain_u _) _⟩
  have hfiles : Writable 63 (.arr smallFiles) := by
    apply writable_arr
    simp only [smallFiles, List.forall_mem_cons, List.not_mem_nil, false_imp_iff, implies_true, and_true]
    exact ⟨writable_inventoryEntry _ _, writable_inventoryEntry _ _, writable_inventoryEntry _ _,
      writable_inventoryEntry _ _⟩
  have hauthority : Writable 63 authority := by
    apply @writable_named [("publication_allowed", .bool false), ("deployment_allowed", .bool false),
      ("scheduler_change_allowed", .bool false), ("third_party_execution_allowed", .bool false)] 62 (by decide)
    simp only [List.forall_mem_cons, List.not_mem_nil, false_imp_iff, implies_true, and_true]
    exact ⟨writable_bool _ _, writable_bool _ _, writable_bool _ _, writable_bool _ _⟩
  have hprivacy : Writable 63 privacy := by
    apply @writable_named [("validated", .bool true), ("host_specific_paths_allowed", .bool false),
      ("credential_values_allowed", .bool false), ("raw_masked_evidence_allowed", .bool false)] 62 (by decide)
    simp only [List.forall_mem_cons, List.not_mem_nil, false_imp_iff, implies_true, and_true]
    exact ⟨writable_bool _ _, writable_bool _ _, writable_bool _ _, writable_bool _ _⟩
  have hnames : Dict.keys (signed smallFields) = manifestKeys.map u := rfl
  have hdistinct : (Dict.keys (signed smallFields)).Nodup := hnames ▸ hkeys.map fun _ _ hsame => u_inj.mp hsame
  apply writable_obj hdistinct
  simp only [signed, smallFields, manifestFields, List.cons_append, List.nil_append, List.forall_mem_cons,
    List.not_mem_nil, false_imp_iff, implies_true, and_true]
  exact ⟨⟨chain_u _, writable_str (chain_u _) _⟩, ⟨chain_u _, writable_str (chain_u _) _⟩,
    ⟨chain_u _, writable_str (chain_u _) _⟩, ⟨chain_u _, writable_digest _ _⟩, ⟨chain_u _, hlineage⟩,
    ⟨chain_u _, hfiles⟩, ⟨chain_u _, writable_digest _ _⟩, ⟨chain_u _, writable_digest _ _⟩,
    ⟨chain_u _, hauthority⟩, ⟨chain_u _, hprivacy⟩, ⟨chain_u _, writable_str (chain_u _) _⟩,
    ⟨chain_u _, writable_digest _ _⟩⟩

theorem printable_one : Printable (.int ((1 : ℕ) : ℤ)) := by
  intro n hn
  cases List.mem_singleton.mp hn
  decide

theorem smallFields_printable : Printable (.obj (signed smallFields)) := by
  have hentry (name : Str) (content : Bytes) (hone : content.length = 1) : Printable (inventoryEntry name content) := by
    apply printable_obj
    simp only [List.forall_mem_cons, List.not_mem_nil, false_imp_iff, implies_true, and_true, hone]
    exact ⟨printable_str _, printable_one, printable_str _⟩
  have hfiles : Printable (.arr smallFiles) := by
    apply printable_arr
    simp only [smallFiles, List.forall_mem_cons, List.not_mem_nil, false_imp_iff, implies_true, and_true]
    exact ⟨hentry _ _ rfl, hentry _ _ rfl, hentry _ _ rfl, hentry _ _ rfl⟩
  apply printable_obj
  simp only [signed, smallFields, manifestFields, List.cons_append, List.nil_append, List.forall_mem_cons,
    List.not_mem_nil, false_imp_iff, implies_true, and_true]
  refine ⟨printable_str _, printable_str _, printable_str _, printable_str _, printable_obj ?_, hfiles, printable_str _,
    printable_str _, printable_obj ?_, printable_obj ?_, printable_str _, printable_str _⟩
  · simp only [smallExpected, List.forall_mem_cons, List.not_mem_nil, false_imp_iff, implies_true, and_true]
    exact ⟨printable_str _, printable_str _⟩
  · simp only [List.forall_mem_cons, List.not_mem_nil, false_imp_iff, implies_true, and_true]
    exact ⟨printable_bool _, printable_bool _, printable_bool _, printable_bool _⟩
  · simp only [List.forall_mem_cons, List.not_mem_nil, false_imp_iff, implies_true, and_true]
    exact ⟨printable_bool _, printable_bool _, printable_bool _, printable_bool _⟩

theorem smallSize : (spelled (signed smallFields) [ch '\n', ch '\n']).length ≤ maxFileBytes := by decide +kernel

theorem smallEntry_walked (name : Str) (content : Bytes)
    (hname : privacyWalk (u "path") (.str name) = .ok ()) :
    privacyWalk (u "content_files") (inventoryEntry name content) = .ok () := by
  have hkey : privacyKey (u "content_files") = .ok () := by decide +kernel
  have hbytes : privacyKey (u "bytes") = .ok () := by decide +kernel
  have hsha : privacyKey (u "sha256") = .ok () := by decide +kernel
  refine privacyWalk_obj.mpr ⟨hkey, ?_⟩
  simp only [List.forall_mem_cons, List.not_mem_nil, false_imp_iff, implies_true, and_true]
  exact ⟨hname, hbytes, privacyWalk_digest hsha content⟩

theorem smallFields_walked : ∀ kv ∈ signed smallFields, privacyWalk kv.1 kv.2 = .ok () := by
  have hfiles : privacyWalk (u "content_files") (.arr smallFiles) = .ok () := by
    have hkey : privacyKey (u "content_files") = .ok () := by decide +kernel
    refine privacyWalk_arr.mpr ⟨hkey, ?_⟩
    simp only [smallFiles, List.forall_mem_cons, List.not_mem_nil, false_imp_iff, implies_true, and_true]
    exact ⟨smallEntry_walked _ _ (by decide +kernel), smallEntry_walked _ _ (by decide +kernel),
      smallEntry_walked _ _ (by decide +kernel), smallEntry_walked _ _ (by decide +kernel)⟩
  simp only [signed, smallFields, manifestFields, List.cons_append, List.nil_append, List.forall_mem_cons,
    List.not_mem_nil, false_imp_iff, implies_true, and_true]
  refine ⟨?_, ?_, ?_, privacyWalk_digest ?_ _, ?_, hfiles, privacyWalk_digest ?_ _, privacyWalk_digest ?_ _, ?_, ?_, ?_,
    privacyWalk_digest ?_ _⟩
  all_goals decide +kernel

/-- What the verifier reports of the small package. -/
def smallVerdict : Verdict :=
  let payload := arrangeFields Refresh.asciiStyle (signed smallFields)
  { schema := Dict.get payload "schema"
    state := Dict.get payload "state"
    receiptDigest := Dict.get payload "receipt_digest"
    contentDigest := Dict.get payload "content_digest"
    lineageDigest := .str (u "l")
    fileCount := 4 }

/-- Blanks behind the manifest do not change what the verifier reads. -/
theorem smallEntries_accepted {space : Str} (hspace : ∀ c ∈ space, isSpace c = true) (hascii : Ascii space)
    (hsize : (spelled (signed smallFields) space).length ≤ maxFileBytes) :
    verifyOperatorReviewPackage smallReading (.directory (smallEntries (spelled (signed smallFields) space))) =
      .ok smallVerdict := by
  have hwritable := smallFields_writable
  have hdecode : smallReading.decode = decodeUtf8 := rfl
  have hread := strictJson_spelled hdecode hwritable smallFields_printable hspace hascii hsize
    "operator package manifest"
  have hvalid := receiptValid_spelled hwritable.unique
  have hkeys : Dict.keysEq (arrangeFields Refresh.asciiStyle (signed smallFields)) manifestKeys = true := by
    rw [keysEq_arrangeFields]
    decide +kernel
  have hsame : smallFields.any (differs (arrangeFields Refresh.asciiStyle (signed smallFields))) = false := by
    refine List.any_eq_false.mpr fun field hfield => Bool.eq_false_iff.mp ?_
    have hname : field.1 ∈ (manifestKeys.map u).dropLast := List.mem_map_of_mem (f := Prod.fst) hfield
    exact same_spelled hwritable (List.mem_append_left _ hfield) (List.mem_of_mem_dropLast hname)
  have hprivacy : privacyWalk [] (.obj (arrangeFields Refresh.asciiStyle (signed smallFields))) = .ok () := by
    rw [← arrange_obj]
    exact (privacyWalk_sortKeys _ _).mpr (privacyWalk_obj.mpr ⟨rfl, smallFields_walked⟩)
  have hchecked : ¬(Dict.keysEq (arrangeFields Refresh.asciiStyle (signed smallFields)) manifestKeys = false ∨
      receiptValid (arrangeFields Refresh.asciiStyle (signed smallFields)) = false) := by
    rw [hkeys, hvalid]
    decide
  have hverified : verifyManifest smallReading smallExpected (arrangeFields Refresh.asciiStyle (signed smallFields))
      (smallEntries (spelled (signed smallFields) space)) = .ok smallVerdict := by
    refine bind_ok.mpr ⟨smallFiles, smallFiles_listed _, bind_ok.mpr ⟨[4], rfl, ?_⟩⟩
    refine bind_ok.mpr ⟨[116, 97, 115, 107], rfl, (if_neg (ne_true_of_eq_false hsame)).trans ?_⟩
    refine bind_ok.mpr ⟨(), smallContent_compared _, bind_ok.mpr ⟨(), hprivacy, ?_⟩⟩
    exact bind_ok.mpr ⟨.str (u "l"), rfl, rfl⟩
  exact bind_ok.mpr ⟨smallExpected, rfl, bind_ok.mpr ⟨_, hread, (if_neg hchecked).trans hverified⟩⟩

theorem smallManifest_newline : spelled (signed smallFields) [ch '\n', ch '\n'] = smallManifest ++ [10] := by
  have hline : [10] = [ch '\n'].flatMap encodeCodePoint := by decide
  rw [smallManifest, canonicalBytes, hline, ← List.flatMap_append, List.append_assoc]
  rfl

theorem smallManifest_eq : smallManifest = spelled (signed smallFields) [ch '\n'] := rfl

theorem smallPackage_accepted :
    verifyOperatorReviewPackage smallReading (.directory (smallEntries smallManifest)) = .ok smallVerdict := by
  have hsize : smallManifest.length ≤ maxFileBytes := by
    have hlonger := smallSize
    rw [smallManifest_newline, List.length_append] at hlonger
    exact (Nat.le_add_right _ _).trans hlonger
  have hspace : [ch '\n'].all isSpace = true := by decide
  have hascii : Ascii [ch '\n'] := by
    intro c hc
    rw [List.mem_singleton.mp hc]
    decide
  rw [smallManifest_eq] at hsize ⊢
  exact smallEntries_accepted (List.all_eq_true.mp hspace) hascii hsize

theorem smallRespelled_accepted :
    verifyOperatorReviewPackage smallReading (.directory (smallEntries (smallManifest ++ [10]))) = .ok smallVerdict := by
  have hspace : [ch '\n', ch '\n'].all isSpace = true := by decide
  have hascii : Ascii [ch '\n', ch '\n'] := by
    intro c hc
    rw [List.eq_of_mem_replicate (show c ∈ List.replicate 2 (ch '\n') from hc)]
    decide
  rw [← smallManifest_newline]
  exact smallEntries_accepted (List.all_eq_true.mp hspace) hascii smallSize

def smallOutput : Output where
  name := u "package"
  overlaps := false
  suffix := u "x"

def smallAnswers : Answers where
  staged := .error .osError
  renamed := .ok ()
  identified := .ok ()
  synced := .ok ()
  cleaned := .ok ()
  unchanged := .ok true
  removed := .ok ()

/-- Reading the identity of the output fails behind the rename. -/
def unidentifiedAnswers : Answers := { smallAnswers with staged := .ok (), identified := .error .osError }

theorem bind_returns {α β : Type} {x : PackageBuild α} {f : α → PackageBuild β} {state next : Progress} {a : α}
    (h : x state = (.ok a, next)) : (x >>= f) state = f a next := by
  change Eff.bind x f state = _
  rw [Eff.bind, h]

theorem lift_returns {α : Type} {x : Except PyErr α} {a : α} (h : x = .ok a) (state : Progress) :
    (lift x : PackageBuild α) state = (.ok a, state) := by
  rw [h]
  rfl

theorem putDirectory_returns (name : Str) (inner : List (Str × Node)) (finalized : Bool) :
    putDirectory name inner ⟨[(name, .directory [])], finalized⟩ = (.ok (), ⟨[(name, .directory inner)], finalized⟩) := by
  have hput : ([(name, Node.directory [])].map fun entry => if entry.1 = name then (name, .directory inner) else entry) =
      [(name, .directory inner)] := by simp
  change (Except.ok (), (⟨List.map _ _, finalized⟩ : Progress)) = _
  rw [hput]

theorem verifyAt_returns {reading : Reading} {name : Str} {state : Progress} {node : Node} {v : Verdict}
    (hentry : entryAt state.entries name = some node) (h : verifyOperatorReviewPackage reading node = .ok v) :
    verifyAt reading name state = (.ok (), state) := by
  have hverify : verifyOperatorReviewPackage reading ((entryAt state.entries name).getD .special) = .ok v := by
    rw [hentry]
    exact h
  exact (bind_returns rfl).trans ((bind_returns (lift_returns hverify _)).trans rfl)

theorem entryAt_single (name : Str) (node : Node) : entryAt [(name, node)] name = some node := by
  rw [entryAt_cons, if_pos rfl]

theorem smallStage : stage unidentifiedAnswers smallOutput smallReading smallReading smallExpected
    ⟨[(smallOutput.temporary, .directory [])], false⟩ =
      (.ok (), ⟨[(smallOutput.temporary, .directory (smallEntries smallManifest))], false⟩) := by
  have hfiles : contentInventory smallContent = .ok smallFiles := rfl
  have hmanifest : manifest smallReading smallExpected smallFiles smallExpected.rollback = .ok (signed smallFields) := by
    have hwalked : privacyWalk [] (.obj smallFields) = .ok () := privacyWalk_obj.mpr
      ⟨rfl, fun kv hkv => smallFields_walked kv (List.mem_append_left _ hkv)⟩
    exact bind_ok.mpr ⟨[116, 97, 115, 107], rfl, bind_ok.mpr ⟨(), hwalked, rfl⟩⟩
  refine (bind_returns (lift_returns rfl _)).trans ?_
  refine (bind_returns (lift_returns hfiles _)).trans ?_
  refine (bind_returns (lift_returns hmanifest _)).trans ?_
  refine (bind_returns (putDirectory_returns _ _ _)).trans ?_
  exact verifyAt_returns (entryAt_single _ _) smallPackage_accepted

theorem handle_raises {x : PackageBuild Unit} {handler : PyErr → PackageBuild Unit} {state next : Progress} {e : PyErr}
    (h : x state = (.error e, next)) : handle x handler state = handler e next := by
  rw [handle, h]

/-- A rename whose identity cannot be read ends the build with its output in place. -/
theorem finish_unidentified {answers : Answers} {output : Output} {first second third : Reading} {expected : Expected}
    {inner : List (Str × Node)} {e : PyErr} {state : Progress} (hrenamed : answers.renamed = .ok ())
    (hidentified : answers.identified = .error e) (hstage : stage answers output first second expected state =
      (.ok (), ⟨[(output.temporary, .directory inner)], false⟩)) :
    finish answers output first second third expected state =
      (.error e, ⟨[(output.name, .directory inner)], false⟩) := by
  have hfree : ¬(entryAt [(output.temporary, Node.directory inner)] output.name).isSome = true := by
    rw [entryAt_cons, if_neg output.temporary_ne]
    exact Bool.false_ne_true
  have hmoved : ([(output.temporary, Node.directory inner)].map fun entry =>
      if entry.1 = output.temporary then (output.name, entry.2) else entry) = [(output.name, .directory inner)] := by
    simp
  have hrename : renameNoReplace answers output ⟨[(output.temporary, .directory inner)], false⟩ =
      (.ok (), ⟨[(output.name, .directory inner)], false⟩) := by
    refine (bind_returns rfl).trans ?_
    rw [if_neg hfree]
    refine (bind_returns (lift_returns hrenamed _)).trans ?_
    change (Except.ok (), (⟨List.map _ _, false⟩ : Progress)) = _
    rw [hmoved]
  refine (bind_returns hstage).trans ((bind_returns hrename).trans ?_)
  rw [hidentified]
  rfl

theorem build_unidentified {answers : Answers} {output : Output} {first second third : Reading} {expected : Expected}
    {inner : List (Str × Node)} {e : PyErr} (hexpected : first.expected = .ok expected)
    (hoverlaps : output.overlaps = false) (hrenamed : answers.renamed = .ok ())
    (hidentified : answers.identified = .error e)
    (hstage : stage answers output first second expected ⟨[(output.temporary, .directory [])], false⟩ =
      (.ok (), ⟨[(output.temporary, .directory inner)], false⟩)) :
    buildOperatorReviewPackage answers output first second third ⟨[], false⟩ =
      (.error e, ⟨[(output.name, .directory inner)], false⟩) := by
  have hfinish := @finish_unidentified answers output first second third expected inner e _ hrenamed hidentified hstage
  have hgone : ¬(entryAt [(output.name, Node.directory inner)] output.temporary).isSome = true := by
    rw [entryAt_cons, if_neg output.temporary_ne.symm]
    exact Bool.false_ne_true
  have hclean : cleanTemporary answers output ⟨[(output.name, .directory inner)], false⟩ =
      (.ok (), ⟨[(output.name, .directory inner)], false⟩) := by
    refine (bind_returns rfl).trans ?_
    rw [if_neg hgone]
    rfl
  have hkept : cleanOutput answers output ⟨[(output.name, .directory inner)], false⟩ =
      (.ok (), ⟨[(output.name, .directory inner)], false⟩) := by
    refine (bind_returns rfl).trans ?_
    rw [if_neg fun h => Bool.false_ne_true h.1]
    rfl
  have hfree : ¬(entryAt [] output.name).isSome = true := Bool.false_ne_true
  have hnew : ¬output.overlaps = true := by
    rw [hoverlaps]
    exact Bool.false_ne_true
  refine (bind_returns rfl).trans ?_
  rw [if_neg hfree, if_neg hnew]
  refine (bind_returns (lift_returns hexpected _)).trans ((bind_returns rfl).trans ((handle_raises hfinish).trans ?_))
  exact (bind_returns hclean).trans ((bind_returns hkept).trans rfl)

end McpTrust.OperatorPackage
