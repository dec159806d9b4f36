import McpTrust.Python.JsonLoads
import McpTrust.Failure
import McpTrust.Refresh.Inputs
import McpTrust.Refresh.FileRoundtrip

/-! # The publication package

A package is a directory with a manifest and a copy of the approved candidate. The
verifier reads the manifest and the candidate directory that it names; it does not
look at what else the package holds.
-/

namespace McpTrust.Site

set_option autoImplicit false

open Python
open Refresh (canonicalBytes digestBytes)
open Failure (bind_ok)

def publicationError (message : String) : PyErr := .app "PublicationAdmissionError" message

/-! ## Directory trees -/

inductive Node
  | file (content : Bytes)
  | symlink
  | special
  | directory (entries : List (Str × Node))

mutual
/-- The paths below a node with what is there, as `rglob` finds them; links are not followed. -/
def below : Node → List (List Str × Node)
  | .directory entries => belowEntries entries
  | _ => []

def belowEntries : List (Str × Node) → List (List Str × Node)
  | [] => []
  | (name, node) :: rest =>
    ([name], node) :: (below node).map (fun found => (name :: found.1, found.2)) ++ belowEntries rest
end

def entryAt (entries : List (Str × Node)) (name : Str) : Option Node :=
  (entries.find? fun entry => decide (entry.1 = name)).map Prod.snd

/-- The names of a directory are distinct, and none is empty, a path or a dot entry. -/
structure WellFormed (entries : List (Str × Node)) : Prop where
  distinct : (entries.map Prod.fst).Nodup
  names : ∀ entry ∈ entries, IsPart entry.1

theorem mem_belowEntries {entries : List (Str × Node)} {path : List Str} {node : Node} :
    (path, node) ∈ belowEntries entries ↔ ∃ entry ∈ entries, (path = [entry.1] ∧ node = entry.2) ∨
      ∃ rest, path = entry.1 :: rest ∧ (rest, node) ∈ below entry.2 := by
  induction entries with
  | nil => simp [belowEntries]
  | cons entry entries ih =>
    rw [belowEntries, List.mem_append, List.mem_cons, ih, List.exists_mem_cons_iff, Prod.mk.injEq, List.mem_map]
    refine or_congr_left (or_congr_right ?_)
    constructor
    · rintro ⟨found, hfound, hpath⟩
      obtain ⟨rfl, rfl⟩ := Prod.mk.inj hpath
      exact ⟨found.1, rfl, hfound⟩
    · rintro ⟨rest, rfl, hrest⟩
      exact ⟨(rest, node), hrest, rfl⟩

theorem entryAt_mem {entries : List (Str × Node)} {name : Str} {node : Node} (h : entryAt entries name = some node) :
    (name, node) ∈ entries := by
  obtain ⟨entry, hfind, rfl⟩ := Option.map_eq_some_iff.mp h
  have hname := List.find?_some hfind
  obtain rfl : entry.1 = name := of_decide_eq_true hname
  exact List.mem_of_find?_eq_some hfind

/-- Distinct names lead to one node. -/
theorem WellFormed.node_eq {entries : List (Str × Node)} (h : WellFormed entries) {name : Str} {node other : Node}
    (hnode : (name, node) ∈ entries) (hother : (name, other) ∈ entries) : node = other :=
  congrArg Prod.snd (List.inj_on_of_nodup_map h.distinct hnode hother rfl)

/-! ## Reading files -/

/-- `_stable_bytes(path, label)` of what is at the path. -/
def stableBytes (node : Option Node) (label : String) : Except PyErr Bytes :=
  match node with
  | some (.file content) => .ok content
  | some .symlink => .error (publicationError (label ++ " must not be a symlink"))
  | some _ => .error (publicationError (label ++ " must be a regular file"))
  | none => .error (publicationError (label ++ " cannot be opened safely"))

def rejectDuplicateKeys (pairs : Dict) : Except PyErr Json :=
  if (Dict.keys pairs).Nodup then .ok (.obj pairs) else .error (publicationError "duplicate JSON key is forbidden")

def packageHooks : Hooks := { defaultHooks with objectPairs := rejectDuplicateKeys }

/-- What the verifier is given besides the package. `decode` is how `json.loads` decodes bytes, and `check` is
`verify_publication_approval` of the approval file at one instant, as a function of the candidate directory. -/
structure Admission (Approval : Type) where
  interp : Interpreter
  decode : Bytes → Except PyErr Str
  approvalContent : Bytes
  check : List (Str × Node) → Except PyErr Approval

/-- What `verify_publication_approval` returns, as far as a package is compared with it. -/
structure Approval where
  issuedAt : Json
  receiptDigest : Json
  candidateReceiptDigest : Json
  candidateContentDigest : Json
  providerRevalidationReceiptDigest : Json

variable (env : Admission Approval)

def isDecodeError (e : PyErr) : Bool := decide (e = .unicodeError) || decide (e = .jsonDecodeError)

/-- `_stable_json(path, label)` of what is at the path. -/
def stableJson (node : Option Node) (label : String) : Except PyErr Dict := do
  let content ← stableBytes node label
  let payload ← catching (do let text ← env.decode content; loads packageHooks env.interp.recursionLimit text)
    isDecodeError (.error (publicationError (label ++ " is invalid JSON")))
  match payload with
  | .obj fields => .ok fields
  | _ => .error (publicationError (label ++ " must be a JSON object"))

theorem stableJson_file {env : Admission Approval} {node : Option Node} {label : String} {payload : Dict}
    (h : stableJson env node label = .ok payload) : ∃ content, node = some (.file content) := by
  obtain ⟨content, hcontent, -⟩ := bind_ok.mp h
  cases node with
  | none => cases hcontent
  | some node =>
    cases node with
    | file content => exact ⟨content, rfl⟩
    | _ => cases hcontent

/-- The candidate has to be a real directory before it is looked into. -/
def verifyPublicationApproval (candidate : Option Node) : Except PyErr Approval :=
  match candidate with
  | some (.directory entries) => env.check entries
  | _ => .error (.app "SiteCandidateError" "site candidate root must be a real directory")

/-! ## The files of the candidate -/

def fileEntry (path : List Str) (content : Bytes) : Json :=
  .obj [(u "path", .str (posix path)), (u "bytes", .int content.length), (u "sha256", .str (digestBytes content))]

/-- One turn of the loop of `_candidate_files`. -/
def candidateFile (found : List Str × Node) : Except PyErr (Option Json) :=
  match found.2 with
  | .symlink => .error (publicationError "candidate contains a symlink")
  | .directory _ => .ok none
  | node => do
    let content ← stableBytes (some node) "candidate file"
    .ok (some (fileEntry found.1 content))

/-- `_candidate_files(root)`. -/
def candidateFiles (root : Option Node) : Except PyErr (List Json) := do
  let paths := ((root.map below).getD []).insertionSort fun p q => strLe (posix p.1) (posix q.1) = true
  let files ← paths.mapM candidateFile
  if files.reduceOption = [] then .error (publicationError "candidate contains no files") else .ok files.reduceOption

def filesDigest (files : List Json) : Str := digestBytes (canonicalBytes (.arr files))

/-- The files that were read are in the list, and no link is below the directory. -/
theorem candidateFiles_spec {root : Node} {files : List Json} (h : candidateFiles (some root) = .ok files) :
    (∀ path content, (path, Node.file content) ∈ below root → fileEntry path content ∈ files) ∧
      ∀ path, (path, Node.symlink) ∉ below root := by
  obtain ⟨read, hread, h⟩ := bind_ok.mp h
  split at h
  · cases h
  cases h
  have hsorted : ∀ found, found ∈ below root → ∃ result ∈ read, candidateFile found = .ok result := by
    intro found hfound
    have hmem := (List.mem_insertionSort fun p q : List Str × Node => strLe (posix p.1) (posix q.1) = true).mpr hfound
    obtain ⟨result, hresult⟩ := exists_mapM_ok.mp ⟨read, hread⟩ found hmem
    exact ⟨result, (mapM_ok_mem hread).mpr ⟨found, hmem, hresult⟩, hresult⟩
  constructor
  · intro path content hmem
    obtain ⟨result, hresult, hfile⟩ := hsorted _ hmem
    cases hfile
    exact List.reduceOption_mem_iff.mpr hresult
  · intro path hmem
    obtain ⟨result, -, hlink⟩ := hsorted _ hmem
    cases hlink

/-! ## The privacy check -/

def forbiddenPrivacyKeys : List String :=
  ["credential", "credential_value", "token", "secret", "raw_chat", "masked_grade", "masked_risk", "masked_findings",
    "report_ref"]

/-- A character as `(?i)` compares it with a lower case ASCII letter. -/
def foldPoint (c : CodePoint) : CodePoint :=
  if c.val = 0x17F then ch 's' else if c.val = 0x130 ∨ c.val = 0x131 then ch 'i' else lowerPoint c

/-- `re.search(r"(?i)(?:token|secret|password|credential)\s*[:=]", value)`. -/
def isCredentialText (value : Str) : Bool :=
  value.tails.any fun tail => ["token", "secret", "password", "credential"].any fun word =>
    (u word).isPrefixOf (tail.map foldPoint) &&
      ((tail.drop (u word).length).dropWhile isWhite).head?.any fun c => decide (c ∈ u ":=")

def privacyText (value : Str) : Except PyErr Unit :=
  if (u "/Users/").isPrefixOf value || (u "/home/").isPrefixOf value then
    .error (publicationError "host-specific absolute path is forbidden")
  else if isCredentialText value then .error (publicationError "credential-like value is forbidden")
  else .ok ()

mutual
/-- `_privacy_walk(value, key=key)`. -/
def privacyWalk (key : Str) : Json → Except PyErr Unit
  | .obj fields =>
    if lower key ∈ forbiddenPrivacyKeys.map u then .error (publicationError "privacy-forbidden field")
    else privacyFields fields
  | .arr items =>
    if lower key ∈ forbiddenPrivacyKeys.map u then .error (publicationError "privacy-forbidden field")
    else privacyItems key items
  | .str value =>
    if lower key ∈ forbiddenPrivacyKeys.map u then .error (publicationError "privacy-forbidden field")
    else privacyText value
  | _ => if lower key ∈ forbiddenPrivacyKeys.map u then .error (publicationError "privacy-forbidden field") else .ok ()

def privacyFields : List (Str × Json) → Except PyErr Unit
  | [] => .ok ()
  | (key, value) :: rest => do
    privacyWalk key value
    privacyFields rest

def privacyItems (key : Str) : List Json → Except PyErr Unit
  | [] => .ok ()
  | value :: rest => do
    privacyWalk key value
    privacyItems key rest
end

/-! ## The verifier -/

def publicationPackageManifest : Str := u "PUBLICATION_PACKAGE.json"

def packageKeys : List String :=
  ["schema", "state", "created_at", "candidate_path_name", "candidate_manifest_sha256", "candidate_receipt_digest",
    "candidate_content_digest", "publication_approval_sha256", "publication_approval_receipt_digest",
    "provider_revalidation_receipt_digest", "content_files", "content_digest", "authority", "claim_ceiling",
    "receipt_digest"]

def packageAuthority : Json :=
  .obj
    [(u "public_mutation_allowed", .bool false), (u "deployment_allowed", .bool false),
      (u "rollback_execution_allowed", .bool false), (u "scheduler_activation_allowed", .bool false)]

/-- `_receipt_valid(payload)`. -/
def receiptValid (payload : Dict) : Bool :=
  match Dict.get payload "receipt_digest" with
  | .str claimed =>
    decide (claimed = digestBytes (canonicalBytes (.obj (payload.filter fun kv => decide (kv.1 ≠ u "receipt_digest")))))
  | _ => false

/-- `Path(text).name`. -/
def pathName (text : Str) : Str :=
  ((text.splitOn (ch '/')).filter fun part => decide (part ≠ [] ∧ part ≠ u ".")).getLast?.getD []

/-- The name of the candidate directory, once the manifest is checked. -/
def candidatePathName (package : Dict) : Except PyErr Str := do
  if Dict.keysEq package packageKeys = false then .error (publicationError "publication package fields are invalid")
  else if (Dict.get package "schema").isStr "McpTrustPublicationPackageV1" = false ∨
      (Dict.get package "state").isStr "PUBLICATION_PACKAGE_READY_FOR_DEPLOY_REVIEW" = false ∨
      Json.pyEq (Dict.get package "authority") packageAuthority = false ∨ receiptValid package = false then
    .error (publicationError "publication package receipt or authority is invalid")
  else
    match Dict.get package "candidate_path_name" with
    | .str name =>
      if name = [] ∨ pathName name ≠ name then
        .error (publicationError "publication package candidate name is invalid")
      else .ok name
    | _ => .error (publicationError "publication package candidate name is invalid")

/-- What is at `root / name`; the name may be the parent's. -/
def candidateRoot (parent : Node) (entries : List (Str × Node)) (name : Str) : Option Node :=
  if name = u ".." then some parent else entryAt entries name

/-- `value[key]`. -/
def subscript (value : Json) (key : String) : Except PyErr Json :=
  match value with
  | .obj fields =>
    match Dict.lookup fields (u key) with
    | some value => .ok value
    | none => .error .keyError
  | _ => .error .typeError

structure PackageVerdict where
  schema : Json
  state : Json
  receiptDigest : Json
  contentDigest : Json
  fileCount : Nat

/-- The checks of the manifest against the candidate that it names. -/
def verifyContent (package : Dict) (candidate : Option Node) : Except PyErr PackageVerdict := do
  let approval ← verifyPublicationApproval env candidate
  let payload ← stableJson env (some (.file env.approvalContent)) "publication approval"
  let files ← candidateFiles candidate
  if Json.pyEq (Dict.get package "content_files") (.arr files) = false ∨
      Json.pyEq (Dict.get package "content_digest") (.str (filesDigest files)) = false then
    .error (publicationError "publication package content changed")
  else
    let manifestSha256 ← (subscript (.obj payload) "candidate").bind fun candidate => subscript candidate "manifest_sha256"
    if Json.pyEq (Dict.get package "created_at") approval.issuedAt = false ∨
        Json.pyEq (Dict.get package "candidate_manifest_sha256") manifestSha256 = false ∨
        Json.pyEq (Dict.get package "candidate_receipt_digest") approval.candidateReceiptDigest = false ∨
        Json.pyEq (Dict.get package "candidate_content_digest") approval.candidateContentDigest = false ∨
        Json.pyEq (Dict.get package "publication_approval_sha256") (.str (digestBytes env.approvalContent)) = false ∨
        Json.pyEq (Dict.get package "publication_approval_receipt_digest") approval.receiptDigest = false ∨
        Json.pyEq (Dict.get package "provider_revalidation_receipt_digest")
          approval.providerRevalidationReceiptDigest = false then
      .error (publicationError "publication package lineage changed")
    else do
      privacyWalk [] (.obj package)
      .ok
        { schema := Dict.get package "schema", state := Dict.get package "state",
          receiptDigest := Dict.get package "receipt_digest", contentDigest := Dict.get package "content_digest",
          fileCount := files.length }

/-- `verify_publication_package(root, …)`, with the directory that holds the root. -/
def verifyPublicationPackage (parent root : Node) : Except PyErr PackageVerdict :=
  match root with
  | .directory entries => do
    let package ← stableJson env (entryAt entries publicationPackageManifest) "publication package"
    let name ← candidatePathName package
    verifyContent env package (candidateRoot parent entries name)
  | _ => .error (publicationError "publication package root must be a real directory")

/-! ## What an accepted package is -/

/-- The manifest lists the file with its size and digest. -/
def Listed (package : Dict) (path : List Str) (content : Bytes) : Prop :=
  ∃ items, Dict.get package "content_files" = .arr items ∧
    ∃ item ∈ items, Json.pyEq item (fileEntry path content) = true

/-- Nothing but the manifest and the candidate it lists is in the package or counts for it. -/
structure ClosedWorld (parent : Node) (entries : List (Str × Node)) (package : Dict) (name : Str) : Prop where
  inside : ∃ candidate, (name, Node.directory candidate) ∈ entries
  listed : ∀ path content, (path, Node.file content) ∈ belowEntries entries →
    path = [publicationPackageManifest] ∨ ∃ rest, path = name :: rest ∧ Listed package rest content
  unlinked : ∀ path, (path, Node.symlink) ∈ belowEntries entries → path.head? ≠ some name
  sealed : ∀ parent' entries', entryAt entries' publicationPackageManifest = entryAt entries publicationPackageManifest →
    entryAt entries' name = entryAt entries name →
      verifyPublicationPackage env parent' (.directory entries') = verifyPublicationPackage env parent (.directory entries)

/-- Every file of the package is the manifest or below the named directory, which is none of its parents. -/
structure HoldsOnly (entries : List (Str × Node)) (name : Str) : Prop where
  notParent : name ≠ u ".."
  files : ∀ path content, (path, Node.file content) ∈ belowEntries entries →
    path.head? = some publicationPackageManifest ∨ path.head? = some name

theorem exists_pyEq_of_mem {xs ys : List Json} (h : Json.pyEqItems xs ys = true) {y : Json} (hy : y ∈ ys) :
    ∃ x ∈ xs, Json.pyEq x y = true := by
  induction xs generalizing ys with
  | nil =>
    cases ys with
    | nil => cases hy
    | cons y' ys => cases h
  | cons x xs ih =>
    cases ys with
    | nil => cases hy
    | cons y' ys =>
      rw [Json.pyEqItems, Bool.and_eq_true] at h
      obtain rfl | hrest := List.mem_cons.mp hy
      · exact ⟨x, List.mem_cons_self, h.1⟩
      · obtain ⟨x', hx', heq⟩ := ih h.2 hrest
        exact ⟨x', List.mem_cons_of_mem _ hx', heq⟩

/-- A list is equal to a list only. -/
theorem exists_items_of_pyEq {value : Json} {items : List Json} (h : Json.pyEq value (.arr items) = true) :
    ∃ listed, value = .arr listed ∧ Json.pyEqItems listed items = true := by
  cases value with
  | arr listed => exact ⟨listed, rfl, by rwa [Json.pyEq] at h⟩
  | _ => simp [Json.pyEq, Json.sameNumber, Json.number] at h

/-- An accepted content is a real directory without links whose files are listed. -/
theorem verifyContent_spec {env : Admission Approval} {package : Dict} {candidate : Option Node} {v : PackageVerdict}
    (h : verifyContent env package candidate = .ok v) :
    ∃ inner, candidate = some (.directory inner) ∧
      (∀ path content, (path, Node.file content) ∈ belowEntries inner → Listed package path content) ∧
        ∀ path, (path, Node.symlink) ∉ belowEntries inner := by
  obtain ⟨approval, happroval, h⟩ := bind_ok.mp h
  obtain ⟨payload, -, h⟩ := bind_ok.mp h
  obtain ⟨files, hfiles, h⟩ := bind_ok.mp h
  split at h
  · cases h
  · next hcontent =>
    obtain ⟨inner, rfl⟩ : ∃ inner, candidate = some (.directory inner) := by
      cases candidate with
      | none => cases happroval
      | some node =>
        cases node with
        | directory inner => exact ⟨inner, rfl⟩
        | _ => cases happroval
    obtain ⟨hread, hlinks⟩ := candidateFiles_spec hfiles
    have hequal := Bool.of_not_eq_false fun hdiffers => hcontent (.inl hdiffers)
    obtain ⟨listed, hlisted, hitems⟩ := exists_items_of_pyEq hequal
    refine ⟨inner, rfl, ?_, hlinks⟩
    intro path content hmem
    exact ⟨listed, hlisted, exists_pyEq_of_mem hitems (hread path content hmem)⟩

/-- An accepted package is closed exactly when it holds nothing beside the manifest and the candidate. -/
theorem accepted_closed_iff (env : Admission Approval) (parent : Node) (entries : List (Str × Node))
    (hentries : WellFormed entries) (package : Dict)
    (hpackage : stableJson env (entryAt entries publicationPackageManifest) "publication package" = .ok package)
    (name : Str) (hname : candidatePathName package = .ok name) (v : PackageVerdict)
    (h : verifyPublicationPackage env parent (.directory entries) = .ok v) :
    ClosedWorld env parent entries package name ↔ HoldsOnly entries name := by
  constructor
  · intro hclosed
    constructor
    · obtain ⟨candidate, hcandidate⟩ := hclosed.inside
      exact (hentries.names _ hcandidate).parent
    · intro path content hmem
      obtain rfl | ⟨rest, rfl, -⟩ := hclosed.listed path content hmem
      · exact .inl rfl
      · exact .inr rfl
  · intro honly
    have hsteps : ∀ parent' entries', entryAt entries' publicationPackageManifest =
        entryAt entries publicationPackageManifest → entryAt entries' name = entryAt entries name →
          verifyPublicationPackage env parent' (.directory entries') =
            verifyContent env package (entryAt entries name) := by
      intro parent' entries' hmanifest hcandidate
      rw [verifyPublicationPackage, hmanifest, hpackage]
      change (candidatePathName package >>= _) = _
      rw [hname]
      change verifyContent env package (candidateRoot parent' entries' name) = _
      rw [candidateRoot, if_neg honly.notParent, hcandidate]
    have haccepted := (hsteps parent entries rfl rfl).symm.trans h
    obtain ⟨inner, hinner, hlisted, hlinks⟩ := verifyContent_spec haccepted
    have hdirectory := entryAt_mem hinner
    -- below the candidate's name is the candidate
    have hbelow : ∀ path node, (path, node) ∈ belowEntries entries → path.head? = some name →
        (∀ children, node ≠ .directory children) → ∃ rest, path = name :: rest ∧ (rest, node) ∈ belowEntries inner := by
      intro path node hmem hhead hleaf
      obtain ⟨entry, hentry, hpath⟩ := mem_belowEntries.mp hmem
      obtain ⟨rfl, rfl⟩ | ⟨rest, rfl, hrest⟩ := hpath
      · cases hhead
        exact absurd (hentries.node_eq hentry hdirectory) (hleaf inner)
      · cases hhead
        rw [hentries.node_eq hentry hdirectory] at hrest
        exact ⟨rest, rfl, by rwa [below] at hrest⟩
    exact
      { inside := ⟨inner, hdirectory⟩
        listed := by
          intro path content hmem
          obtain hmanifest | hcandidate := honly.files path content hmem
          · obtain ⟨text, htext⟩ := stableJson_file hpackage
            obtain ⟨entry, hentry, hpath⟩ := mem_belowEntries.mp hmem
            obtain ⟨rfl, -⟩ | ⟨rest, rfl, hrest⟩ := hpath
            · exact .inl (congrArg (fun part => [part]) (Option.some.inj hmanifest))
            · have hfile := entryAt_mem htext
              rw [← Option.some.inj hmanifest] at hfile
              rw [hentries.node_eq hentry hfile] at hrest
              simp [below] at hrest
          · obtain ⟨rest, rfl, hrest⟩ := hbelow path _ hmem hcandidate nofun
            exact .inr ⟨rest, rfl, hlisted rest content hrest⟩
        unlinked := by
          intro path hmem hhead
          obtain ⟨rest, rfl, hrest⟩ := hbelow path _ hmem hhead nofun
          exact hlinks rest hrest
        sealed := by
          intro parent' entries' hmanifest hcandidate
          rw [hsteps parent' entries' hmanifest hcandidate, hsteps parent entries rfl rfl] }

/-! ## A file beside the candidate -/

def sampleFile : Node := .file (u "hello" |>.flatMap encodeCodePoint)

def sampleCandidate : List (Str × Node) := [(u "index.html", sampleFile)]

def sampleApproval : Approval where
  issuedAt := .str (u "2026-01-01T00:00:00+00:00")
  receiptDigest := .str (u "r")
  candidateReceiptDigest := .str (u "c")
  candidateContentDigest := .str (u "d")
  providerRevalidationReceiptDigest := .str (u "p")

def sampleApprovalContent : Bytes :=
  canonicalBytes (.obj [(u "candidate", .obj [(u "manifest_sha256", .str (u "m"))])])

/-- The approval of the sample candidate. -/
def sampleAdmission : Admission Approval where
  interp := ⟨1000, initialLimit_deep⟩
  decode := decodeUtf8
  approvalContent := sampleApprovalContent
  check := fun inner =>
    if inner.map Prod.fst = sampleCandidate.map Prod.fst then .ok sampleApproval
    else .error (publicationError "publication approval candidate binding changed")

def sampleUnsigned : Dict :=
  [(u "schema", .str (u "McpTrustPublicationPackageV1")),
    (u "state", .str (u "PUBLICATION_PACKAGE_READY_FOR_DEPLOY_REVIEW")), (u "created_at", sampleApproval.issuedAt),
    (u "candidate_path_name", .str (u "site")), (u "candidate_manifest_sha256", .str (u "m")),
    (u "candidate_receipt_digest", sampleApproval.candidateReceiptDigest),
    (u "candidate_content_digest", sampleApproval.candidateContentDigest),
    (u "publication_approval_sha256", .str (digestBytes sampleApprovalContent)),
    (u "publication_approval_receipt_digest", sampleApproval.receiptDigest),
    (u "provider_revalidation_receipt_digest", sampleApproval.providerRevalidationReceiptDigest),
    (u "content_files", .arr [fileEntry [u "index.html"] (u "hello" |>.flatMap encodeCodePoint)]),
    (u "content_digest", .str (filesDigest [fileEntry [u "index.html"] (u "hello" |>.flatMap encodeCodePoint)])),
    (u "authority", packageAuthority), (u "claim_ceiling", .str (u "Local copy-only publication package"))]

def sampleManifest : Node :=
  .file (canonicalBytes (.obj
    (sampleUnsigned ++ [(u "receipt_digest", .str (digestBytes (canonicalBytes (.obj sampleUnsigned))))])))

/-- A package with a file beside the manifest and the candidate. -/
def strayPackage : List (Str × Node) :=
  [(publicationPackageManifest, sampleManifest), (u "site", .directory sampleCandidate), (u "NOTES.txt", sampleFile)]

theorem strayPackage_accepted :
    (verifyPublicationPackage sampleAdmission .special (.directory strayPackage)).toOption.isSome = true := by
  decide +kernel

theorem strayPackage_wellFormed : WellFormed strayPackage := by
  refine ⟨by decide, fun entry hentry => ?_⟩
  have hname : ∀ name ∈ strayPackage.map Prod.fst, IsPart name := by
    intro name hname
    fin_cases hname <;> decide
  exact hname entry.1 (List.mem_map_of_mem hentry)

/-- An accepted package has a manifest and a name. -/
theorem accepted_steps {env : Admission Approval} {parent : Node} {entries : List (Str × Node)}
    (h : (verifyPublicationPackage env parent (.directory entries)).toOption.isSome = true) :
    ∃ package name v, stableJson env (entryAt entries publicationPackageManifest) "publication package" = .ok package ∧
      candidatePathName package = .ok name ∧ verifyPublicationPackage env parent (.directory entries) = .ok v := by
  obtain ⟨v, hv⟩ := Option.isSome_iff_exists.mp h
  have hok : verifyPublicationPackage env parent (.directory entries) = .ok v := by
    cases hresult : verifyPublicationPackage env parent (.directory entries) with
    | error e =>
      rw [hresult] at hv
      cases hv
    | ok w =>
      rw [hresult] at hv
      cases hv
      rfl
  have hsteps := hok
  rw [verifyPublicationPackage] at hsteps
  obtain ⟨package, hpackage, hsteps⟩ := bind_ok.mp hsteps
  obtain ⟨name, hname, -⟩ := bind_ok.mp hsteps
  exact ⟨package, name, v, hpackage, hname, hok⟩

theorem accepted_closed_iff_stray : ∃ package name,
    ClosedWorld sampleAdmission .special strayPackage package name ↔ HoldsOnly strayPackage name := by
  obtain ⟨package, name, v, hpackage, hname, haccepted⟩ := accepted_steps strayPackage_accepted
  exact ⟨package, name, accepted_closed_iff sampleAdmission .special strayPackage strayPackage_wellFormed package
    hpackage name hname v haccepted⟩

/-- A file beside the candidate is in an accepted package. -/
theorem stray_file_accepted :
    ¬∀ (env : Admission Approval) (parent : Node) (entries : List (Str × Node)), WellFormed entries →
      ∀ package, stableJson env (entryAt entries publicationPackageManifest) "publication package" = .ok package →
        ∀ name, candidatePathName package = .ok name →
          ∀ v, verifyPublicationPackage env parent (.directory entries) = .ok v →
            ClosedWorld env parent entries package name := by
  intro h
  obtain ⟨package, name, v, hpackage, hname, haccepted⟩ := accepted_steps strayPackage_accepted
  have hclosed := h sampleAdmission .special strayPackage strayPackage_wellFormed package hpackage name hname v haccepted
  have hstray : (u "NOTES.txt", sampleFile) ∈ strayPackage := .tail _ (.tail _ (.head _))
  have hbelow : ([u "NOTES.txt"], sampleFile) ∈ belowEntries strayPackage :=
    mem_belowEntries.mpr ⟨_, hstray, .inl ⟨rfl, rfl⟩⟩
  obtain hmanifest | ⟨rest, hpath, -⟩ := hclosed.listed _ _ hbelow
  · exact absurd hmanifest (by decide)
  · obtain ⟨candidate, hcandidate⟩ := hclosed.inside
    rw [← (List.cons.inj hpath).1] at hcandidate
    cases strayPackage_wellFormed.node_eq hcandidate hstray

end McpTrust.Site
