import McpTrust.Effects
import McpTrust.Site.Package

/-! # Building a publication package

The build stages a copy beside the output, checks it, renames it and checks it once
more. What is raised before the rename leaves the directory as it was; what the last
check raises leaves the package behind.
-/

namespace McpTrust.Site

set_option autoImplicit false

open Python Effects Effects.Eff
open Refresh (canonicalBytes digestBytes)

/-! ## Writing files -/

/-- `entries` with another node under a name. -/
def putEntry (entries : List (Str × Node)) (name : Str) (node : Node) : List (Str × Node) :=
  if entries.any (fun entry => decide (entry.1 = name)) then
    entries.map fun entry => if entry.1 = name then (name, node) else entry
  else entries ++ [(name, node)]

/-- `path.parent.mkdir(parents=True, exist_ok=True)` and `path.write_bytes(content)` below a directory. -/
def writeFile (content : Bytes) : List Str → List (Str × Node) → Except PyErr (List (Str × Node))
  | [], _ => .error .osError
  | [name], entries =>
    match entryAt entries name with
    | none | some (.file _) => .ok (putEntry entries name (.file content))
    | _ => .error .osError
  | name :: rest, entries =>
    match entryAt entries name with
    | none => (writeFile content rest []).map fun inner => putEntry entries name (.directory inner)
    | some (.directory inner) =>
      (writeFile content rest inner).map fun inner => putEntry entries name (.directory inner)
    | _ => .error .osError

/-- The state of a build is the directory that holds the output. -/
abbrev Build := Eff (List (Str × Node)) PyErr

def writeBelow (path : List Str) (content : Bytes) : Build Unit := do
  let entries ← read
  let written ← lift (writeFile content path entries)
  update fun _ => written

/-- The files below a directory in the order of their paths. -/
def filesBelow (root : Node) : List (List Str × Bytes) :=
  ((below root).insertionSort fun p q => strLe (posix p.1) (posix q.1) = true).filterMap fun found =>
    match found.2 with
    | .file content => some (found.1, content)
    | _ => none

/-- The loop that copies the files of the candidate. -/
def copyFiles : List (List Str × Bytes) → Build Unit
  | [] => pure ()
  | (path, content) :: rest => do
    writeBelow path content
    copyFiles rest

/-! ## The build -/

/-- The paths and the candidate that a build is given, and what it finds out about them. -/
structure Publication where
  candidateName : Str
  candidate : Node
  outputName : Str
  /-- The candidate is the directory of the output or one of its parents. -/
  overlaps : Bool
  /-- The random end of the temporary name. -/
  suffix : Str

/-- The name that `tempfile.mkdtemp` makes of the output's. -/
def Publication.temporary (p : Publication) : Str := ch '.' :: p.outputName ++ u ".tmp-" ++ p.suffix

/-- Where the files of the candidate go, below the directory of the output. -/
def Publication.destination (p : Publication) : List Str :=
  if p.candidateName = u ".." then []
  else if p.candidateName = [] then [p.temporary]
  else [p.temporary, p.candidateName]

def nodeAt (entries : List (Str × Node)) : List Str → Option Node
  | [] => some (.directory entries)
  | name :: rest =>
    match rest, entryAt entries name with
    | [], node => node
    | _ :: _, some (.directory inner) => nodeAt inner rest
    | _ :: _, _ => none

/-- The approval check at each instant. -/
structure Clocked where
  admission : Admission Approval
  check : ℤ → List (Str × Node) → Except PyErr Approval

def Clocked.at (clock : Clocked) (now : ℤ) : Admission Approval := { clock.admission with check := clock.check now }

def packageOf (p : Publication) (approvalContent : Bytes) (approval : Approval) (manifestSha256 : Json)
    (files : List Json) : Dict :=
  [(u "schema", .str (u "McpTrustPublicationPackageV1")),
    (u "state", .str (u "PUBLICATION_PACKAGE_READY_FOR_DEPLOY_REVIEW")), (u "created_at", approval.issuedAt),
    (u "candidate_path_name", .str p.candidateName), (u "candidate_manifest_sha256", manifestSha256),
    (u "candidate_receipt_digest", approval.candidateReceiptDigest),
    (u "candidate_content_digest", approval.candidateContentDigest),
    (u "publication_approval_sha256", .str (digestBytes approvalContent)),
    (u "publication_approval_receipt_digest", approval.receiptDigest),
    (u "provider_revalidation_receipt_digest", approval.providerRevalidationReceiptDigest),
    (u "content_files", .arr files), (u "content_digest", .str (filesDigest files)), (u "authority", packageAuthority),
    (u "claim_ceiling", .str (u ("Local copy-only publication package; not deployment authority, not public " ++
      "mutation, not rollback execution authority, and not scheduler authority.")))]

def signed (payload : Dict) : Dict :=
  payload ++ [(u "receipt_digest", .str (digestBytes (canonicalBytes (.obj payload))))]

/-- `verify_publication_package` of an entry of the directory. -/
def verifyEntry (env : Admission Approval) (name : Str) : Build PackageVerdict := do
  let entries ← read
  lift (verifyPublicationPackage env (.directory entries) ((entryAt entries name).getD .special))

/-- What is done inside the `try` before the rename. -/
def stage (clock : Clocked) (p : Publication) (second : ℤ) (approval : Approval) (files : List Json) (payload : Dict) :
    Build Unit := do
  copyFiles ((filesBelow p.candidate).map fun file => (p.destination ++ file.1, file.2))
  let entries ← read
  let copied ← lift (candidateFiles (nodeAt entries p.destination))
  if Json.pyEq (.arr copied) (.arr files) = false then
    raise (publicationError "candidate changed during package copy")
  else do
    let manifestSha256 ← lift ((subscript (.obj payload) "candidate").bind fun candidate =>
      subscript candidate "manifest_sha256")
    writeBelow [p.temporary, publicationPackageManifest]
      (canonicalBytes (.obj (signed (packageOf p clock.admission.approvalContent approval manifestSha256 files))))
    let _ ← verifyEntry (clock.at second) p.temporary
    pure ()

/-- `os.replace(temporary, output_path)` onto a free name. -/
def replaceEntry (old new : Str) : Build Unit :=
  update fun entries => entries.map fun entry => if entry.1 = old then (new, entry.2) else entry

/-- `shutil.rmtree(temporary)` where it exists. -/
def removeEntry (name : Str) : Build Unit := update fun entries => entries.filter fun entry => decide (entry.1 ≠ name)

/-- `build_publication_package(…)` with the three instants at which the clock is read. -/
def buildPublicationPackage (clock : Clocked) (p : Publication) (first second third : ℤ) : Build Unit := do
  let approval ← lift (verifyPublicationApproval (clock.at first) (some p.candidate))
  let entries ← read
  if (entryAt entries p.outputName).isSome = true then
    raise (publicationError "publication package output must not already exist")
  else if p.overlaps then raise (publicationError "publication package overlaps the candidate root")
  else do
    let files ← lift (candidateFiles (some p.candidate))
    let payload ← lift (stableJson clock.admission (some (.file clock.admission.approvalContent)) "publication approval")
    update fun entries => entries ++ [(p.temporary, .directory [])]
    handle
      (do
        stage clock p second approval files payload
        replaceEntry p.temporary p.outputName
        let _ ← verifyEntry (clock.at third) p.outputName
        pure ())
      fun e => do
        removeEntry p.temporary
        raise e

/-! ## The staging directory -/

/-- The directory of the output with a temporary entry at its end. -/
def Staging (parent : List (Str × Node)) (temporary : Str) (entries : List (Str × Node)) : Prop :=
  ∃ inner, entries = parent ++ [(temporary, .directory inner)]

theorem entryAt_eq_none {entries : List (Str × Node)} {name : Str} :
    entryAt entries name = none ↔ name ∉ entries.map Prod.fst := by
  rw [entryAt, Option.map_eq_none_iff, List.find?_eq_none, List.mem_map]
  constructor
  · rintro h ⟨entry, hentry, rfl⟩
    exact h entry hentry (decide_eq_true rfl)
  · intro h entry hentry hname
    exact h ⟨entry, hentry, of_decide_eq_true hname⟩

theorem entryAt_append {parent : List (Str × Node)} {name : Str} (h : name ∉ parent.map Prod.fst) (node : Node) :
    entryAt (parent ++ [(name, node)]) name = some node := by
  have hnone : parent.find? (fun entry => decide (entry.1 = name)) = none :=
    Option.map_eq_none_iff.mp (entryAt_eq_none.mpr h)
  rw [entryAt, List.find?_append, hnone]
  simp

theorem putEntry_append {parent : List (Str × Node)} {name : Str} (h : name ∉ parent.map Prod.fst) (node other : Node) :
    putEntry (parent ++ [(name, node)]) name other = parent ++ [(name, other)] := by
  rw [putEntry, if_pos (by simp), List.map_append]
  congr 1
  · refine (List.map_congr_left fun entry hentry => ?_).trans (List.map_id _)
    have hname : entry.1 ≠ name := fun heq => h (heq ▸ List.mem_map_of_mem hentry)
    rw [if_neg hname]
    rfl
  · simp

variable {parent : List (Str × Node)} {p : Publication}

theorem lift_ok_bind {α β : Type} {x : Except PyErr α} {a : α} (h : x = .ok a) (f : α → Build β) :
    (lift x >>= f) = f a := by
  rw [h]
  rfl

theorem lift_error_bind {α β : Type} {x : Except PyErr α} {e : PyErr} (h : x = .error e) (f : α → Build β)
    (entries : List (Str × Node)) : (lift x >>= f) entries = (.error e, entries) := by
  rw [h]
  rfl

/-- What is written below the temporary entry stays there. -/
theorem writeBelow_keeps (hfresh : p.temporary ∉ parent.map Prod.fst) (rest : List Str) (content : Bytes) :
    Keeps (Staging parent p.temporary) (writeBelow (p.temporary :: rest) content) := by
  intro entries hentries
  cases hwritten : writeFile content (p.temporary :: rest) entries with
  | error e =>
    have hrun : writeBelow (p.temporary :: rest) content entries = (.error e, entries) :=
      lift_error_bind hwritten _ entries
    rw [hrun]
    exact hentries
  | ok written =>
    have hrun : writeBelow (p.temporary :: rest) content entries = (.ok (), written) :=
      congrFun (lift_ok_bind hwritten fun written => update fun _ => written) entries
    rw [hrun]
    obtain ⟨inner, rfl⟩ := hentries
    cases rest with
    | nil =>
      rw [writeFile, entryAt_append hfresh] at hwritten
      cases hwritten
    | cons name rest =>
      rw [writeFile, entryAt_append hfresh] at hwritten
      · cases hinner : writeFile content (name :: rest) inner with
        | error e =>
          simp only [hinner] at hwritten
          cases hwritten
        | ok inner' =>
          simp only [hinner] at hwritten
          cases hwritten
          exact ⟨inner', putEntry_append hfresh _ _⟩
      · exact nofun

theorem copyFiles_keeps (hfresh : p.temporary ∉ parent.map Prod.fst) (files : List (List Str × Bytes))
    (hbelow : ∀ file ∈ files, ∃ rest, file.1 = p.temporary :: rest) :
    Keeps (Staging parent p.temporary) (copyFiles files) := by
  induction files with
  | nil => exact meets_pure fun _ hs => hs
  | cons file files ih =>
    obtain ⟨path, content⟩ := file
    obtain ⟨rest, rfl⟩ := hbelow _ List.mem_cons_self
    exact Keeps.bind (writeBelow_keeps hfresh rest content)
      fun _ => ih fun file hfile => hbelow file (List.mem_cons_of_mem _ hfile)

theorem verifyEntry_keeps (I : List (Str × Node) → Prop) (env : Admission Approval) (name : Str) :
    Keeps I (verifyEntry env name) := by
  intro entries hentries
  cases hverdict : verifyPublicationPackage env (.directory entries) ((entryAt entries name).getD .special) with
  | error e =>
    have hrun : verifyEntry env name entries = (.error e, entries) := by
      change lift _ entries = _
      rw [hverdict]
      rfl
    rw [hrun]
    exact hentries
  | ok v =>
    have hrun : verifyEntry env name entries = (.ok v, entries) := by
      change lift _ entries = _
      rw [hverdict]
      rfl
    rw [hrun]
    exact hentries

/-- Staging changes nothing but the temporary entry. -/
theorem stage_keeps (hfresh : p.temporary ∉ parent.map Prod.fst) (hname : p.candidateName ≠ u "..") (clock : Clocked)
    (second : ℤ) (approval : Approval) (files : List Json) (payload : Dict) :
    Keeps (Staging parent p.temporary) (stage clock p second approval files payload) := by
  refine Keeps.bind (copyFiles_keeps hfresh _ fun file hfile => ?_) fun _ => ?_
  · obtain ⟨source, -, rfl⟩ := List.mem_map.mp hfile
    rw [Publication.destination, if_neg hname]
    split
    · exact ⟨source.1, rfl⟩
    · exact ⟨p.candidateName :: source.1, rfl⟩
  refine Keeps.bind (meets_read fun _ hs => hs) fun entries => ?_
  refine Keeps.bind (meets_lift (fun _ _ _ hs => hs) fun _ _ _ hs => hs) fun copied => ?_
  refine Meets.ite (fun _ => meets_raise fun _ hs => hs) fun _ => ?_
  refine Keeps.bind (meets_lift (fun _ _ _ hs => hs) fun _ _ _ hs => hs) fun manifestSha256 => ?_
  refine Keeps.bind (writeBelow_keeps hfresh _ _) fun _ => ?_
  exact Keeps.bind (verifyEntry_keeps _ _ _) fun _ => meets_pure fun _ hs => hs

/-! ## The ends of a build -/

/-- What is checked before anything is created. -/
structure Prepared (clock : Clocked) (p : Publication) (first : ℤ) (parent : List (Str × Node)) (approval : Approval)
    (files : List Json) (payload : Dict) : Prop where
  approved : verifyPublicationApproval (clock.at first) (some p.candidate) = .ok approval
  absent : entryAt parent p.outputName = none
  apart : p.overlaps = false
  files : candidateFiles (some p.candidate) = .ok files
  payload : stableJson clock.admission (some (.file clock.admission.approvalContent)) "publication approval" = .ok payload

def staging (p : Publication) (parent : List (Str × Node)) : List (Str × Node) :=
  parent ++ [(p.temporary, .directory [])]

/-- The part of the build inside the `try`. -/
def finish (clock : Clocked) (p : Publication) (second third : ℤ) (approval : Approval) (files : List Json)
    (payload : Dict) : Build Unit :=
  handle
    (do
      stage clock p second approval files payload
      replaceEntry p.temporary p.outputName
      let _ ← verifyEntry (clock.at third) p.outputName
      pure ())
    fun e => do
      removeEntry p.temporary
      raise e

theorem build_prepared {clock : Clocked} {first second third : ℤ} {approval : Approval} {files : List Json}
    {payload : Dict} (h : Prepared clock p first parent approval files payload) :
    buildPublicationPackage clock p first second third parent =
      finish clock p second third approval files payload (staging p parent) := by
  have hfree : ¬(entryAt parent p.outputName).isSome = true := by simp [h.absent]
  have hapart : ¬p.overlaps = true := by simp [h.apart]
  rw [buildPublicationPackage, lift_ok_bind h.approved]
  change (if (entryAt parent p.outputName).isSome = true then _ else _ : Build Unit) parent = _
  rw [if_neg hfree, if_neg hapart, lift_ok_bind h.files, lift_ok_bind h.payload]
  rfl

theorem build_unprepared {clock : Clocked} {first second third : ℤ}
    (h : ∀ approval files payload, ¬Prepared clock p first parent approval files payload) :
    ∃ e, buildPublicationPackage clock p first second third parent = (.error e, parent) := by
  rw [buildPublicationPackage]
  cases happroved : verifyPublicationApproval (clock.at first) (some p.candidate) with
  | error e => exact ⟨e, rfl⟩
  | ok approval =>
    change ∃ e, (if (entryAt parent p.outputName).isSome = true then _ else _ : Build Unit) parent = _
    by_cases habsent : (entryAt parent p.outputName).isSome = true
    · rw [if_pos habsent]
      exact ⟨_, rfl⟩
    rw [if_neg habsent]
    by_cases hoverlaps : p.overlaps = true
    · rw [if_pos hoverlaps]
      exact ⟨_, rfl⟩
    rw [if_neg hoverlaps]
    cases hfiles : candidateFiles (some p.candidate) with
    | error e => exact ⟨e, rfl⟩
    | ok files =>
      rw [lift_ok_bind rfl]
      cases hpayload : stableJson clock.admission (some (.file clock.admission.approvalContent)) "publication approval" with
      | error e => exact ⟨e, rfl⟩
      | ok payload =>
        exact absurd ⟨happroved, Option.not_isSome_iff_eq_none.mp habsent, Bool.of_not_eq_true hoverlaps, hfiles, hpayload⟩
          (h approval files payload)

/-- The directory once the staged package has the name of the output. -/
def published (p : Publication) (parent : List (Str × Node)) (inner : List (Str × Node)) : List (Str × Node) :=
  parent ++ [(p.outputName, .directory inner)]

theorem temporary_ne_output (p : Publication) : p.temporary ≠ p.outputName := by
  intro h
  have hlength := congrArg List.length h
  rw [Publication.temporary] at hlength
  simp only [List.cons_append, List.length_cons, List.length_append] at hlength
  omega

theorem map_rename {old new : Str} {entries : List (Str × Node)} (h : old ∉ entries.map Prod.fst) (node : Node) :
    (entries ++ [(old, node)]).map (fun entry => if entry.1 = old then (new, entry.2) else entry) =
      entries ++ [(new, node)] := by
  rw [List.map_append]
  congr 1
  · refine (List.map_congr_left fun entry hentry => ?_).trans (List.map_id _)
    have hname : entry.1 ≠ old := fun heq => h (heq ▸ List.mem_map_of_mem hentry)
    rw [if_neg hname]
    rfl
  · simp

theorem filter_removed {name : Str} {entries : List (Str × Node)} (h : name ∉ entries.map Prod.fst) :
    entries.filter (fun entry => decide (entry.1 ≠ name)) = entries := by
  apply List.filter_eq_self.mpr
  intro entry hentry
  apply decide_eq_true
  exact fun heq => h (heq ▸ List.mem_map_of_mem hentry)

/-- A staging that raises is taken away again. -/
theorem finish_error {clock : Clocked} {second third : ℤ} {approval : Approval} {files : List Json} {payload : Dict}
    {e : PyErr} {inner : List (Str × Node)} (hfresh : p.temporary ∉ parent.map Prod.fst)
    (hstage : stage clock p second approval files payload (staging p parent) =
      (.error e, parent ++ [(p.temporary, .directory inner)])) :
    finish clock p second third approval files payload (staging p parent) = (.error e, parent) := by
  rw [finish, Effects.Eff.handle]
  have hrun : (do
      stage clock p second approval files payload
      replaceEntry p.temporary p.outputName
      let _ ← verifyEntry (clock.at third) p.outputName
      pure () : Build Unit) (staging p parent) = (.error e, parent ++ [(p.temporary, .directory inner)]) := by
    change Eff.bind _ _ _ = _
    rw [Eff.bind, hstage]
  rw [hrun]
  change (_, List.filter _ _) = _
  rw [List.filter_append, filter_removed hfresh]
  simp

/-- Behind the staging the last check decides, and it keeps the package. -/
theorem finish_ok {clock : Clocked} {second third : ℤ} {approval : Approval} {files : List Json} {payload : Dict}
    {inner : List (Str × Node)} (hfresh : p.temporary ∉ parent.map Prod.fst)
    (habsent : entryAt parent p.outputName = none)
    (hstage : stage clock p second approval files payload (staging p parent) =
      (.ok (), parent ++ [(p.temporary, .directory inner)])) :
    finish clock p second third approval files payload (staging p parent) =
      ((verifyPublicationPackage (clock.at third) (.directory (published p parent inner)) (.directory inner)).map
        fun _ => (), published p parent inner) := by
  rw [finish, Effects.Eff.handle]
  have hrun : (do
      stage clock p second approval files payload
      replaceEntry p.temporary p.outputName
      let _ ← verifyEntry (clock.at third) p.outputName
      pure () : Build Unit) (staging p parent) =
      ((verifyPublicationPackage (clock.at third) (.directory (published p parent inner)) (.directory inner)).map
        fun _ => (), published p parent inner) := by
    change Eff.bind _ _ _ = _
    rw [Eff.bind, hstage]
    change Eff.bind (verifyEntry (clock.at third) p.outputName) _ (List.map _ _) = _
    rw [map_rename hfresh, ← published]
    change Eff.bind (lift _) _ _ = _
    rw [published, entryAt_append (entryAt_eq_none.mp habsent), Option.getD_some]
    cases verifyPublicationPackage (clock.at third) (.directory (parent ++ [(p.outputName, .directory inner)]))
      (.directory inner) with
    | error e => rfl
    | ok v => rfl
  rw [hrun]
  cases verifyPublicationPackage (clock.at third) (.directory (published p parent inner)) (.directory inner) with
  | error e =>
    change (_, List.filter _ _) = _
    rw [published, List.filter_append, filter_removed hfresh]
    simp [Except.map, (temporary_ne_output p).symm]
  | ok v => rfl

/-! ## All or nothing -/

/-- A build that returns leaves an accepted package, and one that raises leaves the directory as it was. -/
structure AllOrNothing (clock : Clocked) (p : Publication) (first second third : ℤ) (parent : List (Str × Node)) :
    Prop where
  leaves : (entryAt (buildPublicationPackage clock p first second third parent).2 p.outputName).isSome = true ↔
    (buildPublicationPackage clock p first second third parent).1 = .ok ()
  accepted : (buildPublicationPackage clock p first second third parent).1 = .ok () →
    ∃ inner v, entryAt (buildPublicationPackage clock p first second third parent).2 p.outputName =
      some (.directory inner) ∧ verifyPublicationPackage (clock.at third)
        (.directory (buildPublicationPackage clock p first second third parent).2) (.directory inner) = .ok v
  restored : ∀ e, (buildPublicationPackage clock p first second third parent).1 = .error e →
    (buildPublicationPackage clock p first second third parent).2 = parent

/-- The staged package that its check at the second instant lets through. -/
def Staged (clock : Clocked) (p : Publication) (first second : ℤ) (parent inner : List (Str × Node)) : Prop :=
  ∃ approval files payload, Prepared clock p first parent approval files payload ∧
    stage clock p second approval files payload (staging p parent) =
      (.ok (), parent ++ [(p.temporary, .directory inner)])

/-- The output is free, and a package that is in order at the second instant still is at the third. -/
structure StaysCurrent (clock : Clocked) (p : Publication) (first second third : ℤ) (parent : List (Str × Node)) :
    Prop where
  absent : entryAt parent p.outputName = none
  current : ∀ inner, Staged clock p first second parent inner →
    ∃ v, verifyPublicationPackage (clock.at third) (.directory (published p parent inner)) (.directory inner) = .ok v

/-- The sample approval, which ends after the second instant. -/
def sampleClock : Clocked where
  admission := sampleAdmission
  check := fun now inner =>
    if now ≤ 2 then sampleAdmission.check inner
    else .error (publicationError "publication approval is not current")

def samplePublication : Publication where
  candidateName := u "site"
  candidate := .directory sampleCandidate
  outputName := u "package"
  overlaps := false
  suffix := u "abc"

/-- What a caller sees of a run: whether it returned, and whether the output is there. -/
def seen (run : Except PyErr Unit × List (Str × Node)) (name : Str) : Bool × Bool :=
  (run.1.toOption.isSome, (entryAt run.2 name).isSome)

theorem build_expired :
    seen (buildPublicationPackage sampleClock samplePublication 1 2 3 []) samplePublication.outputName =
      (false, true) := by decide +kernel

end McpTrust.Site
