import McpTrust.Refresh.FileRoundtrip
import McpTrust.Refresh.Bundle
import McpTrust.Corpus.ManifestJson
import McpTrust.Posture.Boundary

/-! # Binding a candidate of the manifest

The preflight reads the planner's manifest back, and binds a candidate exactly where the two
agree on its URL.
-/

namespace McpTrust.Posture

set_option autoImplicit false

open Python

open Failure (bind_ok)

open Corpus (CandidateManifest Candidate RemoteRef dictOf)

/-! ## `load_registry_binding` -/

def maxManifestBytes : Nat := 2 * 1024 * 1024

def registryExport : String := "official-mcp-registry-export"

structure RegistryBinding where
  stableId : Str
  resourceUrl : Str
  manifestSha256 : Str
  sourceKind : String
  deriving DecidableEq

def inputError (text : String) : PostureError := .input (u text)

/-- `json.loads(raw.decode("utf-8"))`; other errors of the decoder escape. -/
def readManifest (interp : Interpreter) (raw : Bytes) : PostureM Json :=
  match decodeUtf8 raw with
  | .error _ => .error (inputError "candidate manifest is not valid UTF-8 JSON")
  | .ok text =>
    match jsonLoads interp text with
    | .ok value => .ok value
    | .error e =>
      .error (if e = .jsonDecodeError then inputError "candidate manifest is not valid UTF-8 JSON" else .escaped e)

def boundedArray : Json → Option (List Json)
  | .arr items => if items.length ≤ 10000 then some items else none
  | _ => none

/-- The entries with the stable ID. -/
def entriesOf (candidates : List Json) (stableId : Str) : List Dict :=
  (candidates.filterMap dictOf).filter fun entry => isText (Dict.get entry "stable_id") stableId

def onlyEntry {α : Type} : List α → Option α
  | [entry] => some entry
  | _ => none

def onlyRemote : Json → Option Json
  | .arr items => onlyEntry items
  | _ => none

def boundJsonUrl (lib : NetLibrary) (raw : Json) (label : String) : PostureM BoundURL :=
  match raw with
  | .str text => boundHttpsUrl lib text label
  | _ => .error (.input (u label ++ u " must be one non-empty URL"))

def bindRemote (lib : NetLibrary) (stableId digest : Str) (remote : Dict) : PostureM RegistryBinding := do
  let resource ← boundJsonUrl lib (Dict.get remote "url") "candidate resource URL"
  let normalized := Dict.get remote "normalized_url"
  ensure (normalized.isNull || isText normalized (stripSlashesEnd resource.url))
    (inputError "candidate normalized URL does not match its remote URL")
  .ok { stableId := stableId, resourceUrl := resource.url, manifestSha256 := digest, sourceKind := registryExport }

/-- The remote of the one entry with the stable ID. -/
def boundRemote (value : Json) (stableId : Str) : PostureM Dict := do
  let document ← orRaise (dictOf value) (inputError "candidate manifest format_version must be 1")
  ensure (Json.pyEq (Dict.get document "format_version") (.int 1))
    (inputError "candidate manifest format_version must be 1")
  let source ← orRaise (dictOf (Dict.get document "source"))
    (inputError "candidate manifest must be derived from an official MCP Registry export")
  ensure (isText (Dict.get source "kind") (u registryExport))
    (inputError "candidate manifest must be derived from an official MCP Registry export")
  let candidates ← orRaise (boundedArray (Dict.get document "candidates"))
    (inputError "candidate manifest candidates must be a bounded array")
  let entry ← orRaise (onlyEntry (entriesOf candidates stableId))
    (inputError "candidate stable ID must match exactly one entry")
  let remote ← orRaise (onlyRemote (Dict.get entry "remote_refs"))
    (inputError "candidate must bind exactly one remote endpoint")
  orRaise (dictOf remote) (inputError "candidate remote endpoint is invalid")

/-- `load_registry_binding`, of the bytes of a regular file. -/
def loadRegistryBinding (lib : NetLibrary) (interp : Interpreter) (raw : Bytes) (stableId : Str) :
    PostureM RegistryBinding := do
  ensure (decide (stableId ≠ [] ∧ stableId.length ≤ 256)) (inputError "candidate stable ID is invalid")
  ensure (decide (raw.length ≤ maxManifestBytes)) (inputError "candidate manifest exceeds the size limit")
  let value ← readManifest interp raw
  let remote ← boundRemote value stableId
  bindRemote lib stableId (sha256Hex raw) remote

/-! ## One library for both sides -/

/-- The functions of the planner, on the URLs of the preflight. -/
def NetLibrary.planner (lib : NetLibrary) (nfkc : Str → Str) (urlunsplit : Corpus.SplitUrl → Str) : Corpus.Library where
  nfkc := nfkc
  lower := lib.lower
  urlsplit := fun url =>
    match lib.urlsplit url with
    | none => .error .valueError
    | some parts =>
      .ok { scheme := parts.scheme, netloc := parts.netloc, path := parts.path, query := parts.query, fragment := parts.fragment }
  urlunsplit := urlunsplit

def rootDots (hostname : Str) : Str := (hostname.reverse.dropWhile fun c => decide (c = ch '.')).reverse

/-- What the documentation says of the library on `https` URLs. -/
structure UrlFunctions (lib : NetLibrary) (urlunsplit : Corpus.SplitUrl → Str) : Prop where
  lower : ∀ s, Ascii s → lib.lower s = lower s
  lower_ne : ∀ s, s ≠ [] → lib.lower s ≠ []
  idna_nil : lib.idna [] = some []
  /-- `urlsplit` refuses a host that IDNA would turn into one with a `/`. -/
  host : ∀ url parts ascii, lib.urlsplit url = some parts → lib.idna (rootDots (parts.hostname lib)) = some ascii →
    ch '/' ∉ ascii
  unsplit : ∀ netloc path, netloc ≠ [] → (path = [] ∨ ∃ rest, path = ch '/' :: rest) →
    urlunsplit { scheme := u "https", netloc := netloc, path := path } = u "https://" ++ netloc ++ path

/-- The host with its port, where that is not the default one. -/
def hostNetloc (hostname : Str) (port : Nat) : Str := if port = 443 then hostname else hostname ++ ch ':' :: natRepr port

/-- The lower-case authority of the URL is its IDNA host, with a port that is not the default one. -/
def Canonical (lib : NetLibrary) (url : Str) : Prop :=
  ∃ parsed hostname declared, lib.urlsplit url = some parsed ∧
    normalizedHostname lib (parsed.hostname lib) = .ok hostname ∧ parsed.port = some declared ∧
      lib.lower parsed.netloc = hostNetloc hostname (declared.getD 443)

/-! ## The two normalisations -/

theorem boundTarget_url {lib : NetLibrary} {hostname path : Str} {port : Nat} {b : BoundURL}
    (h : boundTarget lib hostname path port = .ok b) :
    b.url = u "https://" ++ hostNetloc hostname port ++ path ∧ ∃ rest, path = ch '/' :: rest := by
  unfold boundTarget at h
  obtain ⟨_, hport, h⟩ := bind_ok.mp h
  obtain ⟨_, hpath, h⟩ := bind_ok.mp h
  obtain ⟨_, hcontrol, h⟩ := bind_ok.mp h
  cases h
  rw [ensure_ok, decide_eq_true_eq] at hpath
  exact ⟨rfl, List.head?_eq_some_iff.mp hpath.1⟩

/-- The parts of an accepted URL. -/
theorem boundParts_parts {lib : NetLibrary} {raw : Str} {b : BoundURL} (h : boundParts lib raw = .ok b) :
    ∃ parsed hostname declared, lib.urlsplit raw = some parsed ∧ lower parsed.scheme = u "https" ∧
      normalizedHostname lib (parsed.hostname lib) = .ok hostname ∧ parsed.port = some declared ∧
        b.url = u "https://" ++ hostNetloc hostname (declared.getD 443) ++ (if parsed.path = [] then u "/" else parsed.path) ∧
          (parsed.path = [] ∨ ∃ rest, parsed.path = ch '/' :: rest) := by
  unfold boundParts at h
  obtain ⟨_, -, h⟩ := bind_ok.mp h
  obtain ⟨_, -, h⟩ := bind_ok.mp h
  obtain ⟨parsed, hparsed, h⟩ := bind_ok.mp h
  obtain ⟨hostname, hhostname, h⟩ := bind_ok.mp h
  obtain ⟨declared, hdeclared, h⟩ := bind_ok.mp h
  obtain ⟨hurl, hpath⟩ := boundTarget_url h
  obtain ⟨hscheme, -, -, -, hname, -, -⟩ := boundHostname_ok hhostname
  refine ⟨parsed, hostname, declared, orRaise_ok.mp hparsed, hscheme, hname, orRaise_ok.mp hdeclared, hurl, ?_⟩
  by_cases hempty : parsed.path = []
  · exact .inl hempty
  · rw [if_neg hempty] at hpath
    exact .inr hpath

theorem lowerPoint_ascii {c : CodePoint} (h : (lowerPoint c).val < 128) (hk : lowerPoint c ≠ ch 'k') : c.val < 128 := by
  unfold lowerPoint at h hk
  split_ifs at h hk with hupper hkelvin
  · simp only [isUpperAlpha, Bool.and_eq_true, decide_eq_true_eq] at hupper
    omega
  · exact absurd rfl hk
  · exact h

theorem slash_lowerPoint {c : CodePoint} (h : lowerPoint c = ch '/') : c = ch '/' := by
  unfold lowerPoint at h
  split_ifs at h with hupper hkelvin
  · simp only [isUpperAlpha, Bool.and_eq_true, decide_eq_true_eq] at hupper
    have hval : (c.val + 32) % 0x110000 = 47 := congrArg Fin.val h
    omega
  · exact absurd h (by decide)
  · exact h

/-- A scheme that reads `https` in lower case is ASCII. -/
theorem scheme_ascii {scheme : Str} (h : lower scheme = u "https") : Ascii scheme := by
  intro c hc
  have hmem : lowerPoint c ∈ u "https" := by
    rw [← h]
    exact List.mem_map_of_mem hc
  have hall : ((u "https").all fun d => decide (d.val < 128) && decide (d ≠ ch 'k')) = true := by decide
  obtain ⟨hascii, hk⟩ := Bool.and_eq_true_iff.mp (List.all_eq_true.mp hall _ hmem)
  exact lowerPoint_ascii (of_decide_eq_true hascii) (of_decide_eq_true hk)

/-- An authority without characters names no host. -/
theorem normalizedHostname_nil {lib : NetLibrary} {urlunsplit : Corpus.SplitUrl → Str} (hlib : UrlFunctions lib urlunsplit)
    {parsed : SplitUrl} (hnil : parsed.netloc = []) {hostname : Str} :
    normalizedHostname lib (parsed.hostname lib) ≠ .ok hostname := by
  have hhost : parsed.hostname lib = [] := by
    unfold SplitUrl.hostname
    rw [hnil]
    change lib.lower [] ++ [] = []
    rw [List.append_nil, hlib.lower [] ascii_nil]
    rfl
  intro h
  unfold normalizedHostname at h
  rw [hhost, List.reverse_nil, List.dropWhile_nil, List.reverse_nil, hlib.idna_nil] at h
  cases h

theorem slash_not_mem_natRepr (n : Nat) : ch '/' ∉ natRepr n := by
  intro h
  exact absurd (natRepr_digits n _ h) (by decide)

/-- A host name has characters, and none of them is a slash. -/
theorem normalizedHostname_chars {lib : NetLibrary} {urlunsplit : Corpus.SplitUrl → Str} (hlib : UrlFunctions lib urlunsplit)
    {url : Str} {parsed : SplitUrl} (hparsed : lib.urlsplit url = some parsed) {hostname : Str}
    (h : normalizedHostname lib (parsed.hostname lib) = .ok hostname) : hostname ≠ [] ∧ ch '/' ∉ hostname := by
  unfold normalizedHostname at h
  cases hidna : lib.idna (rootDots (parsed.hostname lib)) with
  | none =>
    unfold rootDots at hidna
    rw [hidna] at h
    cases h
  | some ascii =>
    have hslash := hlib.host url parsed ascii hparsed hidna
    unfold rootDots at hidna
    rw [hidna] at h
    dsimp only at h
    split_ifs at h with hempty
    cases h
    constructor
    · intro hnil
      exact hempty (List.map_eq_nil_iff.mp hnil)
    · intro hmem
      obtain ⟨c, hc, hlower⟩ := List.mem_map.mp hmem
      rw [slash_lowerPoint hlower] at hc
      exact hslash hc

theorem hostNetloc_chars {hostname : Str} (h : hostname ≠ [] ∧ ch '/' ∉ hostname) (port : Nat) :
    hostNetloc hostname port ≠ [] ∧ ch '/' ∉ hostNetloc hostname port := by
  unfold hostNetloc
  split_ifs
  · exact h
  · refine ⟨by simp [h.1], ?_⟩
    intro hmem
    obtain hmem | hmem := List.mem_append.mp hmem
    · exact h.2 hmem
    · obtain hmem | hmem := List.mem_cons.mp hmem
      · exact absurd hmem (by decide)
      · exact slash_not_mem_natRepr port hmem

theorem stripSlashesEnd_front {front netloc path : Str} (hne : netloc ≠ []) (hslash : ch '/' ∉ netloc) :
    stripSlashesEnd (front ++ netloc ++ path) = front ++ netloc ++ stripSlashesEnd path := by
  have hkeep : ((front ++ netloc).reverse.dropWhile fun c => decide (c = ch '/')) = (front ++ netloc).reverse := by
    rw [List.reverse_append]
    cases hreverse : netloc.reverse with
    | nil => exact absurd (List.reverse_eq_nil_iff.mp hreverse) hne
    | cons c rest =>
      rw [List.cons_append]
      apply List.dropWhile_cons_of_neg
      intro hc
      apply hslash
      rw [← of_decide_eq_true hc, ← List.mem_reverse, hreverse]
      exact List.mem_cons_self
  unfold stripSlashesEnd
  rw [List.reverse_append, List.dropWhile_append]
  split_ifs with hempty
  · rw [hkeep, List.reverse_reverse, List.isEmpty_iff.mp hempty, List.reverse_nil, List.append_nil]
  · rw [List.reverse_append, List.reverse_reverse]

theorem stripSlashesEnd_head {path : Str} (h : path = [] ∨ ∃ rest, path = ch '/' :: rest) :
    stripSlashesEnd path = [] ∨ ∃ rest, stripSlashesEnd path = ch '/' :: rest := by
  obtain ⟨slashes, hpath⟩ := stripSlashesEnd_append path
  cases hstrip : stripSlashesEnd path with
  | nil => exact .inl rfl
  | cons c rest =>
    right
    rw [hstrip, List.cons_append] at hpath
    obtain rfl | ⟨rest', rfl⟩ := h
    · cases hpath
    · cases hpath
      exact ⟨rest, rfl⟩

/-- The planner and the preflight agree on an accepted URL exactly where its authority is canonical. -/
theorem normalizeUrl_iff {lib : NetLibrary} {nfkc : Str → Str} {urlunsplit : Corpus.SplitUrl → Str}
    (hlib : UrlFunctions lib urlunsplit) {url : Str} {resource : BoundURL} (hbound : boundParts lib url = .ok resource) :
    Corpus.normalizeUrl (lib.planner nfkc urlunsplit) url = .ok (stripSlashesEnd resource.url) ↔ Canonical lib url := by
  obtain ⟨parsed, hostname, declared, hparsed, hscheme, hname, hport, hurl, hpath⟩ := boundParts_parts hbound
  have hchars := normalizedHostname_chars hlib hparsed hname
  have hnetloc := hostNetloc_chars hchars (declared.getD 443)
  have hempty : lib.lower parsed.netloc ≠ [] := by
    apply hlib.lower_ne
    intro hnil
    exact normalizedHostname_nil hlib hnil hname
  have hlower : lib.lower parsed.scheme = u "https" := by
    rw [hlib.lower _ (scheme_ascii hscheme), hscheme]
  have hplanner : Corpus.normalizeUrl (lib.planner nfkc urlunsplit) url =
      .ok (u "https://" ++ lib.lower parsed.netloc ++ stripSlashesEnd parsed.path) := by
    rw [← hlib.unsplit _ _ hempty (stripSlashesEnd_head hpath)]
    unfold Corpus.normalizeUrl NetLibrary.planner
    dsimp only
    rw [hparsed]
    dsimp only [bind, Except.bind]
    rw [hlower]
    rfl
  have hpreflight : stripSlashesEnd resource.url =
      u "https://" ++ hostNetloc hostname (declared.getD 443) ++ stripSlashesEnd parsed.path := by
    rw [hurl, stripSlashesEnd_front hnetloc.1 hnetloc.2]
    split_ifs with hnil
    · rw [hnil]
      rfl
    · rfl
  rw [hplanner, hpreflight, Except.ok.injEq, List.append_left_inj, List.append_right_inj]
  constructor
  · intro h
    exact ⟨parsed, hostname, declared, hparsed, hname, hport, h⟩
  · rintro ⟨parsed', hostname', declared', hparsed', hname', hport', h⟩
    rw [hparsed] at hparsed'
    cases hparsed'
    rw [hname] at hname'
    cases hname'
    rw [hport] at hport'
    cases hport'
    exact h

/-! ## Reading the manifest back -/

/-- The fields of an object, behind `sort_keys`. -/
def sorted (fields : Dict) : Dict := (Json.sortFields fields).insertionSort KeyLe

theorem readManifest_printed {interp : Interpreter} {m : CandidateManifest}
    (hcounts : m.counts = Corpus.manifestCounts m.candidates) (hcarried : Corpus.Carried m.json) :
    readManifest interp m.printed = .ok m.json.sortKeys := by
  have htidy := Corpus.CandidateManifest.tidy hcounts
  have hsorted : Corpus.Tidy 5 m.json.sortKeys := ⟨htidy.plain.sortKeys, htidy.unique.sortKeys⟩
  have hlimit := interp.deep
  have hloads : jsonLoads interp (dumps Corpus.manifestStyle m.json ++ [ch '\n']) = .ok m.json.sortKeys := by
    apply loads_dumps (Corpus.admits_default hsorted hcarried.sortKeys Corpus.manifestStyle)
    · have hdepth := hsorted.plain.1
      change m.json.sortKeys.depth ≤ interp.recursionLimit
      omega
    · intro c hc
      rw [List.mem_singleton.mp hc]
      rfl
  have hascii : Ascii (dumps Corpus.manifestStyle m.json ++ [ch '\n']) :=
    (Refresh.ascii_dumps rfl m.json).append (by decide)
  unfold readManifest CandidateManifest.printed
  rw [Refresh.decodeUtf8_ascii hascii]
  dsimp only
  rw [hloads]

theorem get_sorted_candidate (c : Candidate) (name : String) :
    Dict.get (sorted c.fields) name = (Dict.get c.fields name).sortKeys :=
  Json.get_sortKeys c.keys_nodup name

theorem entriesOf_candidates (candidates : List Candidate) (stableId : Str) :
    entriesOf ((candidates.map Candidate.json).map Json.sortKeys) stableId =
      (candidates.filter fun c => decide (c.stableId = stableId)).map fun c => sorted c.fields := by
  have hid : ∀ c : Candidate, isText (Dict.get (sorted c.fields) "stable_id") stableId = decide (c.stableId = stableId) := by
    intro c
    rw [get_sorted_candidate]
    rfl
  unfold entriesOf
  induction candidates with
  | nil => rfl
  | cons c candidates ih =>
    have hdict : dictOf c.json.sortKeys = some (sorted c.fields) := rfl
    rw [List.map_cons, List.map_cons, List.filterMap_cons, hdict]
    dsimp only
    rw [List.filter_cons, List.filter_cons, hid, ih]
    split_ifs
    · rw [List.map_cons]
    · rfl

theorem filter_unique {candidates : List Candidate} {c : Candidate} (hmem : c ∈ candidates)
    (hunique : candidates.countP (fun d => decide (d.stableId = c.stableId)) = 1) :
    candidates.filter (fun d => decide (d.stableId = c.stableId)) = [c] := by
  rw [List.countP_eq_length_filter] at hunique
  obtain ⟨d, hd⟩ := List.length_eq_one_iff.mp hunique
  have hc : c ∈ candidates.filter fun d => decide (d.stableId = c.stableId) :=
    List.mem_filter.mpr ⟨hmem, decide_eq_true rfl⟩
  rw [hd, List.mem_singleton] at hc
  rw [hd, hc]

section Document

variable (m : CandidateManifest)

theorem get_sorted_manifest (name : String) : Dict.get (sorted m.fields) name = (Dict.get m.fields name).sortKeys :=
  Json.get_sortKeys m.keys_nodup name

theorem printed_version : Json.pyEq (Dict.get (sorted m.fields) "format_version") (.int 1) = true := by
  rw [get_sorted_manifest]
  rfl

theorem printed_source : dictOf (Dict.get (sorted m.fields) "source") = some (sorted m.source) := by
  rw [get_sorted_manifest]
  rfl

theorem printed_kind : isText (Dict.get (sorted m.source) "kind") (u registryExport) = true := by
  unfold sorted
  rw [Json.get_sortKeys m.source_nodup]
  rfl

theorem printed_candidates : boundedArray (Dict.get (sorted m.fields) "candidates") =
    if m.candidates.length ≤ 10000 then some ((m.candidates.map Candidate.json).map Json.sortKeys) else none := by
  have harr : Dict.get m.fields "candidates" = .arr (m.candidates.map Candidate.json) := rfl
  rw [get_sorted_manifest, harr, Json.sortKeys, Json.sortItems_eq, boundedArray, List.length_map, List.length_map]

end Document

theorem printed_remote {c : Candidate} {ref : RemoteRef} (href : c.remoteRefs = [ref]) :
    onlyRemote (Dict.get (sorted c.fields) "remote_refs") = some ref.json.sortKeys := by
  have harr : Dict.get c.fields "remote_refs" = .arr (c.remoteRefs.map RemoteRef.json) := rfl
  rw [get_sorted_candidate, harr, href]
  rfl

theorem printed_entry {candidates : List Candidate} {c : Candidate} (hmem : c ∈ candidates)
    (hunique : candidates.countP (fun d => decide (d.stableId = c.stableId)) = 1) :
    onlyEntry (entriesOf ((candidates.map Candidate.json).map Json.sortKeys) c.stableId) = some (sorted c.fields) := by
  rw [entriesOf_candidates, filter_unique hmem hunique]
  rfl

theorem boundRemote_printed {m : CandidateManifest} {c : Candidate} (hmem : c ∈ m.candidates)
    (hunique : m.candidates.countP (fun d => decide (d.stableId = c.stableId)) = 1) {ref : RemoteRef}
    (href : c.remoteRefs = [ref]) {remote : Dict} :
    boundRemote m.json.sortKeys c.stableId = .ok remote ↔ m.candidates.length ≤ 10000 ∧ remote = sorted ref.fields := by
  have hdocument : dictOf m.json.sortKeys = some (sorted m.fields) := rfl
  have hcandidates := printed_candidates m
  have hentry := printed_entry hmem hunique
  have hremote := printed_remote href
  unfold boundRemote
  constructor
  · intro h
    obtain ⟨document, hd, h⟩ := bind_ok.mp h
    rw [orRaise_ok, hdocument, Option.some.injEq] at hd
    subst hd
    obtain ⟨_, -, h⟩ := bind_ok.mp h
    obtain ⟨source, -, h⟩ := bind_ok.mp h
    obtain ⟨_, -, h⟩ := bind_ok.mp h
    obtain ⟨candidates, hc, h⟩ := bind_ok.mp h
    rw [orRaise_ok, hcandidates] at hc
    split_ifs at hc with hlength
    rw [Option.some.injEq] at hc
    subst hc
    obtain ⟨entry, he, h⟩ := bind_ok.mp h
    rw [orRaise_ok, hentry, Option.some.injEq] at he
    subst he
    obtain ⟨found, hfound, h⟩ := bind_ok.mp h
    rw [orRaise_ok, hremote, Option.some.injEq] at hfound
    subst hfound
    exact ⟨hlength, (Option.some.inj (orRaise_ok.mp h)).symm⟩
  · rintro ⟨hlength, rfl⟩
    rw [if_pos hlength] at hcandidates
    refine bind_ok.mpr ⟨sorted m.fields, orRaise_ok.mpr hdocument, ?_⟩
    refine bind_ok.mpr ⟨(), ensure_ok.mpr (printed_version m), ?_⟩
    refine bind_ok.mpr ⟨sorted m.source, orRaise_ok.mpr (printed_source m), ?_⟩
    refine bind_ok.mpr ⟨(), ensure_ok.mpr (printed_kind m), ?_⟩
    refine bind_ok.mpr ⟨_, orRaise_ok.mpr hcandidates, ?_⟩
    refine bind_ok.mpr ⟨_, orRaise_ok.mpr hentry, ?_⟩
    refine bind_ok.mpr ⟨_, orRaise_ok.mpr hremote, ?_⟩
    exact orRaise_ok.mpr rfl

theorem bindRemote_ref {lib : NetLibrary} {stableId digest : Str} {ref : RemoteRef} {url normal : Str}
    (hurl : ref.url = some url) (hnormal : ref.normalizedUrl = some normal) {resource : BoundURL}
    (hbound : boundParts lib url = .ok resource) {binding : RegistryBinding} :
    bindRemote lib stableId digest (sorted ref.fields) = .ok binding ↔
      normal = stripSlashesEnd resource.url ∧ binding = ⟨stableId, resource.url, digest, registryExport⟩ := by
  have hget : ∀ name, Dict.get (sorted ref.fields) name = (Dict.get ref.fields name).sortKeys :=
    Json.get_sortKeys ref.keys_nodup
  have hfirst : Dict.get (sorted ref.fields) "url" = .str url := by
    have hfield : Dict.get ref.fields "url" = Corpus.textOrNull ref.url := rfl
    rw [hget, hfield, hurl]
    rfl
  have hsecond : Dict.get (sorted ref.fields) "normalized_url" = .str normal := by
    have hfield : Dict.get ref.fields "normalized_url" = Corpus.textOrNull ref.normalizedUrl := rfl
    rw [hget, hfield, hnormal]
    rfl
  have hresource : boundJsonUrl lib (.str url) "candidate resource URL" = .ok resource := by
    unfold boundJsonUrl boundHttpsUrl
    dsimp only
    rw [hbound]
  unfold bindRemote
  rw [hfirst, hsecond, hresource]
  constructor
  · intro h
    obtain ⟨found, hfound, h⟩ := bind_ok.mp h
    cases hfound
    obtain ⟨_, hensure, h⟩ := bind_ok.mp h
    cases h
    exact ⟨of_decide_eq_true (ensure_ok.mp hensure), rfl⟩
  · rintro ⟨hequal, rfl⟩
    refine bind_ok.mpr ⟨resource, rfl, ?_⟩
    exact bind_ok.mpr ⟨(), ensure_ok.mpr (decide_eq_true hequal), rfl⟩

/-! ## The binding -/

section Planned

variable {lib : NetLibrary} {nfkc : Str → Str} {urlunsplit : Corpus.SplitUrl → Str} {payload : Json}
  {generatedAt : DateTime} {limit : Nat} {m : CandidateManifest}

/-- The bounds of the preflight, and the URL on which the two sides agree. -/
structure Bindable (lib : NetLibrary) (m : CandidateManifest) (c : Candidate) (url : Str) : Prop where
  id : c.stableId.length ≤ 256
  size : m.printed.length ≤ maxManifestBytes
  candidates : m.candidates.length ≤ 10000
  canonical : Canonical lib url

theorem loadRegistryBinding_printed (hcounts : m.counts = Corpus.manifestCounts m.candidates)
    (hcarried : Corpus.Carried m.json) {c : Candidate} (hmem : c ∈ m.candidates) (hid : c.stableId ≠ [])
    (hunique : m.candidates.countP (fun d => decide (d.stableId = c.stableId)) = 1) {ref : RemoteRef}
    (href : c.remoteRefs = [ref]) {url normal : Str} (hurl : ref.url = some url) (hnormal : ref.normalizedUrl = some normal)
    {resource : BoundURL} (hbound : boundParts lib url = .ok resource) {interp : Interpreter} {binding : RegistryBinding} :
    loadRegistryBinding lib interp m.printed c.stableId = .ok binding ↔
      c.stableId.length ≤ 256 ∧ m.printed.length ≤ maxManifestBytes ∧ m.candidates.length ≤ 10000 ∧
        normal = stripSlashesEnd resource.url ∧
          binding = ⟨c.stableId, resource.url, sha256Hex m.printed, registryExport⟩ := by
  have hread : readManifest interp m.printed = .ok m.json.sortKeys := readManifest_printed hcounts hcarried
  unfold loadRegistryBinding
  constructor
  · intro h
    obtain ⟨_, hlength, h⟩ := bind_ok.mp h
    obtain ⟨_, hsize, h⟩ := bind_ok.mp h
    obtain ⟨value, hvalue, h⟩ := bind_ok.mp h
    rw [hread, Except.ok.injEq] at hvalue
    subst hvalue
    obtain ⟨remote, hremote, h⟩ := bind_ok.mp h
    obtain ⟨hmany, hsorted⟩ := (boundRemote_printed hmem hunique href).mp hremote
    rw [hsorted] at h
    obtain ⟨hequal, hbinding⟩ := (bindRemote_ref hurl hnormal hbound).mp h
    rw [ensure_ok, decide_eq_true_eq] at hlength hsize
    exact ⟨hlength.2, hsize, hmany, hequal, hbinding⟩
  · rintro ⟨hlength, hsize, hmany, hequal, hbinding⟩
    refine bind_ok.mpr ⟨(), ensure_ok.mpr (decide_eq_true ⟨hid, hlength⟩), ?_⟩
    refine bind_ok.mpr ⟨(), ensure_ok.mpr (decide_eq_true hsize), ?_⟩
    refine bind_ok.mpr ⟨_, hread, ?_⟩
    refine bind_ok.mpr ⟨_, (boundRemote_printed hmem hunique href).mpr ⟨hmany, rfl⟩, ?_⟩
    exact (bindRemote_ref hurl hnormal hbound).mpr ⟨hequal, hbinding⟩

end Planned

/-! ## An explicit default port -/

/-- The library at the one address below. -/
def portLibrary : NetLibrary :=
  { sampleLibrary with
    urlsplit := fun _ =>
      some { scheme := u "https", netloc := u "example.test:443", path := u "/mcp", query := [], fragment := [] } }

def joinParts (parts : Corpus.SplitUrl) : Str := parts.scheme ++ u "://" ++ parts.netloc ++ parts.path

theorem portLibrary_functions : UrlFunctions portLibrary joinParts where
  lower s _ := rfl
  lower_ne s hne hnil := hne (List.map_eq_nil_iff.mp hnil)
  idna_nil := rfl
  host url parts ascii hparts hascii := by
    cases hparts
    cases hascii
    decide +kernel
  unsplit netloc path _ _ := by
    have hfront : u "https" ++ u "://" = u "https://" := by decide
    unfold joinParts
    rw [hfront]

def portUrl : Str := u "https://example.test:443/mcp"

def portPayload : Json :=
  .obj
    [(u "servers", .arr [.obj
      [(u "name", .str (u "demo")), (u "version", .str (u "1.0.0")),
        (u "remotes", .arr [.obj [(u "type", .str (u "streamable-http")), (u "url", .str portUrl)]])]])]

def portRef : RemoteRef where
  url := some portUrl
  normalizedUrl := some portUrl
  transport := some (u "streamable-http")

def carriedNode : Json → Bool
  | .int k => decide ((intRepr k).length ≤ 4300)
  | .str s => s.all fun c => !isSurrogate c
  | _ => true

theorem carried_of_walk {v : Json} (h : v.walk.all carriedNode = true) : Corpus.Carried v := by
  constructor
  · intro k hk
    exact of_decide_eq_true (List.all_eq_true.mp h _ hk)
  · intro s hs
    have hall := List.all_eq_true.mp (List.all_eq_true.mp h _ hs)
    have hscalars : ∀ c ∈ s, isSurrogate c = false := by
      intro c hc
      rw [← Bool.not_eq_true']
      exact hall c hc
    exact Refresh.escapable_of_scalars hscalars Corpus.manifestStyle rfl

theorem build_port :
    ((Corpus.buildRegistryCandidateManifest (portLibrary.planner id joinParts) portPayload Corpus.planTime 25).toOption.map
      fun m => (m.candidates.map Candidate.remoteRefs, m.json.walk.all carriedNode)) =
        some ([[portRef]], true) := by decide +kernel

/-- The manifest of the payload, and its one candidate. -/
theorem port_manifest : ∃ m c,
    Corpus.buildRegistryCandidateManifest (portLibrary.planner id joinParts) portPayload Corpus.planTime 25 = .ok m ∧
      m.candidates = [c] ∧ c.remoteRefs = [portRef] ∧ Corpus.Carried m.json := by
  have hbuild := build_port
  cases hm : Corpus.buildRegistryCandidateManifest (portLibrary.planner id joinParts) portPayload Corpus.planTime 25 with
  | error e =>
    rw [hm] at hbuild
    cases hbuild
  | ok m =>
    rw [hm] at hbuild
    have hpair := Option.some.inj hbuild
    obtain ⟨hrefs, hwalk⟩ := Prod.mk.inj hpair
    obtain ⟨c, hc, hrefs⟩ := List.map_eq_singleton_iff.mp hrefs
    exact ⟨m, c, rfl, hc, hrefs, carried_of_walk hwalk⟩

theorem only_candidate {candidates : List Candidate} {c : Candidate} (h : candidates = [c]) :
    c ∈ candidates ∧ candidates.countP (fun d => decide (d.stableId = c.stableId)) = 1 := by
  rw [h]
  exact ⟨List.mem_singleton_self c, by simp⟩

def portResource : BoundURL where
  url := u "https://example.test/mcp"
  hostname := u "example.test"
  port := 443
  path := u "/mcp"
  origin := u "https://example.test"

theorem portUrl_bound : boundParts portLibrary portUrl = .ok portResource := by decide +kernel

end McpTrust.Posture
