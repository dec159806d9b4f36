import McpTrust.Python.JsonHooks
import McpTrust.Python.JsonRoundtrip
import McpTrust.Python.Utf8
import McpTrust.Corpus.FirstBatch
import McpTrust.Corpus.Lineage

/-! # The manifest as a document

What the planner prints, and that the printed text reads back as the manifest.
-/

namespace McpTrust.Corpus

set_option autoImplicit false

open Python

/-! ## Values that read back -/

/-- No float, at most `n` containers inside each other, and distinct keys. -/
structure Tidy (n : Nat) (v : Json) : Prop where
  plain : v.Plain n
  unique : v.UniqueKeys

theorem uniqueKeys_scalar {v : Json} (hwalk : v.walk = [v]) (hobj : ∀ fields, v ≠ .obj fields) : v.UniqueKeys := by
  intro fields hfields
  rw [hwalk, List.mem_singleton] at hfields
  exact absurd hfields.symm (hobj fields)

@[simp] theorem tidy_null (n : Nat) : Tidy n .null where
  plain := Json.plain_null n
  unique := uniqueKeys_scalar (by simp [Json.walk]) (by simp)

@[simp] theorem tidy_bool (n : Nat) (b : Bool) : Tidy n (.bool b) where
  plain := ⟨Nat.zero_le _, by simp [Json.walk]⟩
  unique := uniqueKeys_scalar (by simp [Json.walk]) (by simp)

@[simp] theorem tidy_int (n : Nat) (k : ℤ) : Tidy n (.int k) where
  plain := Json.plain_int n k
  unique := uniqueKeys_scalar (by simp [Json.walk]) (by simp)

@[simp] theorem tidy_str (n : Nat) (s : Str) : Tidy n (.str s) where
  plain := Json.plain_str n s
  unique := uniqueKeys_scalar (by simp [Json.walk]) (by simp)

theorem tidy_arr {n : Nat} {items : List Json} (h : ∀ v ∈ items, Tidy n v) : Tidy (n + 1) (.arr items) where
  plain := Json.plain_arr fun v hv => (h v hv).plain
  unique := Json.uniqueKeys_arr.mpr fun v hv => (h v hv).unique

theorem tidy_obj {n : Nat} {fields : Dict} (hkeys : (Dict.keys fields).Nodup) (h : ∀ kv ∈ fields, Tidy n kv.2) :
    Tidy (n + 1) (.obj fields) where
  plain := Json.plain_obj fun kv hkv => (h kv hkv).plain
  unique := Json.uniqueKeys_obj.mpr ⟨hkeys, fun kv hkv => (h kv hkv).unique⟩

/-- Integers within the digit limit, and no text with the two halves of a surrogate pair side by side. -/
structure Carried (v : Json) : Prop where
  ints : ∀ k, .int k ∈ v.walk → (intRepr k).length ≤ 4300
  texts : ∀ s, .str s ∈ v.walk → s.IsChain NoPair

theorem Carried.sortKeys {v : Json} (h : Carried v) : Carried v.sortKeys := by
  constructor
  · intro k hk
    obtain ⟨x, hx, heq⟩ := Json.walk_sortKeys hk
    cases x with
    | int n =>
      cases heq
      exact h.ints k hx
    | _ => simp [Json.sortKeys] at heq
  · intro s hs
    obtain ⟨x, hx, heq⟩ := Json.walk_sortKeys hs
    cases x with
    | str t =>
      cases heq
      exact h.texts s hx
    | _ => simp [Json.sortKeys] at heq

theorem admits_default {n : Nat} {v : Json} (hv : Tidy n v) (hcarried : Carried v) (st : Style) :
    Admits defaultHooks st v := by
  intro w hw
  cases w with
  | int k =>
    change (pyInt (intRepr k)).map Json.int = .ok (.int k)
    rw [pyInt_intRepr (hcarried.ints k hw)]
    rfl
  | float x => exact absurd hw (hv.plain.2 x)
  | str s => exact fun _ => hcarried.texts s hw
  | obj fields =>
    change Except.ok (Json.obj (dictOfPairs fields)) = .ok (.obj fields)
    rw [dictOfPairs_nodup (hv.unique fields hw)]
  | null => trivial
  | bool b => trivial
  | arr items => trivial

/-! ## The document -/

def textOrNull : Option Str → Json
  | none => .null
  | some text => .str text

def texts (values : List Str) : Json := .arr (values.map .str)

def RepositoryRef.json (ref : RepositoryRef) : Json :=
  .obj [(u "url", textOrNull ref.url), (u "source", textOrNull ref.source), (u "id", textOrNull ref.id)]

def PackageRef.json (ref : PackageRef) : Json :=
  .obj
    [(u "registry_type", .str ref.registryType), (u "identifier", textOrNull ref.identifier),
      (u "version", textOrNull ref.version), (u "transport", textOrNull ref.transport),
      (u "runtime_hint", textOrNull ref.runtimeHint), (u "file_sha256", textOrNull ref.fileSha256),
      (u "exact_version", .bool ref.exactVersion)]

def RemoteRef.fields (ref : RemoteRef) : Dict :=
  [(u "url", textOrNull ref.url), (u "normalized_url", textOrNull ref.normalizedUrl),
    (u "transport", textOrNull ref.transport)]

def RemoteRef.json (ref : RemoteRef) : Json := .obj ref.fields

def flagOrNull : Option Bool → Json
  | none => .null
  | some b => .bool b

def caveats : List String :=
  ["Registry metadata does not declare actual runtime tool surfaces.",
    "A danger grade requires controlled MCPAudit tool enumeration.",
    "Environment variable names are metadata only; values must never enter the catalog.",
    "Tool annotations, if later observed, remain hints rather than enforcement."]

def Candidate.fields (c : Candidate) : Dict :=
  [(u "stable_id", .str c.stableId), (u "registry_name", .str c.registryName), (u "title", .str c.title),
    (u "description", .str c.description), (u "version", textOrNull c.version),
    (u "registry_status", .str c.registryStatus), (u "is_latest", flagOrNull c.isLatest),
    (u "published_at", textOrNull c.publishedAt), (u "updated_at", textOrNull c.updatedAt),
    (u "freshness", .str (u c.freshness.text)), (u "timestamp_in_future", .bool c.timestampInFuture),
    (u "recommended_mode", .str (u c.recommendedMode.text)),
    (u "eligible_for_first_live_batch", .bool c.eligibleForFirstLiveBatch),
    (u "selected_for_first_batch", .bool c.selectedForFirstBatch), (u "repository", c.repository.json),
    (u "package_refs", .arr (c.packageRefs.map PackageRef.json)),
    (u "remote_refs", .arr (c.remoteRefs.map RemoteRef.json)), (u "env_key_names", texts c.env.envKeyNames),
    (u "secret_env_key_names", texts c.env.secretEnvKeyNames),
    (u "required_secret_keys", texts c.env.requiredSecretKeys),
    (u "invalid_env_key_count", .int c.env.invalidEnvKeyCount), (u "dedupe_keys", texts c.dedupeKeys),
    (u "reasons", texts c.reasons), (u "caveats", texts (caveats.map u))]

def Candidate.json (c : Candidate) : Json := .obj c.fields

def tally (counts : List (Str × Nat)) : Json := .obj (counts.map fun entry => (entry.1, .int entry.2))

def ManifestCounts.json (counts : ManifestCounts) : Json :=
  .obj
    [(u "candidates", .int counts.candidates), (u "eligible_for_first_live_batch", .int counts.eligibleForFirstLiveBatch),
      (u "selected_for_first_batch", .int counts.selectedForFirstBatch), (u "modes", tally counts.modes),
      (u "registry_statuses", tally counts.registryStatuses), (u "freshness", tally counts.freshness)]

def notice : String :=
  "Dry-run only. Registry metadata is discovery/staleness input, not a " ++
  "tool-surface scan. This manifest does not launch servers, contact MCP " ++
  "endpoints, install packages, authenticate, mutate catalog data, or " ++
  "assign danger grades."

def docs : List String :=
  ["https://modelcontextprotocol.io/registry/about",
    "https://raw.githubusercontent.com/modelcontextprotocol/registry/main/docs/reference/api/openapi.yaml",
    "https://raw.githubusercontent.com/modelcontextprotocol/registry/main/docs/reference/server-json/server.schema.json"]

def firstBatchRequires : List String :=
  ["registry status is active", "registry entry is latest when isLatest metadata is present",
    "no required secret environment variables", "a package reference with an exact version",
    "a public repository or source reference", "mode is no-auth-sandboxed"]

def neverInfers : List String :=
  ["runtime tools", "tool input schemas", "tool annotations", "prompt/resource surfaces", "danger grades"]

def CandidateManifest.source (m : CandidateManifest) : Dict :=
  [(u "kind", .str (u "official-mcp-registry-export")), (u "input_servers", .int m.inputServers),
    (u "docs", texts (docs.map u))]

def CandidateManifest.policy (m : CandidateManifest) : Dict :=
  [(u "first_batch_limit", .int m.firstBatchLimit), (u "first_batch_requires", texts (firstBatchRequires.map u)),
    (u "never_infers", texts (neverInfers.map u))]

def CandidateManifest.fields (m : CandidateManifest) : Dict :=
  [(u "format_version", .int 1), (u "notice", .str (u notice)), (u "generated_at", .str m.generatedAt),
    (u "source", .obj m.source), (u "selection_policy", .obj m.policy), (u "counts", m.counts.json),
    (u "candidates", .arr (m.candidates.map Candidate.json))]

def CandidateManifest.json (m : CandidateManifest) : Json := .obj m.fields

/-- `json.dumps(manifest, indent=2, sort_keys=True)`. -/
def manifestStyle : Style where
  ensureAscii := true
  indent := some 2
  itemPad := false
  keyPad := true
  sortKeys := true

/-- What `print` writes; the text is ASCII. -/
def CandidateManifest.printed (m : CandidateManifest) : Bytes :=
  (dumps manifestStyle m.json ++ [ch '\n']).flatMap encodeCodePoint

/-! ## Reading the document back -/

theorem tidy_textOrNull (n : Nat) (text : Option Str) : Tidy n (textOrNull text) := by
  cases text with
  | none => exact tidy_null n
  | some text => exact tidy_str n text

theorem tidy_texts (n : Nat) (values : List Str) : Tidy (n + 1) (texts values) := by
  apply tidy_arr
  intro v hv
  obtain ⟨text, -, rfl⟩ := List.mem_map.mp hv
  exact tidy_str n text

theorem tidy_flagOrNull (n : Nat) (flag : Option Bool) : Tidy n (flagOrNull flag) := by
  cases flag with
  | none => exact tidy_null n
  | some b => exact tidy_bool n b

theorem RepositoryRef.tidy (ref : RepositoryRef) (n : Nat) : Tidy (n + 1) ref.json := by
  apply tidy_obj
  · simp only [Dict.keys, List.map_cons, List.map_nil]
    decide
  · simp [tidy_textOrNull]

theorem PackageRef.tidy (ref : PackageRef) (n : Nat) : Tidy (n + 1) ref.json := by
  apply tidy_obj
  · simp only [Dict.keys, List.map_cons, List.map_nil]
    decide
  · simp [tidy_textOrNull]

theorem RemoteRef.keys_nodup (ref : RemoteRef) : (Dict.keys ref.fields).Nodup := by
  simp only [RemoteRef.fields, Dict.keys, List.map_cons, List.map_nil]
  decide

theorem RemoteRef.tidy (ref : RemoteRef) (n : Nat) : Tidy (n + 1) ref.json := by
  apply tidy_obj ref.keys_nodup
  simp [RemoteRef.fields, tidy_textOrNull]

theorem tidy_map {α : Type} {n : Nat} {values : List α} {f : α → Json} (h : ∀ a, Tidy n (f a)) :
    Tidy (n + 1) (.arr (values.map f)) := by
  apply tidy_arr
  intro v hv
  obtain ⟨a, -, rfl⟩ := List.mem_map.mp hv
  exact h a

theorem Candidate.keys_nodup (c : Candidate) : (Dict.keys c.fields).Nodup := by
  simp only [Candidate.fields, Dict.keys, List.map_cons, List.map_nil]
  decide

theorem Candidate.tidy (c : Candidate) (n : Nat) : Tidy (n + 3) c.json := by
  apply tidy_obj c.keys_nodup
  simp [Candidate.fields, tidy_textOrNull, tidy_flagOrNull, tidy_texts, RepositoryRef.tidy, tidy_map, PackageRef.tidy,
    RemoteRef.tidy]

theorem tidy_counter (n : Nat) (values : List Str) : Tidy (n + 1) (tally (counter values)) := by
  apply tidy_obj
  · unfold Dict.keys counter
    rw [List.map_map, List.map_map]
    exact (List.map_id (sortedSet values)).symm ▸ sortedSet_nodup values
  · intro kv hkv
    obtain ⟨entry, -, rfl⟩ := List.mem_map.mp hkv
    exact tidy_int n entry.2

theorem tidy_counts (n : Nat) (candidates : List Candidate) : Tidy (n + 2) (manifestCounts candidates).json := by
  apply tidy_obj
  · simp only [Dict.keys, List.map_cons, List.map_nil]
    decide
  · simp [manifestCounts, tidy_counter]

theorem CandidateManifest.keys_nodup (m : CandidateManifest) : (Dict.keys m.fields).Nodup := by
  simp only [CandidateManifest.fields, Dict.keys, List.map_cons, List.map_nil]
  decide

theorem CandidateManifest.source_nodup (m : CandidateManifest) : (Dict.keys m.source).Nodup := by
  simp only [CandidateManifest.source, Dict.keys, List.map_cons, List.map_nil]
  decide

theorem CandidateManifest.policy_nodup (m : CandidateManifest) : (Dict.keys m.policy).Nodup := by
  simp only [CandidateManifest.policy, Dict.keys, List.map_cons, List.map_nil]
  decide

theorem CandidateManifest.tidy {m : CandidateManifest} (hcounts : m.counts = manifestCounts m.candidates) :
    Tidy 5 m.json := by
  have hsource : Tidy 4 (.obj m.source) := by
    apply tidy_obj m.source_nodup
    simp [CandidateManifest.source, tidy_texts]
  have hpolicy : Tidy 4 (.obj m.policy) := by
    apply tidy_obj m.policy_nodup
    simp [CandidateManifest.policy, tidy_texts]
  have hcandidates : Tidy 4 (.arr (m.candidates.map Candidate.json)) := tidy_map fun c => c.tidy 0
  apply tidy_obj m.keys_nodup
  simp [CandidateManifest.fields, hsource, hpolicy, hcandidates, hcounts, tidy_counts]

/-! ## What the planner emits -/

theorem stableId_ne_nil {lib : Library} {name : Str} {version : Option Str} {id : Str}
    (h : stableId lib name version = .ok id) : id ≠ [] := by
  unfold stableId at h
  dsimp only at h
  split_ifs at h with hstripped
  · obtain ⟨bytes, -, h⟩ := bind_eq_ok.mp h
    cases h
    simp
  · obtain ⟨bytes, -, h⟩ := bind_eq_ok.mp h
    cases h
    simp
  · cases h
    decide
  · cases h
    assumption

theorem remoteRef_normalized {lib : Library} {remote : Dict} {ref : RemoteRef} (h : remoteRef lib remote = .ok ref)
    {url : Str} (hurl : ref.url = some url) : ∃ normal, normalizeUrl lib url = .ok normal ∧ ref.normalizedUrl = some normal := by
  unfold remoteRef at h
  dsimp only at h
  obtain ⟨normalized, hnormalized, h⟩ := bind_eq_ok.mp h
  cases h
  dsimp only at hurl
  rw [hurl] at hnormalized
  cases hnormal : normalizeUrl lib url with
  | error e =>
    rw [Option.mapM_some, hnormal] at hnormalized
    cases hnormalized
  | ok normal =>
    rw [Option.mapM_some, hnormal] at hnormalized
    cases hnormalized
    exact ⟨normal, rfl, rfl⟩

/-- What holds of every candidate of a manifest. -/
structure Emitted (lib : Library) (c : Candidate) : Prop where
  id : c.stableId ≠ []
  remote : ∀ ref ∈ c.remoteRefs, ∀ url, ref.url = some url →
    ∃ normal, normalizeUrl lib url = .ok normal ∧ ref.normalizedUrl = some normal

theorem candidateFromServer_emitted {lib : Library} {time : DateTime} {server : Dict} {c : Candidate}
    (h : candidateFromServer lib time server = .ok c) : Emitted lib c := by
  unfold candidateFromServer at h
  dsimp only at h
  obtain ⟨freshState, -, h⟩ := bind_eq_ok.mp h
  obtain ⟨inFuture, -, h⟩ := bind_eq_ok.mp h
  obtain ⟨remoteRefs, hrefs, h⟩ := bind_eq_ok.mp h
  obtain ⟨keys, -, h⟩ := bind_eq_ok.mp h
  obtain ⟨id, hid, h⟩ := bind_eq_ok.mp h
  cases h
  refine ⟨stableId_ne_nil hid, ?_⟩
  intro ref href url hurl
  obtain ⟨remote, -, hremote⟩ := (mapM_ok_mem hrefs).mp href
  exact remoteRef_normalized hremote hurl

theorem build_emitted {lib : Library} {payload : Json} {generatedAt : DateTime} {limit : Nat} {m : CandidateManifest}
    (h : buildRegistryCandidateManifest lib payload generatedAt limit = .ok m) :
    m.counts = manifestCounts m.candidates ∧ ∀ c ∈ m.candidates, Emitted lib c := by
  unfold buildRegistryCandidateManifest at h
  obtain ⟨time, -, h⟩ := bind_eq_ok.mp h
  obtain ⟨servers, -, h⟩ := bind_eq_ok.mp h
  obtain ⟨planned, hplanned, h⟩ := bind_eq_ok.mp h
  cases h
  refine ⟨rfl, ?_⟩
  intro c hc
  obtain ⟨d, hd, rfl⟩ := List.mem_map.mp hc
  unfold plannedCandidates at hplanned
  obtain ⟨time', -, hplanned⟩ := bind_eq_ok.mp hplanned
  obtain ⟨servers', -, hplanned⟩ := bind_eq_ok.mp hplanned
  obtain ⟨candidates, hcandidates, hplanned⟩ := bind_eq_ok.mp hplanned
  cases hplanned
  obtain ⟨server, -, hserver⟩ := (mapM_ok_mem hcandidates).mp ((List.perm_insertionSort _ _).mem_iff.mp hd)
  have hemitted := candidateFromServer_emitted hserver
  exact ⟨hemitted.id, hemitted.remote⟩

end McpTrust.Corpus
