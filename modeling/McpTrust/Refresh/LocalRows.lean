import McpTrust.Engine.Scan
import McpTrust.Refresh.Policy
import McpTrust.Refresh.Bundle

/-! # Which rows run locally, and in which images

The inventory, the refresh, its verifier and the engine each decide whether a
row starts a local process; the preflight, the candidate and the verifier each
collect the images of those rows.
-/

namespace McpTrust.Refresh

set_option autoImplicit false

open Python Engine

/-! ## Sources of the seed -/

def readKind (v : Json) : Option SourceKind :=
  [SourceKind.npm, .pypi, .git, .binary, .remote].find? fun kind => v.isStr kind.text

/-- A `str` field; text with a lone surrogate is refused. -/
def readStr : Json → Option Str
  | .str s => if s.any isSurrogate then none else some s
  | _ => none

/-- A `str | None` field with the default `None`. -/
def readOptionalStr : Json → Option (Option Str)
  | .null => some none
  | v => (readStr v).map some

/-- A `list[str]` field with the default `[]`. -/
def readStrings (v : Option Json) : Option (List Str) :=
  match v with
  | none => some []
  | some (.arr items) => items.mapM readStr
  | some _ => none

/-- A `bool` field with the default `False`, read as pydantic reads it. -/
def readBool (v : Option Json) : Option Bool :=
  match v with
  | none => some false
  | some (.bool b) => some b
  | some (.int n) => if n = 0 then some false else if n = 1 then some true else none
  | some (.float x) =>
    if x.value? = some 0 then some false else if x.value? = some 1 then some true else none
  | some (.str s) =>
    if s.map lowerPoint ∈ ["0", "off", "f", "false", "n", "no"].map u then some false
    else if s.map lowerPoint ∈ ["1", "on", "t", "true", "y", "yes"].map u then some true
    else none
  | some _ => none

/-- `ServerSource.model_validate(value)`. -/
def validateSource : Json → Option ServerSource
  | .obj fields => do
    let kind ← readKind (Dict.get fields "kind")
    let reference ← readStr (Dict.get fields "reference")
    let command ← readOptionalStr (Dict.get fields "command")
    let args ← readStrings (Dict.lookup fields (u "args"))
    let envKeys ← readStrings (Dict.lookup fields (u "env_keys"))
    let sandboxImage ← readOptionalStr (Dict.get fields "sandbox_image")
    let trusted ← readBool (Dict.lookup fields (u "trusted"))
    if h : (∀ key ∈ envKeys, key.length ≤ 128 ∧ isCredentialName key = true) ∧ envKeys.Nodup then
      some
        { kind := kind
          reference := reference
          command := command
          args := args
          envKeys := envKeys
          sandboxImage := sandboxImage
          trusted := trusted
          envKeys_names := h.1
          envKeys_nodup := h.2 }
    else none
  | _ => none

/-- The source of a row of the seed. -/
def rowSource (row : Dict) : Option ServerSource := validateSource (Dict.get row "source")

/-! ## The predicates -/

/-- `_requires_local_sandbox(server)`. -/
def requiresLocalSandbox (source : ServerSource) : Bool :=
  !(decide (source.kind = .remote) && source.command.isNone)

/-- `_catalog_row_requires_local_sandbox(row)`. -/
def catalogRowRequiresLocalSandbox : Json → Bool
  | .obj row =>
    match Dict.get row "source" with
    | .obj source => !((Dict.get source "kind").isStr "remote" && (Dict.get source "command").isNull)
    | _ => true
  | _ => false

/-! ## The images -/

/-- `server.source.sandbox_image or default_image`. -/
def requestedImage (source : ServerSource) (default : Json) : Json :=
  match source.sandboxImage with
  | some (c :: s) => .str (c :: s)
  | _ => default

/-- `image_refs` of `build_preflight_receipt`, as the set it sorts. -/
def preflightImages (inventory : Inventory) : List Json :=
  (inventory.entries.filter fun row => row.scannable).filterMap fun row =>
    match row.sandboxImage with
    | .str s => some (.str s)
    | _ => none

/-- `_required_local_sandbox_images(servers, default_image=…)`, as the set it sorts. -/
def requiredLocalSandboxImages (servers : List ServerSource) (default : Json) : List Json :=
  let localServers := servers.filter requiresLocalSandbox
  localServers.map (fun source => requestedImage source default) ++
    if localServers = [] then [] else [default]

/-- `verified_local_profile_images` once every one of the servers has a valid scan. -/
def verifiedLocalProfileImages (servers : List ServerSource) (default : Json) : List Json :=
  (servers.filter requiresLocalSandbox).filterMap fun source =>
    match requestedImage source default with
    | .str s => some (.str s)
    | _ => none

/-! ## What a loaded policy promises -/

section Loaded

variable {interp : Interpreter} {policyFile seedFile maskedFile : Option Bytes} {policy : RefreshPolicy}
  {seed : List Dict}

/-- The parts of an accepted policy that the inventory reads. -/
structure Loaded (policy : RefreshPolicy) (seed : List Dict) : Prop where
  slugs : ∃ slugs, catalogSlugs seed = some slugs
  sources : ∃ sources, Dict.get policy.raw "image_build_sources" = .obj sources ∧
    ∀ kv ∈ sources, ∃ fields, kv.2 = .obj fields
  refs : ∀ ref ∈ seed.filterMap (imageRef (Dict.get policy.raw "default_sandbox_image")),
    ∃ name, ref = .str name

theorem require_ok {c : Bool} {message : String} {a : Unit} : require c message = .ok a ↔ c = true := by
  cases c <;> simp [require]

theorem orRefuse_ok {α : Type} {x : Option α} {message : String} {a : α} :
    orRefuse x message = .ok a ↔ x = some a := by
  cases x <;> simp [orRefuse]

theorem allDescriptors_obj {values : List Json} (h : allDescriptors values = .ok true) :
    ∀ v ∈ values, ∃ fields, v = .obj fields := by
  induction values with
  | nil =>
    intro v hv
    cases hv
  | cons first rest ih =>
    obtain ⟨valid, hvalid, h⟩ := bind_eq_ok.mp h
    cases valid with
    | false => cases h
    | true =>
      rw [List.forall_mem_cons]
      refine ⟨?_, ih h⟩
      cases first
      case obj fields => exact ⟨fields, rfl⟩
      all_goals cases hvalid

theorem sameReferences_str {sources : Dict} {refs : List Json} (h : sameReferences sources refs = true) :
    ∀ ref ∈ refs, ∃ name, ref = .str name := by
  intro ref href
  have hall := (Bool.and_eq_true_iff.mp h).2
  obtain ⟨key, -, heq⟩ := List.any_eq_true.mp (List.all_eq_true.mp hall ref href)
  exact ⟨key, Json.pyEq_str.mp heq⟩

theorem requireImageBuildSources_ok {raw : Dict} {refs : List Json} {a : Unit}
    (h : requireImageBuildSources raw refs = .ok a) :
    (∃ sources, Dict.get raw "image_build_sources" = .obj sources ∧
      ∀ kv ∈ sources, ∃ fields, kv.2 = .obj fields) ∧ ∀ ref ∈ refs, ∃ name, ref = .str name := by
  unfold requireImageBuildSources at h
  cases hsources : Dict.get raw "image_build_sources"
  case obj sources =>
    simp only [hsources] at h
    by_cases hsame : sameReferences sources refs = true
    · rw [if_pos hsame] at h
      obtain ⟨valid, hvalid, h⟩ := bind_eq_ok.mp h
      cases valid with
      | false => cases h
      | true =>
        refine ⟨⟨sources, rfl, fun kv hkv => ?_⟩, sameReferences_str hsame⟩
        exact allDescriptors_obj hvalid kv.2 (List.mem_map_of_mem hkv)
    · rw [if_neg hsame] at h
      cases h
  all_goals
    rw [hsources] at h
    cases h

theorem readFields_raw {raw : Dict} (h : readFields raw = .ok policy) : policy.raw = raw := by
  rw [readFields] at h
  obtain ⟨_, -, h⟩ := bind_eq_ok.mp h
  obtain ⟨_, -, h⟩ := bind_eq_ok.mp h
  obtain ⟨_, -, h⟩ := bind_eq_ok.mp h
  obtain ⟨_, -, h⟩ := bind_eq_ok.mp h
  obtain ⟨_, -, h⟩ := bind_eq_ok.mp h
  obtain ⟨_, -, h⟩ := bind_eq_ok.mp h
  cases h
  rfl

theorem loaded_of_checkPolicy {policyValue seedValue maskedValue : Json}
    (h : checkPolicy policyValue seedValue maskedValue = .ok policy) :
    ∃ seed, objectRows seedValue = some seed ∧ Loaded policy seed := by
  rw [checkPolicy] at h
  obtain ⟨raw, -, h⟩ := bind_eq_ok.mp h
  obtain ⟨seed, hseed, h⟩ := bind_eq_ok.mp h
  obtain ⟨masked, -, h⟩ := bind_eq_ok.mp h
  obtain ⟨_, -, h⟩ := bind_eq_ok.mp h
  obtain ⟨slugs, hslugs, h⟩ := bind_eq_ok.mp h
  obtain ⟨_, -, h⟩ := bind_eq_ok.mp h
  obtain ⟨refs, hrefs, h⟩ := bind_eq_ok.mp h
  obtain ⟨_, hsources, h⟩ := bind_eq_ok.mp h
  obtain ⟨parsed, hparsed, h⟩ := bind_eq_ok.mp h
  obtain ⟨_, -, h⟩ := bind_eq_ok.mp h
  obtain ⟨_, -, h⟩ := bind_eq_ok.mp h
  obtain ⟨_, -, h⟩ := bind_eq_ok.mp h
  obtain ⟨_, -, h⟩ := bind_eq_ok.mp h
  cases h
  obtain ⟨hobj, hstr⟩ := requireImageBuildSources_ok hsources
  have hraw := readFields_raw hparsed
  refine ⟨seed, orRefuse_ok.mp hseed, ⟨slugs, orRefuse_ok.mp hslugs⟩, hraw.symm ▸ hobj, ?_⟩
  rw [hraw]
  unfold imageRefs at hrefs
  by_cases hhash : (seed.filterMap (imageRef (Dict.get raw "default_sandbox_image"))).all Json.hashable
  · simp only [if_pos hhash, Except.ok.injEq] at hrefs
    rw [hrefs]
    exact hstr
  · simp only [if_neg hhash] at hrefs
    cases hrefs

theorem loaded_of_loadPolicy {seedValue : Json}
    (hpolicy : loadPolicy interp policyFile seedFile maskedFile = .ok policy)
    (hseed : loadJson interp seedFile = .ok seedValue) :
    ∃ seed, objectRows seedValue = some seed ∧ Loaded policy seed := by
  rw [loadPolicy] at hpolicy
  obtain ⟨policyValue, -, hpolicy⟩ := bind_eq_ok.mp hpolicy
  obtain ⟨value, hvalue, hpolicy⟩ := bind_eq_ok.mp hpolicy
  obtain ⟨maskedValue, -, hpolicy⟩ := bind_eq_ok.mp hpolicy
  rw [hseed, Except.ok.injEq] at hvalue
  subst hvalue
  exact loaded_of_checkPolicy hpolicy

end Loaded

/-! ## Rows of the inventory -/

section Rows

variable {policy : RefreshPolicy} {seed : List Dict} {row source : Dict} {checked : ServerSource}

/-- The row has a source and its image can be looked up. -/
def Listed (policy : RefreshPolicy) (row : Dict) : Prop :=
  ∃ source, Dict.get row "source" = .obj source ∧
    (rowImage source (Dict.get policy.raw "default_sandbox_image")).hashable = true

theorem buildDescriptor_ok (h : Loaded policy seed) {image : Json} :
    (∃ descriptor, buildDescriptor policy image = .ok descriptor) ↔ image.hashable = true := by
  obtain ⟨sources, hsources, hobj⟩ := h.sources
  unfold buildDescriptor
  by_cases hhash : image.hashable = true
  · rw [if_pos hhash]
    apply (iff_true_right hhash).mpr
    simp only [hsources]
    cases image with
    | str name =>
      cases hfind : Dict.lookup sources name with
      | none =>
        simp only [hfind]
        exact ⟨[], rfl⟩
      | some value =>
        obtain ⟨fields, hfields⟩ := hobj _ (Dict.mem_of_lookup hfind)
        cases hfields
        simp only [hfind]
        exact ⟨fields, rfl⟩
    | _ => exact ⟨[], rfl⟩
  · rw [if_neg hhash]
    constructor
    · rintro ⟨_, h⟩
      cases h
    · intro h
      exact absurd h hhash

theorem inventoryEntry_ok (h : Loaded policy seed) {slug : Str} :
    (∃ entry, inventoryEntry policy slug row = .ok entry) ↔ Listed policy row := by
  unfold inventoryEntry Listed
  cases hsource : Dict.get row "source"
  case obj source =>
    constructor
    · rintro ⟨entry, hentry⟩
      obtain ⟨descriptor, hdescriptor, -⟩ := bind_eq_ok.mp hentry
      exact ⟨source, rfl, (buildDescriptor_ok h).mp ⟨descriptor, hdescriptor⟩⟩
    · rintro ⟨_, heq, hhash⟩
      cases heq
      obtain ⟨descriptor, hdescriptor⟩ := (buildDescriptor_ok h).mpr hhash
      simp only [hdescriptor]
      exact ⟨_, rfl⟩
  all_goals
    constructor
    · rintro ⟨_, hentry⟩
      cases hentry
    · rintro ⟨_, heq, -⟩
      cases heq

/-- What an entry takes from its row. -/
structure EntryOf (policy : RefreshPolicy) (name : Str) (source : Dict) (entry : InventoryEntry) : Prop where
  slug : entry.slug = name
  scannable : entry.scannable = decide (name ∈ policy.scannable)
  localProcess : entry.unsafeToExecuteUnsandboxed = inventoryLocal source
  image : entry.sandboxImage =
    ifLocal (inventoryLocal source) (rowImage source (Dict.get policy.raw "default_sandbox_image"))

theorem entryOf_ok {slug : Str} {entry : InventoryEntry}
    (h : inventoryEntry policy slug row = .ok entry) (hsource : Dict.get row "source" = .obj source) :
    EntryOf policy slug source entry := by
  simp only [inventoryEntry, hsource] at h
  obtain ⟨descriptor, -, h⟩ := bind_eq_ok.mp h
  cases h
  exact ⟨rfl, rfl, rfl, rfl⟩

theorem inventoryOf_ok (h : Loaded policy seed) :
    (∃ inventory, inventoryOf policy seed = .ok inventory) ↔ ∀ row ∈ seed, Listed policy row := by
  have hrows : (∃ entries, (sortedRows seed).mapM (fun raw => inventoryEntry policy (slugOf raw) raw) =
      .ok entries) ↔ ∀ row ∈ seed, Listed policy row := by
    rw [exists_mapM_ok]
    simp only [inventoryEntry_ok h, sortedRows, List.mem_insertionSort]
  rw [← hrows, inventoryOf]
  constructor
  · rintro ⟨_, hinventory⟩
    obtain ⟨entries, hentries, -⟩ := bind_eq_ok.mp hinventory
    exact ⟨entries, hentries⟩
  · rintro ⟨entries, hentries⟩
    exact ⟨_, bind_eq_ok.mpr ⟨entries, hentries, rfl⟩⟩

theorem mem_entries {inventory : Inventory} (h : inventoryOf policy seed = .ok inventory)
    {entry : InventoryEntry} :
    entry ∈ inventory.entries ↔ ∃ row ∈ seed, inventoryEntry policy (slugOf row) row = .ok entry := by
  rw [inventoryOf] at h
  obtain ⟨entries, hentries, h⟩ := bind_eq_ok.mp h
  cases h
  rw [mapM_ok_mem hentries]
  simp only [sortedRows, List.mem_insertionSort]

/-! ## Validated sources -/

theorem readKind_some {v : Json} {kind : SourceKind} (h : readKind v = some kind) :
    v = .str (u kind.text) := by
  have hfound := List.find?_some h
  exact Json.isStr_eq_true.mp hfound

def optionalJson : Option Str → Json
  | none => .null
  | some s => .str s

theorem readOptionalStr_some {v : Json} {s : Option Str} (h : readOptionalStr v = some s) :
    v = optionalJson s := by
  cases v
  case null =>
    cases h
    rfl
  case str t =>
    simp only [readOptionalStr, readStr] at h
    by_cases hs : t.any isSurrogate = true
    · rw [if_pos hs] at h
      cases h
    · rw [if_neg hs] at h
      cases h
      rfl
  all_goals cases h

/-- The columns a validated source keeps. -/
structure Validated (source : Dict) (checked : ServerSource) : Prop where
  kind : Dict.get source "kind" = .str (u checked.kind.text)
  command : readOptionalStr (Dict.get source "command") = some checked.command
  sandboxImage : readOptionalStr (Dict.get source "sandbox_image") = some checked.sandboxImage

theorem validated_of_rowSource (h : rowSource row = some checked) :
    ∃ source, Dict.get row "source" = .obj source ∧ Validated source checked := by
  rw [rowSource] at h
  cases hsource : Dict.get row "source"
  case obj source =>
    simp only [hsource, validateSource, Option.bind_eq_bind, Option.bind_eq_some_iff] at h
    obtain ⟨kind, hkind, _, -, command, hcommand, _, -, envKeys, -, image, himage, _, -, h⟩ := h
    by_cases hkeys : (∀ key ∈ envKeys, key.length ≤ 128 ∧ isCredentialName key = true) ∧ envKeys.Nodup
    · rw [dif_pos hkeys] at h
      cases h
      exact ⟨source, rfl, readKind_some hkind, hcommand, himage⟩
    · rw [dif_neg hkeys] at h
      cases h
  all_goals
    rw [hsource] at h
    cases h

theorem Validated.inventoryLocal (h : Validated source checked) :
    inventoryLocal source = checked.command.isSome := by
  unfold Refresh.inventoryLocal
  rw [readOptionalStr_some h.command]
  cases checked.command <;> rfl

theorem Validated.isRemote (h : Validated source checked) :
    (Dict.get source "kind").isStr "remote" = decide (checked.kind = .remote) := by
  rw [h.kind]
  cases checked.kind <;> decide

theorem Validated.catalogRow (h : Validated source checked) (hsource : Dict.get row "source" = .obj source) :
    catalogRowRequiresLocalSandbox (.obj row) = requiresLocalSandbox checked := by
  have hnull : (Dict.get source "command").isNull = checked.command.isNone := by
    rw [readOptionalStr_some h.command]
    cases checked.command <;> rfl
  simp only [catalogRowRequiresLocalSandbox, hsource, requiresLocalSandbox, h.isRemote, hnull]

theorem Validated.rowImage (h : Validated source checked) (default : Json) :
    rowImage source default = requestedImage checked default := by
  rw [Refresh.rowImage, readOptionalStr_some h.sandboxImage, requestedImage, orElse]
  match checked.sandboxImage with
  | none => rfl
  | some [] => rfl
  | some (c :: s) => rfl

end Rows

/-! ## One answer -/

section Answer

variable {policy : RefreshPolicy} {seed : List Dict} {inventory : Inventory} {source : ServerSource}

def scannableRows (policy : RefreshPolicy) (seed : List Dict) : List Dict :=
  seed.filter fun row => decide (slugOf row ∈ policy.scannable)

/-- The validated sources of the scannable rows. -/
def scannableSources (policy : RefreshPolicy) (seed : List Dict) : List ServerSource :=
  (scannableRows policy seed).filterMap rowSource

/-- The default image of the policy, `None` where it has none. -/
def defaultImage (policy : RefreshPolicy) : Json := Dict.get policy.raw "default_sandbox_image"

/-- The inventory, the refresh, its verifier and the engine agree on a row. -/
def RowAgrees (inventory : Inventory) (row : Dict) (source : ServerSource) : Prop :=
  ∃ entry ∈ inventory.entries, entry.slug = slugOf row ∧
    entry.unsafeToExecuteUnsandboxed = requiresLocalSandbox source ∧
    catalogRowRequiresLocalSandbox (.obj row) = requiresLocalSandbox source ∧
    source.launchesLocalProcess = requiresLocalSandbox source

/-- The preflight, the candidate and its verifier collect the same images. -/
def ImagesAgree (policy : RefreshPolicy) (seed : List Dict) (inventory : Inventory) : Prop :=
  ∀ image,
    (image ∈ preflightImages inventory ↔
      image ∈ requiredLocalSandboxImages (scannableSources policy seed) (defaultImage policy)) ∧
    (image ∈ requiredLocalSandboxImages (scannableSources policy seed) (defaultImage policy) ↔
      image ∈ verifiedLocalProfileImages (scannableSources policy seed) (defaultImage policy))

structure OneAnswer (policy : RefreshPolicy) (seed : List Dict) (inventory : Inventory) : Prop where
  rows : ∀ row ∈ scannableRows policy seed, ∀ source, rowSource row = some source →
    RowAgrees inventory row source
  images : ImagesAgree policy seed inventory

/-- A remote source has no empty command, and every other source has a command. -/
def CommandGiven (source : ServerSource) : Prop :=
  (source.kind = .remote → source.command ≠ some []) ∧ (source.kind ≠ .remote → source.command ≠ none)

/-- No scannable row has a command, or one that has runs in the default image. -/
def DefaultUsed (policy : RefreshPolicy) (sources : List ServerSource) : Prop :=
  (∀ source ∈ sources, source.command = none) ∨
    ∃ source ∈ sources, source.command ≠ none ∧
      requestedImage source (defaultImage policy) = defaultImage policy

structure Uniform (policy : RefreshPolicy) (seed : List Dict) : Prop where
  listed : ∀ row ∈ seed, Listed policy row
  given : ∀ source ∈ scannableSources policy seed, CommandGiven source
  defaultUsed : DefaultUsed policy (scannableSources policy seed)

theorem requiresLocalSandbox_iff : requiresLocalSandbox source = true ↔
    (source.kind = .remote → source.command ≠ none) := by
  simp only [requiresLocalSandbox, Bool.not_eq_true', Bool.and_eq_false_imp, decide_eq_true_eq,
    Option.isNone_eq_false_iff, Option.isSome_iff_ne_none]

theorem launchesLocalProcess_iff : source.launchesLocalProcess = true ↔
    (source.kind = .remote → source.command ≠ none ∧ source.command ≠ some []) := by
  simp only [ServerSource.launchesLocalProcess, ServerSource.givenCommand, Bool.not_eq_true',
    Bool.and_eq_false_imp, decide_eq_true_eq, decide_eq_false_iff_not, Option.filter_eq_none_iff,
    not_forall, exists_prop, not_not]
  refine imp_congr_right fun _ => ?_
  cases source.command with
  | none => simp
  | some command => simp

/-- The predicates of one row agree exactly when its command is given. -/
theorem commandGiven_iff : CommandGiven source ↔
    source.command.isSome = requiresLocalSandbox source ∧
      source.launchesLocalProcess = requiresLocalSandbox source := by
  rw [@Bool.eq_iff_iff source.command.isSome, @Bool.eq_iff_iff source.launchesLocalProcess,
    requiresLocalSandbox_iff, launchesLocalProcess_iff, Option.isSome_iff_ne_none, CommandGiven]
  by_cases hremote : source.kind = .remote
  · cases source.command with
    | none => simp [hremote]
    | some command => cases command <;> simp [hremote]
  · simp [hremote]

theorem CommandGiven.local_iff (h : CommandGiven source) :
    requiresLocalSandbox source = true ↔ source.command ≠ none := by
  rw [← (commandGiven_iff.mp h).1, Option.isSome_iff_ne_none]

theorem mem_scannableSources : source ∈ scannableSources policy seed ↔
    ∃ row ∈ scannableRows policy seed, rowSource row = some source := by
  rw [scannableSources, List.mem_filterMap]

theorem mem_scannableRows {row : Dict} : row ∈ scannableRows policy seed ↔
    row ∈ seed ∧ slugOf row ∈ policy.scannable := by
  rw [scannableRows, List.mem_filter, decide_eq_true_eq]

theorem mem_required {sources : List ServerSource} {default image : Json} :
    image ∈ requiredLocalSandboxImages sources default ↔
      ∃ source ∈ sources, requiresLocalSandbox source = true ∧
        (requestedImage source default = image ∨ default = image) := by
  unfold requiredLocalSandboxImages
  by_cases hnil : sources.filter requiresLocalSandbox = []
  · simp only [hnil, List.map_nil, List.nil_append, if_true, List.not_mem_nil, false_iff]
    rintro ⟨source, hsource, hlocal, -⟩
    exact List.filter_eq_nil_iff.mp hnil source hsource hlocal
  · obtain ⟨first, hfirst⟩ := List.exists_mem_of_ne_nil _ hnil
    rw [List.mem_filter] at hfirst
    simp only [if_neg hnil, List.mem_append, List.mem_map, List.mem_filter, List.mem_singleton]
    constructor
    · rintro (⟨source, ⟨hsource, hlocal⟩, himage⟩ | himage)
      · exact ⟨source, hsource, hlocal, .inl himage⟩
      · exact ⟨first, hfirst.1, hfirst.2, .inr himage.symm⟩
    · rintro ⟨source, hsource, hlocal, himage | himage⟩
      · exact .inl ⟨source, ⟨hsource, hlocal⟩, himage⟩
      · exact .inr himage.symm

theorem mem_verified {sources : List ServerSource} {default image : Json} :
    image ∈ verifiedLocalProfileImages sources default ↔
      ∃ source ∈ sources, requiresLocalSandbox source = true ∧
        requestedImage source default = image ∧ ∃ name, image = .str name := by
  simp only [verifiedLocalProfileImages, List.mem_filterMap, List.mem_filter]
  constructor
  · rintro ⟨source, ⟨hsource, hlocal⟩, himage⟩
    cases hrequested : requestedImage source default
    case str name =>
      rw [hrequested] at himage
      cases himage
      exact ⟨source, hsource, hlocal, hrequested, name, rfl⟩
    all_goals
      rw [hrequested] at himage
      cases himage
  · rintro ⟨source, hsource, hlocal, himage, name, rfl⟩
    refine ⟨source, ⟨hsource, hlocal⟩, ?_⟩
    rw [himage]

/-- A scannable row, its source and its entry. -/
theorem entry_of_row (hloaded : Loaded policy seed) (hinventory : inventoryOf policy seed = .ok inventory)
    {row : Dict} (hrow : row ∈ scannableRows policy seed) (hsource : rowSource row = some source) :
    ∃ entry ∈ inventory.entries, entry.slug = slugOf row ∧ entry.scannable = true ∧
      entry.unsafeToExecuteUnsandboxed = source.command.isSome ∧
      entry.sandboxImage = ifLocal source.command.isSome (requestedImage source (defaultImage policy)) := by
  obtain ⟨hseed, hscannable⟩ := mem_scannableRows.mp hrow
  have hlisted := (inventoryOf_ok hloaded).mp ⟨inventory, hinventory⟩ row hseed
  obtain ⟨entry, hentry⟩ : ∃ entry, inventoryEntry policy (slugOf row) row = .ok entry :=
    (inventoryEntry_ok hloaded).mpr hlisted
  obtain ⟨fields, hfields, hvalidated⟩ := validated_of_rowSource hsource
  have hof := entryOf_ok hentry hfields
  refine ⟨entry, (mem_entries hinventory).mpr ⟨row, hseed, hentry⟩, hof.slug, ?_, ?_, ?_⟩
  · rw [hof.scannable, decide_eq_true hscannable]
  · rw [hof.localProcess, hvalidated.inventoryLocal]
  · rw [hof.image, hvalidated.inventoryLocal, hvalidated.rowImage]
    rfl

/-- A scannable entry comes from a scannable row. -/
theorem row_of_entry (hinventory : inventoryOf policy seed = .ok inventory)
    (hvalid : ∀ row ∈ scannableRows policy seed, ∃ source, rowSource row = some source)
    {entry : InventoryEntry} (hentry : entry ∈ inventory.entries) (hscannable : entry.scannable = true) :
    ∃ source ∈ scannableSources policy seed, entry.sandboxImage =
      ifLocal source.command.isSome (requestedImage source (defaultImage policy)) := by
  obtain ⟨row, hseed, hok⟩ := (mem_entries hinventory).mp hentry
  have hrow : row ∈ scannableRows policy seed := by
    cases hget : Dict.get row "source"
    case obj fields =>
      have hof := entryOf_ok hok hget
      rw [hof.scannable, decide_eq_true_eq] at hscannable
      exact mem_scannableRows.mpr ⟨hseed, hscannable⟩
    all_goals
      rw [inventoryEntry, hget] at hok
      cases hok
  obtain ⟨source, hsource⟩ := hvalid row hrow
  obtain ⟨fields, hfields, hvalidated⟩ := validated_of_rowSource hsource
  have hof := entryOf_ok hok hfields
  refine ⟨source, mem_scannableSources.mpr ⟨row, hrow, hsource⟩, ?_⟩
  rw [hof.image, hvalidated.inventoryLocal, hvalidated.rowImage]
  rfl

theorem mem_preflight (hloaded : Loaded policy seed) (hinventory : inventoryOf policy seed = .ok inventory)
    (hvalid : ∀ row ∈ scannableRows policy seed, ∃ source, rowSource row = some source) {image : Json} :
    image ∈ preflightImages inventory ↔ ∃ source ∈ scannableSources policy seed,
      source.command ≠ none ∧ requestedImage source (defaultImage policy) = image ∧
        ∃ name, image = .str name := by
  simp only [preflightImages, List.mem_filterMap, List.mem_filter]
  constructor
  · rintro ⟨entry, ⟨hentry, hscannable⟩, himage⟩
    obtain ⟨source, hsource, heq⟩ := row_of_entry hinventory hvalid hentry hscannable
    refine ⟨source, hsource, ?_⟩
    rw [heq] at himage
    cases hcommand : source.command with
    | none =>
      rw [hcommand] at himage
      cases himage
    | some command =>
      rw [hcommand] at himage
      cases hrequested : requestedImage source (defaultImage policy)
      case str name =>
        rw [hrequested] at himage
        cases himage
        exact ⟨Option.some_ne_none _, rfl, name, rfl⟩
      all_goals
        rw [hrequested] at himage
        cases himage
  · rintro ⟨source, hsource, hcommand, himage, name, rfl⟩
    obtain ⟨row, hrow, hrowSource⟩ := mem_scannableSources.mp hsource
    obtain ⟨entry, hentry, -, hscannable, -, heq⟩ :=
      entry_of_row hloaded hinventory hrow hrowSource
    refine ⟨entry, ⟨hentry, hscannable⟩, ?_⟩
    rw [heq, Option.isSome_iff_ne_none.mpr hcommand, himage]
    rfl

/-- A scannable row with a command names its image, or the default is a name. -/
theorem requested_str (hloaded : Loaded policy seed) (hsource : source ∈ scannableSources policy seed)
    (hcommand : source.command ≠ none) :
    ∃ name, requestedImage source (defaultImage policy) = .str name := by
  obtain ⟨row, hrow, hrowSource⟩ := mem_scannableSources.mp hsource
  obtain ⟨fields, hfields, hvalidated⟩ := validated_of_rowSource hrowSource
  have hgiven : (Dict.get fields "command").isNull = false := by
    rw [readOptionalStr_some hvalidated.command]
    cases hc : source.command with
    | none => exact absurd hc hcommand
    | some command => rfl
  have href : imageRef (Dict.get policy.raw "default_sandbox_image") row =
      some (rowImage fields (Dict.get policy.raw "default_sandbox_image")) := by
    simp only [imageRef, hfields, hgiven, Bool.false_eq_true, if_false]
  have hmem := List.mem_filterMap.mpr ⟨row, (mem_scannableRows.mp hrow).1, href⟩
  obtain ⟨name, hname⟩ := hloaded.refs _ hmem
  rw [hvalidated.rowImage] at hname
  exact ⟨name, hname⟩

theorem imagesAgree_iff (hloaded : Loaded policy seed) (hinventory : inventoryOf policy seed = .ok inventory)
    (hvalid : ∀ row ∈ scannableRows policy seed, ∃ source, rowSource row = some source)
    (hgiven : ∀ source ∈ scannableSources policy seed, CommandGiven source) :
    ImagesAgree policy seed inventory ↔ DefaultUsed policy (scannableSources policy seed) := by
  constructor
  · intro himages
    by_cases hnone : ∀ source ∈ scannableSources policy seed, source.command = none
    · exact .inl hnone
    · simp only [not_forall, exists_prop] at hnone
      obtain ⟨source, hsource, hcommand⟩ := hnone
      have hlocal := (hgiven source hsource).local_iff.mpr hcommand
      have hdefault := (himages (defaultImage policy)).2.mp
        (mem_required.mpr ⟨source, hsource, hlocal, .inr rfl⟩)
      obtain ⟨user, huser, huserLocal, himage, -⟩ := mem_verified.mp hdefault
      exact .inr ⟨user, huser, (hgiven user huser).local_iff.mp huserLocal, himage⟩
  · intro hused image
    have hverified : image ∈ requiredLocalSandboxImages (scannableSources policy seed) (defaultImage policy) ↔
        ∃ source ∈ scannableSources policy seed, source.command ≠ none ∧
          requestedImage source (defaultImage policy) = image ∧ ∃ name, image = .str name := by
      rw [mem_required]
      constructor
      · rintro ⟨source, hsource, hlocal, rfl | rfl⟩
        · have hcommand := (hgiven source hsource).local_iff.mp hlocal
          exact ⟨source, hsource, hcommand, rfl, requested_str hloaded hsource hcommand⟩
        · have hcommand := (hgiven source hsource).local_iff.mp hlocal
          obtain hnone | ⟨user, huser, huserCommand, himage⟩ := hused
          · exact absurd (hnone source hsource) hcommand
          · have hname := requested_str hloaded huser huserCommand
            rw [himage] at hname
            exact ⟨user, huser, huserCommand, himage, hname⟩
      · rintro ⟨source, hsource, hcommand, himage, -⟩
        exact ⟨source, hsource, (hgiven source hsource).local_iff.mpr hcommand, .inl himage⟩
    refine ⟨(mem_preflight hloaded hinventory hvalid).trans hverified.symm, hverified.trans ?_⟩
    rw [mem_verified]
    refine exists_congr fun source => and_congr_right fun hsource => and_congr_left fun _ => ?_
    exact (hgiven source hsource).local_iff.symm

theorem mapM_eq_map {α β : Type} {f : α → Option β} {g : α → β} (hfg : ∀ a b, f a = some b → g a = b)
    {items : List α} {results : List β} (h : items.mapM f = some results) : results = items.map g := by
  induction items generalizing results with
  | nil =>
    cases h
    rfl
  | cons item items ih =>
    rw [List.mapM_cons, Option.bind_eq_bind, Option.bind_eq_some_iff] at h
    obtain ⟨result, hresult, h⟩ := h
    obtain ⟨rest, hrest, h⟩ := Option.bind_eq_some_iff.mp h
    cases h
    rw [List.map_cons, hfg item result hresult, ih hrest]

theorem Loaded.slugs_nodup (hloaded : Loaded policy seed) : (seed.map slugOf).Nodup := by
  obtain ⟨slugs, hslugs⟩ := hloaded.slugs
  rw [catalogSlugs, Option.filter_eq_some_iff] at hslugs
  obtain ⟨hmap, hnodup⟩ := hslugs
  have hslugOf : slugs = seed.map slugOf := by
    refine mapM_eq_map (fun row slug hslug => ?_) hmap
    unfold slugOf
    split at hslug
    case h_1 c s heq =>
      cases hslug
      rw [heq]
    case h_2 => cases hslug
  rw [← hslugOf]
  exact of_decide_eq_true hnodup

theorem rowAgrees_iff (hloaded : Loaded policy seed) (hinventory : inventoryOf policy seed = .ok inventory)
    {row : Dict} (hrow : row ∈ scannableRows policy seed) (hsource : rowSource row = some source) :
    RowAgrees inventory row source ↔ CommandGiven source := by
  obtain ⟨hseed, -⟩ := mem_scannableRows.mp hrow
  obtain ⟨fields, hfields, hvalidated⟩ := validated_of_rowSource hsource
  rw [commandGiven_iff]
  constructor
  · rintro ⟨entry, hentry, hslug, hprocess, -, hengine⟩
    obtain ⟨other, hother, hok⟩ := (mem_entries hinventory).mp hentry
    -- the slugs of an accepted seed are distinct, so the entry is the row's own
    obtain ⟨otherFields, hotherFields, -⟩ := (inventoryEntry_ok hloaded).mp ⟨entry, hok⟩
    have hsame : other = row :=
      List.inj_on_of_nodup_map hloaded.slugs_nodup hother hseed
        ((entryOf_ok hok hotherFields).slug.symm.trans hslug)
    subst hsame
    rw [(entryOf_ok hok hfields).localProcess, hvalidated.inventoryLocal] at hprocess
    exact ⟨hprocess, hengine⟩
  · rintro ⟨hprocess, hengine⟩
    obtain ⟨entry, hentry, hslug, -, hlocal, -⟩ := entry_of_row hloaded hinventory hrow hsource
    exact ⟨entry, hentry, hslug, hlocal.trans hprocess, hvalidated.catalogRow hfields, hengine⟩

theorem oneAnswer_iff (hloaded : Loaded policy seed)
    (hvalid : ∀ row ∈ scannableRows policy seed, ∃ source, rowSource row = some source) :
    (∃ inventory, inventoryOf policy seed = .ok inventory ∧ OneAnswer policy seed inventory) ↔
      Uniform policy seed := by
  constructor
  · rintro ⟨inventory, hinventory, hrows, himages⟩
    have hgiven : ∀ source ∈ scannableSources policy seed, CommandGiven source := by
      intro source hsource
      obtain ⟨row, hrow, hrowSource⟩ := mem_scannableSources.mp hsource
      exact (rowAgrees_iff hloaded hinventory hrow hrowSource).mp (hrows row hrow source hrowSource)
    exact ⟨(inventoryOf_ok hloaded).mp ⟨inventory, hinventory⟩, hgiven,
      (imagesAgree_iff hloaded hinventory hvalid hgiven).mp himages⟩
  · rintro ⟨hlisted, hgiven, hused⟩
    obtain ⟨inventory, hinventory⟩ := (inventoryOf_ok hloaded).mpr hlisted
    refine ⟨inventory, hinventory, fun row hrow source hsource => ?_,
      (imagesAgree_iff hloaded hinventory hvalid hgiven).mpr hused⟩
    exact (rowAgrees_iff hloaded hinventory hrow hsource).mpr
      (hgiven source (mem_scannableSources.mpr ⟨row, hrow, hsource⟩))

end Answer

theorem catalogInventory_eq {interp : Interpreter} {policyFile seedFile maskedFile : Option Bytes}
    {policy : RefreshPolicy} {seedValue : Json} {seed : List Dict}
    (hpolicy : loadPolicy interp policyFile seedFile maskedFile = .ok policy)
    (hseed : loadJson interp seedFile = .ok seedValue) (hrows : objectRows seedValue = some seed) :
    catalogInventory interp seedFile maskedFile policyFile = inventoryOf policy seed := by
  simp only [catalogInventory, hpolicy, hseed, bind, Except.bind, hrows]

/-- For an accepted policy the four predicates and the three image sets agree exactly when the
inventory can be built, commands are given as the kinds require and the default image is used. -/
theorem one_answer_iff {interp : Interpreter} {policyFile seedFile maskedFile : Option Bytes}
    {policy : RefreshPolicy} {seedValue : Json} {seed : List Dict}
    (hpolicy : loadPolicy interp policyFile seedFile maskedFile = .ok policy)
    (hseed : loadJson interp seedFile = .ok seedValue) (hrows : objectRows seedValue = some seed)
    (hvalid : ∀ row ∈ scannableRows policy seed, ∃ source, rowSource row = some source) :
    (∃ inventory, catalogInventory interp seedFile maskedFile policyFile = .ok inventory ∧
      OneAnswer policy seed inventory) ↔ Uniform policy seed := by
  obtain ⟨rows, hsame, hloaded⟩ := loaded_of_loadPolicy hpolicy hseed
  rw [hrows, Option.some.injEq] at hsame
  subst hsame
  rw [catalogInventory_eq hpolicy hseed hrows]
  exact oneAnswer_iff hloaded hvalid

/-! ## A catalog that leaves the default image unused -/

def asciiFile (text : String) : Option Bytes := some ((u text).map fun c => UInt8.ofNat c.val)

def customSeed : Option Bytes :=
  asciiFile ("[\x7b\"slug\":\"a\",\"source\":\x7b\"kind\":\"npm\",\"reference\":\"pkg\"," ++
    "\"command\":\"npx\",\"sandbox_image\":\"img\"\x7d\x7d]")

def customMasked : Option Bytes := asciiFile "[]"

def customPolicy : Option Bytes :=
  asciiFile ("\x7b\"schema\":\"McpTrustRefreshPolicyV2\",\"catalog_denominator\":1," ++
    "\"default_sandbox_image\":\"base\",\"image_build_sources\":\x7b\"img\":\x7b\"path\":\"Dockerfile\"," ++
    "\"provenance_status\":\"SOURCE_CONTROLLED\",\"reproducibility_status\":\"UNKNOWN\"," ++
    "\"qualification_receipt\":null\x7d\x7d,\"scannable\":[\"a\"],\"blocked\":[]," ++
    "\"intentionally_masked\":[],\"unsupported_upstream\":[],\"credential_dependent\":[]," ++
    "\"backing_service_dependent\":[],\"unsafe_to_execute_unsandboxed\":\"all-local-process-entries\"," ++
    "\"credential_policy\":\"dummy-values-network-off-only\",\"network_policy\":\"none\"," ++
    "\"freshness_objective_hours\":24,\"publication_review_required\":true\x7d")

def referenceInterpreter : Interpreter := ⟨1000, initialLimit_deep⟩

/-- One scannable row, with a command and an image of its own. -/
def isCustom (policy : RefreshPolicy) (seed : List Dict) : Bool :=
  (scannableRows policy seed).all (fun row => (rowSource row).isSome) &&
    (scannableSources policy seed).all (fun source =>
      source.command.isSome && (requestedImage source (defaultImage policy)).isStr "img") &&
    !(scannableSources policy seed).isEmpty && (defaultImage policy).isStr "base"

theorem custom_loads :
    (match loadPolicy referenceInterpreter customPolicy customSeed customMasked,
        loadJson referenceInterpreter customSeed with
      | .ok policy, .ok seedValue =>
        match objectRows seedValue with
        | some seed => isCustom policy seed
        | none => false
      | _, _ => false) = true := by decide +kernel

theorem exists_custom : ∃ policy seedValue seed,
    loadPolicy referenceInterpreter customPolicy customSeed customMasked = .ok policy ∧
      loadJson referenceInterpreter customSeed = .ok seedValue ∧ objectRows seedValue = some seed ∧
      isCustom policy seed = true := by
  have hloads := custom_loads
  split at hloads
  case h_1 policy seedValue hpolicy hseed =>
    split at hloads
    case h_1 seed hrows => exact ⟨policy, seedValue, seed, hpolicy, hseed, hrows, hloads⟩
    case h_2 => cases hloads
  case h_2 => cases hloads

section Custom

variable {policy : RefreshPolicy} {seed : List Dict}

theorem custom_valid (h : isCustom policy seed = true) :
    ∀ row ∈ scannableRows policy seed, ∃ source, rowSource row = some source := by
  simp only [isCustom, Bool.and_eq_true, List.all_eq_true] at h
  exact fun row hrow => Option.isSome_iff_exists.mp (h.1.1.1 row hrow)

theorem custom_not_uniform (h : isCustom policy seed = true) : ¬Uniform policy seed := by
  simp only [isCustom, Bool.and_eq_true, List.all_eq_true, Json.isStr_eq_true, Bool.not_eq_true',
    List.isEmpty_eq_false_iff] at h
  obtain ⟨⟨⟨-, hsources⟩, hne⟩, hdefault⟩ := h
  rintro ⟨-, -, hnone | ⟨source, hsource, -, himage⟩⟩
  · obtain ⟨source, hsource⟩ := List.exists_mem_of_ne_nil _ hne
    have hcommand := (hsources source hsource).1
    rw [hnone source hsource] at hcommand
    cases hcommand
  · rw [(hsources source hsource).2, hdefault, Json.str.injEq] at himage
    exact absurd himage (by decide)

end Custom

theorem one_answer_custom : ∃ policy seed,
    loadPolicy referenceInterpreter customPolicy customSeed customMasked = .ok policy ∧
      ((∃ inventory,
          catalogInventory referenceInterpreter customSeed customMasked customPolicy = .ok inventory ∧
          OneAnswer policy seed inventory) ↔ Uniform policy seed) := by
  obtain ⟨policy, seedValue, seed, hpolicy, hseed, hrows, hcustom⟩ := exists_custom
  exact ⟨policy, seed, hpolicy, one_answer_iff hpolicy hseed hrows (custom_valid hcustom)⟩

/-- The candidate asks for the default image as well, which no scan then shows. -/
theorem two_answers : ¬∀ (interp : Interpreter) (policyFile seedFile maskedFile : Option Bytes)
    (policy : RefreshPolicy) (seedValue : Json) (seed : List Dict),
    loadPolicy interp policyFile seedFile maskedFile = .ok policy →
    loadJson interp seedFile = .ok seedValue → objectRows seedValue = some seed →
    (∀ row ∈ scannableRows policy seed, ∃ source, rowSource row = some source) →
    ∃ inventory, catalogInventory interp seedFile maskedFile policyFile = .ok inventory ∧
      OneAnswer policy seed inventory := by
  intro hall
  obtain ⟨policy, seedValue, seed, hpolicy, hseed, hrows, hcustom⟩ := exists_custom
  have hanswer := hall referenceInterpreter customPolicy customSeed customMasked policy seedValue seed
    hpolicy hseed hrows (custom_valid hcustom)
  obtain ⟨rows, hsame, hloaded⟩ := loaded_of_loadPolicy hpolicy hseed
  rw [hrows, Option.some.injEq] at hsame
  subst hsame
  obtain ⟨inventory, hinventory, hone⟩ := hanswer
  rw [catalogInventory_eq hpolicy hseed hrows] at hinventory
  exact custom_not_uniform hcustom
    ((oneAnswer_iff hloaded (custom_valid hcustom)).mp ⟨inventory, hinventory, hone⟩)

end McpTrust.Refresh
