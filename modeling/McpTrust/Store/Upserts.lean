import McpTrust.Store.Servers
import McpTrust.Store.Recording
import McpTrust.Keyed

/-! # The registry over whole runs

`upsert` replaces the row of a slug and `record` refers to it. Whatever the order of the
calls, a slug has one row, the last server upserted under it, and no scan is left without
a server.
-/

namespace McpTrust.Store

set_option autoImplicit false

open Python Sqlite

/-- `source.model_dump_json()`. -/
abbrev SourceDump := Engine.ServerSource → Str

variable (dumpSource : SourceDump) (dump : Serializer)

theorem serverRow_declared (server : Server) : ∀ v ∈ [SqlValue.text server.name, .text server.description,
    .text (dumpSource server.source), .text server.addedAt.isoformat], v ≠ .null := by simp

/-- The row `upsert` writes. -/
def serverRow (server : Server) : ServerRow where
  slug := .text server.slug
  name := .text server.name
  description := .text server.description
  sourceJson := .text (dumpSource server.source)
  homepage := optionalText server.homepage
  addedAt := .text server.addedAt.isoformat
  declared := serverRow_declared dumpSource server

/-- The texts bound to the statement. -/
def serverTexts (server : Server) : List Str :=
  [server.slug, server.name, server.description, dumpSource server.source] ++ server.homepage.toList ++
    [server.addedAt.isoformat]

theorem uniqueSlugs_put (table : ServerTable) (row : ServerRow) :
    (((Keyed.put ServerRow.slug table.rows row).map ServerRow.slug).filter fun slug => decide (slug ≠ .null)).Nodup := by
  rw [Keyed.keys_put]
  split_ifs with hmem
  · exact table.uniqueSlugs
  · rw [List.filter_append]
    refine table.uniqueSlugs.append ((List.nodup_singleton _).filter _) fun slug hslug hnew => hmem ?_
    obtain ⟨hnew, -⟩ := List.mem_filter.mp hnew
    rw [← List.mem_singleton.mp hnew]
    exact (List.mem_filter.mp hslug).1

/-- `ServerRepository.upsert(server)`. -/
def upsert (table : ServerTable) (server : Server) : Except PyErr ServerTable := do
  let _ ← (serverTexts dumpSource server).mapM encodeUtf8
  .ok ⟨Keyed.put ServerRow.slug table.rows (serverRow dumpSource server),
    uniqueSlugs_put table _⟩

/-- `ServerRepository.get(slug)`. -/
def getServer (py : Pydantic) (validateSource : SourceModel) (interp : Interpreter) (table : ServerTable) (slug : Str) :
    Except PyErr (Option Server) :=
  match table.rows.find? fun row => decide (row.slug = .text slug) with
  | none => .ok none
  | some row => rowToServer py validateSource interp row

/-- The slugs a foreign key of the scans can name. -/
def slugsOf (table : ServerTable) : List Str :=
  table.rows.filterMap fun row => match row.slug with
    | .text slug => some slug
    | _ => none

/-! ## Runs -/

structure Registry where
  servers : ServerTable
  scans : ScanTable

def emptyRegistry : Registry := ⟨⟨[], List.nodup_nil⟩, ⟨[], List.nodup_nil⟩⟩

inductive Call
  | upsert (server : Server)
  | record (scan : ScanRecord)

def Registry.call (registry : Registry) : Call → Except PyErr Registry
  | .upsert server => do
    let servers ← Store.upsert dumpSource registry.servers server
    .ok { registry with servers := servers }
  | .record scan => do
    let scans ← Store.record dump (slugsOf registry.servers) registry.scans scan
    .ok { registry with scans := scans }

/-- A call that raises leaves the registry as it was. -/
def Registry.afterCall (registry : Registry) (call : Call) : Registry :=
  match registry.call dumpSource dump call with
  | .ok registry => registry
  | .error _ => registry

def Registry.afterCalls (registry : Registry) (calls : List Call) : Registry :=
  calls.foldl (Registry.afterCall dumpSource dump) registry

/-- The server a call stores: its texts can be bound. -/
def storedBy : Call → Option Server
  | .upsert server => ((serverTexts dumpSource server).mapM encodeUtf8).toOption.map fun _ => server
  | .record _ => none

def upserted (calls : List Call) : List Server := calls.filterMap (storedBy dumpSource)

variable {dumpSource dump} {registry : Registry} {calls : List Call} {server : Server} {slug : Str}

theorem put_serverRow (current : List Server) (server : Server) :
    (Keyed.put Server.slug current server).map (serverRow dumpSource) =
      Keyed.put ServerRow.slug (current.map (serverRow dumpSource)) (serverRow dumpSource server) := by
  have hslug : ∀ s t : Server, (serverRow dumpSource s).slug = (serverRow dumpSource t).slug ↔ s.slug = t.slug :=
    fun s t => ⟨SqlValue.text.inj, congrArg SqlValue.text⟩
  have hkeys : (serverRow dumpSource server).slug ∈ (current.map (serverRow dumpSource)).map ServerRow.slug ↔
      server.slug ∈ current.map Server.slug := by
    simp only [List.mem_map, exists_exists_and_eq_and, hslug]
  unfold Keyed.put
  split_ifs with hleft hright hright
  · rw [List.map_map, List.map_map]
    refine List.map_congr_left fun other _ => ?_
    simp only [Function.comp_apply, hslug]
    split_ifs <;> rfl
  · exact absurd (hkeys.mpr hleft) hright
  · exact absurd (hkeys.mp hright) hleft
  · rw [List.map_append, List.map_singleton]

theorem afterCall_record (scan : ScanRecord) : registry.afterCall dumpSource dump (.record scan) =
    match Store.record dump (slugsOf registry.servers) registry.scans scan with
    | .ok scans => { registry with scans := scans }
    | .error _ => registry := by
  change (match (Store.record dump (slugsOf registry.servers) registry.scans scan >>= fun scans =>
    Except.ok { registry with scans := scans }) with
    | .ok registry => registry
    | .error _ => registry) = _
  cases Store.record dump (slugsOf registry.servers) registry.scans scan <;> rfl

theorem afterCall_upsert (server : Server) : registry.afterCall dumpSource dump (.upsert server) =
    match (serverTexts dumpSource server).mapM encodeUtf8 with
    | .ok _ => { registry with servers :=
        ⟨Keyed.put ServerRow.slug registry.servers.rows (serverRow dumpSource server), uniqueSlugs_put _ _⟩ }
    | .error _ => registry := by
  change (match (((serverTexts dumpSource server).mapM encodeUtf8 >>= fun _ => Except.ok
      (⟨Keyed.put ServerRow.slug registry.servers.rows (serverRow dumpSource server), uniqueSlugs_put _ _⟩ :
        ServerTable)) >>= fun servers => Except.ok { registry with servers := servers }) with
    | .ok registry => registry
    | .error _ => registry) = _
  cases (serverTexts dumpSource server).mapM encodeUtf8 <;> rfl

/-- One call: the servers change by `put`. -/
theorem afterCall_rows (call : Call) {current : List Server}
    (hrows : registry.servers.rows = current.map (serverRow dumpSource)) :
    (registry.afterCall dumpSource dump call).servers.rows =
      ((storedBy dumpSource call).toList.foldl (Keyed.put Server.slug) current).map (serverRow dumpSource) := by
  cases call with
  | record scan =>
    rw [afterCall_record]
    cases Store.record dump (slugsOf registry.servers) registry.scans scan <;> exact hrows
  | upsert server =>
    rw [afterCall_upsert, storedBy]
    cases (serverTexts dumpSource server).mapM encodeUtf8 with
    | error e => exact hrows
    | ok bytes =>
      change Keyed.put ServerRow.slug registry.servers.rows (serverRow dumpSource server) = _
      rw [hrows, ← put_serverRow]
      rfl

theorem afterCalls_rows {current : List Server} (hrows : registry.servers.rows = current.map (serverRow dumpSource)) :
    (registry.afterCalls dumpSource dump calls).servers.rows =
      ((upserted dumpSource calls).foldl (Keyed.put Server.slug) current).map (serverRow dumpSource) := by
  induction calls generalizing registry current with
  | nil => exact hrows
  | cons call calls ih =>
    have hnext := ih (@afterCall_rows _ dump _ call _ hrows)
    rw [← List.foldl_append] at hnext
    rw [upserted, List.filterMap_cons]
    cases hstored : storedBy dumpSource call with
    | none =>
      rw [hstored] at hnext
      exact hnext
    | some server =>
      rw [hstored] at hnext
      exact hnext

/-! ## What is read back -/

/-- pydantic reads a server's own texts back. -/
structure Restored (py : Pydantic) (validateSource : SourceModel) (interp : Interpreter) (dumpSource : SourceDump)
    (server : Server) : Prop where
  source : ∃ raw, jsonLoads interp (dumpSource server.source) = .ok raw ∧ validateSource raw = some server.source
  addedAt : py.datetime server.addedAt.isoformat = some server.addedAt

section Reading

variable {py : Pydantic} {validateSource : SourceModel} {interp : Interpreter}

theorem storedBy_eq_some {call : Call} : storedBy dumpSource call = some server →
    call = .upsert server ∧ ∃ bytes, encodeUtf8 (dumpSource server.source) = .ok bytes := by
  cases call with
  | record scan =>
    intro h
    cases h
  | upsert other =>
    intro h
    rw [storedBy] at h
    cases hbound : (serverTexts dumpSource other).mapM encodeUtf8 with
    | error e =>
      rw [hbound] at h
      cases h
    | ok all =>
      rw [hbound] at h
      cases h
      exact ⟨rfl, mapM_encodes hbound _ (by simp [serverTexts])⟩

theorem readDescription_text (s : Str) : readDescription (.text s) = .ok s := by
  unfold readDescription
  by_cases hs : s = []
  · subst hs
    rfl
  · have htruthy : (SqlValue.text s).truthy = true := decide_eq_true hs
    rw [if_pos htruthy]
    rfl

/-- A stored server reads back exactly when its source is within the limit of a column. -/
theorem rowToServer_stored {bytes : Bytes} (hbytes : encodeUtf8 (dumpSource server.source) = .ok bytes)
    (h : Restored py validateSource interp dumpSource server) :
    (FitsColumn (dumpSource server.source) →
        rowToServer py validateSource interp (serverRow dumpSource server) = .ok (some server)) ∧
      (¬FitsColumn (dumpSource server.source) →
        rowToServer py validateSource interp (serverRow dumpSource server) = .ok none) := by
  obtain ⟨raw, hraw, hsource⟩ := h.source
  have hload := @loadStoredJson_ok interp (dumpSource server.source) raw bytes hbytes
  constructor
  · intro hfits
    have hread : readServer py validateSource interp (serverRow dumpSource server) = .ok server := by
      have htime : (readStr (serverRow dumpSource server).addedAt >>= fun s => orInvalid (py.datetime s)) =
          .ok server.addedAt := bind_eq_ok.mpr ⟨_, rfl, orInvalid_ok.mpr h.addedAt⟩
      refine bind_eq_ok.mpr ⟨raw, hload.mpr ⟨hfits, hraw⟩, bind_eq_ok.mpr ⟨server.source, orInvalid_ok.mpr hsource, ?_⟩⟩
      refine bind_eq_ok.mpr ⟨server.slug, rfl, bind_eq_ok.mpr ⟨server.name, rfl, ?_⟩⟩
      refine bind_eq_ok.mpr ⟨server.description, readDescription_text _, ?_⟩
      refine bind_eq_ok.mpr ⟨server.homepage, readOptionalStr_recorded _, bind_eq_ok.mpr ⟨server.addedAt, htime, ?_⟩⟩
      exact dif_pos server.slug_valid
    unfold rowToServer
    rw [hread]
    rfl
  · intro hlarge
    have hrefused : loadStoredJson interp (serverRow dumpSource server).sourceJson = .error .valueError := by
      change loadStoredJson interp (.text (dumpSource server.source)) = _
      rw [loadStoredJson]
      split_ifs with hlength
      · rfl
      · rw [hbytes]
        refine if_pos (Nat.lt_of_not_le fun hsize => hlarge ⟨Nat.le_of_not_lt hlength, ?_⟩)
        rintro other hother
        rw [hbytes] at hother
        cases hother
        exact hsize
    unfold rowToServer readServer
    rw [hrefused]
    rfl

/-- The servers a run leaves, in the order of their rows. -/
def keptServers (dumpSource : SourceDump) (calls : List Call) : List Server :=
  (upserted dumpSource calls).foldl (Keyed.put Server.slug) []

theorem rows_kept : (emptyRegistry.afterCalls dumpSource dump calls).servers.rows =
    (keptServers dumpSource calls).map (serverRow dumpSource) := afterCalls_rows rfl

theorem nodup_kept : ((keptServers dumpSource calls).map Server.slug).Nodup := Keyed.nodup_foldl_put List.nodup_nil

theorem mem_kept : server ∈ keptServers dumpSource calls ↔
    Keyed.last Server.slug (upserted dumpSource calls) server.slug = some server := by
  constructor
  · exact Keyed.mem_foldl_put
  · intro h
    have hfind : Keyed.find Server.slug (keptServers dumpSource calls) server.slug = some server := by
      rw [keptServers, Keyed.find_foldl_put, h]
      rfl
    exact (Keyed.mem_of_find hfind).1

theorem kept_encodes (h : server ∈ keptServers dumpSource calls) :
    ∃ bytes, encodeUtf8 (dumpSource server.source) = .ok bytes := by
  have hlast := List.mem_of_find?_eq_some (mem_kept.mp h)
  obtain ⟨call, -, hstored⟩ := List.mem_filterMap.mp (List.mem_reverse.mp hlast)
  exact (storedBy_eq_some hstored).2

theorem find_serverRow (current : List Server) (slug : Str) :
    ((current.map (serverRow dumpSource)).find? fun row => decide (row.slug = .text slug)) =
      (Keyed.find Server.slug current slug).map (serverRow dumpSource) := by
  rw [List.find?_map, Keyed.find]
  congr 2
  funext server
  exact decide_eq_decide.mpr ⟨SqlValue.text.inj, congrArg SqlValue.text⟩

theorem getServer_kept (hrestored : ∀ server ∈ keptServers dumpSource calls, Restored py validateSource interp dumpSource server)
    (slug : Str) : ∃ answer, getServer py validateSource interp
      (emptyRegistry.afterCalls dumpSource dump calls).servers slug = .ok answer ∧ ∀ server, answer = some server ↔
        Keyed.last Server.slug (upserted dumpSource calls) slug = some server ∧ FitsColumn (dumpSource server.source) := by
  have hfind : Keyed.find Server.slug (keptServers dumpSource calls) slug =
      Keyed.last Server.slug (upserted dumpSource calls) slug := by
    rw [keptServers, Keyed.find_foldl_put]
    exact Option.or_none
  unfold getServer
  rw [rows_kept, find_serverRow, hfind]
  cases hlast : Keyed.last Server.slug (upserted dumpSource calls) slug with
  | none => exact ⟨none, rfl, fun server => by simp⟩
  | some stored =>
    have hmem : stored ∈ keptServers dumpSource calls := (Keyed.mem_of_find (hfind.trans hlast)).1
    obtain ⟨bytes, hbytes⟩ := kept_encodes hmem
    obtain ⟨hfits, hlarge⟩ := rowToServer_stored hbytes (hrestored stored hmem)
    by_cases h : FitsColumn (dumpSource stored.source)
    · refine ⟨some stored, hfits h, fun server => ⟨?_, ?_⟩⟩
      · rintro ⟨⟩
        exact ⟨rfl, h⟩
      · exact And.left
    · refine ⟨none, hlarge h, fun server => ⟨?_, ?_⟩⟩
      · intro hserver
        cases hserver
      · rintro ⟨⟨⟩, hserver⟩
        exact absurd hserver h

def SlugLe (a b : Server) : Prop := SqlValue.text a.slug ≤ .text b.slug

instance : DecidableRel SlugLe := fun a b => inferInstanceAs (Decidable (SqlValue.text a.slug ≤ .text b.slug))

instance : Std.Total SlugLe := ⟨fun _ _ => le_total _ _⟩

instance : IsTrans Server SlugLe := ⟨fun _ _ _ hab hbc => le_trans hab hbc⟩

theorem listServers_kept (hrestored : ∀ server ∈ keptServers dumpSource calls, Restored py validateSource interp dumpSource server) :
    ∃ servers, listServers py validateSource interp (emptyRegistry.afterCalls dumpSource dump calls).servers =
        .ok servers ∧ servers.Pairwise (fun a b => SqlValue.text a.slug < .text b.slug) ∧
      ∀ server, server ∈ servers ↔
        Keyed.last Server.slug (upserted dumpSource calls) server.slug = some server ∧
          FitsColumn (dumpSource server.source) := by
  classical
  let sorted := (keptServers dumpSource calls).insertionSort SlugLe
  let served : Server → Option Server := fun server =>
    if FitsColumn (dumpSource server.source) then some server else none
  have hperm : sorted.Perm (keptServers dumpSource calls) := List.perm_insertionSort _ _
  have hrows : (emptyRegistry.afterCalls dumpSource dump calls).servers.rows.insertionSort SlugBefore =
      sorted.map (serverRow dumpSource) := by
    rw [rows_kept]
    exact (List.map_insertionSort SlugLe SlugBefore _ _ fun _ _ _ _ => Iff.rfl).symm
  have hread : (sorted.map (serverRow dumpSource)).mapM (rowToServer py validateSource interp) =
      .ok (sorted.map served) := by
    rw [mapM_eq_ok, List.forall₂_map_left_iff, List.forall₂_map_right_iff, List.forall₂_same]
    intro server hserver
    have hmem := hperm.subset hserver
    obtain ⟨bytes, hbytes⟩ := kept_encodes hmem
    obtain ⟨hfits, hlarge⟩ := rowToServer_stored hbytes (hrestored server hmem)
    by_cases h : FitsColumn (dumpSource server.source)
    · rw [hfits h]
      exact congrArg Except.ok (if_pos h).symm
    · rw [hlarge h]
      exact congrArg Except.ok (if_neg h).symm
  have hkept : (sorted.map served).filterMap id = sorted.filter fun server =>
      decide (FitsColumn (dumpSource server.source)) := by
    rw [List.filterMap_map, ← List.filterMap_eq_filter]
    refine List.filterMap_congr fun server _ => ?_
    by_cases h : FitsColumn (dumpSource server.source) <;> simp [served, Option.guard, h]
  refine ⟨(sorted.map served).filterMap id, ?_, ?_, fun server => ?_⟩
  · unfold listServers
    rw [hrows, hread]
    rfl
  · have hsorted : sorted.Pairwise SlugLe := List.pairwise_insertionSort _ _
    have hdistinct : sorted.Pairwise fun a b => a.slug ≠ b.slug :=
      List.pairwise_map.mp ((hperm.map Server.slug).nodup_iff.mpr nodup_kept)
    rw [hkept]
    exact ((hsorted.and hdistinct).imp fun h => lt_of_le_of_ne h.1 fun heq => h.2 (SqlValue.text.inj heq)).filter _
  · rw [hkept, List.mem_filter, hperm.mem_iff, mem_kept, decide_eq_true_eq]

end Reading

/-! ## The scans of a run -/

theorem afterCall_references (call : Call)
    (h : ∀ row ∈ registry.scans.rows, row.serverSlug ∈ registry.servers.rows.map ServerRow.slug) :
    ∀ row ∈ (registry.afterCall dumpSource dump call).scans.rows,
      row.serverSlug ∈ (registry.afterCall dumpSource dump call).servers.rows.map ServerRow.slug := by
  cases call with
  | upsert server =>
    rw [afterCall_upsert]
    cases (serverTexts dumpSource server).mapM encodeUtf8 with
    | error e => exact h
    | ok bytes =>
      intro row hrow
      rw [Keyed.keys_put]
      split_ifs with hmem
      · exact h row hrow
      · exact List.mem_append_left _ (h row hrow)
  | record scan =>
    rw [afterCall_record]
    cases hrecord : Store.record dump (slugsOf registry.servers) registry.scans scan with
    | error e => exact h
    | ok scans =>
      obtain ⟨_, -, hinsert⟩ := bind_eq_ok.mp hrecord
      split_ifs at hinsert with hfresh hslug
      cases hinsert
      intro row hrow
      obtain hrow | hrow := List.mem_append.mp hrow
      · exact h row hrow
      · rw [List.mem_singleton.mp hrow]
        obtain ⟨server, hserver, hname⟩ := List.mem_filterMap.mp hslug
        have hserverSlug : server.slug = .text scan.serverSlug := by
          split at hname
          · next text htext =>
            cases hname
            exact htext
          · cases hname
        exact List.mem_map.mpr ⟨server, hserver, hserverSlug⟩

theorem afterCalls_references
    (h : ∀ row ∈ registry.scans.rows, row.serverSlug ∈ registry.servers.rows.map ServerRow.slug) :
    ∀ row ∈ (registry.afterCalls dumpSource dump calls).scans.rows,
      row.serverSlug ∈ (registry.afterCalls dumpSource dump calls).servers.rows.map ServerRow.slug := by
  induction calls generalizing registry with
  | nil => exact h
  | cons call calls ih => exact ih (afterCall_references call h)

/-- No call changes or removes a stored scan. -/
theorem afterCall_scans (call : Call) :
    registry.scans.rows <+: (registry.afterCall dumpSource dump call).scans.rows := by
  cases call with
  | upsert server =>
    rw [afterCall_upsert]
    cases (serverTexts dumpSource server).mapM encodeUtf8 <;> exact List.prefix_rfl
  | record scan =>
    rw [afterCall_record]
    cases hrecord : Store.record dump (slugsOf registry.servers) registry.scans scan with
    | error e => exact List.prefix_rfl
    | ok scans =>
      obtain ⟨_, -, hinsert⟩ := bind_eq_ok.mp hrecord
      split_ifs at hinsert
      cases hinsert
      exact List.prefix_append _ _

theorem afterCalls_scans : registry.scans.rows <+: (registry.afterCalls dumpSource dump calls).scans.rows := by
  induction calls generalizing registry with
  | nil => exact List.prefix_rfl
  | cons call calls ih => exact (afterCall_scans call).trans ih

/-- A registry after any calls: `get` and `list` answer with the last server upserted under a slug where its source is
within the limit, every scan has its server, and further calls leave the stored scans as they are. -/
theorem registry_runs (py : Pydantic) (validateSource : SourceModel) (interp : Interpreter) (dumpSource : SourceDump)
    (dump : Serializer) (calls more : List Call)
    (hrestored : ∀ server ∈ keptServers dumpSource calls, Restored py validateSource interp dumpSource server) :
    (∀ slug, ∃ answer, getServer py validateSource interp
        (emptyRegistry.afterCalls dumpSource dump calls).servers slug = .ok answer ∧ ∀ server, answer = some server ↔
          Keyed.last Server.slug (upserted dumpSource calls) slug = some server ∧ FitsColumn (dumpSource server.source)) ∧
      (∃ servers, listServers py validateSource interp (emptyRegistry.afterCalls dumpSource dump calls).servers =
          .ok servers ∧ servers.Pairwise (fun a b => SqlValue.text a.slug < .text b.slug) ∧
        ∀ server, server ∈ servers ↔ Keyed.last Server.slug (upserted dumpSource calls) server.slug = some server ∧
          FitsColumn (dumpSource server.source)) ∧
      (∀ row ∈ (emptyRegistry.afterCalls dumpSource dump calls).scans.rows,
        ∃ server ∈ keptServers dumpSource calls, row.serverSlug = .text server.slug) ∧
      (emptyRegistry.afterCalls dumpSource dump calls).scans.rows <+:
        (emptyRegistry.afterCalls dumpSource dump (calls ++ more)).scans.rows := by
  refine ⟨getServer_kept hrestored, listServers_kept hrestored, fun row hrow => ?_, ?_⟩
  · have hslug := afterCalls_references (fun _ hnone => absurd hnone List.not_mem_nil) row hrow
    rw [rows_kept, List.map_map] at hslug
    obtain ⟨server, hserver, hsame⟩ := List.mem_map.mp hslug
    exact ⟨server, hserver, hsame.symm⟩
  · rw [Registry.afterCalls, Registry.afterCalls, List.foldl_append]
    exact afterCalls_scans

/-! ## A server upserted twice -/

def plainSource : Engine.ServerSource where
  kind := .npm
  reference := u "a"
  envKeys_names := Engine.ServerSource.noKeys_names
  envKeys_nodup := Engine.ServerSource.noKeys_nodup

def plainSourceText : Str :=
  u "\x7b\"kind\":\"npm\",\"reference\":\"a\",\"command\":null,\"args\":[],\"env_keys\":[],\"sandbox_image\":null,\"trusted\":false\x7d"

theorem slug_a : isSlug (u "a") = true := by decide

def plainServer (name : String) : Server where
  slug := u "a"
  name := u name
  description := []
  source := plainSource
  homepage := none
  addedAt := secondTime
  slug_valid := slug_a

theorem plainSource_loads : ∃ raw, jsonLoads calmInterpreter plainSourceText = .ok raw := by
  have hok : (jsonLoads calmInterpreter plainSourceText).isOk = true := by decide +kernel
  cases hraw : jsonLoads calmInterpreter plainSourceText with
  | error e =>
    rw [hraw] at hok
    cases hok
  | ok raw => exact ⟨raw, rfl⟩

theorem plainSource_fits : FitsColumn plainSourceText := by
  refine ⟨by decide, fun bytes hbytes => ?_⟩
  cases hbytes
  decide

theorem plainServer_restored (name : String) :
    Restored calmModels (fun _ => some plainSource) calmInterpreter (fun _ => plainSourceText) (plainServer name) := by
  obtain ⟨raw, hraw⟩ := plainSource_loads
  exact ⟨⟨raw, hraw, rfl⟩, fromisoformat_isoformat rfl⟩

/-- A rename and a scan. -/
def renameCalls : List Call :=
  [.upsert (plainServer "First"), .record (calmScan "s1" [] secondTime), .upsert (plainServer "Second")]

theorem registry_runs_rename :
    getServer calmModels (fun _ => some plainSource) calmInterpreter
      (emptyRegistry.afterCalls (fun _ => plainSourceText) calmSerializer renameCalls).servers (u "a") =
        .ok (some (plainServer "Second")) := by
  have hrestored : ∀ server ∈ keptServers (fun _ => plainSourceText) renameCalls, Restored calmModels
      (fun _ => some plainSource) calmInterpreter (fun _ => plainSourceText) server := by
    intro server hserver
    have hone : keptServers (fun _ => plainSourceText) renameCalls = [plainServer "Second"] := rfl
    rw [hone, List.mem_singleton] at hserver
    rw [hserver]
    exact plainServer_restored "Second"
  obtain ⟨answer, hget, hanswer⟩ := (registry_runs calmModels (fun _ => some plainSource) calmInterpreter
    (fun _ => plainSourceText) calmSerializer renameCalls [] hrestored).1 (u "a")
  rw [hget, (hanswer (plainServer "Second")).mpr ⟨rfl, plainSource_fits⟩]

end McpTrust.Store
