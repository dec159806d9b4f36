import McpTrust.Python.DictUpdate
import McpTrust.Core.Governance
import McpTrust.Catalog.Admission

/-! # Answers of the catalog server

`list_servers` and `check_server` recompute the age of every record they serve; their
answer is a document or the typed error.
-/

namespace McpTrust.RuntimeSnapshot

set_option autoImplicit false

open Python

/-! ## Records at response time -/

/-- `assess_scan_freshness(scanned_at, now)` of a text. -/
def assessText (scannedAt : Str) (now : DateTime) : Except PyErr ScanFreshness := do
  let evaluatedAt ← asUtc now
  match fromisoformat (expandZulu scannedAt) with
  | none => .ok ⟨.unknown, "malformed_scanned_at", none, evaluatedAt, none, none⟩
  | some scannedAt => do
    let parsed ← asUtc scannedAt
    assessTimes parsed evaluatedAt

def staleJson : FreshnessState → Json
  | .fresh => .bool false
  | .stale => .bool true
  | _ => .null

/-- The fields a record of unknown freshness loses. -/
def withheldFields : List String :=
  ["grade", "transparency", "danger_score", "dimensions", "findings", "evidence", "grade_change"]

def withhold (record : Dict) : Dict :=
  record.map fun kv => if kv.1 ∈ withheldFields.map u then (kv.1, .null) else kv

/-- `_current_server_record(server, now=…)`. -/
def currentServerRecord (server : Dict) (now : DateTime) : Except PyErr Dict :=
  match Dict.get server "scanned_at" with
  | .str scannedAt => do
    let freshness ← assessText scannedAt now
    let record := Dict.update server
      [(u "freshness_state", .str (u freshness.state.text)), (u "freshness_reason", .str (u freshness.reason)),
        (u "scan_age_days", (freshness.scanAgeDays.map Json.float).getD .null),
        (u "stale_after", (freshness.staleAfter.map fun d => Json.str d.isoformat).getD .null),
        (u "stale", staleJson freshness.state)]
    .ok (if freshness.state = .unknown then withhold record else record)
  | _ => .ok (Dict.update server [(u "scan_age_days", .null), (u "stale", .null)])

/-- `record[name]`. -/
def item (record : Dict) (name : String) : Except PyErr Json :=
  match Dict.lookup record (u name) with
  | some value => .ok value
  | none => .error .keyError

def items (record : Dict) (names : List String) : Except PyErr Dict :=
  names.mapM fun name => (item record name).map fun value => (u name, value)

/-- One row of `list_servers`. -/
def listRow (record : Dict) : Except PyErr Json := do
  let fixed ← items record ["slug", "name", "grade", "transparency", "danger_score", "requires_credentials"]
  let aged ← items record ["scan_age_days", "stale"]
  .ok (.obj (fixed ++ (u "scanned_at", Dict.get record "scanned_at") :: aged))

/-! ## Payloads -/

/-- What the server answers with, before it is written as JSON. -/
inductive Payload
  | unknown (error : PyErr)
  | listed (rows : List Json)
  | record (server : Dict)
  | missing (slug : Str) (known : List Json)

/-- `_servers()`; the packaged resource may be unreadable. -/
def snapshotServers (interp : Interpreter) : Option Str → Except PyErr Json
  | none => .error (validationError ["SNAPSHOT_RESOURCE_UNREADABLE"])
  | some text => (parseCatalogSnapshot interp text).map fun snapshot => Dict.get snapshot "servers"

/-- `except CatalogSnapshotValidationError` around `_servers()`. -/
def answering (servers : Except PyErr Json) (serve : List Json → Except PyErr Payload) : Except PyErr Payload :=
  match servers with
  | .ok (.arr servers) => serve servers
  | .ok _ => .error .typeError
  | .error e => if e.isApp "CatalogSnapshotValidationError" then .ok (.unknown e) else .error e

/-- `dict(server)`. -/
def asDict : Json → Except PyErr Dict
  | .obj fields => .ok fields
  | _ => .error .typeError

def currentRow (now : DateTime) (server : Json) : Except PyErr Json := do
  let fields ← asDict server
  let record ← currentServerRecord fields now
  listRow record

def slugOf (server : Json) : Except PyErr Json := do
  let fields ← asDict server
  item fields "slug"

/-- The first record with the slug. -/
def findServer (slug : Str) : List Json → Except PyErr (Option Dict)
  | [] => .ok none
  | server :: rest => do
    let found ← slugOf server
    if found.pyEq (.str slug) then (asDict server).map some else findServer slug rest

/-- `list_servers_payload(now=…)`. -/
def listServersPayload (interp : Interpreter) (text : Option Str) (now : DateTime) : Except PyErr Payload :=
  answering (snapshotServers interp text) fun servers => (servers.mapM (currentRow now)).map .listed

/-- `check_server_payload(slug, now=…)`. -/
def checkServerPayload (interp : Interpreter) (text : Option Str) (slug : Str) (now : DateTime) :
    Except PyErr Payload :=
  answering (snapshotServers interp text) fun servers => do
    match ← findServer slug servers with
    | some server => (currentServerRecord server now).map .record
    | none => (servers.mapM slugOf).map (.missing slug)

/-! ## What the admission leaves -/

/-- A scan less than ninety days before the end of year 9999. -/
def Late (v : Json) : Prop :=
  ∃ s d parsed, v = .str s ∧ fromisoformat (expandZulu s) = some d ∧ asUtc d = .ok parsed ∧
    maxMicros ≤ parsed.micros + ninetyDays

/-- A record of an admitted catalog. -/
structure Servable (fields : Dict) : Prop where
  present : ∀ name ∈ serverRequiredFields, u name ∈ Dict.keys fields
  inRange : ¬Unrepresentable (Dict.get fields "scanned_at")

theorem reason_eq_nil {condition : Bool} {code : String} (h : reason condition code = []) : condition = false := by
  cases condition with
  | false => rfl
  | true => cases h

theorem validateServer_servable {generatedAt : Json} {slugs : List Str} {coordinates : List (Str × Str)}
    {server : Dict} {after : List Str × List (Str × Str)}
    (h : validateServer generatedAt slugs coordinates server = .ok ([], after)) : Servable server := by
  unfold validateServer at h
  obtain ⟨freshness, hfreshness, h⟩ := bind_eq_ok.mp h
  rw [Except.ok.injEq, Prod.mk.injEq] at h
  simp only [List.append_eq_nil_iff] at h
  have hmissing := h.1.1.1.1.1.1.1.1.1.1.1.1.1.1.1.1.1
  constructor
  · intro name hname
    unfold missingReasons at hmissing
    rw [List.append_eq_nil_iff] at hmissing
    have hnone := reason_eq_nil hmissing.1
    rw [Bool.not_eq_false', List.isEmpty_iff] at hnone
    have hkept := List.filter_eq_nil_iff.mp hnone name hname
    rw [Bool.not_eq_true, Bool.not_eq_false'] at hkept
    exact Dict.contains_eq_true.mp hkept
  · intro hout
    obtain ⟨-, hfailed⟩ | ⟨hrange, -⟩ := validateFreshnessBinding_cases server generatedAt
    · rw [hfailed] at hfreshness
      cases hfreshness
    · exact hrange (.scanned hout)

theorem validateServers_servable {generatedAt : Json} (servers : List Json) :
    ∀ {slugs : List Str} {coordinates : List (Str × Str)},
      validateServers generatedAt slugs coordinates servers = .ok [] →
        ∀ server ∈ servers, ∃ fields, server = .obj fields ∧ Servable fields := by
  induction servers with
  | nil =>
    intro slugs coordinates _ server hserver
    cases hserver
  | cons server servers ih =>
    intro slugs coordinates h other hother
    cases server with
    | obj fields =>
      rw [validateServers] at h
      obtain ⟨⟨reasons, slugs', coordinates'⟩, hserver, h⟩ := bind_eq_ok.mp h
      obtain ⟨more, hmore, h⟩ := bind_eq_ok.mp h
      rw [Except.ok.injEq, List.append_eq_nil_iff] at h
      obtain ⟨rfl, rfl⟩ := h
      obtain rfl | hin := List.mem_cons.mp hother
      · exact ⟨fields, rfl, validateServer_servable hserver⟩
      · exact ih hmore other hin
    | _ =>
      rw [validateServers] at h
      · obtain ⟨more, -, h⟩ := bind_eq_ok.mp h
        cases h
      · simp

theorem validationReasons_servable {snapshot : Dict} (h : validationReasons snapshot = .ok []) :
    ∃ servers, Dict.get snapshot "servers" = .arr servers ∧
      ∀ server ∈ servers, ∃ fields, server = .obj fields ∧ Servable fields := by
  unfold validationReasons at h
  by_cases hpresent : Dict.contains snapshot (u "servers") = true
  · cases hget : Dict.get snapshot "servers" with
    | arr servers =>
      simp only [hpresent, hget, Bool.not_true, Bool.false_eq_true, if_false] at h
      by_cases hlimit : maxServers < servers.length
      · simp only [if_pos hlimit] at h
        obtain ⟨perServer, hperServer, h⟩ := bind_eq_ok.mp h
        rw [Except.ok.injEq, List.append_eq_nil_iff] at h
        rw [h.2] at hperServer
        cases hperServer
      · simp only [if_neg hlimit] at h
        obtain ⟨perServer, hperServer, h⟩ := bind_eq_ok.mp h
        rw [Except.ok.injEq, List.append_eq_nil_iff] at h
        rw [h.2] at hperServer
        exact ⟨servers, rfl, validateServers_servable servers hperServer⟩
    | _ =>
      simp only [hpresent, hget, Bool.not_true, Bool.false_eq_true, if_false] at h
      obtain ⟨perServer, -, h⟩ := bind_eq_ok.mp h
      simp only [Except.ok.injEq, List.append_eq_nil_iff] at h
      cases h.1.1.1.1.2
  · simp only [hpresent, Bool.not_false, if_true] at h
    obtain ⟨perServer, -, h⟩ := bind_eq_ok.mp h
    simp only [Except.ok.injEq, List.append_eq_nil_iff] at h
    cases h.1.1.1.1.2

theorem parse_servable {interp : Interpreter} {text : Str} {snapshot : Dict}
    (h : parseCatalogSnapshot interp text = .ok snapshot) :
    ∃ servers, Dict.get snapshot "servers" = .arr servers ∧
      ∀ server ∈ servers, ∃ fields, server = .obj fields ∧ Servable fields := by
  have hrefused : ∀ codes, Except.error (validationError codes) ≠ (.ok snapshot : Except PyErr Dict) := by
    rintro codes ⟨⟩
  unfold parseCatalogSnapshot at h
  by_cases hshort : maxRawBytes < text.length
  · rw [if_pos hshort] at h
    cases h
  · rw [if_neg hshort] at h
    cases hencoded : encodeUtf8 text with
    | error e =>
      rw [hencoded] at h
      cases h
    | ok bytes =>
      by_cases hlong : maxRawBytes < bytes.length
      · simp only [hencoded, bind, Except.bind, if_pos hlong] at h
        cases h
      · simp only [hencoded, bind, Except.bind, if_neg hlong] at h
        cases hload : loads (parseHooks fun pairs => .ok (.obj (dictOfPairs pairs))) interp.recursionLimit text with
        | error e =>
          simp only [hload] at h
          cases h
        | ok value =>
          by_cases hduplicate : hasDuplicate interp text = true
          · simp only [hload, if_pos hduplicate] at h
            cases h
          · simp only [hload, if_neg hduplicate] at h
            cases value with
            | obj fields =>
              dsimp only at h
              cases hreasons : validationReasons fields with
              | error e =>
                simp only [hreasons] at h
                cases h
              | ok reasons =>
                simp only [hreasons] at h
                split_ifs at h with hempty
                rw [Except.ok.injEq] at h
                rw [← h]
                rw [List.isEmpty_iff] at hempty
                rw [hempty] at hreasons
                exact validationReasons_servable hreasons
            | _ => cases h

/-! ## One record -/

theorem asUtc_ok {d : DateTime} (h : d.offset.isSome = true → 0 ≤ d.instant ∧ d.instant < maxMicros) :
    ∃ parsed, asUtc d = .ok parsed := by
  have hsame : d.assumeUtc.instant = d.instant := by
    unfold DateTime.instant DateTime.assumeUtc
    cases d.offset <;> rfl
  have hrange : 0 ≤ d.instant ∧ d.instant < maxMicros := by
    cases hoffset : d.offset with
    | none =>
      have hinstant : d.instant = d.micros := by
        rw [DateTime.instant, hoffset]
        exact sub_zero _
      rw [hinstant]
      exact d.inRange
    | some offset => exact h (by rw [hoffset]; rfl)
  refine ⟨⟨d.instant, some 0, hrange⟩, ?_⟩
  rw [asUtc, DateTime.astimezoneUtc, DateTime.ofMicros, hsame, dif_pos hrange]

theorem assessText_ok {s : Str} {now evaluatedAt : DateTime} (hnow : asUtc now = .ok evaluatedAt)
    (hrange : ¬Unrepresentable (.str s)) (hlate : ¬Late (.str s)) : ∃ freshness, assessText s now = .ok freshness := by
  rw [assessText, hnow]
  cases hparsed : fromisoformat (expandZulu s) with
  | none => exact ⟨_, rfl⟩
  | some d =>
    obtain ⟨parsed, hutc⟩ : ∃ parsed, asUtc d = .ok parsed := by
      apply asUtc_ok
      intro haware
      by_contra hout
      exact hrange ⟨d, ⟨s, rfl, hparsed, haware⟩, hout⟩
    have hbefore : parsed.micros + ninetyDays < maxMicros := by
      by_contra hafter
      exact hlate ⟨s, d, parsed, rfl, hparsed, hutc, not_lt.mp hafter⟩
    have hdays : (0 : ℤ) ≤ ninetyDays := by decide
    have hadd : 0 ≤ parsed.micros + staleAfterDays * microsPerDay ∧
        parsed.micros + staleAfterDays * microsPerDay < maxMicros := by
      have hstart := parsed.inRange.1
      have hsame : staleAfterDays * microsPerDay = ninetyDays := rfl
      rw [hsame]
      omega
    have hassess : ∃ freshness, assessTimes parsed evaluatedAt = .ok freshness := by
      unfold assessTimes
      split_ifs
      · exact ⟨_, rfl⟩
      · rw [DateTime.add, DateTime.ofMicros, dif_pos hadd]
        exact ⟨_, rfl⟩
    obtain ⟨freshness, hassess⟩ := hassess
    refine ⟨freshness, ?_⟩
    simp only [bind, Except.bind, hutc]
    exact hassess

/-- The assessment of a late scan at its own time overflows. -/
theorem assessText_late {s : Str} (hlate : Late (.str s)) :
    ∃ now, asUtc now = .ok now ∧ assessText s now = .error .overflowError := by
  obtain ⟨_, d, parsed, ⟨⟩, hparsed, hutc, hafter⟩ := hlate
  have hoffset : parsed.offset = some 0 := (DateTime.astimezoneUtc_eq_ok.mp hutc).2
  have hself : asUtc parsed = .ok parsed := by
    apply DateTime.astimezoneUtc_eq_ok.mpr
    refine ⟨?_, hoffset⟩
    rw [DateTime.instant, DateTime.assumeUtc, hoffset]
    exact (sub_zero _).symm
  have hadd : ¬(0 ≤ parsed.micros + staleAfterDays * microsPerDay ∧
      parsed.micros + staleAfterDays * microsPerDay < maxMicros) := by
    rintro ⟨-, hbefore⟩
    exact absurd hbefore (not_lt.mpr hafter)
  have hage : ¬DateTime.totalSeconds (parsed.micros - parsed.micros) < 0 := by
    rw [sub_self, DateTime.totalSeconds, Int.cast_zero, zero_div, fl_zero]
    exact lt_irrefl 0
  refine ⟨parsed, hself, ?_⟩
  have hassess : assessTimes parsed parsed = .error .overflowError := by
    rw [assessTimes, if_neg hage, DateTime.add, DateTime.ofMicros, dif_neg hadd]
    rfl
  rw [assessText, hself, hparsed]
  simp only [bind, Except.bind, hutc]
  exact hassess

theorem keys_withhold (record : Dict) : Dict.keys (withhold record) = Dict.keys record := by
  rw [Dict.keys, withhold, List.map_map]
  apply List.map_congr_left
  intro kv _
  dsimp only [Function.comp_apply]
  split_ifs <;> rfl

theorem currentServerRecord_keys {server record : Dict} {now : DateTime}
    (h : currentServerRecord server now = .ok record) {key : Str}
    (hkey : key ∈ Dict.keys server ∨ key = u "scan_age_days" ∨ key = u "stale") : key ∈ Dict.keys record := by
  unfold currentServerRecord at h
  split at h
  · obtain ⟨freshness, -, h⟩ := bind_eq_ok.mp h
    rw [Except.ok.injEq] at h
    subst h
    split_ifs
    · rw [keys_withhold, Dict.mem_keys_update]
      simp only [Dict.keys, List.map_cons, List.mem_cons]
      tauto
    · rw [Dict.mem_keys_update]
      simp only [Dict.keys, List.map_cons, List.mem_cons]
      tauto
  · rw [Except.ok.injEq] at h
    subst h
    rw [Dict.mem_keys_update]
    simp only [Dict.keys, List.map_cons, List.mem_cons]
    tauto

theorem item_ok {record : Dict} {name : String} (h : u name ∈ Dict.keys record) : ∃ value, item record name = .ok value := by
  cases hlookup : Dict.lookup record (u name) with
  | none => exact absurd h (Dict.lookup_eq_none.mp hlookup)
  | some value =>
    refine ⟨value, ?_⟩
    rw [item, hlookup]

theorem items_ok {record : Dict} {names : List String} (h : ∀ name ∈ names, u name ∈ Dict.keys record) :
    ∃ entries, items record names = .ok entries := by
  apply exists_mapM_ok.mpr
  intro name hname
  obtain ⟨value, hvalue⟩ := item_ok (h name hname)
  refine ⟨(u name, value), ?_⟩
  rw [hvalue]
  rfl

theorem listRow_ok {server record : Dict} {now : DateTime} (hservable : Servable server)
    (h : currentServerRecord server now = .ok record) : ∃ row, listRow record = .ok row := by
  have hfixed : ∀ name ∈ ["slug", "name", "grade", "transparency", "danger_score", "requires_credentials"],
      u name ∈ Dict.keys record := by
    intro name hname
    apply currentServerRecord_keys h
    left
    apply hservable.present
    have hsub : ["slug", "name", "grade", "transparency", "danger_score", "requires_credentials"] ⊆
        serverRequiredFields := by decide
    exact hsub hname
  have haged : ∀ name ∈ ["scan_age_days", "stale"], u name ∈ Dict.keys record := by
    intro name hname
    apply currentServerRecord_keys h
    right
    rw [List.mem_cons, List.mem_singleton] at hname
    obtain rfl | rfl := hname
    · exact .inl rfl
    · exact .inr rfl
  obtain ⟨fixed, hfixed⟩ := items_ok hfixed
  obtain ⟨aged, haged⟩ := items_ok haged
  refine ⟨.obj (fixed ++ (u "scanned_at", Dict.get record "scanned_at") :: aged), ?_⟩
  apply bind_eq_ok.mpr ⟨fixed, hfixed, _⟩
  exact bind_eq_ok.mpr ⟨aged, haged, rfl⟩

theorem currentServerRecord_ok {server : Dict} {now evaluatedAt : DateTime} (hnow : asUtc now = .ok evaluatedAt)
    (hservable : Servable server) (hlate : ¬Late (Dict.get server "scanned_at")) :
    ∃ record, currentServerRecord server now = .ok record := by
  have hrange := hservable.inRange
  cases hscanned : Dict.get server "scanned_at" with
  | str s =>
    rw [hscanned] at hrange hlate
    obtain ⟨freshness, hassess⟩ := assessText_ok hnow hrange hlate
    simp only [currentServerRecord, hscanned, hassess, bind, Except.bind]
    exact ⟨_, rfl⟩
  | _ =>
    simp only [currentServerRecord, hscanned]
    exact ⟨_, rfl⟩

/-! ## Answers -/

/-- A payload is answered at `now`, for every slug asked for. -/
structure Served (interp : Interpreter) (text : Str) (now : DateTime) : Prop where
  listed : ∃ payload, listServersPayload interp (some text) now = .ok payload
  checked : ∀ slug, ∃ payload, checkServerPayload interp (some text) slug now = .ok payload

/-- The admitted catalog of the text has a record whose horizon lies past year 9999. -/
def ServesLate (interp : Interpreter) (text : Str) : Prop :=
  ∃ snapshot servers server, parseCatalogSnapshot interp text = .ok snapshot ∧
    Dict.get snapshot "servers" = .arr servers ∧ Json.obj server ∈ servers ∧ Late (Dict.get server "scanned_at")

theorem slugOf_ok {fields : Dict} (hservable : Servable fields) : ∃ value, slugOf (.obj fields) = .ok value :=
  item_ok (hservable.present "slug" (by decide))

theorem findServer_ok (slug : Str) {servers : List Json}
    (h : ∀ server ∈ servers, ∃ fields, server = .obj fields ∧ Servable fields) :
    ∃ found, findServer slug servers = .ok found ∧ ∀ fields ∈ found, Json.obj fields ∈ servers ∧ Servable fields := by
  induction servers with
  | nil =>
    refine ⟨none, rfl, ?_⟩
    intro fields hfields
    cases hfields
  | cons server servers ih =>
    obtain ⟨fields, rfl, hservable⟩ := h server List.mem_cons_self
    obtain ⟨value, hvalue⟩ := slugOf_ok hservable
    obtain ⟨found, hfound, hmem⟩ := ih fun other hother => h other (List.mem_cons_of_mem _ hother)
    have hstep : findServer slug (.obj fields :: servers) =
        if value.pyEq (.str slug) then .ok (some fields) else findServer slug servers := by
      rw [findServer, hvalue]
      rfl
    rw [hstep]
    split_ifs
    · refine ⟨some fields, rfl, ?_⟩
      rintro _ ⟨⟩
      exact ⟨List.mem_cons_self, hservable⟩
    · refine ⟨found, hfound, fun other hother => ?_⟩
      obtain ⟨hin, hother⟩ := hmem other hother
      exact ⟨List.mem_cons_of_mem _ hin, hother⟩

/-- An answered admission without a late record serves every request. -/
theorem served_of_answered {interp : Interpreter} {text : Str} {bytes : Bytes} (hencoded : encodeUtf8 text = .ok bytes)
    (hanswered : Answered interp text) (hlate : ¬ServesLate interp text) {now evaluatedAt : DateTime}
    (hnow : asUtc now = .ok evaluatedAt) : Served interp text now := by
  cases hparsed : parseCatalogSnapshot interp text with
  | error e =>
    obtain ⟨codes, rfl⟩ | ⟨rfl, hfailed⟩ := hanswered e hparsed
    · have hservers : snapshotServers interp (some text) = .error (validationError codes) := by
        rw [snapshotServers, hparsed]
        rfl
      constructor
      · rw [listServersPayload, hservers, answering, if_pos (isApp_validationError codes)]
        exact ⟨_, rfl⟩
      · intro slug
        rw [checkServerPayload, hservers, answering, if_pos (isApp_validationError codes)]
        exact ⟨_, rfl⟩
    · rw [hencoded] at hfailed
      cases hfailed
  | ok snapshot =>
    obtain ⟨servers, hget, hall⟩ := parse_servable hparsed
    have hservers : snapshotServers interp (some text) = .ok (.arr servers) := by
      rw [snapshotServers, hparsed, ← hget]
      rfl
    have hrecord : ∀ fields, Json.obj fields ∈ servers → Servable fields →
        ∃ record, currentServerRecord fields now = .ok record := by
      intro fields hfields hservable
      apply currentServerRecord_ok hnow hservable
      exact fun hlast => hlate ⟨snapshot, servers, fields, hparsed, hget, hfields, hlast⟩
    constructor
    · have hrows : ∃ rows, servers.mapM (currentRow now) = .ok rows := by
        apply exists_mapM_ok.mpr
        intro server hserver
        obtain ⟨fields, rfl, hservable⟩ := hall server hserver
        obtain ⟨record, hrecord⟩ := hrecord fields hserver hservable
        obtain ⟨row, hrow⟩ := listRow_ok hservable hrecord
        refine ⟨row, ?_⟩
        apply bind_eq_ok.mpr ⟨fields, rfl, _⟩
        exact bind_eq_ok.mpr ⟨record, hrecord, hrow⟩
      obtain ⟨rows, hrows⟩ := hrows
      refine ⟨.listed rows, ?_⟩
      rw [listServersPayload, hservers, answering, hrows]
      rfl
    · intro slug
      obtain ⟨found, hfound, hmem⟩ := findServer_ok slug hall
      rw [checkServerPayload, hservers, answering, hfound]
      cases found with
      | none =>
        have hknown : ∃ known, servers.mapM slugOf = .ok known := by
          apply exists_mapM_ok.mpr
          intro server hserver
          obtain ⟨fields, rfl, hservable⟩ := hall server hserver
          exact slugOf_ok hservable
        obtain ⟨known, hknown⟩ := hknown
        refine ⟨.missing slug known, ?_⟩
        simp only [bind, Except.bind, hknown]
        rfl
      | some fields =>
        obtain ⟨hin, hservable⟩ := hmem fields rfl
        obtain ⟨record, hrecord⟩ := hrecord fields hin hservable
        refine ⟨.record record, ?_⟩
        simp only [bind, Except.bind, hrecord]
        rfl

/-- A late record is not served at the time of its own scan. -/
theorem not_served_of_late {interp : Interpreter} {text : Str} (hlate : ServesLate interp text) :
    ∃ now, asUtc now = .ok now ∧ ¬Served interp text now := by
  obtain ⟨snapshot, servers, server, hparsed, hget, hserver, hlate⟩ := hlate
  have hlate' := hlate
  obtain ⟨s, d, parsed, hscanned, -⟩ := hlate'
  rw [hscanned] at hlate
  obtain ⟨now, hnow, hfailed⟩ := assessText_late hlate
  refine ⟨now, hnow, fun hserved => ?_⟩
  obtain ⟨payload, hpayload⟩ := hserved.listed
  have hservers : snapshotServers interp (some text) = .ok (.arr servers) := by
    rw [snapshotServers, hparsed, ← hget]
    rfl
  rw [listServersPayload, hservers, answering] at hpayload
  cases hrows : servers.mapM (currentRow now) with
  | error e =>
    rw [hrows] at hpayload
    cases hpayload
  | ok rows =>
    obtain ⟨row, hrow⟩ := exists_mapM_ok.mp ⟨rows, hrows⟩ (.obj server) hserver
    obtain ⟨fields, hfields, hrow⟩ := bind_eq_ok.mp hrow
    obtain ⟨record, hrecord, -⟩ := bind_eq_ok.mp hrow
    cases hfields
    simp only [currentServerRecord, hscanned, hfailed, bind, Except.bind] at hrecord
    cases hrecord

end McpTrust.RuntimeSnapshot
