import McpTrust.Launch.ScanRuns
import McpTrust.Corpus.Drafts

/-! # The log of a run

The tables of the database refine a plain log: the servers under their slugs, and the scans that
went through in the order of their commands. None of them is lost, and none stands there twice.
-/

namespace McpTrust.Launch

set_option autoImplicit false

open Python Sqlite Store

/-- The servers under their slugs and the scans that went through, oldest first. -/
structure ScanLog where
  servers : List Server
  scans : List ScanRecord

section Log

variable (dumpTime : TimeDump)

/-- The scan of a known server as it goes through: the engine returns, the slug and the id are well
formed, and the receipt, if one is asked for, is written. -/
def ScanCall.outcome (call : ScanCall) (server : Server) : Option ScanRecord :=
  match call.result.map call.record with
  | some (.ok scan) =>
    if call.env.receiptsDir then
      match receiptBytes (receiptFields dumpTime call.env server scan), call.disk with
      | .ok _, .replaced => some { scan with reportRef := some (receiptName call.slug call.id) }
      | _, _ => none
    else some scan
  | _ => none

def ScanLog.outcome (log : ScanLog) (call : ScanCall) : Option ScanRecord :=
  (Keyed.find Server.slug log.servers call.slug).bind (call.outcome dumpTime)

def ScanLog.after (log : ScanLog) : Command → ScanLog
  | .upsert server => { log with servers := Keyed.put Server.slug log.servers server }
  | .scan call => { log with scans := log.scans ++ (log.outcome dumpTime call).toList }

def ScanLog.afterAll (commands : List Command) : ScanLog := commands.foldl (ScanLog.after dumpTime) ⟨[], []⟩

end Log

/-! ## What the statements take -/

/-- The texts the statements bind can be encoded, and the times are in UTC. -/
structure Bindable (dumpSource : SourceDump) (dump : Serializer) (commands : List Command) : Prop where
  servers : ∀ server, Command.upsert server ∈ commands →
    (∀ s ∈ Store.serverTexts dumpSource server, Refresh.Clean s) ∧ FitsColumn (dumpSource server.source)
  times : ∀ call, Command.scan call ∈ commands → call.now.offset = some 0
  risk : ∀ risk, Refresh.Clean (dump.risk risk)
  evidence : ∀ evidence, Refresh.Clean (dump.evidence evidence)

/-- The tables hold what the log holds. -/
structure Shows (dumpSource : SourceDump) (dump : Serializer) (desk : Desk) (log : ScanLog) : Prop where
  servers : desk.registry.servers.rows = log.servers.map (serverRow dumpSource)
  scans : desk.registry.scans.rows = log.scans.map (scanRow dump)

/-- What holds of a log between commands. -/
structure ScanLog.Kept (py : Pydantic) (validateSource : SourceModel) (interp : Interpreter) (dumpSource : SourceDump)
    (used : List Str) (log : ScanLog) : Prop where
  restored : ∀ server ∈ log.servers, Restored py validateSource interp dumpSource server ∧
    Refresh.Clean (dumpSource server.source) ∧ FitsColumn (dumpSource server.source)
  ids : ∀ scan ∈ log.scans, scan.id ∈ used

variable {py : Pydantic} {validateSource : SourceModel} {interp : Interpreter} {dumpSource : SourceDump}
  {dump : Serializer} {dumpTime : TimeDump} {desk : Desk} {log : ScanLog} {used : List Str} {call : ScanCall}
  {commands : List Command}

theorem Bindable.tail {command : Command} (h : Bindable dumpSource dump (command :: commands)) :
    Bindable dumpSource dump commands :=
  ⟨fun server hmem => h.servers server (List.mem_cons_of_mem _ hmem),
    fun call hmem => h.times call (List.mem_cons_of_mem _ hmem), h.risk, h.evidence⟩

theorem encodes_all {texts : List Str} (h : ∀ s ∈ texts, Refresh.Clean s) : ∃ all, texts.mapM encodeUtf8 = .ok all :=
  exists_mapM_ok.mpr fun s hs => ⟨_, encodeUtf8_eq_ok (h s hs)⟩

theorem clean_of_ascii {s : Str} (h : Ascii s) : Refresh.Clean s := by
  intro c hc
  have hlow := h c hc
  simp only [isSurrogate, Bool.and_eq_false_iff, decide_eq_false_iff_not]
  omega

/-- The command finds a server exactly where the log has one. -/
theorem Shows.getServer (h : Shows dumpSource dump desk log)
    (hkept : log.Kept py validateSource interp dumpSource used) (slug : Str) :
    getServer py validateSource interp desk.registry.servers slug = .ok (Keyed.find Server.slug log.servers slug) := by
  unfold Store.getServer
  rw [h.servers, find_serverRow]
  cases hfound : Keyed.find Server.slug log.servers slug with
  | none => rfl
  | some server =>
    obtain ⟨hrestored, hclean, hfits⟩ := hkept.restored server (Keyed.mem_of_find hfound).1
    exact (rowToServer_stored (encodeUtf8_eq_ok hclean) hrestored).1 hfits

theorem mem_slugsOf (h : Shows dumpSource dump desk log) {server : Server} (hserver : server ∈ log.servers) :
    server.slug ∈ slugsOf desk.registry.servers := by
  unfold slugsOf
  rw [h.servers, List.mem_filterMap]
  exact ⟨serverRow dumpSource server, List.mem_map_of_mem hserver, rfl⟩

/-! ## One command -/

theorem Shows.upserted (h : Shows dumpSource dump desk log) {server : Server}
    (hclean : ∀ s ∈ Store.serverTexts dumpSource server, Refresh.Clean s) :
    Shows dumpSource dump (desk.after py validateSource interp dumpSource dump dumpTime (.upsert server))
      (log.after dumpTime (.upsert server)) := by
  obtain ⟨all, hall⟩ := encodes_all hclean
  have hregistry : desk.registry.afterCall dumpSource dump (.upsert server) =
      { desk.registry with servers :=
        ⟨Keyed.put ServerRow.slug desk.registry.servers.rows (serverRow dumpSource server), uniqueSlugs_put _ _⟩ } := by
    rw [afterCall_upsert, hall]
  constructor
  · change (desk.registry.afterCall dumpSource dump (.upsert server)).servers.rows = _
    rw [hregistry]
    change Keyed.put ServerRow.slug desk.registry.servers.rows (serverRow dumpSource server) = _
    rw [h.servers, ← put_serverRow]
    rfl
  · change (desk.registry.afterCall dumpSource dump (.upsert server)).scans.rows = _
    rw [hregistry]
    exact h.scans

/-- A scan of a known server under a new id is inserted. -/
theorem Shows.recorded (h : Shows dumpSource dump desk log) {scan : ScanRecord} {receipts : Receipts}
    (hclean : ∀ s ∈ boundTexts dump scan, Refresh.Clean s) (hfresh : ∀ other ∈ log.scans, other.id ≠ scan.id)
    (hslug : scan.serverSlug ∈ slugsOf desk.registry.servers) :
    Shows dumpSource dump (Desk.recorded dumpSource dump ⟨desk.registry, receipts⟩ scan)
      { log with scans := log.scans ++ [scan] } := by
  obtain ⟨all, hall⟩ := encodes_all hclean
  have hunused : (scanRow dump scan).id ∉ desk.registry.scans.rows.map ScanRow.id := by
    intro hmem
    rw [h.scans, List.map_map] at hmem
    obtain ⟨other, hother, hid⟩ := List.mem_map.mp hmem
    exact hfresh other hother (SqlValue.text.inj hid)
  have hrecord : Store.record dump (slugsOf desk.registry.servers) desk.registry.scans scan =
      .ok ⟨desk.registry.scans.rows ++ [scanRow dump scan], uniqueIds_append hunused⟩ := by
    rw [Store.record, hall]
    exact (dif_pos hunused).trans (if_pos hslug)
  constructor
  · change (desk.registry.afterCall dumpSource dump (.record scan)).servers.rows = _
    rw [afterCall_record, hrecord]
    exact h.servers
  · change (desk.registry.afterCall dumpSource dump (.record scan)).scans.rows = _
    rw [afterCall_record, hrecord]
    change desk.registry.scans.rows ++ [scanRow dump scan] = _
    rw [h.scans, List.map_append]
    rfl

theorem clean_boundTexts {result : ScanResult} {scan : ScanRecord} (hmade : MadeFrom call result scan)
    (hresult : result.Valid) (hnow : call.now.offset = some 0) (hrisk : ∀ risk, Refresh.Clean (dump.risk risk))
    (hevidence : ∀ evidence, Refresh.Clean (dump.evidence evidence)) {reportRef : Option Str}
    (href : ∀ s ∈ reportRef, Refresh.Clean s) :
    ∀ s ∈ boundTexts dump { scan with reportRef := reportRef }, Refresh.Clean s := by
  have hid : Refresh.Clean call.id := clean_of_nameChars (nameChar_scanId hmade.id)
  have hslug : Refresh.Clean call.slug := clean_of_nameChars (nameChar_slug hmade.slug)
  have hfindings : Refresh.Clean (findingsText result.findings) := clean_of_ascii (ascii_findingsText _)
  have htime : Refresh.Clean call.now.isoformat := clean_of_ascii (ascii_isoformat hnow)
  rw [hmade.record]
  simp only [boundTexts, List.forall_mem_append, List.forall_mem_cons, List.not_mem_nil, false_imp_iff, implies_true,
    and_true, Option.mem_toList, Option.map_eq_some_iff, forall_exists_index, and_imp, forall_apply_eq_imp_iff₂]
  refine ⟨⟨⟨⟨⟨hid, hslug, hresult.engineName, hresult.engineVersion, Corpus.clean_u _, Corpus.clean_u _, hrisk _, hfindings⟩,
    ?_⟩, htime⟩, hresult.sandboxImage⟩, href⟩
  exact fun evidence _ => hevidence evidence

theorem ScanLog.outcome_known {server : Server} (h : Keyed.find Server.slug log.servers call.slug = some server) :
    log.outcome dumpTime call = call.outcome dumpTime server := by
  rw [ScanLog.outcome, h]
  rfl

theorem ScanLog.after_none (h : log.outcome dumpTime call = none) : log.after dumpTime (.scan call) = log := by
  rw [ScanLog.after, h, Option.toList_none, List.append_nil]

theorem ScanLog.after_some {scan : ScanRecord} (h : log.outcome dumpTime call = some scan) :
    log.after dumpTime (.scan call) = { log with scans := log.scans ++ [scan] } := by
  rw [ScanLog.after, h, Option.toList_some]

theorem prepareScan_made {server : Server} {result : ScanResult} {scan : ScanRecord}
    (hfound : getServer py validateSource interp desk.registry.servers call.slug = .ok (some server))
    (hslug : server.slug = call.slug) (hresult : call.result = some result) (hrecord : call.record result = .ok scan) :
    prepareScan py validateSource interp dumpTime desk call =
      if call.env.receiptsDir then
        (receiptBytes (receiptFields dumpTime call.env server scan)).map fun content => (scan, some content)
      else .ok (scan, none) := by
  have hsame : server.slug = scan.serverSlug := by rw [hslug, (madeFrom_of_ok hrecord).record]
  have hbuilt : buildScanReceipt dumpTime call.env server scan = .ok (receiptFields dumpTime call.env server scan) :=
    if_neg (not_not.mpr hsame)
  unfold prepareScan
  rw [hfound, hresult]
  change (call.record result >>= fun scan =>
    if call.env.receiptsDir then
      buildScanReceipt dumpTime call.env server scan >>= fun payload =>
        receiptBytes payload >>= fun content => Except.ok (scan, some content)
    else .ok (scan, none)) = _
  rw [hrecord]
  change (if call.env.receiptsDir then
      buildScanReceipt dumpTime call.env server scan >>= fun payload =>
        receiptBytes payload >>= fun content => Except.ok (scan, some content)
    else Except.ok (scan, none)) = _
  rw [hbuilt]
  split_ifs
  · change (receiptBytes (receiptFields dumpTime call.env server scan) >>= fun content =>
      Except.ok (scan, some content)) = _
    cases receiptBytes (receiptFields dumpTime call.env server scan) <;> rfl
  · rfl

theorem outcome_of_record {server : Server} {result : ScanResult} {scan : ScanRecord}
    (hresult : call.result = some result) (hrecord : call.record result = .ok scan) : call.outcome dumpTime server =
      if call.env.receiptsDir then
        match receiptBytes (receiptFields dumpTime call.env server scan), call.disk with
        | .ok _, .replaced => some { scan with reportRef := some (receiptName call.slug call.id) }
        | _, _ => none
      else some scan := by
  rw [ScanCall.outcome, hresult, Option.map_some, hrecord]

/-- Where nothing is prepared, nothing is recorded. -/
theorem Shows.unprepared (h : Shows dumpSource dump desk log) {e : PyErr}
    (hprepared : prepareScan py validateSource interp dumpTime desk call = .error e)
    (houtcome : log.outcome dumpTime call = none) :
    Shows dumpSource dump (desk.afterScan py validateSource interp dumpSource dump dumpTime call)
      (log.after dumpTime (.scan call)) := by
  rw [Desk.afterScan, hprepared, ScanLog.after_none houtcome]
  exact h

theorem Shows.made (h : Shows dumpSource dump desk log) {server : Server} {result : ScanResult} {scan : ScanRecord}
    (hget : Store.getServer py validateSource interp desk.registry.servers call.slug = .ok (some server))
    (hfound : Keyed.find Server.slug log.servers call.slug = some server)
    (hresult : call.result = some result) (hrecord : call.record result = .ok scan) (hvalid : result.Valid)
    (hnow : call.now.offset = some 0) (hrisk : ∀ risk, Refresh.Clean (dump.risk risk))
    (hevidence : ∀ evidence, Refresh.Clean (dump.evidence evidence)) (hnew : ∀ other ∈ log.scans, other.id ≠ call.id) :
    Shows dumpSource dump (desk.afterScan py validateSource interp dumpSource dump dumpTime call)
      (log.after dumpTime (.scan call)) := by
  obtain ⟨hmem, hslug⟩ := Keyed.mem_of_find hfound
  have hmade := madeFrom_of_ok hrecord
  have hid : scan.id = call.id := by rw [hmade.record]
  have hscanSlug : scan.serverSlug = call.slug := by rw [hmade.record]
  have hknown : scan.serverSlug ∈ slugsOf desk.registry.servers := by
    rw [hscanSlug, ← hslug]
    exact mem_slugsOf h hmem
  rw [← hid] at hnew
  have hprepared := @prepareScan_made _ _ _ dumpTime _ _ _ _ _ hget hslug hresult hrecord
  have hstored := (@ScanLog.outcome_known dumpTime _ _ _ hfound).trans (outcome_of_record hresult hrecord)
  have hclean {reportRef : Option Str} (href : ∀ s ∈ reportRef, Refresh.Clean s) :=
    clean_boundTexts hmade hvalid hnow hrisk hevidence href
  by_cases hdir : call.env.receiptsDir = true
  · rw [if_pos hdir] at hprepared hstored
    cases hbytes : receiptBytes (receiptFields dumpTime call.env server scan) with
    | error e =>
      rw [hbytes] at hprepared hstored
      exact h.unprepared hprepared hstored
    | ok content =>
      rw [hbytes] at hprepared hstored
      have hready : prepareScan py validateSource interp dumpTime desk call = .ok (scan, some content) := hprepared
      rw [Desk.afterScan, hready]
      dsimp only
      cases hdisk : call.disk with
      | refused left =>
        rw [hdisk] at hstored
        rw [ScanLog.after_none hstored]
        exact ⟨h.servers, h.scans⟩
      | replaced =>
        rw [hdisk, ← hscanSlug, ← hid] at hstored
        rw [ScanLog.after_some hstored]
        have href : ∀ s ∈ some (receiptName scan.serverSlug scan.id), Refresh.Clean s := by
          rintro _ ⟨⟩
          rw [hscanSlug, hid]
          exact clean_of_nameChars (nameChar_receiptName hmade.slug hmade.id)
        exact h.recorded (hclean href) hnew hknown
  · rw [if_neg hdir] at hprepared hstored
    rw [Desk.afterScan, hprepared, ScanLog.after_some hstored]
    have hplain : scan = { scan with reportRef := none } := by rw [hmade.record]
    have hnone : ∀ s ∈ (none : Option Str), Refresh.Clean s := fun s hs => absurd hs (Option.not_mem_none s)
    have htexts := hclean hnone
    rw [← hplain] at htexts
    exact h.recorded htexts hnew hknown

theorem Shows.scanned (h : Shows dumpSource dump desk log)
    (hkept : log.Kept py validateSource interp dumpSource used) (hcall : call.Valid) (hnow : call.now.offset = some 0)
    (hrisk : ∀ risk, Refresh.Clean (dump.risk risk)) (hevidence : ∀ evidence, Refresh.Clean (dump.evidence evidence))
    (hfresh : call.id ∉ used) :
    Shows dumpSource dump (desk.afterScan py validateSource interp dumpSource dump dumpTime call)
      (log.after dumpTime (.scan call)) := by
  have hget := h.getServer hkept call.slug
  cases hfound : Keyed.find Server.slug log.servers call.slug with
  | none =>
    have hprepared : prepareScan py validateSource interp dumpTime desk call =
        .error (.app "Exit" "server not found") := by
      rw [prepareScan, hget, hfound]
      rfl
    have houtcome : log.outcome dumpTime call = none := by
      rw [ScanLog.outcome, hfound]
      rfl
    exact h.unprepared hprepared houtcome
  | some server =>
    rw [hfound] at hget
    have houtcome : log.outcome dumpTime call = call.outcome dumpTime server := ScanLog.outcome_known hfound
    cases hresult : call.result with
    | none =>
      have hprepared : prepareScan py validateSource interp dumpTime desk call =
          .error (.app "Exit" "scan failed") := by
        rw [prepareScan, hget, hresult]
        rfl
      have hnone : call.outcome dumpTime server = none := by rw [ScanCall.outcome, hresult, Option.map_none]
      exact h.unprepared hprepared (houtcome.trans hnone)
    | some result =>
      cases hrecord : call.record result with
      | error e =>
        have hprepared : prepareScan py validateSource interp dumpTime desk call = .error e := by
          rw [prepareScan, hget, hresult]
          change (call.record result >>= _) = _
          rw [hrecord]
          rfl
        have hnone : call.outcome dumpTime server = none := by
          rw [ScanCall.outcome, hresult, Option.map_some, hrecord]
        exact h.unprepared hprepared (houtcome.trans hnone)
      | ok scan =>
        have hnew : ∀ other ∈ log.scans, other.id ≠ call.id := by
          intro other hother hsame
          exact hfresh (hsame ▸ hkept.ids other hother)
        exact h.made hget hfound hresult hrecord (hcall.result result hresult) hnow hrisk hevidence hnew

theorem outcome_id {server : Server} {scan : ScanRecord} (h : call.outcome dumpTime server = some scan) :
    scan.id = call.id := by
  cases hresult : call.result with
  | none =>
    rw [ScanCall.outcome, hresult] at h
    cases h
  | some result =>
    cases hrecord : call.record result with
    | error e =>
      rw [ScanCall.outcome, hresult, Option.map_some, hrecord] at h
      cases h
    | ok made =>
      have hid : made.id = call.id := by rw [(madeFrom_of_ok hrecord).record]
      rw [outcome_of_record hresult hrecord] at h
      split_ifs at h
      · split at h
        · cases h
          exact hid
        · cases h
      · cases h
        exact hid

theorem ScanLog.Kept.scanned (hkept : log.Kept py validateSource interp dumpSource used) :
    (log.after dumpTime (.scan call)).Kept py validateSource interp dumpSource (used ++ [call.id]) := by
  refine ⟨hkept.restored, fun scan hscan => ?_⟩
  obtain hscan | hscan := List.mem_append.mp hscan
  · exact List.mem_append_left _ (hkept.ids scan hscan)
  · obtain ⟨server, -, houtcome⟩ := Option.bind_eq_some_iff.mp (Option.mem_toList.mp hscan)
    rw [outcome_id houtcome]
    exact List.mem_append_right _ (List.mem_singleton_self _)

theorem mem_put {servers : List Server} {server other : Server} (h : other ∈ Keyed.put Server.slug servers server) :
    other = server ∨ other ∈ servers := by
  unfold Keyed.put at h
  split_ifs at h
  · obtain ⟨old, hold, hsame⟩ := List.mem_map.mp h
    split_ifs at hsame
    · exact .inl hsame.symm
    · exact .inr (hsame ▸ hold)
  · obtain h | h := List.mem_append.mp h
    · exact .inr h
    · exact .inl (List.mem_singleton.mp h)

theorem ScanLog.Kept.upserted (hkept : log.Kept py validateSource interp dumpSource used) {server : Server}
    (hserver : Restored py validateSource interp dumpSource server ∧ Refresh.Clean (dumpSource server.source) ∧
      FitsColumn (dumpSource server.source)) :
    (log.after dumpTime (.upsert server)).Kept py validateSource interp dumpSource used := by
  refine ⟨fun other hother => ?_, hkept.ids⟩
  obtain rfl | hother := mem_put hother
  · exact hserver
  · exact hkept.restored other hother

/-! ## Runs -/

theorem shows_afterAll (hcommands : CommandsValid py validateSource interp dumpSource dumpTime commands)
    (hbind : Bindable dumpSource dump commands) (h : Shows dumpSource dump desk log)
    (hkept : log.Kept py validateSource interp dumpSource used) (hfresh : ∀ id ∈ scanIds commands, id ∉ used) :
    Shows dumpSource dump (desk.afterAll py validateSource interp dumpSource dump dumpTime commands)
      (commands.foldl (ScanLog.after dumpTime) log) := by
  induction commands generalizing desk log used with
  | nil => exact h
  | cons command commands ih =>
    cases command with
    | upsert server =>
      obtain ⟨htexts, hfits⟩ := hbind.servers server List.mem_cons_self
      have hsource : Refresh.Clean (dumpSource server.source) := htexts _ (by simp [Store.serverTexts])
      have hrestored := (hcommands.servers server List.mem_cons_self).restored
      exact ih hcommands.tail hbind.tail (h.upserted htexts) (hkept.upserted ⟨hrestored, hsource, hfits⟩) hfresh
    | scan call =>
      obtain ⟨hnew, hrest⟩ := hcommands.fresh hfresh
      have hnext : Shows dumpSource dump (desk.afterScan py validateSource interp dumpSource dump dumpTime call)
          (log.after dumpTime (.scan call)) :=
        h.scanned hkept (hcommands.scans call List.mem_cons_self) (hbind.times call List.mem_cons_self) hbind.risk
          hbind.evidence hnew
      exact ih hcommands.tail hbind.tail hnext hkept.scanned hrest

/-- The scans of a log stand in the order of their commands. -/
theorem sublist_scanIds : List.Sublist ((commands.foldl (ScanLog.after dumpTime) log).scans.map ScanRecord.id)
    (log.scans.map ScanRecord.id ++ scanIds commands) := by
  induction commands generalizing log with
  | nil =>
    rw [scanIds, List.filterMap_nil, List.append_nil]
    exact List.Sublist.refl _
  | cons command commands ih =>
    cases command with
    | upsert server => exact ih
    | scan call =>
      refine ih.trans ?_
      have hids : scanIds (.scan call :: commands) = [call.id] ++ scanIds commands := rfl
      rw [hids, ← List.append_assoc]
      refine List.Sublist.append ?_ (List.Sublist.refl _)
      cases houtcome : log.outcome dumpTime call with
      | none =>
        rw [ScanLog.after_none houtcome]
        exact List.sublist_append_left _ _
      | some scan =>
        obtain ⟨server, -, hscan⟩ := Option.bind_eq_some_iff.mp houtcome
        rw [ScanLog.after_some houtcome, List.map_append, List.map_singleton, outcome_id hscan]

theorem shows_run (receipts : Receipts) (hcommands : CommandsValid py validateSource interp dumpSource dumpTime commands)
    (hbind : Bindable dumpSource dump commands) :
    Shows dumpSource dump (Desk.afterAll py validateSource interp dumpSource dump dumpTime ⟨emptyRegistry, receipts⟩
      commands) (ScanLog.afterAll dumpTime commands) := by
  have hstart : Shows dumpSource dump ⟨emptyRegistry, receipts⟩ ⟨[], []⟩ := ⟨rfl, rfl⟩
  have hkept : ScanLog.Kept py validateSource interp dumpSource [] ⟨[], []⟩ :=
    ⟨fun server hserver => absurd hserver List.not_mem_nil, fun scan hscan => absurd hscan List.not_mem_nil⟩
  exact shows_afterAll hcommands hbind hstart hkept fun id _ => List.not_mem_nil

theorem plainCommands_bindable : Bindable (fun _ => plainSourceText) calmSerializer plainCommands := by
  have htexts (name : String) : ∀ s ∈ Store.serverTexts (fun _ => plainSourceText) (plainServer name),
      Refresh.Clean s := by
    have hall : Store.serverTexts (fun _ => plainSourceText) (plainServer name) =
        [u "a", u name, u "", plainSourceText, (plainServer name).addedAt.isoformat] := rfl
    rw [hall]
    simp only [List.forall_mem_cons, List.not_mem_nil, false_imp_iff, implies_true, and_true]
    exact ⟨Corpus.clean_u _, Corpus.clean_u _, Corpus.clean_u _, Corpus.clean_u _, clean_of_ascii (ascii_isoformat rfl)⟩
  have hrisk (risk : RiskSummary) : Refresh.Clean (calmSerializer.risk risk) := by
    unfold calmSerializer calmRiskText
    dsimp only
    exact Corpus.clean_u _
  refine ⟨fun server hserver => ?_, fun call hcall => ?_, hrisk, fun _ => Corpus.clean_u "\x7b\x7d"⟩
  · obtain ⟨name, rfl⟩ := upsert_mem_plainCommands hserver
    exact ⟨htexts name, plainSource_fits⟩
  · rw [scan_mem_plainCommands hcall]
    rfl

end McpTrust.Launch
