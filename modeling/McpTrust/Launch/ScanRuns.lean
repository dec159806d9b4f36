import McpTrust.Launch.Receipts

/-! # Runs of the scan command

Between upserts and scans in any order, failures included, every recorded scan stays one that
the launch check finds nothing against, its engine and a missing receipt apart.
-/

namespace McpTrust.Launch

set_option autoImplicit false

open Python Sqlite Store

variable {py : Pydantic} {validateSource : SourceModel} {interp : Interpreter} {dumpSource : SourceDump}
  {dump : Serializer} {dumpTime : TimeDump}

/-! ## Recorded rows -/

/-- The receipt of the row is in place under the name the row has for it. -/
structure FiledAs (interp : Interpreter) (receipts : Receipts) (row : ScanRow) (slug id : Str) : Prop where
  slug_valid : isSlug slug = true
  id_valid : isScanId id = true
  length : id.length = 32
  rowId : row.id = .text id
  ref : row.reportRef = .text (receiptName slug id)
  receipt : ReceiptAgrees interp receipts row (receiptName slug id)

/-- What every row a command records keeps. -/
structure Vouched (interp : Interpreter) (used : List Str) (receipts : Receipts) (row : ScanRow) : Prop where
  grade : row.grade ∈ validGrades
  transparency : row.transparency ∈ validTransparency
  rowId : ∃ id ∈ used, row.id = .text id
  receipt : row.reportRef = .null ∨ ∃ slug id, FiledAs interp receipts row slug id

/-- A row by the stub engine, or one without a receipt, is reported; nothing else is. -/
def openErrors (row : ScanRow) : List LaunchError :=
  errorIf (decide (row.engineName = .text (u "stub"))) (.stubEngine row.serverSlug) ++
    errorIf (decide (row.reportRef = .null)) (.missingReportRef row.serverSlug)

theorem checkReceipt_same {row : ScanRow} {fields scanner : Dict} (hscanner : Dict.get fields "scanner" = .obj scanner)
    (h : SameAsRow row fields scanner) : checkReceipt row (.obj fields) = .ok [] := by
  have hmember : scannerOf fields = .ok scanner := by rw [scannerOf, hscanner]
  rw [checkReceipt, hmember]
  change Except.ok (errorIf (!sameValue (Dict.get fields "server_slug") row.serverSlug) _ ++
    errorIf (!sameValue (Dict.get fields "scan_id") row.id) _ ++
    errorIf (!sameValue (Dict.get scanner "engine_name") row.engineName) _ ++
    errorIf (!sameValue (Dict.get scanner "engine_version") row.engineVersion) _) = _
  rw [h.serverSlug, h.scanId, h.engineName, h.engineVersion]
  rfl

theorem FiledAs.checkReportRef {receipts : Receipts} {row : ScanRow} {slug id : Str}
    (h : FiledAs interp receipts row slug id) : checkReportRef interp receipts row = .ok [] := by
  obtain ⟨content, fields, scanner, hentry, hload, hscanner, hsame⟩ := h.receipt
  have htruthy : row.reportRef.truthy = true := by
    rw [h.ref]
    exact decide_eq_true (by simp [receiptName])
  have hfile : checkReceiptFile interp receipts row (receiptName slug id) = .ok [] := by
    rw [checkReceiptFile, hentry]
    simp only [readEntry, hload]
    exact checkReceipt_same hscanner hsame
  rw [Launch.checkReportRef, htruthy, h.ref, isPortableRef_receiptName h.slug_valid h.id_valid]
  exact hfile

theorem Vouched.checkRow {used : List Str} {receipts : Receipts} {row : ScanRow} (h : Vouched interp used receipts row) :
    checkRow interp false receipts row = .ok (openErrors row) := by
  have hcolumns : columnErrors false row =
      errorIf (decide (row.engineName = .text (u "stub"))) (.stubEngine row.serverSlug) := by
    rw [columnErrors, decide_eq_false (not_not.mpr h.grade), decide_eq_false (not_not.mpr h.transparency),
      Bool.not_false, Bool.and_true]
    rfl
  obtain hnull | ⟨slug, id, hfiled⟩ := h.receipt
  · have hmissing : checkReportRef interp receipts row = .ok [.missingReportRef row.serverSlug] := by
      rw [Launch.checkReportRef, hnull]
      rfl
    rw [Launch.checkRow, hmissing, openErrors, decide_eq_true hnull]
    change Except.ok (columnErrors false row ++ _) = _
    rw [hcolumns]
    rfl
  · have hthere : row.reportRef ≠ .null := by
      rw [hfiled.ref]
      exact SqlValue.noConfusion
    rw [Launch.checkRow, hfiled.checkReportRef, openErrors, decide_eq_false hthere]
    change Except.ok (columnErrors false row ++ []) = _
    rw [hcolumns]
    rfl

theorem FiledAs.update {receipts : Receipts} {row : ScanRow} {slug id name : Str} {entry : Option FileEntry}
    (h : FiledAs interp receipts row slug id) (hname : name ≠ receiptName slug id) :
    FiledAs interp (Function.update receipts name entry) row slug id := by
  obtain ⟨content, fields, scanner, hentry, hload, hscanner, hsame⟩ := h.receipt
  refine ⟨h.slug_valid, h.id_valid, h.length, h.rowId, h.ref, content, fields, scanner, ?_, hload, hscanner, hsame⟩
  rw [Function.update_of_ne hname.symm]
  exact hentry

theorem Vouched.update {used : List Str} {receipts : Receipts} {row : ScanRow} {name : Str} {entry : Option FileEntry}
    (h : Vouched interp used receipts row)
    (hname : ∀ slug id, FiledAs interp receipts row slug id → name ≠ receiptName slug id) :
    Vouched interp used (Function.update receipts name entry) row := by
  refine ⟨h.grade, h.transparency, h.rowId, ?_⟩
  obtain hnull | ⟨slug, id, hfiled⟩ := h.receipt
  · exact .inl hnull
  · exact .inr ⟨slug, id, hfiled.update (hname slug id hfiled)⟩

theorem Vouched.used {used more : List Str} {receipts : Receipts} {row : ScanRow} (h : Vouched interp used receipts row)
    (hsub : used ⊆ more) : Vouched interp more receipts row := by
  obtain ⟨id, hid, hrow⟩ := h.rowId
  exact ⟨h.grade, h.transparency, ⟨id, hsub hid, hrow⟩, h.receipt⟩

/-- A scan under a new id has a receipt of another name than any row there is. -/
theorem Vouched.receiptName_ne {used : List Str} {receipts left : Receipts} {row : ScanRow} {slug id rowSlug rowId : Str}
    (h : Vouched interp used receipts row) (hfiled : FiledAs interp left row rowSlug rowId) (hlength : id.length = 32)
    (hfresh : id ∉ used) : receiptName slug id ≠ receiptName rowSlug rowId := by
  intro hname
  have hsame : id = rowId := id_of_receiptName (hlength.trans hfiled.length.symm) hname
  obtain ⟨taken, htaken, hrow⟩ := h.rowId
  rw [hfiled.rowId, SqlValue.text.injEq] at hrow
  rw [hsame, hrow] at hfresh
  exact hfresh htaken

theorem gradeOf_mem (risk : RiskSummary) : SqlValue.text (u (gradeOf risk).text) ∈ validGrades := by
  have hband : ∀ score, band score ∈ gradeOrder := by
    intro score
    unfold band
    cases hfound : gradeBands.find? fun entry => leFloat score (.ofRat entry.1) with
    | none => decide
    | some entry =>
      have hmem : entry.2 ∈ gradeBands.map Prod.snd := List.mem_map_of_mem (List.mem_of_find?_eq_some hfound)
      have hsub : gradeBands.map Prod.snd ⊆ gradeOrder := by decide
      exact hsub hmem
  have hgrade : gradeOf risk ∈ gradeOrder := by
    unfold gradeOf worse
    dsimp only
    split_ifs
    · exact hband _
    · decide
    · exact hband _
  have hall : ∀ grade ∈ gradeOrder, SqlValue.text (u grade.text) ∈ validGrades := by decide
  exact hall _ hgrade

theorem transparency_mem (level : TransparencyLevel) : SqlValue.text (u level.text) ∈ validTransparency := by
  cases level <;> decide

/-! ## One command -/

/-- The models that made a server let its own texts through again, and hold characters only. -/
structure ServerValid (py : Pydantic) (validateSource : SourceModel) (interp : Interpreter) (dumpSource : SourceDump)
    (dumpTime : TimeDump) (server : Server) : Prop where
  restored : Restored py validateSource interp dumpSource server
  texts : ∀ s ∈ serverTexts dumpTime server, Refresh.Clean s

/-- What holds between commands. -/
structure Desk.Holds (py : Pydantic) (validateSource : SourceModel) (interp : Interpreter) (dumpSource : SourceDump)
    (dump : Serializer) (dumpTime : TimeDump) (used : List Str) (desk : Desk) : Prop where
  registry : ∃ calls, desk.registry = emptyRegistry.afterCalls dumpSource dump calls ∧
    ∀ server ∈ upserted dumpSource calls, ServerValid py validateSource interp dumpSource dumpTime server
  rows : ∀ row ∈ desk.registry.scans.rows, Vouched interp used desk.receipts row

variable {desk : Desk} {used : List Str} {call : ScanCall}

theorem afterCalls_concat (calls : List Call) (call : Call) :
    (emptyRegistry.afterCalls dumpSource dump calls).afterCall dumpSource dump call =
      emptyRegistry.afterCalls dumpSource dump (calls ++ [call]) := by
  rw [Registry.afterCalls, Registry.afterCalls, List.foldl_append]
  rfl

/-- The server the command reads is one that was upserted. -/
theorem Desk.Holds.found (h : desk.Holds py validateSource interp dumpSource dump dumpTime used) {slug : Str}
    {server : Server} (hfound : getServer py validateSource interp desk.registry.servers slug = .ok (some server)) :
    ServerValid py validateSource interp dumpSource dumpTime server := by
  obtain ⟨calls, hregistry, hvalid⟩ := h.registry
  have hkept : ∀ server ∈ keptServers dumpSource calls, Restored py validateSource interp dumpSource server := by
    intro server hserver
    have hlast := (Keyed.mem_of_find (mem_kept.mp hserver)).1
    exact (hvalid server (List.mem_reverse.mp hlast)).restored
  obtain ⟨answer, hanswer, hiff⟩ := @getServer_kept dumpSource dump calls py validateSource interp hkept slug
  rw [hregistry, hanswer, Except.ok.injEq] at hfound
  have hlast := (Keyed.mem_of_find ((hiff server).mp hfound).1).1
  exact hvalid server (List.mem_reverse.mp hlast)

/-- What the command has when it comes to write. -/
structure Prepared (py : Pydantic) (validateSource : SourceModel) (interp : Interpreter) (dumpTime : TimeDump)
    (desk : Desk) (call : ScanCall) (scan : ScanRecord) (content : Option Bytes) : Prop where
  made : ∃ server result, getServer py validateSource interp desk.registry.servers call.slug = .ok (some server) ∧
    call.result = some result ∧ MadeFrom call result scan ∧
    ∀ bytes ∈ content, receiptBytes (receiptFields dumpTime call.env server scan) = .ok bytes

theorem prepared_of_ok {scan : ScanRecord} {content : Option Bytes}
    (h : prepareScan py validateSource interp dumpTime desk call = .ok (scan, content)) :
    Prepared py validateSource interp dumpTime desk call scan content := by
  obtain ⟨found, hfound, h⟩ := bind_eq_ok.mp h
  cases found with
  | none => cases h
  | some server =>
    cases hresult : call.result with
    | none =>
      rw [hresult] at h
      cases h
    | some result =>
      rw [hresult] at h
      obtain ⟨made, hmade, h⟩ := bind_eq_ok.mp h
      by_cases hdir : call.env.receiptsDir = true
      · rw [if_pos hdir] at h
        obtain ⟨payload, hpayload, h⟩ := bind_eq_ok.mp h
        obtain ⟨bytes, hbytes, h⟩ := bind_eq_ok.mp h
        cases h
        unfold buildScanReceipt at hpayload
        split_ifs at hpayload
        cases hpayload
        refine ⟨server, result, hfound, hresult, madeFrom_of_ok hmade, ?_⟩
        rintro _ ⟨⟩
        exact hbytes
      · rw [if_neg hdir] at h
        cases h
        refine ⟨server, result, hfound, hresult, madeFrom_of_ok hmade, ?_⟩
        rintro _ ⟨⟩

theorem rows_recorded (registry : Registry) (scan : ScanRecord) :
    (registry.afterCall dumpSource dump (.record scan)).scans.rows = registry.scans.rows ∨
      (registry.afterCall dumpSource dump (.record scan)).scans.rows = registry.scans.rows ++ [scanRow dump scan] := by
  rw [afterCall_record]
  cases hrecord : Store.record dump (slugsOf registry.servers) registry.scans scan with
  | error e => exact .inl rfl
  | ok scans =>
    obtain ⟨all, -, hinsert⟩ := bind_eq_ok.mp hrecord
    split_ifs at hinsert
    right
    exact congrArg ScanTable.rows (Except.ok.inj hinsert).symm

theorem Desk.Holds.recorded (h : desk.Holds py validateSource interp dumpSource dump dumpTime used) {scan : ScanRecord}
    (hrow : Vouched interp used desk.receipts (scanRow dump scan)) :
    (desk.recorded dumpSource dump scan).Holds py validateSource interp dumpSource dump dumpTime used := by
  obtain ⟨calls, hregistry, hvalid⟩ := h.registry
  constructor
  · refine ⟨calls ++ [.record scan], ?_, ?_⟩
    · change desk.registry.afterCall dumpSource dump (.record scan) = _
      rw [hregistry, afterCalls_concat]
    · have hsame : upserted dumpSource (calls ++ [.record scan]) = upserted dumpSource calls := by
        rw [upserted, upserted, List.filterMap_append]
        exact List.append_nil _
      rw [hsame]
      exact hvalid
  · intro row hmem
    change row ∈ (desk.registry.afterCall dumpSource dump (.record scan)).scans.rows at hmem
    obtain hrows | hrows := @rows_recorded dumpSource dump desk.registry scan
    · rw [hrows] at hmem
      exact h.rows row hmem
    · rw [hrows] at hmem
      obtain hmem | hmem := List.mem_append.mp hmem
      · exact h.rows row hmem
      · rw [List.mem_singleton.mp hmem]
        exact hrow

theorem Desk.Holds.upserted (h : desk.Holds py validateSource interp dumpSource dump dumpTime used) {server : Server}
    (hserver : ServerValid py validateSource interp dumpSource dumpTime server) :
    (desk.after py validateSource interp dumpSource dump dumpTime (.upsert server)).Holds py validateSource interp
      dumpSource dump dumpTime used := by
  obtain ⟨calls, hregistry, hvalid⟩ := h.registry
  constructor
  · refine ⟨calls ++ [.upsert server], ?_, ?_⟩
    · change desk.registry.afterCall dumpSource dump (.upsert server) = _
      rw [hregistry, afterCalls_concat]
    · intro other hother
      rw [Store.upserted, List.filterMap_append] at hother
      obtain hother | hother := List.mem_append.mp hother
      · exact hvalid other hother
      · obtain ⟨call, hcall, hstored⟩ := List.mem_filterMap.mp hother
        rw [List.mem_singleton.mp hcall] at hstored
        have hsame := (storedBy_eq_some hstored).1
        cases hsame
        exact hserver
  · intro row hmem
    have hrows : (desk.registry.afterCall dumpSource dump (.upsert server)).scans = desk.registry.scans := by
      rw [afterCall_upsert]
      cases (Store.serverTexts dumpSource server).mapM encodeUtf8 <;> rfl
    change row ∈ (desk.registry.afterCall dumpSource dump (.upsert server)).scans.rows at hmem
    rw [hrows] at hmem
    exact h.rows row hmem

/-- What a scan command is given. -/
structure ScanCall.Valid (call : ScanCall) : Prop where
  result : ∀ result ∈ call.result, result.Valid
  env : call.env.Clean
  id : call.id.length = 32

theorem vouched_scanRow {scan : ScanRecord} {result : ScanResult} {receipts : Receipts} {reportRef : Option Str}
    (hmade : MadeFrom call result scan) (hid : call.id ∈ used)
    (hreceipt : (scanRow dump { scan with reportRef := reportRef }).reportRef = .null ∨
      ∃ slug id, FiledAs interp receipts (scanRow dump { scan with reportRef := reportRef }) slug id) :
    Vouched interp used receipts (scanRow dump { scan with reportRef := reportRef }) := by
  refine ⟨?_, transparency_mem _, ⟨call.id, hid, ?_⟩, hreceipt⟩
  · rw [hmade.record]
    exact gradeOf_mem _
  · rw [hmade.record]
    rfl

/-- The row of a scan whose receipt was written under its name. -/
theorem filedAs_scanRow {server : Server} {result : ScanResult} {scan : ScanRecord} {bytes : Bytes} {receipts : Receipts}
    (hmade : MadeFrom call result scan) (hlength : call.id.length = 32)
    (hwritable : Writable 64 (.obj (receiptFields dumpTime call.env server scan)))
    (hbytes : receiptBytes (receiptFields dumpTime call.env server scan) = .ok bytes)
    (hentry : receipts (receiptName scan.serverSlug scan.id) = some (.file bytes)) :
    FiledAs interp receipts (scanRow dump { scan with reportRef := some (receiptName scan.serverSlug scan.id) })
      scan.serverSlug scan.id := by
  have hid : scan.id = call.id := by rw [hmade.record]
  have hslug : scan.serverSlug = call.slug := by rw [hmade.record]
  obtain ⟨fields, scanner, hload, hscanner, hsame⟩ := receipt_reads_back interp dump hwritable hbytes
    (some (receiptName scan.serverSlug scan.id))
  refine ⟨?_, ?_, ?_, rfl, rfl, ⟨bytes, fields, scanner, hentry, hload, hscanner, hsame⟩⟩
  · rw [hslug]
    exact hmade.slug
  · rw [hid]
    exact hmade.id
  · rw [hid]
    exact hlength

theorem Desk.Holds.scanned (h : desk.Holds py validateSource interp dumpSource dump dumpTime used)
    (hcall : call.Valid) (htime : ∀ time, Refresh.Clean (dumpTime time)) (hfresh : call.id ∉ used) :
    (desk.afterScan py validateSource interp dumpSource dump dumpTime call).Holds py validateSource interp dumpSource dump
      dumpTime (used ++ [call.id]) := by
  have hsub : used ⊆ used ++ [call.id] := List.subset_append_left _ _
  have hid : call.id ∈ used ++ [call.id] := List.mem_append_right _ (List.mem_singleton_self _)
  have hkept : desk.Holds py validateSource interp dumpSource dump dumpTime (used ++ [call.id]) :=
    ⟨h.registry, fun row hrow => (h.rows row hrow).used hsub⟩
  unfold Desk.afterScan
  cases hprepared : prepareScan py validateSource interp dumpTime desk call with
  | error e => exact hkept
  | ok prepared =>
    obtain ⟨scan, content⟩ := prepared
    obtain ⟨server, result, hfound, hresult, hmade, hbytes⟩ := prepared_of_ok hprepared
    cases content with
    | none =>
      have hsame : scan = { scan with reportRef := none } := by rw [hmade.record]
      apply hkept.recorded
      rw [hsame]
      exact vouched_scanRow hmade hid (.inl rfl)
    | some bytes =>
      -- the temporary name is the name of no receipt
      have htemporary (entry : Option FileEntry) : ∀ row ∈ desk.registry.scans.rows, Vouched interp (used ++ [call.id])
          (Function.update desk.receipts (temporaryName (receiptName scan.serverSlug scan.id)) entry) row :=
        fun row hrow => (hkept.rows row hrow).update fun slug id _ => temporaryName_ne _ _ _
      dsimp only
      cases hdisk : call.disk with
      | refused left => exact ⟨h.registry, htemporary left⟩
      | replaced =>
        have hscanId : scan.id = call.id := by rw [hmade.record]
        have hlength : scan.id.length = 32 := by rw [hscanId, hcall.id]
        have hnew : scan.id ∉ used := by
          rw [hscanId]
          exact hfresh
        have hwritable := writable_receiptFields hmade (hcall.result result hresult) hcall.env htime (h.found hfound).texts
        apply Desk.Holds.recorded
        · refine ⟨h.registry, fun row hrow => (htemporary none row hrow).update fun slug id hfiled => ?_⟩
          exact (h.rows row hrow).receiptName_ne hfiled hlength hnew
        · refine vouched_scanRow hmade hid (.inr ⟨scan.serverSlug, scan.id, ?_⟩)
          exact filedAs_scanRow hmade hcall.id hwritable (hbytes bytes rfl) (Function.update_self ..)

/-! ## Runs -/

def scanIds (commands : List Command) : List Str :=
  commands.filterMap fun command => match command with
    | .upsert _ => none
    | .scan call => some call.id

/-- What the commands of a run are given. -/
structure CommandsValid (py : Pydantic) (validateSource : SourceModel) (interp : Interpreter) (dumpSource : SourceDump)
    (dumpTime : TimeDump) (commands : List Command) : Prop where
  servers : ∀ server, Command.upsert server ∈ commands →
    ServerValid py validateSource interp dumpSource dumpTime server
  scans : ∀ call, Command.scan call ∈ commands → call.Valid
  distinct : (scanIds commands).Nodup

variable {commands : List Command}

theorem CommandsValid.tail {command : Command}
    (h : CommandsValid py validateSource interp dumpSource dumpTime (command :: commands)) :
    CommandsValid py validateSource interp dumpSource dumpTime commands := by
  refine ⟨fun server hmem => h.servers server (List.mem_cons_of_mem _ hmem),
    fun call hmem => h.scans call (List.mem_cons_of_mem _ hmem), ?_⟩
  have hdistinct := h.distinct
  cases command with
  | upsert server => exact hdistinct
  | scan call => exact (List.nodup_cons.mp hdistinct).2

/-- The id of the scan is new, and after it so are the ids of the scans that follow. -/
theorem CommandsValid.fresh (h : CommandsValid py validateSource interp dumpSource dumpTime (.scan call :: commands))
    (hfresh : ∀ id ∈ scanIds (.scan call :: commands), id ∉ used) :
    call.id ∉ used ∧ ∀ id ∈ scanIds commands, id ∉ used ++ [call.id] := by
  have hall : ∀ id ∈ call.id :: scanIds commands, id ∉ used := hfresh
  have hdistinct : (call.id :: scanIds commands).Nodup := h.distinct
  refine ⟨hall _ List.mem_cons_self, fun id hid hmem => ?_⟩
  obtain hmem | hmem := List.mem_append.mp hmem
  · exact hall id (List.mem_cons_of_mem _ hid) hmem
  · rw [List.mem_singleton.mp hmem] at hid
    exact (List.nodup_cons.mp hdistinct).1 hid

theorem holds_afterAll (hcommands : CommandsValid py validateSource interp dumpSource dumpTime commands)
    (htime : ∀ time, Refresh.Clean (dumpTime time))
    (h : desk.Holds py validateSource interp dumpSource dump dumpTime used) (hfresh : ∀ id ∈ scanIds commands, id ∉ used) :
    (desk.afterAll py validateSource interp dumpSource dump dumpTime commands).Holds py validateSource interp dumpSource
      dump dumpTime (used ++ scanIds commands) := by
  induction commands generalizing desk used with
  | nil =>
    rw [scanIds, List.filterMap_nil, List.append_nil]
    exact h
  | cons command commands ih =>
    cases command with
    | upsert server =>
      have hnext := h.upserted (hcommands.servers server List.mem_cons_self)
      exact ih hcommands.tail hnext hfresh
    | scan call =>
      obtain ⟨hnew, hrest⟩ := hcommands.fresh hfresh
      have hnext := h.scanned (hcommands.scans call List.mem_cons_self) htime hnew
      have hend := ih hcommands.tail hnext hrest
      rw [List.append_assoc] at hend
      exact hend

theorem holds_run (dump : Serializer) (receipts : Receipts)
    (htime : ∀ time, Refresh.Clean (dumpTime time))
    (hcommands : CommandsValid py validateSource interp dumpSource dumpTime commands) :
    (Desk.afterAll py validateSource interp dumpSource dump dumpTime ⟨emptyRegistry, receipts⟩ commands).Holds py
      validateSource interp dumpSource dump dumpTime (scanIds commands) := by
  have hstart : Desk.Holds py validateSource interp dumpSource dump dumpTime [] ⟨emptyRegistry, receipts⟩ := by
    refine ⟨⟨[], rfl, fun server hserver => absurd hserver List.not_mem_nil⟩, fun row hrow => ?_⟩
    exact absurd hrow List.not_mem_nil
  have hend := holds_afterAll hcommands htime hstart fun id _ => List.not_mem_nil
  exact hend

def plainEnv : ScanEnv where
  receiptsDir := true
  sandbox := some (u "docker")
  sandboxNetwork := none
  credentials := none
  scannerGitRef := none
  approvalRef := none

def calmResult : ScanResult where
  engineName := u "mcpaudit"
  engineVersion := u "1.0"
  risk := calmRisk
  findings := []
  evidence := none
  sandboxImage := none

def plainCall : ScanCall where
  slug := u "a"
  result := some calmResult
  id := u "0123456789abcdef0123456789abcdef"
  now := secondTime
  env := plainEnv
  disk := .replaced

def plainTime : TimeDump := fun _ => u "2026-01-02T00:00:00Z"

/-- A scan between two upserts of its server. -/
def plainCommands : List Command := [.upsert (plainServer "First"), .scan plainCall, .upsert (plainServer "Second")]

theorem plainServer_valid (name : String) : ServerValid calmModels (fun _ => some plainSource) calmInterpreter
    (fun _ => plainSourceText) plainTime (plainServer name) := by
  refine ⟨plainServer_restored name, ?_⟩
  have htexts : serverTexts plainTime (plainServer name) =
      [u "a", u name, u "", u "2026-01-02T00:00:00Z", u "a"] := rfl
  rw [htexts]
  simp only [List.forall_mem_cons, List.not_mem_nil, false_imp_iff, implies_true, and_true]
  exact ⟨Corpus.clean_u _, Corpus.clean_u _, Corpus.clean_u _, Corpus.clean_u _, Corpus.clean_u _⟩

theorem scored_zero : Scored (.ofRat 0) := ⟨0, by decide +kernel, by decide, by decide⟩

theorem scored_one : Scored (.ofRat 1) := ⟨1, by decide +kernel, by decide, by decide⟩

theorem calmRisk_inRange : calmRisk.InRange := by
  unfold calmRisk
  constructor <;> (dsimp only; exact scored_zero)

theorem calmRisk_coverage : Scored calmRisk.annotationCoverage := by
  unfold calmRisk
  dsimp only
  exact scored_one

theorem calmResult_valid : calmResult.Valid := by
  refine ⟨Corpus.clean_u "mcpaudit", Corpus.clean_u "1.0", ?_, ?_, ?_, calmRisk_inRange, calmRisk_coverage, List.nodup_nil⟩
  · exact fun _ hnone => absurd hnone List.not_mem_nil
  · rintro _ ⟨⟩
  · rintro _ ⟨⟩

theorem plainCall_valid : plainCall.Valid := by
  refine ⟨?_, ?_, rfl⟩
  · rintro _ ⟨⟩
    exact calmResult_valid
  · refine ⟨?_, ?_, ?_, ?_, ?_⟩
    · rintro _ ⟨⟩
      exact Corpus.clean_u "docker"
    all_goals rintro _ ⟨⟩

theorem upsert_mem_plainCommands {server : Server} (h : .upsert server ∈ plainCommands) :
    ∃ name, server = plainServer name := by
  simp only [plainCommands, List.mem_cons, Command.upsert.injEq, reduceCtorEq, List.not_mem_nil, or_false,
    false_or] at h
  obtain h | h := h
  · exact ⟨"First", h⟩
  · exact ⟨"Second", h⟩

theorem scan_mem_plainCommands {call : ScanCall} (h : .scan call ∈ plainCommands) : call = plainCall := by
  simp only [plainCommands, List.mem_cons, Command.scan.injEq, reduceCtorEq, List.not_mem_nil, or_false,
    false_or] at h
  exact h

theorem plainCommands_valid : CommandsValid calmModels (fun _ => some plainSource) calmInterpreter
    (fun _ => plainSourceText) plainTime plainCommands := by
  refine ⟨fun server hserver => ?_, fun call hcall => ?_, List.nodup_singleton _⟩
  · obtain ⟨name, rfl⟩ := upsert_mem_plainCommands hserver
    exact plainServer_valid name
  · rw [scan_mem_plainCommands hcall]
    exact plainCall_valid

end McpTrust.Launch
