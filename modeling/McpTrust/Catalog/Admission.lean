import McpTrust.Catalog.SnapshotTrust

/-! # Which catalog texts the admission answers

`parse_catalog_snapshot` catches what the JSON parser raises. The arithmetic of the
freshness binding stands outside every handler, so a timestamp or an age out of
range escapes as `OverflowError`.
-/

namespace McpTrust.RuntimeSnapshot

set_option autoImplicit false

open Python

/-! ## Values out of range -/

/-- An aware timestamp, before it is converted to UTC. -/
def Stamp (v : Json) (d : DateTime) : Prop :=
  ∃ s, v = .str s ∧ fromisoformat (expandZulu s) = some d ∧ d.offset.isSome = true

/-- An aware timestamp at an instant `datetime` can represent in UTC. -/
def StampAt (v : Json) (instant : ℤ) : Prop :=
  ∃ d, Stamp v d ∧ d.instant = instant ∧ 0 ≤ instant ∧ instant < maxMicros

/-- An aware timestamp whose UTC form lies outside the years 1 to 9999. -/
def Unrepresentable (v : Json) : Prop := ∃ d, Stamp v d ∧ ¬(0 ≤ d.instant ∧ d.instant < maxMicros)

/-- The record was scanned no later than the catalog was generated. -/
structure Aged (generatedAt : Json) (server : Dict) (scanned : ℤ) : Prop where
  stamp : StampAt (Dict.get server "scanned_at") scanned
  age : ∃ generated, StampAt generatedAt generated ∧ ¬DateTime.totalSeconds (generated - scanned) < 0

/-- A server record whose freshness binding leaves the range of `datetime` or of `float`. -/
inductive Overflowing (generatedAt : Json) (server : Dict) : Prop
  | generated (h : Unrepresentable generatedAt)
  | scanned (h : Unrepresentable (Dict.get server "scanned_at"))
  | age (scanned n : ℤ) (aged : Aged generatedAt server scanned)
      (recorded : Dict.get server "scan_age_days" = .int n) (h : floatOfInt n = .error .overflowError)
  | stale (scanned : ℤ) (aged : Aged generatedAt server scanned)
      (h : Unrepresentable (Dict.get server "stale_after"))
  | horizon (scanned stale : ℤ) (aged : Aged generatedAt server scanned)
      (stamp : StampAt (Dict.get server "stale_after") stale) (h : maxMicros ≤ scanned + ninetyDays)

/-- The text is a catalog of at most the admitted size with an overflowing record. -/
structure Overflows (interp : Interpreter) (text : Str) : Prop where
  short : text.length ≤ maxRawBytes
  encoded : ∃ bytes, encodeUtf8 text = .ok bytes ∧ bytes.length ≤ maxRawBytes
  record : ∃ snapshot servers server,
    loads (parseHooks fun pairs => .ok (.obj (dictOfPairs pairs))) interp.recursionLimit text =
      .ok (.obj snapshot) ∧
    hasDuplicate interp text = false ∧ Dict.get snapshot "servers" = .arr servers ∧
    servers.length ≤ maxServers ∧ Json.obj server ∈ servers ∧
    Overflowing (Dict.get snapshot "generated_at") server

/-! ## One record -/

theorem ofMicros_cases (micros : ℤ) (offset : Option ℤ) :
    (¬(0 ≤ micros ∧ micros < maxMicros) ∧ DateTime.ofMicros micros offset = .error .overflowError) ∨
      ∃ h, DateTime.ofMicros micros offset = .ok ⟨micros, offset, h⟩ := by
  by_cases h : 0 ≤ micros ∧ micros < maxMicros
  · exact .inr ⟨h, dif_pos h⟩
  · exact .inl ⟨h, dif_neg h⟩

/-- Reading an aware timestamp fails, gives its UTC form, or finds none. -/
inductive ReadStamp (v : Json) : Prop
  | overflow (h : Unrepresentable v) (read : parseAwareDatetime v = .error .overflowError)
  | stamp (d : DateTime) (h : StampAt v d.instant) (utc : d.micros = d.instant)
      (read : parseAwareDatetime v = .ok (some d))
  | none (h : ∀ d, ¬Stamp v d) (read : parseAwareDatetime v = .ok Option.none)

theorem readStamp (v : Json) : ReadStamp v := by
  cases v with
  | str s =>
    cases hparsed : fromisoformat (expandZulu s) with
    | none =>
      refine .none ?_ (by rw [parseAwareDatetime, hparsed])
      rintro d ⟨_, ⟨⟩, hd, -⟩
      rw [hparsed] at hd
      cases hd
    | some d =>
      by_cases haware : d.offset.isSome = true
      · have hstamp : Stamp (.str s) d := ⟨s, rfl, hparsed, haware⟩
        have hread : parseAwareDatetime (.str s) = d.astimezoneUtc.map some := by
          simp only [parseAwareDatetime, hparsed, haware, if_true]
        obtain ⟨hout, hfailed⟩ | ⟨hrange, hutc⟩ := ofMicros_cases d.instant (some 0)
        · refine .overflow ⟨d, hstamp, hout⟩ ?_
          rw [hread, DateTime.astimezoneUtc, hfailed]
          rfl
        · have hsame : (⟨d.instant, some 0, hrange⟩ : DateTime).instant = d.instant := sub_zero _
          refine .stamp ⟨d.instant, some 0, hrange⟩ ?_ hsame.symm ?_
          · rw [hsame]
            exact ⟨d, hstamp, rfl, hrange⟩
          · rw [hread, DateTime.astimezoneUtc, hutc]
            rfl
      · refine .none ?_ (by simp only [parseAwareDatetime, hparsed, if_neg haware])
        rintro d' ⟨_, ⟨⟩, hd, haware'⟩
        rw [hparsed, Option.some.injEq] at hd
        exact haware (hd ▸ haware')
  | _ =>
    refine .none ?_ rfl
    rintro d ⟨s, hs, -⟩
    cases hs

theorem Stamp.unique {v : Json} {d d' : DateTime} (h : Stamp v d) (h' : Stamp v d') : d = d' := by
  obtain ⟨s, rfl, hd, -⟩ := h
  obtain ⟨_, ⟨⟩, hd', -⟩ := h'
  rw [hd] at hd'
  exact Option.some.inj hd'

theorem StampAt.unique {v : Json} {i i' : ℤ} (h : StampAt v i) (h' : StampAt v i') : i = i' := by
  obtain ⟨d, hd, rfl, -⟩ := h
  obtain ⟨d', hd', rfl, -⟩ := h'
  rw [hd.unique hd']

theorem StampAt.representable {v : Json} {i : ℤ} (h : StampAt v i) : ¬Unrepresentable v := by
  rintro ⟨d', hd', hout⟩
  obtain ⟨d, hd, rfl, hrange⟩ := h
  rw [hd'.unique hd] at hout
  exact hout hrange

theorem floatOfInt_raises (n : ℤ) : RaisesOnly (fun e => decide (e = .overflowError)) (floatOfInt n) := by
  unfold floatOfInt
  split
  · exact raisesOnly_error rfl
  · exact raisesOnly_ok _

theorem ageMismatch_cases (recorded : Json) (expected : ℚ) :
    (∃ n, recorded = .int n ∧ floatOfInt n = .error .overflowError ∧
      ageMismatch recorded expected = .error .overflowError) ∨
    ((∀ n, recorded = .int n → floatOfInt n ≠ .error .overflowError) ∧
      ∃ mismatch, ageMismatch recorded expected = .ok mismatch) := by
  have hnumber : ∀ x : PyFloat, ∃ mismatch, ageMismatch (.float x) expected = .ok mismatch := by
    intro x
    cases x <;> exact ⟨_, rfl⟩
  cases recorded with
  | int n =>
    cases hfloat : floatOfInt n with
    | error e =>
      have he := of_decide_eq_true (floatOfInt_raises n e hfloat)
      subst he
      refine .inl ⟨n, rfl, hfloat, ?_⟩
      rw [ageMismatch, hfloat]
      rfl
    | ok x =>
      refine .inr ⟨?_, ?_⟩
      · rintro _ ⟨⟩ h
        rw [hfloat] at h
        cases h
      · obtain ⟨mismatch, hmismatch⟩ := hnumber x
        refine ⟨mismatch, ?_⟩
        rw [ageMismatch, hfloat]
        exact hmismatch
  | float x =>
    refine .inr ⟨?_, hnumber x⟩
    rintro _ ⟨⟩
  | _ =>
    refine .inr ⟨?_, true, rfl⟩
    rintro _ ⟨⟩

theorem not_overflowing {generatedAt : Json} {server : Dict} (hgenerated : ¬Unrepresentable generatedAt)
    (hscanned : ¬Unrepresentable (Dict.get server "scanned_at"))
    (haged : ∀ scanned, Aged generatedAt server scanned →
      (∀ n, Dict.get server "scan_age_days" = .int n → floatOfInt n ≠ .error .overflowError) ∧
        ¬Unrepresentable (Dict.get server "stale_after") ∧
          ∀ stale, StampAt (Dict.get server "stale_after") stale → scanned + ninetyDays < maxMicros) :
    ¬Overflowing generatedAt server := by
  intro h
  cases h with
  | generated h => exact hgenerated h
  | scanned h => exact hscanned h
  | age scanned n aged recorded h => exact (haged scanned aged).1 n recorded h
  | stale scanned aged h => exact (haged scanned aged).2.1 h
  | horizon scanned stale aged stamp h => exact absurd ((haged scanned aged).2.2 stale stamp) (not_lt.mpr h)

theorem not_unrepresentable {v : Json} (h : ∀ d, ¬Stamp v d) : ¬Unrepresentable v := fun ⟨d, hd, _⟩ => h d hd

theorem get_of_absent {fields : Dict} {name : String} (h : Dict.contains fields (u name) ≠ true) :
    Dict.get fields name = .null := by
  have hnone : fields.find? (fun kv => decide (kv.1 = u name)) = none := by
    rw [List.find?_eq_none]
    intro kv hkv hkey
    exact h (List.any_eq_true.mpr ⟨kv, hkv, hkey⟩)
  rw [Dict.get, Dict.lookup, hnone]
  rfl

/-- What the binding still checks once the record is known to be aged. -/
def bindAge (server : Dict) (scanned : DateTime) (expected : ℚ) : Except PyErr (List String) := do
  let mismatch ← ageMismatch (Dict.get server "scan_age_days") expected
  let base := reason mismatch "SCAN_AGE_MISMATCH"
  if Dict.contains server (u "stale_after") then do
    match ← parseAwareDatetime (Dict.get server "stale_after") with
    | none => .ok (base ++ ["STALE_AFTER_INVALID"])
    | some stale =>
      let limit ← scanned.add ninetyDays
      .ok (base ++ reason (decide (stale.instant ≠ limit.instant)) "STALE_AFTER_MISMATCH")
  else .ok base

theorem bindingAfter_cases {server : Dict} {generatedAt : Json} {generated scanned : DateTime}
    (hgenerated : StampAt generatedAt generated.instant)
    (hscanned : StampAt (Dict.get server "scanned_at") scanned.instant) (hutc : scanned.micros = scanned.instant)
    (hage : ¬DateTime.totalSeconds (generated.instant - scanned.instant) < 0) (expected : ℚ) :
    (Overflowing generatedAt server ∧ bindAge server scanned expected = .error .overflowError) ∨
      (¬Overflowing generatedAt server ∧ ∃ reasons, bindAge server scanned expected = .ok reasons) := by
  have haged : Aged generatedAt server scanned.instant := ⟨hscanned, generated.instant, hgenerated, hage⟩
  have hunique : ∀ {i}, Aged generatedAt server i → i = scanned.instant := fun h => h.stamp.unique hscanned
  obtain ⟨n, hrecorded, hfloat, hmismatch⟩ | ⟨hnumber, mismatch, hmismatch⟩ :=
    ageMismatch_cases (Dict.get server "scan_age_days") expected
  · refine .inl ⟨.age _ n haged hrecorded hfloat, ?_⟩
    rw [bindAge, hmismatch]
    rfl
  unfold bindAge
  rw [hmismatch]
  by_cases hstale : Dict.contains server (u "stale_after") = true
  · cases readStamp (Dict.get server "stale_after") with
    | overflow h read =>
      refine .inl ⟨.stale _ haged h, ?_⟩
      simp only [bind, Except.bind, hstale, if_true, read]
    | none h read =>
      refine .inr ⟨not_overflowing hgenerated.representable hscanned.representable fun i hi => ?_,
        reason mismatch "SCAN_AGE_MISMATCH" ++ ["STALE_AFTER_INVALID"], ?_⟩
      · exact ⟨hnumber, not_unrepresentable h, fun stale ⟨d, hd, _⟩ => absurd hd (h d)⟩
      · simp only [bind, Except.bind, hstale, if_true, read]
    | stamp d h utc read =>
      obtain ⟨hout, hfailed⟩ | ⟨hrange, hadded⟩ := ofMicros_cases (scanned.micros + ninetyDays) scanned.offset
      · have hlate : maxMicros ≤ scanned.instant + ninetyDays := by
          obtain ⟨_, -, -, hlow, -⟩ := hscanned
          have hdays : (0 : ℤ) ≤ ninetyDays := by decide
          rw [hutc] at hout
          by_contra hlt
          exact hout ⟨by omega, not_le.mp hlt⟩
        refine .inl ⟨.horizon _ _ haged h hlate, ?_⟩
        simp only [bind, Except.bind, hstale, if_true, read, DateTime.add, hfailed]
      · let limit : DateTime := ⟨scanned.micros + ninetyDays, scanned.offset, hrange⟩
        refine .inr ⟨not_overflowing hgenerated.representable hscanned.representable fun i hi => ?_,
          reason mismatch "SCAN_AGE_MISMATCH" ++ reason (decide (d.instant ≠ limit.instant)) "STALE_AFTER_MISMATCH", ?_⟩
        · refine ⟨hnumber, h.representable, fun _ _ => ?_⟩
          rw [hunique hi, ← hutc]
          exact hrange.2
        · simp only [bind, Except.bind, hstale, if_true, read, DateTime.add, hadded, limit]
  · refine .inr ⟨not_overflowing hgenerated.representable hscanned.representable fun i hi => ?_,
      reason mismatch "SCAN_AGE_MISMATCH", ?_⟩
    · have hnull : Dict.get server "stale_after" = .null := get_of_absent hstale
      have hno : ∀ d, ¬Stamp (Dict.get server "stale_after") d := by
        rintro d ⟨s, hs, -⟩
        rw [hnull] at hs
        cases hs
      exact ⟨hnumber, not_unrepresentable hno, fun stale ⟨d, hd, _⟩ => absurd hd (hno d)⟩
    · simp only [bind, Except.bind, if_neg hstale]

/-- The binding of one record raises exactly where the record overflows. -/
theorem validateFreshnessBinding_cases (server : Dict) (generatedAt : Json) :
    (Overflowing generatedAt server ∧ validateFreshnessBinding server generatedAt = .error .overflowError) ∨
      (¬Overflowing generatedAt server ∧ ∃ reasons, validateFreshnessBinding server generatedAt = .ok reasons) := by
  have hnever : (∀ i, ¬Aged generatedAt server i) → ¬Unrepresentable generatedAt →
      ¬Unrepresentable (Dict.get server "scanned_at") → ¬Overflowing generatedAt server :=
    fun haged hg hs => not_overflowing hg hs fun i hi => absurd hi (haged i)
  unfold validateFreshnessBinding
  cases readStamp generatedAt with
  | overflow h read =>
    refine .inl ⟨.generated h, ?_⟩
    rw [read]
    rfl
  | none hg read =>
    rw [read]
    have hunaged : ∀ i, ¬Aged generatedAt server i := by
      rintro i ⟨-, _, ⟨d, hd, -⟩, -⟩
      exact hg d hd
    cases readStamp (Dict.get server "scanned_at") with
    | overflow h read =>
      refine .inl ⟨.scanned h, ?_⟩
      rw [read]
      rfl
    | none hs read =>
      refine .inr ⟨hnever hunaged (not_unrepresentable hg) (not_unrepresentable hs), [], ?_⟩
      rw [read]
      rfl
    | stamp s hs utc read =>
      refine .inr ⟨hnever hunaged (not_unrepresentable hg) hs.representable, [], ?_⟩
      rw [read]
      rfl
  | stamp g hg gutc read =>
    rw [read]
    cases readStamp (Dict.get server "scanned_at") with
    | overflow h read =>
      refine .inl ⟨.scanned h, ?_⟩
      rw [read]
      rfl
    | none hs read =>
      refine .inr ⟨hnever ?_ hg.representable (not_unrepresentable hs), [], ?_⟩
      · rintro i ⟨⟨d, hd, -⟩, -⟩
        exact hs d hd
      · rw [read]
        rfl
    | stamp s hs utc read =>
      rw [read]
      by_cases hage : DateTime.totalSeconds (g.instant - s.instant) < 0
      · refine .inr ⟨hnever ?_ hg.representable hs.representable, ["SCANNED_AT_AFTER_GENERATED_AT"], if_pos hage⟩
        rintro i ⟨hi, j, hj, hnot⟩
        rw [hi.unique hs, hj.unique hg] at hnot
        exact hnot hage
      · have hbinding := bindingAfter_cases hg hs utc hage
          (roundDigits (fl (DateTime.totalSeconds (g.instant - s.instant) / secondsPerDay)) 6)
        simp only [bind, Except.bind, if_neg hage] at hbinding ⊢
        exact hbinding

/-! ## The servers -/

theorem validateServer_cases (generatedAt : Json) (slugs : List Str) (coordinates : List (Str × Str)) (server : Dict) :
    (Overflowing generatedAt server ∧
      validateServer generatedAt slugs coordinates server = .error .overflowError) ∨
    (¬Overflowing generatedAt server ∧ ∃ checked, validateServer generatedAt slugs coordinates server = .ok checked) := by
  obtain ⟨hoverflow, hbinding⟩ | ⟨hrange, reasons, hbinding⟩ := validateFreshnessBinding_cases server generatedAt
  · refine .inl ⟨hoverflow, ?_⟩
    rw [validateServer, hbinding]
    rfl
  · refine .inr ⟨hrange, ?_⟩
    rw [validateServer, hbinding]
    exact ⟨_, rfl⟩

/-- The loop over the records raises exactly where one of them overflows. -/
theorem validateServers_cases (generatedAt : Json) (slugs : List Str) (coordinates : List (Str × Str))
    (servers : List Json) :
    ((∃ server, Json.obj server ∈ servers ∧ Overflowing generatedAt server) ∧
      validateServers generatedAt slugs coordinates servers = .error .overflowError) ∨
    ((∀ server, Json.obj server ∈ servers → ¬Overflowing generatedAt server) ∧
      ∃ reasons, validateServers generatedAt slugs coordinates servers = .ok reasons) := by
  induction servers generalizing slugs coordinates with
  | nil => exact .inr ⟨(fun _ h => nomatch h), [], rfl⟩
  | cons value rest ih =>
    have hskip : (∀ server, value ≠ .obj server) →
        ((∃ server, Json.obj server ∈ value :: rest ∧ Overflowing generatedAt server) ∧
          validateServers generatedAt slugs coordinates (value :: rest) = .error .overflowError) ∨
        ((∀ server, Json.obj server ∈ value :: rest → ¬Overflowing generatedAt server) ∧
          ∃ reasons, validateServers generatedAt slugs coordinates (value :: rest) = .ok reasons) := by
      intro hvalue
      have hstep : validateServers generatedAt slugs coordinates (value :: rest) =
          (validateServers generatedAt slugs coordinates rest).map ("SERVER_RECORD_NOT_OBJECT" :: ·) := by
        cases value with
        | obj server => exact absurd rfl (hvalue server)
        | _ =>
          rw [validateServers]
          · cases validateServers generatedAt slugs coordinates rest <;> rfl
          · exact nofun
      rw [hstep]
      obtain ⟨⟨server, hserver, hoverflow⟩, hread⟩ | ⟨hnone, reasons, hread⟩ := ih slugs coordinates
      · refine .inl ⟨⟨server, List.mem_cons_of_mem _ hserver, hoverflow⟩, ?_⟩
        rw [hread]
        rfl
      · refine .inr ⟨fun server hserver => ?_, "SERVER_RECORD_NOT_OBJECT" :: reasons, by rw [hread]; rfl⟩
        obtain hhead | hserver := List.mem_cons.mp hserver
        · exact absurd hhead.symm (hvalue server)
        · exact hnone server hserver
    cases value with
    | obj server =>
      rw [validateServers]
      obtain ⟨hoverflow, hread⟩ | ⟨hrange, ⟨reasons, slugs', coordinates'⟩, hread⟩ :=
        validateServer_cases generatedAt slugs coordinates server
      · refine .inl ⟨⟨server, List.mem_cons_self, hoverflow⟩, ?_⟩
        rw [hread]
        rfl
      · rw [hread]
        obtain ⟨⟨other, hother, hoverflow⟩, hrest⟩ | ⟨hnone, more, hrest⟩ := ih slugs' coordinates'
        · refine .inl ⟨⟨other, List.mem_cons_of_mem _ hother, hoverflow⟩, ?_⟩
          simp only [bind, Except.bind, hrest]
        · refine .inr ⟨fun other hother => ?_, reasons ++ more, ?_⟩
          · obtain hhead | hother := List.mem_cons.mp hother
            · cases hhead
              exact hrange
            · exact hnone other hother
          · simp only [bind, Except.bind, hrest]
    | _ => exact hskip nofun

/-- A record of the snapshot overflows. -/
def SnapshotOverflows (snapshot : Dict) : Prop :=
  ∃ servers server, Dict.get snapshot "servers" = .arr servers ∧ servers.length ≤ maxServers ∧
    Json.obj server ∈ servers ∧ Overflowing (Dict.get snapshot "generated_at") server

/-- What is checked of the list of servers. -/
def perServer (snapshot : Dict) : Except PyErr (List String) :=
  if Dict.contains snapshot (u "servers") then
    match Dict.get snapshot "servers" with
    | .arr servers =>
      if maxServers < servers.length then .ok ["SERVER_LIMIT_EXCEEDED"]
      else validateServers (Dict.get snapshot "generated_at") [] [] servers
    | _ => .ok []
  else .ok []

theorem perServer_cases (snapshot : Dict) :
    (SnapshotOverflows snapshot ∧ perServer snapshot = .error .overflowError) ∨
      (¬SnapshotOverflows snapshot ∧ ∃ reasons, perServer snapshot = .ok reasons) := by
  unfold perServer
  by_cases hpresent : Dict.contains snapshot (u "servers") = true
  · rw [if_pos hpresent]
    cases hservers : Dict.get snapshot "servers" with
    | arr servers =>
      by_cases hlimit : maxServers < servers.length
      · refine .inr ⟨?_, ["SERVER_LIMIT_EXCEEDED"], if_pos hlimit⟩
        rintro ⟨_, _, hsame, hlen, -⟩
        rw [hservers] at hsame
        cases hsame
        exact absurd hlimit (not_lt.mpr hlen)
      · simp only [if_neg hlimit]
        obtain ⟨⟨server, hserver, hoverflow⟩, hread⟩ | ⟨hnone, hread⟩ :=
          validateServers_cases (Dict.get snapshot "generated_at") [] [] servers
        · exact .inl ⟨⟨servers, server, hservers, not_lt.mp hlimit, hserver, hoverflow⟩, hread⟩
        · refine .inr ⟨?_, hread⟩
          rintro ⟨_, server, hsame, -, hserver, hoverflow⟩
          rw [hservers] at hsame
          cases hsame
          exact hnone server hserver hoverflow
    | _ =>
      refine .inr ⟨?_, [], rfl⟩
      rintro ⟨_, _, hsame, -⟩
      rw [hservers] at hsame
      cases hsame
  · refine .inr ⟨?_, [], if_neg hpresent⟩
    rintro ⟨_, _, hsame, -⟩
    rw [get_of_absent hpresent] at hsame
    cases hsame

theorem validationReasons_cases (snapshot : Dict) :
    (SnapshotOverflows snapshot ∧ validationReasons snapshot = .error .overflowError) ∨
      (¬SnapshotOverflows snapshot ∧ ∃ reasons, validationReasons snapshot = .ok reasons) := by
  have hstep : ∃ f : List String → List String, validationReasons snapshot = (perServer snapshot).map f := by
    have hbind : ∀ (x : Except PyErr (List String)) (f : List String → List String),
        (x >>= fun reasons => .ok (f reasons)) = x.map f := by
      intro x f
      cases x <;> rfl
    unfold validationReasons perServer
    by_cases hpresent : Dict.contains snapshot (u "servers") = true
    · cases hservers : Dict.get snapshot "servers" with
      | arr servers =>
        simp only [hpresent, if_true, Bool.not_true, Bool.false_eq_true, if_false]
        by_cases hlimit : maxServers < servers.length
        · simp only [if_pos hlimit]
          exact ⟨_, hbind _ _⟩
        · simp only [if_neg hlimit]
          exact ⟨_, hbind _ _⟩
      | _ =>
        simp only [hpresent, if_true, Bool.not_true, Bool.false_eq_true, if_false]
        exact ⟨_, hbind _ _⟩
    · simp only [hpresent, Bool.not_false, if_true, Bool.false_eq_true, if_false]
      exact ⟨_, hbind _ _⟩
  obtain ⟨f, hstep⟩ := hstep
  rw [hstep]
  obtain ⟨hoverflow, hread⟩ | ⟨hrange, reasons, hread⟩ := perServer_cases snapshot
  · refine .inl ⟨hoverflow, ?_⟩
    rw [hread]
    rfl
  · refine .inr ⟨hrange, f reasons, ?_⟩
    rw [hread]
    rfl

/-! ## The text -/

/-- A snapshot, the typed refusal, or the error of encoding an unpaired surrogate. -/
def Answers (text : Str) (x : Except PyErr Dict) : Prop :=
  ∀ e, x = .error e → (∃ codes, e = validationError codes) ∨ e = .unicodeError ∧ encodeUtf8 text = .error e

def Answered (interp : Interpreter) (text : Str) : Prop := Answers text (parseCatalogSnapshot interp text)

theorem parse_cases (interp : Interpreter) (text : Str) :
    (Overflows interp text ∧ parseCatalogSnapshot interp text = .error .overflowError) ∨
      (¬Overflows interp text ∧ Answered interp text) := by
  have hrefused : ∀ codes, Answers text (.error (validationError codes)) := by
    intro codes e h
    cases h
    exact .inl ⟨codes, rfl⟩
  unfold Answered parseCatalogSnapshot
  by_cases hshort : maxRawBytes < text.length
  · refine .inr ⟨fun h => absurd hshort (not_lt.mpr h.short), ?_⟩
    rw [if_pos hshort]
    exact hrefused _
  rw [if_neg hshort]
  cases hencoded : encodeUtf8 text with
  | error e =>
    refine .inr ⟨?_, ?_⟩
    · rintro ⟨-, ⟨bytes, hbytes, -⟩, -⟩
      rw [hencoded] at hbytes
      cases hbytes
    · intro e' h
      have hraised : RaisesOnly (fun e => decide (e = .unicodeError)) (encodeUtf8 text) := by
        unfold encodeUtf8
        split
        · exact raisesOnly_error rfl
        · exact raisesOnly_ok _
      cases h
      exact .inr ⟨of_decide_eq_true (hraised e hencoded), hencoded⟩
  | ok bytes =>
    by_cases hlong : maxRawBytes < bytes.length
    · refine .inr ⟨?_, ?_⟩
      · rintro ⟨-, ⟨other, hother, hlen⟩, -⟩
        rw [hencoded, Except.ok.injEq] at hother
        rw [← hother] at hlen
        exact absurd hlong (not_lt.mpr hlen)
      · simp only [bind, Except.bind, if_pos hlong]
        exact hrefused _
    · simp only [bind, Except.bind, if_neg hlong]
      cases hload : loads (parseHooks fun pairs => .ok (.obj (dictOfPairs pairs))) interp.recursionLimit text with
      | error e =>
        refine .inr ⟨?_, hrefused _⟩
        rintro ⟨-, -, _, _, _, hloaded, -⟩
        rw [hload] at hloaded
        cases hloaded
      | ok value =>
        by_cases hduplicate : hasDuplicate interp text = true
        · refine .inr ⟨?_, ?_⟩
          · rintro ⟨-, -, _, _, _, -, hunique, -⟩
            rw [hduplicate] at hunique
            cases hunique
          · simp only [if_pos hduplicate]
            exact hrefused _
        · simp only [if_neg hduplicate]
          cases value with
          | obj snapshot =>
            have hiff : Overflows interp text ↔ SnapshotOverflows snapshot := by
              constructor
              · rintro ⟨-, -, _, servers, server, hloaded, -, hservers, hlimit, hserver, hoverflow⟩
                rw [hload] at hloaded
                cases hloaded
                exact ⟨servers, server, hservers, hlimit, hserver, hoverflow⟩
              · rintro ⟨servers, server, hservers, hlimit, hserver, hoverflow⟩
                exact ⟨not_lt.mp hshort, ⟨bytes, hencoded, not_lt.mp hlong⟩, snapshot, servers, server, hload,
                  Bool.eq_false_of_not_eq_true hduplicate, hservers, hlimit, hserver, hoverflow⟩
            rw [hiff]
            obtain ⟨hoverflow, hreasons⟩ | ⟨hrange, reasons, hreasons⟩ := validationReasons_cases snapshot
            · refine .inl ⟨hoverflow, ?_⟩
              simp only [hreasons]
            · refine .inr ⟨hrange, ?_⟩
              simp only [hreasons]
              split
              · exact fun _ h => nomatch h
              · exact hrefused _
          | _ =>
            refine .inr ⟨?_, hrefused _⟩
            rintro ⟨-, -, _, _, _, hloaded, -⟩
            rw [hload] at hloaded
            cases hloaded

/-! ## The callers -/

/-- `_servers()` as the payloads of the server call it: the records, or `none` for the typed error. The
text is that of the packaged resource where it is readable. -/
def catalogServers (interp : Interpreter) (text : Option Str) : Except PyErr (Option Json) :=
  catching
    (match text with
    | none => .error (validationError ["SNAPSHOT_RESOURCE_UNREADABLE"])
    | some text => do
      let snapshot ← parseCatalogSnapshot interp text
      .ok (some (Dict.get snapshot "servers")))
    (fun e => e.isApp "CatalogSnapshotValidationError") (.ok none)

theorem isApp_validationError (codes : List String) :
    (validationError codes).isApp "CatalogSnapshotValidationError" = true := rfl

theorem catalogServers_answered {interp : Interpreter} {text : Str} {bytes : Bytes}
    (hencoded : encodeUtf8 text = .ok bytes) (h : Answered interp text) :
    ∃ answer, catalogServers interp (some text) = .ok answer := by
  unfold catalogServers
  cases hparsed : parseCatalogSnapshot interp text with
  | ok snapshot =>
    simp only [hparsed]
    exact ⟨some (Dict.get snapshot "servers"), rfl⟩
  | error e =>
    simp only [hparsed]
    obtain ⟨codes, rfl⟩ | ⟨rfl, hfailed⟩ := h e hparsed
    · refine ⟨none, ?_⟩
      simp only [bind, Except.bind]
      rw [catching_error, if_pos (isApp_validationError codes)]
    · rw [hencoded] at hfailed
      cases hfailed

theorem structureReasons_answered {interp : Interpreter} {text : Str} {bytes : Bytes}
    (hdecoded : decodeUtf8 bytes = .ok text) (h : Answered interp text) :
    ∃ codes, SnapshotTrust.structureReasons interp bytes = .ok codes := by
  unfold SnapshotTrust.structureReasons
  rw [hdecoded]
  cases hparsed : parseCatalogSnapshot interp text with
  | ok snapshot =>
    simp only [bind, Except.bind, hparsed]
    exact ⟨[], rfl⟩
  | error e =>
    simp only [bind, Except.bind, hparsed]
    obtain ⟨codes, rfl⟩ | ⟨rfl, -⟩ := h e hparsed
    · refine ⟨["SNAPSHOT_STRUCTURAL_INVALID"], ?_⟩
      rw [catching_error, isApp_validationError, Bool.true_or, if_pos rfl]
    · refine ⟨["SNAPSHOT_STRUCTURAL_INVALID"], ?_⟩
      rw [catching_error, decide_eq_true rfl, Bool.or_true, if_pos rfl]

/-- The admission answers, and with it the catalog server and the verifier, exactly where no record of
the text overflows. -/
theorem admission_total_iff (interp : Interpreter) (text : Str) :
    (Answered interp text ∧
        ((∃ bytes, encodeUtf8 text = .ok bytes) → ∃ answer, catalogServers interp (some text) = .ok answer) ∧
        ∀ bytes, decodeUtf8 bytes = .ok text → ∃ codes, SnapshotTrust.structureReasons interp bytes = .ok codes) ↔
      ¬Overflows interp text := by
  obtain ⟨hoverflow, hraised⟩ | ⟨hrange, hanswered⟩ := parse_cases interp text
  · refine iff_of_false ?_ (not_not.mpr hoverflow)
    rintro ⟨hanswered, -⟩
    obtain ⟨codes, hcodes⟩ | ⟨hunicode, -⟩ := hanswered _ hraised
    · cases hcodes
    · cases hunicode
  · refine iff_of_true ⟨hanswered, ?_, ?_⟩ hrange
    · rintro ⟨bytes, hencoded⟩
      exact catalogServers_answered hencoded hanswered
    · exact fun bytes hdecoded => structureReasons_answered hdecoded hanswered

/-- A catalog generated at the first hour of the first year, east of Greenwich. -/
def earlyText : Str := u "\x7b\"generated_at\":\"0001-01-01T00:00:00+01:00\",\"servers\":[\x7b\x7d]\x7d"

def raisesOverflow {α : Type} : Except PyErr α → Bool
  | .error .overflowError => true
  | _ => false

end McpTrust.RuntimeSnapshot
