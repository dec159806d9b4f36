import McpTrust.Catalog.Replay
import McpTrust.Corpus.Registry

/-! # The values that signatures cover

The signed part of an accepted statement has only strings, integers, nulls and
objects of them, unless the subject's version is written as a float.
-/

namespace McpTrust.SnapshotTrust

set_option autoImplicit false

open Python

/-! ## The data model -/

/-- Neither a float nor a boolean. -/
def inModel : Json → Bool
  | .float _ | .bool _ => false
  | _ => true

/-- Maps with string keys, lists, strings, nulls and integers at every depth. -/
def DataModel (v : Json) : Prop := ∀ w ∈ v.walk, inModel w = true

theorem dataModel_str (s : Str) : DataModel (.str s) := by simp [DataModel, Json.walk, inModel]

theorem dataModel_int (n : ℤ) : DataModel (.int n) := by simp [DataModel, Json.walk, inModel]

theorem dataModel_null : DataModel .null := by simp [DataModel, Json.walk, inModel]

theorem DataModel.items {items : List Json} (h : DataModel (.arr items)) : ∀ v ∈ items, DataModel v := by
  intro v hv w hw
  refine h w ?_
  rw [Json.walk]
  exact List.mem_cons_of_mem _ (Json.mem_walkItems.mpr ⟨v, hv, hw⟩)

theorem dataModel_obj {fields : Dict} : DataModel (.obj fields) ↔ ∀ kv ∈ fields, DataModel kv.2 := by
  constructor
  · intro h kv hkv w hw
    refine h w ?_
    rw [Json.walk]
    exact List.mem_cons_of_mem _ (Json.mem_walkFields.mpr ⟨kv, hkv, .inr hw⟩)
  · intro h w hw
    rw [Json.walk, List.mem_cons, Json.mem_walkFields] at hw
    rcases hw with rfl | ⟨kv, hkv, rfl | hw⟩
    · rfl
    · rfl
    · exact h kv hkv w hw

theorem dataModel_of_keysEq {fields : Dict} {names : List String} (hkeys : Dict.keysEq fields names = true)
    (hnodup : (Dict.keys fields).Nodup) (h : ∀ name ∈ names, DataModel (Dict.get fields name)) :
    DataModel (.obj fields) := by
  refine dataModel_obj.mpr fun kv hkv => ?_
  obtain ⟨name, hname, rfl⟩ := Dict.fields_of_keysEq hkeys hnodup hkv
  exact h name hname

theorem DataModel.plain {v : Json} (h : DataModel v) : v.Plain v.depth :=
  ⟨le_rfl, fun x hx => Bool.false_ne_true (h (.float x) hx)⟩

/-! ## Equality in Python -/

theorem sortKeys_obj_eq {fs gs : Dict} (hfs : (Dict.keys fs).Nodup)
    (hperm : (Json.sortFields fs).Perm (Json.sortFields gs)) : (Json.obj fs).sortKeys = (Json.obj gs).sortKeys := by
  have hsorted : ∀ d : Dict, (d.insertionSort KeyLe).Pairwise KeyLe := List.pairwise_insertionSort KeyLe
  have hnodup : ((Json.sortFields fs).insertionSort KeyLe |>.map Prod.fst).Nodup := by
    refine ((List.perm_insertionSort KeyLe _).map Prod.fst).nodup_iff.mpr ?_
    change (Dict.keys (Json.sortFields fs)).Nodup
    rwa [Json.keys_sortFields]
  have hsame : ((Json.sortFields fs).insertionSort KeyLe).Perm ((Json.sortFields gs).insertionSort KeyLe) :=
    (List.perm_insertionSort KeyLe _).trans (hperm.trans (List.perm_insertionSort KeyLe _).symm)
  rw [Json.sortKeys, Json.sortKeys]
  refine congrArg Json.obj (hsame.eq_of_pairwise (fun a b ha hb hab hba => ?_) (hsorted _) (hsorted _))
  -- two members of one key are one member
  exact List.inj_on_of_nodup_map hnodup ha (hsame.mem_iff.mpr hb) (strLe_antisymm hab hba)

theorem mem_sortedFields {kv : Str × Json} {fields : Dict} :
    kv ∈ Json.sortFields fields ↔ ∃ kw ∈ fields, kv = (kw.1, kw.2.sortKeys) := by
  rw [Json.sortFields_eq, List.mem_map]
  simp only [eq_comm]

theorem map_sortKeys_eq {vs ws : List Json} (hitems : ∀ v ∈ vs, ∀ w ∈ ws, v.pyEq w = true → SameDocument v w)
    (h : Json.pyEqItems vs ws = true) : vs.map Json.sortKeys = ws.map Json.sortKeys := by
  induction vs generalizing ws with
  | nil =>
    cases ws with
    | nil => rfl
    | cons w ws => cases h
  | cons v vs ih =>
    cases ws with
    | nil => cases h
    | cons w ws =>
      rw [Json.pyEqItems, Bool.and_eq_true] at h
      rw [List.map_cons, List.map_cons, hitems v List.mem_cons_self w List.mem_cons_self h.1,
        ih (fun a ha b hb => hitems a (List.mem_cons_of_mem _ ha) b (List.mem_cons_of_mem _ hb)) h.2]

/-- Of the data model, values that Python calls equal differ in the order of members only. -/
theorem same_of_pyEq {v w : Json} (hv : DataModel v) (hw : DataModel w) (huv : v.UniqueKeys)
    (huw : w.UniqueKeys) (h : Json.pyEq v w = true) : SameDocument v w := by
  have hmodel : inModel w = true := hw w w.mem_walk_self
  induction v using Json.induct generalizing w with
  | null => cases w <;> simp_all [Json.pyEq, Json.sameNumber, Json.number, inModel, SameDocument]
  | bool b => exact absurd (hv _ (Json.mem_walk_self _)) Bool.false_ne_true
  | float x => exact absurd (hv _ (Json.mem_walk_self _)) Bool.false_ne_true
  | int n =>
    cases w with
    | int m =>
      simp only [Json.pyEq, Json.sameNumber, Json.number, decide_eq_true_eq, Int.cast_inj] at h
      rw [h, SameDocument]
    | bool b => cases hmodel
    | float x => cases hmodel
    | _ => cases h
  | str s =>
    cases w with
    | str t =>
      rw [of_decide_eq_true h, SameDocument]
    | _ => cases h
  | arr items ih =>
    cases w with
    | arr others =>
      rw [SameDocument, Json.sortKeys, Json.sortKeys, Json.sortItems_eq, Json.sortItems_eq,
        map_sortKeys_eq (fun a ha b hb hab => ?_) h]
      exact ih a ha (hv.items a ha) (hw.items b hb) (Json.uniqueKeys_arr.mp huv a ha)
        (Json.uniqueKeys_arr.mp huw b hb) hab (hw.items b hb b b.mem_walk_self)
    | _ => cases h
  | obj fields ih =>
    cases w with
    | obj others =>
      obtain ⟨hnodup, hparts⟩ := Json.uniqueKeys_obj.mp huv
      obtain ⟨hnodup', hparts'⟩ := Json.uniqueKeys_obj.mp huw
      rw [Json.pyEq, Bool.and_eq_true, decide_eq_true_eq, Json.pyEqFields_iff] at h
      obtain ⟨hlength, hmembers⟩ := h
      have hsubset : Json.sortFields fields ⊆ Json.sortFields others := by
        intro kv hkv
        obtain ⟨kw, hkw, rfl⟩ := mem_sortedFields.mp hkv
        obtain ⟨x, hx, heq⟩ := hmembers kw hkw
        have hmem := Dict.mem_of_lookup hx
        have hmodel' := dataModel_obj.mp hw _ hmem
        have hsame : SameDocument kw.2 x := ih kw hkw (dataModel_obj.mp hv kw hkw) hmodel'
          (hparts kw hkw) (hparts' _ hmem) heq (hmodel' x x.mem_walk_self)
        rw [hsame]
        exact mem_sortedFields.mpr ⟨_, hmem, rfl⟩
      have hkeys : (Json.sortFields fields).Nodup := by
        refine List.Nodup.of_map Prod.fst ?_
        change (Dict.keys (Json.sortFields fields)).Nodup
        rwa [Json.keys_sortFields]
      refine sortKeys_obj_eq hnodup ((List.subperm_of_subset hkeys hsubset).perm_of_length_le ?_)
      rw [Json.sortFields_eq, Json.sortFields_eq, List.length_map, List.length_map, hlength]
    | _ => cases h

theorem pyEqItems_of_map {vs ws : List Json} (hitems : ∀ v ∈ vs, ∀ w ∈ ws, SameDocument v w → v.pyEq w = true)
    (h : vs.map Json.sortKeys = ws.map Json.sortKeys) : Json.pyEqItems vs ws = true := by
  induction vs generalizing ws with
  | nil =>
    cases ws with
    | nil => rfl
    | cons w ws => cases h
  | cons v vs ih =>
    cases ws with
    | nil => cases h
    | cons w ws =>
      obtain ⟨hhead, htail⟩ := List.cons.inj h
      rw [Json.pyEqItems, hitems v List.mem_cons_self w List.mem_cons_self hhead, Bool.true_and]
      exact ih (fun a ha b hb => hitems a (List.mem_cons_of_mem _ ha) b (List.mem_cons_of_mem _ hb)) htail

/-- Values of the data model that differ in the order of members only are equal in Python. -/
theorem pyEq_of_same {v w : Json} (hv : DataModel v) (huw : w.UniqueKeys) (h : SameDocument v w) :
    Json.pyEq v w = true := by
  induction v using Json.induct generalizing w with
  | null => cases w <;> simp_all [SameDocument, Json.sortKeys]
  | bool b => exact absurd (hv _ (Json.mem_walk_self _)) Bool.false_ne_true
  | float x => exact absurd (hv _ (Json.mem_walk_self _)) Bool.false_ne_true
  | int n =>
    cases w with
    | int m =>
      have hnm : n = m := Json.int.inj h
      simp [Json.pyEq, Json.sameNumber, Json.number, hnm]
    | _ => cases h
  | str s =>
    cases w with
    | str t => exact decide_eq_true (Json.str.inj h)
    | _ => cases h
  | arr items ih =>
    cases w with
    | arr others =>
      have hitems := Json.arr.inj h
      rw [Json.sortItems_eq, Json.sortItems_eq] at hitems
      exact pyEqItems_of_map (fun a ha b hb hab => ih a ha (hv.items a ha) (Json.uniqueKeys_arr.mp huw b hb) hab)
        hitems
    | _ => cases h
  | obj fields ih =>
    cases w with
    | obj others =>
      obtain ⟨hnodup', hparts'⟩ := Json.uniqueKeys_obj.mp huw
      have hfields := Json.obj.inj h
      have hperm : (Json.sortFields fields).Perm (Json.sortFields others) :=
        (List.perm_insertionSort KeyLe _).symm.trans (hfields ▸ List.perm_insertionSort KeyLe _)
      rw [Json.pyEq, Bool.and_eq_true, decide_eq_true_eq, Json.pyEqFields_iff]
      constructor
      · have hlength := hperm.length_eq
        rwa [Json.sortFields_eq, Json.sortFields_eq, List.length_map, List.length_map] at hlength
      · intro kv hkv
        obtain ⟨kw, hkw, heq⟩ := mem_sortedFields.mp (hperm.subset (mem_sortedFields.mpr ⟨kv, hkv, rfl⟩))
        obtain ⟨hkey, hvalue⟩ := Prod.mk.inj heq
        refine ⟨kw.2, ?_, ih kv hkv (dataModel_obj.mp hv kv hkv) (hparts' kw hkw) hvalue⟩
        rw [hkey]
        exact Dict.lookup_of_mem hnodup' hkw
    | _ => cases h

/-! ## Equal bytes -/

/-- The canonical bytes of a strict value of the data model tell it up to the order of members. -/
theorem same_of_canonical {v w : Json} (hv : Strict v) (hw : Strict w) (hvm : DataModel v) (hwm : DataModel w)
    (h : canonicalSignedBytes v = canonicalSignedBytes w) : SameDocument v w := by
  have htext : dumps canonicalStyle v = dumps canonicalStyle w := by
    have hencoded := hv.encodes canonicalStyle ascii_nil
    have hencoded' := hw.encodes canonicalStyle ascii_nil
    rw [hv.canonicalSignedBytes, hw.canonicalSignedBytes] at h
    rw [List.append_nil] at hencoded hencoded'
    rw [Except.ok.inj h] at hencoded
    exact Except.ok.inj ((decodeUtf8_encodeUtf8 hencoded).symm.trans (decodeUtf8_encodeUtf8 hencoded'))
  have hload : ∀ {x : Json}, Strict x → DataModel x → x.depth ≤ max v.depth w.depth →
      loads strictHooks (max v.depth w.depth) (dumps canonicalStyle x ++ []) = .ok x.sortKeys := by
    intro x hx hxm hdepth
    exact loads_dumps (hx.sortKeys.admits hxm.plain.sortKeys _) ((Json.depth_sortKeys_le x).trans hdepth)
      (List.forall_mem_nil _)
  have hloads := hload hv hvm (le_max_left _ _)
  rw [htext, hload hw hwm (le_max_right _ _)] at hloads
  exact (Except.ok.inj hloads).symm

/-! ## Accepted statements -/

/-- The subject's `schema_version` is written as an integer. -/
def IntegerVersion (signed : Dict) : Prop :=
  ∃ subject n, Dict.get signed "snapshot" = .obj subject ∧ Dict.get subject "schema_version" = .int n

theorem utcDatetime_str {v : Json} {d : DateTime} (h : utcDatetime v = some d) : ∃ s, v = .str s := by
  cases v with
  | str s => exact ⟨s, rfl⟩
  | _ => cases h

theorem dataModel_of_matching {v : Json} {pattern : Str → Bool} {s : Str} (h : matching pattern v = some s) :
    DataModel v := by
  rw [(matching_eq_some.mp h).1]
  exact dataModel_str s

theorem dataModel_of_isInt {v : Json} {least n : ℤ} (h : isInt least v = some n) : DataModel v := by
  rw [(isInt_eq_some.mp h).1]
  exact dataModel_int n

/-- The subject is in the data model as soon as its version is an integer. -/
theorem validateSubject_dataModel {v : Json} {subject : Subject} (huv : v.UniqueKeys)
    (h : validateSubject v = some subject) : ∃ fields, v = .obj fields ∧
      ((∃ n, Dict.get fields "schema_version" = .int n) → DataModel v) ∧
      (DataModel v → ∃ n, Dict.get fields "schema_version" = .int n) := by
  cases v with
  | obj fields =>
    simp only [validateSubject, Option.bind_eq_bind, Option.bind_eq_some_iff, guard_eq_some,
      Option.some.injEq] at h
    obtain ⟨-, hkeys, -, hmedia, -, hversion, length, hlength, -, -, digest, hdigest, -⟩ := h
    refine ⟨fields, rfl, fun hint => ?_, fun hmodel => ?_⟩
    · obtain ⟨n, hn⟩ := hint
      refine dataModel_of_keysEq hkeys (Json.uniqueKeys_obj.mp huv).1 fun name hname => ?_
      simp only [snapshotSubjectKeys, List.mem_cons, List.not_mem_nil, or_false] at hname
      rcases hname with rfl | rfl | rfl | rfl
      · rw [Json.isStr_eq_true.mp hmedia]
        exact dataModel_str _
      · rw [hn]
        exact dataModel_int n
      · exact dataModel_of_isInt hlength
      · exact dataModel_of_matching hdigest
    · cases hvalue : Dict.get fields "schema_version" with
      | int n => exact ⟨n, rfl⟩
      | float x =>
        have hmem : Dict.get fields "schema_version" ∈ (Json.obj fields).walk :=
          Json.get_mem_walk (by simp [hvalue])
        rw [hvalue] at hmem
        exact absurd (hmodel _ hmem) Bool.false_ne_true
      | bool b =>
        have hmem : Dict.get fields "schema_version" ∈ (Json.obj fields).walk :=
          Json.get_mem_walk (by simp [hvalue])
        rw [hvalue] at hmem
        exact absurd (hmodel _ hmem) Bool.false_ne_true
      | _ =>
        rw [hvalue] at hversion
        cases hversion
  | _ => cases h

theorem validatePrevious_dataModel {v : Json} {previous : Option Previous} (huv : v.UniqueKeys)
    (h : validatePrevious v = some previous) : DataModel v := by
  cases v with
  | null => exact dataModel_null
  | obj fields =>
    simp only [validatePrevious, Option.bind_eq_bind, Option.bind_eq_some_iff, guard_eq_some,
      Option.some.injEq] at h
    obtain ⟨-, hkeys, id, hid, snapshot, hsnapshot, statement, hstatement, -⟩ := h
    refine dataModel_of_keysEq hkeys (Json.uniqueKeys_obj.mp huv).1 fun name hname => ?_
    simp only [previousKeys, List.mem_cons, List.not_mem_nil, or_false] at hname
    rcases hname with rfl | rfl | rfl
    · exact dataModel_of_isInt hid
    · exact dataModel_of_matching hsnapshot
    · exact dataModel_of_matching hstatement
  | _ => cases h

/-- The signed part of an accepted statement is in the data model if and only if its version is an
integer. -/
theorem validateSigned_dataModel {v : Json} {signed : Signed} (huv : v.UniqueKeys)
    (h : validateSigned v = some signed) : DataModel (.obj signed.value) ↔ IntegerVersion signed.value := by
  cases v with
  | obj fields =>
    simp only [validateSigned, Option.bind_eq_bind, Option.bind_eq_some_iff, guard_eq_some,
      Option.some.injEq] at h
    obtain ⟨-, hkeys, publisher, hpublisher, version, hversion, publication, hpublication, issued, hissued,
      expires, hexpires, subject, hsubject, previous, hprevious, rfl⟩ := h
    have hpart : ∀ name, (Dict.get fields name).UniqueKeys := uniqueKeys_get huv
    obtain ⟨part, hpartValue, hmodel, hinteger⟩ := validateSubject_dataModel (hpart "snapshot") hsubject
    constructor
    · intro hall
      obtain ⟨n, hn⟩ := hinteger (by
        have hmem : Dict.get fields "snapshot" ∈ (Json.obj fields).walk := Json.get_mem_walk (by simp [hpartValue])
        exact fun w hw => hall w (Json.walk_trans hmem hw))
      exact ⟨part, n, hpartValue, hn⟩
    · rintro ⟨part', n, hvalue, hn⟩
      obtain rfl : part = part' := Json.obj.inj (hpartValue.symm.trans hvalue)
      refine dataModel_of_keysEq hkeys (Json.uniqueKeys_obj.mp huv).1 fun name hname => ?_
      simp only [signedStatementKeys, List.mem_cons, List.not_mem_nil, or_false] at hname
      rcases hname with rfl | rfl | rfl | rfl | rfl | rfl | rfl
      · exact dataModel_of_matching hpublisher
      · exact dataModel_of_isInt hversion
      · exact dataModel_of_isInt hpublication
      · obtain ⟨text, htext⟩ := utcDatetime_str hissued
        rw [htext]
        exact dataModel_str text
      · obtain ⟨text, htext⟩ := utcDatetime_str hexpires
        rw [htext]
        exact dataModel_str text
      · exact hmodel ⟨n, hn⟩
      · exact validatePrevious_dataModel (hpart "previous") hprevious
  | _ => cases h

/-- `_strict_json` reads the bytes, and `_validate_statement` accepts them with this signed part. -/
def AcceptsStatement (interp : Interpreter) (raw : Bytes) (signed : Signed) : Prop :=
  ∃ document signatures, strictJson interp raw = .ok document ∧
    validateStatement document = some (signed, signatures)

theorem AcceptsStatement.strict {interp : Interpreter} {raw : Bytes} {signed : Signed}
    (h : AcceptsStatement interp raw signed) : Strict (.obj signed.value) := by
  obtain ⟨document, signatures, hread, hvalid⟩ := h
  obtain ⟨⟨fields, entries, rfl, -, hsigned, -⟩, -⟩ := validateStatement_eq_some hvalid
  exact (strictJson_strict hread).get_obj hsigned

theorem AcceptsStatement.dataModel_iff {interp : Interpreter} {raw : Bytes} {signed : Signed}
    (h : AcceptsStatement interp raw signed) :
    DataModel (.obj signed.value) ↔ IntegerVersion signed.value := by
  obtain ⟨document, signatures, hread, hvalid⟩ := h
  cases document with
  | obj fields =>
    have hunique := uniqueKeys_get (strictJson_strict hread).unique "signed"
    simp only [validateStatement, Option.bind_eq_bind, Option.bind_eq_some_iff, guard_eq_some,
      Option.some.injEq, Prod.mk.injEq] at hvalid
    obtain ⟨-, -, -, -, signed', hsigned, -, -, rfl, -⟩ := hvalid
    exact validateSigned_dataModel hunique hsigned
  | _ => cases hvalid

/-- Two accepted statements lie in the data model, where equal bytes mean equal values and equal
values mean equal digests, if and only if neither writes its version as a float. -/
theorem accepted_dataModel_iff {interp interp' : Interpreter} {raw raw' : Bytes} {v w : Signed}
    (hv : AcceptsStatement interp raw v) (hw : AcceptsStatement interp' raw' w) :
    (DataModel (.obj v.value) ∧ DataModel (.obj w.value) ∧
      (canonicalSignedBytes (.obj v.value) = canonicalSignedBytes (.obj w.value) →
        Json.pyEq (.obj v.value) (.obj w.value) = true) ∧
      (Json.pyEq (.obj v.value) (.obj w.value) = true →
        statementSha256 (.obj v.value) = statementSha256 (.obj w.value))) ↔
      IntegerVersion v.value ∧ IntegerVersion w.value := by
  rw [← hv.dataModel_iff, ← hw.dataModel_iff]
  constructor
  · rintro ⟨hmodel, hmodel', -⟩
    exact ⟨hmodel, hmodel'⟩
  · rintro ⟨hmodel, hmodel'⟩
    refine ⟨hmodel, hmodel', fun hbytes => ?_, fun heq => ?_⟩
    · exact pyEq_of_same hmodel hw.strict.unique (same_of_canonical hv.strict hw.strict hmodel hmodel' hbytes)
    · have hsame := same_of_pyEq hmodel hmodel' hv.strict.unique hw.strict.unique heq
      exact statementSha256_same (canonicalSignedBytes_same hv.strict hw.strict hsame)

/-! ## A version written as a float -/

/-- A statement whose subject has the version `version`. -/
def versionStatement (version : Json) : Json :=
  .obj [(u "schema", .str (u statementSchema)),
    (u "signed", .obj [(u "publisher_id", .str (u "example")), (u "root_version", .int 1),
      (u "publication_id", .int 1), (u "issued_at", .str (u "2026-01-01T00:00:00Z")),
      (u "expires_at", .str (u "2026-01-02T00:00:00Z")),
      (u "snapshot", .obj [(u "media_type", .str (u snapshotMediaType)), (u "schema_version", version),
        (u "length", .int 0), (u "sha256", .str (List.replicate 64 (ch '0')))]),
      (u "previous", .null)]),
    (u "signatures", sampleSignatures neutralKey)]

def versionBytes (version : Json) : Bytes := jsonBytes (versionStatement version)

/-- The signed part that is accepted, if it is. -/
def acceptedSigned (raw : Bytes) : Option Signed :=
  ((strictJson sampleEnv.interp raw).toOption.bind validateStatement).map Prod.fst

theorem acceptsStatement_of_accepted {raw : Bytes} {signed : Signed} (h : acceptedSigned raw = some signed) :
    AcceptsStatement sampleEnv.interp raw signed := by
  obtain ⟨p, hp, rfl⟩ := Option.map_eq_some_iff.mp h
  obtain ⟨document, hdocument, hvalid⟩ := Option.bind_eq_some_iff.mp hp
  refine ⟨document, p.2, ?_, hvalid⟩
  cases hread : strictJson sampleEnv.interp raw with
  | error e =>
    rw [hread] at hdocument
    cases hdocument
  | ok v =>
    rw [hread] at hdocument
    exact congrArg Except.ok (Option.some.inj hdocument)

/-- The statements with the versions `2.0` and `2` are accepted; Python calls their signed parts equal, one
of them holds a float, and their digests differ. -/
theorem versions_read : ∃ v w, acceptedSigned (versionBytes (.float (.ofRat 2))) = some v ∧
    acceptedSigned (versionBytes (.int 2)) = some w ∧ (Json.obj v.value).walk.any (fun x => !inModel x) = true ∧
      Json.pyEq (.obj v.value) (.obj w.value) = true ∧
        (statementSha256 (.obj v.value)).toOption ≠ (statementSha256 (.obj w.value)).toOption := by
  have hall : (((acceptedSigned (versionBytes (.float (.ofRat 2)))).bind fun v =>
      (acceptedSigned (versionBytes (.int 2))).map fun w =>
        (Json.obj v.value).walk.any (fun x => !inModel x) && Json.pyEq (.obj v.value) (.obj w.value) &&
          decide ((statementSha256 (.obj v.value)).toOption ≠ (statementSha256 (.obj w.value)).toOption)) =
            some true) := by decide +kernel
  obtain ⟨v, hv, h⟩ := Option.bind_eq_some_iff.mp hall
  obtain ⟨w, hw, h⟩ := Option.map_eq_some_iff.mp h
  rw [Bool.and_eq_true, Bool.and_eq_true] at h
  exact ⟨v, w, hv, hw, h.1.1, h.1.2, of_decide_eq_true h.2⟩

theorem accepted_dataModel_sample : ∃ v w,
    AcceptsStatement sampleEnv.interp (versionBytes (.int 2)) v ∧ AcceptsStatement sampleEnv.interp sampleStatementBytes w ∧
      ((DataModel (.obj v.value) ∧ DataModel (.obj w.value) ∧
        (canonicalSignedBytes (.obj v.value) = canonicalSignedBytes (.obj w.value) →
          Json.pyEq (.obj v.value) (.obj w.value) = true) ∧
        (Json.pyEq (.obj v.value) (.obj w.value) = true →
          statementSha256 (.obj v.value) = statementSha256 (.obj w.value))) ↔
        IntegerVersion v.value ∧ IntegerVersion w.value) := by
  obtain ⟨-, v, -, hread, -⟩ := versions_read
  have hv := acceptsStatement_of_accepted hread
  obtain ⟨result, hresult⟩ := sampleSnapshot_verified
  obtain ⟨rootFields, root, checkpoint, w, signatures, hverified⟩ := verifySnapshot_verified hresult
  obtain ⟨document, hdocument, hvalid⟩ := hverified.statement
  have hw : AcceptsStatement sampleEnv.interp sampleStatementBytes w := ⟨document, signatures, hdocument, hvalid⟩
  exact ⟨v, w, hv, hw, accepted_dataModel_iff hv hw⟩

/-- Two statements, one with the version `2.0` and one with `2`, are accepted; Python calls their
signed parts equal, one of them holds a float, and their digests differ. -/
theorem float_version_accepted : ∃ v w,
    AcceptsStatement sampleEnv.interp (versionBytes (.float (.ofRat 2))) v ∧
      AcceptsStatement sampleEnv.interp (versionBytes (.int 2)) w ∧ ¬DataModel (.obj v.value) ∧
      Json.pyEq (.obj v.value) (.obj w.value) = true ∧
      statementSha256 (.obj v.value) ≠ statementSha256 (.obj w.value) := by
  obtain ⟨v, w, hv, hw, hfloat, heq, hdigest⟩ := versions_read
  refine ⟨v, w, acceptsStatement_of_accepted hv, acceptsStatement_of_accepted hw, fun hmodel => ?_, heq,
    fun hsame => hdigest (congrArg Except.toOption hsame)⟩
  obtain ⟨x, hx, hout⟩ := List.any_eq_true.mp hfloat
  rw [hmodel x hx] at hout
  cases hout

end McpTrust.SnapshotTrust
