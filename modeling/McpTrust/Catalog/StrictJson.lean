import McpTrust.Python.JsonErrors
import McpTrust.Python.JsonRoundtrip
import McpTrust.Catalog.SnapshotTrust
import McpTrust.Catalog.Payloads

/-! # The strict loader

What `_strict_json` guarantees of a value, and that a value with these guarantees
is read back from any `json.dumps` of it that fits the byte limit.
-/

namespace McpTrust.SnapshotTrust

set_option autoImplicit false

open Python

/-- The syntactic guarantee of the hooks at one node. -/
def NodeOk : Json → Prop
  | .int n => (intRepr n).length ≤ 64
  | .obj fields => (Dict.keys fields).Nodup
  | _ => True

instance : DecidablePred NodeOk := fun v =>
  match v with
  | .int n => inferInstanceAs (Decidable ((intRepr n).length ≤ 64))
  | .obj fields => inferInstanceAs (Decidable (Dict.keys fields).Nodup)
  | .null | .bool _ | .float _ | .str _ | .arr _ => inferInstanceAs (Decidable True)

/-- A value the strict loader can return. -/
structure Strict (v : Json) : Prop where
  nodes : ∀ w ∈ v.walk, NodeOk w
  safe : ∀ w ∈ v.walk, scalarIsSafe w = true
  size : v.walk.length ≤ maxJsonNodes

instance (v : Json) : Decidable (Strict v) :=
  decidable_of_iff
    ((∀ w ∈ v.walk, NodeOk w) ∧ (∀ w ∈ v.walk, scalarIsSafe w = true) ∧ v.walk.length ≤ maxJsonNodes)
    ⟨fun ⟨hnodes, hsafe, hsize⟩ => ⟨hnodes, hsafe, hsize⟩,
      fun hv => ⟨hv.nodes, hv.safe, hv.size⟩⟩

theorem strictHooks_ensures : strictHooks.Ensures NodeOk where
  null := trivial
  bool _ := trivial
  str _ := trivial
  arr _ := trivial
  int text v h := by
    change boundedInt text = .ok v at h
    unfold boundedInt at h
    split_ifs at h with hlen
    cases hint : pyInt text with
    | error e => simp [hint, Except.map] at h
    | ok n =>
      rw [hint] at h
      cases h
      intro w hw
      rw [Json.walk, List.mem_singleton] at hw
      · subst hw
        exact (length_intRepr_le hint).trans (by omega)
      all_goals simp
  float text v h := by
    change boundedFloat text = .ok v at h
    unfold boundedFloat at h
    split_ifs at h
    cases h
    intro w hw
    rw [Json.walk, List.mem_singleton] at hw
    · subst hw
      trivial
    all_goals simp
  constant _ _ h := by cases h
  obj fields v h hparts := by
    change rejectDuplicateKeys fields = .ok v at h
    unfold rejectDuplicateKeys at h
    split_ifs at h with hnodup
    cases h
    intro w hw
    rw [Json.walk, List.mem_cons, Json.mem_walkFields] at hw
    rcases hw with rfl | ⟨kv, hkv, rfl | hw⟩
    · exact hnodup
    · trivial
    · exact hparts kv hkv w hw

/-- The loop visits each node once. -/
theorem valuesAreSafeLoop_eq_true {visits : Nat} {pending : List Json} :
    valuesAreSafeLoop visits pending = true ↔
      (pending.flatMap Json.walk).length ≤ visits ∧
        ∀ w ∈ pending.flatMap Json.walk, scalarIsSafe w = true := by
  have hperm : ∀ (fields : Dict) (rest : List Json),
      ((fields.map Prod.snd ++ (fields.map (fun kv => Json.str kv.1) ++ rest)).flatMap Json.walk).Perm
        (Json.walkFields fields ++ rest.flatMap Json.walk) := by
    intro fields rest
    rw [List.flatMap_append, List.flatMap_append, ← List.append_assoc]
    refine List.Perm.append_right _ ((Json.walkFields_perm fields).trans ?_).symm
    apply List.Perm.append_left
    apply List.Perm.of_eq
    induction fields with
    | nil => rfl
    | cons kv rest ih => simp only [List.map_cons, List.flatMap_cons, Json.walk, ← ih]; rfl
  induction visits generalizing pending with
  | zero =>
    cases pending with
    | nil => simp [valuesAreSafeLoop]
    | cons v rest =>
      have hpos : 0 < v.walk.length := List.length_pos_of_mem v.mem_walk_self
      simp only [valuesAreSafeLoop, Bool.false_eq_true, List.flatMap_cons, List.length_append,
        false_iff]
      omega
  | succ visits ih =>
    cases pending with
    | nil => simp [valuesAreSafeLoop]
    | cons v rest =>
      cases v with
      | obj fields =>
        rw [valuesAreSafeLoop]
        refine ih.trans ?_
        rw [(hperm fields rest).length_eq]
        simp only [(hperm fields rest).mem_iff, List.flatMap_cons, Json.walk, List.cons_append,
          List.length_cons, Nat.succ_le_succ_iff, List.forall_mem_cons]
        simp [scalarIsSafe]
      | arr items =>
        rw [valuesAreSafeLoop]
        refine ih.trans ?_
        simp only [List.flatMap_append, List.flatMap_cons, Json.walk, Json.walkItems_eq,
          List.cons_append, List.length_cons, Nat.succ_le_succ_iff, List.forall_mem_cons]
        simp [scalarIsSafe]
      | _ =>
        simp only [valuesAreSafeLoop, Bool.and_eq_true, ih, List.flatMap_cons, Json.walk,
          List.cons_append, List.nil_append, List.length_cons, Nat.succ_le_succ_iff,
          List.forall_mem_cons]
        tauto

theorem strictJson_eq_ok {interp : Interpreter} {raw : Bytes} {v : Json} :
    strictJson interp raw = .ok v ↔ raw.length ≤ maxMetadataBytes ∧ ∃ text,
      decodeUtf8 raw = .ok text ∧ loads strictHooks interp.recursionLimit text = .ok v ∧
        valuesAreSafe v = true := by
  unfold strictJson
  by_cases hlen : maxMetadataBytes < raw.length
  · simp only [if_pos hlen]
    constructor
    · intro h
      cases h
    · rintro ⟨hle, -⟩
      omega
  · simp only [if_neg hlen]
    refine bind_eq_ok.trans ⟨?_, ?_⟩
    · rintro ⟨text, htext, h⟩
      obtain ⟨w, hw, h⟩ := bind_eq_ok.mp h
      refine ⟨by omega, text, htext, ?_⟩
      have hload : loads strictHooks interp.recursionLimit text = .ok w := by
        cases hl : loads strictHooks interp.recursionLimit text with
        | ok a =>
          rw [hl] at hw
          exact hw
        | error e =>
          rw [hl, catching_error] at hw
          split at hw <;> cases hw
      split at h
      · rename_i hsafe
        cases h
        exact ⟨hload, hsafe⟩
      · cases h
    · rintro ⟨-, text, htext, hload, hsafe⟩
      refine ⟨text, htext, bind_eq_ok.mpr ⟨v, by rw [hload]; rfl, ?_⟩⟩
      rw [if_pos hsafe]

theorem strictJson_strict {interp : Interpreter} {raw : Bytes} {v : Json}
    (h : strictJson interp raw = .ok v) : Strict v := by
  obtain ⟨-, text, -, hload, hsafe⟩ := strictJson_eq_ok.mp h
  obtain ⟨hsize, hscalars⟩ := valuesAreSafeLoop_eq_true.mp hsafe
  simp only [List.flatMap_cons, List.flatMap_nil, List.append_nil] at hsize hscalars
  exact ⟨loads_nodes strictHooks_ensures hload, hscalars, hsize⟩

namespace Strict

variable {v : Json}

theorem unique (hv : Strict v) : v.UniqueKeys := fun fields hfields => hv.nodes (.obj fields) hfields

/-- A part of a strict value is strict. -/
theorem part (hv : Strict v) {w : Json} (hw : w ∈ v.walk) : Strict w where
  nodes x hx := hv.nodes x (Json.walk_trans hw hx)
  safe x hx := hv.safe x (Json.walk_trans hw hx)
  size := (Json.length_walk_le hw).trans hv.size

theorem sortKeys (hv : Strict v) : Strict v.sortKeys where
  nodes w hw := by
    obtain ⟨x, hx, rfl⟩ := Json.walk_sortKeys hw
    have hnode := hv.nodes x hx
    cases x with
    | obj fields => exact hv.unique.sortKeys _ hw
    | _ => exact hnode
  safe w hw := by
    obtain ⟨x, hx, rfl⟩ := Json.walk_sortKeys hw
    have hsafe := hv.safe x hx
    cases x <;> exact hsafe
  size := by
    rw [Json.length_walk_sortKeys]
    exact hv.size

theorem arrange (hv : Strict v) (st : Style) : Strict (st.arrange v) := by
  unfold Style.arrange
  split
  · exact hv.sortKeys
  · exact hv

theorem str_safe (hv : Strict v) {s : Str} (hs : .str s ∈ v.walk) :
    ∀ c ∈ s, isUnsafeChar c = false := by
  have hsafe := (Bool.and_eq_true_iff.mp (hv.safe _ hs)).2
  intro c hc
  cases hunsafe : isUnsafeChar c with
  | false => rfl
  | true =>
    have hany : s.any isUnsafeChar = true := List.any_eq_true.mpr ⟨c, hc, hunsafe⟩
    rw [hany] at hsafe
    cases hsafe

end Strict

theorem isSurrogate_of_safe {c : CodePoint} (h : isUnsafeChar c = false) : isSurrogate c = false := by
  simp only [isUnsafeChar, Bool.or_eq_false_iff] at h
  exact h.2

theorem isHighSurrogate_of_safe {c : CodePoint} (h : isUnsafeChar c = false) :
    isHighSurrogate c = false := by
  have hs := isSurrogate_of_safe h
  cases hhigh : isHighSurrogate c with
  | false => rfl
  | true =>
    simp only [isHighSurrogate, isSurrogate, Bool.and_eq_true, decide_eq_true_eq,
      Bool.and_eq_false_iff, decide_eq_false_iff_not] at hs hhigh
    omega

theorem Strict.admits {v : Json} {n : Nat} (hv : Strict v) (hplain : v.Plain n) (st : Style) :
    Admits strictHooks st v := by
  intro w hw
  have hnode := hv.nodes w hw
  cases w with
  | int k =>
    have hlen : ¬64 < (intRepr k).length := by
      change (intRepr k).length ≤ 64 at hnode
      omega
    change boundedInt (intRepr k) = .ok (.int k)
    rw [boundedInt, if_neg hlen, pyInt_intRepr (by omega)]
    rfl
  | float x => exact absurd hw (hplain.2 x)
  | str s =>
    intro _
    have hsafe := hv.str_safe hw
    clear hnode hw
    induction s with
    | nil => exact List.isChain_nil
    | cons a s ih =>
      have htail := ih fun c hc => hsafe c (List.mem_cons_of_mem _ hc)
      cases s with
      | nil => exact List.isChain_singleton _
      | cons b s =>
        refine List.isChain_cons_cons.mpr ⟨fun h => ?_, htail⟩
        rw [isHighSurrogate_of_safe (hsafe a List.mem_cons_self)] at h
        cases h.1
  | obj fields =>
    change (Dict.keys fields).Nodup at hnode
    change rejectDuplicateKeys fields = .ok (.obj fields)
    rw [rejectDuplicateKeys, if_pos hnode]
  | _ => trivial

/-- A strict value is read back from any text of it within the byte limit. -/
theorem strictJson_dumps {interp : Interpreter} {v : Json} {n : Nat} {st : Style} {space : Str}
    {raw : Bytes} (hv : Strict v) (hplain : v.Plain n) (hn : n ≤ interp.recursionLimit)
    (hspace : ∀ c ∈ space, isSpace c = true) (hraw : encodeUtf8 (dumps st v ++ space) = .ok raw)
    (hlen : raw.length ≤ maxMetadataBytes) : strictJson interp raw = .ok (st.arrange v) := by
  have hplain' : (st.arrange v).Plain n := by
    unfold Style.arrange
    split
    · exact hplain.sortKeys
    · exact hplain
  have harrange := hv.arrange st
  refine strictJson_eq_ok.mpr ⟨hlen, dumps st v ++ space, decodeUtf8_encodeUtf8 hraw,
    loads_dumps (harrange.admits hplain' st) (hplain'.1.trans hn) hspace, ?_⟩
  apply valuesAreSafeLoop_eq_true.mpr
  simp only [List.flatMap_cons, List.flatMap_nil, List.append_nil]
  exact ⟨harrange.size, harrange.safe⟩

theorem strictJson_too_long {interp : Interpreter} {raw : Bytes}
    (hlen : maxMetadataBytes < raw.length) : strictJson interp raw = .error .valueError := by
  rw [strictJson, if_pos hlen]
  rfl

theorem strictHooks_raises : strictHooks.Raises
    fun e => e.isValueError || decide (e = .recursionError) where
  decode := rfl
  recursion := rfl
  int text := by
    change RaisesOnly _ (boundedInt text)
    unfold boundedInt
    split
    · exact raisesOnly_error rfl
    · exact (pyInt_raises rfl text).map
  float text := by
    change RaisesOnly _ (boundedFloat text)
    unfold boundedFloat
    split
    · exact raisesOnly_error rfl
    · split
      · exact raisesOnly_ok _
      · exact raisesOnly_error rfl
  constant text := raisesOnly_error rfl
  obj fields := by
    change RaisesOnly _ (rejectDuplicateKeys fields)
    unfold rejectDuplicateKeys
    split
    · exact raisesOnly_ok _
    · exact raisesOnly_error rfl

/-- The strict loader raises a `ValueError` or nothing. -/
theorem strictJson_raises (interp : Interpreter) (raw : Bytes) :
    RaisesOnly PyErr.isValueError (strictJson interp raw) := by
  unfold strictJson
  split
  · exact raisesOnly_error rfl
  · refine (decodeUtf8_raises rfl raw).bind fun text _ => ?_
    have hloads := loads_raises strictHooks_raises interp.recursionLimit text
    refine RaisesOnly.bind (fun e he => ?_) fun v _ => ?_
    · cases hload : loads strictHooks interp.recursionLimit text with
      | ok v =>
        rw [hload] at he
        cases he
      | error e' =>
        rw [hload, catching_error] at he
        have hraised := hloads e' hload
        split at he
        · cases he
          rfl
        · rename_i hother
          cases he
          simpa [hother] using hraised
    · split
      · exact raisesOnly_ok _
      · exact raisesOnly_error rfl

theorem strictJson_raises_load (interp : Interpreter) (raw : Bytes) :
    RaisesOnly isLoadError (strictJson interp raw) :=
  (strictJson_raises interp raw).mono fun e he => by simp [isLoadError, he]

/-! ## Writing a strict value -/

theorem not_surrogate_of_ascii {c : CodePoint} (h : c.val < 128) : isSurrogate c = false := by
  simp only [isSurrogate, Bool.and_eq_false_iff, decide_eq_false_iff_not]
  omega

theorem Strict.dumps_not_surrogate {v : Json} (hv : Strict v) (st : Style) :
    ∀ c ∈ dumps st v, isSurrogate c = false := by
  intro c hc
  rcases render_chars st 0 (st.arrange v) c hc with h | ⟨-, s, hs, h⟩
  · exact not_surrogate_of_ascii h
  · exact isSurrogate_of_safe ((hv.arrange st).str_safe hs c h)

theorem Strict.encodes {v : Json} (hv : Strict v) (st : Style) {space : Str} (hspace : Ascii space) :
    encodeUtf8 (dumps st v ++ space) = .ok ((dumps st v ++ space).flatMap encodeCodePoint) := by
  apply encodeUtf8_eq_ok
  intro c hc
  rcases List.mem_append.mp hc with hc | hc
  · exact hv.dumps_not_surrogate st c hc
  · exact not_surrogate_of_ascii (hspace c hc)

theorem Strict.finite {v : Json} (hv : Strict v) : hasNonFinite v = false := by
  rw [hasNonFinite, List.any_eq_false]
  intro w hw
  have hsafe := hv.safe w hw
  cases w with
  | float x =>
    rw [scalarIsSafe] at hsafe
    simp [hsafe]
  | _ => simp

theorem Strict.dumpsUtf8 {v : Json} (hv : Strict v) (st : Style) :
    SnapshotTrust.dumpsUtf8 st v = .ok ((dumps st v).flatMap encodeCodePoint) := by
  have hencodes := hv.encodes st ascii_nil
  rw [List.append_nil] at hencodes
  rw [SnapshotTrust.dumpsUtf8, hv.finite]
  exact hencodes

theorem Strict.canonicalSignedBytes {v : Json} (hv : Strict v) :
    SnapshotTrust.canonicalSignedBytes v = .ok ((dumps canonicalStyle v).flatMap encodeCodePoint) :=
  hv.dumpsUtf8 canonicalStyle

/-- The root artifact is the UTF-8 of the indented text with a line feed. -/
theorem Strict.canonicalRootBytes {v : Json} (hv : Strict v) :
    ∃ raw, SnapshotTrust.canonicalRootBytes v = .ok raw ∧
      encodeUtf8 (dumps rootStyle v ++ [ch '\n']) = .ok raw := by
  refine ⟨_, ?_, hv.encodes rootStyle (Ascii.cons (by decide) ascii_nil)⟩
  rw [SnapshotTrust.canonicalRootBytes, hv.dumpsUtf8 rootStyle, List.flatMap_append]
  rfl

end McpTrust.SnapshotTrust
