import McpTrust.Refresh.Scanned

/-! # The codec of refresh receipts

`_strict_json_loads` and `_json_bytes`. What the loader accepts is bounded in every
direction its source names, and the canonical bytes of an accepted value load as
the value.
-/

namespace McpTrust.Receipt

set_option autoImplicit false

open Python Refresh

def maxJsonStringChars : Nat := 65536

def maxJsonNodes : Nat := 100000

def maxJsonNumberChars : Nat := 256

def maxJsonNesting : Nat := 1000

/-- `_UnsafeJSONValueError`. -/
def unsafeValue : PyErr := .app "_UnsafeJSONValueError" ""

/-- `_NonFiniteJSONNumberError`; its text is the number's. -/
def nonFiniteNumber : PyErr := .app "_NonFiniteJSONNumberError" ""

/-- `_DuplicateJSONKeyError`; its text is the key. -/
def duplicateKey : PyErr := .app "_DuplicateJSONKeyError" ""

def rejectDuplicateJsonKeys (pairs : Dict) : Except PyErr Json :=
  if (Dict.keys pairs).Nodup then .ok (.obj pairs) else .error duplicateKey

def parseBoundedJsonInt (value : Str) : Except PyErr Json :=
  if maxJsonNumberChars < value.length then .error unsafeValue else (pyInt value).map .int

def parseBoundedJsonFloat (value : Str) : Except PyErr Json :=
  if maxJsonNumberChars < value.length then .error unsafeValue
  else if (readFloat value).isFinite then .ok (.float (readFloat value))
  else .error nonFiniteNumber

def receiptHooks : Hooks where
  parseInt := parseBoundedJsonInt
  parseFloat := parseBoundedJsonFloat
  parseConstant _ := .error nonFiniteNumber
  objectPairs := rejectDuplicateJsonKeys

/-- `unicodedata.category(character) in {"Cc", "Cf"}`. -/
def isUndisplayable (c : CodePoint) : Bool := isControl c || isFormat c

def scalarIsSafe : Json → Bool
  | .str s => decide (s.length ≤ maxJsonStringChars) && !s.any isUndisplayable
  | .float x => x.isFinite
  | _ => true

/-- The loop over the stack of pending values; the fuel is how many more may be visited. -/
def boundedLoop : Nat → List Json → Bool
  | _, [] => true
  | 0, _ :: _ => false
  | visits + 1, value :: pending =>
    match value with
    | .obj fields =>
      boundedLoop visits ((fields.map Prod.snd).reverse ++ ((fields.map fun kv => .str kv.1).reverse ++ pending))
    | .arr items => boundedLoop visits (items.reverse ++ pending)
    | scalar => scalarIsSafe scalar && boundedLoop visits pending

/-- `_json_values_are_bounded_and_display_safe(payload)`. -/
def valuesAreBounded (payload : Json) : Bool := boundedLoop maxJsonNodes [payload]

/-- `_check_json_nesting(text)`. -/
def checkNesting (text : Str) : Except PyErr Unit :=
  if nestingWithin maxJsonNesting 0 false false text then .ok () else .error unsafeValue

/-- `_strict_json_loads(content)`. -/
def strictJsonLoads (interp : Interpreter) (content : Bytes) : Except PyErr Json := do
  let text ← decodeUtf8 content
  let _ ← checkNesting text
  let payload ← loads receiptHooks interp.recursionLimit text
  if valuesAreBounded payload then .ok payload else .error unsafeValue

/-- `_json_bytes(payload)`. -/
def jsonBytes (payload : Json) : Bytes := (dumps asciiStyle payload ++ [ch '\n']).flatMap encodeCodePoint

/-- The receipt without its own digest. -/
def unsigned (receipt : Dict) : Json := .obj (receipt.filter fun kv => decide (kv.1 ≠ u "receipt_digest"))

/-- `_receipt_digest_valid(receipt)`. -/
def receiptDigestValid (receipt : Dict) : Bool :=
  (Dict.get receipt "receipt_digest").pyEq (.str (u "sha256:" ++ sha256Hex (jsonBytes (unsigned receipt))))

/-! ## Equality with types -/

mutual
/-- `v == w` where every part has the same type on both sides, and zero the same sign. -/
def exactEq : Json → Json → Bool
  | .null, .null => true
  | .bool a, .bool b => decide (a = b)
  | .int m, .int n => decide (m = n)
  | .float x, .float y => decide (x = y)
  | .str s, .str t => decide (s = t)
  | .arr xs, .arr ys => exactItems xs ys
  | .obj fs, .obj gs => decide (fs.length = gs.length) && exactFields fs gs
  | _, _ => false

def exactItems : List Json → List Json → Bool
  | [], [] => true
  | v :: vs, w :: ws => exactEq v w && exactItems vs ws
  | _, _ => false

def exactFields : List (Str × Json) → List (Str × Json) → Bool
  | [], _ => true
  | (key, v) :: rest, gs =>
    (match Dict.lookup gs key with
      | some w => exactEq v w
      | none => false) && exactFields rest gs
end

theorem exactFields_iff {fs gs : Dict} : exactFields fs gs = true ↔
    ∀ kv ∈ fs, ∃ w, Dict.lookup gs kv.1 = some w ∧ exactEq kv.2 w = true := by
  induction fs with
  | nil => simp [exactFields]
  | cons kv rest ih =>
    rw [exactFields, Bool.and_eq_true, ih, List.forall_mem_cons]
    cases Dict.lookup gs kv.1 <;> simp

/-- Values that are arranged in one way are equal. -/
theorem exactEq_of_sortKeys {v w : Json} (hw : w.UniqueKeys) (h : v.sortKeys = w.sortKeys) : exactEq v w = true := by
  induction v using Json.induct generalizing w with
  | arr items ih =>
    cases w with
    | arr items' =>
      rw [Json.sortKeys, Json.sortKeys, Json.sortItems_eq, Json.sortItems_eq] at h
      have hitems := Json.uniqueKeys_arr.mp hw
      have hmap := Json.arr.inj h
      rw [exactEq]
      clear h hw
      induction items generalizing items' with
      | nil =>
        cases items' with
        | nil => rfl
        | cons w rest' => cases hmap
      | cons v rest ihRest =>
        cases items' with
        | nil => cases hmap
        | cons w rest' =>
          rw [List.map_cons, List.map_cons, List.cons.injEq] at hmap
          rw [exactItems, ih v List.mem_cons_self (hitems w List.mem_cons_self) hmap.1,
            ihRest (fun x hx => ih x (List.mem_cons_of_mem _ hx)) rest'
              (fun x hx => hitems x (List.mem_cons_of_mem _ hx)) hmap.2]
          rfl
    | _ => simp [Json.sortKeys] at h
  | obj fields ih =>
    cases w with
    | obj fields' =>
      rw [Json.sortKeys, Json.sortKeys] at h
      obtain ⟨hnodup, hfields⟩ := Json.uniqueKeys_obj.mp hw
      have hsorted := Json.obj.inj h
      rw [exactEq, Bool.and_eq_true, decide_eq_true_eq, exactFields_iff]
      constructor
      · have hlength := congrArg List.length hsorted
        rwa [List.length_insertionSort, List.length_insertionSort, Json.sortFields_eq, Json.sortFields_eq,
          List.length_map, List.length_map] at hlength
      · intro kv hkv
        have hmem : (kv.1, kv.2.sortKeys) ∈ (Json.sortFields fields).insertionSort KeyLe :=
          Json.mem_sortFields.mpr ⟨kv, hkv, rfl⟩
        rw [hsorted] at hmem
        obtain ⟨kw, hkw, heq⟩ := Json.mem_sortFields.mp hmem
        obtain ⟨hkey, hvalue⟩ := Prod.mk.inj heq
        refine ⟨kw.2, ?_, ih kv hkv (hfields kw hkw) hvalue⟩
        rw [hkey]
        exact Dict.lookup_of_mem hnodup hkw
    | _ => simp [Json.sortKeys] at h
  | _ => cases w <;> simp_all [Json.sortKeys, exactEq]

theorem exactEq_sortKeys {v : Json} (hv : v.UniqueKeys) : exactEq v.sortKeys v = true := by
  induction v using Json.induct with
  | arr items ih =>
    rw [Json.sortKeys, exactEq, Json.sortItems_eq]
    have hitems : ∀ v ∈ items, exactEq v.sortKeys v = true := fun v hv' => ih v hv' (Json.uniqueKeys_arr.mp hv v hv')
    clear ih hv
    induction items with
    | nil => rfl
    | cons v rest ih =>
      rw [List.map_cons, exactItems, hitems v List.mem_cons_self, ih fun w hw => hitems w (List.mem_cons_of_mem _ hw)]
      rfl
  | obj fields ih =>
    obtain ⟨hnodup, hfields⟩ := Json.uniqueKeys_obj.mp hv
    rw [Json.sortKeys, exactEq, Bool.and_eq_true, decide_eq_true_eq, exactFields_iff]
    constructor
    · rw [List.length_insertionSort, Json.sortFields_eq, List.length_map]
    · intro kw hkw
      obtain ⟨kv, hkv, rfl⟩ := Json.mem_sortFields.mp hkw
      exact ⟨kv.2, Dict.lookup_of_mem hnodup hkv, ih kv hkv (hfields kv hkv)⟩
  | _ => simp [Json.sortKeys, exactEq]

/-! ## What is accepted -/

/-- The bounds of a receipt value; the names of members count as texts and as nodes. -/
structure Bounded (v : Json) : Prop where
  nesting : v.depth ≤ 1000
  nodes : v.walk.length ≤ 100000
  texts : ∀ s, .str s ∈ v.walk → s.length ≤ 65536 ∧ ∀ c ∈ s, isControl c = false ∧ isFormat c = false
  floats : ∀ x, .float x ∈ v.walk → x.isFinite = true
  unique : v.UniqueKeys

/-- A value the codec carries through its text. -/
structure Carried (limit : Nat) (v : Json) : Prop where
  bounded : Bounded v
  shallow : v.depth ≤ limit
  integers : ∀ n, .int n ∈ v.walk → (intRepr n).length ≤ maxJsonNumberChars
  texts : Texts v

theorem scalarIsSafe_str {s : Str} : scalarIsSafe (.str s) = true ↔
    s.length ≤ 65536 ∧ ∀ c ∈ s, isControl c = false ∧ isFormat c = false := by
  rw [scalarIsSafe, Bool.and_eq_true, decide_eq_true_eq, Bool.not_eq_true', List.any_eq_false]
  simp only [isUndisplayable, Bool.not_eq_true, Bool.or_eq_false_iff, maxJsonStringChars]

/-- The loop visits each node once. -/
theorem boundedLoop_eq_true {visits : Nat} {pending : List Json} : boundedLoop visits pending = true ↔
    (pending.flatMap Json.walk).length ≤ visits ∧ ∀ w ∈ pending.flatMap Json.walk, scalarIsSafe w = true := by
  have hfields : ∀ (fields : Dict) (rest : List Json),
      (((fields.map Prod.snd).reverse ++ ((fields.map fun kv => Json.str kv.1).reverse ++ rest)).flatMap Json.walk).Perm
        (Json.walkFields fields ++ rest.flatMap Json.walk) := by
    intro fields rest
    rw [List.flatMap_append, List.flatMap_append, ← List.append_assoc]
    apply List.Perm.append_right
    refine List.Perm.trans ?_ (Json.walkFields_perm fields).symm
    apply List.Perm.append
    · exact (List.reverse_perm _).flatMap_right _
    · refine ((List.reverse_perm _).flatMap_right _).trans (List.Perm.of_eq ?_)
      induction fields with
      | nil => rfl
      | cons kv fields ih => simp only [List.map_cons, List.flatMap_cons, Json.walk, ih]; rfl
  have hitems : ∀ items rest : List Json,
      ((items.reverse ++ rest).flatMap Json.walk).Perm (Json.walkItems items ++ rest.flatMap Json.walk) := by
    intro items rest
    rw [List.flatMap_append, Json.walkItems_eq]
    exact ((List.reverse_perm items).flatMap_right _).append_right _
  induction visits generalizing pending with
  | zero =>
    cases pending with
    | nil => simp [boundedLoop]
    | cons v rest =>
      have hpos : 0 < v.walk.length := List.length_pos_of_mem v.mem_walk_self
      simp only [boundedLoop, Bool.false_eq_true, List.flatMap_cons, List.length_append, false_iff]
      omega
  | succ visits ih =>
    cases pending with
    | nil => simp [boundedLoop]
    | cons v rest =>
      cases v with
      | obj fields =>
        rw [boundedLoop]
        refine ih.trans ?_
        rw [(hfields fields rest).length_eq]
        simp only [(hfields fields rest).mem_iff, List.flatMap_cons, Json.walk, List.cons_append,
          List.length_cons, Nat.succ_le_succ_iff, List.forall_mem_cons]
        simp [scalarIsSafe]
      | arr items =>
        rw [boundedLoop]
        refine ih.trans ?_
        rw [(hitems items rest).length_eq]
        simp only [(hitems items rest).mem_iff, List.flatMap_cons, Json.walk, List.cons_append,
          List.length_cons, Nat.succ_le_succ_iff, List.forall_mem_cons]
        simp [scalarIsSafe]
      | _ =>
        simp only [boundedLoop, Bool.and_eq_true, ih, List.flatMap_cons, Json.walk,
          List.cons_append, List.nil_append, List.length_cons, Nat.succ_le_succ_iff,
          List.forall_mem_cons]
        tauto

theorem valuesAreBounded_eq_true {v : Json} : valuesAreBounded v = true ↔
    v.walk.length ≤ maxJsonNodes ∧ ∀ w ∈ v.walk, scalarIsSafe w = true := by
  rw [valuesAreBounded, boundedLoop_eq_true, List.flatMap_cons, List.flatMap_nil, List.append_nil]

theorem isNumeric_int (n : ℤ) : IsNumeric (.int n) := by
  refine ⟨rfl, fun t ht => ?_⟩
  simp [Json.walk] at ht

theorem isNumeric_float (x : PyFloat) : IsNumeric (.float x) := by
  refine ⟨rfl, fun t ht => ?_⟩
  simp [Json.walk] at ht

theorem parseBoundedJsonInt_eq_ok {text : Str} {v : Json} (h : parseBoundedJsonInt text = .ok v) :
    ∃ n, v = .int n ∧ (intRepr n).length ≤ maxJsonNumberChars := by
  unfold parseBoundedJsonInt at h
  split_ifs at h with hlong
  cases hint : pyInt text with
  | error e => simp [hint, Except.map] at h
  | ok n =>
    rw [hint] at h
    cases h
    exact ⟨n, rfl, (length_intRepr_le hint).trans (not_lt.mp hlong)⟩

theorem parseBoundedJsonFloat_eq_ok {text : Str} {v : Json} (h : parseBoundedJsonFloat text = .ok v) :
    ∃ x, v = .float x ∧ x.isFinite = true := by
  unfold parseBoundedJsonFloat at h
  split_ifs at h with hlong hfinite
  cases h
  exact ⟨_, rfl, hfinite⟩

theorem rejectDuplicateJsonKeys_eq_ok {pairs : Dict} {v : Json} (h : rejectDuplicateJsonKeys pairs = .ok v) :
    v = .obj pairs ∧ (Dict.keys pairs).Nodup := by
  unfold rejectDuplicateJsonKeys at h
  split_ifs at h with hnodup
  cases h
  exact ⟨rfl, hnodup⟩

theorem receiptHooks_keeping : Keeping receiptHooks where
  int text v h := by
    obtain ⟨n, rfl, -⟩ := parseBoundedJsonInt_eq_ok h
    exact isNumeric_int n
  float text v h := by
    obtain ⟨x, rfl, -⟩ := parseBoundedJsonFloat_eq_ok h
    exact isNumeric_float x
  constant _ _ h := by cases h
  obj fields v h := (rejectDuplicateJsonKeys_eq_ok h).1

/-- What the hooks guarantee at one node. -/
def NodeOk : Json → Prop
  | .int n => (intRepr n).length ≤ maxJsonNumberChars
  | .obj fields => (Dict.keys fields).Nodup
  | _ => True

theorem receiptHooks_ensures : receiptHooks.Ensures NodeOk where
  null := trivial
  bool _ := trivial
  str _ := trivial
  arr _ := trivial
  int text v h := by
    obtain ⟨n, rfl, hlength⟩ := parseBoundedJsonInt_eq_ok h
    intro w hw
    simp only [Json.walk, List.mem_singleton] at hw
    subst hw
    exact hlength
  float text v h := by
    obtain ⟨x, rfl, -⟩ := parseBoundedJsonFloat_eq_ok h
    intro w hw
    simp only [Json.walk, List.mem_singleton] at hw
    subst hw
    trivial
  constant _ _ h := by cases h
  obj fields v h hparts := by
    obtain ⟨rfl, hnodup⟩ := rejectDuplicateJsonKeys_eq_ok h
    intro w hw
    rw [Json.walk, List.mem_cons, Json.mem_walkFields] at hw
    obtain rfl | ⟨kv, hkv, rfl | hw⟩ := hw
    · exact hnodup
    · trivial
    · exact hparts kv hkv w hw

theorem strictJsonLoads_eq_ok {interp : Interpreter} {content : Bytes} {v : Json} :
    strictJsonLoads interp content = .ok v ↔ ∃ text, decodeUtf8 content = .ok text ∧
      nestingWithin maxJsonNesting 0 false false text = true ∧ loads receiptHooks interp.recursionLimit text = .ok v ∧
        valuesAreBounded v = true := by
  unfold strictJsonLoads
  constructor
  · intro h
    obtain ⟨text, htext, h⟩ := bind_eq_ok.mp h
    obtain ⟨_, hcheck, h⟩ := bind_eq_ok.mp h
    obtain ⟨w, hload, h⟩ := bind_eq_ok.mp h
    unfold checkNesting at hcheck
    split_ifs at hcheck with hnesting
    split_ifs at h with hsafe
    cases h
    exact ⟨text, htext, hnesting, hload, hsafe⟩
  · rintro ⟨text, htext, hnesting, hload, hsafe⟩
    refine bind_eq_ok.mpr ⟨text, htext, bind_eq_ok.mpr ⟨(), ?_, bind_eq_ok.mpr ⟨v, hload, ?_⟩⟩⟩
    · rw [checkNesting, if_pos hnesting]
    · rw [if_pos hsafe]

/-- A text that is read has no surrogate. -/
def ReadsClean (x : Except PyErr Str) : Prop := ∀ s, x = .ok s → Clean s

theorem decoded_clean {least n : Nat} {tail : Except PyErr Str} (htail : ReadsClean tail) :
    ReadsClean (decoded least n tail) := by
  intro text hread
  unfold decoded at hread
  split_ifs at hread with hlt hscalar
  cases htext : tail with
  | error e => simp [htext, Except.map] at hread
  | ok s =>
    rw [htext] at hread
    cases hread
    rw [Bool.and_eq_true, Bool.not_eq_true'] at hscalar
    intro c hc
    obtain rfl | hc := List.mem_cons.mp hc
    · exact hscalar.2
    · exact htail s htext c hc

/-- No byte sequence decodes to a surrogate. -/
theorem decodeUtf8_clean (content : Bytes) : ReadsClean (decodeUtf8 content) := by
  have hnil : ReadsClean (.ok []) := by
    intro s hs
    cases hs
    exact fun _ hc => absurd hc List.not_mem_nil
  fun_induction decodeUtf8 content
  all_goals first
    | exact decoded_clean ‹_›
    | exact hnil
    | (intro s hs; cases hs)

/-- Every accepted value is bounded, and within what its text can carry. -/
theorem carried_of_strictJsonLoads {interp : Interpreter} {content : Bytes} {v : Json}
    (h : strictJsonLoads interp content = .ok v) : Carried interp.recursionLimit v := by
  obtain ⟨text, htext, hnesting, hload, hsafe⟩ := strictJsonLoads_eq_ok.mp h
  obtain ⟨hnodes, hscalars⟩ := valuesAreBounded_eq_true.mp hsafe
  obtain ⟨hlimit, hdepth, htexts⟩ := loads_passed receiptHooks_keeping.retaining hload
  have hnode := loads_nodes receiptHooks_ensures hload
  exact
    { bounded :=
        { nesting := hdepth maxJsonNesting hnesting
          nodes := hnodes
          texts := fun s hs => scalarIsSafe_str.mp (hscalars _ hs)
          floats := fun x hx => hscalars _ hx
          unique := fun fields hfields => hnode _ hfields }
      shallow := hlimit
      integers := fun n hn => hnode _ hn
      texts := htexts (decodeUtf8_clean content text htext) }

/-! ## Reading back -/

theorem str_not_container (s : Str) : (∀ items, Json.str s ≠ .arr items) ∧ ∀ fields, Json.str s ≠ .obj fields := by
  simp

theorem int_not_container (n : ℤ) : (∀ items, Json.int n ≠ .arr items) ∧ ∀ fields, Json.int n ≠ .obj fields := by
  simp

theorem float_not_container (x : PyFloat) :
    (∀ items, Json.float x ≠ .arr items) ∧ ∀ fields, Json.float x ≠ .obj fields := by
  simp

/-- The scalars of an arranged value are the scalars of the value. -/
theorem mem_walk_sortKeys {v w : Json} (hw : w ∈ v.sortKeys.walk) (harr : ∀ items, w ≠ .arr items)
    (hobj : ∀ fields, w ≠ .obj fields) : w ∈ v.walk := by
  obtain ⟨x, hx, rfl⟩ := Json.walk_sortKeys hw
  cases x with
  | arr items => exact absurd (by rw [Json.sortKeys]) (harr (Json.sortItems items))
  | obj fields => exact absurd (by rw [Json.sortKeys]) (hobj ((Json.sortFields fields).insertionSort KeyLe))
  | _ => exact hx

theorem Carried.sortKeys {limit : Nat} {v : Json} (hv : Carried limit v) : Carried limit v.sortKeys where
  bounded :=
    { nesting := (Json.depth_sortKeys_le v).trans hv.bounded.nesting
      nodes := (Json.length_walk_sortKeys v).le.trans hv.bounded.nodes
      texts := fun s hs => hv.bounded.texts s (mem_walk_sortKeys hs (str_not_container s).1 (str_not_container s).2)
      floats := fun x hx => hv.bounded.floats x (mem_walk_sortKeys hx (float_not_container x).1 (float_not_container x).2)
      unique := hv.bounded.unique.sortKeys }
  shallow := (Json.depth_sortKeys_le v).trans hv.shallow
  integers n hn := hv.integers n (mem_walk_sortKeys hn (int_not_container n).1 (int_not_container n).2)
  texts t ht := hv.texts t (mem_walk_sortKeys ht (str_not_container t).1 (str_not_container t).2)

theorem Carried.admits {limit : Nat} {v : Json} (hv : Carried limit v) (st : Style) : Admits receiptHooks st v := by
  intro w hw
  cases w with
  | int n =>
    have hlength : (intRepr n).length ≤ maxJsonNumberChars := hv.integers n hw
    have hdigits : maxJsonNumberChars ≤ 4300 := by decide
    change parseBoundedJsonInt (intRepr n) = .ok (.int n)
    rw [parseBoundedJsonInt, if_neg (not_lt.mpr hlength), pyInt_intRepr (hlength.trans hdigits)]
    rfl
  | float x =>
    have hfinite := hv.bounded.floats x hw
    have hlength : (floatRepr x).length ≤ maxJsonNumberChars := (length_floatRepr hfinite).trans (by decide)
    obtain ⟨-, -, -, -, -, -, -, hread⟩ := floatRepr_text hfinite
    refine ⟨hfinite, ?_⟩
    change parseBoundedJsonFloat (floatRepr x) = .ok (.float x)
    rw [parseBoundedJsonFloat, if_neg (not_lt.mpr hlength), hread, if_pos hfinite]
  | str s => exact fun _ => hv.texts s hw
  | obj fields =>
    change rejectDuplicateJsonKeys fields = .ok (.obj fields)
    rw [rejectDuplicateJsonKeys, if_pos (hv.bounded.unique fields hw)]
  | _ => trivial

theorem Carried.values {limit : Nat} {v : Json} (hv : Carried limit v) : valuesAreBounded v = true := by
  refine valuesAreBounded_eq_true.mpr ⟨hv.bounded.nodes, fun w hw => ?_⟩
  cases w with
  | str s => exact scalarIsSafe_str.mpr (hv.bounded.texts s hw)
  | float x => exact hv.bounded.floats x hw
  | _ => rfl

/-- The canonical bytes load as the value, its keys in order. -/
theorem strictJsonLoads_jsonBytes {interp : Interpreter} {v : Json} (hv : Carried interp.recursionLimit v) :
    strictJsonLoads interp (jsonBytes v) = .ok v.sortKeys := by
  have hsorted := hv.sortKeys
  have hascii : Ascii (dumps asciiStyle v ++ [ch '\n']) := (ascii_dumps rfl v).append (by decide)
  refine strictJsonLoads_eq_ok.mpr ⟨_, decodeUtf8_ascii hascii, ?_, ?_, hsorted.values⟩
  · rw [dumps, nestingWithin_render asciiStyle maxJsonNesting
      (show 0 + (asciiStyle.arrange v).depth ≤ maxJsonNesting by rw [Nat.zero_add]; exact hsorted.bounded.nesting)]
    rfl
  · apply @loads_dumps receiptHooks asciiStyle v
    · exact hsorted.admits asciiStyle
    · exact hsorted.shallow
    · intro c hc
      rw [List.mem_singleton.mp hc]
      rfl

/-- Values with one canonical text are arranged in one way. -/
theorem sortKeys_eq_of_jsonBytes {interp : Interpreter} {v w : Json} (hv : Carried interp.recursionLimit v)
    (hw : Carried interp.recursionLimit w) (h : jsonBytes v = jsonBytes w) : v.sortKeys = w.sortKeys := by
  have hread := strictJsonLoads_jsonBytes hv
  rw [h, strictJsonLoads_jsonBytes hw] at hread
  exact (Except.ok.inj hread).symm

/-! ## Receipts -/

theorem mem_walk_unsigned {fields : Dict} {w : Json} (hw : w ∈ (unsigned fields).walk) :
    w = unsigned fields ∨ w ∈ (Json.obj fields).walk := by
  rw [unsigned, Json.walk, List.mem_cons, Json.mem_walkFields] at hw
  obtain rfl | ⟨kv, hkv, hw⟩ := hw
  · exact .inl rfl
  · rw [Json.walk, List.mem_cons, Json.mem_walkFields]
    exact .inr (.inr ⟨kv, (List.mem_filter.mp hkv).1, hw⟩)

theorem Carried.unsigned {limit : Nat} {fields : Dict} (hv : Carried limit (.obj fields)) :
    Carried limit (unsigned fields) := by
  have hpart : ∀ {w : Json}, w ∈ (Receipt.unsigned fields).walk → (∀ fs, w ≠ .obj fs) → w ∈ (Json.obj fields).walk := by
    intro w hw hobj
    obtain rfl | hw := mem_walk_unsigned hw
    · exact absurd rfl (hobj _)
    · exact hw
  have hdepth : (Receipt.unsigned fields).depth ≤ (Json.obj fields).depth := by
    rw [Receipt.unsigned, Json.depth, Json.depth, Nat.succ_le_succ_iff, Json.depthFields_le]
    exact fun kv hkv => Json.depth_le_fields (List.mem_filter.mp hkv).1
  have hnodes : (Receipt.unsigned fields).walk.length ≤ (Json.obj fields).walk.length := by
    rw [Receipt.unsigned, Json.walk, Json.walk, List.length_cons, List.length_cons, Json.length_walkFields,
      Json.length_walkFields, Nat.succ_le_succ_iff]
    exact (List.filter_sublist.map _).sum_le_sum (fun _ _ => Nat.zero_le _)
  have hunique : (Receipt.unsigned fields).UniqueKeys := by
    obtain ⟨hnodup, hfields⟩ := Json.uniqueKeys_obj.mp hv.bounded.unique
    refine Json.uniqueKeys_obj.mpr ⟨?_, fun kv hkv => hfields kv (List.mem_filter.mp hkv).1⟩
    exact hnodup.sublist (List.filter_sublist.map Prod.fst)
  exact
    { bounded :=
        { nesting := hdepth.trans hv.bounded.nesting
          nodes := hnodes.trans hv.bounded.nodes
          texts := fun s hs => hv.bounded.texts s (hpart hs (str_not_container s).2)
          floats := fun x hx => hv.bounded.floats x (hpart hx (float_not_container x).2)
          unique := hunique }
      shallow := hdepth.trans hv.shallow
      integers := fun n hn => hv.integers n (hpart hn (int_not_container n).2)
      texts := fun t ht => hv.texts t (hpart ht (str_not_container t).2) }

/-- The members of a receipt, when another receipt has the same digest and the same remaining members. -/
theorem exactFields_of_unsigned {fs gs : Dict} {digest : Str} (hfs : (Dict.keys fs).Nodup) (hgs : (Json.obj gs).UniqueKeys)
    (hleft : Dict.get fs "receipt_digest" = .str digest) (hright : Dict.get gs "receipt_digest" = .str digest)
    (h : exactEq (unsigned fs) (unsigned gs) = true) : exactFields fs gs = true := by
  obtain ⟨hnodup, -⟩ := Json.uniqueKeys_obj.mp hgs
  rw [unsigned, unsigned, exactEq, Bool.and_eq_true, exactFields_iff] at h
  refine exactFields_iff.mpr fun kv hkv => ?_
  by_cases hdigest : kv.1 = u "receipt_digest"
  · have hfound : ∀ {d : Dict}, Dict.get d "receipt_digest" = .str digest →
        Dict.lookup d (u "receipt_digest") = some (.str digest) := by
      intro d hd
      unfold Dict.get at hd
      cases hlookup : Dict.lookup d (u "receipt_digest") with
      | none => simp [hlookup] at hd
      | some value =>
        rw [hlookup] at hd
        exact congrArg some hd
    have hvalue := Dict.lookup_of_mem hfs hkv
    rw [hdigest, hfound hleft] at hvalue
    refine ⟨.str digest, by rw [hdigest]; exact hfound hright, ?_⟩
    rw [← Option.some.inj hvalue, exactEq]
    exact decide_eq_true rfl
  · obtain ⟨w, hlookup, heq⟩ := h.2 kv (List.mem_filter.mpr ⟨hkv, decide_eq_true hdigest⟩)
    exact ⟨w, Dict.lookup_of_mem hnodup (List.mem_filter.mp (Dict.mem_of_lookup hlookup)).1, heq⟩

theorem keys_subset_of_exactFields {fs gs : Dict} (h : exactFields fs gs = true) : Dict.keys fs ⊆ Dict.keys gs := by
  intro key hkey
  obtain ⟨kv, hkv, rfl⟩ := List.mem_map.mp hkey
  obtain ⟨w, hlookup, -⟩ := exactFields_iff.mp h kv hkv
  exact List.mem_map.mpr ⟨_, Dict.mem_of_lookup hlookup, rfl⟩

theorem exactEq_of_unsigned {fs gs : Dict} {digest : Str} (hfs : (Json.obj fs).UniqueKeys) (hgs : (Json.obj gs).UniqueKeys)
    (hleft : Dict.get fs "receipt_digest" = .str digest) (hright : Dict.get gs "receipt_digest" = .str digest)
    (h : exactEq (unsigned fs) (unsigned gs) = true) (h' : exactEq (unsigned gs) (unsigned fs) = true) :
    exactEq (.obj fs) (.obj gs) = true := by
  have hnodup := (Json.uniqueKeys_obj.mp hfs).1
  have hnodup' := (Json.uniqueKeys_obj.mp hgs).1
  have hforth := exactFields_of_unsigned hnodup hgs hleft hright h
  have hback := exactFields_of_unsigned hnodup' hfs hright hleft h'
  have hle := (hnodup.subperm (keys_subset_of_exactFields hforth)).length_le
  have hge := (hnodup'.subperm (keys_subset_of_exactFields hback)).length_le
  simp only [Dict.keys, List.length_map] at hle hge
  rw [exactEq, hforth, Bool.and_true]
  exact decide_eq_true (le_antisymm hle hge)

/-- Byte strings that SHA-256 does not tell apart. -/
def Collide (a b : Bytes) : Prop := a ≠ b ∧ sha256Hex a = sha256Hex b

theorem eq_or_collide {a b : Bytes} (h : sha256Hex a = sha256Hex b) : a = b ∨ Collide a b := by
  by_cases hab : a = b
  · exact .inl hab
  · exact .inr ⟨hab, h⟩

/-- Whatever the loader accepts is bounded and survives its canonical bytes, and neither these bytes nor a digest
over them stand for two accepted values, short of a collision. -/
theorem strict_codec {interp : Interpreter} {a b : Bytes} {v w : Json} (hv : strictJsonLoads interp a = .ok v)
    (hw : strictJsonLoads interp b = .ok w) :
    Bounded v ∧ (∃ x, strictJsonLoads interp (jsonBytes v) = .ok x ∧ exactEq x v = true) ∧
      (jsonBytes v = jsonBytes w → exactEq v w = true) ∧
      (sha256Hex (jsonBytes v) = sha256Hex (jsonBytes w) → exactEq v w = true ∨ Collide (jsonBytes v) (jsonBytes w)) ∧
      ∀ fs gs, v = .obj fs → w = .obj gs → receiptDigestValid fs = true → receiptDigestValid gs = true →
        Dict.get fs "receipt_digest" = Dict.get gs "receipt_digest" →
          exactEq v w = true ∨ Collide (jsonBytes (unsigned fs)) (jsonBytes (unsigned gs)) := by
  have hcarried := carried_of_strictJsonLoads hv
  have hcarried' := carried_of_strictJsonLoads hw
  have hbytes : jsonBytes v = jsonBytes w → exactEq v w = true := fun h =>
    exactEq_of_sortKeys hcarried'.bounded.unique (sortKeys_eq_of_jsonBytes hcarried hcarried' h)
  refine ⟨hcarried.bounded, ⟨_, strictJsonLoads_jsonBytes hcarried, exactEq_sortKeys hcarried.bounded.unique⟩, hbytes,
    fun h => (eq_or_collide h).imp_left hbytes, ?_⟩
  rintro fs gs rfl rfl hvalid hvalid' hdigest
  have hleft := Json.pyEq_str.mp hvalid
  have hright := Json.pyEq_str.mp hvalid'
  have hhash : sha256Hex (jsonBytes (unsigned fs)) = sha256Hex (jsonBytes (unsigned gs)) := by
    rw [hleft, hright] at hdigest
    exact List.append_cancel_left (Json.str.inj hdigest)
  obtain hsame | hcollide := eq_or_collide hhash
  · left
    have hsorted := sortKeys_eq_of_jsonBytes hcarried.unsigned hcarried'.unsigned hsame
    apply exactEq_of_unsigned hcarried.bounded.unique hcarried'.bounded.unique hleft
    · rw [← hdigest, hleft]
    · exact exactEq_of_sortKeys hcarried'.unsigned.bounded.unique hsorted
    · exact exactEq_of_sortKeys hcarried.unsigned.bounded.unique hsorted.symm
  · exact .inr hcollide

/-- A value with both zeros, its keys out of order. -/
def sampleValue : Json := .obj [(u "b", .float .negZero), (u "a", .arr [.int 0, .str (u "x")])]

theorem sampleValue_carried : Carried 1000 sampleValue where
  bounded :=
    { nesting := by decide
      nodes := by decide
      texts := by
        intro s hs
        simp only [sampleValue, Json.walk, Json.walkFields, Json.walkItems, List.mem_cons, List.mem_append, List.not_mem_nil,
          Json.str.injEq, reduceCtorEq, false_or, or_false] at hs
        obtain rfl | rfl | rfl := hs <;> exact scalarIsSafe_str.mp (by decide)
      floats := by
        intro x hx
        simp only [sampleValue, Json.walk, Json.walkFields, Json.walkItems, List.mem_cons, List.mem_append, List.not_mem_nil,
          Json.float.injEq, reduceCtorEq, false_or, or_false] at hx
        subst hx
        rfl
      unique := by
        intro fields hfields
        simp only [sampleValue, Json.walk, Json.walkFields, Json.walkItems, List.mem_cons, List.mem_append, List.not_mem_nil,
          Json.obj.injEq, reduceCtorEq, or_false] at hfields
        subst hfields
        decide }
  shallow := by decide
  integers := by
    intro n hn
    simp only [sampleValue, Json.walk, Json.walkFields, Json.walkItems, List.mem_cons, List.mem_append, List.not_mem_nil,
      Json.int.injEq, reduceCtorEq, false_or, or_false] at hn
    subst hn
    decide
  texts := by
    intro t ht
    simp only [sampleValue, Json.walk, Json.walkFields, Json.walkItems, List.mem_cons, List.mem_append, List.not_mem_nil,
      Json.str.injEq, reduceCtorEq, false_or, or_false] at ht
    obtain rfl | rfl | rfl := ht <;> exact List.isChain_singleton _

theorem strict_codec_sample : Bounded sampleValue.sortKeys ∧
    ∃ x, strictJsonLoads ⟨1000, initialLimit_deep⟩ (jsonBytes sampleValue.sortKeys) = .ok x ∧
      exactEq x sampleValue.sortKeys = true := by
  have hload := @strictJsonLoads_jsonBytes ⟨1000, initialLimit_deep⟩ sampleValue sampleValue_carried
  have hcodec := strict_codec hload hload
  exact ⟨hcodec.1, hcodec.2.1⟩

end McpTrust.Receipt
