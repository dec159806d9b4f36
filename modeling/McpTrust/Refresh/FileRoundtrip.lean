import McpTrust.Python.JsonRoundtrip
import McpTrust.Refresh.Inputs

/-! # Reading back a written document

The nesting of a written document is the depth of its value, so `load_json` reads
back every document that holds no float and is nested within both limits.
-/

namespace McpTrust.Refresh

set_option autoImplicit false

open Python

/-! ## Nesting -/

/-- A character that opens or closes nothing. -/
def isNeutral (c : CodePoint) : Bool :=
  decide (c ≠ ch '"') && decide (c ≠ ch '[') && decide (c ≠ ch '\x7b') && decide (c ≠ ch ']') &&
    decide (c ≠ ch '\x7d')

/-- Text the nesting check passes over. -/
def Neutral (s : Str) : Prop :=
  ∀ limit depth rest, nestingWithin limit depth false false (s ++ rest) = nestingWithin limit depth false false rest

theorem neutral_of_chars {s : Str} (h : s.all isNeutral = true) : Neutral s := by
  intro limit depth rest
  induction s with
  | nil => rfl
  | cons c s ih =>
    rw [List.all_cons, Bool.and_eq_true] at h
    obtain ⟨hc, hs⟩ := h
    simp only [isNeutral, Bool.and_eq_true, decide_eq_true_eq] at hc
    obtain ⟨⟨⟨⟨hquote, hbracket⟩, hbrace⟩, hclose⟩, hclose'⟩ := hc
    rw [List.cons_append, nestingWithin, if_neg hquote, if_neg (not_or.mpr ⟨hbracket, hbrace⟩),
      if_neg (not_or.mpr ⟨hclose, hclose'⟩)]
    exact ih hs

theorem Neutral.append {s t : Str} (hs : Neutral s) (ht : Neutral t) : Neutral (s ++ t) := by
  intro limit depth rest
  rw [List.append_assoc, hs, ht]

/-- A character inside a string. -/
theorem nestingWithin_inside {limit depth : Nat} {c : CodePoint} {rest : Str} (hquote : c ≠ ch '"')
    (hslash : c ≠ ch '\\') :
    nestingWithin limit depth true false (c :: rest) = nestingWithin limit depth true false rest := by
  rw [nestingWithin, if_neg hslash, decide_eq_true hquote]

theorem nestingWithin_escape (limit depth : Nat) (c : CodePoint) (rest : Str) :
    nestingWithin limit depth true false (ch '\\' :: c :: rest) = nestingWithin limit depth true false rest := by
  rw [nestingWithin, if_pos rfl, nestingWithin]

theorem nestingWithin_escapeCode (limit depth n : Nat) (rest : Str) :
    nestingWithin limit depth true false (escapeCode n ++ rest) = nestingWithin limit depth true false rest := by
  have hhex : ∀ d (rest : Str), nestingWithin limit depth true false (hexChar d :: rest) =
      nestingWithin limit depth true false rest := by
    intro d rest
    have hval : 48 ≤ (hexChar d).val ∧ (hexChar d).val ≠ 92 := by
      unfold hexChar
      split <;> dsimp only <;> omega
    apply nestingWithin_inside
    · intro h
      rw [h] at hval
      exact absurd hval.1 (by decide)
    · intro h
      rw [h] at hval
      exact hval.2 rfl
  simp only [escapeCode, List.cons_append, List.nil_append]
  rw [nestingWithin_escape, hhex, hhex, hhex, hhex]

theorem nestingWithin_escapeChar (st : Style) (limit depth : Nat) (c : CodePoint) (rest : Str) :
    nestingWithin limit depth true false (escapeChar st c ++ rest) =
      nestingWithin limit depth true false rest := by
  unfold escapeChar
  cases hshort : shortEscape c with
  | some e => exact nestingWithin_escape limit depth e rest
  | none =>
    have hquote : c ≠ ch '"' := by
      rintro rfl
      cases hshort
    have hslash : c ≠ ch '\\' := by
      rintro rfl
      cases hshort
    dsimp only
    split_ifs
    · exact nestingWithin_escapeCode limit depth _ rest
    · exact nestingWithin_inside hquote hslash
    · exact nestingWithin_escapeCode limit depth _ rest
    · rw [List.append_assoc, nestingWithin_escapeCode, nestingWithin_escapeCode]

theorem neutral_quote (st : Style) (s : Str) : Neutral (quote st s) := by
  intro limit depth rest
  have hinside : nestingWithin limit depth true false (s.flatMap (escapeChar st) ++ (ch '"' :: rest)) =
      nestingWithin limit depth false false rest := by
    induction s with
    | nil =>
      rw [List.flatMap_nil, List.nil_append, nestingWithin, if_neg (by decide)]
      rfl
    | cons c s ih => rw [List.flatMap_cons, List.append_assoc, nestingWithin_escapeChar, ih]
  rw [quote, List.cons_append, nestingWithin, if_pos rfl, List.append_assoc, List.singleton_append, hinside]

theorem neutral_newline (st : Style) (level : Nat) : Neutral (st.newline level) := by
  apply neutral_of_chars
  unfold Style.newline
  split
  · rfl
  · rw [List.all_cons, List.all_replicate]
    simp only [show isNeutral (ch '\n') = true by decide, show isNeutral (ch ' ') = true by decide, Bool.true_and]
    split <;> rfl

theorem neutral_itemSep (st : Style) (level : Nat) : Neutral (st.itemSep level) := by
  have hpad : Neutral (ch ',' :: if st.itemPad then [ch ' '] else []) := by
    apply neutral_of_chars
    split <;> decide
  exact hpad.append (neutral_newline st level)

theorem neutral_keySep (st : Style) : Neutral st.keySep := by
  apply neutral_of_chars
  unfold Style.keySep
  split <;> decide

theorem isNeutral_of_digit {c : CodePoint} (hc : isDigit c = true) : isNeutral c = true := by
  simp only [isDigit, Bool.and_eq_true, decide_eq_true_eq] at hc
  simp only [isNeutral, Bool.and_eq_true, decide_eq_true_eq]
  refine ⟨⟨⟨⟨?_, ?_⟩, ?_⟩, ?_⟩, ?_⟩
  all_goals
    rintro rfl
    exact absurd hc (by decide)

theorem all_neutral_of_digits {s : Str} (h : ∀ c ∈ s, isDigit c = true) : s.all isNeutral = true :=
  List.all_eq_true.mpr fun c hc => isNeutral_of_digit (h c hc)

theorem neutral_intRepr (n : ℤ) : Neutral (intRepr n) := by
  have hnat : ∀ m, (natRepr m).all isNeutral = true := fun m => all_neutral_of_digits (natRepr_digits m)
  apply neutral_of_chars
  unfold intRepr
  split
  · rw [List.all_cons, hnat]
    rfl
  · exact hnat _

theorem neutral_decimalText {text whole fraction exponent : Str} {value : ℤ}
    (h : IsDecimalText text whole fraction exponent value) : text.all isNeutral = true := by
  rw [h.text_eq, List.all_append, List.all_append, Bool.and_eq_true, Bool.and_eq_true]
  refine ⟨all_neutral_of_digits h.whole_digits, ?_, ?_⟩
  · split
    · rfl
    · rw [List.all_cons, all_neutral_of_digits h.fraction_digits]
      decide
  · obtain ⟨rfl, -⟩ | ⟨sign, digits, rfl, -, hdigits, ⟨rfl, -⟩ | ⟨rfl, -⟩⟩ := h.exponent_eq
    · rfl
    all_goals
      rw [List.all_cons, List.all_cons, all_neutral_of_digits hdigits]
      decide

theorem neutral_jsonFloat (x : PyFloat) : Neutral (jsonFloat x) := by
  apply neutral_of_chars
  cases hx : x.isFinite with
  | true =>
    obtain ⟨text, whole, fraction, exponent, value, htext, hrepr, -⟩ := floatRepr_text hx
    rw [jsonFloat_finite hx]
    obtain hrepr | hrepr := hrepr
    · rw [hrepr, neutral_decimalText htext]
    · rw [hrepr, List.all_cons, neutral_decimalText htext]
      decide
  | false =>
    cases x with
    | finite x => cases hx
    | negZero => cases hx
    | inf negative => cases negative <;> decide
    | nan => decide

/-- What opens at one depth and closes again. -/
theorem nestingWithin_open {limit depth : Nat} (hdepth : depth + 1 ≤ limit) {opening closing : CodePoint}
    (hopening : opening = ch '[' ∧ closing = ch ']' ∨ opening = ch '\x7b' ∧ closing = ch '\x7d') {body : Str}
    (hbody : ∀ rest, nestingWithin limit (depth + 1) false false (body ++ rest) =
      nestingWithin limit (depth + 1) false false rest) (rest : Str) :
    nestingWithin limit depth false false (opening :: (body ++ closing :: rest)) =
      nestingWithin limit depth false false rest := by
  obtain ⟨rfl, rfl⟩ | ⟨rfl, rfl⟩ := hopening
  all_goals
    rw [nestingWithin, if_neg (by decide), if_pos (by decide), if_neg (by omega), hbody, nestingWithin,
      if_neg (by decide), if_neg (by decide), if_pos (by decide), Nat.add_sub_cancel]

/-- Values that keep the depth where each of them is written. -/
def Keeps (st : Style) (limit depth level : Nat) (v : Json) : Prop :=
  ∀ rest, nestingWithin limit depth false false (render st level v ++ rest) =
    nestingWithin limit depth false false rest

theorem nestingWithin_renderItems {st : Style} {limit depth level : Nat} {items : List Json}
    (h : ∀ v ∈ items, Keeps st limit depth level v) (rest : Str) :
    nestingWithin limit depth false false (renderItems st level items ++ rest) =
      nestingWithin limit depth false false rest := by
  induction items with
  | nil => rfl
  | cons v items ih =>
    rw [renderItems, List.append_assoc, neutral_itemSep, List.append_assoc, h v List.mem_cons_self,
      ih fun w hw => h w (List.mem_cons_of_mem _ hw)]

theorem nestingWithin_renderFields {st : Style} {limit depth level : Nat} {fields : Dict}
    (h : ∀ kv ∈ fields, Keeps st limit depth level kv.2) (rest : Str) :
    nestingWithin limit depth false false (renderFields st level fields ++ rest) =
      nestingWithin limit depth false false rest := by
  induction fields with
  | nil => rfl
  | cons kv fields ih =>
    obtain ⟨key, v⟩ := kv
    have hv : Keeps st limit depth level v := h (key, v) List.mem_cons_self
    rw [renderFields, List.append_assoc, neutral_itemSep, List.append_assoc, neutral_quote, List.append_assoc,
      neutral_keySep, List.append_assoc, hv, ih fun w hw => h w (List.mem_cons_of_mem _ hw)]

/-- A written value is passed over where its own nesting fits. -/
theorem nestingWithin_render (st : Style) (limit : Nat) {v : Json} {level depth : Nat} (hdepth : depth + v.depth ≤ limit) : Keeps st limit depth level v := by
  induction v using Json.induct generalizing level depth with
  | null =>
    intro rest
    rw [render]
    exact neutral_of_chars (by decide) limit depth rest
  | bool b =>
    intro rest
    rw [render]
    cases b <;> exact neutral_of_chars (by decide) limit depth rest
  | int n =>
    intro rest
    rw [render]
    exact neutral_intRepr n limit depth rest
  | float x =>
    intro rest
    rw [render]
    exact neutral_jsonFloat x limit depth rest
  | str s =>
    intro rest
    rw [render]
    exact neutral_quote st s limit depth rest
  | arr items ih =>
    have hdepth' : depth + 1 ≤ limit := by
      rw [Json.depth] at hdepth
      omega
    have hitems : ∀ v ∈ items, Keeps st limit (depth + 1) (level + 1) v := by
      intro v hv
      apply ih v hv
      have hle := Json.depth_le_items hv
      rw [Json.depth] at hdepth
      omega
    intro rest
    cases items with
    | nil => exact @nestingWithin_open _ _ hdepth' _ _ (.inl ⟨rfl, rfl⟩) [] (fun _ => rfl) rest
    | cons v items =>
      have hbody : ∀ rest, nestingWithin limit (depth + 1) false false
          ((st.newline (level + 1) ++ (render st (level + 1) v ++ (renderItems st (level + 1) items ++
            st.newline level))) ++ rest) = nestingWithin limit (depth + 1) false false rest := by
        intro rest
        rw [List.append_assoc, neutral_newline, List.append_assoc, hitems v List.mem_cons_self,
          List.append_assoc, nestingWithin_renderItems fun w hw => hitems w (List.mem_cons_of_mem _ hw),
          neutral_newline]
      rw [← nestingWithin_open hdepth' (.inl ⟨rfl, rfl⟩) hbody rest, render]
      simp only [List.cons_append, List.append_assoc, List.nil_append]
  | obj fields ih =>
    have hdepth' : depth + 1 ≤ limit := by
      rw [Json.depth] at hdepth
      omega
    have hfields : ∀ kv ∈ fields, Keeps st limit (depth + 1) (level + 1) kv.2 := by
      intro kv hkv
      apply ih kv hkv
      have hle := Json.depth_le_fields hkv
      rw [Json.depth] at hdepth
      omega
    intro rest
    cases fields with
    | nil => exact @nestingWithin_open _ _ hdepth' _ _ (.inr ⟨rfl, rfl⟩) [] (fun _ => rfl) rest
    | cons kv fields =>
      obtain ⟨key, v⟩ := kv
      have hv : Keeps st limit (depth + 1) (level + 1) v := hfields (key, v) List.mem_cons_self
      have hbody : ∀ rest, nestingWithin limit (depth + 1) false false
          ((st.newline (level + 1) ++ (quote st key ++ (st.keySep ++ (render st (level + 1) v ++
            (renderFields st (level + 1) fields ++ st.newline level))))) ++ rest) =
              nestingWithin limit (depth + 1) false false rest := by
        intro rest
        rw [List.append_assoc, neutral_newline, List.append_assoc, neutral_quote, List.append_assoc,
          neutral_keySep, List.append_assoc, hv, List.append_assoc,
          nestingWithin_renderFields fun w hw => hfields w (List.mem_cons_of_mem _ hw), neutral_newline]
      rw [← nestingWithin_open hdepth' (.inr ⟨rfl, rfl⟩) hbody rest, render]
      simp only [List.cons_append, List.append_assoc, List.nil_append]

/-! ## Reading back -/

/-- What `load_json` reads back: no float, unique keys, and integers and strings JSON can carry. -/
structure Loadable (v : Json) (depth : Nat) : Prop where
  plain : v.Plain depth
  admits : ∀ st : Style, Admits inputHooks st v

theorem escapable_of_ascii {s : Str} (h : Ascii s) (st : Style) : Escapable st s := by
  intro _
  induction s with
  | nil => exact List.isChain_nil
  | cons a s ih =>
    have htail := ih fun c hc => h c (List.mem_cons_of_mem _ hc)
    cases s with
    | nil => exact List.isChain_singleton _
    | cons b s =>
      refine List.isChain_cons_cons.mpr ⟨fun hpair => ?_, htail⟩
      have ha := h a List.mem_cons_self
      have hhigh := hpair.1
      simp only [isHighSurrogate, Bool.and_eq_true, decide_eq_true_eq] at hhigh
      omega

theorem Loadable.of_scalar (v : Json) (hwalk : v.walk = [v]) (hfloat : ∀ x, v ≠ .float x) (hdepth : v.depth = 0)
    (hnode : ∀ st, AdmitsNode inputHooks st v) (depth : Nat) : Loadable v depth where
  plain := by
    refine ⟨by omega, fun x hx => ?_⟩
    rw [hwalk, List.mem_singleton] at hx
    exact hfloat x hx.symm
  admits st w hw := by
    rw [hwalk, List.mem_singleton] at hw
    rw [hw]
    exact hnode st

theorem loadable_str {s : Str} (h : Ascii s) (depth : Nat) : Loadable (.str s) depth :=
  .of_scalar (.str s) (by simp [Json.walk]) nofun rfl (fun st => escapable_of_ascii h st) depth

theorem loadable_int {n : ℤ} (h : (intRepr n).length ≤ 4300) (depth : Nat) : Loadable (.int n) depth := by
  refine .of_scalar (.int n) (by simp [Json.walk]) nofun rfl (fun st => ?_) depth
  change (pyInt (intRepr n)).map Json.int = .ok (.int n)
  rw [pyInt_intRepr h]
  rfl

theorem loadable_bool (b : Bool) (depth : Nat) : Loadable (.bool b) depth :=
  .of_scalar (.bool b) (by simp [Json.walk]) nofun rfl (fun _ => trivial) depth

theorem loadable_null (depth : Nat) : Loadable .null depth :=
  .of_scalar .null (by simp [Json.walk]) nofun rfl (fun _ => trivial) depth

theorem loadable_arr {items : List Json} {depth : Nat} (h : ∀ v ∈ items, Loadable v depth) :
    Loadable (.arr items) (depth + 1) where
  plain := Json.plain_arr fun v hv => (h v hv).plain
  admits st w hw := by
    rw [Json.walk, List.mem_cons, Json.mem_walkItems] at hw
    obtain rfl | ⟨v, hv, hw⟩ := hw
    · trivial
    · exact (h v hv).admits st w hw

theorem loadable_obj {fields : Dict} {depth : Nat} (hkeys : (Dict.keys fields).Nodup)
    (h : ∀ kv ∈ fields, Ascii kv.1 ∧ Loadable kv.2 depth) : Loadable (.obj fields) (depth + 1) where
  plain := Json.plain_obj fun kv hkv => (h kv hkv).2.plain
  admits st w hw := by
    rw [Json.walk, List.mem_cons, Json.mem_walkFields] at hw
    obtain rfl | ⟨kv, hkv, rfl | hw⟩ := hw
    · change rejectDuplicateKeys fields = .ok (.obj fields)
      rw [rejectDuplicateKeys, if_pos hkeys]
    · exact escapable_of_ascii (h kv hkv).1 st
    · exact (h kv hkv).2.admits st w hw

/-- A value without floats whose texts are ASCII and whose integers are short. -/
def isPlainJson : Nat → Json → Bool
  | _, .null | _, .bool _ => true
  | _, .int n => decide ((intRepr n).length ≤ 4300)
  | _, .str s => s.all fun c => decide (c.val < 128)
  | fuel + 1, .arr items => items.all (isPlainJson fuel)
  | fuel + 1, .obj fields =>
    decide ((Dict.keys fields).Nodup) &&
      fields.all fun kv => (kv.1.all fun c => decide (c.val < 128)) && isPlainJson fuel kv.2
  | _, _ => false

theorem loadable_of_plain (fuel : Nat) (v : Json) (h : isPlainJson fuel v = true) : Loadable v fuel := by
  have hascii : ∀ s : Str, (s.all fun c => decide (c.val < 128)) = true → Ascii s := by
    intro s hs c hc
    exact of_decide_eq_true (List.all_eq_true.mp hs c hc)
  induction fuel generalizing v with
  | zero =>
    cases v with
    | null => exact loadable_null _
    | bool b => exact loadable_bool b _
    | int n => exact loadable_int (of_decide_eq_true h) _
    | str s => exact loadable_str (hascii s h) _
    | float x => cases h
    | arr items => cases h
    | obj fields => cases h
  | succ fuel ih =>
    cases v with
    | null => exact loadable_null _
    | bool b => exact loadable_bool b _
    | int n => exact loadable_int (of_decide_eq_true h) _
    | str s => exact loadable_str (hascii s h) _
    | float x => cases h
    | arr items => exact loadable_arr fun v hv => ih v (List.all_eq_true.mp h v hv)
    | obj fields =>
      obtain ⟨hkeys, hfields⟩ := Bool.and_eq_true_iff.mp h
      refine loadable_obj (of_decide_eq_true hkeys) fun kv hkv => ?_
      obtain ⟨hkey, hvalue⟩ := Bool.and_eq_true_iff.mp (List.all_eq_true.mp hfields kv hkv)
      exact ⟨hascii kv.1 hkey, ih kv.2 hvalue⟩

theorem loadable_plain_fields {fuel : Nat} {fields : Dict} (h : (fields.all fun kv =>
    (kv.1.all fun c => decide (c.val < 128)) && isPlainJson fuel kv.2) = true) :
    ∀ kv ∈ fields, Ascii kv.1 ∧ Loadable kv.2 fuel := by
  intro kv hkv
  obtain ⟨hkey, hvalue⟩ := Bool.and_eq_true_iff.mp (List.all_eq_true.mp h kv hkv)
  exact ⟨fun c hc => of_decide_eq_true (List.all_eq_true.mp hkey c hc), loadable_of_plain fuel kv.2 hvalue⟩

theorem decodeUtf8_ascii {s : Str} (h : Ascii s) : decodeUtf8 (s.flatMap encodeCodePoint) = .ok s := by
  induction s with
  | nil => rfl
  | cons c s ih =>
    have hc := h c List.mem_cons_self
    have hsurrogate : isSurrogate c = false := by
      simp only [isSurrogate, Bool.and_eq_false_iff, decide_eq_false_iff_not]
      omega
    rw [List.flatMap_cons, decodeUtf8_encodeCodePoint c hsurrogate, ih fun d hd => h d (List.mem_cons_of_mem _ hd)]
    rfl

theorem ascii_dumps {st : Style} (hst : st.ensureAscii = true) (v : Json) : Ascii (dumps st v) := by
  intro c hc
  obtain h | ⟨hfalse, -⟩ := render_chars st 0 (st.arrange v) c hc
  · exact h
  · rw [hst] at hfalse
    cases hfalse

/-- `load_json` of a document written as ASCII is the value as it was arranged. -/
theorem loadJson_dumps {interp : Interpreter} {st : Style} (hst : st.ensureAscii = true) {v : Json} {depth : Nat}
    (hload : Loadable (st.arrange v) depth) (hdepth : depth ≤ 64) :
    loadJson interp (some ((dumps st v ++ [ch '
']).flatMap encodeCodePoint)) = .ok (st.arrange v) := by
  have hascii : Ascii (dumps st v ++ [ch '
']) := (ascii_dumps hst v).append (by decide)
  have hplain := hload.plain
  have hlimit := interp.deep
  have hnesting : nestingWithin 1000 0 false false (dumps st v ++ [ch '
']) = true := by
    rw [dumps, nestingWithin_render st 1000 (by have := hplain.1; omega)]
    rfl
  unfold loadJson
  apply catching_eq_ok.mpr
  unfold readText checkJsonNesting
  simp only [decodeUtf8_ascii hascii, bind, Except.bind, hnesting, if_true]
  apply loads_dumps (hload.admits st) (by have := hplain.1; omega)
  intro c hc
  rw [List.mem_singleton.mp hc]
  rfl

end McpTrust.Refresh
