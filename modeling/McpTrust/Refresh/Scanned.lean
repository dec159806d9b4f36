import McpTrust.Refresh.FileRoundtrip
import McpTrust.Portability.Prompts

/-! # What the nesting check sees of a decoded text

The check over characters and the decoder agree on where strings and containers
begin and end, so a text that passes the check holds a value of at most that depth.
-/

namespace McpTrust.Refresh

set_option autoImplicit false

open Python

/-! ## Stretches of text -/

/-- From `s` to `rest` the check opens at most `k` containers inside each other and closes all of them. -/
structure Passed (s rest : Str) (k : Nat) : Prop where
  suffix : rest <:+ s
  nesting : ∀ limit depth, depth ≤ limit → nestingWithin limit depth false false s = true →
    depth + k ≤ limit ∧ nestingWithin limit depth false false rest = true

/-- From `s` to `rest` the check closes one container more than it opens. -/
structure Closed (s rest : Str) (k : Nat) : Prop where
  suffix : rest <:+ s
  nesting : ∀ limit depth, depth + 1 ≤ limit → nestingWithin limit (depth + 1) false false s = true →
    depth + 1 + k ≤ limit ∧ nestingWithin limit depth false false rest = true

theorem Passed.refl (s : Str) : Passed s s 0 := ⟨List.suffix_refl s, fun _ _ hdepth h => ⟨hdepth, h⟩⟩

theorem Passed.mono {s rest : Str} {k m : Nat} (h : Passed s rest k) (hm : m ≤ k) : Passed s rest m where
  suffix := h.suffix
  nesting limit depth hdepth hwithin := by
    obtain ⟨hle, hrest⟩ := h.nesting limit depth hdepth hwithin
    exact ⟨by omega, hrest⟩

theorem Passed.trans {s t rest : Str} {k m : Nat} (hs : Passed s t k) (ht : Passed t rest m) :
    Passed s rest (max k m) where
  suffix := ht.suffix.trans hs.suffix
  nesting limit depth hdepth h := by
    obtain ⟨hk, h⟩ := hs.nesting limit depth hdepth h
    obtain ⟨hm, h⟩ := ht.nesting limit depth hdepth h
    exact ⟨by omega, h⟩

theorem Passed.closed {s t rest : Str} {k m : Nat} (hs : Passed s t k) (ht : Closed t rest m) :
    Closed s rest (max k m) where
  suffix := ht.suffix.trans hs.suffix
  nesting limit depth hdepth h := by
    obtain ⟨hk, h⟩ := hs.nesting limit (depth + 1) hdepth h
    obtain ⟨hm, h⟩ := ht.nesting limit depth hdepth h
    exact ⟨by omega, h⟩

theorem Passed.of_neutral {text : Str} (h : text.all isNeutral = true) (rest : Str) : Passed (text ++ rest) rest 0 where
  suffix := List.suffix_append text rest
  nesting limit depth hdepth hs := by
    rw [neutral_of_chars h] at hs
    exact ⟨hdepth, hs⟩

theorem Passed.char {c : CodePoint} (hc : isNeutral c = true) (rest : Str) : Passed (c :: rest) rest 0 :=
  @Passed.of_neutral [c] (by rw [List.all_cons, hc]; rfl) rest

theorem passed_skipSpace (s : Str) : Passed s (skipSpace s) 0 := by
  have hspace : (s.takeWhile isSpace).all isNeutral = true := by
    rw [List.all_eq_true]
    intro c hc
    have hc := List.mem_takeWhile_imp hc
    simp only [isSpace, Bool.or_eq_true, decide_eq_true_eq] at hc
    simp only [isNeutral, Bool.and_eq_true, decide_eq_true_eq]
    refine ⟨⟨⟨⟨?_, ?_⟩, ?_⟩, ?_⟩, ?_⟩
    all_goals
      rintro rfl
      exact absurd hc (by decide)
  have hpassed := Passed.of_neutral hspace (skipSpace s)
  rwa [skipSpace, List.takeWhile_append_dropWhile] at hpassed

theorem closed_bracket {c : CodePoint} (hc : c = ch ']' ∨ c = ch '\x7d') (rest : Str) : Closed (c :: rest) rest 0 where
  suffix := List.suffix_cons c rest
  nesting limit depth hdepth h := by
    have hquote : c ≠ ch '"' := by obtain rfl | rfl := hc <;> decide
    have hopen : ¬(c = ch '[' ∨ c = ch '\x7b') := by obtain rfl | rfl := hc <;> decide
    rw [nestingWithin, if_neg hquote, if_neg hopen, if_pos hc, Nat.add_sub_cancel] at h
    exact ⟨hdepth, h⟩

theorem Closed.opened {c : CodePoint} (hc : c = ch '[' ∨ c = ch '\x7b') {s rest : Str} {k : Nat} (hs : Closed s rest k) :
    Passed (c :: s) rest (k + 1) where
  suffix := hs.suffix.trans (List.suffix_cons c s)
  nesting limit depth hdepth h := by
    have hquote : c ≠ ch '"' := by obtain rfl | rfl := hc <;> decide
    rw [nestingWithin, if_neg hquote, if_pos hc] at h
    split_ifs at h with hlimit
    obtain ⟨hk, h⟩ := hs.nesting limit depth (by omega) h
    exact ⟨by omega, h⟩

/-! ## Strings -/

/-- No part of a surrogate pair stands in the text itself. -/
def Clean (s : Str) : Prop := ∀ c ∈ s, isSurrogate c = false

theorem Clean.suffix {s rest : Str} (hs : Clean s) (h : rest <:+ s) : Clean rest := fun c hc => hs c (h.subset hc)

theorem hexValue_lt {c : CodePoint} (hc : isHex c = true) : hexValue c < 16 := by
  simp only [isHex, isHexLower, isDigit, Bool.or_eq_true, Bool.and_eq_true, decide_eq_true_eq] at hc
  unfold hexValue
  split_ifs <;> omega

theorem hex4_spec {s rest : Str} {n : Nat} (h : hex4 s = some (n, rest)) :
    ∃ a b c d, s = a :: b :: c :: d :: rest ∧ n < 0x10000 ∧
      isHex a = true ∧ isHex b = true ∧ isHex c = true ∧ isHex d = true := by
  unfold hex4 at h
  split at h
  · rename_i a b c d more
    split_ifs at h with hhex
    cases h
    simp only [Bool.and_eq_true] at hhex
    have ha := hexValue_lt hhex.1.1.1
    have hb := hexValue_lt hhex.1.1.2
    have hc := hexValue_lt hhex.1.2
    have hd := hexValue_lt hhex.2
    exact ⟨a, b, c, d, rfl, by omega, hhex.1.1.1, hhex.1.1.2, hhex.1.2, hhex.2⟩
  · cases h

theorem isHex_inside {c : CodePoint} (hc : isHex c = true) : c ≠ ch '"' ∧ c ≠ ch '\\' := by
  constructor
  all_goals
    rintro rfl
    revert hc
    decide

/-- From inside a string to `rest`, which is inside it too. -/
structure Inside (s rest : Str) : Prop where
  suffix : rest <:+ s
  nesting : ∀ limit depth, nestingWithin limit depth true false s = nestingWithin limit depth true false rest

theorem Inside.trans {s t rest : Str} (hs : Inside s t) (ht : Inside t rest) : Inside s rest :=
  ⟨ht.suffix.trans hs.suffix, fun limit depth => (hs.nesting limit depth).trans (ht.nesting limit depth)⟩

theorem inside_char {c : CodePoint} (hquote : c ≠ ch '"') (hslash : c ≠ ch '\\') (rest : Str) : Inside (c :: rest) rest :=
  ⟨List.suffix_cons c rest, fun _ _ => nestingWithin_inside hquote hslash⟩

theorem inside_escape (c : CodePoint) (rest : Str) : Inside (ch '\\' :: c :: rest) rest :=
  ⟨(List.suffix_cons c rest).trans (List.suffix_cons _ _), fun limit depth => nestingWithin_escape limit depth c rest⟩

theorem inside_hex4 {s rest : Str} {n : Nat} (h : hex4 s = some (n, rest)) : Inside s rest := by
  obtain ⟨a, b, c, d, rfl, -, ha, hb, hc, hd⟩ := hex4_spec h
  exact (((inside_char (isHex_inside ha).1 (isHex_inside ha).2 _).trans
    (inside_char (isHex_inside hb).1 (isHex_inside hb).2 _)).trans
      (inside_char (isHex_inside hc).1 (isHex_inside hc).2 _)).trans
        (inside_char (isHex_inside hd).1 (isHex_inside hd).2 _)

theorem lowEscape_spec {s rest : Str} {n : Nat} (h : lowEscape s = some (n, rest)) :
    ∃ more, s = ch '\\' :: ch 'u' :: more ∧ hex4 more = some (n, rest) ∧ 0xDC00 ≤ n ∧ n ≤ 0xDFFF := by
  unfold lowEscape at h
  split at h
  · rename_i a b more
    split_ifs at h with hab
    obtain ⟨hhex, hrange⟩ := Option.filter_eq_some_iff.mp h
    have hrange := of_decide_eq_true hrange
    exact ⟨more, by rw [hab.1, hab.2], hhex, hrange⟩
  · cases h

/-- An escape stays inside its string, and a surrogate it reads is not followed by an escaped half it would have joined. -/
theorem readEscape_spec {s rest : Str} {c : CodePoint} (h : readEscape s = .ok (c, rest)) :
    Inside (ch '\\' :: s) rest ∧ (isHighSurrogate c = true → lowEscape rest = none) ∧
      (isLowSurrogate c = true → lowEscape (ch '\\' :: s) ≠ none) := by
  cases s with
  | nil => cases h
  | cons e more =>
    rw [readEscape] at h
    split_ifs at h with hu
    · subst hu
      cases hhex : hex4 more with
      | none => simp [hhex] at h
      | some p =>
        obtain ⟨n, after⟩ := p
        rw [hhex] at h
        dsimp only at h
        have hinside := (inside_escape (ch 'u') more).trans (inside_hex4 hhex)
        obtain ⟨-, -, -, -, -, hlt, -⟩ := hex4_spec hhex
        have hval : (codePoint n).val = n := Nat.mod_eq_of_lt (by omega)
        have hlow : 0xDC00 ≤ n ∧ n ≤ 0xDFFF → lowEscape (ch '\\' :: ch 'u' :: more) ≠ none := by
          intro hrange
          rw [lowEscape, if_pos ⟨rfl, rfl⟩, hhex, Option.filter_some, if_pos (decide_eq_true hrange)]
          exact Option.some_ne_none _
        split_ifs at h with hhigh
        · cases hjoin : lowEscape after with
          | none =>
            rw [hjoin] at h
            cases h
            refine ⟨hinside, fun _ => hjoin, fun hsurrogate => hlow ?_⟩
            simp only [isLowSurrogate, hval, Bool.and_eq_true, decide_eq_true_eq] at hsurrogate
            exact hsurrogate
          | some q =>
            obtain ⟨low, final⟩ := q
            rw [hjoin] at h
            dsimp only at h
            obtain ⟨more', rfl, hhex', hrange⟩ := lowEscape_spec hjoin
            generalize hvalue : 0x10000 + (n - 0xD800) * 0x400 + (low - 0xDC00) = value at h
            cases h
            have hastral : 0x10000 ≤ (codePoint value).val := by
              have hmod : (codePoint value).val = value := Nat.mod_eq_of_lt (by omega)
              omega
            refine ⟨hinside.trans ((inside_escape (ch 'u') more').trans (inside_hex4 hhex')), ?_, ?_⟩
            all_goals
              intro hsurrogate
              simp only [isHighSurrogate, isLowSurrogate, Bool.and_eq_true, decide_eq_true_eq] at hsurrogate
              omega
        · cases h
          refine ⟨hinside, fun hsurrogate => ?_, fun hsurrogate => hlow ?_⟩
          · simp only [isHighSurrogate, hval, Bool.and_eq_true, decide_eq_true_eq] at hsurrogate
            exact absurd hsurrogate hhigh
          · simp only [isLowSurrogate, hval, Bool.and_eq_true, decide_eq_true_eq] at hsurrogate
            exact hsurrogate
    · cases hsimple : simpleEscape e with
      | none => simp [hsimple] at h
      | some d =>
        rw [hsimple] at h
        cases h
        have hplain : c.val < 128 := by
          unfold simpleEscape at hsimple
          split_ifs at hsimple with hself
          · cases hsimple
            obtain rfl | rfl | rfl := hself <;> decide
          all_goals
            cases hsimple
            decide
        refine ⟨inside_escape e _, ?_, ?_⟩
        all_goals
          intro hsurrogate
          simp only [isHighSurrogate, isLowSurrogate, Bool.and_eq_true, decide_eq_true_eq] at hsurrogate
          omega

/-- A scanned string ends at its quote and holds no surrogate pair. -/
theorem scanString_spec {fuel : Nat} {s rest t : Str} (h : scanString fuel s = .ok (t, rest)) :
    (rest <:+ s ∧ ∀ limit depth, nestingWithin limit depth true false s = nestingWithin limit depth false false rest) ∧
      (Clean s → t.IsChain NoPair ∧ ∀ c, t.head? = some c → isLowSurrogate c = true → lowEscape s ≠ none) := by
  induction fuel generalizing s t with
  | zero => cases h
  | succ fuel ih =>
    cases s with
    | nil => cases h
    | cons c s =>
      rw [scanString] at h
      split_ifs at h with hquote hslash hcontrol
      · cases h
        subst hquote
        refine ⟨⟨List.suffix_cons _ _, fun limit depth => ?_⟩, fun _ => ⟨List.isChain_nil, fun c hc => ?_⟩⟩
        · rw [nestingWithin, if_neg (by decide)]
          rfl
        · cases hc
      · subst hslash
        obtain ⟨⟨d, after⟩, hescape, h⟩ := bind_eq_ok.mp h
        obtain ⟨⟨t', rest'⟩, hscan, h⟩ := bind_eq_ok.mp h
        cases h
        obtain ⟨hinside, hhigh, hlow⟩ := readEscape_spec hescape
        obtain ⟨⟨hsuffix, hnesting⟩, hclean⟩ := ih hscan
        refine ⟨⟨hsuffix.trans hinside.suffix, fun limit depth => ?_⟩, fun hs => ?_⟩
        · rw [hinside.nesting, hnesting]
        · obtain ⟨hchain, hhead⟩ := hclean (hs.suffix hinside.suffix)
          refine ⟨List.isChain_cons.mpr ⟨?_, hchain⟩, ?_⟩
          · intro e he hpair
            exact hhead e (by simpa using he) hpair.2 (hhigh hpair.1)
          · intro e he hsurrogate
            cases he
            exact hlow hsurrogate
      · obtain ⟨⟨t', rest'⟩, hscan, h⟩ := bind_eq_ok.mp h
        cases h
        have hinside := inside_char hquote hslash s
        obtain ⟨⟨hsuffix, hnesting⟩, hclean⟩ := ih hscan
        refine ⟨⟨hsuffix.trans hinside.suffix, fun limit depth => ?_⟩, fun hs => ?_⟩
        · rw [hinside.nesting, hnesting]
        · have hplain : isSurrogate c = false := hs c List.mem_cons_self
          have hneither : isHighSurrogate c ≠ true ∧ isLowSurrogate c ≠ true := by
            simp only [isSurrogate, isHighSurrogate, isLowSurrogate, Bool.and_eq_false_iff, Bool.and_eq_true,
              decide_eq_false_iff_not, decide_eq_true_eq, ne_eq] at hplain ⊢
            omega
          obtain ⟨hchain, -⟩ := hclean (hs.suffix hinside.suffix)
          refine ⟨List.isChain_cons.mpr ⟨fun e _ hpair => hneither.1 hpair.1, hchain⟩, ?_⟩
          intro e he hsurrogate
          cases he
          exact absurd hsurrogate hneither.2

/-- A quoted string opens nothing. -/
theorem passed_string {fuel : Nat} {s rest t : Str} (h : scanString fuel s = .ok (t, rest)) :
    Passed (ch '"' :: s) rest 0 where
  suffix := (scanString_spec h).1.1.trans (List.suffix_cons _ s)
  nesting limit depth hdepth hs := by
    rw [nestingWithin, if_pos rfl, (scanString_spec h).1.2] at hs
    exact ⟨hdepth, hs⟩

/-! ## Scalars -/

theorem scanSign_neutral (s : Str) : s = (scanSign s).1 ++ (scanSign s).2 ∧ (scanSign s).1.all isNeutral = true := by
  cases s with
  | nil => exact ⟨rfl, rfl⟩
  | cons c s =>
    rw [scanSign]
    split_ifs with hc
    · subst hc
      have hminus : [ch '-'].all isNeutral = true := by decide
      exact ⟨rfl, hminus⟩
    · exact ⟨rfl, rfl⟩

theorem takeWhile_neutral (s : Str) : (s.takeWhile isDigit).all isNeutral = true :=
  all_neutral_of_digits fun _ hc => List.mem_takeWhile_imp hc

theorem scanInteger_neutral {s p rest : Str} (h : scanInteger s = some (p, rest)) :
    s = p ++ rest ∧ p.all isNeutral = true := by
  cases s with
  | nil => cases h
  | cons c s =>
    rw [scanInteger] at h
    split_ifs at h with hzero hdigit
    · cases h
      subst hzero
      exact ⟨rfl, by decide⟩
    · cases h
      refine ⟨?_, ?_⟩
      · rw [List.cons_append, List.takeWhile_append_dropWhile]
      · rw [List.all_cons, isNeutral_of_digit hdigit, takeWhile_neutral]
        rfl

theorem scanFraction_neutral (s : Str) :
    s = (scanFraction s).1 ++ (scanFraction s).2 ∧ (scanFraction s).1.all isNeutral = true := by
  unfold scanFraction
  split
  · rename_i c d rest
    split_ifs with hc
    · refine ⟨?_, ?_⟩
      · rw [List.cons_append, List.cons_append, List.takeWhile_append_dropWhile]
      · rw [List.all_cons, List.all_cons, isNeutral_of_digit hc.2, takeWhile_neutral, hc.1]
        decide
    · exact ⟨rfl, rfl⟩
  · exact ⟨rfl, rfl⟩

theorem scanExponent_neutral (s : Str) :
    s = (scanExponent s).1 ++ (scanExponent s).2 ∧ (scanExponent s).1.all isNeutral = true := by
  cases s with
  | nil => exact ⟨rfl, rfl⟩
  | cons c rest =>
    rw [scanExponent]
    split_ifs with hc
    · have hneutral : isNeutral c = true := by obtain rfl | rfl := hc <;> decide
      -- the sign, when there is one, is the first character
      have hsign : ∃ sign more, rest = sign ++ more ∧ sign.all isNeutral = true ∧
          ((rest.take 1).filter fun d => decide (d = ch '+' ∨ d = ch '-')) = sign := by
        cases rest with
        | nil => exact ⟨[], [], rfl, rfl, rfl⟩
        | cons d more =>
          rw [List.take_succ_cons, List.take_zero, List.filter_cons]
          split_ifs with hd
          · refine ⟨[d], more, rfl, ?_, rfl⟩
            obtain rfl | rfl := of_decide_eq_true hd <;> decide
          · exact ⟨[], d :: more, rfl, rfl, rfl⟩
      obtain ⟨sign, more, rfl, hsigned, hfilter⟩ := hsign
      dsimp only
      rw [hfilter, List.drop_left]
      split_ifs with hdigits
      · exact ⟨rfl, rfl⟩
      · have hdrop : (sign ++ more).drop (sign.length + (more.takeWhile isDigit).length) = more.dropWhile isDigit := by
          have hskip : ∀ front back : Str, front ++ back = more → more.drop front.length = back := by
            rintro front back rfl
            exact List.drop_left
          rw [← List.drop_drop, List.drop_left]
          exact hskip _ _ List.takeWhile_append_dropWhile
        refine ⟨?_, ?_⟩
        · rw [hdrop, List.cons_append, List.cons_append, List.append_assoc, List.takeWhile_append_dropWhile]
        · rw [List.cons_append, List.all_cons, List.all_append, hneutral, hsigned, takeWhile_neutral]
          rfl
    · exact ⟨rfl, rfl⟩

theorem scanNumber_passed {s integer tail rest : Str} (h : scanNumber s = some (integer, tail, rest)) :
    Passed s rest 0 := by
  unfold scanNumber at h
  obtain ⟨hsign, hsigned⟩ := scanSign_neutral s
  generalize scanSign s = signed at h hsign hsigned
  obtain ⟨sign, after⟩ := signed
  obtain ⟨⟨whole, afterWhole⟩, hinteger, h⟩ := Option.bind_eq_some_iff.mp h
  obtain ⟨hwhole, hdigits⟩ := scanInteger_neutral hinteger
  dsimp only at h hsign hsigned hwhole hdigits
  obtain ⟨hfraction, hfractional⟩ := scanFraction_neutral afterWhole
  generalize scanFraction afterWhole = fractional at h hfraction hfractional
  obtain ⟨fraction, afterFraction⟩ := fractional
  dsimp only at h hfraction hfractional
  obtain ⟨hexponent, hexponential⟩ := scanExponent_neutral afterFraction
  generalize scanExponent afterFraction = exponential at h hexponent hexponential
  obtain ⟨exponent, afterExponent⟩ := exponential
  dsimp only at hexponent hexponential
  cases h
  have hsplit : s = (sign ++ (whole ++ (fraction ++ exponent))) ++ afterExponent := by
    rw [hsign, hwhole, hfraction, hexponent]
    simp only [List.append_assoc]
  rw [hsplit]
  apply Passed.of_neutral
  rw [List.all_append, List.all_append, List.all_append, hsigned, hdigits, hfractional, hexponential]
  rfl

theorem stripPrefix_passed {literal : String} (hneutral : (u literal).all isNeutral = true) {s rest : Str}
    (h : stripPrefix literal s = some rest) : Passed s rest 0 := by
  unfold stripPrefix at h
  split_ifs at h with hstart
  cases h
  obtain ⟨t, rfl⟩ := List.isPrefixOf_iff_prefix.mp hstart
  rw [List.drop_left]
  exact .of_neutral hneutral t

/-- A value with no container and no text. -/
def IsNumeric (v : Json) : Prop := v.depth = 0 ∧ ∀ t, .str t ∉ v.walk

/-- The hooks read numbers as numbers and keep the members of an object. -/
structure Keeping (h : Hooks) : Prop where
  int : ∀ text v, h.parseInt text = .ok v → IsNumeric v
  float : ∀ text v, h.parseFloat text = .ok v → IsNumeric v
  constant : ∀ text v, h.parseConstant text = .ok v → IsNumeric v
  obj : ∀ fields v, h.objectPairs fields = .ok v → v = .obj fields

/-- The hooks read numbers as numbers and build an object from some of its members. -/
structure Retaining (h : Hooks) : Prop where
  int : ∀ text v, h.parseInt text = .ok v → IsNumeric v
  float : ∀ text v, h.parseFloat text = .ok v → IsNumeric v
  constant : ∀ text v, h.parseConstant text = .ok v → IsNumeric v
  obj : ∀ fields v, h.objectPairs fields = .ok v → ∃ kept : Dict, v = .obj kept ∧ kept ⊆ fields

theorem Keeping.retaining {h : Hooks} (hh : Keeping h) : Retaining h where
  int := hh.int
  float := hh.float
  constant := hh.constant
  obj fields v hpairs := ⟨fields, hh.obj fields v hpairs, List.Subset.refl _⟩

theorem scanScalar_passed {h : Hooks} (hh : Retaining h) {s rest : Str} {v : Json} (hscan : scanScalar h s = .ok (v, rest)) :
    Passed s rest 0 ∧ IsNumeric v := by
  have hplain : ∀ v : Json, v.walk = [v] → (∀ t, v ≠ .str t) → v.depth = 0 → IsNumeric v := by
    intro v hwalk hstr hdepth
    refine ⟨hdepth, fun t ht => ?_⟩
    rw [hwalk, List.mem_singleton] at ht
    exact hstr t ht.symm
  unfold scanScalar at hscan
  split at hscan
  · next hnull =>
    cases hscan
    exact ⟨stripPrefix_passed (by decide) hnull, hplain _ rfl (by simp) rfl⟩
  split at hscan
  · next htrue =>
    cases hscan
    exact ⟨stripPrefix_passed (by decide) htrue, hplain _ rfl (by simp) rfl⟩
  split at hscan
  · next hfalse =>
    cases hscan
    exact ⟨stripPrefix_passed (by decide) hfalse, hplain _ rfl (by simp) rfl⟩
  split at hscan
  · next name after hfound =>
    obtain ⟨hv, hrest⟩ := map_pair_eq_ok.mp hscan
    obtain rfl : rest = after := hrest
    obtain ⟨literal, hmem, hstrip⟩ := List.exists_of_findSome?_eq_some hfound
    obtain ⟨after', hstrip, hpair⟩ := Option.map_eq_some_iff.mp hstrip
    cases hpair
    have hneutral : ∀ literal ∈ ["NaN", "Infinity", "-Infinity"], (u literal).all isNeutral = true := by decide
    exact ⟨stripPrefix_passed (hneutral _ hmem) hstrip, hh.constant _ _ hv⟩
  split at hscan
  · cases hscan
  · next integer after hnumber =>
    obtain ⟨hv, hrest⟩ := map_pair_eq_ok.mp hscan
    obtain rfl : rest = after := hrest
    exact ⟨scanNumber_passed hnumber, hh.int _ _ hv⟩
  · next integer tail after _ hnumber =>
    obtain ⟨hv, hrest⟩ := map_pair_eq_ok.mp hscan
    obtain rfl : rest = after := hrest
    exact ⟨scanNumber_passed hnumber, hh.float _ _ hv⟩

/-! ## Values -/

/-- No text of the value holds a surrogate pair. -/
def Texts (v : Json) : Prop := ∀ t, .str t ∈ v.walk → t.IsChain NoPair

theorem texts_str {t : Str} (h : t.IsChain NoPair) : Texts (.str t) := by
  intro s hs
  rw [Json.walk, List.mem_singleton] at hs
  · cases hs
    exact h
  all_goals simp

theorem scan_passed {h : Hooks} (hh : Retaining h) (fuel : Nat) :
    (∀ depth s v rest, scanValue h fuel depth s = .ok (v, rest) →
      Passed s rest v.depth ∧ v.depth ≤ depth ∧ (Clean s → Texts v)) ∧
    (∀ depth start s items rest, scanItems h fuel depth start s = .ok (items, rest) →
      Closed s rest (Json.depthItems items) ∧ Json.depthItems items ≤ depth ∧ (Clean s → ∀ v ∈ items, Texts v)) ∧
    (∀ depth start s fields rest, scanMembers h fuel depth start s = .ok (fields, rest) →
      Closed s rest (Json.depthFields fields) ∧ Json.depthFields fields ≤ depth ∧
        (Clean s → ∀ kv ∈ fields, kv.1.IsChain NoPair ∧ Texts kv.2)) := by
  induction fuel with
  | zero => simp [scanValue, scanItems, scanMembers]
  | succ fuel ih =>
    obtain ⟨ihValue, ihItems, ihMembers⟩ := ih
    refine ⟨?_, ?_, ?_⟩
    · intro depth s v rest hscan
      cases s with
      | nil => simp [scanValue] at hscan
      | cons c s =>
        rw [scanValue_cons] at hscan
        split at hscan
        · next hquote =>
          subst hquote
          cases hstr : scanString fuel s with
          | error e => simp [hstr, Except.map] at hscan
          | ok q =>
            rw [hstr] at hscan
            cases hscan
            refine ⟨passed_string hstr, Nat.zero_le _, fun hclean => ?_⟩
            exact texts_str ((scanString_spec hstr).2 (hclean.suffix (List.suffix_cons _ _))).1
        split at hscan
        · next hbrace =>
          subst hbrace
          cases depth with
          | zero => cases hscan
          | succ depth =>
            obtain ⟨⟨fields, after⟩, hmembers, hscan⟩ := bind_eq_ok.mp hscan
            obtain ⟨w, hpairs, hscan⟩ := bind_eq_ok.mp hscan
            cases hscan
            obtain ⟨kept, rfl, hkept⟩ := hh.obj _ _ hpairs
            obtain ⟨hclosed, hdepth, htexts⟩ := ihMembers _ _ _ _ _ hmembers
            have hbody := (passed_skipSpace s).closed hclosed
            have hdepthKept : Json.depthFields kept ≤ Json.depthFields fields :=
              Json.depthFields_le.mpr fun kv hkv => Json.depth_le_fields (hkept hkv)
            rw [Nat.zero_max] at hbody
            rw [Json.depth]
            refine ⟨(hbody.opened (.inr rfl)).mono (by omega), by omega, fun hclean t ht => ?_⟩
            have hclean' := (hclean.suffix (List.suffix_cons _ _)).suffix (passed_skipSpace s).suffix
            rw [Json.walk, List.mem_cons, Json.mem_walkFields] at ht
            obtain ht | ⟨kv, hkv, ht | ht⟩ := ht
            · cases ht
            · cases ht
              exact (htexts hclean' kv (hkept hkv)).1
            · exact (htexts hclean' kv (hkept hkv)).2 t ht
        split at hscan
        · next hbracket =>
          subst hbracket
          cases depth with
          | zero => cases hscan
          | succ depth =>
            obtain ⟨⟨items, after⟩, hitems, hscan⟩ := bind_eq_ok.mp hscan
            cases hscan
            obtain ⟨hclosed, hdepth, htexts⟩ := ihItems _ _ _ _ _ hitems
            have hbody := (passed_skipSpace s).closed hclosed
            rw [Nat.zero_max] at hbody
            rw [Json.depth]
            refine ⟨hbody.opened (.inl rfl), by omega, fun hclean t ht => ?_⟩
            have hclean' := (hclean.suffix (List.suffix_cons _ _)).suffix (passed_skipSpace s).suffix
            rw [Json.walk, List.mem_cons, Json.mem_walkItems] at ht
            obtain ht | ⟨w, hw, ht⟩ := ht
            · cases ht
            · exact htexts hclean' w hw t ht
        · obtain ⟨hpassed, hdepth, hnone⟩ := scanScalar_passed hh hscan
          rw [hdepth]
          exact ⟨hpassed, Nat.zero_le _, fun _ t ht => absurd ht (hnone t)⟩
    · intro depth start s items rest hscan
      rw [scanItems] at hscan
      split at hscan
      · next hend =>
        obtain ⟨t, rfl⟩ := List.head?_eq_some_iff.mp hend.2
        cases hscan
        exact ⟨closed_bracket (.inl rfl) t, Nat.zero_le _, fun _ => by simp⟩
      · obtain ⟨⟨v, after⟩, hvalue, hscan⟩ := bind_eq_ok.mp hscan
        obtain ⟨hpassed, hdepth, htexts⟩ := ihValue _ _ _ _ hvalue
        have hskipped := hpassed.trans (passed_skipSpace after)
        rw [Nat.max_zero] at hskipped
        dsimp only at hscan
        cases hskip : skipSpace after with
        | nil => simp [hskip] at hscan
        | cons c more =>
          rw [hskip] at hscan hskipped
          dsimp only at hscan
          split at hscan
          · next hclose =>
            cases hscan
            have hclosed := hskipped.closed (closed_bracket (.inl hclose) _)
            rw [Json.depthItems, Json.depthItems]
            exact ⟨hclosed, by omega, fun hclean w hw => by rw [List.mem_singleton.mp hw]; exact htexts hclean⟩
          split at hscan
          · next hcomma =>
            obtain ⟨⟨vs, final⟩, hitems, hscan⟩ := bind_eq_ok.mp hscan
            dsimp only at hscan
            cases hscan
            obtain ⟨hclosed, hdepth', htexts'⟩ := ihItems _ _ _ _ _ hitems
            have hneutral : isNeutral c = true := by
              rw [hcomma]
              decide
            have hbefore := (hskipped.trans (Passed.char hneutral more)).trans (passed_skipSpace more)
            rw [Nat.max_zero, Nat.max_zero] at hbefore
            rw [Json.depthItems]
            refine ⟨hbefore.closed hclosed, by omega, fun hclean w hw => ?_⟩
            obtain rfl | hw := List.mem_cons.mp hw
            · exact htexts hclean
            · exact htexts' (hclean.suffix hbefore.suffix) w hw
          · cases hscan
    · intro depth start s fields rest hscan
      cases s with
      | nil => simp [scanMembers] at hscan
      | cons c s =>
        rw [scanMembers] at hscan
        split at hscan
        · next hend =>
          cases hscan
          exact ⟨closed_bracket (.inr hend.2) _, Nat.zero_le _, fun _ => by simp⟩
        split at hscan
        · next hquote =>
          subst hquote
          obtain ⟨⟨key, after⟩, hkey, hscan⟩ := bind_eq_ok.mp hscan
          have hname := (passed_string hkey).trans (passed_skipSpace after)
          rw [Nat.max_zero] at hname
          dsimp only at hscan
          cases hskip : skipSpace after with
          | nil => simp [hskip] at hscan
          | cons d more =>
            rw [hskip] at hscan hname
            dsimp only at hscan
            split at hscan
            · next hcolon =>
              obtain ⟨⟨v, after'⟩, hvalue, hscan⟩ := bind_eq_ok.mp hscan
              obtain ⟨hpassed, hdepth, htexts⟩ := ihValue _ _ _ _ hvalue
              have hneutral : isNeutral d = true := by
                rw [hcolon]
                decide
              have hstart := (hname.trans (Passed.char hneutral more)).trans (passed_skipSpace more)
              have hskipped := (hstart.trans hpassed).trans (passed_skipSpace after')
              rw [Nat.max_zero, Nat.max_zero] at hstart
              rw [Nat.max_zero, Nat.zero_max] at hskipped
              have hkeyed : Clean (ch '"' :: s) → key.IsChain NoPair := fun hclean =>
                ((scanString_spec hkey).2 (hclean.suffix (List.suffix_cons _ _))).1
              dsimp only at hscan
              cases hskip' : skipSpace after' with
              | nil => simp [hskip'] at hscan
              | cons e more' =>
                rw [hskip'] at hscan hskipped
                dsimp only at hscan
                split at hscan
                · next hclose =>
                  cases hscan
                  have hclosed := hskipped.closed (closed_bracket (.inr hclose) _)
                  rw [Json.depthFields, Json.depthFields]
                  refine ⟨hclosed, by omega, fun hclean kv hkv => ?_⟩
                  rw [List.mem_singleton.mp hkv]
                  exact ⟨hkeyed hclean, htexts (hclean.suffix hstart.suffix)⟩
                split at hscan
                · next hcomma =>
                  obtain ⟨⟨members, final⟩, hmembers, hscan⟩ := bind_eq_ok.mp hscan
                  dsimp only at hscan
                  cases hscan
                  obtain ⟨hclosed, hdepth', htexts'⟩ := ihMembers _ _ _ _ _ hmembers
                  have hneutral' : isNeutral e = true := by
                    rw [hcomma]
                    decide
                  have hbefore := (hskipped.trans (Passed.char hneutral' more')).trans (passed_skipSpace more')
                  rw [Nat.max_zero, Nat.max_zero] at hbefore
                  rw [Json.depthFields]
                  refine ⟨hbefore.closed hclosed, by omega, fun hclean kv hkv => ?_⟩
                  obtain rfl | hkv := List.mem_cons.mp hkv
                  · exact ⟨hkeyed hclean, htexts (hclean.suffix hstart.suffix)⟩
                  · exact htexts' (hclean.suffix hbefore.suffix) kv hkv
                · cases hscan
            · cases hscan
        · cases hscan

/-- A decoded value is within the recursion limit and within every nesting its text passes. -/
theorem loads_passed {h : Hooks} (hh : Retaining h) {limit : Nat} {s : Str} {v : Json} (hload : loads h limit s = .ok v) :
    v.depth ≤ limit ∧ (∀ nesting, nestingWithin nesting 0 false false s = true → v.depth ≤ nesting) ∧
      (Clean s → Texts v) := by
  unfold loads at hload
  split at hload
  · cases hload
  · obtain ⟨⟨w, rest⟩, hscan, hload⟩ := bind_eq_ok.mp hload
    dsimp only at hload
    split_ifs at hload
    cases hload
    obtain ⟨hpassed, hdepth, htexts⟩ := (scan_passed hh _).1 _ _ _ _ hscan
    have hwhole := (passed_skipSpace s).trans hpassed
    rw [Nat.zero_max] at hwhole
    refine ⟨hdepth, fun nesting hnesting => ?_, fun hclean => htexts (hclean.suffix (passed_skipSpace s).suffix)⟩
    have hbound := (hwhole.nesting nesting 0 (Nat.zero_le _) hnesting).1
    omega

end McpTrust.Refresh
