import Mathlib.Data.List.TakeWhile
import McpTrust.Python.FloatRepr
import McpTrust.Python.JsonDecode
import McpTrust.Python.JsonEncode
import McpTrust.Python.JsonHooks

/-! # `json.loads` inverts `json.dumps`

For every style and every value whose numbers and objects the hooks accept. A
float is finite, and with ASCII output no string may hold a high surrogate right
before a low one, which reading joins.
-/

namespace Python

set_option autoImplicit false

/-! ## Strings -/

def NoPair (a b : CodePoint) : Prop := ¬(isHighSurrogate a = true ∧ isLowSurrogate b = true)

/-- `s` reads back from its quoted form. -/
def Escapable (st : Style) (s : Str) : Prop := st.ensureAscii = true → s.IsChain NoPair

@[simp] theorem codePoint_val (c : CodePoint) : codePoint c.val = c := by
  apply Fin.ext
  exact Nat.mod_eq_of_lt c.isLt

theorem hex4_escapeCode {n : Nat} (h : n < 0x10000) (t : Str) :
    hex4 (hexChar (n / 4096) :: hexChar (n / 256) :: hexChar (n / 16) :: hexChar n :: t) =
      some (n, t) := by
  simp only [hex4, isHex_hexChar, hexValue_hexChar, Bool.and_self, if_true, Option.some.injEq,
    Prod.mk.injEq, and_true]
  omega

theorem lowEscape_escapeCode {n : Nat} (h : n < 0x10000) (t : Str) :
    lowEscape (escapeCode n ++ t) = if 0xDC00 ≤ n ∧ n ≤ 0xDFFF then some (n, t) else none := by
  simp only [escapeCode, List.cons_append, List.nil_append, lowEscape, and_self, if_true,
    hex4_escapeCode h]
  split_ifs with hlow <;> simp [Option.filter, hlow]

theorem readEscape_escapeCode {n : Nat} (h : n < 0x10000) (t : Str)
    (hlow : 0xD800 ≤ n ∧ n ≤ 0xDBFF → lowEscape t = none) :
    readEscape ((escapeCode n).tail ++ t) = .ok (codePoint n, t) := by
  simp only [escapeCode, List.tail_cons, List.cons_append, List.nil_append, readEscape, if_true,
    hex4_escapeCode h]
  split_ifs with hhigh
  · rw [hlow hhigh]
  · rfl

theorem readEscape_pair {m : Nat} (h : m < 0x100000) (t : Str) :
    readEscape ((escapeCode (0xD800 + m / 0x400)).tail ++ (escapeCode (0xDC00 + m % 0x400) ++ t)) =
      .ok (codePoint (0x10000 + m), t) := by
  have hhigh : 0xD800 ≤ 0xD800 + m / 0x400 ∧ 0xD800 + m / 0x400 ≤ 0xDBFF := by omega
  have hlow : 0xDC00 ≤ 0xDC00 + m % 0x400 ∧ 0xDC00 + m % 0x400 ≤ 0xDFFF := by omega
  have hread := hex4_escapeCode (n := 0xD800 + m / 0x400) (by omega)
    (escapeCode (0xDC00 + m % 0x400) ++ t)
  have hnext := lowEscape_escapeCode (n := 0xDC00 + m % 0x400) (by omega) t
  rw [if_pos hlow] at hnext
  rw [escapeCode, List.tail_cons]
  simp only [List.cons_append, List.nil_append, readEscape, if_true]
  rw [hread]
  dsimp only
  rw [if_pos hhigh, hnext]
  dsimp only
  rw [show 0x10000 + (0xD800 + m / 0x400 - 0xD800) * 0x400 + (0xDC00 + m % 0x400 - 0xDC00) =
    0x10000 + m by omega]

theorem simpleEscape_shortEscape {c e : CodePoint} (h : shortEscape c = some e) :
    e ≠ ch 'u' ∧ simpleEscape e = some c := by
  unfold shortEscape at h
  split_ifs at h with h1 h2 h3 h4 h5 h6 h7 <;> cases h
  · subst h1; decide
  · subst h2; decide
  all_goals
    refine ⟨by decide, ?_⟩
    first
    | rw [show c = codePoint 8 from Fin.ext h3]; decide
    | rw [show c = codePoint 9 from Fin.ext h4]; decide
    | rw [show c = codePoint 10 from Fin.ext h5]; decide
    | rw [show c = codePoint 12 from Fin.ext h6]; decide
    | rw [show c = codePoint 13 from Fin.ext h7]; decide

theorem scanString_backslash (fuel : Nat) (t : Str) :
    scanString (fuel + 1) (ch '\\' :: t) = (do
      let (d, rest) ← readEscape t
      let (s, rest) ← scanString fuel rest
      .ok (d :: s, rest)) := by
  have hne : ch '\\' ≠ ch '"' := by decide
  rw [scanString, if_neg hne, if_pos rfl]

theorem scanString_escapeChar (st : Style) (c : CodePoint) (fuel : Nat) (t : Str)
    (hpair : st.ensureAscii = true → isHighSurrogate c = true → lowEscape t = none) :
    scanString (fuel + 1) (escapeChar st c ++ t) =
      (scanString fuel t).map fun p => (c :: p.1, p.2) := by
  have hrun : ∀ x : Str, readEscape x = .ok (c, t) →
      scanString (fuel + 1) (ch '\\' :: x) = (scanString fuel t).map fun p => (c :: p.1, p.2) := by
    intro x hx
    rw [scanString_backslash, hx]
    simp only [bind, Except.bind]
    cases scanString fuel t <;> rfl
  have hcode : ∀ n, escapeCode n = ch '\\' :: (escapeCode n).tail := fun _ => rfl
  unfold escapeChar
  cases hshort : shortEscape c with
  | some e =>
    obtain ⟨hu, hsimple⟩ := simpleEscape_shortEscape hshort
    simp only [List.cons_append, List.nil_append]
    apply hrun
    simp only [readEscape, if_neg hu, hsimple]
  | none =>
    have hquote : c ≠ ch '"' := by
      rintro rfl
      simp [shortEscape] at hshort
    have hslash : c ≠ ch '\\' := by
      rintro rfl
      revert hshort
      decide
    dsimp only
    split_ifs with hctl hplain hbmp
    · rw [hcode, List.cons_append]
      apply hrun
      rw [readEscape_escapeCode (by omega) t (by omega), codePoint_val]
    · rw [List.singleton_append, scanString, if_neg hquote, if_neg hslash, if_neg (by omega)]
      simp only [bind, Except.bind]
      cases scanString fuel t <;> rfl
    · rw [hcode, List.cons_append]
      apply hrun
      rw [readEscape_escapeCode hbmp t, codePoint_val]
      intro hhigh
      refine hpair (by simpa using (not_or.mp hplain).1) ?_
      simp [isHighSurrogate, hhigh]
    · have hlt := c.isLt
      rw [hcode, List.append_assoc, List.cons_append]
      apply hrun
      rw [readEscape_pair (by omega) t]
      rw [show 0x10000 + (c.val - 0x10000) = c.val by omega, codePoint_val]

theorem lowEscape_escapeChar (st : Style) {c : CodePoint}
    (hc : isLowSurrogate c = false) (t : Str) : lowEscape (escapeChar st c ++ t) = none := by
  have hnot : ¬(0xDC00 ≤ c.val ∧ c.val ≤ 0xDFFF) := by
    simpa [isLowSurrogate] using hc
  have hlt := c.isLt
  unfold escapeChar
  cases hshort : shortEscape c with
  | some e =>
    obtain ⟨hu, -⟩ := simpleEscape_shortEscape hshort
    simp [lowEscape, hu]
  | none =>
    dsimp only
    split_ifs with hctl hplain hbmp
    · rw [lowEscape_escapeCode (by omega), if_neg (by omega)]
    · have hslash : c ≠ ch '\\' := by
        rintro rfl
        revert hshort
        decide
      cases t with
      | nil => rfl
      | cons d t => simp [lowEscape, hslash]
    · rw [lowEscape_escapeCode hbmp, if_neg hnot]
    · rw [List.append_assoc, lowEscape_escapeCode (by omega), if_neg (by omega)]

theorem lowEscape_quote (t : Str) : lowEscape (ch '"' :: t) = none := by
  have hne : ch '"' ≠ ch '\\' := by decide
  cases t with
  | nil => rfl
  | cons d t => simp [lowEscape]

theorem scanString_escaped {st : Style} {s : Str} (hs : Escapable st s) {fuel : Nat}
    (hfuel : s.length < fuel) (rest : Str) :
    scanString fuel (s.flatMap (escapeChar st) ++ ch '"' :: rest) = .ok (s, rest) := by
  induction s generalizing fuel with
  | nil =>
    obtain ⟨fuel, rfl⟩ := Nat.exists_eq_succ_of_ne_zero (show fuel ≠ 0 by simp at hfuel; omega)
    simp [scanString]
  | cons c s ih =>
    obtain ⟨fuel, rfl⟩ := Nat.exists_eq_succ_of_ne_zero (show fuel ≠ 0 by simp at hfuel; omega)
    have htail : Escapable st s := fun h => (hs h).tail
    rw [List.flatMap_cons, List.append_assoc, scanString_escapeChar,
      ih htail (by simp at hfuel; omega)]
    · rfl
    · intro hascii hhigh
      cases s with
      | nil => exact lowEscape_quote rest
      | cons d s =>
        have hpair : NoPair c d := (List.isChain_cons_cons.mp (hs hascii)).1
        rw [List.flatMap_cons, List.append_assoc]
        apply lowEscape_escapeChar
        cases hlow : isLowSurrogate d with
        | false => rfl
        | true => exact absurd ⟨hhigh, hlow⟩ hpair

/-! ## Scalars -/

/-- What follows a number cannot be read as more of it. -/
def NumberEnd (rest : Str) : Prop :=
  ∀ c, rest.head? = some c → isDigit c = false ∧ c ≠ ch '.' ∧ c ≠ ch 'e' ∧ c ≠ ch 'E'

theorem stripPrefix_append (literal : String) (rest : Str) :
    stripPrefix literal (u literal ++ rest) = some rest := by
  simp [stripPrefix, List.isPrefixOf_iff_prefix]

theorem stripPrefix_of_head_ne {literal : String} {c d : CodePoint} {s : Str}
    (hc : (u literal).head? = some c) (hne : c ≠ d) : stripPrefix literal (d :: s) = none := by
  obtain ⟨t, ht⟩ := List.head?_eq_some_iff.mp hc
  rw [stripPrefix, ht, if_neg]
  simp [List.isPrefixOf, hne]

theorem takeWhile_digits {digits rest : Str} (hdigits : ∀ c ∈ digits, isDigit c = true)
    (hrest : ∀ c, rest.head? = some c → isDigit c = false) :
    (digits ++ rest).takeWhile isDigit = digits ∧ (digits ++ rest).dropWhile isDigit = rest := by
  rw [List.takeWhile_append_of_pos hdigits, List.dropWhile_append_of_pos hdigits]
  cases rest with
  | nil => simp
  | cons c rest =>
    have hc := hrest c rfl
    simp [hc]

theorem digits_append {digits rest : Str} (hdigits : ∀ c ∈ digits, isDigit c = true)
    (hrest : NumberEnd rest) :
    (digits ++ rest).takeWhile isDigit = digits ∧ (digits ++ rest).dropWhile isDigit = rest :=
  takeWhile_digits hdigits fun c hc => (hrest c hc).1

theorem scanInteger_natRepr (n : Nat) {rest : Str} (hrest : NumberEnd rest) :
    scanInteger (natRepr n ++ rest) = some (natRepr n, rest) := by
  obtain ⟨c, digits, hrepr, hc, hzero, hdigits⟩ := natRepr_eq_cons n
  rcases eq_or_ne n 0 with rfl | hn
  · simp [scanInteger]
  · have hne : c ≠ ch '0' := by
      rintro rfl
      exact hzero hn (by decide)
    obtain ⟨htake, hdrop⟩ := digits_append hdigits hrest
    rw [hrepr, List.cons_append, scanInteger, if_neg hne, if_pos hc, htake, hdrop]

theorem scanNumber_intRepr (n : ℤ) {rest : Str} (hrest : NumberEnd rest) :
    scanNumber (intRepr n ++ rest) = some (intRepr n, [], rest) := by
  have hfraction : scanFraction rest = ([], rest) := by
    unfold scanFraction
    split
    · rename_i c d t
      rw [if_neg (fun h => (hrest c rfl).2.1 h.1)]
    · rfl
  have hexponent : scanExponent rest = ([], rest) := by
    unfold scanExponent
    split
    · rename_i c t
      rw [if_neg (by simpa using (hrest c rfl).2.2)]
    · rfl
  have hsign : scanSign (intRepr n ++ rest) =
      (if n < 0 then [ch '-'] else [], natRepr n.natAbs ++ rest) := by
    unfold intRepr
    split_ifs with hneg
    · simp [scanSign]
    · obtain ⟨c, digits, hrepr, hc, -, -⟩ := natRepr_eq_cons n.natAbs
      rw [hrepr, List.cons_append, scanSign, if_neg (isDigit_ne_minus hc)]
  unfold scanNumber
  rw [hsign]
  dsimp only
  rw [scanInteger_natRepr _ hrest]
  simp only [Option.bind_eq_bind, Option.bind_some, hfraction, hexponent, List.append_nil,
    Option.some.injEq, Prod.mk.injEq, and_true]
  unfold intRepr
  split_ifs <;> rfl

theorem isDigit_ne_of_lower {c d : CodePoint} (hd : isDigit d = true) (hc : isDigit c = false) :
    c ≠ d := by
  rintro rfl
  rw [hd] at hc
  cases hc

theorem intRepr_eq_cons (n : ℤ) : ∃ c rest, intRepr n = c :: rest ∧
    (isDigit c = true ∨ c = ch '-' ∧ ∃ d t, rest = d :: t ∧ isDigit d = true) := by
  obtain ⟨c, digits, hrepr, hc, -, -⟩ := natRepr_eq_cons n.natAbs
  unfold intRepr
  split_ifs with h
  · exact ⟨_, _, rfl, .inr ⟨rfl, c, digits, hrepr, hc⟩⟩
  · exact ⟨c, digits, hrepr, .inl hc⟩

/-- The first characters of a number. -/
def NumberStart (s : Str) : Prop :=
  ∃ c t, s = c :: t ∧ (isDigit c = true ∨ c = ch '-' ∧ ∃ d more, t = d :: more ∧ isDigit d = true)

theorem stripPrefix_number {s : Str} (hs : NumberStart s) (rest : Str) :
    ∀ literal ∈ ["null", "true", "false", "NaN", "Infinity", "-Infinity"],
      stripPrefix literal (s ++ rest) = none := by
  obtain ⟨c, t, rfl, hc⟩ := hs
  rw [List.cons_append]
  rcases hc with hc | ⟨rfl, d, t, rfl, hd⟩
  · have hne : ∀ literal ∈ ["null", "true", "false", "NaN", "Infinity", "-Infinity"],
        (u literal).head?.map isDigit = some false := by decide
    intro literal hmem
    obtain ⟨e, he, hdigit⟩ := Option.map_eq_some_iff.mp (hne literal hmem)
    exact stripPrefix_of_head_ne he (isDigit_ne_of_lower hc hdigit)
  · have hne : ∀ literal ∈ ["null", "true", "false", "NaN", "Infinity"],
        (u literal).head?.map (fun e => decide (e = ch '-')) = some false := by decide
    intro literal hmem
    by_cases hinf : literal = "-Infinity"
    · subst hinf
      have hne : ch 'I' ≠ d := isDigit_ne_of_lower hd (by decide)
      have hfront : ∃ s, u "-Infinity" = ch '-' :: ch 'I' :: s := ⟨u "nfinity", by decide⟩
      obtain ⟨s, hs⟩ := hfront
      rw [stripPrefix, hs, if_neg]
      simp [List.isPrefixOf, hne]
    · obtain ⟨e, he, hminus⟩ := Option.map_eq_some_iff.mp
        (hne literal (by simp at hmem ⊢; tauto))
      exact stripPrefix_of_head_ne he (of_decide_eq_false hminus)

/-- A text that starts as a number is read as one. -/
theorem scanScalar_number (h : Hooks) {s : Str} (hs : NumberStart s) (rest : Str) :
    scanScalar h (s ++ rest) = match scanNumber (s ++ rest) with
      | none => .error .jsonDecodeError
      | some (integer, [], rest) => (h.parseInt integer).map fun v => (v, rest)
      | some (integer, tail, rest) => (h.parseFloat (integer ++ tail)).map fun v => (v, rest) := by
  have hnone := stripPrefix_number hs rest
  unfold scanScalar
  rw [hnone "null" (by simp), hnone "true" (by simp), hnone "false" (by simp)]
  simp only [List.findSome?_cons, hnone "NaN" (by simp), hnone "Infinity" (by simp),
    hnone "-Infinity" (by simp), Option.map_none, List.findSome?_nil] <;> rfl

theorem scanScalar_intRepr (h : Hooks) (n : ℤ) {rest : Str} (hrest : NumberEnd rest) :
    scanScalar h (intRepr n ++ rest) = (h.parseInt (intRepr n)).map fun v => (v, rest) := by
  rw [scanScalar_number h (intRepr_eq_cons n), scanNumber_intRepr n hrest]

theorem scanExponent_text {exponent rest : Str} {value : ℤ}
    (h : exponent = [] ∧ value = 0 ∨ ∃ sign digits, exponent = ch 'e' :: sign :: digits ∧ digits ≠ [] ∧
      (∀ c ∈ digits, isDigit c = true) ∧
        (sign = ch '+' ∧ value = readNat digits ∨ sign = ch '-' ∧ value = -(readNat digits : ℤ)))
    (hrest : NumberEnd rest) : scanExponent (exponent ++ rest) = (exponent, rest) := by
  obtain ⟨rfl, -⟩ | ⟨sign, digits, rfl, hne, hdigits, hsign⟩ := h
  · rw [List.nil_append]
    unfold scanExponent
    split
    · rename_i c t
      rw [if_neg (by simpa using (hrest c rfl).2.2)]
    · rfl
  · have hsigned : sign = ch '+' ∨ sign = ch '-' := hsign.imp And.left And.left
    have htaken : (((sign :: (digits ++ rest)).take 1).filter fun d => decide (d = ch '+' ∨ d = ch '-')) = [sign] := by
      rw [List.take_succ_cons, List.take_zero, List.filter_cons, if_pos (decide_eq_true hsigned), List.filter_nil]
    obtain ⟨htake, hdrop⟩ := digits_append hdigits hrest
    rw [List.cons_append, List.cons_append, scanExponent, if_pos (.inl rfl)]
    dsimp only
    rw [htaken, List.length_singleton, List.drop_succ_cons, List.drop_zero, htake, if_neg hne]
    have hskip : (sign :: (digits ++ rest)).drop (1 + digits.length) = rest := by
      rw [Nat.add_comm, List.drop_succ_cons, List.drop_left]
    rw [hskip]
    rfl

/-- What follows the whole part of a decimal text. -/
theorem exponent_end {text whole fraction exponent : Str} {value : ℤ}
    (h : IsDecimalText text whole fraction exponent value) {rest : Str} (hrest : NumberEnd rest) :
    ∀ c, (exponent ++ rest).head? = some c → isDigit c = false ∧ c ≠ ch '.' := by
  intro c hc
  obtain ⟨rfl, -⟩ | ⟨sign, digits, rfl, -⟩ := h.exponent_eq
  · exact ⟨(hrest c hc).1, (hrest c hc).2.1⟩
  · cases hc
    decide

theorem scanFraction_text {text whole fraction exponent : Str} {value : ℤ}
    (h : IsDecimalText text whole fraction exponent value) {rest : Str} (hrest : NumberEnd rest) :
    scanFraction ((if fraction = [] then [] else ch '.' :: fraction) ++ (exponent ++ rest)) =
      (if fraction = [] then [] else ch '.' :: fraction, exponent ++ rest) := by
  have hend := exponent_end h hrest
  cases fraction with
  | nil =>
    rw [if_pos rfl, List.nil_append]
    generalize exponent ++ rest = more at hend ⊢
    unfold scanFraction
    split
    · rename_i c d t
      rw [if_neg (fun hdot => (hend c rfl).2 hdot.1)]
    · rfl
  | cons d digits =>
    have hd := h.fraction_digits d List.mem_cons_self
    obtain ⟨htake, hdrop⟩ := takeWhile_digits (fun c hc => h.fraction_digits c (List.mem_cons_of_mem _ hc))
      (fun c hc => (hend c hc).1)
    rw [if_neg (List.cons_ne_nil _ _), List.cons_append, List.cons_append, scanFraction, if_pos ⟨rfl, hd⟩, htake, hdrop]

theorem scanInteger_text {text whole fraction exponent : Str} {value : ℤ}
    (h : IsDecimalText text whole fraction exponent value) {rest : Str}
    (hrest : ∀ c, rest.head? = some c → isDigit c = false) :
    scanInteger (whole ++ rest) = some (whole, rest) := by
  obtain rfl | ⟨c, digits, rfl, hc⟩ := h.whole_head
  · rfl
  · obtain ⟨htake, hdrop⟩ := takeWhile_digits (fun d hd => h.whole_digits d (List.mem_cons_of_mem _ hd)) hrest
    rw [List.cons_append, scanInteger, if_neg hc, if_pos (h.whole_digits c List.mem_cons_self), htake, hdrop]

theorem scanNumber_text {text whole fraction exponent : Str} {value : ℤ}
    (h : IsDecimalText text whole fraction exponent value) {rest : Str} (hrest : NumberEnd rest) (negative : Bool) :
    scanNumber ((if negative then ch '-' :: text else text) ++ rest) =
      some ((if negative then [ch '-'] else []) ++ whole,
        (if fraction = [] then [] else ch '.' :: fraction) ++ exponent, rest) := by
  have hafter : ∀ c, ((if fraction = [] then [] else ch '.' :: fraction) ++ (exponent ++ rest)).head? = some c →
      isDigit c = false := by
    intro c hc
    split at hc
    · exact (exponent_end h hrest c hc).1
    · cases hc
      decide
  have hsign : scanSign ((if negative then ch '-' :: text else text) ++ rest) =
      (if negative then [ch '-'] else [], text ++ rest) := by
    obtain ⟨c, t, hcons, hc⟩ := h.whole_cons
    cases negative with
    | true => rfl
    | false =>
      rw [if_neg Bool.false_ne_true, if_neg Bool.false_ne_true, h.text_eq, hcons, List.cons_append, List.cons_append,
        scanSign, if_neg (isDigit_ne_minus hc)]
  unfold scanNumber
  rw [hsign]
  dsimp only
  rw [h.text_eq, List.append_assoc, List.append_assoc, scanInteger_text h hafter]
  simp only [Option.bind_eq_bind, Option.bind_some, scanFraction_text h hrest, scanExponent_text h.exponent_eq hrest]

theorem floatRepr_start {x : PyFloat} (hx : x.isFinite = true) : NumberStart (floatRepr x) := by
  obtain ⟨text, whole, fraction, exponent, value, htext, hrepr, -⟩ := floatRepr_text hx
  obtain ⟨c, t, hcons, hc⟩ := htext.whole_cons
  have hstart : ∃ more, text = c :: more := ⟨_, by rw [htext.text_eq, hcons, List.cons_append]⟩
  obtain ⟨more, rfl⟩ := hstart
  obtain hrepr | hrepr := hrepr
  · exact ⟨c, more, hrepr, .inl hc⟩
  · exact ⟨ch '-', c :: more, hrepr, .inr ⟨rfl, c, more, rfl, hc⟩⟩

theorem scanScalar_floatRepr (h : Hooks) {x : PyFloat} (hx : x.isFinite = true) {rest : Str} (hrest : NumberEnd rest) :
    scanScalar h (floatRepr x ++ rest) = (h.parseFloat (floatRepr x)).map fun v => (v, rest) := by
  obtain ⟨text, whole, fraction, exponent, value, htext, hrepr, -⟩ := floatRepr_text hx
  have hsigned : ∃ negative : Bool, floatRepr x = if negative then ch '-' :: text else text := by
    obtain hrepr | hrepr := hrepr
    · exact ⟨false, hrepr⟩
    · exact ⟨true, hrepr⟩
  obtain ⟨negative, hsigned⟩ := hsigned
  have hjoin : (if negative then [ch '-'] else []) ++ whole ++
      ((if fraction = [] then [] else ch '.' :: fraction) ++ exponent) = floatRepr x := by
    rw [hsigned, htext.text_eq]
    cases negative
    · rfl
    · rfl
  have htail : (if fraction = [] then [] else ch '.' :: fraction) ++ exponent ≠ [] := by
    obtain hne | hne := htext.not_integer
    · rw [if_neg hne]
      exact List.cons_ne_nil _ _
    · exact List.append_ne_nil_of_right_ne_nil _ hne
  rw [scanScalar_number h (floatRepr_start hx)]
  rw [hsigned, scanNumber_text htext hrest negative, ← hsigned, ← hjoin]
  generalize (if fraction = [] then [] else ch '.' :: fraction) ++ exponent = tail at htail ⊢
  cases tail with
  | nil => exact absurd rfl htail
  | cons c tail => rfl

theorem scanScalar_null (h : Hooks) (rest : Str) :
    scanScalar h (u "null" ++ rest) = .ok (.null, rest) := by
  rw [scanScalar, stripPrefix_append]

theorem scanScalar_bool (h : Hooks) (b : Bool) (rest : Str) :
    scanScalar h ((if b then u "true" else u "false") ++ rest) = .ok (.bool b, rest) := by
  have htrue : ∃ t, u "true" = ch 't' :: t := ⟨u "rue", by decide⟩
  have hfalse : ∃ t, u "false" = ch 'f' :: t := ⟨u "alse", by decide⟩
  have hnull : (u "null").head? = some (ch 'n') := by decide
  cases b with
  | true =>
    have hhead : stripPrefix "null" (u "true" ++ rest) = none := by
      obtain ⟨t, ht⟩ := htrue
      rw [ht, List.cons_append]
      exact stripPrefix_of_head_ne hnull (by decide)
    rw [if_pos rfl, scanScalar, hhead, stripPrefix_append]
  | false =>
    have hhead : stripPrefix "null" (u "false" ++ rest) = none ∧
        stripPrefix "true" (u "false" ++ rest) = none := by
      obtain ⟨t, ht⟩ := hfalse
      rw [ht, List.cons_append]
      exact ⟨stripPrefix_of_head_ne hnull (by decide),
        stripPrefix_of_head_ne (c := ch 't') (by decide) (by decide)⟩
    rw [if_neg Bool.false_ne_true, scanScalar, hhead.1, hhead.2, stripPrefix_append]

/-! ## Values -/

/-- What the hooks and the style must accept at one node. -/
def AdmitsNode (h : Hooks) (st : Style) : Json → Prop
  | .int n => h.parseInt (intRepr n) = .ok (.int n)
  | .float x => x.isFinite = true ∧ h.parseFloat (floatRepr x) = .ok (.float x)
  | .str s => Escapable st s
  | .obj fields => h.objectPairs fields = .ok (.obj fields)
  | _ => True

def Admits (h : Hooks) (st : Style) (v : Json) : Prop := ∀ w ∈ v.walk, AdmitsNode h st w

theorem Admits.node {h : Hooks} {st : Style} {v : Json} (hv : Admits h st v) : AdmitsNode h st v :=
  hv v v.mem_walk_self

theorem Admits.item {h : Hooks} {st : Style} {items : List Json} (hv : Admits h st (.arr items))
    {v : Json} (hmem : v ∈ items) : Admits h st v := fun w hw =>
  hv w (List.mem_cons_of_mem _ (Json.mem_walkItems.mpr ⟨v, hmem, hw⟩))

theorem Admits.field {h : Hooks} {st : Style} {fields : Dict} (hv : Admits h st (.obj fields))
    {kv : Str × Json} (hmem : kv ∈ fields) : Escapable st kv.1 ∧ Admits h st kv.2 :=
  ⟨hv (.str kv.1) (List.mem_cons_of_mem _ (Json.mem_walkFields.mpr ⟨kv, hmem, .inl rfl⟩)),
    fun w hw => hv w (List.mem_cons_of_mem _ (Json.mem_walkFields.mpr ⟨kv, hmem, .inr hw⟩))⟩

theorem skipSpace_cons {c : CodePoint} (hc : isSpace c = false) (s : Str) :
    skipSpace (c :: s) = c :: s := by
  simp [skipSpace, hc]

theorem skipSpace_space {c : CodePoint} (hc : isSpace c = true) (s : Str) :
    skipSpace (c :: s) = skipSpace s := by
  simp [skipSpace, hc]

theorem skipSpace_newline (st : Style) (level : Nat) (s : Str) :
    skipSpace (st.newline level ++ s) = skipSpace s := by
  unfold Style.newline
  split
  · rfl
  · rw [List.cons_append, skipSpace_space (by decide)]
    generalize _ * level = n
    induction n with
    | zero => rfl
    | succ n ih => rw [List.replicate_succ, List.cons_append, skipSpace_space (by decide), ih]

theorem skipSpace_pad (b : Bool) (s : Str) :
    skipSpace ((if b then [ch ' '] else []) ++ s) = skipSpace s := by
  cases b
  · rfl
  · exact skipSpace_space (by decide) s

theorem isDigit_not_space {c : CodePoint} (h : isDigit c = true) :
    isSpace c = false ∧ c ≠ ch ']' ∧ c.val < 128 := by
  refine ⟨?_, ?_, ?_⟩
  · simp only [isDigit, Bool.and_eq_true, decide_eq_true_eq] at h
    simp only [isSpace, Bool.or_eq_false_iff, decide_eq_false_iff_not]
    omega
  · rintro rfl
    revert h
    decide
  · simp only [isDigit, Bool.and_eq_true, decide_eq_true_eq] at h
    omega

theorem NumberStart.head {s : Str} (hs : NumberStart s) :
    ∃ c t, s = c :: t ∧ isSpace c = false ∧ c ≠ ch ']' ∧ c.val < 128 := by
  obtain ⟨c, t, hrepr, hc⟩ := hs
  refine ⟨c, t, hrepr, ?_⟩
  rcases hc with hc | ⟨rfl, -⟩
  · exact isDigit_not_space hc
  · decide

theorem jsonFloat_finite {x : PyFloat} (hx : x.isFinite = true) : jsonFloat x = floatRepr x := by
  cases x with
  | finite x => rfl
  | negZero => rfl
  | inf negative => cases hx
  | nan => cases hx

/-- Every value starts with an ASCII character, not white space or a closing bracket. -/
theorem render_eq_cons (st : Style) (level : Nat) (v : Json) :
    ∃ c t, render st level v = c :: t ∧ isSpace c = false ∧ c ≠ ch ']' ∧ c.val < 128 := by
  cases v with
  | null => exact ⟨ch 'n', u "ull", by rw [render]; decide, by decide, by decide⟩
  | bool b =>
    cases b
    · exact ⟨ch 'f', u "alse", by rw [render]; decide, by decide, by decide⟩
    · exact ⟨ch 't', u "rue", by rw [render]; decide, by decide, by decide⟩
  | int n =>
    rw [render]
    exact NumberStart.head (intRepr_eq_cons n)
  | float x =>
    rw [render]
    cases hx : x.isFinite with
    | true =>
      rw [jsonFloat_finite hx]
      exact (floatRepr_start hx).head
    | false =>
      cases x with
      | finite x => cases hx
      | negZero => cases hx
      | inf negative =>
        cases negative
        · exact ⟨ch 'I', u "nfinity", by decide, by decide, by decide⟩
        · exact ⟨ch '-', u "Infinity", by decide, by decide, by decide⟩
      | nan => exact ⟨ch 'N', u "aN", by decide, by decide, by decide⟩
  | str s => exact ⟨ch '"', _, by rw [render, quote], by decide, by decide⟩
  | arr items =>
    cases items with
    | nil => exact ⟨ch '[', u "]", by rw [render]; decide, by decide, by decide⟩
    | cons v rest => exact ⟨ch '[', _, by rw [render], by decide, by decide⟩
  | obj fields =>
    cases fields with
    | nil => exact ⟨ch '\x7b', u "\x7d", by rw [render]; decide, by decide, by decide⟩
    | cons kv rest => exact ⟨ch '\x7b', _, by rw [render], by decide, by decide⟩

theorem skipSpace_render {st : Style} {level : Nat} {v : Json} (s : Str) :
    skipSpace (render st level v ++ s) = render st level v ++ s := by
  obtain ⟨c, t, ht, hc, -, -⟩ := render_eq_cons st level v
  rw [ht, List.cons_append, skipSpace_cons hc]

theorem numberEnd_cons {c : CodePoint} {s : Str}
    (hc : c = ch ',' ∨ c = ch ']' ∨ c = ch '\x7d' ∨ c = ch '\n') : NumberEnd (c :: s) := by
  intro d hd
  cases hd
  rcases hc with rfl | rfl | rfl | rfl <;> decide

theorem numberEnd_newline (st : Style) (level : Nat) {c : CodePoint} {s : Str}
    (hc : c = ch ']' ∨ c = ch '\x7d') : NumberEnd (st.newline level ++ (c :: s)) := by
  unfold Style.newline
  split
  · exact numberEnd_cons (by tauto)
  · exact numberEnd_cons (by tauto)

theorem scanString_quote {st : Style} {s : Str} (hs : Escapable st s) (fuel : Nat) (rest : Str)
    (hfuel : (quote st s ++ rest).length ≤ fuel) :
    scanString fuel ((quote st s).tail ++ rest) = .ok (s, rest) := by
  have hlen : s.length ≤ (s.flatMap (escapeChar st)).length := by
    clear hs hfuel
    induction s with
    | nil => exact Nat.zero_le _
    | cons c s ih =>
      have hpos : 1 ≤ (escapeChar st c).length := by
        unfold escapeChar
        split
        · simp
        · split_ifs <;> simp [escapeCode]
      rw [List.flatMap_cons, List.length_append, List.length_cons]
      omega
  rw [quote, List.tail_cons, List.append_assoc, List.singleton_append]
  apply scanString_escaped hs
  simp only [quote, List.length_cons, List.length_append, List.cons_append, List.length_nil] at hfuel
  omega

/-- Reading back one value leaves exactly the text after it. -/
def Reads (h : Hooks) (st : Style) (v : Json) : Prop :=
  ∀ {level depth fuel : Nat} {rest : Str}, Admits h st v → v.depth ≤ depth → NumberEnd rest →
    2 * (render st level v ++ rest).length < fuel →
    scanValue h fuel depth (render st level v ++ rest) = .ok (v, rest)

theorem renderItems_numberEnd (st : Style) (level level' : Nat) (items : List Json) (rest : Str) :
    NumberEnd (renderItems st level items ++ (st.newline level' ++ ch ']' :: rest)) := by
  cases items with
  | nil => exact numberEnd_newline st level' (.inl rfl)
  | cons v items =>
    rw [renderItems, Style.itemSep]
    exact numberEnd_cons (.inl rfl)

theorem scanItems_render {h : Hooks} {st : Style} {items : List Json} {level level' depth fuel : Nat}
    {start : Bool} {v : Json} {rest : Str} (hread : ∀ w ∈ v :: items, Reads h st w)
    (hadmits : ∀ w ∈ v :: items, Admits h st w) (hdepth : ∀ w ∈ v :: items, w.depth ≤ depth)
    (hfuel : 2 * (render st level v ++ (renderItems st level items ++
      (st.newline level' ++ ch ']' :: rest))).length + 1 < fuel) :
    scanItems h fuel depth start (render st level v ++ (renderItems st level items ++
      (st.newline level' ++ ch ']' :: rest))) = .ok (v :: items, rest) := by
  induction items generalizing v start fuel with
  | nil =>
    obtain ⟨fuel, rfl⟩ := Nat.exists_eq_succ_of_ne_zero (show fuel ≠ 0 by omega)
    obtain ⟨c, t, ht, -, hc, -⟩ := render_eq_cons st level v
    have hvalue := hread v (by simp) (hadmits v (by simp)) (hdepth v (by simp))
      (renderItems_numberEnd st level level' [] rest) (Nat.lt_of_succ_lt_succ hfuel)
    rw [scanItems, hvalue, if_neg (by rw [ht]; simp [hc])]
    simp only [bind, Except.bind, renderItems, List.nil_append, skipSpace_newline]
    rw [skipSpace_cons (by decide)]
    rfl
  | cons w items ih =>
    obtain ⟨fuel, rfl⟩ := Nat.exists_eq_succ_of_ne_zero (show fuel ≠ 0 by omega)
    obtain ⟨c, t, ht, -, hc, -⟩ := render_eq_cons st level v
    have hvalue := hread v (by simp) (hadmits v (by simp)) (hdepth v (by simp))
      (renderItems_numberEnd st level level' (w :: items) rest) (Nat.lt_of_succ_lt_succ hfuel)
    have hrest : scanItems h fuel depth false (render st level w ++ (renderItems st level items ++
        (st.newline level' ++ ch ']' :: rest))) = .ok (w :: items, rest) := ih
      (fun x hx => hread x (List.mem_cons_of_mem _ hx))
      (fun x hx => hadmits x (List.mem_cons_of_mem _ hx))
      (fun x hx => hdepth x (List.mem_cons_of_mem _ hx)) (by
        rw [renderItems, Style.itemSep] at hfuel
        simp only [List.length_append, List.length_cons] at hfuel ⊢
        omega)
    rw [scanItems, hvalue, if_neg (by rw [ht]; simp [hc])]
    simp only [bind, Except.bind, renderItems, Style.itemSep, List.cons_append, List.append_assoc]
    rw [skipSpace_cons (by decide)]
    dsimp only
    rw [if_neg (by decide), if_pos rfl, skipSpace_pad, skipSpace_newline,
      skipSpace_render, hrest]

theorem renderFields_numberEnd (st : Style) (level level' : Nat) (fields : Dict) (rest : Str) :
    NumberEnd (renderFields st level fields ++ (st.newline level' ++ ch '\x7d' :: rest)) := by
  cases fields with
  | nil => exact numberEnd_newline st level' (.inr rfl)
  | cons kv fields =>
    rw [renderFields, Style.itemSep]
    exact numberEnd_cons (.inl rfl)

theorem scanMembers_render {h : Hooks} {st : Style} {fields : Dict} {level level' depth fuel : Nat}
    {start : Bool} {key : Str} {v : Json} {rest : Str}
    (hread : ∀ kv ∈ (key, v) :: fields, Reads h st kv.2)
    (hadmits : ∀ kv ∈ (key, v) :: fields, Escapable st kv.1 ∧ Admits h st kv.2)
    (hdepth : ∀ kv ∈ (key, v) :: fields, kv.2.depth ≤ depth)
    (hfuel : 2 * (quote st key ++ (st.keySep ++ (render st level v ++ (renderFields st level fields ++
      (st.newline level' ++ ch '\x7d' :: rest))))).length + 1 < fuel) :
    scanMembers h fuel depth start (quote st key ++ (st.keySep ++ (render st level v ++
      (renderFields st level fields ++ (st.newline level' ++ ch '\x7d' :: rest))))) =
      .ok ((key, v) :: fields, rest) := by
  induction fields generalizing key v start fuel with
  | nil =>
    obtain ⟨fuel, rfl⟩ := Nat.exists_eq_succ_of_ne_zero (show fuel ≠ 0 by omega)
    have hv : Escapable st key ∧ Admits h st v := hadmits (key, v) (by simp)
    have hkey := scanString_quote hv.1 fuel (st.keySep ++ (render st level v ++
      (renderFields st level [] ++ (st.newline level' ++ ch '\x7d' :: rest)))) (by omega)
    have hvalue : scanValue h fuel depth (render st level v ++ (renderFields st level [] ++
        (st.newline level' ++ ch '\x7d' :: rest))) = .ok (v, _) := hread (key, v) (by simp) hv.2
      (hdepth (key, v) (by simp)) (renderFields_numberEnd st level level' [] rest) (by
        simp only [List.length_append, List.length_cons] at hfuel ⊢
        omega)
    rw [quote, List.cons_append, scanMembers, if_neg (fun hc => absurd hc.2 (by decide)),
      if_pos rfl]
    rw [quote, List.tail_cons] at hkey
    rw [hkey]
    simp only [bind, Except.bind, Style.keySep, List.cons_append]
    rw [skipSpace_cons (by decide)]
    dsimp only
    rw [if_pos rfl, skipSpace_pad, skipSpace_render, hvalue]
    simp only [renderFields, List.nil_append, skipSpace_newline]
    rw [skipSpace_cons (by decide)]
    rfl
  | cons kw fields ih =>
    obtain ⟨key', w⟩ := kw
    obtain ⟨fuel, rfl⟩ := Nat.exists_eq_succ_of_ne_zero (show fuel ≠ 0 by omega)
    have hv : Escapable st key ∧ Admits h st v := hadmits (key, v) (by simp)
    have hkey := scanString_quote hv.1 fuel (st.keySep ++ (render st level v ++
      (renderFields st level ((key', w) :: fields) ++ (st.newline level' ++ ch '\x7d' :: rest))))
      (by omega)
    have hvalue : scanValue h fuel depth (render st level v ++ (renderFields st level
        ((key', w) :: fields) ++ (st.newline level' ++ ch '\x7d' :: rest))) = .ok (v, _) :=
      hread (key, v) (by simp) hv.2 (hdepth (key, v) (by simp))
      (renderFields_numberEnd st level level' ((key', w) :: fields) rest)
      (by
        simp only [List.length_append, List.length_cons] at hfuel ⊢
        omega)
    have hrest : scanMembers h fuel depth false (quote st key' ++ (st.keySep ++ (render st level w ++
        (renderFields st level fields ++ (st.newline level' ++ ch '\x7d' :: rest))))) =
        .ok ((key', w) :: fields, rest) := ih
      (fun x hx => hread x (List.mem_cons_of_mem _ hx))
      (fun x hx => hadmits x (List.mem_cons_of_mem _ hx))
      (fun x hx => hdepth x (List.mem_cons_of_mem _ hx)) (by
        rw [renderFields, Style.itemSep] at hfuel
        simp only [List.length_append, List.length_cons] at hfuel ⊢
        omega)
    rw [quote, List.cons_append, scanMembers, if_neg (fun hc => absurd hc.2 (by decide)),
      if_pos rfl]
    rw [quote, List.tail_cons] at hkey
    rw [hkey]
    simp only [bind, Except.bind, Style.keySep, List.cons_append]
    rw [skipSpace_cons (by decide)]
    dsimp only
    rw [if_pos rfl, skipSpace_pad, skipSpace_render, hvalue]
    simp only [renderFields, Style.itemSep, List.cons_append, List.append_assoc]
    rw [skipSpace_cons (by decide)]
    dsimp only
    have hquote : ∀ s, skipSpace (quote st key' ++ s) = quote st key' ++ s := fun s =>
      skipSpace_cons (by decide) _
    rw [if_neg (by decide), if_pos rfl, skipSpace_pad, skipSpace_newline, hquote]
    rw [hrest]

theorem scanValue_scalar {h : Hooks} {depth fuel : Nat} {c : CodePoint} {s : Str}
    (hc : c ≠ ch '"' ∧ c ≠ ch '\x7b' ∧ c ≠ ch '[') :
    scanValue h (fuel + 1) depth (c :: s) = scanScalar h (c :: s) := by
  rw [scanValue_cons, if_neg hc.1, if_neg hc.2.1, if_neg hc.2.2]

theorem scanValue_number (h : Hooks) {s : Str} (hs : NumberStart s) (depth fuel : Nat) (rest : Str) :
    scanValue h (fuel + 1) depth (s ++ rest) = scanScalar h (s ++ rest) := by
  obtain ⟨c, t, rfl, hc⟩ := hs
  rw [List.cons_append]
  apply scanValue_scalar
  rcases hc with hc | ⟨rfl, -⟩
  · exact ⟨(isDigit_ne_of_lower hc (by decide)).symm,
      (isDigit_ne_of_lower hc (by decide)).symm,
      (isDigit_ne_of_lower hc (by decide)).symm⟩
  · decide

theorem scanValue_render (h : Hooks) (st : Style) (v : Json) : Reads h st v := by
  induction v using Json.induct with
  | null =>
    intro level depth fuel rest _ _ _ hfuel
    obtain ⟨fuel, rfl⟩ := Nat.exists_eq_succ_of_ne_zero (show fuel ≠ 0 by omega)
    have hhead : u "null" = ch 'n' :: u "ull" := by decide
    rw [render, hhead, List.cons_append, scanValue_scalar (by decide), ← List.cons_append,
      ← hhead, scanScalar_null]
  | bool b =>
    intro level depth fuel rest _ _ _ hfuel
    obtain ⟨fuel, rfl⟩ := Nat.exists_eq_succ_of_ne_zero (show fuel ≠ 0 by omega)
    have hhead : ∃ c t, (if b then u "true" else u "false") = c :: t ∧
        (c ≠ ch '"' ∧ c ≠ ch '\x7b' ∧ c ≠ ch '[') := by
      cases b
      · exact ⟨ch 'f', u "alse", by decide, by decide⟩
      · exact ⟨ch 't', u "rue", by decide, by decide⟩
    obtain ⟨c, t, hct, hc⟩ := hhead
    rw [render, hct, List.cons_append, scanValue_scalar hc, ← List.cons_append, ← hct,
      scanScalar_bool]
  | int n =>
    intro level depth fuel rest hadmits _ hrest hfuel
    obtain ⟨fuel, rfl⟩ := Nat.exists_eq_succ_of_ne_zero (show fuel ≠ 0 by omega)
    have hparse : h.parseInt (intRepr n) = .ok (.int n) := hadmits.node
    rw [render, scanValue_number h (intRepr_eq_cons n), scanScalar_intRepr h n hrest, hparse]
    rfl
  | float x =>
    intro level depth fuel rest hadmits _ hrest hfuel
    obtain ⟨fuel, rfl⟩ := Nat.exists_eq_succ_of_ne_zero (show fuel ≠ 0 by omega)
    obtain ⟨hfinite, hparse⟩ : x.isFinite = true ∧ h.parseFloat (floatRepr x) = .ok (.float x) := hadmits.node
    rw [render, jsonFloat_finite hfinite, scanValue_number h (floatRepr_start hfinite),
      scanScalar_floatRepr h hfinite hrest, hparse]
    rfl
  | str s =>
    intro level depth fuel rest hadmits _ _ hfuel
    obtain ⟨fuel, rfl⟩ := Nat.exists_eq_succ_of_ne_zero (show fuel ≠ 0 by omega)
    rw [render] at hfuel
    have hs : Escapable st s := hadmits.node
    have hscan := scanString_quote hs fuel rest (by omega)
    rw [quote, List.tail_cons] at hscan
    rw [render, quote, List.cons_append, scanValue_cons, if_pos rfl, hscan]
    rfl
  | arr items ih =>
    intro level depth fuel rest hadmits hdepth _ hfuel
    obtain ⟨fuel, rfl⟩ := Nat.exists_eq_succ_of_ne_zero (show fuel ≠ 0 by omega)
    rw [Json.depth] at hdepth
    obtain ⟨depth, rfl⟩ := Nat.exists_eq_succ_of_ne_zero (show depth ≠ 0 by omega)
    have hbracket : ch '[' ≠ ch '"' ∧ ch '[' ≠ ch '\x7b' := by decide
    cases items with
    | nil =>
      have htext : u "[]" = [ch '[', ch ']'] := by decide
      rw [render, htext] at hfuel ⊢
      simp only [List.cons_append, List.nil_append, List.length_cons] at hfuel ⊢
      obtain ⟨fuel, rfl⟩ := Nat.exists_eq_succ_of_ne_zero (show fuel ≠ 0 by omega)
      rw [scanValue_cons, if_neg hbracket.1, if_neg hbracket.2, if_pos rfl]
      dsimp only
      rw [skipSpace_cons (by decide), scanItems, if_pos ⟨rfl, rfl⟩]
      rfl
    | cons v items =>
      rw [render] at hfuel ⊢
      simp only [List.cons_append, List.append_assoc, List.nil_append, List.length_cons,
        List.length_append] at hfuel ⊢
      have hscan : scanItems h fuel depth true (render st (level + 1) v ++
          (renderItems st (level + 1) items ++ (st.newline level ++ ch ']' :: rest))) =
          .ok (v :: items, rest) := scanItems_render ih (fun w hw => hadmits.item hw)
        (fun w hw => (Json.depth_le_items hw).trans (by omega)) (by
          simp only [List.length_append, List.length_cons]
          omega)
      rw [scanValue_cons, if_neg hbracket.1, if_neg hbracket.2, if_pos rfl]
      dsimp only
      rw [skipSpace_newline, skipSpace_render, hscan]
      rfl
  | obj fields ih =>
    intro level depth fuel rest hadmits hdepth _ hfuel
    obtain ⟨fuel, rfl⟩ := Nat.exists_eq_succ_of_ne_zero (show fuel ≠ 0 by omega)
    rw [Json.depth] at hdepth
    obtain ⟨depth, rfl⟩ := Nat.exists_eq_succ_of_ne_zero (show depth ≠ 0 by omega)
    have hpairs : h.objectPairs fields = .ok (.obj fields) := hadmits.node
    have hbrace : ch '\x7b' ≠ ch '"' := by decide
    cases fields with
    | nil =>
      have htext : u "\x7b\x7d" = [ch '\x7b', ch '\x7d'] := by decide
      rw [render, htext] at hfuel ⊢
      simp only [List.cons_append, List.nil_append, List.length_cons] at hfuel ⊢
      obtain ⟨fuel, rfl⟩ := Nat.exists_eq_succ_of_ne_zero (show fuel ≠ 0 by omega)
      rw [scanValue_cons, if_neg hbrace, if_pos rfl]
      dsimp only
      rw [skipSpace_cons (by decide), scanMembers, if_pos ⟨rfl, rfl⟩]
      simp only [bind, Except.bind]
      rw [hpairs]
    | cons kv fields =>
      obtain ⟨key, v⟩ := kv
      rw [render] at hfuel ⊢
      simp only [List.cons_append, List.append_assoc, List.nil_append, List.length_cons,
        List.length_append] at hfuel ⊢
      have hscan : scanMembers h fuel depth true (quote st key ++ (st.keySep ++
          (render st (level + 1) v ++ (renderFields st (level + 1) fields ++
          (st.newline level ++ ch '\x7d' :: rest))))) = .ok ((key, v) :: fields, rest) :=
        scanMembers_render ih (fun w hw => hadmits.field hw)
        (fun w hw => (Json.depth_le_fields hw).trans (by omega)) (by
          simp only [List.length_append, List.length_cons]
          omega)
      have hquote : ∀ s, skipSpace (quote st key ++ s) = quote st key ++ s := fun s =>
        skipSpace_cons (by decide) _
      rw [scanValue_cons, if_neg hbrace, if_pos rfl]
      dsimp only
      rw [skipSpace_newline, hquote, hscan]
      simp only [bind, Except.bind]
      rw [hpairs]

/-- `json.loads(json.dumps(v)) == v`, with the keys as the style arranged them; white space may
follow. -/
theorem loads_dumps {h : Hooks} {st : Style} {v : Json} {limit : Nat} {space : Str}
    (hadmits : Admits h st (st.arrange v)) (hdepth : (st.arrange v).depth ≤ limit)
    (hspace : ∀ c ∈ space, isSpace c = true) :
    loads h limit (dumps st v ++ space) = .ok (st.arrange v) := by
  have hend : NumberEnd space := by
    intro c hc
    have hsp := hspace c (List.mem_of_mem_head? hc)
    refine ⟨?_, ?_, ?_, ?_⟩
    · cases hdigit : isDigit c with
      | false => rfl
      | true => rw [(isDigit_not_space hdigit).1] at hsp; cases hsp
    all_goals
      rintro rfl
      revert hsp
      decide
  have hempty : skipSpace space = [] := by
    rw [skipSpace, List.dropWhile_eq_nil_iff]
    exact hspace
  have hscan : scanValue h (2 * (dumps st v ++ space).length + 1) limit
      (render st 0 (st.arrange v) ++ space) = .ok (st.arrange v, space) :=
    scanValue_render h st (st.arrange v) hadmits hdepth hend (by
      rw [dumps]
      omega)
  obtain ⟨c, t, ht, -, -, hascii⟩ := render_eq_cons st 0 (st.arrange v)
  have hbom : (dumps st v ++ space).head? ≠ some (codePoint 0xFEFF) := by
    rw [dumps, ht, List.cons_append, List.head?_cons]
    intro heq
    rw [Option.some.inj heq] at hascii
    revert hascii
    decide
  have hskip : skipSpace (render st 0 (st.arrange v) ++ space) = render st 0 (st.arrange v) ++ space :=
    skipSpace_render space
  rw [← dumps] at hskip hscan
  rw [loads, if_neg hbom, hskip, hscan]
  simp only [bind, Except.bind, hempty, if_true]

end Python
