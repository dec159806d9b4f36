import McpTrust.Python.Json
import McpTrust.Python.JsonDecode

/-! # `json.dumps`

`Style` holds the keyword arguments of `dumps`. A value is written after its keys
are put in order when the style asks for it.
-/

namespace Python

set_option autoImplicit false

structure Style where
  ensureAscii : Bool
  indent : Option Nat
  itemPad : Bool
  keyPad : Bool
  sortKeys : Bool

/-! ## Strings -/

def escapeCode (n : Nat) : Str :=
  [ch '\\', ch 'u', hexChar (n / 4096), hexChar (n / 256), hexChar (n / 16), hexChar n]

def shortEscape (c : CodePoint) : Option CodePoint :=
  if c = ch '"' then some (ch '"')
  else if c = ch '\\' then some (ch '\\')
  else if c.val = 8 then some (ch 'b')
  else if c.val = 9 then some (ch 't')
  else if c.val = 10 then some (ch 'n')
  else if c.val = 12 then some (ch 'f')
  else if c.val = 13 then some (ch 'r')
  else none

/-- An astral character is two escapes when the output is ASCII. -/
def escapeChar (st : Style) (c : CodePoint) : Str :=
  match shortEscape c with
  | some e => [ch '\\', e]
  | none =>
    if c.val < 32 then escapeCode c.val
    else if st.ensureAscii = false ∨ c.val < 127 then [c]
    else if c.val < 0x10000 then escapeCode c.val
    else escapeCode (0xD800 + (c.val - 0x10000) / 0x400) ++
      escapeCode (0xDC00 + (c.val - 0x10000) % 0x400)

def quote (st : Style) (s : Str) : Str := ch '"' :: (s.flatMap (escapeChar st) ++ [ch '"'])

/-! ## Values -/

def jsonFloat : PyFloat → Str
  | .inf negative => if negative then u "-Infinity" else u "Infinity"
  | .nan => u "NaN"
  | x => floatRepr x

namespace Style

def newline (st : Style) (level : Nat) : Str :=
  match st.indent with
  | none => []
  | some k => ch '\n' :: List.replicate (k * level) (ch ' ')

def itemSep (st : Style) (level : Nat) : Str :=
  ch ',' :: ((if st.itemPad then [ch ' '] else []) ++ newline st level)

def keySep (st : Style) : Str := ch ':' :: (if st.keyPad then [ch ' '] else [])

end Style

mutual
def render (st : Style) (level : Nat) : Json → Str
  | .null => u "null"
  | .bool b => if b then u "true" else u "false"
  | .int n => intRepr n
  | .float x => jsonFloat x
  | .str s => quote st s
  | .arr [] => u "[]"
  | .arr (v :: rest) =>
    ch '[' :: (st.newline (level + 1) ++ (render st (level + 1) v ++
      (renderItems st (level + 1) rest ++ (st.newline level ++ [ch ']']))))
  | .obj [] => u "\x7b\x7d"
  | .obj ((key, v) :: rest) =>
    ch '\x7b' :: (st.newline (level + 1) ++ (quote st key ++ (st.keySep ++ (render st (level + 1) v ++
      (renderFields st (level + 1) rest ++ (st.newline level ++ [ch '\x7d']))))))

def renderItems (st : Style) (level : Nat) : List Json → Str
  | [] => []
  | v :: rest => st.itemSep level ++ (render st level v ++ renderItems st level rest)

def renderFields (st : Style) (level : Nat) : List (Str × Json) → Str
  | [] => []
  | (key, v) :: rest =>
    st.itemSep level ++ (quote st key ++ (st.keySep ++ (render st level v ++
      renderFields st level rest)))
end

/-- The value as written: its keys sorted if the style says so. -/
def Style.arrange (st : Style) (v : Json) : Json := if st.sortKeys then v.sortKeys else v

/-- `json.dumps(v)`. -/
def dumps (st : Style) (v : Json) : Str := render st 0 (st.arrange v)

/-! ## The characters of the output -/

def Ascii (s : Str) : Prop := ∀ c ∈ s, c.val < 128

instance (s : Str) : Decidable (Ascii s) :=
  decidable_of_iff (s.all (fun c => decide (c.val < 128)) = true) (by simp [Ascii])

theorem Ascii.append {s t : Str} (hs : Ascii s) (ht : Ascii t) : Ascii (s ++ t) := by
  intro c hc
  rcases List.mem_append.mp hc with hc | hc
  · exact hs c hc
  · exact ht c hc

theorem Ascii.cons {c : CodePoint} {s : Str} (hc : c.val < 128) (hs : Ascii s) : Ascii (c :: s) := by
  intro d hd
  rcases List.mem_cons.mp hd with rfl | hd
  · exact hc
  · exact hs d hd

theorem ascii_nil : Ascii [] := by
  intro c hc
  cases hc

theorem ascii_of_digits {s : Str} (h : ∀ c ∈ s, isDigit c = true) : Ascii s := by
  intro c hc
  have hdigit := h c hc
  simp only [isDigit, Bool.and_eq_true, decide_eq_true_eq] at hdigit
  omega

theorem ascii_natRepr (n : Nat) : Ascii (natRepr n) := ascii_of_digits (natRepr_digits n)

theorem ascii_zeros (n : Nat) : Ascii (zeros n) := by
  intro c hc
  rw [List.eq_of_mem_replicate hc]
  decide

theorem ascii_intRepr (n : ℤ) : Ascii (intRepr n) := by
  unfold intRepr
  split
  · exact (ascii_natRepr _).cons (by decide)
  · exact ascii_natRepr _

theorem Ascii.sub {s t : Str} (hs : Ascii s) (h : ∀ c ∈ t, c ∈ s) : Ascii t := fun c hc => hs c (h c hc)

theorem ascii_shortestDigits (x : ℚ) : Ascii (shortestDigits x).1 := by
  unfold shortestDigits
  dsimp only
  split
  · rename_i n k _
    refine (ascii_natRepr n).sub fun c hc => ?_
    exact List.mem_reverse.mp ((List.dropWhile_suffix _).subset (List.mem_reverse.mp hc))
  · exact ascii_natRepr _

theorem ascii_positiveRepr (x : ℚ) : Ascii (positiveRepr x) := by
  have hdigits := ascii_shortestDigits x
  have htake : ∀ n, Ascii ((shortestDigits x).1.take n) := fun n =>
    hdigits.sub fun c hc => (List.take_subset n _) hc
  have hdrop : ∀ n, Ascii ((shortestDigits x).1.drop n) := fun n =>
    hdigits.sub fun c hc => (List.drop_subset n _) hc
  have hzero : Ascii (u "0.") := by decide
  have hpoint : Ascii (u ".0") := by decide
  unfold positiveRepr
  dsimp only
  split
  · split
    · exact (hzero.append (ascii_zeros _)).append hdigits
    split
    · exact (hdigits.append (ascii_zeros _)).append hpoint
    · exact (htake _).append ((hdrop _).cons (by decide))
  · refine ((htake _).append ?_).append (Ascii.cons (by decide) (Ascii.cons ?_ ?_))
    · split
      · exact ascii_nil
      · exact Ascii.cons (by decide) (hdigits.sub fun c hc => List.mem_of_mem_tail hc)
    · split <;> decide
    · exact (ascii_zeros _).append (ascii_natRepr _)

theorem ascii_jsonFloat (x : PyFloat) : Ascii (jsonFloat x) := by
  have hinf : Ascii (u "-Infinity") ∧ Ascii (u "Infinity") ∧ Ascii (u "NaN") ∧ Ascii (u "-0.0") ∧
      Ascii (u "0.0") := by decide
  cases x with
  | finite q =>
    rw [jsonFloat, floatRepr]
    · split
      · exact hinf.2.2.2.2
      split
      · exact (ascii_positiveRepr _).cons (by decide)
      · exact ascii_positiveRepr _
    all_goals simp
  | negZero => exact hinf.2.2.2.1
  | inf negative => cases negative <;> simp [jsonFloat, hinf]
  | nan => exact hinf.2.2.1

theorem ascii_escapeCode (n : Nat) : Ascii (escapeCode n) := by
  have hhex : ∀ d, (hexChar d).val < 128 := by
    intro d
    unfold hexChar
    split <;> dsimp only <;> omega
  intro c hc
  simp only [escapeCode, List.mem_cons, List.not_mem_nil, or_false] at hc
  rcases hc with rfl | rfl | rfl | rfl | rfl | rfl
  · decide
  · decide
  all_goals exact hhex _

/-- A character of an escaped character is ASCII or, outside ASCII output, itself. -/
theorem escapeChar_chars (st : Style) (c : CodePoint) :
    ∀ d ∈ escapeChar st c, d.val < 128 ∨ st.ensureAscii = false ∧ d = c := by
  unfold escapeChar
  cases hshort : shortEscape c with
  | some e =>
    have he : e.val < 128 := by
      unfold shortEscape at hshort
      split_ifs at hshort <;> cases hshort <;> decide
    exact fun d hd => .inl (Ascii.cons (by decide) (Ascii.cons he ascii_nil) d hd)
  | none =>
    dsimp only
    split_ifs with hctl hplain hbmp
    · exact fun d hd => .inl (ascii_escapeCode _ d hd)
    · intro d hd
      rw [List.mem_singleton.mp hd]
      rcases hplain with h | h
      · exact .inr ⟨h, rfl⟩
      · exact .inl (by omega)
    · exact fun d hd => .inl (ascii_escapeCode _ d hd)
    · exact fun d hd => .inl ((ascii_escapeCode _).append (ascii_escapeCode _) d hd)

theorem quote_chars (st : Style) (s : Str) :
    ∀ c ∈ quote st s, c.val < 128 ∨ st.ensureAscii = false ∧ c ∈ s := by
  intro c hc
  rw [quote, List.mem_cons, List.mem_append, List.mem_flatMap, List.mem_singleton] at hc
  rcases hc with rfl | ⟨d, hd, hc⟩ | rfl
  · exact .inl (by decide)
  · rcases escapeChar_chars st d c hc with h | ⟨h, rfl⟩
    · exact .inl h
    · exact .inr ⟨h, hd⟩
  · exact .inl (by decide)

theorem Style.newline_ascii (st : Style) (level : Nat) : Ascii (st.newline level) := by
  unfold newline
  split
  · exact ascii_nil
  · refine Ascii.cons (by decide) fun c hc => ?_
    rw [List.eq_of_mem_replicate hc]
    decide

theorem Style.itemSep_ascii (st : Style) (level : Nat) : Ascii (st.itemSep level) := by
  unfold itemSep
  refine Ascii.cons (by decide) (Ascii.append ?_ (st.newline_ascii level))
  split
  · exact Ascii.cons (by decide) ascii_nil
  · exact ascii_nil

theorem Style.keySep_ascii (st : Style) : Ascii st.keySep := by
  unfold keySep
  refine Ascii.cons (by decide) ?_
  split
  · exact Ascii.cons (by decide) ascii_nil
  · exact ascii_nil

/-- Every character written is ASCII or belongs to a string of the value. -/
theorem render_chars (st : Style) (level : Nat) (v : Json) : ∀ c ∈ render st level v,
    c.val < 128 ∨ st.ensureAscii = false ∧ ∃ s, .str s ∈ v.walk ∧ c ∈ s := by
  induction v using Json.induct generalizing level with
  | null =>
    have h : Ascii (u "null") := by decide
    exact fun c hc => .inl (h c (by rwa [render] at hc))
  | bool b =>
    have h : Ascii (u "true") ∧ Ascii (u "false") := by decide
    intro c hc
    rw [render] at hc
    split at hc
    · exact .inl (h.1 c hc)
    · exact .inl (h.2 c hc)
  | int n => exact fun c hc => .inl (ascii_intRepr n c (by rwa [render] at hc))
  | float x => exact fun c hc => .inl (ascii_jsonFloat x c (by rwa [render] at hc))
  | str s =>
    intro c hc
    rw [render] at hc
    rcases quote_chars st s c hc with h | ⟨hst, h⟩
    · exact .inl h
    · exact .inr ⟨hst, s, Json.mem_walk_self _, h⟩
  | arr items ih =>
    have hitems : ∀ level, ∀ rest : List Json, (∀ v ∈ rest, v ∈ items) →
        ∀ c ∈ renderItems st level rest,
          c.val < 128 ∨ st.ensureAscii = false ∧ ∃ s, .str s ∈ (Json.arr items).walk ∧ c ∈ s := by
      intro level rest hsub c hc
      induction rest with
      | nil => simp [renderItems] at hc
      | cons v rest ihrest =>
        rw [renderItems, List.mem_append, List.mem_append] at hc
        rcases hc with hc | hc | hc
        · exact .inl (st.itemSep_ascii level c hc)
        · rcases ih v (hsub v List.mem_cons_self) level c hc with h | ⟨hst, s, hs, h⟩
          · exact .inl h
          · refine .inr ⟨hst, s, ?_, h⟩
            rw [Json.walk]
            exact List.mem_cons_of_mem _ (Json.mem_walkItems.mpr ⟨v, hsub v List.mem_cons_self, hs⟩)
        · exact ihrest (fun w hw => hsub w (List.mem_cons_of_mem _ hw)) hc
    cases items with
    | nil =>
      have h : Ascii (u "[]") := by decide
      exact fun c hc => .inl (h c (by rwa [render] at hc))
    | cons v rest =>
      intro c hc
      simp only [render, List.mem_cons, List.mem_append, List.not_mem_nil, or_false] at hc
      rcases hc with rfl | hc | hc | hc | hc | rfl
      · exact .inl (by decide)
      · exact .inl (st.newline_ascii _ c hc)
      · rcases ih v List.mem_cons_self _ c hc with h | ⟨hst, s, hs, h⟩
        · exact .inl h
        · refine .inr ⟨hst, s, ?_, h⟩
          rw [Json.walk]
          exact List.mem_cons_of_mem _ (Json.mem_walkItems.mpr ⟨v, List.mem_cons_self, hs⟩)
      · exact hitems _ rest (fun w hw => List.mem_cons_of_mem _ hw) c hc
      · exact .inl (st.newline_ascii _ c hc)
      · exact .inl (by decide)
  | obj fields ih =>
    have hpart : ∀ level, ∀ kv ∈ fields, ∀ c, c ∈ quote st kv.1 ∨ c ∈ st.keySep ∨
        c ∈ render st level kv.2 →
          c.val < 128 ∨ st.ensureAscii = false ∧ ∃ s, .str s ∈ (Json.obj fields).walk ∧ c ∈ s := by
      intro level kv hkv c hc
      rcases hc with hc | hc | hc
      · rcases quote_chars st kv.1 c hc with h | ⟨hst, h⟩
        · exact .inl h
        · refine .inr ⟨hst, kv.1, ?_, h⟩
          rw [Json.walk]
          exact List.mem_cons_of_mem _ (Json.mem_walkFields.mpr ⟨kv, hkv, .inl rfl⟩)
      · exact .inl (st.keySep_ascii c hc)
      · rcases ih kv hkv level c hc with h | ⟨hst, s, hs, h⟩
        · exact .inl h
        · refine .inr ⟨hst, s, ?_, h⟩
          rw [Json.walk]
          exact List.mem_cons_of_mem _ (Json.mem_walkFields.mpr ⟨kv, hkv, .inr hs⟩)
    have hfields : ∀ level, ∀ rest : Dict, (∀ kv ∈ rest, kv ∈ fields) →
        ∀ c ∈ renderFields st level rest,
          c.val < 128 ∨ st.ensureAscii = false ∧ ∃ s, .str s ∈ (Json.obj fields).walk ∧ c ∈ s := by
      intro level rest hsub c hc
      induction rest with
      | nil => simp [renderFields] at hc
      | cons kv rest ihrest =>
        simp only [renderFields, List.mem_append] at hc
        rcases hc with hc | hc | hc | hc | hc
        · exact .inl (st.itemSep_ascii level c hc)
        · exact hpart level kv (hsub kv List.mem_cons_self) c (.inl hc)
        · exact hpart level kv (hsub kv List.mem_cons_self) c (.inr (.inl hc))
        · exact hpart level kv (hsub kv List.mem_cons_self) c (.inr (.inr hc))
        · exact ihrest (fun w hw => hsub w (List.mem_cons_of_mem _ hw)) hc
    cases fields with
    | nil =>
      have h : Ascii (u "\x7b\x7d") := by decide
      exact fun c hc => .inl (h c (by rwa [render] at hc))
    | cons kv rest =>
      intro c hc
      simp only [render, List.mem_cons, List.mem_append, List.not_mem_nil, or_false] at hc
      rcases hc with rfl | hc | hc | hc | hc | hc | hc | rfl
      · exact .inl (by decide)
      · exact .inl (st.newline_ascii _ c hc)
      · exact hpart 0 kv List.mem_cons_self c (.inl hc)
      · exact hpart 0 kv List.mem_cons_self c (.inr (.inl hc))
      · exact hpart _ kv List.mem_cons_self c (.inr (.inr hc))
      · exact hfields _ rest (fun w hw => List.mem_cons_of_mem _ hw) c hc
      · exact .inl (st.newline_ascii _ c hc)
      · exact .inl (by decide)

end Python
