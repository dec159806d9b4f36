import McpTrust.Python.Lines
import McpTrust.Qualification.HostCapacity

/-! # Two tokenisers

`shlex` and the shell read the same text. They part where `#` stands inside a word, since
there `shlex` begins a comment, and at a few escapes.
-/

namespace McpTrust.Refresh

set_option autoImplicit false

open Python

/-- What one of the two treats apart. -/
inductive CharClass
  | blank
  | carriageReturn
  | newline
  | hash
  | backslash
  | single
  | double
  | operator
  | brace
  | expansion
  | plain
  deriving DecidableEq

def charClasses : List (CodePoint × CharClass) :=
  [(ch ' ', .blank), (ch '\t', .blank), (ch '\r', .carriageReturn), (ch '\n', .newline), (ch '#', .hash),
    (ch '\\', .backslash), (ch '\'', .single), (ch '"', .double), (ch ';', .operator), (ch '&', .operator),
    (ch '|', .operator), (ch '(', .operator), (ch ')', .operator), (ch '<', .operator), (ch '>', .operator),
    (ch '\x7b', .brace), (ch '\x7d', .brace), (ch '$', .expansion), (ch '\x60', .expansion)]

def classOf (c : CodePoint) : CharClass := ((charClasses.find? fun p => decide (p.1 = c)).map Prod.snd).getD .plain

theorem mem_charClasses {c : CodePoint} {k : CharClass} (h : classOf c = k) (hk : k ≠ .plain) : (c, k) ∈ charClasses := by
  unfold classOf at h
  cases hfind : charClasses.find? fun p => decide (p.1 = c) with
  | none =>
    rw [hfind] at h
    exact absurd h.symm hk
  | some p =>
    rw [hfind] at h
    have hkey : p.1 = c := by simpa using List.find?_some hfind
    have hclass : p.2 = k := h
    rw [← hkey, ← hclass]
    exact List.mem_of_find?_eq_some hfind

/-! ## `shlex` -/

inductive LexMode
  | blank
  | word
  | punctuation
  | single
  | double
  | escape
  | doubleEscape
  | comment

/-- The state of `shlex.shlex(text, posix=True, punctuation_chars=…)` between two characters. -/
structure LexState where
  mode : LexMode
  quoted : Bool
  token : Str

def LexState.emitted (s : LexState) : List Str := if s.token ≠ [] ∨ s.quoted = true then [s.token] else []

/-- A character between two tokens. -/
def lexOpen (c : CodePoint) : LexState :=
  match classOf c with
  | .blank | .carriageReturn | .newline => ⟨.blank, false, []⟩
  | .hash => ⟨.comment, false, []⟩
  | .backslash => ⟨.escape, false, []⟩
  | .single => ⟨.single, false, []⟩
  | .double => ⟨.double, false, []⟩
  | .operator | .brace => ⟨.punctuation, false, [c]⟩
  | .expansion | .plain => ⟨.word, false, [c]⟩

/-- The tokens one character ends, and the state after it. -/
def lexStep (s : LexState) (c : CodePoint) : List Str × LexState :=
  match s.mode with
  | .blank => ([], lexOpen c)
  | .comment => ([], if classOf c = .newline then ⟨.blank, false, []⟩ else s)
  | .word =>
    match classOf c with
    | .single => ([], { s with mode := .single })
    | .double => ([], { s with mode := .double })
    | .backslash => ([], { s with mode := .escape })
    | .expansion | .plain => ([], { s with token := s.token ++ [c] })
    | _ => (s.emitted, lexOpen c)
  | .punctuation =>
    match classOf c with
    | .operator | .brace => ([], { s with token := s.token ++ [c] })
    | _ => (s.emitted, lexOpen c)
  | .single =>
    ([], if classOf c = .single then ⟨.word, true, s.token⟩ else ⟨.single, true, s.token ++ [c]⟩)
  | .double =>
    match classOf c with
    | .double => ([], ⟨.word, true, s.token⟩)
    | .backslash => ([], ⟨.doubleEscape, true, s.token⟩)
    | _ => ([], ⟨.double, true, s.token ++ [c]⟩)
  | .escape => ([], { s with mode := .word, token := s.token ++ [c] })
  | .doubleEscape =>
    match classOf c with
    | .double | .backslash => ([], { s with mode := .double, token := s.token ++ [c] })
    | _ => ([], { s with mode := .double, token := s.token ++ [ch '\\', c] })

/-- `none` where `shlex` raises `ValueError`. -/
def lexRun (s : LexState) : Str → Option (List Str)
  | [] =>
    match s.mode with
    | .single | .double | .escape | .doubleEscape => none
    | _ => some s.emitted
  | c :: rest => (lexRun (lexStep s c).2 rest).map ((lexStep s c).1 ++ ·)

/-- `list(lexer)`. -/
def shlexWords (text : Str) : Option (List Str) := lexRun ⟨.blank, false, []⟩ text

/-! ## The shell -/

inductive ShellMode
  | outside
  | word
  | single
  | double
  | openEscape
  | escape
  | doubleEscape
  | comment
  deriving DecidableEq

structure ShellState where
  mode : ShellMode
  word : Str

/-- A character between two words; operators and line ends only separate them. -/
def shellOpen (c : CodePoint) : ShellState :=
  match classOf c with
  | .blank | .newline | .operator => ⟨.outside, []⟩
  | .hash => ⟨.comment, []⟩
  | .backslash => ⟨.openEscape, []⟩
  | .single => ⟨.single, []⟩
  | .double => ⟨.double, []⟩
  | .carriageReturn | .brace | .expansion | .plain => ⟨.word, [c]⟩

/-- The words one character ends, and the state after it; an escaped line end joins two lines. -/
def shellStep (s : ShellState) (c : CodePoint) : List Str × ShellState :=
  match s.mode with
  | .outside => ([], shellOpen c)
  | .comment => ([], if classOf c = .newline then ⟨.outside, []⟩ else s)
  | .word =>
    match classOf c with
    | .blank | .newline | .operator => ([s.word], shellOpen c)
    | .backslash => ([], { s with mode := .escape })
    | .single => ([], { s with mode := .single })
    | .double => ([], { s with mode := .double })
    | _ => ([], { s with word := s.word ++ [c] })
  | .single => ([], if classOf c = .single then ⟨.word, s.word⟩ else ⟨.single, s.word ++ [c]⟩)
  | .double =>
    match classOf c with
    | .double => ([], ⟨.word, s.word⟩)
    | .backslash => ([], ⟨.doubleEscape, s.word⟩)
    | _ => ([], ⟨.double, s.word ++ [c]⟩)
  | .openEscape => ([], if classOf c = .newline then ⟨.outside, []⟩ else ⟨.word, s.word ++ [c]⟩)
  | .escape => ([], if classOf c = .newline then ⟨.word, s.word⟩ else ⟨.word, s.word ++ [c]⟩)
  | .doubleEscape =>
    match classOf c with
    | .newline => ([], ⟨.double, s.word⟩)
    | .double | .backslash | .expansion => ([], ⟨.double, s.word ++ [c]⟩)
    | _ => ([], ⟨.double, s.word ++ [ch '\\', c]⟩)

/-- `none` where a quote is not closed: the shell runs nothing of such a line. -/
def shellRun (s : ShellState) : Str → Option (List Str)
  | [] =>
    match s.mode with
    | .single | .double | .doubleEscape => none
    | .word => some [s.word]
    | .openEscape | .escape => some [s.word ++ [ch '\\']]
    | .outside | .comment => some []
  | c :: rest => (shellRun (shellStep s c).2 rest).map ((shellStep s c).1 ++ ·)

/-- The words of a command line, operators left out. -/
def shellWords (text : Str) : Option (List Str) := shellRun ⟨.outside, []⟩ text

/-! ## Where they agree -/

/-- The shell is behind a backslash. -/
def ShellState.escaped (s : ShellState) : Prop := s.mode = .openEscape ∨ s.mode = .escape ∨ s.mode = .doubleEscape

instance (s : ShellState) : Decidable s.escaped := inferInstanceAs (Decidable (_ ∨ _ ∨ _))

/-- A `#` inside a word, an escaped line end, or an escaped `$` or backtick inside double
quotes. -/
def parts (s : ShellState) : Str → Bool
  | [] => false
  | c :: rest =>
    (decide (s.mode = .word) && decide (classOf c = .hash)) || (decide s.escaped && decide (classOf c = .newline)) ||
      (decide (s.mode = .doubleEscape) && decide (classOf c = .expansion)) || parts (shellStep s c).2 rest

/-- `shlex` cuts a word after these. -/
def isCut (c : CodePoint) : Bool := decide (classOf c = .brace) || decide (classOf c = .carriageReturn)

def EndsCut (word : Str) : Prop := ∃ front c, word = front ++ [c] ∧ isCut c = true

/-- The token is the word, or what follows a cut in it. -/
def Tail (word token : Str) : Prop := word = token ∨ ∃ front, EndsCut front ∧ word = front ++ token

theorem Tail.append {word token : Str} (h : Tail word token) (more : Str) : Tail (word ++ more) (token ++ more) := by
  obtain rfl | ⟨front, hcut, rfl⟩ := h
  · exact .inl rfl
  · exact .inr ⟨front, hcut, List.append_assoc _ _ _⟩

theorem EndsCut.tail {word : Str} (h : EndsCut word) (token : Str) : Tail (word ++ token) token :=
  .inr ⟨word, h, rfl⟩

theorem EndsCut.tail_nil {word : Str} (h : EndsCut word) : Tail word [] := .inr ⟨word, h, (List.append_nil word).symm⟩

theorem endsCut_append (word : Str) {c : CodePoint} (h : isCut c = true) : EndsCut (word ++ [c]) := ⟨word, c, rfl, h⟩

/-- What the lexer is doing while the shell reads the same text. -/
inductive Sim : ShellState → LexState → Prop
  | outside : Sim ⟨.outside, []⟩ ⟨.blank, false, []⟩
  | operator (token : Str) : Sim ⟨.outside, []⟩ ⟨.punctuation, false, token⟩
  | comment : Sim ⟨.comment, []⟩ ⟨.comment, false, []⟩
  | word {word token : Str} {quoted : Bool} (h : Tail word token) (hlive : token ≠ [] ∨ quoted = true) :
    Sim ⟨.word, word⟩ ⟨.word, quoted, token⟩
  | cutBlank {word : Str} (h : EndsCut word) : Sim ⟨.word, word⟩ ⟨.blank, false, []⟩
  | cutPunctuation {word : Str} (h : EndsCut word) (token : Str) : Sim ⟨.word, word⟩ ⟨.punctuation, false, token⟩
  | single {word token : Str} (h : Tail word token) (quoted : Bool) : Sim ⟨.single, word⟩ ⟨.single, quoted, token⟩
  | double {word token : Str} (h : Tail word token) (quoted : Bool) : Sim ⟨.double, word⟩ ⟨.double, quoted, token⟩
  | openEscape : Sim ⟨.openEscape, []⟩ ⟨.escape, false, []⟩
  | escape {word token : Str} (h : Tail word token) (quoted : Bool) : Sim ⟨.escape, word⟩ ⟨.escape, quoted, token⟩
  | doubleEscape {word token : Str} (h : Tail word token) (quoted : Bool) :
    Sim ⟨.doubleEscape, word⟩ ⟨.doubleEscape, quoted, token⟩

/-- Every word is covered: it ends in a cut, or a token is its tail. -/
def Covered (tokens : List Str) (word : Str) : Prop := EndsCut word ∨ ∃ token ∈ tokens, Tail word token

theorem emitted_live {mode : LexMode} {quoted : Bool} {token : Str} (h : token ≠ [] ∨ quoted = true) :
    LexState.emitted ⟨mode, quoted, token⟩ = [token] := if_pos h

theorem sim_open (c : CodePoint) : Sim (shellOpen c) (lexOpen c) := by
  have hcut : classOf c = .brace ∨ classOf c = .carriageReturn → EndsCut [c] := by
    intro h
    refine endsCut_append [] ?_
    simpa [isCut] using h
  unfold shellOpen lexOpen
  cases hc : classOf c with
  | newline => exact .outside
  | blank => exact .outside
  | operator => exact .operator [c]
  | hash => exact .comment
  | backslash => exact .openEscape
  | single => exact .single (.inl rfl) false
  | double => exact .double (.inl rfl) false
  | carriageReturn => exact .cutBlank (hcut (.inr hc))
  | brace => exact .cutPunctuation (hcut (.inl hc)) [c]
  | expansion => exact .word (.inl rfl) (.inl (List.cons_ne_nil c []))
  | plain => exact .word (.inl rfl) (.inl (List.cons_ne_nil c []))

/-- After a cut the lexer is between tokens, the shell inside a word. -/
theorem sim_cut {word : Str} {c : CodePoint} (h : EndsCut word)
    (hhash : classOf c ≠ .hash) : Sim (shellStep ⟨.word, word⟩ c).2 (lexOpen c) ∧
      ∀ w ∈ (shellStep ⟨.word, word⟩ c).1, EndsCut w := by
  have hcut : classOf c = .brace ∨ classOf c = .carriageReturn → EndsCut (word ++ [c]) := by
    intro h
    refine endsCut_append word ?_
    simpa [isCut] using h
  unfold lexOpen
  simp only [shellStep, shellOpen]
  cases hc : classOf c with
  | hash => exact absurd hc hhash
  | newline => exact ⟨.outside, List.forall_mem_singleton.mpr h⟩
  | blank => exact ⟨.outside, List.forall_mem_singleton.mpr h⟩
  | operator => exact ⟨.operator [c], List.forall_mem_singleton.mpr h⟩
  | backslash => exact ⟨.escape h.tail_nil false, List.forall_mem_nil _⟩
  | single => exact ⟨.single h.tail_nil false, List.forall_mem_nil _⟩
  | double => exact ⟨.double h.tail_nil false, List.forall_mem_nil _⟩
  | carriageReturn => exact ⟨.cutBlank (hcut (.inr hc)), List.forall_mem_nil _⟩
  | brace => exact ⟨.cutPunctuation (hcut (.inl hc)) [c], List.forall_mem_nil _⟩
  | expansion => exact ⟨.word (h.tail [c]) (.inl (List.cons_ne_nil c [])), List.forall_mem_nil _⟩
  | plain => exact ⟨.word (h.tail [c]) (.inl (List.cons_ne_nil c [])), List.forall_mem_nil _⟩

/-- Inside a word both read on, or both end it. -/
theorem sim_word {word token : Str} {quoted : Bool} {c : CodePoint} (h : Tail word token)
    (hlive : token ≠ [] ∨ quoted = true) (hhash : classOf c ≠ .hash) :
    Sim (shellStep ⟨.word, word⟩ c).2 (lexStep ⟨.word, quoted, token⟩ c).2 ∧
      ∀ w ∈ (shellStep ⟨.word, word⟩ c).1, Covered (lexStep ⟨.word, quoted, token⟩ c).1 w := by
  have hcut : classOf c = .brace ∨ classOf c = .carriageReturn → EndsCut (word ++ [c]) := by
    intro h
    refine endsCut_append word ?_
    simpa [isCut] using h
  have hcovered : Covered [token] word := .inr ⟨token, List.mem_singleton_self token, h⟩
  have hmore : token ++ [c] ≠ [] := List.append_ne_nil_of_right_ne_nil token (List.cons_ne_nil c [])
  simp only [shellStep, lexStep, shellOpen, lexOpen, emitted_live hlive]
  cases hc : classOf c with
  | hash => exact absurd hc hhash
  | newline => exact ⟨.outside, List.forall_mem_singleton.mpr hcovered⟩
  | blank => exact ⟨.outside, List.forall_mem_singleton.mpr hcovered⟩
  | operator => exact ⟨.operator [c], List.forall_mem_singleton.mpr hcovered⟩
  | backslash => exact ⟨.escape h quoted, List.forall_mem_nil _⟩
  | single => exact ⟨.single h quoted, List.forall_mem_nil _⟩
  | double => exact ⟨.double h quoted, List.forall_mem_nil _⟩
  | carriageReturn => exact ⟨.cutBlank (hcut (.inr hc)), List.forall_mem_nil _⟩
  | brace => exact ⟨.cutPunctuation (hcut (.inl hc)) [c], List.forall_mem_nil _⟩
  | expansion => exact ⟨.word (h.append [c]) (.inl hmore), List.forall_mem_nil _⟩
  | plain => exact ⟨.word (h.append [c]) (.inl hmore), List.forall_mem_nil _⟩

theorem sim_punctuation {s : ShellState} {token : Str} {c : CodePoint}
    (hsim : Sim s ⟨.punctuation, false, token⟩) (hhash : s.mode = .word → classOf c ≠ .hash) :
    Sim (shellStep s c).2 (lexStep ⟨.punctuation, false, token⟩ c).2 ∧
      ∀ w ∈ (shellStep s c).1, Covered (lexStep ⟨.punctuation, false, token⟩ c).1 w := by
  cases hsim with
  | operator =>
    have hopen := sim_open c
    have hcut : classOf c = .brace → EndsCut [c] := fun h => endsCut_append [] (by simp [isCut, h])
    simp only [shellStep, lexStep]
    cases hc : classOf c with
    | operator =>
      simp only [shellOpen, hc]
      exact ⟨.operator _, List.forall_mem_nil _⟩
    | brace =>
      simp only [shellOpen, hc]
      exact ⟨.cutPunctuation (hcut hc) _, List.forall_mem_nil _⟩
    | _ => exact ⟨hopen, List.forall_mem_nil _⟩
  | @cutPunctuation word h =>
    obtain ⟨hopen, hcovered⟩ := sim_cut h (hhash rfl)
    have hcut : classOf c = .brace → EndsCut (word ++ [c]) := fun h => endsCut_append word (by simp [isCut, h])
    simp only [lexStep]
    cases hc : classOf c with
    | operator =>
      simp only [shellStep, shellOpen, hc]
      exact ⟨.operator _, List.forall_mem_singleton.mpr (.inl h)⟩
    | brace =>
      simp only [shellStep, hc]
      exact ⟨.cutPunctuation (hcut hc) _, List.forall_mem_nil _⟩
    | _ => exact ⟨hopen, fun w hw => .inl (hcovered w hw)⟩

/-- One character keeps the two readers together. -/
theorem sim_step {s : ShellState} {l : LexState} {c : CodePoint} (hsim : Sim s l)
    (hline : s.escaped → classOf c ≠ .newline) (hhash : s.mode = .word → classOf c ≠ .hash) (hescape : s.mode = .doubleEscape → classOf c ≠ .expansion) :
    Sim (shellStep s c).2 (lexStep l c).2 ∧ ∀ w ∈ (shellStep s c).1, Covered (lexStep l c).1 w := by
  cases hsim with
  | outside => exact ⟨sim_open c, List.forall_mem_nil _⟩
  | operator token => exact sim_punctuation (.operator token) hhash
  | comment =>
    simp only [shellStep, lexStep]
    split_ifs
    · exact ⟨.outside, List.forall_mem_nil _⟩
    · exact ⟨.comment, List.forall_mem_nil _⟩
  | word h hlive => exact sim_word h hlive (hhash rfl)
  | cutBlank h =>
    obtain ⟨hopen, hcovered⟩ := sim_cut h (hhash rfl)
    exact ⟨hopen, fun w hw => .inl (hcovered w hw)⟩
  | cutPunctuation h token => exact sim_punctuation (.cutPunctuation h token) hhash
  | single h quoted =>
    simp only [shellStep, lexStep]
    split_ifs
    · exact ⟨.word h (.inr rfl), List.forall_mem_nil _⟩
    · exact ⟨.single (h.append [c]) true, List.forall_mem_nil _⟩
  | double h quoted =>
    simp only [shellStep, lexStep]
    cases hc : classOf c with
    | double => exact ⟨.word h (.inr rfl), List.forall_mem_nil _⟩
    | backslash => exact ⟨.doubleEscape h true, List.forall_mem_nil _⟩
    | _ => exact ⟨.double (h.append [c]) true, List.forall_mem_nil _⟩
  | openEscape =>
    simp only [shellStep, lexStep, if_neg (hline (.inl rfl))]
    exact ⟨.word (.inl rfl) (.inl (List.cons_ne_nil c [])), List.forall_mem_nil _⟩
  | @escape word token h quoted =>
    have hmore : token ++ [c] ≠ [] := List.append_ne_nil_of_right_ne_nil token (List.cons_ne_nil c [])
    simp only [shellStep, lexStep, if_neg (hline (.inr (.inl rfl)))]
    exact ⟨.word (h.append [c]) (.inl hmore), List.forall_mem_nil _⟩
  | doubleEscape h quoted =>
    simp only [shellStep, lexStep]
    cases hc : classOf c with
    | expansion => exact absurd hc (hescape rfl)
    | newline => exact absurd hc (hline (.inr (.inr rfl)))
    | double => exact ⟨.double (h.append [c]) quoted, List.forall_mem_nil _⟩
    | backslash => exact ⟨.double (h.append [c]) quoted, List.forall_mem_nil _⟩
    | _ => exact ⟨.double (h.append [ch '\\', c]) quoted, List.forall_mem_nil _⟩

theorem parts_cons {s : ShellState} {c : CodePoint} {rest : Str} (h : parts s (c :: rest) = false) :
    (s.escaped → classOf c ≠ .newline) ∧ (s.mode = .word → classOf c ≠ .hash) ∧
      (s.mode = .doubleEscape → classOf c ≠ .expansion) ∧ parts (shellStep s c).2 rest = false := by
  simp only [parts, Bool.or_eq_false_iff, Bool.and_eq_false_iff, decide_eq_false_iff_not] at h
  obtain ⟨⟨⟨hhash, hline⟩, hescape⟩, hrest⟩ := h
  exact ⟨fun hmode => hline.resolve_left (not_not_intro hmode), fun hmode => hhash.resolve_left (not_not_intro hmode),
    fun hmode => hescape.resolve_left (not_not_intro hmode), hrest⟩

/-- Where nothing parts them, `shlex` sees every word of the shell, up to its cuts. -/
theorem run_covered {text : Str} {s : ShellState} {l : LexState} (hsim : Sim s l) (hparts : parts s text = false)
    {words tokens : List Str} (hwords : shellRun s text = some words) (htokens : lexRun l text = some tokens) :
    ∀ w ∈ words, Covered tokens w := by
  induction text generalizing s l words tokens with
  | nil =>
    cases hsim with
    | outside => cases hwords; exact List.forall_mem_nil _
    | operator token => cases hwords; exact List.forall_mem_nil _
    | comment => cases hwords; exact List.forall_mem_nil _
    | @word word token quoted h hlive =>
      cases hwords
      rw [lexRun, emitted_live hlive] at htokens
      cases htokens
      exact List.forall_mem_singleton.mpr (.inr ⟨token, List.mem_singleton_self token, h⟩)
    | cutBlank h => cases hwords; exact List.forall_mem_singleton.mpr (.inl h)
    | cutPunctuation h token => cases hwords; exact List.forall_mem_singleton.mpr (.inl h)
    | single h quoted => cases hwords
    | double h quoted => cases hwords
    | openEscape => cases htokens
    | escape h quoted => cases htokens
    | doubleEscape h quoted => cases hwords
  | cons c rest ih =>
    obtain ⟨hline, hhash, hescape, hrest⟩ := parts_cons hparts
    obtain ⟨hsim', hcovered⟩ := sim_step hsim hline hhash hescape
    obtain ⟨words', hwords', rfl⟩ := Option.map_eq_some_iff.mp hwords
    obtain ⟨tokens', htokens', rfl⟩ := Option.map_eq_some_iff.mp htokens
    intro w hw
    obtain hw | hw := List.mem_append.mp hw
    · obtain hcut | ⟨token, htoken, htail⟩ := hcovered w hw
      · exact .inl hcut
      · exact .inr ⟨token, List.mem_append_left _ htoken, htail⟩
    · obtain hcut | ⟨token, htoken, htail⟩ := ih hsim' hrest hwords' htokens' w hw
      · exact .inl hcut
      · exact .inr ⟨token, List.mem_append_right _ htoken, htail⟩

theorem shellWords_covered {text : Str} (hparts : parts ⟨.outside, []⟩ text = false) {words tokens : List Str}
    (hwords : shellWords text = some words) (htokens : shlexWords text = some tokens) :
    ∀ w ∈ words, Covered tokens w := run_covered .outside hparts hwords htokens

end McpTrust.Refresh
