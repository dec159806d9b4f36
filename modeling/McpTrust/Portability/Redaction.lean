import McpTrust.Python.Unicode
import McpTrust.Portability.Literals
import McpTrust.Portability.Escapes

/-! # Redacting host arguments

The patterns for secrets in arguments, the redaction of a host's list and the
check that a transport makes of its command and arguments. Which characters are
word characters beyond ASCII is a parameter.
-/

namespace McpTrust.Portability

set_option autoImplicit false

open Python

/-! ## The patterns -/

/-- The characters that `\w` matches. -/
structure WordTable where
  isWord : CodePoint → Bool
  ascii : ∀ c, c.val < 128 → isWord c = (isAlnum c || decide (c = ch '_'))

/-- The lower-case letter that `c` stands for under `(?i)`, and otherwise `c`. -/
def foldChar (c : CodePoint) : Nat :=
  if isUpperAlpha c then c.val + 32
  else if c.val = 0x17F then (ch 's').val
  else if c.val = 0x212A then (ch 'k').val
  else if c.val = 0x130 ∨ c.val = 0x131 then (ch 'i').val
  else c.val

/-- `c` matches the lower-case letter, or another character, under `(?i)`. -/
def matchesChar (letter : Char) (c : CodePoint) : Bool := decide (foldChar c = (ch letter).val)

/-- What is left after the literal. -/
def afterLiteral : List Char → Str → Option Str
  | [], s => some s
  | _ :: _, [] => none
  | letter :: letters, c :: s => if matchesChar letter c then afterLiteral letters s else none

/-- `[A-Za-z0-9]` under `(?i)`. -/
def isAlnumFold (c : CodePoint) : Bool :=
  isAlnum c || decide (c.val = 0x130 ∨ c.val = 0x131 ∨ c.val = 0x17F ∨ c.val = 0x212A)

/-- The names of `_SENSITIVE_FLAG_RE`, each spelling of an alternative on its own. -/
def flagNames : List String :=
  ["apikey", "api-key", "api_key", "token", "accesstoken", "access-token", "access_token", "secret",
    "password", "passwd", "authorization"]

/-- `_SENSITIVE_FLAG_RE.fullmatch(value)`. -/
def isSecretFlag : Str → Bool
  | c :: rest =>
    decide (c = ch '-') && flagNames.any fun name =>
      decide (afterLiteral name.toList rest = some []) ||
        (decide (rest.head? = some (ch '-')) && decide (afterLiteral name.toList rest.tail = some []))
  | [] => false

/-- The names of `_SENSITIVE_ASSIGNMENT_RE`. -/
def assignmentNames : List String :=
  ["token", "secret", "password", "passwd", "apikey", "api-key", "api_key", "authorization"]

/-- `\s*[=:]\s*(?!\$\{env:)[^\s]+`, from where the name ends. -/
def assignsValue (s : Str) : Bool :=
  match s.dropWhile isWhitespace with
  | [] => false
  | c :: rest =>
    decide (c = ch '=' ∨ c = ch ':') &&
      decide (rest.dropWhile isWhitespace ≠ []) &&
        (afterLiteral ['$', '\x7b', 'e', 'n', 'v', ':'] (rest.dropWhile isWhitespace)).isNone

/-- A match of `_SENSITIVE_ASSIGNMENT_RE` begins here. -/
def assignmentHere (s : Str) : Bool :=
  assignmentNames.any fun name => (afterLiteral name.toList s).any assignsValue

/-- `_SENSITIVE_ASSIGNMENT_RE.search(value)`. -/
def hasAssignment : Str → Bool
  | [] => false
  | c :: rest => assignmentHere (c :: rest) || hasAssignment rest

/-- `Bearer\s+\S+`, `sk-[A-Za-z0-9_-]{8,}` or `gh[pousr]_[A-Za-z0-9]{8,}` begins here. -/
def credentialHere (s : Str) : Bool :=
  ((afterLiteral ['b', 'e', 'a', 'r', 'e', 'r'] s).any fun rest =>
    rest.head?.any isWhitespace && decide (rest.dropWhile isWhitespace ≠ [])) ||
  ((afterLiteral ['s', 'k', '-'] s).any fun rest =>
    decide (8 ≤ (rest.takeWhile fun c => isAlnumFold c || decide (c = ch '_' ∨ c = ch '-')).length)) ||
  ((afterLiteral ['g', 'h'] s).any fun rest =>
    rest.head?.any (fun c => ['p', 'o', 'u', 's', 'r'].any fun letter => matchesChar letter c) &&
      decide (rest.tail.head? = some (ch '_')) &&
        decide (8 ≤ (rest.tail.tail.takeWhile isAlnumFold).length))

/-- `_OBVIOUS_SECRET_RE.search(value)` behind a character: `\b` asks that it is no word character. -/
def credentialFrom (table : WordTable) : Option CodePoint → Str → Bool
  | _, [] => false
  | previous, c :: rest =>
    (!previous.any table.isWord && credentialHere (c :: rest)) || credentialFrom table (some c) rest

/-- `_OBVIOUS_SECRET_RE.search(value) or _SENSITIVE_ASSIGNMENT_RE.search(value)`. -/
def isProbableSecret (table : WordTable) (value : Str) : Bool :=
  credentialFrom table none value || hasAssignment value

/-- `_PLACEHOLDER_RE.fullmatch(value)`. -/
def isEnvPlaceholder (value : Str) : Bool :=
  decide (value.take 6 = u "$\x7benv:") && decide (value.getLast? = some (ch '\x7d')) &&
    match (value.drop 6).dropLast with
    | [] => false
    | c :: rest =>
      (isAlnum c && !isDigit c || decide (c = ch '_')) && rest.all fun d => isAlnum d || decide (d = ch '_')

/-! ## The transport's check -/

inductive ArgumentError
  | multiLine
  | probableSecret
  | unguardedFlag
  deriving DecidableEq

def ArgumentError.text : ArgumentError → String
  | multiLine => "command and arguments must be single-line strings"
  | probableSecret => "command arguments cannot contain probable secret values"
  | unguardedFlag => "values after secret-bearing flags must use $\x7benv:NAME\x7d"

def isMultiLine (value : Str) : Bool :=
  value.any fun c => decide (c.val = 0) || decide (c = ch '\r') || decide (c = ch '\n')

/-- The loop of `reject_secret_arguments` behind the value `previous`. -/
def rejectSecretArguments (table : WordTable) : Option Str → List Str → Except ArgumentError Unit
  | _, [] => .ok ()
  | previous, value :: rest =>
    if isMultiLine value then .error .multiLine
    else if isProbableSecret table value then .error .probableSecret
    else if previous.any isSecretFlag && !isEnvPlaceholder value then .error .unguardedFlag
    else rejectSecretArguments table (some value) rest

/-- The argument rules of a `StdioTransport`. -/
def checkArguments (table : WordTable) (command : Str) (args : List Str) : Except ArgumentError Unit :=
  rejectSecretArguments table none (command :: args)

/-! ## What the patterns ask of a text -/

def folded (s : Str) : List Nat := s.map foldChar

theorem afterLiteral_eq_some {letters : List Char} {s rest : Str} (h : afterLiteral letters s = some rest) :
    folded s = letters.map (fun letter => (ch letter).val) ++ folded rest := by
  induction letters generalizing s with
  | nil =>
    obtain rfl := Option.some.inj h
    rfl
  | cons letter letters ih =>
    cases s with
    | nil => cases h
    | cons c s =>
      rw [afterLiteral] at h
      split at h
      · rename_i hletter
        have hfold : foldChar c = (ch letter).val := of_decide_eq_true hletter
        rw [List.map_cons, List.cons_append, ← ih h, ← hfold]
        rfl
      · cases h

/-- A credential begins with `b` or `g`, or with `s` and `k`. -/
theorem credentialHere_folded {s : Str} (h : credentialHere s = true) :
    (ch 'b').val ∈ folded s ∨ (ch 'g').val ∈ folded s ∨
      [(ch 's').val, (ch 'k').val] <:+: folded s := by
  simp only [credentialHere, Bool.or_eq_true, Option.any_eq_true] at h
  obtain (⟨rest, hrest, -⟩ | ⟨rest, hrest, -⟩) | ⟨rest, hrest, -⟩ := h
  · rw [afterLiteral_eq_some hrest]
    exact .inl List.mem_cons_self
  · rw [afterLiteral_eq_some hrest]
    exact .inr (.inr ⟨[], (ch '-').val :: folded rest, rfl⟩)
  · rw [afterLiteral_eq_some hrest]
    exact .inr (.inl List.mem_cons_self)

theorem credentialFrom_folded {table : WordTable} {previous : Option CodePoint} {s : Str}
    (h : credentialFrom table previous s = true) :
    (ch 'b').val ∈ folded s ∨ (ch 'g').val ∈ folded s ∨
      [(ch 's').val, (ch 'k').val] <:+: folded s := by
  induction s generalizing previous with
  | nil => cases h
  | cons c rest ih =>
    rw [credentialFrom, Bool.or_eq_true, Bool.and_eq_true] at h
    obtain ⟨-, h⟩ | h := h
    · exact credentialHere_folded h
    · obtain hb | hg | hsk := ih h
      · exact .inl (List.mem_cons_of_mem _ hb)
      · exact .inr (.inl (List.mem_cons_of_mem _ hg))
      · exact .inr (.inr (hsk.trans (List.suffix_cons _ _).isInfix))

theorem assignsValue_mem {s : Str} (h : assignsValue s = true) : ch '=' ∈ s ∨ ch ':' ∈ s := by
  unfold assignsValue at h
  split at h
  · cases h
  · rename_i c rest hdrop
    simp only [Bool.and_eq_true, decide_eq_true_eq] at h
    have hmem : c ∈ s := (List.dropWhile_sublist _).subset (hdrop ▸ List.mem_cons_self)
    obtain rfl | rfl := h.1.1
    · exact .inl hmem
    · exact .inr hmem

/-- An assignment begins with the first letter of one of its names, and has `=` or `:`. -/
theorem assignmentHere_folded {s : Str} (h : assignmentHere s = true) :
    (∃ letter ∈ u "tspa", letter.val ∈ folded s) ∧
      ((ch '=').val ∈ folded s ∨ (ch ':').val ∈ folded s) := by
  obtain ⟨name, hname, hassigns⟩ := List.any_eq_true.mp h
  obtain ⟨rest, hrest, hvalue⟩ := Option.any_eq_true .. |>.mp hassigns
  rw [afterLiteral_eq_some hrest]
  constructor
  · have hfirst : (assignmentNames.all fun name =>
        (u "tspa").any fun letter => (name.toList.map fun c => (ch c).val).contains letter.val) = true := by decide
    obtain ⟨letter, hletter, hcontains⟩ := List.any_eq_true.mp (List.all_eq_true.mp hfirst name hname)
    exact ⟨letter, hletter, List.mem_append_left _ (List.contains_iff_mem.mp hcontains)⟩
  · obtain heq | hcolon := assignsValue_mem hvalue
    · exact .inl (List.mem_append_right _ (List.mem_map.mpr ⟨_, heq, by decide⟩))
    · exact .inr (List.mem_append_right _ (List.mem_map.mpr ⟨_, hcolon, by decide⟩))

theorem hasAssignment_folded {s : Str} (h : hasAssignment s = true) :
    (∃ letter ∈ u "tspa", letter.val ∈ folded s) ∧
      ((ch '=').val ∈ folded s ∨ (ch ':').val ∈ folded s) := by
  induction s with
  | nil => cases h
  | cons c rest ih =>
    rw [hasAssignment, Bool.or_eq_true] at h
    obtain h | h := h
    · exact assignmentHere_folded h
    · obtain ⟨⟨letter, hletter, hmem⟩, hsign⟩ := ih h
      exact ⟨⟨letter, hletter, List.mem_cons_of_mem _ hmem⟩,
        hsign.imp (List.mem_cons_of_mem _) (List.mem_cons_of_mem _)⟩

/-! ## Flags are no secrets -/

/-- The spellings of a flag in lower case. -/
def flagSpellings : List (List Nat) :=
  flagNames.flatMap fun name =>
    [(ch '-').val :: name.toList.map (fun c => (ch c).val),
      (ch '-').val :: (ch '-').val :: name.toList.map fun c => (ch c).val]

theorem isSecretFlag_folded {s : Str} (h : isSecretFlag s = true) : folded s ∈ flagSpellings := by
  cases s with
  | nil => cases h
  | cons c rest =>
    simp only [isSecretFlag, Bool.and_eq_true, decide_eq_true_eq, List.any_eq_true, Bool.or_eq_true] at h
    obtain ⟨rfl, name, hname, hliteral⟩ := h
    refine List.mem_flatMap.mpr ⟨name, hname, ?_⟩
    obtain hliteral | ⟨hdash, hliteral⟩ := hliteral
    · have hfold := afterLiteral_eq_some hliteral
      have hrest : folded (ch '-' :: rest) = (ch '-').val :: folded rest := rfl
      rw [hrest, hfold]
      exact List.mem_cons.mpr (.inl (by simp [folded]))
    · obtain ⟨more, rfl⟩ := List.head?_eq_some_iff.mp hdash
      have hfold := afterLiteral_eq_some hliteral
      have hrest : folded (ch '-' :: ch '-' :: more) = (ch '-').val :: (ch '-').val :: folded more := rfl
      rw [hrest, show folded more = _ from hfold]
      exact List.mem_cons.mpr (.inr (List.mem_singleton.mpr (by simp [folded])))

theorem flag_not_secret (table : WordTable) {s : Str} (h : isSecretFlag s = true) :
    isProbableSecret table s = false := by
  have hmem := isSecretFlag_folded h
  have hclean : ∀ spelling ∈ flagSpellings, (ch 'b').val ∉ spelling ∧ (ch 'g').val ∉ spelling ∧
      ¬[(ch 's').val, (ch 'k').val] <:+: spelling ∧ (ch '=').val ∉ spelling ∧ (ch ':').val ∉ spelling := by
    decide +kernel
  obtain ⟨hb, hg, hsk, hequals, hcolon⟩ := hclean _ hmem
  rw [isProbableSecret, Bool.or_eq_false_iff]
  constructor
  · refine Bool.eq_false_iff.mpr fun hc => ?_
    obtain h | h | h := credentialFrom_folded hc
    · exact hb h
    · exact hg h
    · exact hsk h
  · refine Bool.eq_false_iff.mpr fun hc => ?_
    obtain h | h := (hasAssignment_folded hc).2
    · exact hequals h
    · exact hcolon h

/-! ## Placeholders are neither -/

/-- The text that replaces the secret number `index`. -/
def placeholderArg (index : Nat) : Str := redactedArg true index []

theorem redactedArg_true (index : Nat) (text : Str) : redactedArg true index text = placeholderArg index := rfl

theorem redactedArg_false (index : Nat) (text : Str) : redactedArg false index text = text := rfl

theorem placeholder_not_flag (index : Nat) : isSecretFlag (placeholderArg index) = false := rfl

/-- The characters that end a placeholder. -/
theorem placeholder_end (index : Nat) : ∀ n ∈ folded (natRepr index ++ u "\x7d"), n < 58 ∨ n = 125 := by
  intro n hn
  obtain ⟨c, hc, rfl⟩ := List.mem_map.mp hn
  obtain hc | hc := List.mem_append.mp hc
  · have hdigit := natRepr_digits index c hc
    simp only [isDigit, Bool.and_eq_true, decide_eq_true_eq] at hdigit
    refine .inl ?_
    have hupper : isUpperAlpha c = false := by
      simp only [isUpperAlpha, Bool.and_eq_false_iff, decide_eq_false_iff_not]
      omega
    rw [foldChar, hupper]
    simp only [Bool.false_eq_true, if_false]
    split_ifs <;> omega
  · obtain rfl := List.mem_singleton.mp hc
    exact .inr (by decide)

theorem folded_placeholder (index : Nat) :
    folded (placeholderArg index) =
      folded (u "$\x7benv:REDACTED_SECRET_") ++ folded (natRepr index ++ u "\x7d") := by
  rw [placeholderArg, redactedArg, if_pos rfl, folded, folded, folded, List.append_assoc, List.map_append]

theorem letter_not_in_placeholder (index : Nat) {letter : Nat} (hlow : 97 ≤ letter) (hhigh : letter ≤ 122)
    (hfront : letter ∉ folded (u "$\x7benv:REDACTED_SECRET_")) : letter ∉ folded (placeholderArg index) := by
  rw [folded_placeholder, List.mem_append, not_or]
  refine ⟨hfront, fun hmem => ?_⟩
  have hend := placeholder_end index letter hmem
  omega

theorem hasAssignment_placeholder (index : Nat) : hasAssignment (placeholderArg index) = false := by
  have hunfold : hasAssignment (placeholderArg index) = hasAssignment (natRepr index ++ u "\x7d") := rfl
  rw [hunfold]
  refine Bool.eq_false_iff.mpr fun h => ?_
  obtain ⟨⟨letter, hletter, hmem⟩, -⟩ := hasAssignment_folded h
  have hletters : ((u "tspa").all fun c => decide (97 ≤ c.val ∧ c.val ≤ 122)) = true := by decide
  have hrange : 97 ≤ letter.val ∧ letter.val ≤ 122 :=
    of_decide_eq_true (List.all_eq_true.mp hletters letter hletter)
  have hend := placeholder_end index _ hmem
  omega

theorem placeholder_not_secret (table : WordTable) (index : Nat) :
    isProbableSecret table (placeholderArg index) = false := by
  rw [isProbableSecret, hasAssignment_placeholder, Bool.or_false]
  refine Bool.eq_false_iff.mpr fun h => ?_
  obtain h | h | h := credentialFrom_folded h
  · exact letter_not_in_placeholder index (by decide) (by decide) (by decide) h
  · exact letter_not_in_placeholder index (by decide) (by decide) (by decide) h
  · have hk : (ch 'k').val ∈ folded (placeholderArg index) :=
      h.subset (List.mem_cons_of_mem _ List.mem_cons_self)
    exact letter_not_in_placeholder index (by decide) (by decide) (by decide) hk

/-! ## The loop -/

section Loop

variable (table : WordTable)

/-- The loop of `redact_host_args` over the texts of the arguments. -/
def redactTexts : Bool → Nat → List Str → List Str
  | _, _, [] => []
  | previousSecretFlag, index, text :: rest =>
    let redact := previousSecretFlag || isProbableSecret table text
    let value := redactedArg redact index text
    value :: redactTexts (isSecretFlag value) (if redact then index + 1 else index) rest

/-- No text that is a probable secret, or comes after a flag of the list, is kept at its position;
`after` is whether the first one comes after a flag. -/
def NothingKept : Bool → List Str → List Str → Prop
  | after, text :: texts, value :: values =>
    ((after || isProbableSecret table text) = true → value ≠ text) ∧ NothingKept (isSecretFlag text) texts values
  | _, _, _ => True

/-- Of two flags in a row, a further argument that is no probable secret does not follow the second;
and no value after a flag is the placeholder that replaces it. -/
def Guarded : Bool → Nat → List Str → Prop
  | _, _, [] => True
  | after, index, text :: rest =>
    (after = true → text ≠ placeholderArg index) ∧
      (after = true → isSecretFlag text = true → ∀ next ∈ rest.head?, isProbableSecret table next = true) ∧
        Guarded (isSecretFlag text) (if after || isProbableSecret table text then index + 1 else index) rest

variable {table}

theorem length_redactTexts (after : Bool) (index : Nat) (texts : List Str) :
    (redactTexts table after index texts).length = texts.length := by
  induction texts generalizing after index with
  | nil => rfl
  | cons text rest ih => rw [redactTexts, List.length_cons, List.length_cons, ih]

/-- What is kept is no probable secret. -/
theorem redactTexts_not_secret (after : Bool) (index : Nat) (texts : List Str) :
    ∀ value ∈ redactTexts table after index texts, isProbableSecret table value = false := by
  induction texts generalizing after index with
  | nil => exact List.forall_mem_nil _
  | cons text rest ih =>
    refine List.forall_mem_cons.mpr ⟨?_, ih _ _⟩
    cases hredact : after || isProbableSecret table text with
    | true => exact placeholder_not_secret table index
    | false => exact (Bool.or_eq_false_iff.mp hredact).2

/-- A probable secret is replaced whatever came before it. -/
theorem redactTexts_of_secret {text : Str} (h : isProbableSecret table text = true) (after : Bool) (index : Nat)
    (rest : List Str) : redactTexts table after index (text :: rest) = redactTexts table true index (text :: rest) := by
  rw [redactTexts, redactTexts, h, Bool.or_true, Bool.or_true]

theorem nothingKept_iff (after : Bool) (index : Nat) (texts : List Str) :
    NothingKept table after texts (redactTexts table after index texts) ↔ Guarded table after index texts := by
  induction texts generalizing after index with
  | nil => exact Iff.rfl
  | cons text rest ih =>
    rw [redactTexts, NothingKept, Guarded]
    cases after with
    | false =>
      cases hsecret : isProbableSecret table text with
      | false => simpa [redactedArg_false] using ih (isSecretFlag text) index
      | true =>
        have hne : placeholderArg index ≠ text := by
          rintro rfl
          exact Bool.false_ne_true ((placeholder_not_secret table index).symm.trans hsecret)
        have hflag : isSecretFlag text = false := by
          refine Bool.eq_false_iff.mpr fun hf => ?_
          exact Bool.false_ne_true ((flag_not_secret table hf).symm.trans hsecret)
        simpa [redactedArg_true, placeholder_not_flag, hflag, hne] using ih false (index + 1)
    | true =>
      simp only [Bool.true_or, redactedArg_true, placeholder_not_flag, if_true, forall_const]
      refine and_congr ne_comm ?_
      cases hflag : isSecretFlag text with
      | false => simpa using ih false (index + 1)
      | true =>
        -- the second flag is replaced, and the loop takes the argument behind it for a plain one
        cases rest with
        | nil => simp [NothingKept, Guarded]
        | cons next more =>
          cases hnext : isProbableSecret table next with
          | true =>
            rw [redactTexts_of_secret hnext]
            simpa [hnext] using ih true (index + 1)
          | false => simp [redactTexts, NothingKept, redactedArg_false, hnext]

end Loop

/-! ## The transport accepts what is kept -/

/-- Values that are no probable secrets are not rejected as such. -/
theorem rejectSecretArguments_not_secret {table : WordTable} {previous : Option Str} {values : List Str}
    (h : ∀ value ∈ values, isProbableSecret table value = false) :
    rejectSecretArguments table previous values ≠ .error .probableSecret := by
  induction values generalizing previous with
  | nil =>
    intro hc
    cases hc
  | cons value rest ih =>
    obtain ⟨hvalue, hrest⟩ := List.forall_mem_cons.mp h
    unfold rejectSecretArguments
    split_ifs with hlines hsecret hflag
    · intro hc
      cases hc
    · exact absurd hsecret (Bool.eq_false_iff.mp hvalue)
    · intro hc
      cases hc
    · exact ih hrest

/-- A list without probable secrets is rejected as one only for the command. -/
theorem checkArguments_secret_iff {table : WordTable} {command : Str} {args : List Str}
    (h : ∀ value ∈ args, isProbableSecret table value = false) :
    checkArguments table command args = .error .probableSecret ↔
      isMultiLine command = false ∧ isProbableSecret table command = true := by
  rw [checkArguments, rejectSecretArguments]
  cases hlines : isMultiLine command with
  | true => simp
  | false =>
    cases hsecret : isProbableSecret table command with
    | true => simp
    | false =>
      have hrest : rejectSecretArguments table (some command) args ≠ .error .probableSecret :=
        rejectSecretArguments_not_secret h
      simpa using hrest

/-! ## Host arguments -/

/-- The readers' layer has the patterns of this module. -/
structure Layer.HasPatterns (layer : Layer) (table : WordTable) : Prop where
  probableSecret : layer.probableSecret = isProbableSecret table
  secretFlag : layer.secretFlag = isSecretFlag

theorem redactFrom_eq_ok {layer : Layer} {table : WordTable} (hlayer : layer.HasPatterns table) {server : Str}
    {values : List HostValue} {after : Bool} {index : Nat} {changes : Changes} {output : List Str}
    (h : redactFrom layer server after index values = .ok (changes, output)) :
    ∃ texts, values.mapM layer.text = .ok texts ∧ output = redactTexts table after index texts := by
  induction values generalizing after index changes output with
  | nil =>
    obtain rfl := (Prod.mk.inj (Except.ok.inj h)).2
    exact ⟨[], rfl, rfl⟩
  | cons raw rest ih =>
    obtain ⟨text, htext, h⟩ := Failure.bind_ok.mp h
    obtain ⟨change, -, h⟩ := Failure.bind_ok.mp h
    obtain ⟨⟨more, kept⟩, hrest, h⟩ := Failure.bind_ok.mp h
    rw [hlayer.probableSecret, hlayer.secretFlag] at hrest
    obtain ⟨texts, htexts, hkept⟩ := ih hrest
    obtain rfl := (Prod.mk.inj (Except.ok.inj h)).2
    refine ⟨text :: texts, ?_, ?_⟩
    · rw [List.mapM_cons, raising_eq_ok.mp htext, htexts]
      rfl
    · rw [hkept, hlayer.probableSecret]
      rfl

/-- The output is as long as the input, it keeps no flagged text and no transport takes it for a
probable secret, if and only if the list is guarded and the command is none either. -/
theorem redactHostArgs_safe_iff {layer : Layer} {table : WordTable} (hlayer : layer.HasPatterns table)
    {server : Str} {values : List HostValue} {changes : Changes} {output : List Str}
    (h : redactHostArgs layer values server = .ok (changes, output)) :
    ∃ texts, values.mapM layer.text = .ok texts ∧ output.length = texts.length ∧ ∀ command,
      (NothingKept table false texts output ∧ checkArguments table command output ≠ .error .probableSecret) ↔
        (Guarded table false 1 texts ∧
          ¬(isMultiLine command = false ∧ isProbableSecret table command = true)) := by
  obtain ⟨texts, htexts, rfl⟩ := redactFrom_eq_ok hlayer h
  refine ⟨texts, htexts, length_redactTexts _ _ _, fun command => ?_⟩
  exact and_congr (nothingKept_iff false 1 texts)
    (not_congr (checkArguments_secret_iff (redactTexts_not_secret _ _ _)))

/-! ## Two flags in a row -/

/-- The table with no word characters beyond ASCII. -/
def asciiTable : WordTable where
  isWord c := isAlnum c || decide (c = ch '_')
  ascii _ _ := rfl

/-- A layer that reads strings and has the patterns. -/
def patternLayer : Layer :=
  { sampleLayer with
    text := fun | .str s => .ok s | _ => .ok []
    probableSecret := isProbableSecret asciiTable
    secretFlag := isSecretFlag }

def flaggedArgs (texts : List String) : List HostValue := texts.map fun text => .str (u text)

theorem redactHostArgs_safe_sample : ∃ changes output,
    redactHostArgs patternLayer (flaggedArgs ["--token", "hunter2"]) (u "server") = .ok (changes, output) ∧
      ∃ texts, (flaggedArgs ["--token", "hunter2"]).mapM patternLayer.text = .ok texts ∧
        output.length = texts.length ∧ ∀ command,
          (NothingKept asciiTable false texts output ∧
            checkArguments asciiTable command output ≠ .error .probableSecret) ↔
          (Guarded asciiTable false 1 texts ∧
            ¬(isMultiLine command = false ∧ isProbableSecret asciiTable command = true)) := by
  have h : redactHostArgs patternLayer (flaggedArgs ["--token", "hunter2"]) (u "server") =
      .ok ([redaction (u "server")], [u "--token", placeholderArg 1]) := rfl
  exact ⟨_, _, h, redactHostArgs_safe_iff ⟨rfl, rfl⟩ h⟩

/-- Behind `--token` the flag `--password` is replaced, and the value of `--password` is kept. -/
theorem flagged_value_kept : ∃ changes,
    redactHostArgs patternLayer (flaggedArgs ["--token", "--password", "hunter2"]) (u "server") =
        .ok (changes, [u "--token", placeholderArg 1, u "hunter2"]) ∧
      isSecretFlag (u "--password") = true ∧
      ¬NothingKept asciiTable false [u "--token", u "--password", u "hunter2"]
        [u "--token", placeholderArg 1, u "hunter2"] := by
  refine ⟨_, rfl, by decide, fun h => ?_⟩
  have hflag : isSecretFlag (u "--password") = true := by decide
  exact h.2.2.1 (by rw [hflag]; rfl) rfl

end McpTrust.Portability
