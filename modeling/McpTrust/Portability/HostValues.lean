import McpTrust.Python.Lines
import McpTrust.Python.PyFloat
import McpTrust.Python.Unicode
import McpTrust.Portability.Models
import McpTrust.Corpus.ManifestJson

/-! # Host values

What `tomllib` and `json` return, the conversions the readers apply to it, and the
placeholders they recognise.
-/

namespace McpTrust.Portability

set_option autoImplicit false

open Python

/-- A parsed value; `moment` is a date or time of TOML. -/
inductive HostValue
  | null
  | bool (b : Bool)
  | int (n : ℤ)
  | float (x : PyFloat)
  | str (s : Str)
  | arr (items : List HostValue)
  | obj (fields : List (Str × HostValue))
  | moment (text : Str)

abbrev HostDict := List (Str × HostValue)

namespace HostValue

/-- `bool(value)`. -/
def truthy : HostValue → Bool
  | .null => false
  | .bool b => b
  | .int n => decide (n ≠ 0)
  | .float x => decide (x.value? ≠ some 0)
  | .str s => decide (s ≠ [])
  | .arr items => !items.isEmpty
  | .obj fields => !fields.isEmpty
  | .moment _ => true

/-- `value or []`, to be iterated: the items, the characters or the keys. -/
def iterate (value : HostValue) : Except PyErr (List HostValue) :=
  if value.truthy then
    match value with
    | .arr items => .ok items
    | .str s => .ok (s.map fun c => .str [c])
    | .obj fields => .ok (fields.map fun kv => .str kv.1)
    | _ => .error .typeError
  else .ok []

/-- `value or {}`, with `none` where it is no dictionary. -/
def table (value : HostValue) : Option HostDict :=
  if value.truthy then
    match value with
    | .obj fields => some fields
    | _ => none
  else some []

def isStr : HostValue → Bool
  | .str _ => true
  | _ => false

end HostValue

namespace HostDict

def keys (d : HostDict) : List Str := d.map Prod.fst

def lookup (d : HostDict) (key : String) : Option HostValue :=
  (d.find? fun kv => decide (kv.1 = u key)).map Prod.snd

/-- `d.get(key)`. -/
def get (d : HostDict) (key : String) : HostValue := (lookup d key).getD .null

def KeyBefore (p q : Str × HostValue) : Prop := strLe p.1 q.1 = true

instance (p q : Str × HostValue) : Decidable (KeyBefore p q) := inferInstanceAs (Decidable (strLe p.1 q.1 = true))

/-- `sorted(d.items())`. -/
def sortedItems (d : HostDict) : HostDict := d.insertionSort KeyBefore

/-- `sorted(set(d) - known)`. -/
def unknownKeys (d : HostDict) (known : List String) : List Str :=
  sortedSet ((keys d).filter fun key => decide (key ∉ known.map u))

end HostDict

/-! ## Placeholders -/

def isNameStart (c : CodePoint) : Bool := isLowerAlpha c || isUpperAlpha c || decide (c = ch '_')

def isNamePart (c : CodePoint) : Bool := isAlnum c || decide (c = ch '_')

/-- `[A-Za-z_][A-Za-z0-9_]*`, with `extra` the letters that ignoring case adds. -/
def isName (extra : CodePoint → Bool) : Str → Bool
  | [] => false
  | first :: rest => (isNameStart first || extra first) && rest.all fun c => isNamePart c || extra c

def after (front text : Str) : Option Str := if front.isPrefixOf text then some (text.drop front.length) else none

/-- The text between `${` and the closing brace at the end. -/
def braced (text : Str) : Option Str :=
  (after (u "$\x7b") text).bind fun rest => if rest.getLast? = some (ch '}') then some rest.dropLast else none

/-- `_ENV_EXPANSION.fullmatch`: the name. -/
def envExpansion (text : Str) : Option Str :=
  (braced text).bind fun body =>
    let name := (after (u "env:") body).getD body
    if isName (fun _ => false) name then some name else none

/-- `_INPUT_EXPANSION.fullmatch`: the label. -/
def inputExpansion (text : Str) : Option Str :=
  (braced text).bind fun body =>
    (after (u "input:") body).bind fun label => if label ≠ [] ∧ ch '}' ∉ label then some label else none

/-- The letters beyond ASCII that `re.I` adds to `[A-Za-z]`. -/
def foldsToLetter (c : CodePoint) : Bool := decide (c.val ∈ [0x130, 0x131, 0x17F, 0x212A])

/-- `_BEARER_ENV.fullmatch`: the name. -/
def bearerEnv (text : Str) : Option Str :=
  if lower (text.take 6) = u "bearer" then
    let rest := text.drop 6
    let expansion := rest.dropWhile isWhitespace
    if rest.length = expansion.length then none
    else
      (braced expansion).bind fun body =>
        let name := if lower (body.take 4) = u "env:" then body.drop 4 else body
        if isName foldsToLetter name then some name else none
  else none

inductive HostReference
  | environment (name : Str)
  | input (label : Str)
  | literal
  deriving DecidableEq

/-- What `source_from_host_value` sees of a value. -/
def hostReference : HostValue → HostReference
  | .str text =>
    match envExpansion text with
    | some name => .environment name
    | none =>
      match inputExpansion text with
      | some label => .input label
      | none => .literal
  | _ => .literal

/-- `portable_key`. -/
def portableKey (value : Str) (fallback : String) : Str :=
  let isLow := fun c => decide (c = ch '_')
  let replaced := upperAscii (value.map fun c => if isNamePart c then c else ch '_')
  let stripped := ((replaced.dropWhile isLow).reverse.dropWhile isLow).reverse
  let normalized := if stripped = [] then u fallback else stripped
  let named := if (normalized.take 1).any isDigit then u fallback ++ ch '_' :: normalized else normalized
  named.take 128

/-- `text.split()`. -/
def splitWordsFrom (word : Str) : Str → List Str
  | [] => if word = [] then [] else [word.reverse]
  | c :: rest =>
    if isWhitespace c then if word = [] then splitWordsFrom [] rest else word.reverse :: splitWordsFrom [] rest
    else splitWordsFrom (c :: word) rest

def splitWords (text : Str) : List Str := splitWordsFrom [] text

/-- `x / 1000`. -/
def thousandth (x : PyFloat) : PyFloat :=
  match x with
  | .finite q => .ofRat (q.val / 1000)
  | x => x

example : hostReference (.str (u "$\x7benv:API_KEY\x7d")) = .environment (u "API_KEY") := by decide +kernel
example : hostReference (.str (u "$\x7binput:api key\x7d")) = .input (u "api key") := by decide +kernel
example : bearerEnv (u "bearer  $\x7bTOKEN\x7d") = some (u "TOKEN") := by decide +kernel

end McpTrust.Portability
