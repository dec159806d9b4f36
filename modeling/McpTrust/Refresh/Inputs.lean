import McpTrust.Python.JsonDecode
import McpTrust.Python.JsonEncode
import McpTrust.Python.Utf8
import McpTrust.Python.Sha256
import McpTrust.Failure

/-! # JSON inputs of the grade refresh

`load_json` bounds the nesting of the text and refuses a repeated member name;
the digests of documents are taken over `canonical_bytes`.
-/

namespace McpTrust.Refresh

set_option autoImplicit false

open Python

def refreshError (message : String) : PyErr := .app "GradeRefreshError" message

/-- The loop of `_check_json_nesting` from a depth, inside a string or not. -/
def nestingWithin (limit : Nat) : Nat → Bool → Bool → Str → Bool
  | _, _, _, [] => true
  | depth, true, true, _ :: rest => nestingWithin limit depth true false rest
  | depth, true, false, c :: rest =>
    if c = ch '\\' then nestingWithin limit depth true true rest
    else nestingWithin limit depth (decide (c ≠ ch '"')) false rest
  | depth, false, escaped, c :: rest =>
    if c = ch '"' then nestingWithin limit depth true escaped rest
    else if c = ch '[' ∨ c = ch '\x7b' then
      if limit < depth + 1 then false else nestingWithin limit (depth + 1) false escaped rest
    else if c = ch ']' ∨ c = ch '\x7d' then nestingWithin limit (depth - 1) false escaped rest
    else nestingWithin limit depth false escaped rest

def checkJsonNesting (text : Str) : Except PyErr Unit :=
  if nestingWithin 1000 0 false false text then .ok () else .error .recursionError

/-- `_reject_duplicate_keys(pairs)`. -/
def rejectDuplicateKeys (pairs : Dict) : Except PyErr Json :=
  if (Dict.keys pairs).Nodup then .ok (.obj pairs) else .error (refreshError "duplicate JSON key")

def inputHooks : Hooks where
  parseInt text := (pyInt text).map .int
  parseFloat text := .ok (.float (readFloat text))
  parseConstant text :=
    .ok (.float (if text = u "NaN" then .nan else .inf (decide (text.head? = some (ch '-')))))
  objectPairs := rejectDuplicateKeys

/-- `except (OSError, UnicodeError, json.JSONDecodeError, RecursionError)`. -/
def isUnreadable (e : PyErr) : Bool :=
  decide (e = .osError) || decide (e = .unicodeError) || decide (e = .jsonDecodeError) ||
    decide (e = .recursionError)

def readText (file : Option Bytes) : Except PyErr Str :=
  match file with
  | some content => decodeUtf8 content
  | none => .error .osError

/-- `load_json(path)`; a file that cannot be read is `none`. -/
def loadJson (interp : Interpreter) (file : Option Bytes) : Except PyErr Json :=
  catching
    (do
      let text ← readText file
      let _ ← checkJsonNesting text
      loads inputHooks interp.recursionLimit text)
    isUnreadable (.error (refreshError "unreadable JSON input"))

/-- `json.dumps(payload, sort_keys=True, separators=(",", ":"), ensure_ascii=True)`. -/
def asciiStyle : Style where
  ensureAscii := true
  indent := none
  itemPad := false
  keyPad := false
  sortKeys := true

def canonicalBytes (payload : Json) : Bytes :=
  (dumps asciiStyle payload ++ [ch '\n']).flatMap encodeCodePoint

def digestBytes (content : Bytes) : Str := u "sha256:" ++ sha256Hex content

/-- `bool(value)`. -/
def truthy : Json → Bool
  | .null => false
  | .bool b => b
  | .int n => decide (n ≠ 0)
  | .float x => decide (x.value? ≠ some 0)
  | .str s => decide (s ≠ [])
  | .arr items => !items.isEmpty
  | .obj fields => !fields.isEmpty

/-- `a or b`. -/
def orElse (a b : Json) : Json := if truthy a then a else b

end McpTrust.Refresh
