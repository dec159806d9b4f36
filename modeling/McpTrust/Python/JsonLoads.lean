import McpTrust.Python.JsonDecode
import McpTrust.Python.JsonErrors

/-! # `json.loads` without keyword arguments

A repeated member name keeps its first place and its last value.
-/

namespace Python

set_option autoImplicit false

def dictOfPairs (pairs : Dict) : Dict := pairs.foldl (fun d kv => d.set kv.1 kv.2) []

def defaultHooks : Hooks where
  parseInt text := (pyInt text).map .int
  parseFloat text := .ok (.float (readFloat text))
  parseConstant text :=
    .ok (.float (if text = u "NaN" then .nan else .inf (decide (text.head? = some (ch '-')))))
  objectPairs pairs := .ok (.obj (dictOfPairs pairs))

def jsonLoads (interp : Interpreter) (text : Str) : Except PyErr Json :=
  loads defaultHooks interp.recursionLimit text

end Python
