import McpTrust.Python.Sha256
import McpTrust.Refresh.Extraction

/-! # SHA-1

The padding and the schedule's words are those of SHA-256.
-/

namespace Python

set_option autoImplicit false

namespace Sha1

open Sha256

def rotl (k x : Nat) : Nat := word (x <<< k) ||| (x >>> (32 - k))

def parity (x y z : Nat) : Nat := x ^^^ y ^^^ z

def initialState : List Nat := [0x67452301, 0xefcdab89, 0x98badcfe, 0x10325476, 0xc3d2e1f0]

/-- The function and the constant of round `i`. -/
def mix (i b c d : Nat) : Nat :=
  if i < 20 then choose b c d + 0x5a827999
  else if i < 40 then parity b c d + 0x6ed9eba1
  else if i < 60 then majority b c d + 0x8f1bbcdc
  else parity b c d + 0xca62c1d6

/-- One round; the state is `[a, b, c, d, e]`. -/
def round (state : List Nat) (i w : Nat) : List Nat :=
  match state with
  | [a, b, c, d, e] =>
    strict (word (rotl 5 a + mix i b c d + e + w)) fun a' => strict (rotl 30 b) fun c' => [a', a, c', c, d]
  | _ => state

/-- The rounds over the schedule; `window` holds its next sixteen words. -/
def rounds : List Nat → List Nat → List Nat → List Nat
  | [], _, state => state
  | i :: is, window, state =>
    match window with
    | w :: rest =>
      strict (rotl 1 (rest.getD 12 0 ^^^ rest.getD 7 0 ^^^ rest.getD 1 0 ^^^ w))
        fun next => rounds is (rest ++ [next]) (round state i w)
    | [] => state

def compress (state block : List Nat) : List Nat :=
  List.zipWith (fun x y => word (x + y)) state (rounds (List.range 80) block state)

end Sha1

open Sha256 in
/-- `hashlib.sha1(message).digest()`. -/
def sha1 (message : Bytes) : Bytes :=
  let ws := words (pad message)
  ((blocks ws.length ws).foldl Sha1.compress Sha1.initialState).flatMap (bigEndian 4)

/-- `hashlib.sha1(message).hexdigest()`. -/
def sha1Hex (message : Bytes) : Str := hexBytes (sha1 message)

theorem sha1Hex_isHexLower (message : Bytes) : ∀ c ∈ sha1Hex message, isHexLower c = true :=
  hexBytes_isHexLower _

example : sha1Hex (utf8 "abc") = u "a9993e364706816aba3e25717850c26c9cd0d89d" := by decide +kernel

end Python
