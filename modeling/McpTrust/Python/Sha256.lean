import McpTrust.Python.Numeral
import McpTrust.Python.Utf8
import McpTrust.Python.JsonContext

/-! # SHA-256

Words are naturals below `2 ^ 32`, which the kernel computes with directly.
-/

namespace Python

set_option autoImplicit false

namespace Sha256

def word (n : Nat) : Nat := n % 2 ^ 32

def rotr (k x : Nat) : Nat := (x >>> k) ||| word (x <<< (32 - k))

def bigSigma0 (x : Nat) : Nat := rotr 2 x ^^^ rotr 13 x ^^^ rotr 22 x

def bigSigma1 (x : Nat) : Nat := rotr 6 x ^^^ rotr 11 x ^^^ rotr 25 x

def smallSigma0 (x : Nat) : Nat := rotr 7 x ^^^ rotr 18 x ^^^ (x >>> 3)

def smallSigma1 (x : Nat) : Nat := rotr 17 x ^^^ rotr 19 x ^^^ (x >>> 10)

def choose (x y z : Nat) : Nat := (x &&& y) ^^^ ((2 ^ 32 - 1 - x) &&& z)

def majority (x y z : Nat) : Nat := (x &&& y) ^^^ (x &&& z) ^^^ (y &&& z)

def roundConstants : List Nat :=
  [0x428a2f98, 0x71374491, 0xb5c0fbcf, 0xe9b5dba5, 0x3956c25b, 0x59f111f1, 0x923f82a4, 0xab1c5ed5,
   0xd807aa98, 0x12835b01, 0x243185be, 0x550c7dc3, 0x72be5d74, 0x80deb1fe, 0x9bdc06a7, 0xc19bf174,
   0xe49b69c1, 0xefbe4786, 0x0fc19dc6, 0x240ca1cc, 0x2de92c6f, 0x4a7484aa, 0x5cb0a9dc, 0x76f988da,
   0x983e5152, 0xa831c66d, 0xb00327c8, 0xbf597fc7, 0xc6e00bf3, 0xd5a79147, 0x06ca6351, 0x14292967,
   0x27b70a85, 0x2e1b2138, 0x4d2c6dfc, 0x53380d13, 0x650a7354, 0x766a0abb, 0x81c2c92e, 0x92722c85,
   0xa2bfe8a1, 0xa81a664b, 0xc24b8b70, 0xc76c51a3, 0xd192e819, 0xd6990624, 0xf40e3585, 0x106aa070,
   0x19a4c116, 0x1e376c08, 0x2748774c, 0x34b0bcb5, 0x391c0cb3, 0x4ed8aa4a, 0x5b9cca4f, 0x682e6ff3,
   0x748f82ee, 0x78a5636f, 0x84c87814, 0x8cc70208, 0x90befffa, 0xa4506ceb, 0xbef9a3f7, 0xc67178f2]

def initialState : List Nat :=
  [0x6a09e667, 0xbb67ae85, 0x3c6ef372, 0xa54ff53a, 0x510e527f, 0x9b05688c, 0x1f83d9ab, 0x5be0cd19]

/-- `f n`, with `n` evaluated first when the kernel computes. -/
def strict {α : Type} (n : Nat) (f : Nat → α) : α :=
  match n with
  | 0 => f 0
  | k + 1 => f (k + 1)

theorem strict_eq {α : Type} (n : Nat) (f : Nat → α) : strict n f = f n := by
  cases n <;> rfl

/-- One round; the state is `[a, b, c, d, e, f, g, h]`. -/
def round (state : List Nat) (k w : Nat) : List Nat :=
  match state with
  | [a, b, c, d, e, f, g, h] =>
    strict (h + bigSigma1 e + choose e f g + k + w) fun t =>
    strict (word (t + bigSigma0 a + majority a b c)) fun a' =>
    strict (word (d + t)) fun e' => [a', a, b, c, e', e, f, g]
  | _ => state

/-- The rounds over the schedule; `window` holds its next sixteen words. -/
def rounds : List Nat → List Nat → List Nat → List Nat
  | [], _, state => state
  | k :: ks, window, state =>
    match window with
    | w :: rest =>
      strict (word (smallSigma1 (rest.getD 13 0) + rest.getD 8 0 + smallSigma0 (rest.getD 0 0) + w))
        fun next => rounds ks (rest ++ [next]) (round state k w)
    | [] => state

def compress (state block : List Nat) : List Nat :=
  List.zipWith (fun x y => word (x + y)) state (rounds roundConstants block state)

def words : Bytes → List Nat
  | a :: b :: c :: d :: rest =>
    (((a.toNat * 256 + b.toNat) * 256 + c.toNat) * 256 + d.toNat) :: words rest
  | _ => []

def blocks : Nat → List Nat → List (List Nat)
  | 0, _ => []
  | fuel + 1, ws => if ws.isEmpty then [] else ws.take 16 :: blocks fuel (ws.drop 16)

def bigEndian (bytes n : Nat) : Bytes :=
  (List.range bytes).map fun i => UInt8.ofNat (n >>> (8 * (bytes - 1 - i)))

/-- The message, a one bit, zeros up to eight bytes short of a block, and the bit length. -/
def pad (message : Bytes) : Bytes :=
  message ++ 0x80 :: List.replicate ((119 - message.length % 64) % 64) 0 ++
    bigEndian 8 (8 * message.length)

theorem length_round (state : List Nat) (k w : Nat) : (round state k w).length = state.length := by
  unfold round
  split
  · simp only [strict_eq, List.length_cons]
  · rfl

theorem length_rounds (ks window state : List Nat) :
    (rounds ks window state).length = state.length := by
  induction ks generalizing window state with
  | nil => rfl
  | cons k ks ih =>
    cases window with
    | nil => rfl
    | cons w rest => rw [rounds, strict_eq, ih, length_round]

theorem length_compress (state block : List Nat) : (compress state block).length = state.length := by
  rw [compress, List.length_zipWith, length_rounds, min_self]

theorem length_foldl_compress (bs : List (List Nat)) (state : List Nat) :
    (bs.foldl compress state).length = state.length := by
  induction bs generalizing state with
  | nil => rfl
  | cons b bs ih => rw [List.foldl_cons, ih, length_compress]

end Sha256

open Sha256 in
/-- `hashlib.sha256(message).digest()`. -/
def sha256 (message : Bytes) : Bytes :=
  let ws := words (pad message)
  ((blocks ws.length ws).foldl compress initialState).flatMap (bigEndian 4)

/-- `hashlib.sha256(message).hexdigest()`. -/
def sha256Hex (message : Bytes) : Str := hexBytes (sha256 message)

theorem length_sha256 (message : Bytes) : (sha256 message).length = 32 := by
  have hword : ∀ state : List Nat, (state.flatMap (Sha256.bigEndian 4)).length = 4 * state.length := by
    intro state
    induction state with
    | nil => rfl
    | cons x xs ih =>
      rw [List.flatMap_cons, List.length_append, ih, List.length_cons]
      simp [Sha256.bigEndian]
      omega
  rw [sha256, hword, Sha256.length_foldl_compress]
  rfl

theorem length_sha256Hex (message : Bytes) : (sha256Hex message).length = 64 := by
  rw [sha256Hex, length_hexBytes, length_sha256]

theorem sha256Hex_isHexLower (message : Bytes) : ∀ c ∈ sha256Hex message, isHexLower c = true :=
  hexBytes_isHexLower _

example : sha256Hex (utf8 "abc") =
    u "ba7816bf8f01cfea414140de5dae2223b00361a396177a9cb410ff61f20015ad" := by decide +kernel

end Python
