import McpTrust.Python.Json
import McpTrust.Python.DictUpdate

/-! # `json.loads`

A recursive-descent scanner over code points. `Hooks` are the keyword arguments
of `loads`; the recursion limit bounds how many containers may be open.
-/

namespace Python

set_option autoImplicit false

structure Hooks where
  parseInt : Str → Except PyErr Json
  parseFloat : Str → Except PyErr Json
  parseConstant : Str → Except PyErr Json
  objectPairs : Dict → Except PyErr Json

/-- The interpreter's limit on nested C calls, far above any fixed format's depth. -/
structure Interpreter where
  recursionLimit : Nat
  deep : 64 ≤ recursionLimit

/-- The limit an interpreter starts with. -/
theorem initialLimit_deep : 64 ≤ 1000 := by decide

def isSpace (c : CodePoint) : Bool :=
  decide (c.val = 32) || decide (c.val = 10) || decide (c.val = 13) || decide (c.val = 9)

def skipSpace (s : Str) : Str := s.dropWhile isSpace

/-! ## Strings -/

def codePoint (n : Nat) : CodePoint := ⟨n % 0x110000, Nat.mod_lt _ (by decide)⟩

def hex4 : Str → Option (Nat × Str)
  | a :: b :: c :: d :: rest =>
    if isHex a && isHex b && isHex c && isHex d then
      some (((hexValue a * 16 + hexValue b) * 16 + hexValue c) * 16 + hexValue d, rest)
    else none
  | _ => none

/-- The low surrogate escaped at the head of the text. -/
def lowEscape : Str → Option (Nat × Str)
  | a :: b :: rest =>
    if a = ch '\\' ∧ b = ch 'u' then
      (hex4 rest).filter fun p => decide (0xDC00 ≤ p.1 ∧ p.1 ≤ 0xDFFF)
    else none
  | _ => none

def simpleEscape (c : CodePoint) : Option CodePoint :=
  if c = ch '"' ∨ c = ch '\\' ∨ c = ch '/' then some c
  else if c = ch 'b' then some (codePoint 8)
  else if c = ch 'f' then some (codePoint 12)
  else if c = ch 'n' then some (codePoint 10)
  else if c = ch 'r' then some (codePoint 13)
  else if c = ch 't' then some (codePoint 9)
  else none

/-- What follows a backslash. An escaped high surrogate joins an escaped low one. -/
def readEscape : Str → Except PyErr (CodePoint × Str)
  | [] => .error .jsonDecodeError
  | e :: rest =>
    if e = ch 'u' then
      match hex4 rest with
      | none => .error .jsonDecodeError
      | some (high, rest) =>
        if 0xD800 ≤ high ∧ high ≤ 0xDBFF then
          match lowEscape rest with
          | some (low, rest) =>
            .ok (codePoint (0x10000 + (high - 0xD800) * 0x400 + (low - 0xDC00)), rest)
          | none => .ok (codePoint high, rest)
        else .ok (codePoint high, rest)
    else
      match simpleEscape e with
      | some c => .ok (c, rest)
      | none => .error .jsonDecodeError

/-- The rest of a string literal after its opening quote; control characters are refused. -/
def scanString : Nat → Str → Except PyErr (Str × Str)
  | 0, _ => .error .memoryError
  | _ + 1, [] => .error .jsonDecodeError
  | fuel + 1, c :: rest =>
    if c = ch '"' then .ok ([], rest)
    else if c = ch '\\' then do
      let (d, rest) ← readEscape rest
      let (s, rest) ← scanString fuel rest
      .ok (d :: s, rest)
    else if c.val < 32 then .error .jsonDecodeError
    else do
      let (s, rest) ← scanString fuel rest
      .ok (c :: s, rest)

/-! ## Scalars -/

def scanSign : Str → Str × Str
  | c :: rest => if c = ch '-' then ([c], rest) else ([], c :: rest)
  | [] => ([], [])

def scanInteger : Str → Option (Str × Str)
  | c :: rest =>
    if c = ch '0' then some ([c], rest)
    else if isDigit c then some (c :: rest.takeWhile isDigit, rest.dropWhile isDigit)
    else none
  | [] => none

def scanFraction : Str → Str × Str
  | c :: d :: rest =>
    if c = ch '.' ∧ isDigit d = true then
      (c :: d :: rest.takeWhile isDigit, rest.dropWhile isDigit)
    else ([], c :: d :: rest)
  | s => ([], s)

def scanExponent : Str → Str × Str
  | c :: rest =>
    if c = ch 'e' ∨ c = ch 'E' then
      let sign := rest.take 1 |>.filter fun d => decide (d = ch '+' ∨ d = ch '-')
      let digits := (rest.drop sign.length).takeWhile isDigit
      if digits = [] then ([], c :: rest)
      else (c :: sign ++ digits, rest.drop (sign.length + digits.length))
    else ([], c :: rest)
  | [] => ([], [])

/-- The sign, integer part, fraction and exponent of a number, and the text after it. -/
def scanNumber (s : Str) : Option (Str × Str × Str) := do
  let (sign, s) := scanSign s
  let (whole, s) ← scanInteger s
  let (fraction, s) := scanFraction s
  let (exponent, s) := scanExponent s
  some (sign ++ whole, fraction ++ exponent, s)

def stripPrefix (literal : String) (s : Str) : Option Str :=
  if (u literal).isPrefixOf s then some (s.drop (u literal).length) else none

def scanScalar (h : Hooks) (s : Str) : Except PyErr (Json × Str) :=
  match stripPrefix "null" s with
  | some rest => .ok (.null, rest)
  | none =>
  match stripPrefix "true" s with
  | some rest => .ok (.bool true, rest)
  | none =>
  match stripPrefix "false" s with
  | some rest => .ok (.bool false, rest)
  | none =>
  match ["NaN", "Infinity", "-Infinity"].findSome? fun name =>
    (stripPrefix name s).map fun rest => (name, rest) with
  | some (name, rest) => (h.parseConstant (u name)).map fun v => (v, rest)
  | none =>
  match scanNumber s with
  | none => .error .jsonDecodeError
  | some (integer, [], rest) => (h.parseInt integer).map fun v => (v, rest)
  | some (integer, tail, rest) => (h.parseFloat (integer ++ tail)).map fun v => (v, rest)

/-! ## Containers -/

mutual
def scanValue (h : Hooks) : Nat → Nat → Str → Except PyErr (Json × Str)
  | 0, _, _ => .error .memoryError
  | _ + 1, _, [] => .error .jsonDecodeError
  | fuel + 1, depth, c :: rest =>
    if c = ch '"' then (scanString fuel rest).map fun p => (.str p.1, p.2)
    else if c = ch '\x7b' then
      match depth with
      | 0 => .error .recursionError
      | depth + 1 => do
        let (fields, rest) ← scanMembers h fuel depth true (skipSpace rest)
        let v ← h.objectPairs fields
        .ok (v, rest)
    else if c = ch '[' then
      match depth with
      | 0 => .error .recursionError
      | depth + 1 => do
        let (items, rest) ← scanItems h fuel depth true (skipSpace rest)
        .ok (.arr items, rest)
    else scanScalar h (c :: rest)

/-- The items up to `]`; only at the start may there be none. -/
def scanItems (h : Hooks) : Nat → Nat → Bool → Str → Except PyErr (List Json × Str)
  | 0, _, _, _ => .error .memoryError
  | fuel + 1, depth, start, s =>
    if start = true ∧ s.head? = some (ch ']') then .ok ([], s.tail)
    else do
      let (v, rest) ← scanValue h fuel depth s
      match skipSpace rest with
      | [] => .error .jsonDecodeError
      | c :: rest =>
        if c = ch ']' then .ok ([v], rest)
        else if c = ch ',' then do
          let (vs, rest) ← scanItems h fuel depth false (skipSpace rest)
          .ok (v :: vs, rest)
        else .error .jsonDecodeError

/-- The members up to the closing brace. -/
def scanMembers (h : Hooks) : Nat → Nat → Bool → Str → Except PyErr (Dict × Str)
  | 0, _, _, _ => .error .memoryError
  | _ + 1, _, _, [] => .error .jsonDecodeError
  | fuel + 1, depth, start, c :: rest =>
    if start = true ∧ c = ch '\x7d' then .ok ([], rest)
    else if c = ch '"' then do
      let (key, rest) ← scanString fuel rest
      match skipSpace rest with
      | [] => .error .jsonDecodeError
      | c :: rest =>
        if c = ch ':' then do
          let (v, rest) ← scanValue h fuel depth (skipSpace rest)
          match skipSpace rest with
          | [] => .error .jsonDecodeError
          | c :: rest =>
            if c = ch '\x7d' then .ok ([(key, v)], rest)
            else if c = ch ',' then do
              let (fields, rest) ← scanMembers h fuel depth false (skipSpace rest)
              .ok ((key, v) :: fields, rest)
            else .error .jsonDecodeError
        else .error .jsonDecodeError
    else .error .jsonDecodeError
end

theorem scanValue_cons (h : Hooks) (fuel depth : Nat) (c : CodePoint) (rest : Str) :
    scanValue h (fuel + 1) depth (c :: rest) =
      if c = ch '"' then (scanString fuel rest).map fun p => (.str p.1, p.2)
      else if c = ch '\x7b' then
        match depth with
        | 0 => .error .recursionError
        | depth + 1 => do
          let (fields, rest) ← scanMembers h fuel depth true (skipSpace rest)
          let v ← h.objectPairs fields
          .ok (v, rest)
      else if c = ch '[' then
        match depth with
        | 0 => .error .recursionError
        | depth + 1 => do
          let (items, rest) ← scanItems h fuel depth true (skipSpace rest)
          .ok (.arr items, rest)
      else scanScalar h (c :: rest) := by
  rw [scanValue.eq_def]

/-- `json.loads(s)`. -/
def loads (h : Hooks) (limit : Nat) (s : Str) : Except PyErr Json :=
  if s.head? = some (codePoint 0xFEFF) then .error .jsonDecodeError
  else do
    let (v, rest) ← scanValue h (2 * s.length + 1) limit (skipSpace s)
    if skipSpace rest = [] then .ok v else .error .jsonDecodeError

/-! ## What holds of every node of a decoded value -/

/-- `P` holds of every value the hooks and the scanner can build from parts that satisfy it. -/
structure Hooks.Ensures (h : Hooks) (P : Json → Prop) : Prop where
  null : P .null
  bool : ∀ b, P (.bool b)
  str : ∀ s, P (.str s)
  arr : ∀ items, P (.arr items)
  int : ∀ text v, h.parseInt text = .ok v → ∀ w ∈ v.walk, P w
  float : ∀ text v, h.parseFloat text = .ok v → ∀ w ∈ v.walk, P w
  constant : ∀ text v, h.parseConstant text = .ok v → ∀ w ∈ v.walk, P w
  obj : ∀ fields v, h.objectPairs fields = .ok v → (∀ kv ∈ fields, ∀ w ∈ kv.2.walk, P w) →
    ∀ w ∈ v.walk, P w

variable {h : Hooks} {P : Json → Prop}

theorem map_pair_eq_ok {α : Type} {x : Except PyErr α} {rest : Str} {p : α × Str} :
    (x.map fun v => (v, rest)) = .ok p ↔ x = .ok p.1 ∧ p.2 = rest := by
  obtain ⟨a, r⟩ := p
  cases x <;> simp [Except.map, eq_comm]

theorem scanScalar_nodes (hP : h.Ensures P) {s : Str} {p : Json × Str}
    (hscan : scanScalar h s = .ok p) : ∀ w ∈ p.1.walk, P w := by
  have hleaf : ∀ v, v.walk = [v] → P v → ∀ w ∈ v.walk, P w := by
    intro v hv hPv w hw
    rw [hv, List.mem_singleton] at hw
    exact hw ▸ hPv
  unfold scanScalar at hscan
  repeat' split at hscan
  all_goals first
    | (cases hscan; exact hleaf _ rfl hP.null)
    | (cases hscan; exact hleaf _ rfl (hP.bool _))
    | exact hP.constant _ _ (map_pair_eq_ok.mp hscan).1
    | exact hP.int _ _ (map_pair_eq_ok.mp hscan).1
    | exact hP.float _ _ (map_pair_eq_ok.mp hscan).1
    | cases hscan

theorem scan_nodes (hP : h.Ensures P) (fuel : Nat) :
    (∀ depth s p, scanValue h fuel depth s = .ok p → ∀ w ∈ p.1.walk, P w) ∧
    (∀ depth start s p, scanItems h fuel depth start s = .ok p → ∀ v ∈ p.1, ∀ w ∈ v.walk, P w) ∧
    (∀ depth start s p, scanMembers h fuel depth start s = .ok p →
      ∀ kv ∈ p.1, ∀ w ∈ kv.2.walk, P w) := by
  induction fuel with
  | zero => simp [scanValue, scanItems, scanMembers]
  | succ fuel ih =>
    obtain ⟨ihValue, ihItems, ihMembers⟩ := ih
    refine ⟨?_, ?_, ?_⟩
    · intro depth s p hscan
      cases s with
      | nil => simp [scanValue] at hscan
      | cons c rest =>
        rw [scanValue_cons] at hscan
        split at hscan
        · cases hstr : scanString fuel rest with
          | error e => simp [hstr, Except.map] at hscan
          | ok q =>
            rw [hstr] at hscan
            cases hscan
            intro w hw
            rw [Json.walk, List.mem_singleton] at hw
            · exact hw ▸ hP.str _
            all_goals simp
        split at hscan
        · cases depth with
          | zero => cases hscan
          | succ depth =>
            obtain ⟨q, hmembers, hscan⟩ := bind_eq_ok.mp hscan
            obtain ⟨v, hv, hscan⟩ := bind_eq_ok.mp hscan
            cases hscan
            exact hP.obj _ _ hv (ihMembers _ _ _ _ hmembers)
        split at hscan
        · cases depth with
          | zero => cases hscan
          | succ depth =>
            obtain ⟨q, hitems, hscan⟩ := bind_eq_ok.mp hscan
            cases hscan
            intro w hw
            rcases List.mem_cons.mp hw with rfl | hw
            · exact hP.arr _
            · obtain ⟨v, hv, hw⟩ := Json.mem_walkItems.mp hw
              exact ihItems _ _ _ _ hitems v hv w hw
        · exact scanScalar_nodes hP hscan
    · intro depth start s p hscan
      rw [scanItems] at hscan
      split at hscan
      · cases hscan
        simp
      · obtain ⟨q, hvalue, hscan⟩ := bind_eq_ok.mp hscan
        have hq := ihValue _ _ _ hvalue
        dsimp only at hscan
        split at hscan
        · cases hscan
        split at hscan
        · cases hscan
          simpa using hq
        split at hscan
        · obtain ⟨r, hitems, hscan⟩ := bind_eq_ok.mp hscan
          cases hscan
          intro v hv
          rcases List.mem_cons.mp hv with rfl | hv
          · exact hq
          · exact ihItems _ _ _ _ hitems v hv
        · cases hscan
    · intro depth start s p hscan
      cases s with
      | nil => simp [scanMembers] at hscan
      | cons c rest =>
        rw [scanMembers] at hscan
        split at hscan
        · cases hscan
          simp
        split at hscan
        · obtain ⟨q, hkey, hscan⟩ := bind_eq_ok.mp hscan
          dsimp only at hscan
          split at hscan
          · cases hscan
          split at hscan
          · obtain ⟨r, hvalue, hscan⟩ := bind_eq_ok.mp hscan
            have hr := ihValue _ _ _ hvalue
            split at hscan
            · cases hscan
            split at hscan
            · cases hscan
              simpa using hr
            split at hscan
            · obtain ⟨t, hmembers, hscan⟩ := bind_eq_ok.mp hscan
              cases hscan
              intro kv hkv
              rcases List.mem_cons.mp hkv with rfl | hkv
              · exact hr
              · exact ihMembers _ _ _ _ hmembers kv hkv
            · cases hscan
          · cases hscan
        · cases hscan

theorem loads_nodes (hP : h.Ensures P) {limit : Nat} {s : Str} {v : Json}
    (hload : loads h limit s = .ok v) : ∀ w ∈ v.walk, P w := by
  unfold loads at hload
  split at hload
  · cases hload
  · obtain ⟨p, hscan, hload⟩ := bind_eq_ok.mp hload
    dsimp only at hload
    split at hload
    · cases hload
      exact (scan_nodes hP _).1 _ _ _ hscan
    · cases hload

end Python
