import McpTrust.Python.Text
import McpTrust.Python.Unicode

/-! # UTF-8

`encodeUtf8` and `decodeUtf8` are the strict codecs. A lone surrogate cannot be
encoded, and no byte sequence decodes to one. Decoding inverts encoding.
-/

namespace Python

set_option autoImplicit false

def encodeCodePoint (c : CodePoint) : Bytes :=
  if c.val < 0x80 then [UInt8.ofNat c.val]
  else if c.val < 0x800 then
    [UInt8.ofNat (0xC0 + c.val / 64), UInt8.ofNat (0x80 + c.val % 64)]
  else if c.val < 0x10000 then
    [UInt8.ofNat (0xE0 + c.val / 4096), UInt8.ofNat (0x80 + c.val / 64 % 64),
      UInt8.ofNat (0x80 + c.val % 64)]
  else
    [UInt8.ofNat (0xF0 + c.val / 262144), UInt8.ofNat (0x80 + c.val / 4096 % 64),
      UInt8.ofNat (0x80 + c.val / 64 % 64), UInt8.ofNat (0x80 + c.val % 64)]

/-- `s.encode("utf-8")`. -/
def encodeUtf8 (s : Str) : Except PyErr Bytes :=
  if s.any isSurrogate then .error .unicodeError else .ok (s.flatMap encodeCodePoint)

def isContinuation (b : UInt8) : Bool := decide (0x80 ≤ b.toNat) && decide (b.toNat < 0xC0)

/-- The tail of a continuation byte. -/
def payload (b : UInt8) : Nat := b.toNat - 0x80

/-- Adds the scalar `n` in front, unless it is overlong, a surrogate or too large. -/
def decoded (least n : Nat) (tail : Except PyErr Str) : Except PyErr Str :=
  if h : n < 0x110000 then
    if decide (least ≤ n) && !isSurrogate ⟨n, h⟩ then tail.map (⟨n, h⟩ :: ·)
    else .error .unicodeError
  else .error .unicodeError

/-- `b.decode("utf-8")`. -/
def decodeUtf8 : Bytes → Except PyErr Str
  | [] => .ok []
  | a :: rest =>
    if a.toNat < 0x80 then decoded 0 a.toNat (decodeUtf8 rest)
    else if a.toNat < 0xC0 then .error .unicodeError
    else if a.toNat < 0xE0 then
      match rest with
      | b :: rest =>
        if isContinuation b then
          decoded 0x80 ((a.toNat - 0xC0) * 64 + payload b) (decodeUtf8 rest)
        else .error .unicodeError
      | [] => .error .unicodeError
    else if a.toNat < 0xF0 then
      match rest with
      | b :: c :: rest =>
        if isContinuation b && isContinuation c then
          decoded 0x800 ((a.toNat - 0xE0) * 4096 + payload b * 64 + payload c) (decodeUtf8 rest)
        else .error .unicodeError
      | _ => .error .unicodeError
    else
      match rest with
      | b :: c :: d :: rest =>
        if isContinuation b && isContinuation c && isContinuation d then
          decoded 0x10000
            ((a.toNat - 0xF0) * 262144 + payload b * 4096 + payload c * 64 + payload d)
            (decodeUtf8 rest)
        else .error .unicodeError
      | _ => .error .unicodeError

theorem decoded_of_scalar {c : CodePoint} {least n : Nat} {tail : Except PyErr Str}
    (hn : n = c.val) (hleast : least ≤ n) (hc : isSurrogate c = false) :
    decoded least n tail = tail.map (c :: ·) := by
  subst hn
  simp [decoded, c.isLt, hleast, hc]

theorem toNat_ofNat_of_lt {n : Nat} (h : n < 256) : (UInt8.ofNat n).toNat = n := by
  simpa using Nat.mod_eq_of_lt h

theorem isContinuation_ofNat {n : Nat} (h : n < 64) :
    isContinuation (UInt8.ofNat (0x80 + n)) = true := by
  have hlt := toNat_ofNat_of_lt (show 0x80 + n < 256 by omega)
  rw [isContinuation, hlt, Bool.and_eq_true, decide_eq_true_eq, decide_eq_true_eq]
  omega

theorem payload_ofNat {n : Nat} (h : n < 64) : payload (UInt8.ofNat (0x80 + n)) = n := by
  have hlt := toNat_ofNat_of_lt (show 0x80 + n < 256 by omega)
  unfold payload
  generalize (UInt8.ofNat (0x80 + n)).toNat = m at hlt ⊢
  omega

theorem decodeUtf8_encodeCodePoint (c : CodePoint) (hc : isSurrogate c = false) (rest : Bytes) :
    decodeUtf8 (encodeCodePoint c ++ rest) = (decodeUtf8 rest).map (c :: ·) := by
  have hlt := c.isLt
  rw [encodeCodePoint]
  split_ifs with h1 h2 h3
  · have ha := toNat_ofNat_of_lt (show c.val < 256 by omega)
    rw [List.singleton_append, decodeUtf8.eq_def]
    simp only [ha, if_pos h1]
    exact decoded_of_scalar rfl (Nat.zero_le _) hc
  · have ha := toNat_ofNat_of_lt (show 0xC0 + c.val / 64 < 256 by omega)
    have hb : c.val % 64 < 64 := Nat.mod_lt _ (by decide)
    rw [List.cons_append, List.cons_append, List.nil_append, decodeUtf8.eq_def]
    dsimp only
    rw [ha, if_neg (by omega), if_neg (by omega), if_pos (by omega)]
    simp only [isContinuation_ofNat hb, payload_ofNat hb, if_true]
    exact decoded_of_scalar (by omega) (by omega) hc
  · have ha := toNat_ofNat_of_lt (show 0xE0 + c.val / 4096 < 256 by omega)
    have hb : c.val / 64 % 64 < 64 := Nat.mod_lt _ (by decide)
    have hd : c.val % 64 < 64 := Nat.mod_lt _ (by decide)
    simp only [List.cons_append, List.nil_append]
    rw [decodeUtf8.eq_def]
    dsimp only
    rw [ha, if_neg (by omega), if_neg (by omega), if_neg (by omega), if_pos (by omega)]
    simp only [isContinuation_ofNat hb, isContinuation_ofNat hd, payload_ofNat hb,
      payload_ofNat hd, Bool.and_self, if_true]
    exact decoded_of_scalar (by omega) (by omega) hc
  · have ha := toNat_ofNat_of_lt (show 0xF0 + c.val / 262144 < 256 by omega)
    have hb : c.val / 4096 % 64 < 64 := Nat.mod_lt _ (by decide)
    have hd : c.val / 64 % 64 < 64 := Nat.mod_lt _ (by decide)
    have he : c.val % 64 < 64 := Nat.mod_lt _ (by decide)
    simp only [List.cons_append, List.nil_append]
    rw [decodeUtf8.eq_def]
    dsimp only
    rw [ha, if_neg (by omega), if_neg (by omega), if_neg (by omega), if_neg (by omega)]
    simp only [isContinuation_ofNat hb, isContinuation_ofNat hd, isContinuation_ofNat he,
      payload_ofNat hb, payload_ofNat hd, payload_ofNat he, Bool.and_self, if_true]
    exact decoded_of_scalar (by omega) (by omega) hc

theorem decodeUtf8_encodeUtf8 {s : Str} {b : Bytes} (h : encodeUtf8 s = .ok b) :
    decodeUtf8 b = .ok s := by
  unfold encodeUtf8 at h
  split at h
  · cases h
  · rename_i hsurr
    cases h
    induction s with
    | nil => rfl
    | cons c s ih =>
      simp only [List.any_cons, Bool.or_eq_true, not_or, Bool.not_eq_true] at hsurr
      rw [List.flatMap_cons, decodeUtf8_encodeCodePoint c hsurr.1, ih (by simpa using hsurr.2)]
      rfl

theorem encodeUtf8_eq_ok {s : Str} (h : ∀ c ∈ s, isSurrogate c = false) :
    encodeUtf8 s = .ok (s.flatMap encodeCodePoint) := by
  have hany : s.any isSurrogate = false := by
    rw [List.any_eq_false]
    intro c hc
    simp [h c hc]
  simp [encodeUtf8, hany]

/-- The text of a literal as bytes. -/
def utf8 (s : String) : Bytes := (u s).flatMap encodeCodePoint

theorem decoded_raises {handled : PyErr → Bool} (h : handled .unicodeError = true) {least n : Nat}
    {tail : Except PyErr Str} (htail : RaisesOnly handled tail) :
    RaisesOnly handled (decoded least n tail) := by
  unfold decoded
  split
  · split
    · exact htail.map
    · exact raisesOnly_error h
  · exact raisesOnly_error h

theorem decodeUtf8_raises {handled : PyErr → Bool} (h : handled .unicodeError = true) (b : Bytes) :
    RaisesOnly handled (decodeUtf8 b) := by
  fun_induction decodeUtf8 b
  all_goals first
    | exact decoded_raises h ‹_›
    | exact raisesOnly_error h
    | exact raisesOnly_ok _

end Python
