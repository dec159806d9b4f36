import McpTrust.Python.Text
import McpTrust.Python.Lines

/-! # Decimal and hexadecimal numerals

`natRepr` and `intRepr` write a number as `str(n)` does; `readNat` and `readInt`
read it back. The digit string of a positive number has no leading zero.
-/

namespace Python

set_option autoImplicit false

def digitChar (d : Nat) : CodePoint := ⟨48 + d % 10, by omega⟩

/-- The digits of `n`, least significant first. -/
def decimalRev : Nat → Nat → Str
  | 0, _ => []
  | fuel + 1, n => if n < 10 then [digitChar n] else digitChar n :: decimalRev fuel (n / 10)

/-- `str(n)` for a natural number. -/
def natRepr (n : Nat) : Str := (decimalRev (n + 1) n).reverse

/-- `str(n)`. -/
def intRepr (n : ℤ) : Str := if n < 0 then ch '-' :: natRepr n.natAbs else natRepr n.natAbs

def readNat (digits : Str) : Nat := digits.foldl (fun acc c => 10 * acc + digitValue c) 0

/-- `int(text)` on an optional minus sign and digits. -/
def readInt : Str → ℤ
  | [] => 0
  | c :: rest => if c = ch '-' then -(readNat rest : ℤ) else (readNat (c :: rest) : ℤ)

@[simp] theorem isDigit_digitChar (d : Nat) : isDigit (digitChar d) = true := by
  have hle : 48 + d % 10 ≤ 57 := by omega
  exact Bool.and_eq_true _ _ ▸ ⟨decide_eq_true (Nat.le_add_right 48 _), decide_eq_true hle⟩

@[simp] theorem digitValue_digitChar (d : Nat) : digitValue (digitChar d) = d % 10 := by
  simp [digitValue, digitChar]

theorem decimalRev_digits (fuel n : Nat) : ∀ c ∈ decimalRev fuel n, isDigit c = true := by
  induction fuel generalizing n with
  | zero => simp [decimalRev]
  | succ fuel ih =>
    unfold decimalRev
    split_ifs with h
    · simp
    · intro c hc
      rcases List.mem_cons.mp hc with rfl | hc
      · exact isDigit_digitChar n
      · exact ih _ c hc

theorem decimalRev_value {fuel n : Nat} (h : n < fuel) :
    (decimalRev fuel n).foldr (fun c acc => 10 * acc + digitValue c) 0 = n := by
  induction fuel generalizing n with
  | zero => omega
  | succ fuel ih =>
    unfold decimalRev
    split_ifs with h10
    · simp [Nat.mod_eq_of_lt h10]
    · rw [List.foldr_cons, ih (by omega), digitValue_digitChar]
      omega

theorem decimalRev_getLast {fuel n : Nat} (h : n < fuel) (hn : 0 < n) :
    ∃ c, (decimalRev fuel n).getLast? = some c ∧ digitValue c ≠ 0 ∧ isDigit c = true := by
  induction fuel generalizing n with
  | zero => omega
  | succ fuel ih =>
    unfold decimalRev
    split_ifs with h10
    · exact ⟨digitChar n, rfl, by rw [digitValue_digitChar, Nat.mod_eq_of_lt h10]; omega, by simp⟩
    · obtain ⟨c, hc, hval, hdig⟩ := ih (n := n / 10) (by omega) (by omega)
      refine ⟨c, ?_, hval, hdig⟩
      rw [List.getLast?_cons, hc]
      rfl

theorem natRepr_digits (n : Nat) : ∀ c ∈ natRepr n, isDigit c = true := by
  intro c hc
  exact decimalRev_digits _ _ c (List.mem_reverse.mp hc)

theorem readNat_natRepr (n : Nat) : readNat (natRepr n) = n := by
  rw [readNat, natRepr, List.foldl_reverse]
  exact decimalRev_value (Nat.lt_succ_self n)

@[simp] theorem natRepr_zero : natRepr 0 = [ch '0'] := by decide

theorem natRepr_eq_cons (n : Nat) : ∃ c rest, natRepr n = c :: rest ∧ isDigit c = true ∧
    (n ≠ 0 → digitValue c ≠ 0) ∧ (∀ d ∈ rest, isDigit d = true) := by
  have hdigits := natRepr_digits n
  rcases Nat.eq_zero_or_pos n with rfl | hn
  · exact ⟨ch '0', [], natRepr_zero, by decide, fun h => absurd rfl h, by simp⟩
  · obtain ⟨c, hc, hval, hdig⟩ := decimalRev_getLast (Nat.lt_succ_self n) hn
    have hhead : (natRepr n).head? = some c := by rw [natRepr, List.head?_reverse, hc]
    obtain ⟨rest, hrest⟩ := List.head?_eq_some_iff.mp hhead
    refine ⟨c, rest, hrest, hdig, fun _ => hval, fun d hd => hdigits d ?_⟩
    rw [hrest]
    exact List.mem_cons_of_mem _ hd

theorem isDigit_ne_minus {c : CodePoint} (h : isDigit c = true) : c ≠ ch '-' := by
  rintro rfl
  revert h
  decide

theorem readInt_intRepr (n : ℤ) : readInt (intRepr n) = n := by
  unfold intRepr
  split_ifs with h
  · simp only [readInt, if_true, readNat_natRepr]
    omega
  · obtain ⟨c, rest, hrepr, hc, -, -⟩ := natRepr_eq_cons n.natAbs
    have hread := readNat_natRepr n.natAbs
    rw [hrepr] at hread ⊢
    rw [readInt, if_neg (isDigit_ne_minus hc), hread]
    omega

theorem length_decimalRev_le {fuel n k : Nat} (h : n < 10 ^ (k + 1)) :
    (decimalRev fuel n).length ≤ k + 1 := by
  induction fuel generalizing n k with
  | zero => simp [decimalRev]
  | succ fuel ih =>
    unfold decimalRev
    split_ifs with h10
    · simp
    · cases k with
      | zero => omega
      | succ k =>
        have hdiv : n / 10 < 10 ^ (k + 1) := by
          rw [Nat.div_lt_iff_lt_mul (by decide), ← pow_succ]
          exact h
        simpa using ih hdiv

theorem readNat_lt {digits : Str} (h : ∀ c ∈ digits, isDigit c = true) :
    readNat digits < 10 ^ digits.length := by
  have hgen : ∀ (ds : Str) (acc k : Nat), (∀ c ∈ ds, isDigit c = true) → acc < 10 ^ k →
      ds.foldl (fun acc c => 10 * acc + digitValue c) acc < 10 ^ (k + ds.length) := by
    intro ds
    induction ds with
    | nil => simp
    | cons c ds ih =>
      intro acc k hds hacc
      have hc : digitValue c < 10 := by
        have := hds c List.mem_cons_self
        simp only [isDigit, Bool.and_eq_true, decide_eq_true_eq] at this
        unfold digitValue
        omega
      have hnext : 10 * acc + digitValue c < 10 ^ (k + 1) := by
        rw [pow_succ]
        omega
      have hrec := ih _ (k + 1) (fun d hd => hds d (List.mem_cons_of_mem _ hd)) hnext
      rw [List.foldl_cons, List.length_cons, show k + (ds.length + 1) = k + 1 + ds.length by omega]
      exact hrec
  simpa [readNat] using hgen digits 0 0 h (by simp)

theorem length_natRepr_le {n k : Nat} (h : n < 10 ^ (k + 1)) : (natRepr n).length ≤ k + 1 := by
  rw [natRepr, List.length_reverse]
  exact length_decimalRev_le h

/-- An optional minus sign and at least one digit. -/
def isIntegerText : Str → Bool
  | [] => false
  | c :: rest => if c = ch '-' then !rest.isEmpty && rest.all isDigit else (c :: rest).all isDigit

/-- `int(text)`; the interpreter refuses more than 4300 digits. -/
def pyInt (text : Str) : Except PyErr ℤ :=
  if isIntegerText text && decide ((text.filter isDigit).length ≤ 4300) then .ok (readInt text)
  else .error .valueError

theorem pyInt_raises {handled : PyErr → Bool} (h : handled .valueError = true) (text : Str) :
    RaisesOnly handled (pyInt text) := by
  unfold pyInt
  split
  · exact raisesOnly_ok _
  · exact raisesOnly_error h

theorem intRepr_isIntegerText (n : ℤ) : isIntegerText (intRepr n) = true := by
  obtain ⟨c, rest, hrepr, hc, -, hrest⟩ := natRepr_eq_cons n.natAbs
  unfold intRepr
  rw [hrepr]
  split_ifs with h
  · simpa [isIntegerText, hc] using hrest
  · rw [isIntegerText, if_neg (isDigit_ne_minus hc)]
    simpa [hc] using hrest

theorem pyInt_intRepr {n : ℤ} (h : (intRepr n).length ≤ 4300) : pyInt (intRepr n) = .ok n := by
  have hlen := (List.length_filter_le isDigit (intRepr n)).trans h
  rw [pyInt, intRepr_isIntegerText, readInt_intRepr]
  simp [hlen]

theorem length_intRepr_le {text : Str} {n : ℤ} (h : pyInt text = .ok n) :
    (intRepr n).length ≤ text.length := by
  unfold pyInt at h
  split_ifs at h with hcond
  cases h
  simp only [Bool.and_eq_true] at hcond
  have htext := hcond.1
  cases text with
  | nil => cases htext
  | cons c rest =>
    simp only [isIntegerText, readInt] at htext ⊢
    split_ifs at htext ⊢ with hc
    · obtain ⟨hne, hdigits⟩ := Bool.and_eq_true_iff.mp htext
      have hlt := readNat_lt (List.all_eq_true.mp hdigits)
      obtain ⟨k, hk⟩ := Nat.exists_eq_succ_of_ne_zero
        (show rest.length ≠ 0 by cases rest <;> simp_all)
      rw [hk] at hlt
      have hlen := length_natRepr_le hlt
      unfold intRepr
      rw [show (-(readNat rest : ℤ)).natAbs = readNat rest by omega]
      split_ifs <;> simp only [List.length_cons] <;> omega
    · have hlt := readNat_lt (List.all_eq_true.mp htext)
      have hlen := length_natRepr_le hlt
      rw [intRepr, if_neg (by omega), show ((readNat (c :: rest) : ℕ) : ℤ).natAbs =
        readNat (c :: rest) by omega]
      exact hlen

/-! ## Hexadecimal -/

def hexChar (d : Nat) : CodePoint :=
  if d % 16 < 10 then ⟨48 + d % 16, by omega⟩ else ⟨87 + d % 16, by omega⟩

def hexValue (c : CodePoint) : Nat :=
  if c.val ≤ 57 then c.val - 48 else if c.val ≤ 70 then c.val - 55 else c.val - 87

/-- `[0-9a-fA-F]`. -/
def isHex (c : CodePoint) : Bool := isHexLower c || (decide (65 ≤ c.val) && decide (c.val ≤ 70))

@[simp] theorem hexValue_hexChar (d : Nat) : hexValue (hexChar d) = d % 16 := by
  unfold hexValue hexChar
  split_ifs <;> simp_all <;> omega

@[simp] theorem isHexLower_hexChar (d : Nat) : isHexLower (hexChar d) = true := by
  unfold hexChar
  split_ifs <;> simp [isHexLower, isDigit] <;> omega

@[simp] theorem isHex_hexChar (d : Nat) : isHex (hexChar d) = true := by
  simp [isHex]

/-- Two lowercase hex digits for each byte. -/
def hexBytes (bytes : Bytes) : Str :=
  bytes.flatMap fun b => [hexChar (b.toNat / 16), hexChar b.toNat]

@[simp] theorem length_hexBytes (bytes : Bytes) : (hexBytes bytes).length = 2 * bytes.length := by
  induction bytes with
  | nil => rfl
  | cons b bs ih =>
    rw [hexBytes, List.flatMap_cons, List.length_append, ← hexBytes, ih, List.length_cons]
    simp
    omega

theorem hexBytes_isHexLower (bytes : Bytes) : ∀ c ∈ hexBytes bytes, isHexLower c = true := by
  intro c hc
  obtain ⟨b, -, hb⟩ := List.mem_flatMap.mp hc
  simp only [List.mem_cons, List.not_mem_nil, or_false] at hb
  rcases hb with rfl | rfl <;> simp

end Python
