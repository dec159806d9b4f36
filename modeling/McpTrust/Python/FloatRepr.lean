import McpTrust.Python.PyFloat
import McpTrust.Python.FixedPoint

/-! # Reading back a float

Seventeen digits tell a binary64 value apart from its neighbours, so the decimal that
`repr` writes rounds to the value again.
-/

namespace Python

set_option autoImplicit false

/-! ## Rounding near a value -/

theorem roundHalfEven_of_near {q : ℚ} {n : ℤ} (h : |q - n| < 1 / 2) : roundHalfEven q = n := by
  have herror := abs_le.mp (roundHalfEven_error q)
  have hnear := abs_lt.mp h
  have hlow : ((roundHalfEven q - n : ℤ) : ℚ) < 1 := by
    push_cast
    linarith [herror.2, hnear.2]
  have hhigh : (-1 : ℚ) < ((roundHalfEven q - n : ℤ) : ℚ) := by
    push_cast
    linarith [herror.1, hnear.1]
  have hlow' : roundHalfEven q - n < 1 := by exact_mod_cast hlow
  have hhigh' : -1 < roundHalfEven q - n := by exact_mod_cast hhigh
  omega

/-- A positive binary64 value is a multiple of its last place. -/
theorem exists_multiple {x : ℚ} (hx : 0 < x) (hfl : fl x = x) :
    ∃ n : ℤ, 1 ≤ n ∧ x = n * (2 : ℚ) ^ ulpExponent x := by
  have heq := fl_eq hx.ne'
  rw [hfl] at heq
  refine ⟨_, ?_, heq⟩
  by_contra hn
  have hle : ((roundHalfEven (x / (2 : ℚ) ^ ulpExponent x) : ℤ) : ℚ) ≤ 0 := by exact_mod_cast (by omega)
  have hpos : (0 : ℚ) < 2 ^ ulpExponent x := by positivity
  have := mul_nonpos_of_nonpos_of_nonneg hle hpos.le
  linarith

theorem zpow_split {a b : ℤ} (h : a ≤ b) : ∃ k : ℤ, 1 ≤ k ∧ (2 : ℚ) ^ b = k * (2 : ℚ) ^ a := by
  obtain ⟨n, hn⟩ := Int.eq_ofNat_of_zero_le (show 0 ≤ b - a by omega)
  refine ⟨2 ^ n, one_le_pow₀ (by norm_num), ?_⟩
  push_cast
  rw [← zpow_natCast, ← zpow_add₀ (by norm_num), ← hn]
  congr 1
  ring

/-- Different multiples of `p` are at least `p` apart. -/
theorem gap_of_lt {n k : ℤ} {p : ℚ} (hp : 0 < p) (h : n * p < k * p) : n * p + p ≤ k * p := by
  have hlt : (n : ℚ) < k := lt_of_mul_lt_mul_right h hp.le
  have hsucc : n + 1 ≤ k := by exact_mod_cast hlt
  have hcast : ((n + 1 : ℤ) : ℚ) ≤ k := by exact_mod_cast hsucc
  calc n * p + p = ((n + 1 : ℤ) : ℚ) * p := by push_cast; ring
    _ ≤ k * p := mul_le_mul_of_nonneg_right hcast hp.le

/-- What lies within a relative distance of `2 ^ -54` rounds to the value. -/
theorem fl_of_near {x q : ℚ} (hx : 0 < x) (hfl : fl x = x) (h : |q - x| < x * (2 : ℚ) ^ (-54 : ℤ)) : fl q = x := by
  obtain ⟨n, hn, hmultiple⟩ := exists_multiple hx hfl
  obtain ⟨hlow, hhigh⟩ := ilog2_spec hx.ne'
  rw [abs_of_pos hx] at hlow hhigh
  obtain ⟨hq₁, hq₂⟩ := abs_lt.mp h
  have hsmall : (2 : ℚ) ^ (-54 : ℤ) < 1 / 2 := by norm_num
  have hhalfx : x * (2 : ℚ) ^ (-54 : ℤ) < x / 2 := by
    have := mul_lt_mul_of_pos_left hsmall hx
    linarith
  have hqhalf : -(x / 2) < q - x := (neg_lt_neg hhalfx).trans hq₁
  have hq : 0 < q := by linarith only [hqhalf, hx]
  obtain ⟨hqlow, hqhigh⟩ := ilog2_spec hq.ne'
  rw [abs_of_pos hq] at hqlow hqhigh
  set L := ilog2 x with hL
  set M := ilog2 q with hM
  set U := ulpExponent x with hU
  have hdistance : x * (2 : ℚ) ^ (-54 : ℤ) < 2 ^ (L - 53) := by
    calc x * (2 : ℚ) ^ (-54 : ℤ) < 2 ^ (L + 1) * (2 : ℚ) ^ (-54 : ℤ) := by
          exact mul_lt_mul_of_pos_right hhigh (by positivity)
      _ = 2 ^ (L - 53) := by rw [← zpow_add₀ (by norm_num)]; congr 1; ring
  have hulp : (2 : ℚ) ^ (L - 52) ≤ 2 ^ U :=
    zpow_le_zpow_right₀ (by norm_num) (hU ▸ le_max_left _ _)
  have hhalf : (2 : ℚ) ^ (L - 52) = 2 * 2 ^ (L - 53) := by
    rw [← zpow_one_add₀ (by norm_num)]; congr 1; ring
  have hpos : (0 : ℚ) < 2 ^ (L - 53) := by positivity
  have hulpPos : (0 : ℚ) < 2 ^ U := by positivity
  have hulpLe : U ≤ L := by
    have hle : (2 : ℚ) ^ U ≤ x := by
      have hone : (1 : ℚ) ≤ n := by exact_mod_cast hn
      calc (2 : ℚ) ^ U = 1 * 2 ^ U := (one_mul _).symm
        _ ≤ n * 2 ^ U := mul_le_mul_of_nonneg_right hone hulpPos.le
        _ = x := hmultiple.symm
    have := (zpow_lt_zpow_iff_right₀ (show (1 : ℚ) < 2 by norm_num)).mp (hle.trans_lt hhigh)
    omega
  have hML : M ≤ L := by
    by_contra hlt
    obtain ⟨k, -, hk⟩ := zpow_split (show U ≤ L + 1 by omega)
    -- the next multiple above the value is not below the power of two
    have hstep := gap_of_lt hulpPos (show (n : ℚ) * 2 ^ U < k * 2 ^ U by rw [← hk, ← hmultiple]; exact hhigh)
    rw [← hk, ← hmultiple] at hstep
    have hqbig : (2 : ℚ) ^ (L + 1) ≤ q := (zpow_le_zpow_right₀ (by norm_num) (by omega)).trans hqlow
    linarith
  have hLM : L - 1 ≤ M := by
    have hbelow : (2 : ℚ) ^ (L - 1) < q := by
      have hhalfL : (2 : ℚ) ^ L = 2 * 2 ^ (L - 1) := by rw [← zpow_one_add₀ (by norm_num)]; congr 1; ring
      linarith only [hqhalf, hhalfL, hlow]
    have := (zpow_lt_zpow_iff_right₀ (show (1 : ℚ) < 2 by norm_num)).mp (hbelow.trans hqhigh)
    omega
  have hexponent : ulpExponent q ≤ U := hU ▸ max_le_max (by omega) le_rfl
  have hclose : |q - x| < 2 ^ (ulpExponent q - 1) := by
    have hq52 : M - 52 ≤ ulpExponent q := le_max_left _ _
    obtain hsame | hless : M = L ∨ M = L - 1 := by omega
    · exact h.trans (hdistance.trans_le (zpow_le_zpow_right₀ (by norm_num) (by omega)))
    · -- below the power of two the value is that power
      have hqL : q < 2 ^ L := by rw [hless] at hqhigh; simpa using hqhigh
      have hxL : x = 2 ^ L := by
        by_contra hne
        obtain ⟨k, -, hk⟩ := zpow_split hulpLe
        have hbelow := lt_of_le_of_ne hlow (Ne.symm hne)
        have hstep := gap_of_lt hulpPos (show (k : ℚ) * 2 ^ U < n * 2 ^ U by rw [← hk, ← hmultiple]; exact hbelow)
        rw [← hk, ← hmultiple] at hstep
        linarith
      rw [hxL] at h ⊢
      refine h.trans_le ?_
      rw [← zpow_add₀ (by norm_num)]
      exact zpow_le_zpow_right₀ (by norm_num) (by omega)
  obtain ⟨k, -, hk⟩ := zpow_split hexponent
  have hqpos : (0 : ℚ) < 2 ^ ulpExponent q := by positivity
  have hxq : x = ((n * k : ℤ) : ℚ) * 2 ^ ulpExponent q := by
    push_cast
    rw [mul_assoc, ← hk]
    exact hmultiple
  have hnear : |q / 2 ^ ulpExponent q - ((n * k : ℤ) : ℚ)| < 1 / 2 := by
    have hdiv : q / 2 ^ ulpExponent q - ((n * k : ℤ) : ℚ) = (q - x) / 2 ^ ulpExponent q := by
      rw [sub_div, hxq, mul_div_assoc, div_self hqpos.ne', mul_one]
    rw [hdiv, abs_div, abs_of_pos hqpos, div_lt_iff₀ hqpos]
    refine hclose.trans_eq ?_
    rw [zpow_sub_one₀ (by norm_num)]
    ring
  rw [fl_eq hq.ne', roundHalfEven_of_near hnear, ← hxq]

/-! ## Decimal places -/

theorem pow10_eq (k : ℤ) : pow10 k = (10 : ℚ) ^ k := by
  unfold pow10
  split_ifs with h
  · obtain ⟨n, rfl⟩ := Int.eq_ofNat_of_zero_le h
    simp
  · obtain ⟨n, hn⟩ := Int.eq_ofNat_of_zero_le (show 0 ≤ -k by omega)
    have hk : k = -(n : ℤ) := by omega
    subst hk
    simp [Rat.mkRat_eq_div]

/-- The length of a numeral is the decimal place of the number. -/
theorem natRepr_bounds {n : Nat} (hn : 0 < n) :
    (10 : ℚ) ^ ((natRepr n).length - 1 : ℤ) ≤ n ∧ (n : ℚ) < 10 ^ ((natRepr n).length : ℤ) := by
  have hupper := readNat_lt (natRepr_digits n)
  rw [readNat_natRepr] at hupper
  obtain ⟨c, rest, hrepr, -⟩ := natRepr_eq_cons n
  have hlength : (natRepr n).length = rest.length + 1 := by rw [hrepr, List.length_cons]
  have hlower : 10 ^ rest.length ≤ n := by
    by_contra hlt
    cases hrest : rest.length with
    | zero =>
      rw [hrest] at hlt
      omega
    | succ k =>
      rw [hrest, not_le] at hlt
      have := length_natRepr_le hlt
      omega
  constructor
  · rw [hlength, show ((rest.length + 1 : ℕ) : ℤ) - 1 = (rest.length : ℤ) by omega, zpow_natCast]
    exact_mod_cast hlower
  · rw [zpow_natCast]
    exact_mod_cast hupper

theorem decimalPoint_spec {x : ℚ} (hx : 0 < x) :
    (10 : ℚ) ^ (decimalPoint x - 1) ≤ x ∧ x < 10 ^ decimalPoint x := by
  have hnum : 0 < x.num.natAbs := Int.natAbs_pos.mpr (Rat.num_pos.mpr hx).ne'
  obtain ⟨hnl, hnu⟩ := natRepr_bounds hnum
  obtain ⟨hdl, hdu⟩ := natRepr_bounds x.den_pos
  have hden : (0 : ℚ) < x.den := by exact_mod_cast x.den_pos
  have hvalue : x = (x.num.natAbs : ℚ) / x.den := by rw [← abs_eq_natAbs_div, abs_of_pos hx]
  rw [decimalPoint]
  generalize ((natRepr x.num.natAbs).length : ℤ) = a at hnl hnu ⊢
  generalize ((natRepr x.den).length : ℤ) = b at hdl hdu ⊢
  have hupper : x < 10 ^ (a - b + 1) := by
    rw [hvalue, div_lt_iff₀ hden]
    calc (x.num.natAbs : ℚ) < 10 ^ a := hnu
      _ = 10 ^ (a - b + 1) * 10 ^ (b - 1) := by rw [← zpow_add₀ (by norm_num)]; congr 1; ring
      _ ≤ _ := mul_le_mul_of_nonneg_left hdl (by positivity)
  have hlower : (10 : ℚ) ^ (a - b - 1) ≤ x := by
    rw [hvalue, le_div_iff₀ hden]
    calc (10 : ℚ) ^ (a - b - 1) * x.den ≤ 10 ^ (a - b - 1) * 10 ^ b :=
          mul_le_mul_of_nonneg_left hdu.le (by positivity)
      _ = 10 ^ (a - 1) := by rw [← zpow_add₀ (by norm_num)]; congr 1; ring
      _ ≤ _ := hnl
  split_ifs with h
  · rw [pow10_eq] at h
    exact ⟨by simpa using h, hupper⟩
  · rw [pow10_eq, not_le] at h
    exact ⟨hlower, h⟩

/-! ## The shortest digits -/

/-- The nearest decimal of seventeen digits rounds to the value. -/
theorem fl_seventeen {x : ℚ} (hx : 0 < x) (hfl : fl x = x) :
    fl (((roundHalfEven (x * pow10 (17 - decimalPoint x))).toNat : ℚ) * pow10 (decimalPoint x - 17)) = x := by
  obtain ⟨hlow, -⟩ := decimalPoint_spec hx
  set P := decimalPoint x
  rw [pow10_eq, pow10_eq]
  have hscale : (0 : ℚ) < 10 ^ (P - 17) := by positivity
  have hscaled : (0 : ℚ) < x * 10 ^ (17 - P) := by positivity
  have hnonneg : 0 ≤ roundHalfEven (x * 10 ^ (17 - P)) := by
    have hmono := roundHalfEven_mono hscaled.le
    have hzero : roundHalfEven (0 : ℚ) = 0 := by simpa using roundHalfEven_intCast 0
    rwa [hzero] at hmono
  have hcast : (((roundHalfEven (x * 10 ^ (17 - P))).toNat : ℕ) : ℚ) = (roundHalfEven (x * 10 ^ (17 - P)) : ℤ) := by
    exact_mod_cast Int.toNat_of_nonneg hnonneg
  rw [hcast]
  apply fl_of_near hx hfl
  have hone : (10 : ℚ) ^ (17 - P) * 10 ^ (P - 17) = 1 := by
    rw [← zpow_add₀ (by norm_num), show 17 - P + (P - 17) = 0 by ring, zpow_zero]
  have herror := roundHalfEven_error (x * 10 ^ (17 - P))
  have hdiff : (roundHalfEven (x * 10 ^ (17 - P)) : ℚ) * 10 ^ (P - 17) - x =
      ((roundHalfEven (x * 10 ^ (17 - P)) : ℚ) - x * 10 ^ (17 - P)) * 10 ^ (P - 17) := by
    rw [sub_mul, mul_assoc x, hone, mul_one]
  rw [hdiff, abs_mul, abs_of_pos hscale]
  have hplace : (10 : ℚ) ^ (P - 17) = 10 ^ (P - 1) * 10 ^ (-16 : ℤ) := by
    rw [← zpow_add₀ (by norm_num)]; congr 1; ring
  calc |(roundHalfEven (x * 10 ^ (17 - P)) : ℚ) - x * 10 ^ (17 - P)| * 10 ^ (P - 17)
      ≤ 1 / 2 * (10 ^ (P - 1) * 10 ^ (-16 : ℤ)) := by
        rw [← hplace]
        exact mul_le_mul_of_nonneg_right herror hscale.le
    _ ≤ 1 / 2 * (x * 10 ^ (-16 : ℤ)) := by gcongr
    _ = x * (1 / 2 * 10 ^ (-16 : ℤ)) := by ring
    _ < x * (2 : ℚ) ^ (-54 : ℤ) := by
        apply mul_lt_mul_of_pos_left _ hx
        norm_num

/-- Digits without zeros at the end, and their place, as they are kept of `n` at `k` digits. -/
def trimmed (n : Nat) : Str := ((natRepr n).reverse.dropWhile (· = ch '0')).reverse

theorem le_of_candidate {x : ℚ} (hx : 0 < x) {point : ℤ} {k n : Nat} (h : n ∈ digitCandidates x point k) :
    (n : ℚ) ≤ x * pow10 (k - point) + 1 := by
  have hscaled : 0 < x * pow10 (k - point) := by
    rw [pow10_eq]
    positivity
  rw [digitCandidates] at h
  generalize x * pow10 (k - point) = scaled at h hscaled ⊢
  have hnearest : ((roundHalfEven scaled).toNat : ℚ) ≤ scaled + 1 / 2 := by
    have herror := (abs_le.mp (roundHalfEven_error scaled)).2
    obtain hneg | hpos := le_total (roundHalfEven scaled) 0
    · rw [Int.toNat_of_nonpos hneg, Nat.cast_zero]
      linarith
    · have hcast : (((roundHalfEven scaled).toNat : ℕ) : ℚ) = (roundHalfEven scaled : ℤ) := by
        exact_mod_cast Int.toNat_of_nonneg hpos
      rw [hcast]
      linarith
  generalize (roundHalfEven scaled).toNat = nearest at h hnearest
  simp only [List.mem_cons, List.not_mem_nil, or_false] at h
  obtain rfl | rfl := h
  · linarith
  · split_ifs with hle
    · push_cast
      linarith
    · have hpred : ((nearest - 1 : ℕ) : ℚ) ≤ nearest := by exact_mod_cast Nat.sub_le nearest 1
      linarith

theorem shortestDigits_spec {x : ℚ} (hx : 0 < x) (hfl : fl x = x) :
    ∃ n k : Nat, fl ((n : ℚ) * pow10 (decimalPoint x - k)) = x ∧
      shortestDigits x = (trimmed n, decimalPoint x + ((natRepr n).length - k)) ∧
        k ≤ 17 ∧ (natRepr n).length ≤ k + 1 := by
  rw [shortestDigits]
  dsimp only
  cases hfound : (List.range 17).findSome? fun i =>
      ((digitCandidates x (decimalPoint x) (i + 1)).find?
        (fun n : Nat => decide (fl ((n : ℚ) * pow10 (decimalPoint x - (i + 1))) = x))).map fun n => (n, i + 1) with
  | some found =>
    obtain ⟨n, k⟩ := found
    obtain ⟨i, hrange, hi⟩ := List.exists_of_findSome?_eq_some hfound
    obtain ⟨m, hm, hpair⟩ := Option.map_eq_some_iff.mp hi
    cases hpair
    have hrounds := List.find?_some hm
    refine ⟨n, i + 1, ?_, rfl, List.mem_range.mp hrange, ?_⟩
    · exact_mod_cast of_decide_eq_true hrounds
    · have hcandidate := le_of_candidate hx (List.mem_of_find?_eq_some hm)
      obtain ⟨-, hhigh⟩ := decimalPoint_spec hx
      have hscaled : x * pow10 (((i + 1 : ℕ) : ℤ) - decimalPoint x) < 10 ^ (i + 1) := by
        rw [pow10_eq, zpow_sub₀ (by norm_num), zpow_natCast, ← mul_div_assoc,
          div_lt_iff₀ (by positivity), mul_comm]
        exact mul_lt_mul_of_pos_left hhigh (by positivity)
      have hlt : (n : ℚ) < 10 ^ (i + 1) + 1 := by linarith
      have hnat : n < 10 ^ (i + 1) + 1 := by exact_mod_cast hlt
      apply length_natRepr_le
      have hpow : 10 ^ (i + 1 + 1) = 10 * 10 ^ (i + 1) := pow_succ' 10 (i + 1)
      have hone : 1 ≤ 10 ^ (i + 1) := Nat.one_le_pow _ _ (by norm_num)
      omega
  | none =>
    exfalso
    have hlast := List.findSome?_eq_none_iff.mp hfound 16 (by simp)
    rw [Option.map_eq_none_iff] at hlast
    have hnone := List.find?_eq_none.mp hlast _ List.mem_cons_self
    apply hnone
    apply decide_eq_true
    have h17 := fl_seventeen hx hfl
    exact_mod_cast h17

/-! ## Decimal texts -/

/-- Digits, a fraction and an exponent, as a JSON number that is no integer is written. -/
structure IsDecimalText (text whole fraction exponent : Str) (value : ℤ) : Prop where
  text_eq : text = whole ++ ((if fraction = [] then [] else ch '.' :: fraction) ++ exponent)
  whole_digits : ∀ c ∈ whole, isDigit c = true
  whole_head : whole = [ch '0'] ∨ ∃ c rest, whole = c :: rest ∧ c ≠ ch '0'
  fraction_digits : ∀ c ∈ fraction, isDigit c = true
  exponent_eq : exponent = [] ∧ value = 0 ∨ ∃ sign digits, exponent = ch 'e' :: sign :: digits ∧ digits ≠ [] ∧
    (∀ c ∈ digits, isDigit c = true) ∧
      (sign = ch '+' ∧ value = readNat digits ∨ sign = ch '-' ∧ value = -(readNat digits : ℤ))
  not_integer : fraction ≠ [] ∨ exponent ≠ []

theorem isDigit_ne {c d : CodePoint} (hc : isDigit c = true) (hd : isDigit d = false) : c ≠ d := by
  rintro rfl
  rw [hc] at hd
  cases hd

theorem IsDecimalText.whole_cons {text whole fraction exponent : Str} {value : ℤ}
    (h : IsDecimalText text whole fraction exponent value) : ∃ c rest, whole = c :: rest ∧ isDigit c = true := by
  obtain hzero | ⟨c, rest, hcons, -⟩ := h.whole_head
  · exact ⟨ch '0', [], hzero, by decide⟩
  · exact ⟨c, rest, hcons, h.whole_digits c (hcons ▸ List.mem_cons_self)⟩

/-- The mantissa ends where the exponent begins. -/
theorem splitExponent_text {text whole fraction exponent : Str} {value : ℤ}
    (h : IsDecimalText text whole fraction exponent value) :
    splitExponent text = (whole ++ (if fraction = [] then [] else ch '.' :: fraction), value) := by
  have hplain : ∀ c ∈ whole ++ (if fraction = [] then [] else ch '.' :: fraction), c ≠ ch 'e' ∧ c ≠ ch 'E' := by
    intro c hc
    obtain hwhole | hfraction := List.mem_append.mp hc
    · have hdigit := h.whole_digits c hwhole
      exact ⟨isDigit_ne hdigit (by decide), isDigit_ne hdigit (by decide)⟩
    · split at hfraction
      · cases hfraction
      · obtain rfl | hmem := List.mem_cons.mp hfraction
        · decide
        · have hdigit := h.fraction_digits c hmem
          exact ⟨isDigit_ne hdigit (by decide), isDigit_ne hdigit (by decide)⟩
  rw [h.text_eq, ← List.append_assoc]
  generalize whole ++ (if fraction = [] then [] else ch '.' :: fraction) = mantissa at hplain ⊢
  have htake : ∀ rest : Str, (∀ c, rest.head? = some c → c = ch 'e') →
      (mantissa ++ rest).takeWhile (fun c => decide (c ≠ ch 'e' ∧ c ≠ ch 'E')) = mantissa := by
    intro rest hrest
    rw [List.takeWhile_append_of_pos fun c hc => decide_eq_true (hplain c hc)]
    cases rest with
    | nil => simp
    | cons c rest => simp [hrest c rfl]
  obtain ⟨rfl, rfl⟩ | ⟨sign, digits, rfl, -, hdigits, hsign⟩ := h.exponent_eq
  · rw [splitExponent, htake [] nofun, List.append_nil, List.drop_of_length_le (by omega)]
  · rw [splitExponent, htake _ (by simp)]
    have hdrop : (mantissa ++ ch 'e' :: sign :: digits).drop (mantissa.length + 1) = sign :: digits := by
      rw [List.drop_append]
      simp
    rw [hdrop]
    obtain ⟨rfl, rfl⟩ | ⟨rfl, rfl⟩ := hsign
    · have hread : readInt digits = readNat digits := by
        cases digits with
        | nil => rfl
        | cons c rest => rw [readInt, if_neg (isDigit_ne_minus (hdigits c List.mem_cons_self))]
      simp [hread]
    · simp [readInt]

theorem readFloat_text {text whole fraction exponent : Str} {value : ℤ}
    (h : IsDecimalText text whole fraction exponent value) (negative : Bool) :
    readFloat (if negative then ch '-' :: text else text) =
      (Decimal.mk negative (readNat (whole ++ fraction)) (value - fraction.length)).toFloat := by
  obtain ⟨c, rest, hwhole, hc⟩ := h.whole_cons
  have hhead : text.head? ≠ some (ch '-') := by
    rw [h.text_eq, hwhole, List.cons_append, List.head?_cons]
    exact fun heq => isDigit_ne_minus hc (Option.some.inj heq)
  have hmantissa : ∀ mantissa, mantissa = whole ++ (if fraction = [] then [] else ch '.' :: fraction) →
      mantissa.takeWhile isDigit = whole ∧ mantissa.drop (whole.length + 1) = fraction := by
    rintro mantissa rfl
    constructor
    · rw [List.takeWhile_append_of_pos h.whole_digits]
      split
      · simp
      · have hdot : isDigit (ch '.') = false := by decide
        simp [hdot]
    · rw [List.drop_append]
      split
      · next hnil => simp [hnil]
      · simp
  obtain ⟨htake, hdrop⟩ := hmantissa _ rfl
  have hsplit := splitExponent_text h
  cases negative with
  | true =>
    rw [if_pos rfl, readFloat]
    simp only [List.head?_cons, decide_true, if_true, List.tail_cons, hsplit, htake, hdrop]
  | false =>
    rw [if_neg Bool.false_ne_true, readFloat]
    simp only [hhead, decide_false, if_false, hsplit, htake, hdrop]

/-! ## The texts of `repr` -/

theorem readNat_append (front back : Str) : readNat (front ++ back) = readNat front * 10 ^ back.length + readNat back := by
  have hgen : ∀ (back : Str) (start : Nat), back.foldl (fun acc c => 10 * acc + digitValue c) start =
      start * 10 ^ back.length + back.foldl (fun acc c => 10 * acc + digitValue c) 0 := by
    intro back
    induction back with
    | nil => simp
    | cons c back ih =>
      intro start
      rw [List.foldl_cons, List.foldl_cons, ih, ih (10 * 0 + digitValue c), List.length_cons, pow_succ]
      ring
  rw [readNat, List.foldl_append, hgen]
  rfl

theorem readNat_zeros (n : Nat) : readNat (zeros n) = 0 := by
  induction n with
  | zero => rfl
  | succ n ih =>
    have hsplit : zeros (n + 1) = [ch '0'] ++ zeros n := by rw [zeros, List.replicate_succ]; rfl
    rw [hsplit, readNat_append, ih]
    simp [readNat, digitValue]
    decide

theorem zeros_digits (n : Nat) : ∀ c ∈ zeros n, isDigit c = true := by
  intro c hc
  rw [List.eq_of_mem_replicate hc]
  decide

theorem zeros_length (n : Nat) : (zeros n).length = n := List.length_replicate

/-- The digits without the zeros behind them. -/
theorem natRepr_trimmed {n : Nat} : ∃ z, natRepr n = trimmed n ++ zeros z := by
  have hsplit := @List.takeWhile_append_dropWhile _ (fun c => decide (c = ch '0')) (natRepr n).reverse
  have hzeros : (natRepr n).reverse.takeWhile (fun c => decide (c = ch '0')) =
      zeros ((natRepr n).reverse.takeWhile fun c => decide (c = ch '0')).length := by
    apply List.eq_replicate_iff.mpr ⟨rfl, ?_⟩
    intro c hc
    exact of_decide_eq_true (List.all_eq_true.mp List.all_takeWhile c hc)
  refine ⟨((natRepr n).reverse.takeWhile fun c => decide (c = ch '0')).length, ?_⟩
  have hreverse := congrArg List.reverse hsplit
  rw [List.reverse_append, List.reverse_reverse, hzeros, zeros, List.reverse_replicate] at hreverse
  exact hreverse.symm

/-- What is left of a positive number begins with a digit that is not zero. -/
theorem trimmed_cons {n : Nat} (hn : 0 < n) : ∃ c rest, trimmed n = c :: rest ∧ c ≠ ch '0' := by
  obtain ⟨c, rest, hrepr, hc, hvalue, -⟩ := natRepr_eq_cons n
  have hne : c ≠ ch '0' := by
    rintro rfl
    exact hvalue hn.ne' (by decide)
  obtain ⟨z, hz⟩ := @natRepr_trimmed n
  cases htrim : trimmed n with
  | nil =>
    rw [htrim, List.nil_append, hrepr] at hz
    have hmem : c ∈ zeros z := hz ▸ List.mem_cons_self
    exact absurd (List.eq_of_mem_replicate hmem) hne
  | cons d more =>
    rw [htrim, hrepr, List.cons_append] at hz
    exact ⟨d, more, rfl, (List.cons.inj hz).1 ▸ hne⟩

theorem trimmed_digits (n : Nat) : ∀ c ∈ trimmed n, isDigit c = true := by
  obtain ⟨z, hz⟩ := @natRepr_trimmed n
  intro c hc
  exact natRepr_digits n c (hz ▸ List.mem_append_left _ hc)

/-- The value of the digits at their place. -/
theorem trimmed_value (n : Nat) (place : ℤ) :
    (readNat (trimmed n) : ℚ) * 10 ^ (place + (natRepr n).length - (trimmed n).length) = n * 10 ^ place := by
  obtain ⟨z, hz⟩ := @natRepr_trimmed n
  have hread := readNat_natRepr n
  rw [hz, readNat_append, readNat_zeros, zeros_length, add_zero] at hread
  have hlength : ((natRepr n).length : ℤ) = (trimmed n).length + z := by
    have := congrArg List.length hz
    rw [List.length_append, zeros_length] at this
    exact_mod_cast this
  rw [hlength, show place + ((trimmed n).length + z) - (trimmed n).length = (z : ℤ) + place by ring,
    zpow_add₀ (by norm_num), zpow_natCast, ← mul_assoc]
  congr 1
  exact_mod_cast hread

/-- A decimal text of the number `q`. -/
def Denotes (text : Str) (q : ℚ) : Prop :=
  ∃ whole fraction exponent value, IsDecimalText text whole fraction exponent value ∧
    (readNat (whole ++ fraction) : ℚ) * 10 ^ (value - fraction.length) = q

/-! ## The layouts of `repr` -/

section Layouts

variable {digits rest : Str} {c : CodePoint}

/-- Zeros between the point and the digits. -/
theorem denotes_small (hcons : digits = c :: rest) (hdigits : ∀ d ∈ digits, isDigit d = true) (m : Nat) :
    Denotes (u "0." ++ zeros m ++ digits) (readNat digits * 10 ^ (-(m : ℤ) - digits.length)) := by
  refine ⟨[ch '0'], zeros m ++ digits, [], 0, ⟨?_, ?_, .inl rfl, ?_, .inl ⟨rfl, rfl⟩, .inl ?_⟩, ?_⟩
  · rw [if_neg (by simp [hcons])]
    have hzero : u "0." = [ch '0', ch '.'] := by decide
    simp [hzero]
  · simp only [List.mem_singleton]
    rintro c rfl
    decide
  · intro d hd
    obtain hd | hd := List.mem_append.mp hd
    · exact zeros_digits m d hd
    · exact hdigits d hd
  · simp [hcons]
  · have hzeros : [ch '0'] ++ (zeros m ++ digits) = zeros (m + 1) ++ digits := by
      rw [zeros, zeros, List.replicate_succ]
      rfl
    rw [hzeros, readNat_append, readNat_zeros, zero_mul, zero_add, List.length_append, zeros_length]
    rw [show (0 : ℤ) - ((m + digits.length : ℕ) : ℤ) = -(m : ℤ) - digits.length by push_cast; ring]

/-- Zeros between the digits and the point. -/
theorem denotes_padded (hcons : digits = c :: rest) (hc : c ≠ ch '0') (hdigits : ∀ d ∈ digits, isDigit d = true)
    {m : Nat} (hshort : digits.length ≤ m) :
    Denotes (digits ++ zeros (m - digits.length) ++ u ".0") (readNat digits * 10 ^ ((m : ℤ) - digits.length)) := by
  refine ⟨digits ++ zeros (m - digits.length), [ch '0'], [], 0, ⟨?_, ?_, .inr ⟨c, rest ++ zeros (m - digits.length),
    by rw [hcons]; rfl, hc⟩, ?_, .inl ⟨rfl, rfl⟩, .inl (by simp)⟩, ?_⟩
  · have hzero : u ".0" = [ch '.', ch '0'] := by decide
    simp [hzero]
  · intro d hd
    obtain hd | hd := List.mem_append.mp hd
    · exact hdigits d hd
    · exact zeros_digits _ d hd
  · simp only [List.mem_singleton]
    rintro c rfl
    decide
  · have hzero : [ch '0'] = zeros 1 := rfl
    rw [hzero, List.append_assoc, readNat_append, readNat_append, readNat_zeros, readNat_zeros, zero_mul,
      zero_add, add_zero, List.length_append, zeros_length, zeros_length]
    have hsplit : ((m : ℤ) - digits.length) = ((m - digits.length + 1 : ℕ) : ℤ) + (0 - ((1 : ℕ) : ℤ)) := by
      push_cast
      omega
    rw [hsplit, zpow_add₀ (by norm_num), zpow_natCast, ← mul_assoc]
    push_cast
    rfl

/-- The point among the digits. -/
theorem denotes_split (hcons : digits = c :: rest) (hc : c ≠ ch '0') (hdigits : ∀ d ∈ digits, isDigit d = true)
    {m : Nat} (hlong : m + 1 < digits.length) :
    Denotes (digits.take (m + 1) ++ ch '.' :: digits.drop (m + 1))
      (readNat digits * 10 ^ (((m + 1 : ℕ) : ℤ) - digits.length)) := by
  have hdrop : digits.drop (m + 1) ≠ [] := by
    rw [ne_eq, List.drop_eq_nil_iff]
    omega
  refine ⟨digits.take (m + 1), digits.drop (m + 1), [], 0, ⟨?_, ?_, .inr ⟨c, rest.take m, by rw [hcons]; rfl, hc⟩,
    ?_, .inl ⟨rfl, rfl⟩, .inl hdrop⟩, ?_⟩
  · rw [if_neg hdrop, List.append_nil]
  · exact fun d hd => hdigits d (List.mem_of_mem_take hd)
  · exact fun d hd => hdigits d (List.mem_of_mem_drop hd)
  · rw [List.take_append_drop, List.length_drop,
      show (0 : ℤ) - ((digits.length - (m + 1) : ℕ) : ℤ) = ((m + 1 : ℕ) : ℤ) - digits.length by push_cast; omega]

/-- One digit before the point, and an exponent. -/
theorem denotes_scientific (hcons : digits = c :: rest) (hc : c ≠ ch '0') (hdigits : ∀ d ∈ digits, isDigit d = true)
    (point : ℤ) :
    Denotes (digits.take 1 ++ (if digits.length = 1 then [] else ch '.' :: digits.tail) ++
      ch 'e' :: (if point - 1 < 0 then ch '-' else ch '+') ::
        (zeros (2 - (natRepr (point - 1).natAbs).length) ++ natRepr (point - 1).natAbs))
      (readNat digits * 10 ^ (point - digits.length)) := by
  have htail : (if digits.length = 1 then ([] : Str) else ch '.' :: digits.tail) =
      if digits.tail = [] then [] else ch '.' :: digits.tail := by
    rw [hcons]
    cases rest with
    | nil => rfl
    | cons d rest => simp
  refine ⟨digits.take 1, digits.tail,
    ch 'e' :: (if point - 1 < 0 then ch '-' else ch '+') ::
      (zeros (2 - (natRepr (point - 1).natAbs).length) ++ natRepr (point - 1).natAbs), point - 1,
    ⟨?_, ?_, .inr ⟨c, [], by rw [hcons]; rfl, hc⟩, ?_, .inr ⟨_, _, rfl, ?_, ?_, ?_⟩, .inr (by simp)⟩, ?_⟩
  · rw [htail, List.append_assoc]
  · exact fun d hd => hdigits d (List.mem_of_mem_take hd)
  · exact fun d hd => hdigits d (List.mem_of_mem_tail hd)
  · obtain ⟨d, more, hrepr, -⟩ := natRepr_eq_cons (point - 1).natAbs
    simp [hrepr]
  · intro d hd
    obtain hd | hd := List.mem_append.mp hd
    · exact zeros_digits _ d hd
    · exact natRepr_digits _ d hd
  · rw [readNat_append, readNat_zeros, zero_mul, zero_add, readNat_natRepr]
    split
    · exact .inr ⟨rfl, by omega⟩
    · exact .inl ⟨rfl, by omega⟩
  · have hjoin : digits.take 1 ++ digits.tail = digits := by rw [hcons]; rfl
    have hlength : digits.length = rest.length + 1 := by rw [hcons, List.length_cons]
    rw [hjoin, List.length_tail,
      show point - 1 - ((digits.length - 1 : ℕ) : ℤ) = point - digits.length by omega]

end Layouts

/-- `repr` of a positive value is a decimal text of a number that rounds to it. -/
theorem positiveRepr_text {x : ℚ} (hx : 0 < x) (hfl : fl x = x) :
    ∃ q, Denotes (positiveRepr x) q ∧ fl q = x := by
  obtain ⟨n, k, hrounds, hshortest, -, -⟩ := shortestDigits_spec hx hfl
  have hn : 0 < n := by
    rw [Nat.pos_iff_ne_zero]
    rintro rfl
    rw [Nat.cast_zero, zero_mul, fl_zero] at hrounds
    exact hx.ne hrounds
  obtain ⟨c, rest, hcons, hc⟩ := trimmed_cons hn
  have hdigits := trimmed_digits n
  have hvalue := trimmed_value n (decimalPoint x - k)
  rw [pow10_eq, ← hvalue] at hrounds
  refine ⟨_, ?_, hrounds⟩
  rw [positiveRepr, hshortest]
  dsimp only
  have hplace : decimalPoint x - k + ((natRepr n).length : ℤ) - (trimmed n).length =
      decimalPoint x + ((natRepr n).length - k) - (trimmed n).length := by ring
  rw [hplace]
  generalize decimalPoint x + (((natRepr n).length : ℤ) - k) = point
  generalize trimmed n = digits at hcons hdigits ⊢
  split
  · next hplain =>
    split
    · next hsmall =>
      obtain ⟨m, hm⟩ := Int.eq_ofNat_of_zero_le (show 0 ≤ -point by omega)
      obtain rfl : point = -(m : ℤ) := by omega
      rw [show (-(-(m : ℤ))).toNat = m by omega]
      exact denotes_small hcons hdigits m
    · next hlarge =>
      obtain ⟨m, rfl⟩ := Int.eq_ofNat_of_zero_le (show 0 ≤ point by omega)
      rw [Int.toNat_natCast]
      split
      · next hshort => exact denotes_padded hcons hc hdigits hshort
      · next hlong =>
        obtain ⟨m, rfl⟩ := Nat.exists_eq_succ_of_ne_zero (show m ≠ 0 by omega)
        exact denotes_split hcons hc hdigits (not_le.mp hlong)
  · exact denotes_scientific hcons hc hdigits point

/-! ## Reading the texts -/

theorem roundHalfEven_neg (q : ℚ) : roundHalfEven (-q) = -roundHalfEven q := by
  have hlow := Int.floor_le q
  have hhigh := Int.lt_floor_add_one q
  by_cases hint : q = ⌊q⌋
  · rw [hint, ← Int.cast_neg, roundHalfEven_intCast, roundHalfEven_intCast]
  have hstrict : (⌊q⌋ : ℚ) < q := lt_of_le_of_ne hlow (Ne.symm hint)
  have hfloor : ⌊-q⌋ = -⌊q⌋ - 1 := by
    rw [Int.floor_eq_iff]
    push_cast
    constructor <;> linarith
  rw [roundHalfEven, roundHalfEven, hfloor]
  push_cast
  split_ifs <;> first | omega | (exfalso; linarith)

theorem ilog2_neg (x : ℚ) : ilog2 (-x) = ilog2 x := by
  rw [ilog2, ilog2, abs_neg]
  simp

theorem fl_neg (x : ℚ) : fl (-x) = -fl x := by
  by_cases hx : x = 0
  · simp [hx]
  · have hulp : ulpExponent (-x) = ulpExponent x := by rw [ulpExponent, ilog2_neg, ulpExponent]
    rw [fl_eq (neg_ne_zero.mpr hx), fl_eq hx, hulp, neg_div, roundHalfEven_neg]
    push_cast
    ring

/-- What rounds to a finite value is below the overflow threshold. -/
theorem lt_of_fl_lt {q : ℚ} (hq : 0 < q) (h : fl q < 2 ^ 1024) : q < 2 ^ 1024 := by
  by_contra hlarge
  rw [not_lt] at hlarge
  obtain ⟨hlow, hhigh⟩ := ilog2_spec hq.ne'
  rw [abs_of_pos hq] at hlow hhigh
  have hexp : 1024 ≤ ilog2 q := by
    have hbound : (2 : ℚ) ^ (1024 : ℤ) < 2 ^ (ilog2 q + 1) := lt_of_le_of_lt (by exact_mod_cast hlarge) hhigh
    have := (zpow_lt_zpow_iff_right₀ (show (1 : ℚ) < 2 by norm_num)).mp hbound
    omega
  have hulp : ulpExponent q = ilog2 q - 52 := max_eq_left (by omega)
  have hpos : (0 : ℚ) < 2 ^ ulpExponent q := by positivity
  have hscale : (((2 : ℤ) ^ 52 : ℤ) : ℚ) * 2 ^ ulpExponent q = 2 ^ ilog2 q := by
    have hcast : (((2 : ℤ) ^ 52 : ℤ) : ℚ) = 2 ^ (52 : ℤ) := by norm_num
    rw [hcast, hulp, ← zpow_add₀ (by norm_num)]
    congr 1
    omega
  have hmono : (2 : ℤ) ^ 52 ≤ roundHalfEven (q / 2 ^ ulpExponent q) := by
    have hcast : (((2 : ℤ) ^ 52 : ℤ) : ℚ) ≤ q / 2 ^ ulpExponent q := by
      rw [le_div_iff₀ hpos, hscale]
      exact hlow
    have := roundHalfEven_mono hcast
    rwa [roundHalfEven_intCast] at this
  have hround : (2 : ℚ) ^ (1024 : ℤ) ≤ fl q := by
    rw [fl_eq hq.ne']
    calc (2 : ℚ) ^ (1024 : ℤ) ≤ 2 ^ (ilog2 q) := zpow_le_zpow_right₀ (by norm_num) hexp
      _ = ((2 : ℤ) ^ 52 : ℤ) * 2 ^ ulpExponent q := hscale.symm
      _ ≤ _ := mul_le_mul_of_nonneg_right (by exact_mod_cast hmono) hpos.le
  exact absurd h (not_lt.mpr (by exact_mod_cast hround))

/-- What does not round to zero is above half of the least value. -/
theorem le_of_fl_pos {q : ℚ} (hq : 0 < q) (h : 0 < fl q) : (2 : ℚ) ^ (-1076 : ℤ) ≤ q := by
  by_contra hsmall
  rw [not_le] at hsmall
  obtain ⟨hlow, -⟩ := ilog2_spec hq.ne'
  rw [abs_of_pos hq] at hlow
  have hexp := (zpow_lt_zpow_iff_right₀ (show (1 : ℚ) < 2 by norm_num)).mp (hlow.trans_lt hsmall)
  have hulp : ulpExponent q = -1074 := max_eq_right (by omega)
  have hnear : |q / 2 ^ ulpExponent q - ((0 : ℤ) : ℚ)| < 1 / 2 := by
    rw [hulp, Int.cast_zero, sub_zero, abs_of_pos (by positivity), div_lt_iff₀ (by positivity)]
    refine hsmall.trans_le ?_
    rw [show (-1076 : ℤ) = -1074 + -2 by norm_num, zpow_add₀ (by norm_num), mul_comm]
    gcongr
    norm_num
  rw [fl_eq hq.ne', roundHalfEven_of_near hnear, Int.cast_zero, zero_mul] at h
  exact lt_irrefl _ h

theorem overflow_lt : (2 : ℚ) ^ 1024 < 10 ^ (310 : ℤ) := by
  have hnat : (2 : ℕ) ^ 1024 < 10 ^ 310 := by decide +kernel
  exact_mod_cast hnat

theorem lt_underflow : (10 : ℚ) ^ (-330 : ℤ) < 2 ^ (-1076 : ℤ) := by
  have hnat : (2 : ℕ) ^ 1076 < 10 ^ 330 := by decide +kernel
  have hcast : (2 : ℚ) ^ (1076 : ℤ) < 10 ^ (330 : ℤ) := by exact_mod_cast hnat
  rw [zpow_neg, zpow_neg]
  exact inv_strictAnti₀ (by positivity) hcast

/-- A decimal near a finite value reads as the value. -/
theorem toFloat_of_rounds {n : Nat} {e : ℤ} {x : ℚ} (hx : 0 < x) (hbounded : x < 2 ^ 1024)
    (h : fl ((n : ℚ) * 10 ^ e) = x) (negative : Bool) :
    (Decimal.mk negative n e).toFloat =
      .ofRat (if negative then -((n : ℚ) * 10 ^ e) else (n : ℚ) * 10 ^ e) := by
  have hn : n ≠ 0 := by
    rintro rfl
    rw [Nat.cast_zero, zero_mul, fl_zero] at h
    exact hx.ne h
  have hnpos : (0 : ℚ) < n := by exact_mod_cast Nat.pos_of_ne_zero hn
  have hq : 0 < (n : ℚ) * 10 ^ e := by positivity
  have hupper := lt_of_fl_lt hq (h ▸ hbounded)
  have hlower := le_of_fl_pos hq (h ▸ hx)
  obtain ⟨hnl, hnu⟩ := natRepr_bounds (Nat.pos_of_ne_zero hn)
  have hpow : (0 : ℚ) < 10 ^ e := by positivity
  have htop : ¬310 < ((natRepr n).length : ℤ) + e := by
    intro hlarge
    have hbig : (10 : ℚ) ^ (310 : ℤ) ≤ n * 10 ^ e := by
      calc (10 : ℚ) ^ (310 : ℤ) ≤ 10 ^ (((natRepr n).length : ℤ) - 1 + e) :=
            zpow_le_zpow_right₀ (by norm_num) (by omega)
        _ = 10 ^ (((natRepr n).length : ℤ) - 1) * 10 ^ e := zpow_add₀ (by norm_num) _ _
        _ ≤ n * 10 ^ e := mul_le_mul_of_nonneg_right hnl hpow.le
    exact absurd (hbig.trans_lt hupper) (not_lt.mpr overflow_lt.le)
  have hbottom : ¬((natRepr n).length : ℤ) + e < -330 := by
    intro hsmall
    have htiny : (n : ℚ) * 10 ^ e < 10 ^ (-330 : ℤ) := by
      calc (n : ℚ) * 10 ^ e < 10 ^ ((natRepr n).length : ℤ) * 10 ^ e := mul_lt_mul_of_pos_right hnu hpow
        _ = 10 ^ (((natRepr n).length : ℤ) + e) := (zpow_add₀ (by norm_num) _ _).symm
        _ ≤ 10 ^ (-330 : ℤ) := zpow_le_zpow_right₀ (by norm_num) (by omega)
    exact absurd (hlower.trans_lt htiny) (not_lt.mpr lt_underflow.le)
  rw [Decimal.toFloat]
  dsimp only
  rw [if_neg hn, if_neg htop, if_neg hbottom, pow10_eq, h, if_neg hx.ne']

theorem ofRat_of_fl {q : ℚ} {x : Binary64} (h : fl q = x.val) : PyFloat.ofRat q = .finite x := by
  rw [PyFloat.ofRat, dif_pos (h ▸ x.bounded)]
  congr 1
  cases x
  simp only at h
  subst h
  rfl

/-- `float(repr(x)) == x` for a positive value, with either sign. -/
theorem readFloat_positiveRepr {x : Binary64} {y : ℚ} (hy : 0 < y) (negative : Bool)
    (h : x.val = if negative then -y else y) :
    readFloat (if negative then ch '-' :: positiveRepr y else positiveRepr y) = .finite x := by
  have hfl : fl y = y := by
    have hrounded := x.rounded
    cases negative with
    | true =>
      rw [h, if_pos rfl, fl_neg] at hrounded
      exact neg_injective hrounded
    | false => rwa [h, if_neg Bool.false_ne_true] at hrounded
  have hbounded : y < 2 ^ 1024 := by
    have hx := x.bounded
    cases negative with
    | true => rwa [h, if_pos rfl, abs_neg, abs_of_pos hy] at hx
    | false => rwa [h, if_neg Bool.false_ne_true, abs_of_pos hy] at hx
  obtain ⟨q, ⟨whole, fraction, exponent, value, htext, rfl⟩, hrounds⟩ := positiveRepr_text hy hfl
  rw [readFloat_text htext negative, toFloat_of_rounds hy hbounded hrounds]
  apply ofRat_of_fl
  cases negative with
  | true => rw [if_pos rfl, fl_neg, hrounds, h, if_pos rfl]
  | false => rw [if_neg Bool.false_ne_true, hrounds, h, if_neg Bool.false_ne_true]

/-- A finite float is written as an optional sign and a decimal text that reads back. -/
theorem floatRepr_text {x : PyFloat} (h : x.isFinite = true) :
    ∃ text whole fraction exponent value, IsDecimalText text whole fraction exponent value ∧
      (floatRepr x = text ∨ floatRepr x = ch '-' :: text) ∧ readFloat (floatRepr x) = x := by
  have hzero : IsDecimalText (u "0.0") [ch '0'] [ch '0'] [] 0 :=
    { text_eq := by decide
      whole_digits := by
        intro c hc
        rw [List.mem_singleton.mp hc]
        decide
      whole_head := .inl rfl
      fraction_digits := by
        intro c hc
        rw [List.mem_singleton.mp hc]
        decide
      exponent_eq := .inl ⟨rfl, rfl⟩
      not_integer := .inl (by simp) }
  cases x with
  | finite x =>
    obtain hval | hval | hval := lt_trichotomy x.val 0
    · have hpos : 0 < -x.val := neg_pos.mpr hval
      have hfl : fl (-x.val) = -x.val := by rw [fl_neg, x.rounded]
      obtain ⟨-, ⟨whole, fraction, exponent, value, htext, -⟩, -⟩ := positiveRepr_text hpos hfl
      have hrepr : floatRepr (.finite x) = ch '-' :: positiveRepr (-x.val) := by
        rw [floatRepr, if_neg hval.ne, if_pos hval]
      refine ⟨_, _, _, _, _, htext, .inr hrepr, ?_⟩
      rw [hrepr]
      exact readFloat_positiveRepr hpos true (by simp)
    · refine ⟨_, _, _, _, _, hzero, .inl (by rw [floatRepr, if_pos hval]), ?_⟩
      rw [floatRepr, if_pos hval]
      have hread : readFloat (u "0.0") = .ofRat 0 := by decide +kernel
      rw [hread]
      exact ofRat_of_fl (by rw [fl_zero, hval])
    · obtain ⟨-, ⟨whole, fraction, exponent, value, htext, -⟩, -⟩ := positiveRepr_text hval x.rounded
      have hrepr : floatRepr (.finite x) = positiveRepr x.val := by
        rw [floatRepr, if_neg hval.ne', if_neg hval.not_gt]
      refine ⟨_, _, _, _, _, htext, .inl hrepr, ?_⟩
      rw [hrepr]
      exact readFloat_positiveRepr hval false (by simp)
  | negZero =>
    refine ⟨_, _, _, _, _, hzero, .inr (by rw [floatRepr]; decide), ?_⟩
    rw [floatRepr]
    decide +kernel
  | inf negative => cases h
  | nan => cases h

/-! ## The length of the text -/

theorem decimalPoint_bounds {x : ℚ} (hx : 0 < x) (hfl : fl x = x) (hbounded : x < 2 ^ 1024) :
    -330 < decimalPoint x ∧ decimalPoint x ≤ 310 := by
  obtain ⟨hlow, hhigh⟩ := decimalPoint_spec hx
  have hten : (1 : ℚ) < 10 := by norm_num
  constructor
  · have hleast := le_of_fl_pos hx (hfl.symm ▸ hx)
    exact (zpow_lt_zpow_iff_right₀ hten).mp ((lt_underflow.trans_le hleast).trans hhigh)
  · have hpoint := (zpow_lt_zpow_iff_right₀ hten).mp (hlow.trans_lt (hbounded.trans overflow_lt))
    omega

theorem length_positiveRepr {x : ℚ} (hx : 0 < x) (hfl : fl x = x) (hbounded : x < 2 ^ 1024) :
    (positiveRepr x).length ≤ 64 := by
  obtain ⟨n, k, -, hshortest, hk, hlength⟩ := shortestDigits_spec hx hfl
  obtain ⟨hlow, hhigh⟩ := decimalPoint_bounds hx hfl hbounded
  have htrimmed : (trimmed n).length ≤ (natRepr n).length := by
    obtain ⟨z, hz⟩ := @natRepr_trimmed n
    rw [hz, List.length_append]
    omega
  have hmagnitude : (natRepr (decimalPoint x + ((natRepr n).length - k) - 1).natAbs).length ≤ 3 := by
    apply length_natRepr_le
    omega
  rw [positiveRepr, hshortest]
  dsimp only
  have hpoints : (u "0.").length = 2 ∧ (u ".0").length = 2 := by decide
  split_ifs <;> simp only [List.length_append, List.length_cons, List.length_take, List.length_drop, List.length_tail,
    zeros_length, hpoints.1, hpoints.2, List.length_nil] <;> omega

theorem length_floatRepr {x : PyFloat} (h : x.isFinite = true) : (floatRepr x).length ≤ 65 := by
  cases x with
  | finite x =>
    obtain hval | hval | hval := lt_trichotomy x.val 0
    · rw [floatRepr, if_neg hval.ne, if_pos hval, List.length_cons]
      have hbounded := x.bounded
      rw [abs_of_neg hval] at hbounded
      have := length_positiveRepr (neg_pos.mpr hval) (by rw [fl_neg, x.rounded]) hbounded
      omega
    · rw [floatRepr, if_pos hval]
      decide
    · rw [floatRepr, if_neg hval.ne', if_neg hval.not_gt]
      have hbounded := x.bounded
      rw [abs_of_pos hval] at hbounded
      have := length_positiveRepr hval x.rounded hbounded
      omega
  | negZero => decide
  | inf negative => cases h
  | nan => cases h

end Python
