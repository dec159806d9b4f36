import McpTrust.Python.FloatRepr
import McpTrust.Python.IsoFormat
import McpTrust.Python.JsonEncode
import McpTrust.Python.Seconds

/-! # Reading back `isoformat`

The day number of the date of a day number is the day number, and `fromisoformat`
reads the text of every UTC datetime back.
-/

namespace Python

set_option autoImplicit false

/-! ## The calendar -/

theorem isLeap_block {a b c d : Nat} (hb : b < 4) (hc : c < 25) (hd : d < 4) :
    isLeap (400 * a + 100 * b + 4 * c + d + 1) = decide (d = 3 ∧ (c ≠ 24 ∨ b = 3)) := by
  rw [isLeap, Bool.eq_iff_iff]
  simp only [Bool.and_eq_true, Bool.or_eq_true, decide_eq_true_eq]
  omega

theorem daysBeforeYear_block {a b c d : Nat} (hb : b < 4) (hc : c < 25) (hd : d < 4) :
    daysBeforeYear (400 * a + 100 * b + 4 * c + d + 1) = 146097 * a + 36524 * b + 1461 * c + 365 * d := by
  rw [daysBeforeYear]
  omega

/-- A month has the days it has in year 4 or in year 1. -/
theorem daysInMonth_leap (year month : Nat) :
    daysInMonth year month = daysInMonth (if isLeap year then 4 else 1) month := by
  have hmodel : isLeap (if isLeap year then 4 else 1) = isLeap year := by
    cases isLeap year <;> rfl
  rw [daysInMonth, daysInMonth, hmodel]

theorem daysBeforeMonth_leap (year month : Nat) :
    daysBeforeMonth year month = daysBeforeMonth (if isLeap year then 4 else 1) month := by
  induction month with
  | zero => rfl
  | succ month ih =>
    cases month with
    | zero => rfl
    | succ month =>
      have hstep : ∀ y, daysBeforeMonth y (month + 2) = daysBeforeMonth y (month + 1) + daysInMonth y (month + 1) :=
        fun _ => rfl
      rw [hstep, hstep, ih, ← daysInMonth_leap year (month + 1)]

/-- The month and day found for the day `n` of a year. -/
def monthDay (year n : Nat) : Nat × Nat :=
  let month := (n + 50) / 32
  if daysBeforeMonth year month ≤ n then (month, n - daysBeforeMonth year month + 1)
  else (month - 1, n - daysBeforeMonth year (month - 1) + 1)

/-- A month and day of the year that number `n`. -/
def Numbers (year n : Nat) (found : Nat × Nat) : Prop :=
  1 ≤ found.1 ∧ found.1 ≤ 12 ∧ 1 ≤ found.2 ∧ found.2 ≤ daysInMonth year found.1 ∧
    daysBeforeMonth year found.1 + found.2 = n + 1

instance (year n : Nat) (found : Nat × Nat) : Decidable (Numbers year n found) :=
  inferInstanceAs (Decidable (1 ≤ found.1 ∧ found.1 ≤ 12 ∧ 1 ≤ found.2 ∧ found.2 ≤ daysInMonth year found.1 ∧
    daysBeforeMonth year found.1 + found.2 = n + 1))

theorem monthDay_models : ∀ n, n < 365 → Numbers 1 n (monthDay 1 n) ∧ Numbers 4 n (monthDay 4 n) := by
  decide +kernel

theorem monthDay_numbers (year : Nat) {n : Nat} (hn : n < 365) : Numbers year n (monthDay year n) := by
  have hmodel : monthDay year n = monthDay (if isLeap year then 4 else 1) n := by
    rw [monthDay, monthDay]
    simp only [← daysBeforeMonth_leap]
  rw [Numbers, daysInMonth_leap, daysBeforeMonth_leap, hmodel]
  obtain ⟨hcommon, hleap⟩ := monthDay_models n hn
  cases isLeap year with
  | false => exact hcommon
  | true => exact hleap

theorem ymdToOrdinal_last {a b c : Nat} (hb : b < 4) (hc : c < 25) (hleap : c ≠ 24 ∨ b = 3)
    (hyear : 400 * a + 100 * b + 4 * c + 4 ≤ 9999) :
    ymdToOrdinal (400 * a + 100 * b + 4 * c + 4) 12 31 = some (146097 * a + 36524 * b + 1461 * c + 1461) := by
  have hblock := @daysBeforeYear_block a b c 3 hb hc (by omega)
  have hflag := @isLeap_block a b c 3 hb hc (by omega)
  rw [decide_eq_true ⟨rfl, hleap⟩] at hflag
  have hmonth : daysBeforeMonth (400 * a + 100 * b + 4 * c + 4) 12 = 335 := by
    rw [daysBeforeMonth_leap, hflag]
    rfl
  have hdays : daysInMonth (400 * a + 100 * b + 4 * c + 4) 12 = 31 := rfl
  rw [ymdToOrdinal, if_pos (by rw [hdays]; omega), hmonth, hblock]

/-- The date of a day number has that number. -/
theorem ymdToOrdinal_ord2ymd {n : Nat} (hn : n < maxOrdinal) :
    ymdToOrdinal (ord2ymd (n + 1)).year (ord2ymd (n + 1)).month (ord2ymd (n + 1)).day = some (n + 1) := by
  rw [maxOrdinal] at hn
  rw [ord2ymd]
  simp only [Nat.add_sub_cancel]
  have hr := Nat.mod_lt n (show 146097 > 0 by decide)
  have hn' := Nat.div_add_mod n 146097
  generalize n / 146097 = a at hn' ⊢
  generalize n % 146097 = r at hr hn' ⊢
  have hs := Nat.mod_lt r (show 36524 > 0 by decide)
  have hr' := Nat.div_add_mod r 36524
  generalize r / 36524 = b at hr' ⊢
  generalize r % 36524 = s at hs hr' ⊢
  have ht := Nat.mod_lt s (show 1461 > 0 by decide)
  have hs' := Nat.div_add_mod s 1461
  generalize s / 1461 = c at hs' ⊢
  generalize s % 1461 = t at ht hs' ⊢
  have hday := Nat.mod_lt t (show 365 > 0 by decide)
  have ht' := Nat.div_add_mod t 365
  generalize t / 365 = d at ht' ⊢
  generalize t % 365 = day at hday ht' ⊢
  split
  · next hlast =>
    -- the last day of a leap year
    obtain hd | hb := hlast
    · have hordinal := @ymdToOrdinal_last a b c (by omega) (by omega) (by omega) (by omega)
      have hyear : a * 400 + 1 + b * 100 + c * 4 + d - 1 = 400 * a + 100 * b + 4 * c + 4 := by omega
      rw [hyear, hordinal]
      congr 1
      omega
    · have hordinal := @ymdToOrdinal_last a 3 24 (by omega) (by omega) (by omega) (by omega)
      have hyear : a * 400 + 1 + b * 100 + c * 4 + d - 1 = 400 * a + 100 * 3 + 4 * 24 + 4 := by omega
      rw [hyear, hordinal]
      congr 1
      omega
  · next hinside =>
    rw [not_or] at hinside
    have hbounds : b < 4 ∧ c < 25 ∧ d < 4 := by omega
    have hyear : a * 400 + 1 + b * 100 + c * 4 + d = 400 * a + 100 * b + 4 * c + d + 1 := by omega
    rw [hyear]
    have hblock := @daysBeforeYear_block a b c d hbounds.1 hbounds.2.1 hbounds.2.2
    have hrange : 1 ≤ 400 * a + 100 * b + 4 * c + d + 1 ∧ 400 * a + 100 * b + 4 * c + d + 1 ≤ 9999 := by omega
    generalize 400 * a + 100 * b + 4 * c + d + 1 = year at hblock hrange ⊢
    obtain ⟨hmonth, hmonth', hfirst, hlast, hsum⟩ := monthDay_numbers year hday
    have hdate : (if daysBeforeMonth year ((day + 50) / 32) ≤ day then
        (⟨year, (day + 50) / 32, day - daysBeforeMonth year ((day + 50) / 32) + 1⟩ : Date)
        else ⟨year, (day + 50) / 32 - 1, day - daysBeforeMonth year ((day + 50) / 32 - 1) + 1⟩) =
          ⟨year, (monthDay year day).1, (monthDay year day).2⟩ := by
      unfold monthDay
      dsimp only
      split <;> rfl
    rw [hdate]
    dsimp only
    rw [ymdToOrdinal, if_pos ⟨hrange.1, hrange.2, hmonth, hmonth', hfirst, hlast⟩, hblock]
    congr 1
    omega

/-! ## Fixed-width numerals -/

theorem padded_eq (width n : Nat) : padded width n = zeros (width - (natRepr n).length) ++ natRepr n := rfl

theorem padded_digits (width n : Nat) : ∀ c ∈ padded width n, isDigit c = true := by
  intro c hc
  rw [padded_eq] at hc
  obtain hc | hc := List.mem_append.mp hc
  · exact zeros_digits _ c hc
  · exact natRepr_digits n c hc

theorem readNat_padded (width n : Nat) : readNat (padded width n) = n := by
  rw [padded_eq, readNat_append, readNat_zeros, zero_mul, zero_add, readNat_natRepr]

theorem length_padded {width n : Nat} (hwidth : 0 < width) (hn : n < 10 ^ width) : (padded width n).length = width := by
  obtain ⟨k, rfl⟩ := Nat.exists_eq_succ_of_ne_zero hwidth.ne'
  have hlength := length_natRepr_le hn
  rw [padded_eq, List.length_append, zeros_length]
  omega

/-- A numeral of `width` digits is read off the front. -/
theorem parseDigits_padded {width n : Nat} (hwidth : 0 < width) (hn : n < 10 ^ width) (rest : Str) :
    parseDigits width (padded width n ++ rest) = some (n, rest) := by
  have hlength := length_padded hwidth hn
  have htake : (padded width n ++ rest).take width = padded width n := by
    rw [List.take_append_of_le_length hlength.ge, List.take_of_length_le hlength.le]
  have hdrop : (padded width n ++ rest).drop width = rest := by
    rw [List.drop_append_of_le_length hlength.ge, List.drop_of_length_le hlength.le, List.nil_append]
  rw [parseDigits, htake, hdrop, readNat_padded, if_pos]
  refine ⟨?_, List.all_eq_true.mpr (padded_digits width n)⟩
  rw [List.length_append]
  omega

/-! ## Dates -/

/-- A date whose numbers have their usual widths. -/
structure Date.Printable (d : Date) : Prop where
  year : d.year < 10000
  month : d.month < 100
  day : d.day < 100

theorem Date.isoformat_eq (d : Date) :
    d.isoformat = padded 4 d.year ++ (ch '-' :: (padded 2 d.month ++ (ch '-' :: padded 2 d.day))) := by
  rw [Date.isoformat]
  simp only [List.append_assoc, List.cons_append]

theorem Date.Printable.length {d : Date} (h : d.Printable) : d.isoformat.length = 10 := by
  have hyear := @length_padded 4 d.year (by decide) h.year
  have hmonth := @length_padded 2 d.month (by decide) h.month
  have hday := @length_padded 2 d.day (by decide) h.day
  rw [Date.isoformat_eq]
  simp only [List.length_append, List.length_cons, hyear, hmonth, hday]

theorem headIs_digit {s : Str} {c : Char} (hs : ∃ d rest, s = d :: rest ∧ isDigit d = true) (hc : isDigit (ch c) = false) :
    headIs s c = false := by
  obtain ⟨d, rest, rfl, hd⟩ := hs
  rw [headIs, List.head?_cons]
  apply decide_eq_false
  intro heq
  rw [Option.some.inj heq, hc] at hd
  cases hd

theorem padded_cons {width n : Nat} (hwidth : 0 < width) (hn : n < 10 ^ width) (rest : Str) :
    ∃ d more, padded width n ++ rest = d :: more ∧ isDigit d = true := by
  have hlength := length_padded hwidth hn
  cases hpadded : padded width n with
  | nil =>
    rw [hpadded] at hlength
    exact absurd hlength hwidth.ne
  | cons d more => exact ⟨d, more ++ rest, rfl, padded_digits width n d (hpadded ▸ List.mem_cons_self)⟩

theorem parseDate_isoformat {d : Date} (h : d.Printable) : parseDate d.isoformat = ymdToOrdinal d.year d.month d.day := by
  have hmonth := headIs_digit (padded_cons (show 0 < 2 by decide) h.month (ch '-' :: padded 2 d.day)) (show isDigit (ch 'W') = false by decide)
  have hday := @parseDigits_padded 2 d.day (by decide) h.day []
  rw [List.append_nil] at hday
  have hdash : ∀ rest : Str, headIs (ch '-' :: rest) '-' = true := fun _ => decide_eq_true rfl
  rw [parseDate, Date.isoformat_eq, parseDigits_padded (show 0 < 4 by decide) h.year]
  simp only [Option.bind_eq_bind, Option.bind_some, hdash, if_true, List.tail_cons, hmonth, Bool.false_eq_true, if_false,
    parseDigits_padded (show 0 < 2 by decide) h.month, expect, hday]

/-- The date is the first ten characters. -/
theorem separatorIndex_isoformat {d : Date} (h : d.Printable) (rest : Str) :
    separatorIndex (d.isoformat ++ rest) = 10 := by
  have hlength := h.length
  have hfour : (d.isoformat ++ rest).drop 4 = ch '-' :: (padded 2 d.month ++ (ch '-' :: padded 2 d.day ++ rest)) := by
    have hyear := @length_padded 4 d.year (by decide) h.year
    rw [Date.isoformat_eq, List.append_assoc, List.drop_append_of_le_length hyear.ge, List.drop_of_length_le hyear.le,
      List.nil_append, List.cons_append, List.append_assoc, List.cons_append]
  have hfive : (d.isoformat ++ rest).drop 5 = padded 2 d.month ++ (ch '-' :: padded 2 d.day ++ rest) := by
    rw [show 5 = 4 + 1 by decide, ← List.drop_drop, hfour]
    rfl
  have hmonth := headIs_digit (padded_cons (show 0 < 2 by decide) h.month (ch '-' :: padded 2 d.day ++ rest))
    (show isDigit (ch 'W') = false by decide)
  have hdash : headIs (ch '-' :: (padded 2 d.month ++ (ch '-' :: padded 2 d.day ++ rest))) '-' = true := decide_eq_true rfl
  rw [separatorIndex, if_neg (by rw [List.length_append]; omega), hfour, hdash, if_pos rfl, hfive, hmonth,
    if_neg Bool.false_ne_true]

/-! ## Times -/

theorem clockText_eq (micros : Nat) : DateTime.clockText micros =
    padded 2 (micros / 1000000 / 3600) ++ (ch ':' :: (padded 2 (micros / 1000000 / 60 % 60) ++
      (ch ':' :: (padded 2 (micros / 1000000 % 60) ++
        if micros % 1000000 = 0 then [] else ch '.' :: padded 6 (micros % 1000000))))) := by
  rw [DateTime.clockText]
  simp only [List.append_assoc, List.cons_append]

theorem parseFraction_padded {n : Nat} (hn : n < 1000000) :
    parseFraction (if n = 0 then [] else ch '.' :: padded 6 n) = some n := by
  split
  · next hzero =>
    rw [hzero]
    rfl
  · have hlength := @length_padded 6 n (by decide) hn
    have hne : padded 6 n ≠ [] := by
      intro hnil
      rw [hnil] at hlength
      cases hlength
    rw [parseFraction, if_pos ⟨.inl rfl, hne, List.all_eq_true.mpr (padded_digits 6 n)⟩, hlength,
      List.take_of_length_le hlength.le, readNat_padded]
    simp

theorem parseClock_clockText {micros : Nat} (h : micros < 86400000000) :
    parseClock (DateTime.clockText micros) =
      some ⟨micros / 1000000 / 3600, micros / 1000000 / 60 % 60, micros / 1000000 % 60, micros % 1000000⟩ := by
  have hcolon : ∀ rest : Str, headIs (ch ':' :: rest) ':' = true := fun _ => decide_eq_true rfl
  have hhour : micros / 1000000 / 3600 < 10 ^ 2 := by omega
  have hminute : micros / 1000000 / 60 % 60 < 10 ^ 2 := by omega
  have hsecond : micros / 1000000 % 60 < 10 ^ 2 := by omega
  have htwo : 0 < 2 := by decide
  rw [parseClock, clockText_eq, parseDigits_padded htwo hhour]
  simp only [Option.bind_eq_bind, Option.bind_some, reduceCtorEq, if_false, hcolon, if_true, List.tail_cons,
    parseDigits_padded htwo hminute, expect, parseDigits_padded htwo hsecond,
    parseFraction_padded (Nat.mod_lt micros (show 1000000 > 0 by decide))]

theorem micros_clock {micros : Nat} :
    (Clock.mk (micros / 1000000 / 3600) (micros / 1000000 / 60 % 60) (micros / 1000000 % 60) (micros % 1000000)).micros =
      micros := by
  rw [Clock.micros, microsPerSecond]
  push_cast
  omega

/-- No character of a clock text starts a zone. -/
theorem clockText_chars (micros : Nat) : ∀ c ∈ DateTime.clockText micros, isZoneStart c = false := by
  have hdigit : ∀ c, isDigit c = true → isZoneStart c = false := by
    intro c hc
    rw [isZoneStart, Bool.or_eq_false_iff, Bool.or_eq_false_iff]
    exact ⟨⟨decide_eq_false (isDigit_ne hc (by decide)), decide_eq_false (isDigit_ne hc (by decide))⟩,
      decide_eq_false (isDigit_ne hc (by decide))⟩
  have hpadded : ∀ width n, ∀ c ∈ padded width n, isZoneStart c = false := fun width n c hc =>
    hdigit c (padded_digits width n c hc)
  have hmarks : isZoneStart (ch ':') = false ∧ isZoneStart (ch '.') = false := by decide
  intro c hc
  rw [clockText_eq] at hc
  simp only [List.mem_append, List.mem_cons] at hc
  obtain hc | rfl | hc | rfl | hc | hc := hc
  · exact hpadded _ _ c hc
  · exact hmarks.1
  · exact hpadded _ _ c hc
  · exact hmarks.1
  · exact hpadded _ _ c hc
  · split at hc
    · cases hc
    · obtain rfl | hc := List.mem_cons.mp hc
      · exact hmarks.2
      · exact hpadded _ _ c hc

theorem parseTime_utc {micros : Nat} (h : micros < 86400000000) :
    parseTime (DateTime.clockText micros ++ u "+00:00") = some ((micros : ℤ), some 0) := by
  have hplus : isZoneStart (ch '+') = true := by decide
  have hzoneText : u "+00:00" = ch '+' :: u "00:00" := by decide
  have hzone : parseZone (u "+00:00") = some (some 0) := by decide +kernel
  have htake : (DateTime.clockText micros ++ u "+00:00").takeWhile (fun c => !isZoneStart c) = DateTime.clockText micros := by
    rw [List.takeWhile_append_of_pos fun c hc => by rw [clockText_chars micros c hc]; rfl, hzoneText,
      List.takeWhile_cons_of_neg (by rw [hplus]; decide), List.append_nil]
  rw [parseTime, htake, List.drop_left, parseClock_clockText h, hzone]
  simp only [Option.bind_eq_bind, Option.bind_some, micros_clock]
  rw [if_pos (by omega)]

/-! ## Datetimes -/

theorem printable_of_ordinal {d : Date} {n : Nat} (h : ymdToOrdinal d.year d.month d.day = some n) : d.Printable := by
  unfold ymdToOrdinal at h
  split_ifs at h with hvalid
  have hdays : daysInMonth d.year d.month ≤ 31 := by
    unfold daysInMonth
    split_ifs <;> omega
  exact ⟨by omega, by omega, by omega⟩

theorem DateTime.isoformat_utc {d : DateTime} (hutc : d.offset = some 0) :
    d.isoformat = d.date.isoformat ++ (ch 'T' :: (clockText (d.micros % microsPerDay).toNat ++ u "+00:00")) := by
  have hoffset : offsetText 0 = u "+00:00" := by decide +kernel
  rw [DateTime.isoformat, hutc]
  dsimp only
  rw [hoffset, List.append_assoc, List.cons_append]

/-- `datetime.fromisoformat(d.isoformat()) == d` in UTC. -/
theorem fromisoformat_isoformat {d : DateTime} (hutc : d.offset = some 0) : fromisoformat d.isoformat = some d := by
  obtain ⟨hlow, hhigh⟩ := d.inRange
  rw [maxMicros, microsPerDay, microsPerSecond, maxOrdinal] at hhigh
  have hday : microsPerDay = 86400000000 := by rw [microsPerDay, microsPerSecond]; norm_num
  obtain ⟨n, hn⟩ := Int.eq_ofNat_of_zero_le (show 0 ≤ d.micros / microsPerDay by rw [hday]; omega)
  obtain ⟨time, htime⟩ := Int.eq_ofNat_of_zero_le (show 0 ≤ d.micros % microsPerDay by rw [hday]; omega)
  have hsum : d.micros = (n : ℤ) * 86400000000 + time := by rw [hday] at hn htime; omega
  have hordinal := @ymdToOrdinal_ord2ymd n (by rw [maxOrdinal]; omega)
  have hdate : d.date = ord2ymd (n + 1) := by rw [DateTime.date, hn, Int.toNat_natCast]
  rw [← hdate] at hordinal
  have hprintable := printable_of_ordinal hordinal
  have hlength := hprintable.length
  have hclock := @parseTime_utc time (by rw [hday] at htime; omega)
  rw [DateTime.isoformat_utc hutc, htime, Int.toNat_natCast, fromisoformat, separatorIndex_isoformat hprintable]
  have htake : ∀ rest : Str, (d.date.isoformat ++ rest).take 10 = d.date.isoformat := fun rest => by
    rw [List.take_append_of_le_length hlength.ge, List.take_of_length_le hlength.le]
  have hdrop : ∀ rest : Str, (d.date.isoformat ++ (ch 'T' :: rest)).drop (10 + 1) = rest := fun rest => by
    rw [← List.drop_drop, List.drop_append_of_le_length hlength.ge, List.drop_of_length_le hlength.le]
    rfl
  have hne : DateTime.clockText time ++ u "+00:00" ≠ [] := by
    have hzone : u "+00:00" ≠ [] := by decide
    exact List.append_ne_nil_of_right_ne_nil _ hzone
  simp only [htake, hdrop, parseDate_isoformat hprintable, hordinal, if_neg hne, hclock, Option.bind_eq_bind,
    Option.bind_some]
  have hmicros : ((n + 1 : ℕ) : ℤ) - 1 = n := by push_cast; ring
  obtain ⟨micros, offset, hrange⟩ := d
  dsimp only at hsum hutc
  subst hutc
  have hinstant : (((n + 1 : ℕ) : ℤ) - 1) * microsPerDay + time = micros := by rw [hmicros, hday, hsum]
  rw [hinstant, DateTime.ofMicros, dif_pos hrange]
  rfl

theorem ascii_padded (width n : Nat) : Ascii (padded width n) := ascii_of_digits (padded_digits width n)

theorem ascii_clockText (micros : Nat) : Ascii (DateTime.clockText micros) := by
  rw [clockText_eq]
  refine (ascii_padded _ _).append (Ascii.cons (by decide) ((ascii_padded _ _).append (Ascii.cons (by decide)
    ((ascii_padded _ _).append ?_))))
  split
  · exact ascii_nil
  · exact Ascii.cons (by decide) (ascii_padded _ _)

theorem ascii_isoformat {d : DateTime} (hutc : d.offset = some 0) : Ascii d.isoformat := by
  rw [DateTime.isoformat_utc hutc, Date.isoformat_eq]
  refine ((ascii_padded _ _).append (Ascii.cons (by decide) ((ascii_padded _ _).append (Ascii.cons (by decide)
    (ascii_padded _ _))))).append (Ascii.cons (by decide) ((ascii_clockText _).append (by decide)))

end Python
