import McpTrust.Python.IsoRoundtrip
import McpTrust.Site.Parity

/-! # The order of `isoformat` texts

Fields of a fixed width are ordered as their numbers, and the date of a day is
later than that of an earlier one; so are the texts of two datetimes in UTC.
-/

namespace Python

set_option autoImplicit false

/-! ## Texts compared from the left -/

/-- The order of the code points. -/
def TextBefore (s t : Str) : Prop := s.map (fun c => c.val) < t.map fun c => c.val

theorem before_cons {c d : CodePoint} {s t : Str} : TextBefore (c :: s) (d :: t) ↔ c.val < d.val ∨ c = d ∧ TextBefore s t := by
  rw [TextBefore, TextBefore, List.map_cons, List.map_cons, List.cons_lt_cons_iff, Fin.val_inj]

theorem TextBefore.append {s t : Str} (h : TextBefore s t) (hlength : s.length = t.length) (a b : Str) :
    TextBefore (s ++ a) (t ++ b) := by
  induction s generalizing t with
  | nil =>
    rw [List.eq_nil_of_length_eq_zero hlength.symm] at h
    exact absurd h (lt_irrefl _)
  | cons c s ih =>
    cases t with
    | nil => cases hlength
    | cons d t =>
      obtain hlt | ⟨rfl, hrest⟩ := before_cons.mp h
      · exact before_cons.mpr (.inl hlt)
      · exact before_cons.mpr (.inr ⟨rfl, ih hrest (Nat.succ.inj hlength)⟩)

theorem TextBefore.prepend {a b : Str} (h : TextBefore a b) (s : Str) : TextBefore (s ++ a) (s ++ b) := by
  induction s with
  | nil => exact h
  | cons c s ih => exact before_cons.mpr (.inr ⟨rfl, ih⟩)

/-! ## Numerals of a fixed width -/

theorem decimalRev_fuel {fuel more n : Nat} (h : n < fuel) (hmore : n < more) :
    decimalRev fuel n = decimalRev more n := by
  induction fuel generalizing more n with
  | zero => omega
  | succ fuel ih =>
    cases more with
    | zero => omega
    | succ more =>
      rw [decimalRev, decimalRev]
      split
      · rfl
      · rw [@ih more (n / 10) (by omega) (by omega)]

theorem natRepr_of_lt {n : Nat} (h : n < 10) : natRepr n = [digitChar n] := by
  rw [natRepr, decimalRev, if_pos h]
  rfl

theorem natRepr_snoc {n : Nat} (h : 10 ≤ n) : natRepr n = natRepr (n / 10) ++ [digitChar n] := by
  rw [natRepr, decimalRev, if_neg (by omega), List.reverse_cons, natRepr,
    @decimalRev_fuel n (n / 10 + 1) (n / 10) (by omega) (by omega)]

/-- One more digit on the right. -/
theorem padded_snoc {width n : Nat} (hwidth : 0 < width) :
    padded (width + 1) n = padded width (n / 10) ++ [digitChar n] := by
  by_cases h : n < 10
  · have hzero : n / 10 = 0 := by omega
    have hchar : digitChar 0 = ch '0' := by decide
    obtain ⟨width, rfl⟩ := Nat.exists_eq_succ_of_ne_zero hwidth.ne'
    rw [padded, padded, natRepr_of_lt h, hzero, natRepr_of_lt (by omega), hchar, List.length_singleton,
      List.length_singleton, Nat.add_sub_cancel, Nat.succ_sub_one, ← List.replicate_succ', Nat.succ_eq_add_one]
  · rw [padded, padded, natRepr_snoc (by omega), List.length_append, List.length_singleton, ← List.append_assoc,
      Nat.add_sub_add_right]

theorem padded_before {width m n : Nat} (hwidth : 0 < width) (hlt : m < n) (h : n < 10 ^ width) :
    TextBefore (padded width m) (padded width n) := by
  induction width, hwidth using Nat.le_induction generalizing m n with
  | base =>
    have hpad : ∀ k, k < 10 → padded 1 k = [digitChar k] := fun k hk => by
      rw [padded, natRepr_of_lt hk]
      rfl
    rw [hpad m (by omega), hpad n (by omega)]
    refine before_cons.mpr (.inl ?_)
    change 48 + m % 10 < 48 + n % 10
    omega
  | succ width hwidth ih =>
    rw [padded_snoc hwidth, padded_snoc hwidth]
    have hn : n / 10 < 10 ^ width := by
      rw [Nat.pow_succ] at h
      omega
    by_cases hlead : m / 10 < n / 10
    · exact (ih hlead hn).append (by rw [length_padded hwidth hn, length_padded hwidth (hlead.trans hn)]) _ _
    · have heq : m / 10 = n / 10 := by omega
      rw [heq]
      refine (before_cons.mpr (.inl ?_)).prepend _
      change 48 + m % 10 < 48 + n % 10
      omega

/-- A field of a fixed width, with what stands behind it. -/
theorem field_before {width m n : Nat} {s t : Str} (hwidth : 0 < width) (h : n < 10 ^ width)
    (hlt : m < n ∨ m = n ∧ TextBefore s t) : TextBefore (padded width m ++ s) (padded width n ++ t) := by
  obtain hlt | ⟨rfl, hrest⟩ := hlt
  · exact (padded_before hwidth hlt h).append (by rw [length_padded hwidth h, length_padded hwidth (hlt.trans h)]) s t
  · exact hrest.prepend _

/-! ## The calendar -/

/-- The days of a year before a month. -/
def monthStart (leap : Bool) (month : Nat) : Nat :=
  ([0, 0, 31, 59, 90, 120, 151, 181, 212, 243, 273, 304, 334, 365].getD month 0) + if leap ∧ 2 < month then 1 else 0

theorem daysBeforeMonth_eq {year month : Nat} (h : month ≤ 13) :
    daysBeforeMonth year month = monthStart (isLeap year) month := by
  cases hleap : isLeap year <;> interval_cases month <;> simp [daysBeforeMonth, daysInMonth, monthStart, hleap]

theorem daysBeforeYear_succ {year : Nat} (h : 1 ≤ year) :
    daysBeforeYear (year + 1) = daysBeforeYear year + daysBeforeMonth year 13 := by
  have hblock : ∃ a b c d, b < 4 ∧ c < 25 ∧ d < 4 ∧ year = 400 * a + 100 * b + 4 * c + d + 1 :=
    ⟨(year - 1) / 400, (year - 1) % 400 / 100, (year - 1) % 100 / 4, (year - 1) % 4, by omega, by omega,
      by omega, by omega⟩
  obtain ⟨a, b, c, d, hb, hc, hd, rfl⟩ := hblock
  rw [daysBeforeMonth_eq le_rfl, isLeap_block hb hc hd, daysBeforeYear_block hb hc hd]
  have hcommon : monthStart false 13 = 365 := by decide
  have hleap : monthStart true 13 = 366 := by decide
  -- the last year of a block carries into the next one
  obtain hyear | ⟨rfl, hfour⟩ | ⟨rfl, rfl, hcentury⟩ | ⟨rfl, rfl, rfl⟩ :
      d < 3 ∨ (d = 3 ∧ c < 24) ∨ (d = 3 ∧ c = 24 ∧ b < 3) ∨ (d = 3 ∧ c = 24 ∧ b = 3) := by omega
  · have hnext := @daysBeforeYear_block a b c (d + 1) hb hc (by omega)
    rw [decide_eq_false (fun h => by omega), hcommon]
    exact hnext.trans (by omega)
  · have hnext := @daysBeforeYear_block a b (c + 1) 0 hb (by omega) (by decide)
    have hyear : 400 * a + 100 * b + 4 * (c + 1) + 0 + 1 = 400 * a + 100 * b + 4 * c + 3 + 1 + 1 := by omega
    rw [decide_eq_true ⟨rfl, .inl (by omega)⟩, hleap, ← hyear, hnext]
    omega
  · have hnext := @daysBeforeYear_block a (b + 1) 0 0 (by omega) (by decide) (by decide)
    have hyear : 400 * a + 100 * (b + 1) + 4 * 0 + 0 + 1 = 400 * a + 100 * b + 4 * 24 + 3 + 1 + 1 := by omega
    rw [decide_eq_false (fun h => by omega), hcommon, ← hyear, hnext]
    omega
  · have hnext := @daysBeforeYear_block (a + 1) 0 0 0 (by decide) (by decide) (by decide)
    have hyear : 400 * (a + 1) + 100 * 0 + 4 * 0 + 0 + 1 = 400 * a + 100 * 3 + 4 * 24 + 3 + 1 + 1 := by omega
    rw [decide_eq_true ⟨rfl, .inr rfl⟩, hleap, ← hyear, hnext]
    omega

theorem daysBeforeMonth_le {year month later : Nat} (h : month ≤ later) :
    daysBeforeMonth year month ≤ daysBeforeMonth year later := by
  induction later, h using Nat.le_induction with
  | base => exact le_rfl
  | succ later _ ih =>
    refine ih.trans ?_
    cases later with
    | zero => exact le_rfl
    | succ later => exact Nat.le_add_right _ _

theorem daysBeforeYear_le {year later : Nat} (hfirst : 1 ≤ year) (h : year ≤ later) :
    daysBeforeYear year ≤ daysBeforeYear later := by
  induction later, h using Nat.le_induction with
  | base => exact le_rfl
  | succ later hlater ih =>
    rw [daysBeforeYear_succ (hfirst.trans hlater)]
    exact ih.trans (Nat.le_add_right _ _)

theorem day_in_month {year month day : Nat} (hmonth : 1 ≤ month) (hday : day ≤ daysInMonth year month) :
    daysBeforeMonth year month + day ≤ daysBeforeMonth year (month + 1) := by
  obtain ⟨month, rfl⟩ := Nat.exists_eq_add_of_le' hmonth
  exact Nat.add_le_add_left hday _

/-- Two dates are ordered as their day numbers. -/
theorem date_lex {a b : Date} {m n : Nat} (ha : ymdToOrdinal a.year a.month a.day = some m)
    (hb : ymdToOrdinal b.year b.month b.day = some n) (h : m < n) :
    a.year < b.year ∨ a.year = b.year ∧ (a.month < b.month ∨ a.month = b.month ∧ a.day < b.day) := by
  unfold ymdToOrdinal at ha hb
  split_ifs at ha hb with hvalid hvalid'
  obtain ⟨hyear, -, hmonth, hmonths, hday, hdays⟩ := hvalid
  obtain ⟨hyear', -, hmonth', hmonths', hday', hdays'⟩ := hvalid'
  obtain rfl := Option.some.inj ha
  obtain rfl := Option.some.inj hb
  by_contra hlex
  obtain hlater | ⟨heq, hlater | ⟨hmonths, hlater⟩⟩ : b.year < a.year ∨
      b.year = a.year ∧ (b.month < a.month ∨ b.month = a.month ∧ b.day ≤ a.day) := by omega
  · -- a later year begins after the last day of an earlier one
    have hend := (day_in_month hmonth' hdays').trans (daysBeforeMonth_le (show b.month + 1 ≤ 13 by omega))
    have hyears := daysBeforeYear_le (by omega) (show b.year + 1 ≤ a.year by omega)
    rw [daysBeforeYear_succ hyear'] at hyears
    omega
  · have hend := (day_in_month hmonth' hdays').trans (daysBeforeMonth_le (show b.month + 1 ≤ a.month by omega))
    rw [heq] at h hend
    omega
  · rw [heq, hmonths] at h
    omega

theorem date_before {a b : Date} {m n : Nat} (ha : ymdToOrdinal a.year a.month a.day = some m)
    (hb : ymdToOrdinal b.year b.month b.day = some n) (h : m < n) : TextBefore a.isoformat b.isoformat := by
  have hprintable := printable_of_ordinal hb
  have hfields := date_lex ha hb h
  rw [Date.isoformat_eq, Date.isoformat_eq]
  refine field_before (by decide) hprintable.year (hfields.imp_right (And.imp_right fun hmonths => ?_))
  refine before_cons.mpr (.inr ⟨rfl, ?_⟩)
  refine field_before (by decide) hprintable.month (hmonths.imp_right (And.imp_right fun hdays => ?_))
  exact before_cons.mpr (.inr ⟨rfl, padded_before (by decide) hdays hprintable.day⟩)

/-! ## The clock -/

/-- What stands behind the seconds: the zone alone sorts before a fraction. -/
def fractionText (micros : Nat) : Str :=
  (if micros = 0 then [] else ch '.' :: padded 6 micros) ++ u "+00:00"

theorem fraction_before {m n : Nat} (h : m < n) (hn : n < 1000000) :
    TextBefore (fractionText m) (fractionText n) := by
  have hplus : u "+00:00" = ch '+' :: u "00:00" := by decide
  unfold fractionText
  rw [if_neg (show n ≠ 0 by omega)]
  by_cases hzero : m = 0
  · rw [if_pos hzero, List.nil_append, hplus]
    exact before_cons.mpr (.inl (by decide))
  · rw [if_neg hzero]
    exact before_cons.mpr (.inr ⟨rfl, field_before (by decide) hn (.inl h)⟩)

theorem clockText_zone (micros : Nat) : DateTime.clockText micros ++ u "+00:00" =
    padded 2 (micros / 1000000 / 3600) ++ (ch ':' :: (padded 2 (micros / 1000000 / 60 % 60) ++
      (ch ':' :: (padded 2 (micros / 1000000 % 60) ++ fractionText (micros % 1000000))))) := by
  rw [clockText_eq, fractionText]
  simp only [List.append_assoc, List.cons_append]

theorem clock_before {m n : Nat} (h : m < n) (hn : n < 86400000000) :
    TextBefore (DateTime.clockText m ++ u "+00:00") (DateTime.clockText n ++ u "+00:00") := by
  rw [clockText_zone, clockText_zone]
  have hhours : m / 1000000 / 3600 < n / 1000000 / 3600 ∨ m / 1000000 / 3600 = n / 1000000 / 3600 ∧
      (m / 1000000 / 60 % 60 < n / 1000000 / 60 % 60 ∨ m / 1000000 / 60 % 60 = n / 1000000 / 60 % 60 ∧
        (m / 1000000 % 60 < n / 1000000 % 60 ∨ m / 1000000 % 60 = n / 1000000 % 60 ∧
          m % 1000000 < n % 1000000)) := by omega
  refine field_before (by decide) (by omega) (hhours.imp_right (And.imp_right fun hminutes => ?_))
  refine before_cons.mpr (.inr ⟨rfl, ?_⟩)
  refine field_before (by decide) (by omega) (hminutes.imp_right (And.imp_right fun hseconds => ?_))
  refine before_cons.mpr (.inr ⟨rfl, ?_⟩)
  refine field_before (by decide) (by omega) (hseconds.imp_right (And.imp_right fun hmicros => ?_))
  exact fraction_before hmicros (Nat.mod_lt _ (by decide))

/-! ## Datetimes -/

/-- The day and the clock of an instant. -/
theorem DateTime.parts (d : DateTime) : ∃ day time : Nat, d.micros = (day : ℤ) * 86400000000 + time ∧
    time < 86400000000 ∧ d.date = ord2ymd (day + 1) ∧ (d.micros % microsPerDay).toNat = time ∧
      ymdToOrdinal d.date.year d.date.month d.date.day = some (day + 1) := by
  obtain ⟨hlow, hhigh⟩ := d.inRange
  rw [maxMicros, microsPerDay, microsPerSecond, maxOrdinal] at hhigh
  have hday : microsPerDay = 86400000000 := by rw [microsPerDay, microsPerSecond]; norm_num
  obtain ⟨day, hdays⟩ := Int.eq_ofNat_of_zero_le (show 0 ≤ d.micros / microsPerDay by rw [hday]; omega)
  obtain ⟨time, htime⟩ := Int.eq_ofNat_of_zero_le (show 0 ≤ d.micros % microsPerDay by rw [hday]; omega)
  have hdate : d.date = ord2ymd (day + 1) := by rw [DateTime.date, hdays, Int.toNat_natCast]
  have hordinal := @ymdToOrdinal_ord2ymd day (by rw [maxOrdinal]; rw [hday] at hdays; omega)
  rw [← hdate] at hordinal
  rw [hday] at hdays htime
  exact ⟨day, time, by omega, by omega, hdate, by rw [hday, htime, Int.toNat_natCast], hordinal⟩

/-- Texts of UTC datetimes are ordered as the instants. -/
theorem DateTime.isoformat_before {a b : DateTime} (ha : a.offset = some 0) (hb : b.offset = some 0)
    (h : a.micros < b.micros) : TextBefore a.isoformat b.isoformat := by
  obtain ⟨day, time, hmicros, htime, hdate, hclock, hordinal⟩ := a.parts
  obtain ⟨day', time', hmicros', htime', hdate', hclock', hordinal'⟩ := b.parts
  rw [DateTime.isoformat_utc ha, DateTime.isoformat_utc hb, hclock, hclock']
  obtain hdays | ⟨hdays, htimes⟩ : day < day' ∨ day = day' ∧ time < time' := by omega
  · refine (date_before hordinal hordinal' (by omega)).append ?_ _ _
    rw [(printable_of_ordinal hordinal).length, (printable_of_ordinal hordinal').length]
  · have hsame : a.date.isoformat = b.date.isoformat := by
      rw [hdate, hdate', hdays]
    rw [hsame]
    exact (before_cons.mpr (.inr ⟨rfl, clock_before htimes htime'⟩)).prepend _

theorem TextBefore.irrefl (s : Str) : ¬TextBefore s s := lt_irrefl _

theorem TextBefore.asymm {s t : Str} (h : TextBefore s t) : ¬TextBefore t s := lt_asymm h

theorem DateTime.eq_of_micros {a b : DateTime} (ha : a.offset = some 0) (hb : b.offset = some 0)
    (h : a.micros = b.micros) : a = b := by
  obtain ⟨micros, offset, hrange⟩ := a
  obtain ⟨micros', offset', hrange'⟩ := b
  dsimp only at ha hb h
  subst ha hb h
  rfl

theorem DateTime.isoformat_before_iff {a b : DateTime} (ha : a.offset = some 0) (hb : b.offset = some 0) :
    TextBefore a.isoformat b.isoformat ↔ a.micros < b.micros := by
  refine ⟨fun h => ?_, DateTime.isoformat_before ha hb⟩
  obtain hlt | heq | hgt := lt_trichotomy a.micros b.micros
  · exact hlt
  · rw [DateTime.eq_of_micros ha hb heq] at h
    exact absurd h (TextBefore.irrefl _)
  · exact absurd h (DateTime.isoformat_before hb ha hgt).asymm

end Python
