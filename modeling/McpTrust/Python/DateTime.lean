import McpTrust.Python.Numeral
import McpTrust.Python.PyFloat

/-! # `datetime`

A datetime is its wall clock in microseconds since year 1 and, when aware, its
UTC offset. Shifting it out of the years 1 to 9999 raises `OverflowError`.
-/

namespace Python

set_option autoImplicit false

/-! ## The proleptic Gregorian calendar -/

def isLeap (year : Nat) : Bool :=
  decide (year % 4 = 0) && (decide (year % 100 ≠ 0) || decide (year % 400 = 0))

def daysBeforeYear (year : Nat) : Nat :=
  (year - 1) * 365 + (year - 1) / 4 - (year - 1) / 100 + (year - 1) / 400

def daysInMonth (year month : Nat) : Nat :=
  if month = 2 then (if isLeap year then 29 else 28)
  else if month = 4 ∨ month = 6 ∨ month = 9 ∨ month = 11 then 30
  else 31

def daysBeforeMonth (year : Nat) : Nat → Nat
  | 0 => 0
  | 1 => 0
  | month + 1 => daysBeforeMonth year month + daysInMonth year month

/-- The day number of a date, `0001-01-01` being 1; `none` when there is no such date. -/
def ymdToOrdinal (year month day : Nat) : Option Nat :=
  if 1 ≤ year ∧ year ≤ 9999 ∧ 1 ≤ month ∧ month ≤ 12 ∧ 1 ≤ day ∧ day ≤ daysInMonth year month then
    some (daysBeforeYear year + daysBeforeMonth year month + day)
  else none

def maxOrdinal : Nat := 3652059

/-- The Monday of ISO week 1. -/
def isoWeek1Monday (year : Nat) : Nat :=
  let first := daysBeforeYear year + 1
  let weekday := (first + 6) % 7
  if 3 < weekday then first - weekday + 7 else first - weekday

def isoWeekToOrdinal (year week day : Nat) : Option Nat :=
  let first := (daysBeforeYear year + 1) % 7
  let weeks := if first = 4 ∨ (first = 3 ∧ isLeap year = true) then 53 else 52
  let ordinal := isoWeek1Monday year + (week - 1) * 7 + (day - 1)
  if 1 ≤ year ∧ year ≤ 9999 ∧ 1 ≤ week ∧ week ≤ weeks ∧ 1 ≤ day ∧ day ≤ 7 ∧
      1 ≤ ordinal ∧ ordinal ≤ maxOrdinal then some ordinal
  else none

/-! ## Values -/

def microsPerSecond : ℤ := 1000000

def microsPerDay : ℤ := 86400 * microsPerSecond

/-- One past the last instant of year 9999. -/
def maxMicros : ℤ := maxOrdinal * microsPerDay

structure DateTime where
  micros : ℤ
  offset : Option ℤ
  inRange : 0 ≤ micros ∧ micros < maxMicros
  deriving DecidableEq

namespace DateTime

/-- Microseconds since `0001-01-01T00:00Z`; comparison of aware datetimes compares these. -/
def instant (d : DateTime) : ℤ := d.micros - d.offset.getD 0

def ofMicros (micros : ℤ) (offset : Option ℤ) : Except PyErr DateTime :=
  if h : 0 ≤ micros ∧ micros < maxMicros then .ok ⟨micros, offset, h⟩ else .error .overflowError

/-- `d + delta` for a `timedelta` in microseconds. -/
def add (d : DateTime) (delta : ℤ) : Except PyErr DateTime := ofMicros (d.micros + delta) d.offset

/-- `d.replace(tzinfo=UTC)` when `d` is naive. -/
def assumeUtc (d : DateTime) : DateTime := { d with offset := some (d.offset.getD 0) }

/-- `d.astimezone(UTC)` of an aware datetime. -/
def astimezoneUtc (d : DateTime) : Except PyErr DateTime := ofMicros d.instant (some 0)

/-- `delta.total_seconds()` of a `timedelta` in microseconds. -/
def totalSeconds (delta : ℤ) : ℚ := fl (delta / 1000000)

/-- The instant of the Unix epoch. -/
def epoch : ℤ := 719162 * microsPerDay

/-- `d.timestamp()` of an aware datetime. -/
def timestamp (d : DateTime) : ℚ := totalSeconds (d.instant - epoch)

theorem astimezoneUtc_eq_ok {d e : DateTime} :
    d.astimezoneUtc = .ok e ↔ e.micros = d.instant ∧ e.offset = some 0 := by
  unfold astimezoneUtc ofMicros
  split_ifs with h
  · constructor
    · rintro heq
      cases heq
      exact ⟨rfl, rfl⟩
    · rintro ⟨hm, ho⟩
      obtain ⟨micros, offset, hrange⟩ := e
      subst hm ho
      rfl
  · constructor
    · intro heq
      cases heq
    · rintro ⟨hm, -⟩
      exact absurd (hm ▸ e.inRange) h

end DateTime

/-! ## `datetime.fromisoformat` -/

def parseDigits (n : Nat) (s : Str) : Option (Nat × Str) :=
  if n ≤ s.length ∧ (s.take n).all isDigit = true then some (readNat (s.take n), s.drop n) else none

def expect (c : Char) : Str → Option Str
  | d :: rest => if d = ch c then some rest else none
  | [] => none

def headIs (s : Str) (c : Char) : Bool := decide (s.head? = some (ch c))

/-- Where the date ends, by the fifth and later characters. -/
def separatorIndex (s : Str) : Nat :=
  if s.length = 7 then 7
  else if headIs (s.drop 4) '-' then
    if headIs (s.drop 5) 'W' then
      if headIs (s.drop 8) '-' then
        if (s.drop 10).head?.any isDigit then 8 else 10
      else 8
    else 10
  else if headIs (s.drop 4) 'W' then
    let stop := 7 + ((s.drop 7).takeWhile isDigit).length
    if stop < 9 then stop else if stop % 2 = 0 then 7 else 8
  else 8

def parseDate (s : Str) : Option Nat := do
  let (year, rest) ← parseDigits 4 s
  let dashed := headIs rest '-'
  let rest := if dashed then rest.tail else rest
  if headIs rest 'W' then
    let (week, rest) ← parseDigits 2 rest.tail
    if rest = [] then isoWeekToOrdinal year week 1
    else
      let rest ← if dashed then expect '-' rest else some rest
      let (day, rest) ← parseDigits 1 rest
      if rest = [] then isoWeekToOrdinal year week day else none
  else
    let (month, rest) ← parseDigits 2 rest
    let rest ← if dashed then expect '-' rest else some rest
    let (day, rest) ← parseDigits 2 rest
    if rest = [] then ymdToOrdinal year month day else none

structure Clock where
  hour : Nat
  minute : Nat
  second : Nat
  micro : Nat

def Clock.micros (c : Clock) : ℤ :=
  ((c.hour * 60 + c.minute) * 60 + c.second : ℕ) * microsPerSecond + c.micro

/-- Digits after the sixth of a fraction are dropped. -/
def parseFraction : Str → Option Nat
  | c :: rest =>
    if (c = ch '.' ∨ c = ch ',') ∧ rest ≠ [] ∧ rest.all isDigit = true then
      some (readNat (rest.take 6) * 10 ^ (6 - rest.length))
    else none
  | [] => some 0

/-- `HH[:MM[:SS[.ffffff]]]`, with or without the colons. -/
def parseClock (s : Str) : Option Clock := do
  let (hour, rest) ← parseDigits 2 s
  if rest = [] then some ⟨hour, 0, 0, 0⟩
  else
    let colon := headIs rest ':'
    let (minute, rest) ← parseDigits 2 (if colon then rest.tail else rest)
    if rest = [] then some ⟨hour, minute, 0, 0⟩
    else
      let rest ← if colon then expect ':' rest else some rest
      let (second, rest) ← parseDigits 2 rest
      let micro ← parseFraction rest
      some ⟨hour, minute, second, micro⟩

def isZoneStart (c : CodePoint) : Bool :=
  decide (c = ch '+') || decide (c = ch '-') || decide (c = ch 'Z')

/-- The offset; `none` inside when the text has no zone. -/
def parseZone : Str → Option (Option ℤ)
  | [] => some none
  | c :: rest =>
    if c = ch 'Z' then (if rest = [] then some (some 0) else none)
    else do
      let clock ← parseClock rest
      if clock.micros < microsPerDay then
        some (some (if c = ch '-' then -clock.micros else clock.micros))
      else none

def parseTime (s : Str) : Option (ℤ × Option ℤ) := do
  let clockText := s.takeWhile fun c => !isZoneStart c
  let clock ← parseClock clockText
  let zone ← parseZone (s.drop clockText.length)
  if clock.hour < 24 ∧ clock.minute < 60 ∧ clock.second < 60 then some (clock.micros, zone) else none

/-- `datetime.fromisoformat(s)`, `none` when it raises `ValueError`. -/
def fromisoformat (s : Str) : Option DateTime := do
  let index := separatorIndex s
  let ordinal ← parseDate (s.take index)
  let (time, zone) ← if s.drop (index + 1) = [] then some (0, none) else parseTime (s.drop (index + 1))
  (DateTime.ofMicros ((ordinal - 1 : ℤ) * microsPerDay + time) zone).toOption

/-- `value.replace("Z", "+00:00")`. -/
def expandZulu (s : Str) : Str := s.flatMap fun c => if c = ch 'Z' then u "+00:00" else [c]

example : (fromisoformat (u "1970-01-01T00:00:01.5+01:00")).map DateTime.instant =
    some (DateTime.epoch + 1500000 - 3600 * microsPerSecond) := by decide +kernel
example : (fromisoformat (u "2020-W01-1")).map DateTime.micros =
    (fromisoformat (u "20191230")).map DateTime.micros := by decide +kernel

end Python
