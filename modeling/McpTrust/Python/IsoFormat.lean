import McpTrust.Python.DateTime
import McpTrust.Python.FloatRepr

/-! # `isoformat`

The calendar date of a day number and the text of a datetime.
-/

namespace Python

set_option autoImplicit false

structure Date where
  year : Nat
  month : Nat
  day : Nat
  deriving DecidableEq

/-- `_ord2ymd(n)`; day 1 is `0001-01-01`. -/
def ord2ymd (ordinal : Nat) : Date :=
  let n := ordinal - 1
  let n400 := n / 146097
  let n := n % 146097
  let n100 := n / 36524
  let n := n % 36524
  let n4 := n / 1461
  let n := n % 1461
  let n1 := n / 365
  let n := n % 365
  let year := n400 * 400 + 1 + n100 * 100 + n4 * 4 + n1
  if n1 = 4 ∨ n100 = 4 then ⟨year - 1, 12, 31⟩
  else
    let month := (n + 50) / 32
    if daysBeforeMonth year month ≤ n then ⟨year, month, n - daysBeforeMonth year month + 1⟩
    else ⟨year, month - 1, n - daysBeforeMonth year (month - 1) + 1⟩

/-- A numeral of at least `width` digits. -/
def padded (width n : Nat) : Str := List.replicate (width - (natRepr n).length) (ch '0') ++ natRepr n

/-- `date.isoformat()`. -/
def Date.isoformat (d : Date) : Str :=
  padded 4 d.year ++ ch '-' :: padded 2 d.month ++ ch '-' :: padded 2 d.day

namespace DateTime

/-- `d.date()`. -/
def date (d : DateTime) : Date := ord2ymd ((d.micros / microsPerDay).toNat + 1)

/-- `HH:MM:SS`, with the microseconds where there are any. -/
def clockText (micros : Nat) : Str :=
  let seconds := micros / 1000000
  padded 2 (seconds / 3600) ++ ch ':' :: padded 2 (seconds / 60 % 60) ++ ch ':' :: padded 2 (seconds % 60) ++
    if micros % 1000000 = 0 then [] else ch '.' :: padded 6 (micros % 1000000)

/-- `±HH:MM`, with the seconds of an offset that has any. -/
def offsetText (offset : ℤ) : Str :=
  let size := offset.natAbs
  let sign := if offset < 0 then ch '-' else ch '+'
  if size % 60000000 = 0 then sign :: (clockText size).take 5 else sign :: clockText size

/-- `d.isoformat()`. -/
def isoformat (d : DateTime) : Str :=
  d.date.isoformat ++ ch 'T' :: clockText (d.micros % microsPerDay).toNat ++
    match d.offset with
    | some offset => offsetText offset
    | none => []

end DateTime

example : (fromisoformat (u "2024-02-29T23:59:58.000007-05:30")).map DateTime.isoformat =
    some (u "2024-02-29T23:59:58.000007-05:30") := by decide +kernel

end Python
