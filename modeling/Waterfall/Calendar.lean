import Waterfall.Decimal.Text
import Waterfall.Trace

set_option autoImplicit false

namespace Waterfall

structure Date where
  year : Nat
  month : Nat
  day : Nat
  deriving DecidableEq

namespace Date

-- Years begin in March here, so that a leap day is the last of its year; 400 of them have 146097
-- days. Days are counted from the first of March of the year zero.
def ofMarchDays (days : Nat) : Date :=
  let era := days / 146097
  let inEra := days % 146097
  let yearOfEra := (inEra - inEra / 1460 + inEra / 36524 - inEra / 146096) / 365
  let inYear := inEra - (365 * yearOfEra + yearOfEra / 4 - yearOfEra / 100)
  let march := (5 * inYear + 2) / 153
  let month := if march < 10 then march + 3 else march - 9
  { year := yearOfEra + 400 * era + (if month ≤ 2 then 1 else 0)
    month := month
    day := inYear - (153 * march + 2) / 5 + 1 }

def ofDays (days : Nat) : Date :=
  ofMarchDays (days + 719468)

end Date

def padded (width n : Nat) : String :=
  let digits := toString n
  Decimal.zeros (width - digits.length) ++ digits

def Date.text (d : Date) : String :=
  padded 4 d.year ++ "-" ++ padded 2 d.month ++ "-" ++ padded 2 d.day

def Instant.text (i : Instant) : String :=
  let second := i.seconds % 86400
  (Date.ofDays (i.seconds / 86400)).text ++ " " ++ padded 2 (second / 3600) ++ ":"
    ++ padded 2 (second / 60 % 60) ++ ":" ++ padded 2 (second % 60) ++ "."
    ++ padded 3 (i.nanos / 1000000)

end Waterfall
