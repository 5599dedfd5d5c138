/-!
Moments in time, counted in milliseconds from the start of the year 1970, and their calendar
dates in universal time. Days are counted in eras of 400 years that begin in March, so that
the leap day is the last day of its year.
-/
namespace SnippetRunner

structure Moment where
  milliseconds : Nat
  deriving DecidableEq, Repr

structure CalendarDate where
  year : Nat
  month : Nat
  day : Nat
  deriving DecidableEq, Repr

def CalendarDate.ofDays (days : Nat) : CalendarDate :=
  let z := days + 719468
  let era := z / 146097
  let dayOfEra := z % 146097
  let yearOfEra := (dayOfEra - dayOfEra / 1460 + dayOfEra / 36524 - dayOfEra / 146096) / 365
  let dayOfYear := dayOfEra - (365 * yearOfEra + yearOfEra / 4 - yearOfEra / 100)
  let shifted := (5 * dayOfYear + 2) / 153
  let month := if shifted < 10 then shifted + 3 else shifted - 9
  { year := yearOfEra + era * 400 + (if month ≤ 2 then 1 else 0)
    month
    day := dayOfYear - (153 * shifted + 2) / 5 + 1 }

namespace Moment

def padded (width n : Nat) : String :=
  let digits := toString n
  String.ofList (List.replicate (width - digits.length) '0') ++ digits

def date (t : Moment) : CalendarDate := .ofDays (t.milliseconds / 86400000)

def dateText (t : Moment) : String :=
  s!"{padded 4 t.date.year}-{padded 2 t.date.month}-{padded 2 t.date.day}"

def timeText (t : Moment) : String :=
  let seconds := t.milliseconds / 1000
  s!"{padded 2 (seconds / 3600 % 24)}:{padded 2 (seconds / 60 % 60)}:{padded 2 (seconds % 60)}"

def logText (t : Moment) : String :=
  s!"{t.dateText} {t.timeText}"

/-- Date and time in the international form, with a fraction unless it is zero. -/
def isoText (t : Moment) : String :=
  let fraction := t.milliseconds % 1000
  let shown := if fraction == 0 then "" else s!".{padded 3 fraction}000"
  s!"{t.dateText}T{t.timeText}{shown}Z"

end Moment

end SnippetRunner
