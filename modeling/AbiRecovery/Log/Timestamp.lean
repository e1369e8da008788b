import AbiRecovery.Text.Hexadecimal

/-!
# Time stamps

Seconds since the start of 1970 as a date and a time of day, as the clocks of a zone show it. The seconds
are a signed number of 64 bits. A year is one of 32 bits, counted from 1900 in dates and from the start in
texts, so a few of the last years have dates and no texts. Years are counted from the first
of March, so that the leap day ends its year, in eras of four hundred years, which all have the same
number of days.
-/
namespace AbiRecovery.Log

structure Date where
  year : Int
  month : Nat
  day : Nat
  deriving DecidableEq, Repr

/-- The date a number of days after the first of January 1970. -/
def Date.ofDays (days : Int) : Date :=
  let shifted := days + 719468
  let era := shifted.fdiv 146097
  let dayOfEra := (shifted.fmod 146097).toNat
  let yearOfEra := (dayOfEra - dayOfEra / 1460 + dayOfEra / 36524 - dayOfEra / 146096) / 365
  let dayOfYear := dayOfEra - (365 * yearOfEra + yearOfEra / 4 - yearOfEra / 100)
  let monthFromMarch := (5 * dayOfYear + 2) / 153
  let day := dayOfYear - (153 * monthFromMarch + 2) / 5 + 1
  let month := if monthFromMarch < 10 then monthFromMarch + 3 else monthFromMarch - 9
  let year : Int := yearOfEra + era * 400
  ⟨if month ≤ 2 then year + 1 else year, month, day⟩

def twoDigits (n : Nat) : String := String.ofList (Text.padLeft 2 '0' (toString n).toList)

structure Zone where
  /-- How many seconds its clocks are ahead of UTC at a time. -/
  ahead : Int → Int

namespace Zone

def utc : Zone := ⟨fun _ => 0⟩

/-- What the clocks show at a time, as the seconds that UTC would call it. -/
def shown (zone : Zone) (seconds : Int) : Int := seconds + zone.ahead seconds

end Zone

inductive TimeFault where
  /-- No clock shows it. -/
  | clock
  /-- It is in a year without dates. -/
  | date
  /-- It is in a year without a text. -/
  | year
  deriving DecidableEq, Repr

def TimeFault.message : TimeFault → String
  | .clock => "timestamp out of range for platform time_t"
  | .date => "[Errno 75] Value too large for defined data type"
  | .year => "signed integer is greater than maximum"

/-- The fault of a time, from its seconds and the year that is shown. -/
def timeFault? (seconds year : Int) : Option TimeFault :=
  if seconds < -0x8000000000000000 || 0x8000000000000000 ≤ seconds then some .clock
  else if year < 1900 - 0x80000000 || 1900 + 0x80000000 ≤ year then some .date
  else if 0x80000000 ≤ year then some .year
  else none

/-- A date and the second of a day as text. -/
def Date.text (date : Date) (second : Nat) : String :=
  toString date.year ++ "-" ++ twoDigits date.month ++ "-" ++ twoDigits date.day ++ "T" ++
    twoDigits (second / 3600) ++ ":" ++ twoDigits (second / 60 % 60) ++ ":" ++ twoDigits (second % 60)

/-- The text for a number of seconds since the start of 1970. -/
def timestamp (zone : Zone) (seconds : Int) : Except TimeFault String :=
  let shown := zone.shown seconds
  let date := Date.ofDays (shown.fdiv 86400)
  match timeFault? seconds date.year with
  | some fault => .error fault
  | none => .ok (date.text (shown.fmod 86400).toNat)

end AbiRecovery.Log
