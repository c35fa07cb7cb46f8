import ConfigPanel.Calendar
import ConfigPanel.Value.Shown

/-!
# Timestamp — seconds since the epoch, judged and shown

A timestamp is a whole number of seconds, not negative and no later than the year 9999.
`Timestamp.ofValue` accepts such a number, or a finite double whose whole part is one, takes nothing
for no timestamp, and finds every other value malformed for one of four reasons.  The reason names
the number; where the number has too many digits to be named, the value is refused without being
found malformed.  `Timestamp.lines` gives the minute and the date in three lines.
-/

namespace ConfigPanel.Timestamp

/-! ### Judging -/

/-- Why a value is malformed as a timestamp. -/
inductive Fault where
  | notANumber (kind : String)
  | notFinite (d : Double)
  | negative (n : Int)
  | outOfRange (seconds : Nat)
  deriving DecidableEq, Repr

/-- Why a value gives no timestamp: it is malformed, or its number is too long for the words that
would say so. -/
inductive Refusal where
  | malformed (fault : Fault)
  | tooLong
  deriving DecidableEq, Repr

/-- The last year that can be shown. -/
def lastYear : Nat := 9999

/-- Refuses a number for a reason that names it. -/
def refuse (n : Int) (f : Fault) : Except Refusal Nat :=
  .error (if Numeral.Writable n then .malformed f else .tooLong)

/-- The timestamp that a whole number is. -/
def ofSeconds (n : Int) : Except Refusal Nat :=
  if n < 0 then refuse n (.negative n)
  else if lastYear < Calendar.yearOfSecond n.toNat then refuse n (.outOfRange n.toNat)
  else .ok n.toNat

/-- The timestamp that a value is, or nothing for nothing. -/
def ofValue : Value → Except Refusal (Option Nat)
  | .null    => .ok none
  | .int n   => (ofSeconds n).map some
  | .float d =>
      match d.whole? with
      | some n => (ofSeconds n).map some
      | none   => .error (.malformed (.notFinite d))
  | v        => .error (.malformed (.notANumber v.kind))

/-- From here on a year has no room in 32 bits. -/
def yearOverflow : Nat := 67768036191676800

/-- From here on the seconds have no room in 64 bits. -/
def secondOverflow : Nat := 9223372036854775808

/-- The year of a second as the platform has it, in 32 bits with a sign. -/
def platformYear (seconds : Nat) : Int := Int.bmod (Calendar.yearOfSecond seconds) 4294967296

/-- What the platform says of seconds that are out of range. -/
def rangeReason (seconds : Nat) : String :=
  if secondOverflow ≤ seconds then "timestamp out of range for platform time_t"
  else if yearOverflow ≤ seconds then "[Errno 75] Value too large for defined data type"
  else "year " ++ toString (platformYear seconds) ++ " is out of range"

/-- What is said of a malformed value; the number in it can be written. -/
def Fault.message : Fault → String
  | .notANumber kind => "Timestamp must be a number, got " ++ kind
  | .notFinite d     => "Timestamp must be finite, got " ++ d.shown
  | .negative n      => "Timestamp must not be negative, got " ++ toString n
  | .outOfRange s    => "Timestamp " ++ toString s ++ " is out of range: " ++ rangeReason s

/-- A double is judged by its whole part. -/
theorem ofValue_float {d : Double} {n : Int} (h : d.whole? = some n) :
    ofValue (.float d) = ofValue (.int n) := by
  simp [ofValue, h]

/-! ### Showing -/

/-- A calendar field, with a zero in front when it is below ten. -/
def padded (n : Int) : String := if n < 10 then "0" ++ toString n else toString n

/-- The mark that says in which zone the time is shown. -/
def zoneMark : String := "UTC"

/-- The hour and the minute. -/
def clock (seconds : Nat) : String :=
  padded (seconds % 86400 / 3600 : Nat) ++ ":" ++ padded (seconds % 3600 / 60 : Nat)

/-- The month, the day and the year. -/
def date (seconds : Nat) : String :=
  let d := Calendar.Date.ofDay (Calendar.epochDay + seconds / 86400)
  padded d.month ++ "/" ++ padded d.day ++ "/" ++ toString d.year

/-- The minute, the date and the zone, each on its line. -/
def lines (seconds : Nat) : String := clock seconds ++ "\n" ++ date seconds ++ "\n" ++ zoneMark

example : lines 1700000000 = "22:13\n11/14/2023\nUTC" := by rfl

end ConfigPanel.Timestamp
