/-!
# Calendar — the date of a day number

Days are counted from the first day of the year 1 in the Gregorian calendar, carried back before
its introduction.  `daysOfYears` counts the days of the first years by the leap rule, and
`yearsBefore` inverts it: a day lies in the year that has begun and not ended
(`daysOfYears_yearsBefore_le`, `lt_daysOfYears_yearsBefore_succ`).  `Date.ofDay` goes on to the
month and the day by the lengths of the months.
-/

namespace ConfigPanel.Calendar

/-! ### Years -/

/-- Every fourth year is a leap year, but of the hundredth ones only every fourth. -/
def isLeap (year : Nat) : Bool := year % 4 = 0 && (year % 100 != 0 || year % 400 = 0)

/-- The days of a year. -/
def yearLength (year : Nat) : Nat := if isLeap year then 366 else 365

/-- The days of the years from 1 to `n`. -/
def daysOfYears (n : Nat) : Nat := 365 * n + n / 4 - n / 100 + n / 400

/-- The number of years that ended before a day.  Since 400 years have 146097 days, the first guess
is off by one at most. -/
def yearsBefore (day : Nat) : Nat :=
  let guess := day * 400 / 146097
  if day < daysOfYears guess then guess - 1
  else if daysOfYears (guess + 1) ≤ day then guess + 1
  else guess

/-- The year in which a day lies. -/
def yearOf (day : Nat) : Nat := yearsBefore day + 1

/-- A year is as long as the leap rule says. -/
theorem daysOfYears_succ (n : Nat) : daysOfYears (n + 1) = daysOfYears n + yearLength (n + 1) := by
  have h4 : (n + 1) / 4 = n / 4 + if (n + 1) % 4 = 0 then 1 else 0 := by split <;> omega
  have h100 : (n + 1) / 100 = n / 100 + if (n + 1) % 100 = 0 then 1 else 0 := by split <;> omega
  have h400 : (n + 1) / 400 = n / 400 + if (n + 1) % 400 = 0 then 1 else 0 := by split <;> omega
  have d4 : (n + 1) % 100 = 0 → (n + 1) % 4 = 0 := by omega
  have d100 : (n + 1) % 400 = 0 → (n + 1) % 100 = 0 := by omega
  have hle : n / 100 ≤ 365 * n + n / 4 := by omega
  simp only [daysOfYears, yearLength, isLeap, Bool.and_eq_true, Bool.or_eq_true,
    decide_eq_true_eq, bne_iff_ne, ne_eq, h4, h100, h400]
  by_cases c4 : (n + 1) % 4 = 0 <;> by_cases c100 : (n + 1) % 100 = 0 <;>
    by_cases c400 : (n + 1) % 400 = 0 <;> simp_all <;> omega

/-- The year in which a day lies has begun. -/
theorem daysOfYears_yearsBefore_le (day : Nat) : daysOfYears (yearsBefore day) ≤ day := by
  have hq := Nat.div_add_mod (day * 400) 146097
  have hr := Nat.mod_lt (day * 400) (show 146097 > 0 by decide)
  simp only [yearsBefore]
  generalize day * 400 / 146097 = q at *
  generalize day * 400 % 146097 = r at *
  split
  · cases q with
    | zero => simp [daysOfYears] at *
    | succ q =>
        simp only [daysOfYears, Nat.add_sub_cancel] at *
        omega
  · split
    · assumption
    · omega

/-- The year in which a day lies has not ended. -/
theorem lt_daysOfYears_yearsBefore_succ (day : Nat) :
    day < daysOfYears (yearsBefore day + 1) := by
  have hq := Nat.div_add_mod (day * 400) 146097
  have hr := Nat.mod_lt (day * 400) (show 146097 > 0 by decide)
  simp only [yearsBefore]
  generalize day * 400 / 146097 = q at *
  generalize day * 400 % 146097 = r at *
  split
  · cases q with
    | zero => simp [daysOfYears] at *
    | succ q => assumption
  · split
    · simp only [daysOfYears] at *
      omega
    · omega

/-! ### Months -/

/-- The days of the months of a year. -/
def monthLengths (year : Nat) : List Nat :=
  [31, if isLeap year then 29 else 28, 31, 30, 31, 30, 31, 31, 30, 31, 30, 31]

/-- The month, counted on from `month`, and the day in it of the day with the given place. -/
def splitMonths (month : Nat) : List Nat → Nat → Nat × Nat
  | [], place             => (month, place + 1)
  | length :: rest, place =>
      if place < length then (month, place + 1) else splitMonths (month + 1) rest (place - length)

/-- The days of periods that follow one another. -/
def total (lengths : List Nat) : Nat := lengths.foldr (· + ·) 0

/-- The months of a year make the year. -/
theorem total_monthLengths (year : Nat) : total (monthLengths year) = yearLength year := by
  simp only [monthLengths, yearLength]
  split <;> rfl

/-! ### Dates -/

/-- A year, a month and a day, each counted from one. -/
structure Date where
  year : Nat
  month : Nat
  day : Nat
  deriving DecidableEq, Repr

/-- The date of a day number. -/
def Date.ofDay (n : Nat) : Date :=
  let split := splitMonths 1 (monthLengths (yearOf n)) (n - daysOfYears (yearsBefore n))
  ⟨yearOf n, split.1, split.2⟩

/-- A date that the calendar has. -/
def Date.Valid (d : Date) : Prop :=
  1 ≤ d.year ∧ 1 ≤ d.month ∧ 1 ≤ d.day ∧
    ∃ length, (monthLengths d.year)[d.month - 1]? = some length ∧ d.day ≤ length

/-- The lengths of the years from 1 to `n`. -/
def yearLengths (n : Nat) : List Nat := (List.range n).map fun k => yearLength (k + 1)

/-- The number of a date, counted up by the lengths of the years and months before it. -/
def Date.toDay (d : Date) : Nat :=
  total (yearLengths (d.year - 1)) + total ((monthLengths d.year).take (d.month - 1)) + (d.day - 1)

theorem total_append (xs ys : List Nat) : total (xs ++ ys) = total xs + total ys := by
  induction xs with
  | nil => simp [total]
  | cons x xs ih =>
      simp only [total, List.cons_append, List.foldr_cons] at ih ⊢
      omega

/-- Counting the years up gives what the leap rule gives at once. -/
theorem total_yearLengths (n : Nat) : total (yearLengths n) = daysOfYears n := by
  induction n with
  | zero => rfl
  | succ n ih =>
      have : yearLengths (n + 1) = yearLengths n ++ [yearLength (n + 1)] := by
        simp [yearLengths, List.range_succ]
      rw [this, total_append, ih, daysOfYears_succ]
      rfl

/-- The number of the first of January 1970, from which seconds are counted. -/
def epochDay : Nat := 719162

theorem ofDay_epochDay : Date.ofDay epochDay = ⟨1970, 1, 1⟩ := by decide

/-- The year in which a second since the epoch lies. -/
def yearOfSecond (seconds : Nat) : Nat := yearOf (epochDay + seconds / 86400)

end ConfigPanel.Calendar
