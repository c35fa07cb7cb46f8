import ConfigPanel.Proofs.Timestamp

/-!
# Calendar — days and dates

`Date.ofDay` finds the year of a day by the leap rule and goes on through its months; `Date.toDay`
counts a date up by the lengths of the years and months before it.  Each undoes the other.

* `splitMonths_total_add`: a day that lies `p` days into a month is found there, in any list of
  month lengths; `exists_place` says that every day of the year lies so in one of them.
* `valid_ofDay`, `toDay_ofDay`: the date of a day is one that the calendar has, and its number is
  the day.
* `ofDay_toDay`: every date that the calendar has is the date of its number.
-/

namespace ConfigPanel.Calendar

/-! ### A place among months -/

/-- The place in a period is found behind the periods before it. -/
theorem splitMonths_total_add {lengths : List Nat} {i length p : Nat}
    (hi : lengths[i]? = some length) (hp : p < length) (month : Nat) :
    splitMonths month lengths (total (lengths.take i) + p) = (month + i, p + 1) := by
  induction lengths generalizing i month with
  | nil => simp at hi
  | cons first rest ih =>
      cases i with
      | zero =>
          obtain rfl : first = length := by simpa using hi
          simp [splitMonths, total, hp]
      | succ i =>
          have hrest : rest[i]? = some length := by simpa using hi
          have htotal : total ((first :: rest).take (i + 1)) = first + total (rest.take i) := rfl
          have hplace : first + total (rest.take i) + p - first = total (rest.take i) + p := by
            omega
          rw [splitMonths, htotal, if_neg (by omega), hplace, ih hrest]
          congr 1
          omega

/-- Every day of a span lies in one of its periods. -/
theorem exists_place {lengths : List Nat} {n : Nat} (h : n < total lengths) :
    ∃ i length p, lengths[i]? = some length ∧ p < length ∧ n = total (lengths.take i) + p := by
  induction lengths generalizing n with
  | nil => cases h
  | cons first rest ih =>
      by_cases hn : n < first
      · exact ⟨0, first, n, rfl, hn, (Nat.zero_add n).symm⟩
      · have htotal : total (first :: rest) = first + total rest := rfl
        obtain ⟨i, length, p, hi, hp, heq⟩ := ih (show n - first < total rest by omega)
        refine ⟨i + 1, length, p, by simpa using hi, hp, ?_⟩
        have htake : total ((first :: rest).take (i + 1)) = first + total (rest.take i) := rfl
        omega

/-- A place in a period lies before the end of all of them. -/
theorem total_take_add_lt {lengths : List Nat} {i length p : Nat}
    (hi : lengths[i]? = some length) (hp : p < length) :
    total (lengths.take i) + p < total lengths := by
  obtain ⟨hlt, rfl⟩ := List.getElem?_eq_some_iff.mp hi
  have hsplit : total lengths
      = total (lengths.take i) + (lengths[i] + total (lengths.drop (i + 1))) :=
    calc total lengths
        = total (lengths.take i ++ lengths.drop i) := by rw [List.take_append_drop]
      _ = total (lengths.take i) + total (lengths.drop i) := total_append _ _
      _ = total (lengths.take i) + (lengths[i] + total (lengths.drop (i + 1))) := by
          rw [List.drop_eq_getElem_cons hlt]
          rfl
  omega

/-! ### Dates of days -/

/-- A day lies in one of the months of its year. -/
theorem exists_ofDay (n : Nat) :
    ∃ i length p, (monthLengths (yearOf n))[i]? = some length ∧ p < length ∧
      n = daysOfYears (yearsBefore n) + total ((monthLengths (yearOf n)).take i) + p ∧
      Date.ofDay n = ⟨yearOf n, i + 1, p + 1⟩ := by
  have hle := daysOfYears_yearsBefore_le n
  have hlt := lt_daysOfYears_yearsBefore_succ n
  rw [daysOfYears_succ, ← total_monthLengths] at hlt
  obtain ⟨i, length, p, hi, hp, hplace⟩ :=
    exists_place (show n - daysOfYears (yearsBefore n) < total (monthLengths (yearOf n)) by
      rw [yearOf]; omega)
  refine ⟨i, length, p, hi, hp, by omega, ?_⟩
  rw [Date.ofDay, hplace, splitMonths_total_add hi hp, Nat.add_comm 1 i]

/-- A day number has a date that the calendar has. -/
theorem valid_ofDay (n : Nat) : (Date.ofDay n).Valid := by
  obtain ⟨i, length, p, hi, hp, -, hdate⟩ := exists_ofDay n
  rw [hdate]
  exact ⟨Nat.le_add_left 1 _, Nat.le_add_left 1 i, Nat.le_add_left 1 p, length, hi, hp⟩

/-- Counting up to the date of a day leads back to the day. -/
theorem toDay_ofDay (n : Nat) : (Date.ofDay n).toDay = n := by
  obtain ⟨i, length, p, -, -, hday, hdate⟩ := exists_ofDay n
  rw [hdate, Date.toDay, total_yearLengths]
  exact hday.symm

/-! ### Days of dates -/

theorem daysOfYears_le_toDay (d : Date) : daysOfYears (d.year - 1) ≤ d.toDay := by
  rw [Date.toDay, total_yearLengths, Nat.add_assoc]
  exact Nat.le_add_right _ _

theorem Date.Valid.toDay_lt {d : Date} (h : d.Valid) : d.toDay < daysOfYears d.year := by
  obtain ⟨hyear, -, hday, length, hmonth, hle⟩ := h
  have hlt : total ((monthLengths d.year).take (d.month - 1)) + (d.day - 1)
      < total (monthLengths d.year) := total_take_add_lt hmonth (by omega)
  have hsucc := daysOfYears_succ (d.year - 1)
  rw [Nat.sub_add_cancel hyear, ← total_monthLengths] at hsucc
  rw [Date.toDay, total_yearLengths]
  omega

/-- Of a date that the calendar has, the years before it are found again. -/
theorem Date.Valid.yearsBefore_toDay {d : Date} (h : d.Valid) :
    yearsBefore d.toDay = d.year - 1 := by
  have hlt : yearsBefore d.toDay < d.year := (yearsBefore_lt_iff _ _).mpr h.toDay_lt
  have hge : ¬ yearsBefore d.toDay < d.year - 1 := fun hbefore =>
    Nat.not_lt.mpr (daysOfYears_le_toDay d) ((yearsBefore_lt_iff _ _).mp hbefore)
  omega

/-- Two dates that the calendar has never share a number. -/
theorem Date.Valid.ofDay_toDay {d : Date} (h : d.Valid) : Date.ofDay d.toDay = d := by
  have hbefore := h.yearsBefore_toDay
  obtain ⟨hyear, hmonth, hday, length, hlength, hle⟩ := h
  have hyearOf : yearOf d.toDay = d.year := by rw [yearOf, hbefore]; omega
  have hplace : d.toDay - daysOfYears (d.year - 1)
      = total ((monthLengths d.year).take (d.month - 1)) + (d.day - 1) := by
    rw [Date.toDay, total_yearLengths]
    omega
  rw [Date.ofDay, hyearOf, hbefore, hplace, splitMonths_total_add hlength (by omega)]
  obtain ⟨year, month, day⟩ := d
  simp only [Date.mk.injEq, true_and] at *
  omega

end ConfigPanel.Calendar
