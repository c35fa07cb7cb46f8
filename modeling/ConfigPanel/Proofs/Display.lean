import ConfigPanel.Proofs.Dates
import ConfigPanel.Proofs.Numerals
import ConfigPanel.Proofs.Record

/-!
# Timestamp — the display, read back

What `Labels.dateText` shows of a timestamp are three lines of digits with fixed widths, and they
say in which minute it lies.  `Minute.display` writes them digit by digit, and `Minute.read?` is a
reader that knows nothing of how they are written: it cuts the text at its line feeds, its colon and
its slashes and takes every piece for a number of so many digits.

* `read?_display`: the reader finds the minute that was written.
* `of_lines`: the display of a second is that of the minute in which it lies.
* `dateText_reads_back`: every timestamp but second zero shows its minute, and every minute of the
  years from 1970 to 9999 is shown by each of its seconds.
-/

namespace ConfigPanel

/-! ### Digits -/

/-- The value of an ASCII digit. -/
def CodePoint.digit? (p : CodePoint) : Option Nat := p.char?.bind Text.asciiDigitValue?

namespace Text

/-- The last `width` decimal digits of a number. -/
def lastDigits : (width : Nat) → Nat → Text
  | 0, _         => []
  | width + 1, n => lastDigits width (n / 10) ++ [.char (Nat.digitChar (n % 10))]

/-- The number that a text of `width` ASCII digits writes. -/
def number? (width : Nat) (t : Text) : Option Nat :=
  if t.length = width then (t.mapM CodePoint.digit?).map Numeral.ofDigits else none

theorem length_lastDigits (width n : Nat) : (lastDigits width n).length = width := by
  induction width generalizing n with
  | zero => rfl
  | succ width ih => simp [lastDigits, ih]

/-- What is no digit is not among the last digits. -/
theorem not_mem_lastDigits {c : Char} (hc : c.isDigit = false) (width n : Nat) :
    CodePoint.char c ∉ lastDigits width n := by
  induction width generalizing n with
  | zero => simp [lastDigits]
  | succ width ih =>
      have hdigit := isDigit_digitChar (n % 10) (Nat.mod_lt n (by decide))
      have hne : c ≠ Nat.digitChar (n % 10) := fun heq => by rw [heq, hdigit] at hc; cases hc
      simp [lastDigits, ih, hne]

/-- A number with no more digits than are kept is read back from them. -/
theorem mapM_lastDigits {width n : Nat} (h : n < 10 ^ width) :
    ∃ ds, (lastDigits width n).mapM CodePoint.digit? = some ds ∧ Numeral.ofDigits ds = n := by
  induction width generalizing n with
  | zero =>
      obtain rfl : n = 0 := by simpa using h
      exact ⟨[], rfl, rfl⟩
  | succ width ih =>
      obtain ⟨ds, hds, hvalue⟩ := ih (show n / 10 < 10 ^ width by rw [Nat.pow_succ] at h; omega)
      have hlast := asciiDigitValue?_digitChar (n % 10) (Nat.mod_lt n (by decide))
      refine ⟨ds ++ [n % 10], ?_, ?_⟩
      · rw [lastDigits, List.mapM_append, hds]
        simp [CodePoint.digit?, CodePoint.char?, hlast]
      · rw [Numeral.ofDigits_append_singleton, hvalue]
        exact Nat.div_add_mod n 10

/-- A number that fits its width is read back from its digits. -/
theorem number?_lastDigits {width n : Nat} (h : n < 10 ^ width) :
    number? width (lastDigits width n) = some n := by
  obtain ⟨ds, hds, hvalue⟩ := mapM_lastDigits h
  rw [number?, if_pos (length_lastDigits width n), hds, Option.map_some, hvalue]

/-- A number is written with as many digits as it needs. -/
theorem ofNat_eq_lastDigits {width n : Nat} (hle : 10 ^ width ≤ n) (hlt : n < 10 ^ (width + 1)) :
    ofNat n = lastDigits (width + 1) n := by
  induction width generalizing n with
  | zero =>
      have hn : n < 10 := by simpa using hlt
      rw [ofNat_eq, Nat.toDigits_of_lt_base hn]
      simp [lastDigits, Nat.mod_eq_of_lt hn]
  | succ width ih =>
      have hpos : 0 < 10 ^ width := Nat.pos_of_ne_zero (by simp)
      rw [Nat.pow_succ] at hle
      have hlt' : n / 10 < 10 ^ (width + 1) := by rw [Nat.pow_succ _ (width + 1)] at hlt; omega
      have hrest := ih (show 10 ^ width ≤ n / 10 by omega) hlt'
      rw [ofNat_eq] at hrest ⊢
      rw [Nat.toDigits_of_base_le (by decide) (by omega), List.map_append, hrest, lastDigits]
      rfl

theorem ofNat_eq_digit {n : Nat} (h : n < 10) : ofNat n = [.char (Nat.digitChar n)] := by
  rw [ofNat_eq, Nat.toDigits_of_lt_base h]
  rfl

/-- A field below a hundred is padded to two digits. -/
theorem of_padded {n : Nat} (h : n < 100) : of (Timestamp.padded n) = lastDigits 2 n := by
  rw [Timestamp.padded]
  split
  · have hn : n < 10 := by omega
    have hone : of ("0" ++ toString (n : Int)) = .char '0' :: ofNat n := of_append _ _
    have hzero : n / 10 = 0 := by omega
    rw [hone, ofNat_eq_digit hn]
    simp [lastDigits, hzero, Nat.mod_eq_of_lt hn, Nat.digitChar]
  · exact ofNat_eq_lastDigits (by omega) (by omega)

end Text

/-! ### Minutes -/

namespace Calendar

/-- The calendar has twelve months. -/
theorem Date.Valid.month_le {d : Date} (h : d.Valid) : d.month ≤ 12 := by
  obtain ⟨-, -, -, length, hlength, -⟩ := h
  have hlt : d.month - 1 < (monthLengths d.year).length :=
    (List.getElem?_eq_some_iff.mp hlength).1
  have htwelve : (monthLengths d.year).length = 12 := rfl
  omega

theorem monthLengths_le {year length : Nat} (h : length ∈ monthLengths year) : length ≤ 31 := by
  have hfebruary : (if isLeap year then 29 else 28) ≤ 31 := by split <;> decide
  simp only [monthLengths, List.mem_cons, List.not_mem_nil, or_false] at h
  omega

/-- No month of the calendar has more than thirty-one days. -/
theorem Date.Valid.day_le {d : Date} (h : d.Valid) : d.day ≤ 31 := by
  obtain ⟨-, -, -, length, hlength, hle⟩ := h
  exact Nat.le_trans hle (monthLengths_le (List.mem_of_getElem? hlength))

/-- The first of January 1970. -/
def Date.epoch : Date := ⟨1970, 1, 1⟩

theorem toDay_epoch : Date.epoch.toDay = epochDay := by
  have hepoch : Date.ofDay epochDay = Date.epoch := ofDay_epochDay
  rw [← hepoch, toDay_ofDay]

theorem epochDay_le_toDay {d : Date} (h : 1970 ≤ d.year) : epochDay ≤ d.toDay := by
  have hmono : daysOfYears 1969 ≤ daysOfYears (d.year - 1) := daysOfYears_mono (by omega)
  have hdays : daysOfYears 1969 = epochDay := by decide
  exact Nat.le_trans (hdays ▸ hmono) (daysOfYears_le_toDay d)

end Calendar

namespace Timestamp

/-- A minute of a day. -/
structure Minute where
  date : Calendar.Date
  hour : Nat
  minute : Nat
  deriving DecidableEq, Repr

namespace Minute

/-- The calendar has the date, and the clock has the time. -/
def Valid (m : Minute) : Prop := m.date.Valid ∧ m.hour < 24 ∧ m.minute < 60

/-- The seconds from the beginning of the year 1970 to the beginning of a minute. -/
def start (m : Minute) : Int :=
  ((m.date.toDay : Int) - Calendar.Date.epoch.toDay) * 86400 + m.hour * 3600 + m.minute * 60

/-- The minute in which a second since the epoch lies. -/
def ofSecond (s : Nat) : Minute :=
  ⟨Calendar.Date.ofDay (Calendar.epochDay + s / 86400), s % 86400 / 3600, s % 3600 / 60⟩

/-- Hour and minute, two digits each. -/
def clockLine (m : Minute) : Text :=
  [.char ':'].intercalate [Text.lastDigits 2 m.hour, Text.lastDigits 2 m.minute]

/-- Month, day and year, of two, two and four digits. -/
def dateLine (m : Minute) : Text :=
  [.char '/'].intercalate [Text.lastDigits 2 m.date.month, Text.lastDigits 2 m.date.day,
    Text.lastDigits 4 m.date.year]

/-- The three lines of a minute. -/
def display (m : Minute) : Text :=
  [.char '\n'].intercalate [m.clockLine, m.dateLine, Text.of "UTC"]

/-- The minute that three lines show. -/
def read? (t : Text) : Option Minute :=
  match t.splitOn (.char '\n') with
  | [clock, date, zone] =>
      match clock.splitOn (.char ':'), date.splitOn (.char '/') with
      | [hour, minute], [month, day, year] =>
          if zone = Text.of "UTC" then do
            let hour ← Text.number? 2 hour
            let minute ← Text.number? 2 minute
            let month ← Text.number? 2 month
            let day ← Text.number? 2 day
            let year ← Text.number? 4 year
            return ⟨⟨year, month, day⟩, hour, minute⟩
          else none
      | _, _ => none
  | _ => none

/-- The hour and the minute stand on either side of a colon. -/
theorem splitOn_clockLine (m : Minute) :
    m.clockLine.splitOn (.char ':') = [Text.lastDigits 2 m.hour, Text.lastDigits 2 m.minute] := by
  refine List.splitOn_intercalate _ (fun l hl => ?_) (by simp)
  simp only [List.mem_cons, List.not_mem_nil, or_false] at hl
  rcases hl with rfl | rfl <;> exact Text.not_mem_lastDigits rfl _ _

/-- The month, the day and the year stand between slashes. -/
theorem splitOn_dateLine (m : Minute) :
    m.dateLine.splitOn (.char '/') = [Text.lastDigits 2 m.date.month,
      Text.lastDigits 2 m.date.day, Text.lastDigits 4 m.date.year] := by
  refine List.splitOn_intercalate _ (fun l hl => ?_) (by simp)
  simp only [List.mem_cons, List.not_mem_nil, or_false] at hl
  rcases hl with rfl | rfl | rfl <;> exact Text.not_mem_lastDigits rfl _ _

/-- The clock, the date and the zone stand on lines of their own. -/
theorem splitOn_display (m : Minute) :
    m.display.splitOn (.char '\n') = [m.clockLine, m.dateLine, Text.of "UTC"] := by
  have hdigits := Text.not_mem_lastDigits (c := '\n') rfl
  refine List.splitOn_intercalate _ (fun l hl => ?_) (by simp)
  simp only [List.mem_cons, List.not_mem_nil, or_false] at hl
  rcases hl with rfl | rfl | rfl
  · simp [clockLine, List.intercalate_cons_cons, List.intercalate_singleton, hdigits]
  · simp [dateLine, List.intercalate_cons_cons, List.intercalate_singleton, hdigits]
  · decide

/-- A minute up to the last year is read back from its three lines. -/
theorem read?_display {m : Minute} (h : m.Valid) (hyear : m.date.year ≤ lastYear) :
    read? m.display = some m := by
  obtain ⟨hdate, hhour, hminute⟩ := h
  have hmonth := hdate.month_le
  have hday := hdate.day_le
  simp only [read?, splitOn_display, splitOn_clockLine, splitOn_dateLine]
  rw [Text.number?_lastDigits (by omega), Text.number?_lastDigits (by omega),
    Text.number?_lastDigits (by omega), Text.number?_lastDigits (by omega),
    Text.number?_lastDigits (by rw [lastYear] at hyear; omega)]
  rfl

/-! ### Seconds and their minutes -/

/-- A minute begins with its first second. -/
theorem ofSecond_start (s : Nat) : (ofSecond s).start = s - s % 60 := by
  simp only [start, ofSecond, Calendar.toDay_ofDay, Calendar.toDay_epoch]
  omega

theorem year_ofSecond_le {s : Nat} (h : s ≤ lastSecond) : (ofSecond s).date.year ≤ lastYear :=
  (yearOfSecond_le_iff s).mpr h

theorem le_year_ofSecond (s : Nat) : 1970 ≤ (ofSecond s).date.year := by
  have hdays : Calendar.daysOfYears 1969 = Calendar.epochDay := by decide
  have hge : ¬ Calendar.yearsBefore (Calendar.epochDay + s / 86400) < 1969 := by
    rw [Calendar.yearsBefore_lt_iff, hdays]
    omega
  have hyear : (ofSecond s).date.year = Calendar.yearsBefore (Calendar.epochDay + s / 86400) + 1 :=
    rfl
  omega

/-- Every second lies in a minute that there is. -/
theorem valid_ofSecond (s : Nat) : (ofSecond s).Valid := by
  refine ⟨Calendar.valid_ofDay _, ?_, ?_⟩
  · show s % 86400 / 3600 < 24
    omega
  · show s % 3600 / 60 < 60
    omega

/-- The seconds of a minute are its own. -/
theorem Valid.exists_second {m : Minute} (h : m.Valid) (hfrom : 1970 ≤ m.date.year)
    (hto : m.date.year ≤ lastYear) {s : Nat} (hs : s < 60) :
    ∃ n : Nat, m.start + s = n ∧ n ≤ lastSecond ∧ ofSecond n = m := by
  obtain ⟨hdate, hhour, hminute⟩ := h
  have hge := Calendar.epochDay_le_toDay hfrom
  have hlt : m.date.toDay < 3652059 := by
    have hmono := Calendar.daysOfYears_mono hto
    have hdays : Calendar.daysOfYears lastYear = 3652059 := by decide
    exact Nat.lt_of_lt_of_le hdate.toDay_lt (hdays ▸ hmono)
  have hdate' := hdate.ofDay_toDay
  generalize hday : m.date.toDay = day at *
  rw [Calendar.epochDay] at hge
  refine ⟨(day - 719162) * 86400 + m.hour * 3600 + m.minute * 60 + s, ?_, ?_, ?_⟩
  · rw [start, Calendar.toDay_epoch, Calendar.epochDay, hday]
    omega
  · rw [lastSecond]
    omega
  · have hdays : Calendar.epochDay
        + ((day - 719162) * 86400 + m.hour * 3600 + m.minute * 60 + s) / 86400 = day := by
      rw [Calendar.epochDay]
      omega
    obtain ⟨date, hour, minute⟩ := m
    simp only [ofSecond, hdays, hdate', mk.injEq, true_and] at *
    omega

end Minute

/-! ### The display of a second -/

/-- The three lines of a second are those of its minute. -/
theorem of_lines {s : Nat} (h : s ≤ lastSecond) :
    Text.of (lines s) = (Minute.ofSecond s).display := by
  obtain ⟨hdate, hhour, hminute⟩ := Minute.valid_ofSecond s
  have hmonth := hdate.month_le
  have hday := hdate.day_le
  have hfrom := Minute.le_year_ofSecond s
  have hto := Minute.year_ofSecond_le h
  have hclock : Text.of (clock s) = (Minute.ofSecond s).clockLine := by
    rw [Minute.clockLine, ← Text.of_padded (by omega), ← Text.of_padded (by omega)]
    simp only [clock, Text.of_append, List.append_assoc, List.intercalate_cons_cons,
      List.intercalate_singleton]
    rfl
  have hyear : Text.of (toString (Minute.ofSecond s).date.year)
      = Text.lastDigits 4 (Minute.ofSecond s).date.year :=
    Text.ofNat_eq_lastDigits (by omega) (by rw [lastYear] at hto; omega)
  have hline : Text.of (date s) = (Minute.ofSecond s).dateLine := by
    rw [Minute.dateLine, ← Text.of_padded (by omega), ← Text.of_padded (by omega), ← hyear]
    simp only [date, Text.of_append, List.append_assoc, List.intercalate_cons_cons,
      List.intercalate_singleton]
    rfl
  rw [lines, Minute.display, ← hclock, ← hline]
  simp only [Text.of_append, List.append_assoc, List.intercalate_cons_cons,
    List.intercalate_singleton]
  rfl

end Timestamp

/-! ### Showing and reading -/

namespace Labels

/-- A second after the first is shown by its minute. -/
theorem dateLines_some {s : Nat} (hpos : 0 < s) (h : s ≤ Timestamp.lastSecond) :
    dateLines (some s) = (Timestamp.Minute.ofSecond s).display := by
  obtain ⟨n, rfl⟩ : ∃ n, s = n + 1 := ⟨s - 1, by omega⟩
  exact Timestamp.of_lines h

/-- The date text of a number in range is the minute of this second, without a remark. -/
theorem dateText_natCast {room s : Nat} (hpos : 0 < s) (h : s ≤ Timestamp.lastSecond) :
    dateText room (.int s) = .quiet (.ok (Timestamp.Minute.ofSecond s).display) := by
  have hok : Timestamp.ofValue (.int s) = .ok (some s) :=
    Timestamp.ofValue_eq_ok_some_iff.mpr ⟨h, .inl rfl⟩
  rw [dateText, Timestamp.judge_of_ok hok, ← dateLines_some hpos h]
  rfl

/-- **The display says the minute.**  Every second from the first to the last one that can be shown
is shown as the three lines of a minute of the calendar, in the years from 1970 to 9999; read back,
the lines give the minute, and it began at the last full minute.  Every minute of these years is
shown so at each of its sixty seconds, but for the very first second. -/
theorem dateText_reads_back (room : Nat) :
    (∀ t : Int, 1 ≤ t → t ≤ 253402300799 →
      ∃ m : Timestamp.Minute, dateText room (.int t) = .quiet (.ok m.display) ∧
        Timestamp.Minute.read? m.display = some m ∧ m.Valid ∧
        1970 ≤ m.date.year ∧ m.date.year ≤ 9999 ∧ m.start = t - t % 60) ∧
    ∀ m : Timestamp.Minute, m.Valid → 1970 ≤ m.date.year → m.date.year ≤ 9999 →
      ∀ s : Nat, s < 60 → ¬ (m = ⟨⟨1970, 1, 1⟩, 0, 0⟩ ∧ s = 0) →
        dateText room (.int (m.start + s)) = .quiet (.ok m.display) ∧
          Timestamp.Minute.read? m.display = some m := by
  refine ⟨fun t hfrom hto => ?_, fun m hm hfrom hto s hs hne => ?_⟩
  · obtain ⟨n, rfl⟩ : ∃ n : Nat, t = n := ⟨t.toNat, by omega⟩
    have hlast : n ≤ Timestamp.lastSecond := by rw [Timestamp.lastSecond]; omega
    have hvalid := Timestamp.Minute.valid_ofSecond n
    have hyear := Timestamp.Minute.year_ofSecond_le hlast
    exact ⟨.ofSecond n, dateText_natCast (by omega) hlast,
      Timestamp.Minute.read?_display hvalid hyear, hvalid, Timestamp.Minute.le_year_ofSecond n,
      hyear, Timestamp.Minute.ofSecond_start n⟩
  · obtain ⟨n, hn, hlast, hminute⟩ := hm.exists_second hfrom hto hs
    have hpos : 0 < n := by
      refine Nat.pos_of_ne_zero fun hzero => hne ?_
      subst hzero
      have hfirst : Timestamp.Minute.ofSecond 0 = ⟨⟨1970, 1, 1⟩, 0, 0⟩ := by decide
      have hstart := Timestamp.Minute.ofSecond_start 0
      rw [hminute] at hstart
      exact ⟨hminute ▸ hfirst, by omega⟩
    rw [hn, dateText_natCast hpos hlast, hminute]
    exact ⟨rfl, Timestamp.Minute.read?_display hm hto⟩

/-- The last minute of a leap day at the end of a century, shown at its first and last second. -/
theorem dateText_reads_back_leap_day :
    let m : Timestamp.Minute := ⟨⟨2000, 2, 29⟩, 23, 59⟩
    m.Valid ∧ m.start = 951868740 ∧
      dateText 0 (.int 951868740) = .quiet (.ok m.display) ∧
      dateText 0 (.int 951868799) = .quiet (.ok m.display) ∧
      m.display = Text.of "23:59\n02/29/2000\nUTC" ∧
      Timestamp.Minute.read? (Text.of "23:59\n02/29/2000\nUTC") = some m ∧
      ∃ n : Timestamp.Minute, dateText 0 (.int 951868800) = .quiet (.ok n.display) ∧
        n.start = 951868800 := by
  intro m
  have hvalid : m.Valid := by
    refine ⟨⟨by decide, by decide, by decide, 29, by decide, by decide⟩, by decide, by decide⟩
  have hday : m.date.toDay = 730178 := by
    have hof : Calendar.Date.ofDay 730178 = m.date := by decide
    rw [← hof, Calendar.toDay_ofDay]
  have hstart : m.start = 951868740 := by
    rw [Timestamp.Minute.start, hday, Calendar.toDay_epoch]
    decide
  have hdisplay : m.display = Text.of "23:59\n02/29/2000\nUTC" := by decide
  obtain ⟨hforth, hback⟩ := dateText_reads_back 0
  have hfirst := hback m hvalid (by decide) (by decide) 0 (by decide) (by decide)
  have hlast := hback m hvalid (by decide) (by decide) 59 (by decide) (by decide)
  rw [hstart] at hfirst hlast
  obtain ⟨n, hn, -, -, -, -, hnstart⟩ := hforth 951868800 (by decide) (by decide)
  exact ⟨hvalid, hstart, hfirst.1, hlast.1, hdisplay, hdisplay ▸ hfirst.2, n, hn, hnstart⟩

end Labels

end ConfigPanel
