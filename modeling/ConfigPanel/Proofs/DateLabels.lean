import ConfigPanel.Proofs.Display
import ConfigPanel.Row

/-!
# Labels — dates that are judged twice

A date is judged when a record is validated, and judged again when its label is worked out.  Both
times `Timestamp.judge` decides, so both fail on the same values: those that cannot be shown in the
remark that they are malformed.  Any other malformed value makes the date absent the first time and
the text of the date empty the second time, with a remark of its own each time; what is let through
once, is let through again as it is.  So it makes no difference to the label whether the record was
validated before, and once it was, nothing is left to remark on.

A validated record has its labels, and a row its markup, exactly when the version can be written.

* `dateText_eq_error_iff`, `dateText_eq_nil_iff`: which values have no date text, and which have an
  empty one.
* `ofFields_of_judge`: labels of fields that nobody has checked.
* `Record.Validated.loggedLabels`, `Row.render_of_validated`: showing a validated record is quiet.
* `Record.Validated.date_eq_unknown_iff`, `Record.Validated.date_reads_back`: the date label.
* `dates_judged_alike`: all of it together.
-/

namespace ConfigPanel

/-! ### The text of a date -/

namespace Labels

variable {room : Nat} {v : Value}

/-- A value that is a timestamp or nothing has the text of it. -/
theorem dateText_of_ok {t : Option Nat} (h : Timestamp.ofValue v = .ok t) :
    dateText room v = .quiet (.ok (dateLines t)) := by
  rw [dateText, Timestamp.judge_of_ok h]
  rfl

/-- A malformed value that can be shown has an empty text, and is remarked on. -/
theorem dateText_of_malformed {f : Timestamp.Fault}
    (h : Timestamp.ofValue v = .error (.malformed f)) (hshown : v.obstacle? room = none) :
    dateText room v = ⟨.ok [], [.dateIgnored v f]⟩ := by
  rw [dateText, Timestamp.judge_of_malformed h hshown]
  rfl

/-- A value that cannot be shown has no text, for the same reason and without a remark. -/
theorem dateText_of_obstacle {u : Unwritable} (h : v.obstacle? room = some u) :
    dateText room v = .quiet (.error u) := by
  rw [dateText, Timestamp.judge_of_obstacle h]
  rfl

theorem of_lines_ne_nil (seconds : Nat) : Text.of (Timestamp.lines seconds) ≠ [] := by
  simp [Timestamp.lines, Text.of]

/-- The text of a date is empty for none and for second zero only. -/
theorem dateLines_eq_nil_iff {t : Option Nat} : dateLines t = [] ↔ t = none ∨ t = some 0 := by
  match t with
  | none | some 0 => simp [dateLines]
  | some (n + 1) => simp [dateLines, of_lines_ne_nil]

/-- A value has no date text exactly when it cannot be shown, for the same reason. -/
theorem dateText_eq_error_iff {u : Unwritable} :
    (dateText room v).result = .error u ↔ v.obstacle? room = some u := by
  have hjudge : (Timestamp.judge room .dateIgnored v).result = .error u ↔
      v.obstacle? room = some u := Timestamp.judge_eq_error_iff
  rw [← hjudge, dateText, Logged.map]
  cases (Timestamp.judge room .dateIgnored v).result <;> simp [Except.map]

/-- Of the values that can be shown, only nothing, a malformed value, and what comes to second zero
have an empty date text. -/
theorem dateText_eq_nil_iff :
    (dateText room v).result = .ok [] ↔ v.obstacle? room = none ∧
      (v = .null ∨ (∃ f, Timestamp.ofValue v = .error (.malformed f)) ∨
        v = .int 0 ∨ ∃ d, v = .float d ∧ d.whole? = some 0) := by
  have hnull := Timestamp.ofValue_eq_ok_none_iff (v := v)
  have hzero : Timestamp.ofValue v = .ok (some 0) ↔
      v = .int 0 ∨ ∃ d, v = .float d ∧ d.whole? = some 0 :=
    Timestamp.ofValue_eq_ok_some_iff.trans (and_iff_right (Nat.zero_le _))
  rw [← hnull, ← hzero]
  rcases Timestamp.judge_cases room .dateIgnored v with
    ⟨u, hu, -⟩ | ⟨hshown, ⟨t, ht, -⟩ | ⟨f, hf, -⟩⟩
  · simp [dateText_of_obstacle hu, hu, Logged.quiet]
  · simp [dateText_of_ok ht, ht, hshown, Logged.quiet, dateLines_eq_nil_iff]
  · simp [dateText_of_malformed hf hshown, hf, hshown]

/-- The labels of three fields that nobody has checked, when the date can be judged. -/
theorem ofFields_of_judge {date : Option Nat} {events : List Event}
    (h : Timestamp.judge room .dateIgnored v = ⟨.ok date, events⟩) (version : Option Int)
    (user : Option Text) :
    ofFields room version user v
      = ⟨if Numeral.Writable (version.getD 0) then
          .ok (texts (version.getD 0) user (dateLines date)) else .error .tooLong, events⟩ := by
  rw [ofFields, dateText, h]
  rfl

/-- A date that cannot be shown leaves a record without labels. -/
theorem ofFields_of_obstacle {u : Unwritable} (h : v.obstacle? room = some u)
    (version : Option Int) (user : Option Text) :
    ofFields room version user v = .quiet (.error u) := by
  rw [ofFields, dateText_of_obstacle h]
  rfl

end Labels

/-! ### Objects with a date -/

namespace Record

/-- An object whose version and user pass comes to what its date comes to. -/
theorem ofValue_of_fields {room : Nat} {ms : Members} {d : Value} {version : Option Nat}
    {user : Option Text} (hdate : field "date" ms = some d) (hversion : versionIn ms = .ok version)
    (huser : userIn ms = .ok user) :
    ofValue room (.object ms)
      = (Timestamp.judge room .dateAbsent d).map (ofFields (.ok version) (.ok user)) := by
  rw [ofValue, ofMembers, hversion, huser, dateIn_of_field hdate, dateOf]

end Record

/-! ### Validated records -/

namespace Record

variable {r : Record}

theorem getD_version (r : Record) : (r.version.map Int.ofNat).getD 0 = (r.key : Int) := by
  rw [key]
  cases r.version <;> rfl

/-- The labels of a record, or the failure to write its version. -/
def writtenLabels (r : Record) : Except Unwritable Labels :=
  if Numeral.Writable r.key then .ok r.labels else .error .tooLong

theorem writtenLabels_of_lt (h : r.key < 10 ^ Numeral.digitLimit) :
    r.writtenLabels = .ok r.labels :=
  if_pos (Numeral.writable_natCast.mpr h)

/-- Labels are worked out from the date as it is judged. -/
theorem loggedLabels_of_judge {date : Option Nat} {events : List Event}
    (hjudge : Timestamp.judge 0 .dateIgnored (Value.ofNat? r.date) = ⟨.ok date, events⟩)
    (hshown : r.shownDate = date) : r.loggedLabels = ⟨r.writtenLabels, events⟩ := by
  rw [loggedLabels, Labels.ofFields_of_judge hjudge, r.getD_version, writtenLabels, labels, hshown]

/-- When its date can be shown, a record has its labels as far as its version can be written. -/
theorem loggedLabels_of_shown (h : (Value.ofNat? r.date).obstacle? 0 = none) :
    r.loggedLabels.result = r.writtenLabels := by
  rcases Timestamp.judge_cases 0 .dateIgnored (Value.ofNat? r.date) with
    ⟨u, hu, -⟩ | ⟨-, ⟨t, ht, hjudge⟩ | ⟨f, hf, hjudge⟩⟩
  · cases h.symm.trans hu
  · rw [loggedLabels_of_judge hjudge (by rw [Record.shownDate, ht])]
  · rw [loggedLabels_of_judge hjudge (by rw [Record.shownDate, hf])]

/-- Neither the version of the record nor its date is too long to be written. -/
def Writable (r : Record) : Prop :=
  Numeral.Writable r.key ∧ ∀ d, r.date = some d → Numeral.Writable d

/-- A record has its labels exactly when it can be written, whether it has been validated or not. -/
theorem loggedLabels_of_writable (h : r.Writable) : r.loggedLabels.result = .ok r.labels := by
  have hshown : (Value.ofNat? r.date).obstacle? 0 = none := by
    cases hdate : r.date with
    | none => rfl
    | some d => exact (Value.obstacle?_int d 0).trans (if_pos (h.2 d hdate))
  rw [loggedLabels_of_shown hshown]
  exact if_pos h.1

/-- A record that cannot be written has no labels. -/
theorem loggedLabels_of_not_writable (h : ¬ r.Writable) :
    r.loggedLabels.result = .error .tooLong := by
  by_cases hdate : ∃ d, r.date = some d ∧ ¬ Numeral.Writable d
  · obtain ⟨d, hd, hlong⟩ := hdate
    have hobstacle : (Value.ofNat? r.date).obstacle? 0 = some .tooLong := by
      rw [hd]
      exact (Value.obstacle?_int d 0).trans (if_neg hlong)
    rw [loggedLabels, Labels.ofFields_of_obstacle hobstacle]
    rfl
  · have hshown : (Value.ofNat? r.date).obstacle? 0 = none := by
      cases hd : r.date with
      | none => rfl
      | some d =>
          have hshort : Numeral.Writable d := Decidable.byContradiction fun hlong =>
            hdate ⟨d, hd, hlong⟩
          exact (Value.obstacle?_int d 0).trans (if_pos hshort)
    have hkey : ¬ Numeral.Writable r.key := fun hkey =>
      h ⟨hkey, fun d hd => Decidable.byContradiction fun hlong => hdate ⟨d, hd, hlong⟩⟩
    rw [loggedLabels_of_shown hshown]
    exact if_neg hkey

/-- Labels that are worked out are the record's. -/
theorem eq_labels_of_loggedLabels {l : Labels} (h : r.loggedLabels.result = .ok l) :
    l = r.labels := by
  by_cases hr : r.Writable
  · rw [loggedLabels_of_writable hr] at h
    exact (Except.ok.inj h).symm
  · rw [loggedLabels_of_not_writable hr] at h
    cases h

/-- The second judgement of a date agrees with the first. -/
theorem Validated.shownDate (h : r.Validated) : r.shownDate = r.date := by
  rw [Record.shownDate, Timestamp.ofValue_ofNat? fun s hs => h.date_le hs]

/-- Showing a validated record is quiet. -/
theorem Validated.loggedLabels (h : r.Validated) : r.loggedLabels = .quiet r.writtenLabels := by
  have hdate : Timestamp.ofValue (Value.ofNat? r.date) = .ok r.date :=
    Timestamp.ofValue_ofNat? fun s hs => h.date_le hs
  exact loggedLabels_of_judge (Timestamp.judge_of_ok hdate) h.shownDate

/-- The date of a validated record can always be written. -/
theorem Validated.writable_iff (h : r.Validated) :
    r.Writable ↔ r.key < 10 ^ Numeral.digitLimit := by
  have hdate : ∀ d, r.date = some d → Numeral.Writable d := fun _ hd =>
    Timestamp.writable_of_le (h.date_le hd)
  rw [Writable, and_iff_left hdate, Numeral.writable_natCast]

/-- The date label of a validated record is the text of its date. -/
theorem Validated.labels_date (h : r.Validated) :
    r.labels.date = Labels.orUnknown (Labels.dateLines r.date) := by
  rw [labels, h.shownDate]
  rfl

theorem Validated.labels_date_of_zero (h : r.Validated) (hdate : r.date = none ∨ r.date = some 0) :
    r.labels.date = Labels.unknown := by
  rw [h.labels_date, Labels.dateLines_eq_nil_iff.mpr hdate]
  rfl

/-- A date that is shown is shown as three lines, which say in which minute it is. -/
theorem Validated.date_reads_back (h : r.Validated) {n : Nat} (hn : r.date = some n)
    (hpos : 0 < n) :
    r.labels.date = (Timestamp.Minute.ofSecond n).display ∧
      Timestamp.Minute.read? r.labels.date = some (.ofSecond n) := by
  have hle := h.date_le hn
  have hshown : Labels.dateLines (some n) ≠ [] := fun hnil => by
    rcases Labels.dateLines_eq_nil_iff.mp hnil with hnone | hzero
    · cases hnone
    · cases hzero
      exact Nat.lt_irrefl 0 hpos
  have hdate : r.labels.date = (Timestamp.Minute.ofSecond n).display := by
    rw [h.labels_date, hn, Labels.orUnknown, if_neg (by simpa using hshown),
      Labels.dateLines_some hpos hle]
  refine ⟨hdate, ?_⟩
  rw [hdate]
  exact Timestamp.Minute.read?_display (Timestamp.Minute.valid_ofSecond n)
    (Timestamp.Minute.year_ofSecond_le hle)

/-- The date label falls back exactly when there is no date or second zero. -/
theorem Validated.date_eq_unknown_iff (h : r.Validated) :
    r.labels.date = Labels.unknown ↔ r.date = none ∨ r.date = some 0 := by
  constructor
  · intro hunknown
    match hdate : r.date with
    | none => exact .inl rfl
    | some 0 => exact .inr rfl
    | some (n + 1) =>
        have hread := (h.date_reads_back hdate (Nat.succ_pos n)).2
        have hnone : Timestamp.Minute.read? Labels.unknown = none := by decide
        rw [hunknown, hnone] at hread
        cases hread
  · exact h.labels_date_of_zero

end Record

/-- A row on a validated record has its markup exactly when the record has its labels. -/
theorem Row.render_of_validated {row : Row} (h : row.record.Validated) :
    row.render = .quiet (row.record.writtenLabels.map row.filled) := by
  rw [Row.render, h.loggedLabels]
  rfl

/-- A row on a validated record is rendered when its key can be written. -/
theorem Row.render_of_lt {row : Row} (h : row.record.Validated)
    (hkey : row.key < 10 ^ Numeral.digitLimit) : row.render = .quiet (.ok row.markup) := by
  rw [Row.render_of_validated h, Record.writtenLabels_of_lt hkey]
  rfl

/-- A row on a validated record is rendered, or its key is too long. -/
theorem Row.render_eq_ite {row : Row} (h : row.record.Validated) :
    row.render = .quiet (if Numeral.Writable row.key then .ok row.markup else .error .tooLong) := by
  rw [render_of_validated h, Record.writtenLabels, key]
  split <;> rfl

/-- Rows on validated records are all rendered when each of their versions can be written. -/
theorem Row.renderAll_eq_ite {rows : List Row} (h : ∀ row ∈ rows, row.record.Validated) :
    renderAll rows
      = .quiet (if ∀ row ∈ rows, Numeral.Writable row.key then .ok (rows.map markup)
          else .error .tooLong) :=
  Logged.each_quiet fun row hrow => render_eq_ite (h row hrow)

/-! ### The two judgements -/

/-- **The two judgements of a date agree.**  The text of a date can be worked out for every value
that can be shown, and for no other; it is empty exactly for nothing, for a malformed value, and for
what comes to second zero.  Take an object with this date whose version and user pass.  If the date
can be shown, the object is a record, and its date label is that of a record with the date as it is,
which nobody has validated; on the way to either label one remark is made if the date is malformed,
and none if it is not.  If a number in the date is too long to be shown, the object is refused for
its date, and there are no labels of the date as it is either; if the date is nested too deep,
judging it ends in the same failure both times; nothing is remarked in either case.  Labels and
markup of a validated record are worked out without a remark, and are there exactly when its version
can be written; its date label is `unknown` exactly when its date is absent or zero, and otherwise
the three lines from which its minute can be read. -/
theorem dates_judged_alike (room : Nat) (d : Value) :
    (∀ u, (Labels.dateText room d).result = .error u ↔ d.obstacle? room = some u) ∧
    ((Labels.dateText room d).result = .ok [] ↔ d.obstacle? room = none ∧
      (d = .null ∨ (∃ f, Timestamp.ofValue d = .error (.malformed f)) ∨
        d = .int 0 ∨ ∃ x, d = .float x ∧ x.whole? = some 0)) ∧
    (∀ ms version user rawVersion rawUser, Record.field "date" ms = some d →
      Record.versionIn ms = .ok version → Record.userIn ms = .ok user →
      let judged := Record.ofValue room (.object ms)
      let raw := Labels.ofFields room rawVersion rawUser d
      (d.obstacle? room = none →
        ∃ r, judged.result = .ok r ∧ r.version = version ∧ r.user = user ∧
          (Numeral.Writable (rawVersion.getD 0) →
            ∃ l, raw.result = .ok l ∧ l.date = r.labels.date) ∧
          (∀ f, Timestamp.ofValue d = .error (.malformed f) →
            (judged.events ++ r.loggedLabels.events).map Event.line
              = ["WARNING: Treating config date " ++ d.shown ++ " as absent: " ++ f.message] ∧
            raw.events.map Event.line
              = ["WARNING: Ignoring malformed config date " ++ d.shown ++ ": " ++ f.message]) ∧
          ((∀ f, Timestamp.ofValue d ≠ .error (.malformed f)) →
            judged.events ++ r.loggedLabels.events = [] ∧ raw.events = [])) ∧
      (d.obstacle? room = some .tooLong →
        judged = .quiet (.error (.invalid [.date])) ∧ raw = .quiet (.error .tooLong)) ∧
      (d.obstacle? room = some .tooDeep →
        judged = .quiet (.error .tooDeep) ∧ raw = .quiet (.error .tooDeep))) ∧
    ∀ r : Record, r.Validated →
      r.loggedLabels
        = .quiet (if Numeral.Writable r.key then .ok r.labels else .error .tooLong) ∧
      (∀ highlighted, (⟨r, highlighted⟩ : Row).render
        = .quiet (if Numeral.Writable r.key then .ok (⟨r, highlighted⟩ : Row).markup
          else .error .tooLong)) ∧
      (r.labels.date = Text.of "unknown" ↔ r.date = none ∨ r.date = some 0) ∧
      ∀ n, r.date = some n → 0 < n →
        r.labels.date = (Timestamp.Minute.ofSecond n).display ∧
          Timestamp.Minute.read? r.labels.date = some (.ofSecond n) := by
  refine ⟨fun u => Labels.dateText_eq_error_iff, Labels.dateText_eq_nil_iff,
    fun ms version user rawVersion rawUser hdate hversion huser => ?_, fun r hr => ?_⟩
  · intro judged raw
    have hjudged : judged = (Timestamp.judge room .dateAbsent d).map
        (Record.ofFields (.ok version) (.ok user)) :=
      Record.ofValue_of_fields hdate hversion huser
    refine ⟨fun hshown => ?_, fun hlong => ?_, fun hdeep => ?_⟩
    · obtain ⟨t, ht⟩ := Timestamp.exists_judge_of_shown hshown
      rw [ht .dateAbsent] at hjudged
      have hread : judged.result = .ok ⟨version, user, t⟩ := by rw [hjudged]; rfl
      have hevents : judged.events = Timestamp.remarksOn .dateAbsent d := by rw [hjudged]; rfl
      have hvalid : Record.Validated ⟨version, user, t⟩ := ⟨room, .object ms, hread⟩
      have hraw : raw = _ := Labels.ofFields_of_judge (ht .dateIgnored) rawVersion rawUser
      have hquiet : (Record.loggedLabels ⟨version, user, t⟩).events = [] := by
        rw [hvalid.loggedLabels]
        rfl
      refine ⟨⟨version, user, t⟩, hread, rfl, rfl, fun hw => ?_, fun f hf => ?_, fun hno => ?_⟩
      · exact ⟨Labels.texts (rawVersion.getD 0) rawUser (Labels.dateLines t),
          by rw [hraw, if_pos hw], hvalid.labels_date.symm⟩
      · rw [hevents, hquiet, hraw, Timestamp.remarksOn_of_malformed hf,
          Timestamp.remarksOn_of_malformed hf]
        exact ⟨rfl, rfl⟩
      · rw [hevents, hquiet, hraw, Timestamp.remarksOn_of_not_malformed hno,
          Timestamp.remarksOn_of_not_malformed hno]
        exact ⟨rfl, rfl⟩
    · rw [Timestamp.judge_of_obstacle hlong] at hjudged
      exact ⟨hjudged, Labels.ofFields_of_obstacle hlong rawVersion rawUser⟩
    · rw [Timestamp.judge_of_obstacle hdeep] at hjudged
      exact ⟨hjudged, Labels.ofFields_of_obstacle hdeep rawVersion rawUser⟩
  · refine ⟨hr.loggedLabels, fun highlighted => ?_, hr.date_eq_unknown_iff,
      fun n hn hpos => hr.date_reads_back hn hpos⟩
    have hvalid : (⟨r, highlighted⟩ : Row).record.Validated := hr
    exact Row.render_eq_ite hvalid

/-- A list with a number of 4301 digits in it is malformed, and yet it has no date text, not even an
empty one, and no remark is made; an object with this date is refused for it. -/
theorem date_beyond_words :
    let d : Value := .list [.int (10 ^ Numeral.digitLimit : Nat)]
    Timestamp.ofValue d = .error (.malformed (.notANumber "list")) ∧
      Labels.dateText 990 d = .quiet (.error .tooLong) ∧
      Record.ofValue 990 (.object [(Text.of "date", d)]) = .quiet (.error (.invalid [.date])) := by
  intro d
  have hlong : d.obstacle? 990 = some .tooLong := by
    simp only [d, Value.obstacle?, Value.itemsObstacle?, if_neg Numeral.not_writable_limit]
    rfl
  refine ⟨rfl, Labels.dateText_of_obstacle hlong, ?_⟩
  have hjudged : Record.ofValue 990 (.object [(Text.of "date", d)])
      = (Timestamp.judge 990 .dateAbsent d).map (Record.ofFields (.ok none) (.ok none)) :=
    Record.ofValue_of_fields rfl rfl rfl
  rw [hjudged, Timestamp.judge_of_obstacle hlong]
  rfl

/-- `True` is no timestamp, neither in an object nor in a record that nobody has validated. -/
theorem dates_judged_alike_of_truth :
    let d : Value := .bool true
    let ms : Members := [(Text.of "version", .int 7), (Text.of "date", d)]
    let undated : Record := ⟨some 7, none, none⟩
    let dated : Record := ⟨some 7, none, some 1700000000⟩
    let raw := Labels.ofFields 990 (some 7) none d
    (Labels.dateText 990 d).result = .ok [] ∧
      (Record.ofValue 990 (.object ms)).result = .ok undated ∧
      (∃ l, raw.result = .ok l ∧ l.date = undated.labels.date) ∧
      undated.labels.date = Text.of "unknown" ∧
      ((Record.ofValue 990 (.object ms)).events ++ undated.loggedLabels.events).map Event.line
        = ["WARNING: Treating config date True as absent: Timestamp must be a number, got bool"] ∧
      raw.events.map Event.line
        = ["WARNING: Ignoring malformed config date True: Timestamp must be a number, got bool"] ∧
      dated.loggedLabels = .quiet (.ok dated.labels) ∧
      Timestamp.Minute.read? dated.labels.date = some ⟨⟨2023, 11, 14⟩, 22, 13⟩ := by
  intro d ms undated dated raw
  have hfault : Timestamp.ofValue d = .error (.malformed (.notANumber "bool")) := rfl
  have hseven : Numeral.Writable 7 := Numeral.Writable.of_natAbs_lt (by decide)
  obtain ⟨-, hempty, hobject, hvalidated⟩ := dates_judged_alike 990 d
  obtain ⟨hshown, -⟩ := hobject ms (some 7) none (some 7) none rfl rfl rfl
  obtain ⟨r, hread, hversion, huser, hsame, hremarks, -⟩ := hshown rfl
  obtain rfl : undated = r := Except.ok.inj (Eq.trans rfl hread)
  obtain ⟨-, -, hunknown, -⟩ := hvalidated undated ⟨_, _, hread⟩
  have hdated : dated.Validated := Record.validated_iff.mpr fun s hs => by cases hs; decide
  obtain ⟨hquiet, -, -, hminute⟩ := hvalidated dated hdated
  rw [if_pos (show Numeral.Writable dated.key from hseven)] at hquiet
  exact ⟨hempty.mpr ⟨rfl, .inr (.inl ⟨_, hfault⟩)⟩, hread, hsame hseven, hunknown.mpr (.inl rfl),
    (hremarks _ hfault).1, (hremarks _ hfault).2, hquiet,
    (hminute 1700000000 rfl (by decide)).2⟩

end ConfigPanel
