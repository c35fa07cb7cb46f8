import ConfigPanel.Proofs.DateLabels
import ConfigPanel.Proofs.Rows

/-!
# Labels — what they tell apart

Labels fall back on `unknown`, a version that is absent counts as zero, and a date is shown to the
minute; all else that a record holds can be read off its labels.  So two records have the same
labels exactly when they differ in nothing but this:

* `labels_version_eq_iff`: the decimal text of a key is that of no other.
* `labels_user_eq_iff`: what stands around a user can be taken away again, whatever the user is.
* `Validated.labels_date_eq_iff`: the display of a minute is that of no other, nor `unknown`.
* `labels_eq_iff`: the three together.
-/

namespace ConfigPanel

/-! ### Minutes -/

/-- A second lies in the minute of another one exactly when as many full minutes are over. -/
theorem Timestamp.Minute.ofSecond_eq_iff {m n : Nat} :
    ofSecond m = ofSecond n ↔ m / 60 = n / 60 := by
  constructor
  · intro h
    have hstart : (ofSecond m).start = (ofSecond n).start := by rw [h]
    rw [ofSecond_start, ofSecond_start] at hstart
    omega
  · intro h
    have hday : m / 86400 = n / 86400 := by omega
    have hhour : m % 86400 / 3600 = n % 86400 / 3600 := by omega
    have hminute : m % 3600 / 60 = n % 3600 / 60 := by omega
    rw [ofSecond, ofSecond, hday, hhour, hminute]

namespace Record

/-! ### What counts as the same -/

/-- The user is absent, empty, or called what is written for such a one. -/
def Unnamed (user : Option Text) : Prop :=
  user = none ∨ user = some [] ∨ user = some (Text.of "unknown")

/-- The same user, or none that has a name. -/
def SameAuthor (u v : Option Text) : Prop := Unnamed u ∧ Unnamed v ∨ u = v

/-- The date is absent or zero. -/
def Undated (date : Option Nat) : Prop := date = none ∨ date = some 0

/-- Dates in the same minute, or none that is shown. -/
def SameMinute (c d : Option Nat) : Prop :=
  Undated c ∧ Undated d ∨
    ∃ m n, c = some m ∧ d = some n ∧ 0 < m ∧ 0 < n ∧ m / 60 = n / 60

/-! ### Versions -/

theorem labels_version (r : Record) : r.labels.version = Text.of "v" ++ Text.ofNat r.key := by
  obtain ⟨version, user, date⟩ := r
  cases version <;> rfl

/-- Two records have one version label exactly when they have one key. -/
theorem labels_version_eq_iff {r s : Record} :
    r.labels.version = s.labels.version ↔ r.key = s.key := by
  rw [labels_version, labels_version, List.append_right_inj, Text.ofNat_injective.eq_iff]

/-! ### Users -/

theorem labels_user (r : Record) :
    r.labels.user = Labels.authorOpening ++ Labels.orUnknown (r.user.getD [])
      ++ Labels.authorClosing := rfl

theorem orUnknown_getD_eq_unknown_iff {user : Option Text} :
    Labels.orUnknown (user.getD []) = Labels.unknown ↔ Unnamed user := by
  match user with
  | none => exact iff_of_true rfl (.inl rfl)
  | some [] => exact iff_of_true rfl (.inr (.inl rfl))
  | some (p :: t) =>
      have hshown : Labels.orUnknown (p :: t) = p :: t := rfl
      simp [Unnamed, hshown, Labels.unknown]

/-- A user who has a name is shown by it. -/
theorem some_orUnknown_getD {user : Option Text} (h : ¬ Unnamed user) :
    some (Labels.orUnknown (user.getD [])) = user := by
  match user with
  | none => exact absurd (.inl rfl) h
  | some [] => exact absurd (.inr (.inl rfl)) h
  | some (p :: t) => rfl

/-- Two records have one user label exactly when they have one author. -/
theorem labels_user_eq_iff {r s : Record} :
    r.labels.user = s.labels.user ↔ SameAuthor r.user s.user := by
  rw [labels_user, labels_user, List.append_left_inj, List.append_right_inj]
  constructor
  · intro h
    by_cases hr : Unnamed r.user
    · have hs : Unnamed s.user := by
        rw [← orUnknown_getD_eq_unknown_iff, ← h, orUnknown_getD_eq_unknown_iff]
        exact hr
      exact .inl ⟨hr, hs⟩
    · have hs : ¬ Unnamed s.user := by
        rw [← orUnknown_getD_eq_unknown_iff, ← h, orUnknown_getD_eq_unknown_iff]
        exact hr
      exact .inr (by rw [← some_orUnknown_getD hr, h, some_orUnknown_getD hs])
  · rintro (⟨hr, hs⟩ | h)
    · rw [orUnknown_getD_eq_unknown_iff.mpr hr, orUnknown_getD_eq_unknown_iff.mpr hs]
    · rw [h]

/-! ### Dates -/

/-- A date is not shown, or it is a positive one. -/
theorem undated_or_pos (date : Option Nat) : Undated date ∨ ∃ n, date = some n ∧ 0 < n := by
  match date with
  | none => exact .inl (.inl rfl)
  | some 0 => exact .inl (.inr rfl)
  | some (n + 1) => exact .inr ⟨n + 1, rfl, Nat.succ_pos n⟩

theorem not_undated_of_pos {n : Nat} (h : 0 < n) : ¬ Undated (some n) := by
  rintro (hnone | hzero)
  · cases hnone
  · obtain rfl := Option.some.inj hzero
    exact Nat.lt_irrefl 0 h

/-- Two validated records have one date label exactly when their dates lie in one minute. -/
theorem Validated.labels_date_eq_iff {r s : Record} (hr : r.Validated) (hs : s.Validated) :
    r.labels.date = s.labels.date ↔ SameMinute r.date s.date := by
  have hunknown (x : Record) (hx : x.Validated) : x.labels.date = Labels.unknown ↔ Undated x.date :=
    hx.date_eq_unknown_iff
  constructor
  · intro h
    rcases undated_or_pos r.date with hrd | ⟨m, hm, hmpos⟩
    · have hsd : Undated s.date := by
        rw [← hunknown s hs, ← h]
        exact (hunknown r hr).mpr hrd
      exact .inl ⟨hrd, hsd⟩
    · rcases undated_or_pos s.date with hsd | ⟨n, hn, hnpos⟩
      · have hrd : Undated r.date := by
          rw [← hunknown r hr, h]
          exact (hunknown s hs).mpr hsd
        exact absurd (hm ▸ hrd) (not_undated_of_pos hmpos)
      · -- both displays are read back, and they are the same text
        have hread : some (Timestamp.Minute.ofSecond m) = some (Timestamp.Minute.ofSecond n) := by
          rw [← (hr.date_reads_back hm hmpos).2, h, (hs.date_reads_back hn hnpos).2]
        exact .inr ⟨m, n, hm, hn, hmpos, hnpos,
          Timestamp.Minute.ofSecond_eq_iff.mp (Option.some.inj hread)⟩
  · rintro (⟨hrd, hsd⟩ | ⟨m, n, hm, hn, hmpos, hnpos, hminute⟩)
    · rw [(hunknown r hr).mpr hrd, (hunknown s hs).mpr hsd]
    · rw [(hr.date_reads_back hm hmpos).1, (hs.date_reads_back hn hnpos).1,
        Timestamp.Minute.ofSecond_eq_iff.mpr hminute]

/-- No date label is empty. -/
theorem labels_date_ne_nil (r : Record) : r.labels.date ≠ [] := by
  have hdate : r.labels.date = Labels.orUnknown (Labels.dateLines r.shownDate) := rfl
  rw [hdate]
  cases Labels.dateLines r.shownDate with
  | nil => decide
  | cons p t => exact List.cons_ne_nil p t

/-! ### All three -/

/-- **Labels tell records apart by what they show.**  Two validated records have the same labels
exactly when their keys are the same, where an absent version counts as zero; when they have the
same user, or neither has one with a name, be it absent, empty or `unknown`; and when their dates
lie in the same minute, or neither has one that is shown, be it absent or zero.  No label is empty,
and that of a date that is shown is not `unknown`.  These are the labels that are worked out, and
nothing is logged for them, where the version can be written. -/
theorem labels_eq_iff {r s : Record} (hr : r.Validated) (hs : s.Validated) :
    (r.labels = s.labels ↔
      r.key = s.key ∧ SameAuthor r.user s.user ∧ SameMinute r.date s.date) ∧
    (r.labels.version ≠ [] ∧ r.labels.user ≠ [] ∧ r.labels.date ≠ []) ∧
    (∀ n, r.date = some n → 0 < n → r.labels.date ≠ Text.of "unknown") ∧
    (r.key < 10 ^ Numeral.digitLimit → r.loggedLabels = .quiet (.ok r.labels)) := by
  refine ⟨?_, ⟨?_, ?_, labels_date_ne_nil r⟩, fun n hn hpos hunknown => ?_, fun hkey => ?_⟩
  · have hfields : r.labels = s.labels ↔ r.labels.version = s.labels.version ∧
        r.labels.user = s.labels.user ∧ r.labels.date = s.labels.date := by
      cases r.labels
      cases s.labels
      simp
    rw [hfields, labels_version_eq_iff, labels_user_eq_iff, hr.labels_date_eq_iff hs]
  · rw [labels_version]
    exact List.cons_ne_nil _ _
  · rw [labels_user, List.append_assoc]
    exact List.cons_ne_nil _ _
  · have hundated : Undated r.date := hr.date_eq_unknown_iff.mp hunknown
    exact not_undated_of_pos hpos (hn ▸ hundated)
  · rw [hr.loggedLabels, writtenLabels_of_lt hkey]

/-- The first and the last second of a minute, without a name and with an empty one, and the second
after. -/
theorem labels_eq_iff_around_a_minute :
    let first : Record := ⟨none, some (Text.of "unknown"), some 1699999980⟩
    let last : Record := ⟨some 0, some [], some 1700000039⟩
    let next : Record := ⟨some 0, some [], some 1700000040⟩
    first.Validated ∧ last.Validated ∧ next.Validated ∧
      first.labels = last.labels ∧ last.labels ≠ next.labels ∧
      last.labels.date ≠ Text.of "unknown" ∧
      last.loggedLabels = .quiet (.ok last.labels) := by
  intro first last next
  have hfirst : first.Validated := validated_iff.mpr fun d hd => by cases hd; decide
  have hlast : last.Validated := validated_iff.mpr fun d hd => by cases hd; decide
  have hnext : next.Validated := validated_iff.mpr fun d hd => by cases hd; decide
  obtain ⟨hsame, -, -⟩ := labels_eq_iff hfirst hlast
  obtain ⟨hother, -, hshown, hlogged⟩ := labels_eq_iff hlast hnext
  have hkey : last.key < 10 ^ Numeral.digitLimit := Nat.pow_pos (by decide)
  refine ⟨hfirst, hlast, hnext, hsame.mpr ⟨rfl, ?_, ?_⟩, fun heq => ?_, hshown _ rfl (by decide),
    hlogged hkey⟩
  · exact .inl ⟨.inr (.inr rfl), .inr (.inl rfl)⟩
  · exact .inr ⟨_, _, rfl, rfl, by decide, by decide, by decide⟩
  · rcases (hother.mp heq).2.2 with ⟨hundated, -⟩ | ⟨m, n, hm, hn, -, -, hminute⟩
    · exact not_undated_of_pos (by decide) hundated
    · cases hm
      cases hn
      exact absurd hminute (by decide)

end Record

end ConfigPanel
