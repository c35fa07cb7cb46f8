import ConfigPanel.Proofs.Timestamp
import ConfigPanel.Record.Validation

/-!
# Record — validated records

A date is judged exactly when it can be shown (`Timestamp.judge_cases`), since what gives a
timestamp always can.  A record is validated when some value is taken for it.  Its version and its
date are natural numbers by type; what validation adds is that the date is a timestamp:

* `validated_iff`: the validated records are those whose date, if any, is not beyond the last
  second.
* `ofValue_toValue`: a validated record, written out as an object, is taken for itself, and nothing
  is logged.
-/

namespace ConfigPanel

/-! ### Judging a date -/

namespace Timestamp

variable {room : Nat} {remark : Value → Fault → Event} {v : Value}

/-- A value that is a timestamp or nothing is judged without a remark. -/
theorem judge_of_ok {t : Option Nat} (h : ofValue v = .ok t) :
    judge room remark v = .quiet (.ok t) := by
  simp only [judge, h]

/-- A malformed value that can be shown is remarked on and taken for none. -/
theorem judge_of_malformed {f : Fault} (h : ofValue v = .error (.malformed f))
    (hshown : v.obstacle? room = none) : judge room remark v = ⟨.ok none, [remark v f]⟩ := by
  simp only [judge, h, hshown]

/-- A value that cannot be shown is not judged, and nothing is said about it. -/
theorem judge_of_obstacle {u : Unwritable} (h : v.obstacle? room = some u) :
    judge room remark v = .quiet (.error u) := by
  cases hv : ofValue v with
  | ok t =>
      rw [obstacle?_of_ok hv] at h
      cases h
  | error e =>
      cases e with
      | malformed f => simp only [judge, hv, h]
      | tooLong =>
          obtain ⟨n, rfl, hn⟩ := ofValue_eq_tooLong_iff.mp hv
          rw [Value.obstacle?_int, if_neg hn] at h
          obtain rfl : Unwritable.tooLong = u := Option.some.inj h
          simp only [judge, hv]

/-- What becomes of a date: it cannot be shown, or it is a timestamp or nothing, or it is malformed
and remarked on. -/
theorem judge_cases (room : Nat) (remark : Value → Fault → Event) (v : Value) :
    (∃ u, v.obstacle? room = some u ∧ judge room remark v = .quiet (.error u)) ∨
    v.obstacle? room = none ∧
      ((∃ t, ofValue v = .ok t ∧ judge room remark v = .quiet (.ok t)) ∨
        ∃ f, ofValue v = .error (.malformed f) ∧
          judge room remark v = ⟨.ok none, [remark v f]⟩) := by
  cases hshown : v.obstacle? room with
  | some u => exact .inl ⟨u, rfl, judge_of_obstacle hshown⟩
  | none =>
      refine .inr ⟨rfl, ?_⟩
      cases hv : ofValue v with
      | ok t => exact .inl ⟨t, rfl, judge_of_ok hv⟩
      | error e =>
          cases e with
          | malformed f => exact .inr ⟨f, rfl, judge_of_malformed hv hshown⟩
          | tooLong =>
              obtain ⟨n, rfl, hn⟩ := ofValue_eq_tooLong_iff.mp hv
              rw [Value.obstacle?_int, if_neg hn] at hshown
              cases hshown

/-- Judging fails exactly on what cannot be shown, for the same reason. -/
theorem judge_eq_error_iff {u : Unwritable} :
    (judge room remark v).result = .error u ↔ v.obstacle? room = some u := by
  rcases judge_cases room remark v with ⟨w, hw, hjudge⟩ | ⟨hshown, ⟨t, -, hjudge⟩ | ⟨f, -, hjudge⟩⟩
  · rw [hw, hjudge]
    simp [Logged.quiet]
  · rw [hshown, hjudge]
    simp [Logged.quiet]
  · rw [hshown, hjudge]
    simp

/-- A date that was judged is not beyond the last second. -/
theorem le_lastSecond_of_judge {s : Nat} (h : (judge room remark v).result = .ok (some s)) :
    s ≤ lastSecond := by
  rcases judge_cases room remark v with ⟨u, -, hu⟩ | ⟨-, ⟨t, ht, hjudge⟩ | ⟨f, -, hjudge⟩⟩
  · rw [hu] at h; cases h
  · rw [hjudge] at h
    obtain rfl : t = some s := Except.ok.inj h
    exact le_lastSecond_of_ofValue ht
  · rw [hjudge] at h; cases h

theorem exists_fault_of_mem_judge {e : Event} (h : e ∈ (judge room remark v).events) :
    ∃ f, e = remark v f := by
  rcases judge_cases room remark v with ⟨u, -, hjudge⟩ | ⟨-, ⟨t, -, hjudge⟩ | ⟨f, -, hjudge⟩⟩
  · rw [hjudge] at h; cases h
  · rw [hjudge] at h; cases h
  · rw [hjudge] at h
    exact ⟨f, List.mem_singleton.mp h⟩

/-- What is remarked on a value that can be shown. -/
def remarksOn (remark : Value → Fault → Event) (v : Value) : List Event :=
  match ofValue v with
  | .error (.malformed f) => [remark v f]
  | _                     => []

/-- A malformed value is remarked on once. -/
theorem remarksOn_of_malformed {remark : Value → Fault → Event} {v : Value} {f : Fault}
    (h : ofValue v = .error (.malformed f)) : remarksOn remark v = [remark v f] := by
  simp only [remarksOn, h]

/-- A value that is not malformed is not remarked on. -/
theorem remarksOn_of_not_malformed {remark : Value → Fault → Event} {v : Value}
    (h : ∀ f, ofValue v ≠ .error (.malformed f)) : remarksOn remark v = [] := by
  rw [remarksOn]
  split
  · rename_i f hf
    exact absurd hf (h f)
  · rfl

/-- A value that can be shown gives the same date whatever the remark on it is. -/
theorem exists_judge_of_shown {room : Nat} {v : Value} (h : v.obstacle? room = none) :
    ∃ t, ∀ remark, judge room remark v = ⟨.ok t, remarksOn remark v⟩ := by
  rcases judge_cases room .dateAbsent v with ⟨u, hu, -⟩ | ⟨-, ⟨t, ht, -⟩ | ⟨f, hf, -⟩⟩
  · rw [h] at hu
    cases hu
  · refine ⟨t, fun remark => ?_⟩
    rw [judge_of_ok ht, remarksOn_of_not_malformed (fun f hf => by rw [ht] at hf; cases hf)]
    rfl
  · exact ⟨none, fun remark => by rw [judge_of_malformed hf h, remarksOn_of_malformed hf]⟩

end Timestamp

namespace Record

/-- Some value is taken for the record, with some room to show its date. -/
def Validated (r : Record) : Prop := ∃ room v, (ofValue room v).result = .ok r

/-! ### Dates -/

theorem dateIn_of_field {room : Nat} {ms : Members} {v : Value} (h : field "date" ms = some v) :
    dateIn room ms = dateOf room v := by
  rw [dateIn, h]
  rfl

/-! ### Fields of a record written out -/

/-- The version of a record is read from its members. -/
theorem versionIn_members (r : Record) : versionIn r.members = .ok r.version := by
  have hfield : field "version" r.members = some (Value.ofNat? r.version) := by
    rw [field, members, Members.get?_cons, if_pos rfl]
  rw [versionIn, hfield]
  cases r.version with
  | none => rfl
  | some n => simp [Value.ofNat?, Version.ofValue, Version.integer]

/-- The user of a record is read from its members. -/
theorem userIn_members (r : Record) : userIn r.members = .ok r.user := by
  have hfield : field "user" r.members = some (Value.ofText? r.user) := by
    rw [field, members, Members.get?_cons, if_neg (by decide), Members.get?_cons, if_pos rfl]
  rw [userIn, hfield]
  cases r.user <;> rfl

/-- The date of a record is read from its members when it is in range. -/
theorem dateIn_members {r : Record} (h : ∀ d, r.date = some d → d ≤ Timestamp.lastSecond)
    (room : Nat) : dateIn room r.members = .quiet (.ok r.date) := by
  have hfield : field "date" r.members = some (Value.ofNat? r.date) := by
    rw [field, members, Members.get?_cons, if_neg (by decide), Members.get?_cons,
      if_neg (by decide), Members.get?_cons, if_pos rfl]
  rw [dateIn_of_field hfield, dateOf, Timestamp.judge_of_ok (Timestamp.ofValue_ofNat? h)]

/-! ### Validated records -/

/-- A record with such a date is taken for itself, without a remark. -/
theorem ofValue_toValue_of_le {r : Record} (h : ∀ d, r.date = some d → d ≤ Timestamp.lastSecond)
    (room : Nat) : ofValue room r.toValue = .quiet (.ok r) := by
  rw [toValue, ofValue, ofMembers, versionIn_members, userIn_members, dateIn_members h]
  rfl

/-- What becomes of the date of an object: it is missing, or it is judged. -/
theorem dateIn_cases (room : Nat) (ms : Members) :
    (field "date" ms = none ∧ dateIn room ms = .quiet (.ok none)) ∨
    ∃ v, field "date" ms = some v ∧ dateIn room ms = Timestamp.judge room .dateAbsent v := by
  cases hfield : field "date" ms with
  | none => exact .inl ⟨rfl, by rw [dateIn, hfield]; rfl⟩
  | some v => exact .inr ⟨v, rfl, dateIn_of_field hfield⟩

/-- A date that validation lets through is not beyond the last second. -/
theorem dateIn_le {room : Nat} {ms : Members} {d : Nat}
    (h : (dateIn room ms).result = .ok (some d)) : d ≤ Timestamp.lastSecond := by
  rcases dateIn_cases room ms with ⟨-, hdate⟩ | ⟨v, -, hdate⟩
  · rw [hdate] at h; cases h
  · exact Timestamp.le_lastSecond_of_judge (hdate ▸ h)

/-- What is logged while a value is judged is about its date. -/
theorem dateAbsent_of_mem_events {room : Nat} {v : Value} {e : Event}
    (h : e ∈ (ofValue room v).events) : ∃ w f, e = .dateAbsent w f := by
  cases v with
  | object ms =>
      have hmem : e ∈ (dateIn room ms).events := h
      rcases dateIn_cases room ms with ⟨-, hdate⟩ | ⟨w, -, hdate⟩
      · rw [hdate] at hmem; cases hmem
      · rw [hdate] at hmem
        exact ⟨w, Timestamp.exists_fault_of_mem_judge hmem⟩
  | null | bool b | int n | float d | text t | list xs => cases h

/-- A record is that of three fields none of which is at fault. -/
theorem ofFields_eq_ok_iff {version : Except VersionFault (Option Nat)}
    {user : Except Unit (Option Text)} {date : Except Unwritable (Option Nat)} {r : Record} :
    ofFields version user date = .ok r ↔
      version = .ok r.version ∧ user = .ok r.user ∧ date = .ok r.date := by
  obtain ⟨v, u, d⟩ := r
  cases version <;> cases user <;> rcases date with (_ | _) | _ <;> simp [ofFields]

/-- A validated record has a date that can be shown. -/
theorem Validated.date_le {r : Record} (h : r.Validated) {d : Nat} (hd : r.date = some d) :
    d ≤ Timestamp.lastSecond := by
  obtain ⟨room, v, hv⟩ := h
  cases v with
  | object ms =>
      have hdate : (dateIn room ms).result = .ok r.date := (ofFields_eq_ok_iff.mp hv).2.2
      exact dateIn_le (hd ▸ hdate)
  | null | bool b | int n | float d | text t | list xs => cases hv

/-- A validated record that is written out is taken for itself. -/
theorem Validated.ofValue_toValue {r : Record} (h : r.Validated) (room : Nat) :
    ofValue room r.toValue = .quiet (.ok r) :=
  ofValue_toValue_of_le (fun _ hd => h.date_le hd) room

/-- Nothing but the date tells a validated record from others. -/
theorem validated_iff {r : Record} :
    r.Validated ↔ ∀ d, r.date = some d → d ≤ Timestamp.lastSecond :=
  ⟨fun h _ hd => h.date_le hd, fun h => ⟨0, r.toValue, by rw [ofValue_toValue_of_le h]; rfl⟩⟩

end Record

end ConfigPanel
