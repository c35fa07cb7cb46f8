import ConfigPanel.Proofs.Judgement
import ConfigPanel.Proofs.Record

/-!
# Record — one field at a time

An object is judged by what stands under three names, and each of them by itself.  The faults of the
version and those of the user are functions of that value alone (`versionFaults`, `userFaults`).
Where the date can be shown, an object is refused for both lists, one after the other, and is a
record when both are empty; the date adds no fault, only a remark, and that whether the object is
refused or not.  Where it cannot be shown, the object is refused whatever else it holds, and nothing
is remarked.

* `ofMembers_cases`: what an object with a date that can be shown comes to, by its fields.
* `ofMembers_of_tooLong`, `ofMembers_of_tooDeep`: what becomes of the others.
* `ofValue_congr`, `result_congr`: objects that agree under the names come to the same.
* `fields_judged_apart`: all of it for any two objects.
-/

namespace ConfigPanel.Record

/-- The objects have the same under each of the names: one value, or none in either. -/
def AgreeOn (names : List String) (ms ns : Members) : Prop :=
  ∀ name ∈ names, field name ms = field name ns

/-- What is wrong with what stands under the name of the version, if anything does. -/
def versionFaults (v : Option Value) : List Fault :=
  faultsOf .version (v.elim (.ok none) Version.ofValue)

/-- What is wrong with what stands under the name of the user, if anything does. -/
def userFaults (v : Option Value) : List Fault :=
  faultsOf (fun _ => .user) (v.elim (.ok none) userOf)

/-- The faults of the version and the user of an object. -/
def faults (ms : Members) : List Fault :=
  versionFaults (field "version" ms) ++ userFaults (field "user" ms)

/-- The date of an object, if it has one, can be shown. -/
def DateShown (room : Nat) (ms : Members) : Prop :=
  ∀ v, field "date" ms = some v → v.obstacle? room = none

/-! ### Faults -/

theorem place_versionFaults (v : Option Value) :
    ((versionFaults v).map Fault.place).Sublist [["version"]] := by
  rw [versionFaults]
  cases v.elim (.ok none) Version.ofValue with
  | ok n => exact List.nil_sublist _
  | error f => exact .refl _

theorem place_userFaults (v : Option Value) :
    ((userFaults v).map Fault.place).Sublist [["user"]] := by
  rw [userFaults]
  cases v.elim (.ok none) userOf with
  | ok u => exact List.nil_sublist _
  | error e => exact .refl _

/-- At most one fault each, of the version first, and none of the date. -/
theorem place_faults (ms : Members) :
    ((faults ms).map Fault.place).Sublist [["version"], ["user"]] := by
  rw [faults, List.map_append]
  exact (place_versionFaults _).append (place_userFaults _)

/-! ### What an object comes to -/

variable {room : Nat} {ms ns : Members}

/-- A date that can be shown is no fault, and is remarked on when it is malformed. -/
theorem dateIn_of_shown (h : DateShown room ms) :
    ∃ d, dateIn room ms
      = ⟨.ok d, (field "date" ms).elim [] (Timestamp.remarksOn .dateAbsent)⟩ := by
  cases hfield : field "date" ms with
  | none => exact ⟨none, by rw [dateIn, hfield]; rfl⟩
  | some v =>
      obtain ⟨t, ht⟩ := Timestamp.exists_judge_of_shown (h v hfield)
      exact ⟨t, by rw [dateIn_of_field hfield, dateOf, ht]; rfl⟩

/-- Nothing is logged but the remark on a malformed date. -/
theorem events_of_shown (h : DateShown room ms) :
    (ofMembers room ms).events = (field "date" ms).elim [] (Timestamp.remarksOn .dateAbsent) := by
  obtain ⟨d, hd⟩ := dateIn_of_shown h
  rw [ofMembers, hd]
  rfl

/-- What an object with a date that can be shown comes to: a record of its fields when nothing is
wrong with them, and else all that is wrong. -/
theorem ofMembers_cases (h : DateShown room ms) :
    (faults ms = [] ∧ ∃ r, (ofMembers room ms).result = .ok r ∧
      versionIn ms = .ok r.version ∧ userIn ms = .ok r.user) ∨
    (faults ms ≠ [] ∧ (ofMembers room ms).result = .error (.invalid (faults ms))) := by
  obtain ⟨d, hd⟩ := dateIn_of_shown h
  have hresult : (ofMembers room ms).result = ofFields (versionIn ms) (userIn ms) (.ok d) := by
    rw [ofMembers, hd]
    rfl
  have hfaults : faults ms
      = faultsOf .version (versionIn ms) ++ faultsOf (fun _ => .user) (userIn ms) := rfl
  rw [hresult, hfaults]
  cases versionIn ms with
  | ok v =>
      cases userIn ms with
      | ok u => exact .inl ⟨rfl, _, rfl, rfl, rfl⟩
      | error e => exact .inr ⟨List.cons_ne_nil _ _, rfl⟩
  | error f =>
      cases userIn ms with
      | ok u => exact .inr ⟨List.cons_ne_nil _ _, rfl⟩
      | error e => exact .inr ⟨List.cons_ne_nil _ _, rfl⟩

/-- An object whose date can be shown is a record exactly when it has no faults. -/
theorem exists_record_iff (h : DateShown room ms) :
    (∃ r, (ofMembers room ms).result = .ok r) ↔ faults ms = [] := by
  rcases ofMembers_cases h with ⟨hnone, r, hr, -⟩ | ⟨hsome, hfs⟩
  · exact ⟨fun _ => hnone, fun _ => ⟨r, hr⟩⟩
  · rw [hfs]
    exact ⟨nofun, fun hnone => absurd hnone hsome⟩

/-- An object whose date can be shown is refused with all its faults. -/
theorem refused_iff (h : DateShown room ms) {e : Refusal} :
    (ofMembers room ms).result = .error e ↔ e = .invalid (faults ms) ∧ faults ms ≠ [] := by
  rcases ofMembers_cases h with ⟨hnone, r, hr, -⟩ | ⟨hsome, hfs⟩
  · rw [hr]
    exact ⟨nofun, fun ⟨_, hne⟩ => absurd hnone hne⟩
  · rw [hfs, Except.error.injEq]
    exact ⟨fun heq => ⟨heq.symm, hsome⟩, fun heq => heq.1.symm⟩

/-- A date with a number in it that is too long to be shown is one more fault. -/
theorem ofMembers_of_tooLong {v : Value} (hv : field "date" ms = some v)
    (h : v.obstacle? room = some .tooLong) :
    ofMembers room ms = .quiet (.error (.invalid (faults ms ++ [.date]))) := by
  rw [ofMembers, dateIn_of_field hv, dateOf, Timestamp.judge_of_obstacle h]
  have hfields (version user) : ofFields version user (.error .tooLong)
      = .error (.invalid (faultsOf .version version ++ faultsOf (fun _ => .user) user
        ++ [.date])) := by
    cases version <;> cases user <;> rfl
  exact congrArg Logged.quiet (hfields (versionIn ms) (userIn ms))

/-- A date that is nested too deep to be shown is all that comes of an object. -/
theorem ofMembers_of_tooDeep {v : Value} (hv : field "date" ms = some v)
    (h : v.obstacle? room = some .tooDeep) : ofMembers room ms = .quiet (.error .tooDeep) := by
  rw [ofMembers, dateIn_of_field hv, dateOf, Timestamp.judge_of_obstacle h]
  have hfields (version user) : ofFields version user (.error .tooDeep) = .error .tooDeep := by
    cases version <;> cases user <;> rfl
  exact congrArg Logged.quiet (hfields (versionIn ms) (userIn ms))

/-! ### Remarks -/

/-- An unfit date that can be shown is malformed, and that is remarked. -/
theorem events_of_unfit {v : Value} (hv : field "date" ms = some v)
    (h : v.obstacle? room = none) (hbad : Timestamp.Unfit v) :
    ∃ f, Timestamp.ofValue v = .error (.malformed f) ∧
      (ofMembers room ms).events = [.dateAbsent v f] := by
  have hshort : ∀ n, v = .int n → Numeral.Writable n := by
    rintro n rfl
    refine Decidable.byContradiction fun hlong => ?_
    rw [Value.obstacle?_int, if_neg hlong] at h
    cases h
  obtain ⟨f, hf⟩ := Timestamp.exists_fault_iff.mpr ⟨hbad, hshort⟩
  have hshown : DateShown room ms := fun w hw => by
    obtain rfl : v = w := Option.some.inj (hv.symm.trans hw)
    exact h
  refine ⟨f, hf, ?_⟩
  rw [events_of_shown hshown, hv]
  exact Timestamp.remarksOn_of_malformed hf

/-- An object whose date is not malformed is judged without a remark. -/
theorem events_of_not_unfit (h : ∀ v, field "date" ms = some v → ¬ Timestamp.Unfit v) :
    (ofMembers room ms).events = [] := by
  have hevents : (ofMembers room ms).events = (dateIn room ms).events := rfl
  rcases dateIn_cases room ms with ⟨-, hdate⟩ | ⟨v, hv, hdate⟩
  · rw [hevents, hdate]
    rfl
  · rw [hevents, hdate]
    rcases Timestamp.judge_cases room .dateAbsent v with
      ⟨u, -, hu⟩ | ⟨-, ⟨t, -, ht⟩ | ⟨f, hf, -⟩⟩
    · rw [hu]
      rfl
    · rw [ht]
      rfl
    · exact absurd (Timestamp.exists_refusal_iff.mp ⟨_, hf⟩) (h v hv)

/-! ### Objects that agree -/

/-- The faults depend on the version and the user alone. -/
theorem faults_congr (h : AgreeOn ["version", "user"] ms ns) : faults ms = faults ns := by
  rw [faults, faults, h "version" (by simp), h "user" (by simp)]

/-- What else an object holds makes no difference. -/
theorem ofValue_congr (h : AgreeOn ["version", "user", "date"] ms ns) :
    ofValue room (.object ms) = ofValue room (.object ns) := by
  have hversion : versionIn ms = versionIn ns := by rw [versionIn, versionIn, h "version" (by simp)]
  have huser : userIn ms = userIn ns := by rw [userIn, userIn, h "user" (by simp)]
  have hdate : dateIn room ms = dateIn room ns := by rw [dateIn, dateIn, h "date" (by simp)]
  rw [ofValue, ofValue, ofMembers, ofMembers, hversion, huser, hdate]

/-- Whatever dates that can be shown two objects have, they come to the same but for the date. -/
theorem result_congr (hms : DateShown room ms) (hns : DateShown room ns)
    (h : AgreeOn ["version", "user"] ms ns) :
    (∃ r s, (ofMembers room ms).result = .ok r ∧ (ofMembers room ns).result = .ok s ∧
      r.version = s.version ∧ r.user = s.user) ∨
    ∃ fs, (ofMembers room ms).result = .error (.invalid fs) ∧
      (ofMembers room ns).result = .error (.invalid fs) := by
  have hfaults := faults_congr h
  rcases ofMembers_cases hms with ⟨hnone, r, hr, hversion, huser⟩ | ⟨hsome, hfs⟩
  · rcases ofMembers_cases hns with ⟨-, s, hs, hversion', huser'⟩ | ⟨hsome, -⟩
    · rw [versionIn, h "version" (by simp), ← versionIn] at hversion
      rw [userIn, h "user" (by simp), ← userIn] at huser
      exact .inl ⟨r, s, hr, hs, Except.ok.inj (hversion.symm.trans hversion'),
        Except.ok.inj (huser.symm.trans huser')⟩
    · exact absurd (hfaults ▸ hnone) hsome
  · have hother : (ofMembers room ns).result = .error (.invalid (faults ms)) :=
      (refused_iff hns).mpr ⟨by rw [hfaults], hfaults ▸ hsome⟩
    exact .inr ⟨_, hfs, hother⟩

/-- **Each field is judged by itself, and a date that can be shown never decides.**  The faults of a
version and those of a user are functions of the value under the name, or of its absence, and are
one at most.  An object whose date can be shown, or that has none, is refused exactly for the faults
of its version followed by those of its user, and is a record exactly when there are none; so what
it is refused for is placed at its version, at its user, or at both in this order, and never at its
date.  Whether it is refused or not, an unfit date is remarked on once, and nothing else is.  Two
such objects that agree under the version and the user are both records with this version and user,
or both refused for the same faults.  Any two objects that agree under the three names come to the
same record or the same failure, with the same remarks, whatever else they hold.

A date that cannot be shown decides: where a number in it is too long the object is refused with one
more fault, placed at the date, and where it is nested too deep the object is refused for that
alone; nothing is remarked. -/
theorem fields_judged_apart (room : Nat) (ms : Members) :
    let judged := ofValue room (.object ms)
    let faults := versionFaults (field "version" ms) ++ userFaults (field "user" ms)
    (∀ v, ((versionFaults v).map Fault.place).Sublist [["version"]]) ∧
    (∀ v, ((userFaults v).map Fault.place).Sublist [["user"]]) ∧
    ((∀ v, field "date" ms = some v → v.obstacle? room = none) →
      (∀ e, judged.result = .error e ↔ e = .invalid faults ∧ faults ≠ []) ∧
      ((∃ r, judged.result = .ok r) ↔ faults = []) ∧
      (faults.map Fault.place).Sublist [["version"], ["user"]] ∧
      (∀ v, field "date" ms = some v → Timestamp.Unfit v →
        ∃ f, Timestamp.ofValue v = .error (.malformed f) ∧ judged.events.map Event.line
          = ["WARNING: Treating config date " ++ v.shown ++ " as absent: " ++ f.message]) ∧
      ((∀ v, field "date" ms = some v → ¬ Timestamp.Unfit v) → judged.events = []) ∧
      ∀ ns, AgreeOn ["version", "user"] ms ns →
        (∀ v, field "date" ns = some v → v.obstacle? room = none) →
        (∃ r s, judged.result = .ok r ∧ (ofValue room (.object ns)).result = .ok s ∧
          r.version = s.version ∧ r.user = s.user) ∨
        ∃ fs, judged.result = .error (.invalid fs) ∧
          (ofValue room (.object ns)).result = .error (.invalid fs)) ∧
    (∀ ns, AgreeOn ["version", "user", "date"] ms ns → ofValue room (.object ns) = judged) ∧
    (∀ v, field "date" ms = some v → v.obstacle? room = some .tooLong →
      judged = .quiet (.error (.invalid (faults ++ [.date])))) ∧
    ∀ v, field "date" ms = some v → v.obstacle? room = some .tooDeep →
      judged = .quiet (.error .tooDeep) := by
  intro judged faults
  refine ⟨place_versionFaults, place_userFaults, fun hshown => ?_,
    fun ns hns => (ofValue_congr hns).symm, fun v hv => ofMembers_of_tooLong hv,
    fun v hv => ofMembers_of_tooDeep hv⟩
  refine ⟨fun e => refused_iff hshown, exists_record_iff hshown, place_faults ms,
    fun v hv hbad => ?_, events_of_not_unfit, fun ns hns hother => result_congr hshown hother hns⟩
  obtain ⟨f, hf, hevents⟩ := events_of_unfit hv (hshown v hv) hbad
  have hjudged : judged.events = [.dateAbsent v f] := hevents
  rw [hjudged]
  exact ⟨f, hf, rfl⟩

/-- A number of 4301 digits for a date, and nothing wrong with the version: the object is refused,
its fault is placed at the date, and nothing is remarked. -/
theorem date_at_fault :
    let date : Value := .int (10 ^ Numeral.digitLimit : Nat)
    let ms : Members := [(Text.of "version", .int 1), (Text.of "date", date)]
    Timestamp.Unfit date ∧ ofValue 990 (.object ms) = .quiet (.error (.invalid [.date])) ∧
      Fault.date.place = ["date"] ∧
      (ofValue 990 (.object [(Text.of "version", .int 1)])).result = .ok ⟨some 1, none, none⟩ := by
  intro date ms
  have hlong : date.obstacle? 990 = some .tooLong := by
    rw [Value.obstacle?_int, if_neg Numeral.not_writable_limit]
  have hunfit : Timestamp.Unfit date :=
    Timestamp.exists_refusal_iff.mp
      ⟨.tooLong, Timestamp.ofValue_eq_tooLong_iff.mpr ⟨_, rfl, Numeral.not_writable_limit⟩⟩
  have hfield : field "date" ms = some date := rfl
  exact ⟨hunfit, ofMembers_of_tooLong hfield hlong, rfl, rfl⟩

/-- An object with nothing right about it, and another with a date that is right. -/
theorem fields_judged_apart_of_bad_fields :
    let ms : Members := [(Text.of "buckets", .list []), (Text.of "date", .bool true),
      (Text.of "user", .int 7), (Text.of "version", .int (-1))]
    let ns : Members := [(Text.of "version", .int (-1)), (Text.of "user", .int 7),
      (Text.of "date", .int 5)]
    AgreeOn ["version", "user"] ms ns ∧ Timestamp.Unfit (.bool true) ∧
      (ofValue 990 (.object ms)).result = .error (.invalid [.version .negative, .user]) ∧
      (ofValue 990 (.object ns)).result = .error (.invalid [.version .negative, .user]) ∧
      (ofValue 990 (.object ms)).events.map Event.line
        = ["WARNING: Treating config date True as absent: Timestamp must be a number, got bool"] ∧
      (ofValue 990 (.object ns)).events = [] := by
  intro ms ns
  have hagree : AgreeOn ["version", "user"] ms ns := by
    intro name hname
    simp only [List.mem_cons, List.not_mem_nil, or_false] at hname
    rcases hname with rfl | rfl <;> simp +decide [field, ms, ns, Members.get?_cons]
  have hbad : Timestamp.Unfit (.bool true) := Timestamp.exists_refusal_iff.mp ⟨_, rfl⟩
  have hgood : ¬ Timestamp.Unfit (.int 5) := fun h => h.2 5 (.inl rfl) ⟨by decide, by decide⟩
  have hfive : (Value.int 5).obstacle? 990 = none := by
    rw [Value.obstacle?_int, if_pos (Numeral.Writable.of_natAbs_lt (by decide))]
  have hms : ∀ v, field "date" ms = some v → v.obstacle? 990 = none := by
    rintro v ⟨⟩
    rfl
  have hns : ∀ v, field "date" ns = some v → v = .int 5 := by
    rintro v ⟨⟩
    rfl
  have hshown : ∀ v, field "date" ns = some v → v.obstacle? 990 = none := fun v hv =>
    hns v hv ▸ hfive
  obtain ⟨-, -, hjudged, -⟩ := fields_judged_apart 990 ms
  obtain ⟨hrefused, -, -, hremark, -, hpair⟩ := hjudged hms
  have hresult := (hrefused (.invalid [.version .negative, .user])).mpr ⟨rfl, List.cons_ne_nil _ _⟩
  obtain ⟨f, hf, hline⟩ := hremark (.bool true) rfl hbad
  obtain rfl : Timestamp.Fault.notANumber "bool" = f := by
    have hfault : Timestamp.ofValue (.bool true) = .error (.malformed (.notANumber "bool")) := rfl
    simpa [hfault] using hf
  refine ⟨hagree, hbad, hresult, ?_, hline, ?_⟩
  · rcases hpair ns hagree hshown with ⟨r, s, hr, -⟩ | ⟨fs, hfs, hother⟩
    · rw [hresult] at hr
      cases hr
    · obtain rfl : [.version .negative, .user] = fs := by simpa [hresult] using hfs
      exact hother
  · obtain ⟨-, -, hquiet, -⟩ := fields_judged_apart 990 ns
    exact (hquiet hshown).2.2.2.2.1 fun v hv => hns v hv ▸ hgood

end ConfigPanel.Record
