import ConfigPanel.Proofs.DateLabels
import ConfigPanel.Proofs.Entries
import ConfigPanel.Proofs.Fields
import ConfigPanel.Row.Mounted

/-!
# Row — what a row can be mounted on

Three things can be missing when a row is to be mounted, and they are looked for in this order: a
record, a handler, and something that a record can be read from.  Only an object that comes with a
handler is judged, and that like any object, with the same faults and the same remarks.  Whether a
record is given as such or as an object makes no difference to the row.  Not every object is at
fault or a record: one whose date is nested too deep gives no row either.  And not every row has
labels and markup: one whose version cannot be written has a key and a record alone.

`Refused` and `Candidate.Holds` say what it takes to fail and to succeed.  They are rules and stand
in no order: each names all that has to be in place for it.  They leave nothing out
(`refused_or_holds`) and `build` goes by each of them, so it goes by nothing else.

* `build_none`, `build_some`: the checks.
* `refused_iff`, `mounted_iff`: what mounting comes to, by the rules.
* `events_eq_nil`: where nothing is judged, nothing is remarked on.
* `build_highlighted`: the highlight has no part in it.
* `result_eq_tooDeep_iff`, `look_of_writable`, `look_of_not_writable`: what is beyond words.
* `mounted_as_validated`: all of it, for every candidate, handler and highlight.
-/

namespace ConfigPanel.Row

/-- The candidate is the record, or an object that is taken for it. -/
inductive Candidate.Holds (room : Nat) : Candidate → Record → Prop where
  | itself (r : Record) : Holds room (.record r) r
  | validated {ms : Members} {r : Record}
      (hr : (Record.ofValue room (.object ms)).result = .ok r) : Holds room (.value (.object ms)) r

/-- The candidate is not mounted with this handler, or for want of one, and the fault says why. -/
inductive Refused (room : Nat) : Candidate → Option Handler → MountFault → Prop where
  | noRecord (handler : Option Handler) : Refused room (.value .null) handler .noRecord
  | noHandler {candidate : Candidate} (hc : candidate ≠ .value .null) :
      Refused room candidate none .noHandler
  | notARecord {v : Value} (handler : Handler) (hnull : v ≠ .null)
      (hobject : ∀ ms, v ≠ .object ms) :
      Refused room (.value v) (some handler) (.notARecord v.kind)
  | refused {ms : Members} {e : Record.Refusal} (handler : Handler)
      (he : (Record.ofValue room (.object ms)).result = .error e) :
      Refused room (.value (.object ms)) (some handler) (.refused e)

/-- Every candidate is refused or holds a record and has a handler. -/
theorem refused_or_holds (room : Nat) (candidate : Candidate) (handler : Option Handler) :
    (∃ f, Refused room candidate handler f) ∨
      ∃ r h, candidate.Holds room r ∧ handler = some h := by
  by_cases hc : candidate = .value .null
  · rw [hc]
    exact .inl ⟨_, .noRecord handler⟩
  cases handler with
  | none => exact .inl ⟨_, .noHandler hc⟩
  | some h =>
      match candidate, hc with
      | .record r, _ => exact .inr ⟨r, h, .itself r, rfl⟩
      | .value .null, hc => exact absurd rfl hc
      | .value (.object ms), _ =>
          cases hjudged : (Record.ofValue room (.object ms)).result with
          | ok r => exact .inr ⟨r, h, .validated hjudged, rfl⟩
          | error e => exact .inl ⟨_, .refused h hjudged⟩
      | .value (.bool b), _ | .value (.int n), _ | .value (.float d), _ | .value (.text t), _
      | .value (.list xs), _ => exact .inl ⟨_, .notARecord h nofun nofun⟩

namespace Mounted

variable {room : Nat} {candidate : Candidate} {handler : Option Handler} {highlighted : Value}

/-! ### The checks -/

/-- Without a handler no row is made, whatever the record. -/
theorem build_none (room : Nat) (hc : candidate ≠ .value .null) (highlighted : Value) :
    build room candidate none highlighted = .quiet (.error .noHandler) := by
  rw [build]
  exact hc

/-- With a handler a row is made of what is taken for the record. -/
theorem build_some (room : Nat) (hc : candidate ≠ .value .null) (handler : Handler)
    (highlighted : Value) :
    build room candidate (some handler) highlighted = (recordOf room candidate).map fun r =>
      r.map fun record => ⟨⟨record, highlighted.isTruthy⟩, handler, 0⟩ := by
  rw [build]
  exact hc

/-- What is no object is no record. -/
theorem recordOf_of_not_object {v : Value} (hv : ∀ ms, v ≠ .object ms) :
    recordOf room (.value v) = .quiet (.error (.notARecord v.kind)) := by
  cases v with
  | object ms => exact absurd rfl (hv ms)
  | null | bool b | int n | float d | text t | list xs => rfl

/-- A record is mounted as it is. -/
theorem build_record (room : Nat) (r : Record) (handler : Handler) (highlighted : Value) :
    build room (.record r) (some handler) highlighted
      = .quiet (.ok ⟨⟨r, highlighted.isTruthy⟩, handler, 0⟩) := rfl

/-- An object is mounted as the record that it is taken for. -/
theorem build_object (room : Nat) (ms : Members) (handler : Handler) (highlighted : Value) :
    build room (.value (.object ms)) (some handler) highlighted
      = (Record.ofValue room (.object ms)).map fun r => (r.mapError .refused).map fun record =>
        ⟨⟨record, highlighted.isTruthy⟩, handler, 0⟩ := rfl

/-! ### By the rules -/

/-- What is to be refused is refused for the reason that there is. -/
theorem result_of_refused {f : MountFault} (hf : Refused room candidate handler f) :
    (build room candidate handler highlighted).result = .error f := by
  cases hf with
  | noRecord => rfl
  | noHandler hc =>
      rw [build_none room hc]
      rfl
  | notARecord h hnull hobject =>
      have hc : Candidate.value _ ≠ .value .null := fun heq => hnull (Candidate.value.inj heq)
      rw [build_some room hc, recordOf_of_not_object hobject]
      rfl
  | refused h he =>
      rw [build_object, Logged.map, he]
      rfl

/-- What holds a record makes a row on it. -/
theorem result_of_holds {r : Record} (hr : candidate.Holds room r) (h : Handler) :
    (build room candidate (some h) highlighted).result = .ok ⟨⟨r, highlighted.isTruthy⟩, h, 0⟩ := by
  cases hr with
  | itself => rfl
  | validated hr =>
      rw [build_object, Logged.map, hr]
      rfl

/-- A row is refused for the reason that there is, and for no other. -/
theorem refused_iff {f : MountFault} :
    (build room candidate handler highlighted).result = .error f ↔
      Refused room candidate handler f := by
  refine ⟨fun hresult => ?_, result_of_refused⟩
  rcases refused_or_holds room candidate handler with ⟨g, hg⟩ | ⟨r, h, hr, rfl⟩
  · obtain rfl := Except.error.inj (hresult.symm.trans (result_of_refused hg))
    exact hg
  · rw [result_of_holds hr h] at hresult
    cases hresult

/-- A row is made exactly on what is held, with the handler and the highlight that are given. -/
theorem mounted_iff {m : Mounted} :
    (build room candidate handler highlighted).result = .ok m ↔
      ∃ r h, candidate.Holds room r ∧ handler = some h ∧ m = ⟨⟨r, highlighted.isTruthy⟩, h, 0⟩ := by
  constructor
  · intro hresult
    rcases refused_or_holds room candidate handler with ⟨g, hg⟩ | ⟨r, h, hr, rfl⟩
    · rw [result_of_refused hg] at hresult
      cases hresult
    · exact ⟨r, h, hr, rfl, Except.ok.inj (hresult.symm.trans (result_of_holds hr h))⟩
  · rintro ⟨r, h, hr, rfl, rfl⟩
    exact result_of_holds hr h

/-! ### Remarks and the highlight -/

/-- Only judging an object logs anything. -/
theorem events_eq_nil (h : handler = none ∨ ∀ ms, candidate ≠ .value (.object ms)) :
    (build room candidate handler highlighted).events = [] := by
  by_cases hc : candidate = .value .null
  · rw [hc]
    rfl
  cases handler with
  | none =>
      rw [build_none room hc]
      rfl
  | some handler =>
      have hobject := h.resolve_left nofun
      -- only the judging of an object can remark on anything
      match candidate with
      | .record r => rfl
      | .value v =>
          have hv : ∀ ms, v ≠ .object ms := fun ms heq => hobject ms (congrArg _ heq)
          rw [build_some room hc, recordOf_of_not_object hv]
          rfl

/-- Mounting with another highlight is mounting, and setting the highlight then. -/
theorem build_highlighted (room : Nat) (candidate : Candidate) (handler : Option Handler)
    (highlighted other : Value) :
    build room candidate handler other = (build room candidate handler highlighted).map fun r =>
      r.map fun m => (m.use (.highlight other)).row := by
  by_cases hc : candidate = .value .null
  · rw [hc]
    rfl
  cases handler with
  | none =>
      rw [build_none room hc, build_none room hc]
      rfl
  | some h =>
      rw [build_some room hc, build_some room hc, Logged.map, Logged.map, Logged.map]
      cases (recordOf room candidate).result <;> rfl

/-! ### Beyond words -/

/-- An object whose date is nested too deep is refused for that alone, when it comes with a
handler. -/
theorem result_eq_tooDeep_iff :
    (build room candidate handler highlighted).result = .error (.refused .tooDeep) ↔
      ∃ v h, candidate = .value v ∧ handler = some h ∧ Payload.TooDeep room v := by
  rw [refused_iff]
  constructor
  · rintro (_ | _ | _ | ⟨h, he⟩)
    exact ⟨_, h, rfl, rfl, Payload.tooDeep_iff.mpr he⟩
  · rintro ⟨v, h, rfl, rfl, hdeep⟩
    obtain ⟨ms, d, rfl, -⟩ := id hdeep
    exact .refused h (Payload.tooDeep_iff.mp hdeep)

variable {m : Mounted}

/-- The uses of a row that look at its labels. -/
def looks : List Use := [.labels, .render, .embed]

/-- A row on a record that can be written has its labels, and its markup either way. -/
theorem look_of_writable (h : m.row.record.Writable) :
    (m.use .labels).answer = .ok (.labels m.row.labels) ∧
      (m.use .render).answer = .ok (.markup m.row.markup) ∧
      (m.use .embed).answer = .ok (.markup m.row.markup) := by
  have hlabels : m.row.record.loggedLabels.result = .ok m.row.labels :=
    Record.loggedLabels_of_writable h
  have hmarkup : m.row.render.result = .ok m.row.markup := by
    rw [Row.render, Logged.map, hlabels]
    rfl
  refine ⟨?_, ?_, ?_⟩
  · rw [use, look, hlabels]
    rfl
  · rw [use, look, hmarkup]
    rfl
  · rw [use, look, hmarkup]
    rfl

/-- A row on any other record has none of them. -/
theorem look_of_not_writable (h : ¬ m.row.record.Writable) :
    ∀ u ∈ looks, (m.use u).answer = .error (.unwritable .tooLong) := by
  have hlabels : m.row.record.loggedLabels.result = .error .tooLong :=
    Record.loggedLabels_of_not_writable h
  have hmarkup : m.row.render.result = .error .tooLong := by
    rw [Row.render, Logged.map, hlabels]
    rfl
  intro u hu
  simp only [looks, List.mem_cons, List.not_mem_nil, or_false] at hu
  rcases hu with rfl | rfl | rfl
  · rw [use, look, hlabels]
    rfl
  · rw [use, look, hmarkup]
    rfl
  · rw [use, look, hmarkup]
    rfl

/-! ### Mounting -/

/-- **Mounting goes by validation.**  It fails in the four ways that `Refused` names and in no
other: without a record, whatever else there is; without a handler, however wrong the candidate is;
on a value that is no object; and on an object that is not validated, just as validating it fails.
It succeeds on what holds a record and has a handler, and the row is the one that is mounted on that
record itself, which is always accepted, as it is and without a remark; so whatever is read off the
two rows is the same.  The remarks are those of validation, and there are none where nothing is
validated.  An empty object is not a missing record but one without fields.  Another highlight gives
the same row with its highlight set, or the same fault; it never decides whether there is a row.

Two things are beyond words.  Validating an object, and with it mounting a row, fails for no fault
of a field exactly when its date is nested too deep to be shown.  And a row has labels and markup
exactly when its record can be written. -/
theorem mounted_as_validated (room : Nat) (candidate : Candidate) (handler : Option Handler)
    (highlighted : Value) :
    let built := build room candidate handler highlighted
    (∀ f, built.result = .error f ↔ Refused room candidate handler f) ∧
    (∀ m, built.result = .ok m ↔
      ∃ r, candidate.Holds room r ∧ build room (.record r) handler highlighted = .quiet (.ok m)) ∧
    (∀ r h, build room (.record r) (some h) highlighted
      = .quiet (.ok ⟨⟨r, highlighted.isTruthy⟩, h, 0⟩)) ∧
    (∀ r m, candidate.Holds room r → built.result = .ok m →
      let row : Row := ⟨r, highlighted.isTruthy⟩
      (m.use .key).answer = .ok (.key r.key) ∧
      (m.use .record).answer = .ok (.record r) ∧
      (r.Writable → (m.use .labels).answer = .ok (.labels r.labels) ∧
        (m.use .render).answer = .ok (.markup row.markup) ∧
        (m.use .embed).answer = .ok (.markup row.markup)) ∧
      (¬ r.Writable → ∀ u ∈ looks, (m.use u).answer = .error (.unwritable .tooLong))) ∧
    (∀ ms h, candidate = .value (.object ms) → handler = some h →
      built.events = (Record.ofValue room (.object ms)).events) ∧
    ((handler = none ∨ ∀ ms, candidate ≠ .value (.object ms)) → built.events = []) ∧
    (∀ h, build room (.value (.object [])) (some h) highlighted
      = .quiet (.ok ⟨⟨⟨none, none, none⟩, highlighted.isTruthy⟩, h, 0⟩)) ∧
    (built.result = .error (.refused .tooDeep) ↔
      ∃ v h, candidate = .value v ∧ handler = some h ∧ Payload.TooDeep room v) ∧
    ∀ other, build room candidate handler other
      = built.map fun r => r.map fun m => (m.use (.highlight other)).row := by
  intro built
  refine ⟨fun f => refused_iff, fun m => ?_, fun r h => build_record room r h highlighted,
    fun r m hr hm => ?_, ?_, events_eq_nil, fun h => rfl, result_eq_tooDeep_iff,
    build_highlighted room candidate handler highlighted⟩
  · rw [mounted_iff]
    constructor
    · rintro ⟨r, h, hr, rfl, rfl⟩
      exact ⟨r, hr, build_record room r h highlighted⟩
    · rintro ⟨r, hr, hrow⟩
      obtain ⟨s, h, hs, rfl, rfl⟩ := mounted_iff.mp (congrArg Logged.result hrow)
      -- a record holds no record but itself
      cases hs
      exact ⟨r, h, hr, rfl, rfl⟩
  · obtain ⟨s, h, -, rfl, -⟩ := mounted_iff.mp hm
    obtain rfl := Except.ok.inj (hm.symm.trans (result_of_holds hr h))
    let m : Mounted := ⟨⟨r, highlighted.isTruthy⟩, h, 0⟩
    exact ⟨rfl, rfl, look_of_writable (m := m), look_of_not_writable (m := m)⟩
  · rintro ms h rfl rfl
    rfl

/-- An object with a date of a thousand lists gives no row and has no fault; one with a version of
4301 digits gives a row without labels and markup. -/
theorem mounted_beyond_words :
    let version : Nat := 10 ^ Numeral.digitLimit
    let long : Record := ⟨some version, none, none⟩
    let handler : Handler := fun _ => .returns
    build 990 (.value (.record [("date", Payload.nested 991)])) (some handler) .null
        = .quiet (.error (.refused .tooDeep)) ∧
      ∃ m, build 990 (.value long.toValue) (some handler) .null = .quiet (.ok m) ∧
        (m.use .record).answer = .ok (.record long) ∧
        (m.use .labels).answer = .error (.unwritable .tooLong) ∧
        (m.use .render).answer = .error (.unwritable .tooLong) := by
  obtain ⟨version, hversion, hlong⟩ := Numeral.exists_not_writable
  rw [hversion]
  intro _ long handler
  have hvalid : long.Validated := Record.validated_iff.mpr nofun
  have hlooks := look_of_not_writable (m := ⟨⟨long, false⟩, handler, 0⟩) fun h => hlong h.1
  refine ⟨?_, ⟨⟨long, false⟩, handler, 0⟩, ?_, rfl, ?_, ?_⟩
  · have hrefused : Record.ofValue 990 (.object [(Text.of "date", Payload.nested 991)])
        = .quiet (.error .tooDeep) :=
      Record.ofMembers_of_tooDeep rfl (Payload.obstacle?_nested 990)
    have hvalue : Value.record [("date", Payload.nested 991)]
        = .object [(Text.of "date", Payload.nested 991)] := rfl
    rw [hvalue, build_object, hrefused]
    rfl
  · have hrecord : Record.ofValue 990 (.object long.members) = .quiet (.ok long) :=
      hvalid.ofValue_toValue 990
    have hvalue : long.toValue = .object long.members := rfl
    rw [hvalue, build_object, hrecord]
    rfl
  · exact hlooks .labels (List.mem_cons_self ..)
  · exact hlooks .render (List.mem_cons_of_mem _ (List.mem_cons_self ..))

/-- An object that is wrong about everything, without a handler and with one, and an object that is
wrong about its date alone. -/
theorem mounted_as_validated_of_bad_fields :
    let handler : Handler := fun _ => .returns
    let date : Text × Value := (Text.of "date", .bool true)
    let wrong : Members := [(Text.of "user", .int 7), date, (Text.of "version", .int (-1))]
    let undated : Members := [date, (Text.of "version", .int 3)]
    let remarks :=
      ["WARNING: Treating config date True as absent: Timestamp must be a number, got bool"]
    (build 990 (.value (.object wrong)) none .null).result = .error .noHandler ∧
      (build 990 (.value (.object wrong)) none .null).events = [] ∧
      (build 990 (.value (.object wrong)) (some handler) .null).result
        = .error (.refused (.invalid [.version .negative, .user])) ∧
      (build 990 (.value (.object wrong)) (some handler) .null).events.map Event.line = remarks ∧
      (build 990 (.value (.object undated)) (some handler) (.int 5)).events.map Event.line
        = remarks ∧
      ∃ m, (build 990 (.value (.object undated)) (some handler) (.int 5)).result = .ok m ∧
        build 990 (.record ⟨some 3, none, none⟩) (some handler) (.int 5) = .quiet (.ok m) ∧
        (m.use .key).answer = .ok (.key 3) := by
  intro handler date wrong undated remarks
  obtain ⟨hmissing, -, -, -, -, hquiet, -⟩ :=
    mounted_as_validated 990 (.value (.object wrong)) none .null
  obtain ⟨hinvalid, -, -, -, hwrong, -⟩ :=
    mounted_as_validated 990 (.value (.object wrong)) (some handler) .null
  obtain ⟨-, hsame, hitself, hread, hundated, -⟩ :=
    mounted_as_validated 990 (.value (.object undated)) (some handler) (.int 5)
  have hholds : (Candidate.value (.object undated)).Holds 990 ⟨some 3, none, none⟩ := .validated rfl
  have hmounted := (hsame _).mpr ⟨_, hholds, hitself _ handler⟩
  refine ⟨(hmissing _).mpr (.noHandler nofun), hquiet (.inl rfl),
    (hinvalid _).mpr (.refused handler rfl), ?_, ?_, _, hmounted, hitself _ handler,
    (hread _ _ hholds hmounted).1⟩
  · rw [hwrong _ handler rfl rfl]
    rfl
  · rw [hundated _ handler rfl rfl]
    rfl

end Mounted

end ConfigPanel.Row
