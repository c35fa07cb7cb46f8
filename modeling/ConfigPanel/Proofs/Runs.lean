import ConfigPanel.History.Session
import ConfigPanel.Proofs.Entries
import ConfigPanel.Proofs.Record

/-!
# Session — what a call does to the history

A session knows many calls, but there are four things that a call can do to the history: leave it
alone, select a version, show another list, or set another limit.  `Session.act` reads off which it
is, `History.after` does it, and `step_history` says that nothing else happens.  What every act
keeps, a run of calls keeps.

Three of the calls that select go through a row.  The row that a history has for a version is the
row of the record that it has for it (`view_eq`), so a click is a selection (`click_eq`).

A selection of a version on show takes effect whether the version can be written or not
(`select_history_of_get_ok`), but it succeeds only when it can (`select_succeeds_iff`).
-/

namespace ConfigPanel

namespace History

/-! ### Naming a version -/

/-- What is found is stored and has the version for its key. -/
theorem get_eq_ok {h : History} {version : Int} {r : Record} (hget : h.get version = .ok r) :
    r ∈ h.records ∧ (r.key : Int) = version := by
  rw [get] at hget
  cases hfind : h.find? version with
  | none => rw [hfind] at hget; cases hget
  | some x =>
      rw [hfind] at hget
      cases hget
      exact ⟨List.mem_of_find?_eq_some hfind, by simpa using List.find?_some hfind⟩

/-- Where nothing is found, no stored record has the version for its key. -/
theorem get_eq_error {h : History} {version : Int} {f : MissingVersion}
    (hget : h.get version = .error f) :
    f = ⟨version⟩ ∧ ∀ r ∈ h.records, (r.key : Int) ≠ version := by
  rw [get] at hget
  cases hfind : h.find? version with
  | some x => rw [hfind] at hget; cases hget
  | none =>
      rw [hfind] at hget
      cases hget
      exact ⟨rfl, fun r hr => by simpa using List.find?_eq_none.mp hfind r hr⟩

/-- Every key of a stored record is found. -/
theorem exists_get {h : History} {k : Nat} (hk : ∃ r ∈ h.records, r.key = k) :
    ∃ r, h.get k = .ok r ∧ r ∈ h.records ∧ r.key = k := by
  obtain ⟨x, hx, hxk⟩ := hk
  cases hget : h.get k with
  | error f => exact absurd (congrArg Int.ofNat hxk) ((get_eq_error hget).2 x hx)
  | ok r =>
      obtain ⟨hr, hkey⟩ := get_eq_ok hget
      exact ⟨r, rfl, hr, Int.ofNat_inj.mp hkey⟩

theorem view_eq (h : History) (version : Int) :
    h.view version = (h.get version).map h.rowOf := by
  have hfind : h.views.find? (fun row => (row.key : Int) == version)
      = (h.find? version).map h.rowOf := by
    rw [views, List.find?_map]
    rfl
  rw [view, hfind, get]
  cases h.find? version <;> rfl

/-- A click on a version is a selection of it, without the record. -/
theorem click_eq (h : History) (version : Int) :
    h.click version = ⟨(h.select version).answer.map fun _ => (), (h.select version).history,
      (h.select version).events⟩ := by
  rw [click, view_eq]
  cases hget : h.get version with
  | error f =>
      have hselect : h.select version = h.unchanged (.error (.missing f)) := by rw [select, hget]
      rw [hselect]
      rfl
  | ok r =>
      obtain ⟨-, rfl⟩ := get_eq_ok hget
      rfl

/-- Selecting a version that is stored and can be written gives its record and is logged. -/
theorem select_of_get_ok {h : History} {version : Int} {r : Record}
    (hget : h.get version = .ok r) (hkey : Numeral.Writable r.key) :
    h.select version = ⟨.ok r, { h with selected := some r.key }, [.selected r.key]⟩ := by
  simp only [select, hget, if_pos hkey]

/-- A version that cannot be written is selected all the same, and the call fails. -/
theorem select_of_unwritable {h : History} {version : Int} {r : Record}
    (hget : h.get version = .ok r) (hkey : ¬ Numeral.Writable r.key) :
    h.select version
      = ⟨.error (.unwritable .tooLong), { h with selected := some r.key }, []⟩ := by
  simp only [select, hget, if_neg hkey]

/-- Selecting a version that is not stored changes nothing. -/
theorem select_of_get_error {h : History} {version : Int} {f : MissingVersion}
    (hget : h.get version = .error f) : h.select version = h.unchanged (.error (.missing f)) := by
  rw [select, hget]

/-- The version of a stored record is selected even where it cannot be logged. -/
theorem select_history_of_get_ok {h : History} {version : Int} {r : Record}
    (hget : h.get version = .ok r) :
    (h.select version).history = { h with selected := some r.key } := by
  by_cases hkey : Numeral.Writable r.key
  · rw [select_of_get_ok hget hkey]
  · rw [select_of_unwritable hget hkey]

/-- Once a version is selected, the selected record is the one that it names. -/
theorem current_of_get_ok {h : History} {k : Nat} {r : Record} (hget : h.get k = .ok r) :
    History.current { h with selected := some k } = .ok (some r) :=
  congrArg (Except.map some) hget

/-- A selection succeeds exactly when a record on show has the version for its key, and the version
can be written. -/
theorem select_succeeds_iff {h : History} {version : Int} :
    (∃ r, (h.select version).answer = .ok r) ↔
      (∃ r ∈ h.records, (r.key : Int) = version) ∧ Numeral.Writable version := by
  cases hget : h.get version with
  | ok r =>
      obtain ⟨hr, rfl⟩ := get_eq_ok hget
      by_cases hkey : Numeral.Writable r.key
      · rw [select_of_get_ok hget hkey]
        exact ⟨fun _ => ⟨⟨r, hr, rfl⟩, hkey⟩, fun _ => ⟨r, rfl⟩⟩
      · rw [select_of_unwritable hget hkey]
        exact ⟨nofun, fun h => absurd h.2 hkey⟩
  | error f =>
      rw [select_of_get_error hget]
      constructor
      · rintro ⟨r, hr⟩; cases hr
      · rintro ⟨⟨r, hr, hkey⟩, -⟩; exact absurd hkey ((get_eq_error hget).2 r hr)

/-! ### Acts -/

/-- What a call asks of a history. -/
inductive Act where
  | look
  | choose (version : Int)
  | refill (rs : List Record)
  | bound (limit : Option Int)

/-- The history after an act. -/
def after (h : History) : Act → History
  | .look         => h
  | .choose v     => (h.select v).history
  | .refill rs    => (h.replace rs).history
  | .bound limit  => h.setLimit limit

end History

namespace Session

/-- What a call asks of the history of the session. -/
def act (s : Session) : Command → History.Act
  | .select v    => .choose v
  | .click v     => .choose v
  | .press row   => .choose row.key
  | .clickHeld i => (s.heldRow? i).elim .look fun row => .choose row.key
  | .replace rs  => .refill rs
  | .setLimit l  => .bound l
  | .records | .selected | .get _ | .view _ | .views | .hold | .renderHeld _ => .look

/-- All that a step does to the history is its act. -/
theorem step_history (s : Session) (c : Command) :
    (s.step c).session.history = s.history.after (s.act c) := by
  cases c with
  | click v => simp only [step, carry, act, History.after, History.click_eq]
  | view v =>
      simp only [step, act, History.after]
      cases s.history.view v <;> rfl
  | renderHeld i =>
      simp only [step, act, History.after]
      cases s.heldRow? i <;> rfl
  | clickHeld i =>
      simp only [step, act]
      cases s.heldRow? i <;> rfl
  | records | selected | get v | views | select v | press row | hold | replace rs | setLimit l =>
      rfl

/-- A call answers exactly when the history does. -/
theorem carry_succeeds_iff {ε α : Type} (s : Session) (o : Outcome ε α) (fault : ε → Fault)
    (answer : α → Answer) :
    (∃ a, (s.carry o fault answer).answer = .ok a) ↔ ∃ x, o.answer = .ok x := by
  rw [carry]
  cases o.answer <;> simp [Except.map, Except.mapError]

/-- A call that selects a version succeeds when the history has a record for it, and the version can
be written. -/
theorem step_succeeds_iff {s : Session} {c : Command} {v : Int} (hact : s.act c = .choose v) :
    (∃ a, (s.step c).answer = .ok a) ↔
      (∃ r ∈ s.history.records, (r.key : Int) = v) ∧ Numeral.Writable v := by
  have hpress (row : Row) : (∃ x, (s.history.press row).answer = .ok x) ↔
      (∃ r ∈ s.history.records, (r.key : Int) = row.key) ∧ Numeral.Writable row.key := by
    rw [← History.select_succeeds_iff, History.press]
    cases (s.history.select row.key).answer <;> simp [Except.map]
  cases c with
  | select w =>
      cases hact
      rw [step, carry_succeeds_iff, History.select_succeeds_iff]
  | click w =>
      cases hact
      rw [step, carry_succeeds_iff, ← History.select_succeeds_iff, History.click_eq]
      cases (s.history.select v).answer <;> simp [Except.map]
  | press row =>
      cases hact
      rw [step, carry_succeeds_iff, hpress]
  | clickHeld i =>
      simp only [act] at hact
      cases hrow : s.heldRow? i with
      | none => rw [hrow] at hact; cases hact
      | some row =>
          rw [hrow] at hact
          cases hact
          simp only [step, hrow]
          rw [carry_succeeds_iff, hpress]
  | records | selected | get w | view w | views | hold | renderHeld i | replace rs | setLimit l =>
      cases hact

theorem act_eq_refill {s : Session} {c : Command} {rs : List Record} (h : s.act c = .refill rs) :
    c = .replace rs := by
  cases c with
  | replace l => cases h; rfl
  | clickHeld i =>
      simp only [act] at h
      cases hrow : s.heldRow? i <;> rw [hrow] at h <;> cases h
  | records | selected | get v | view v | views | select v | click v | press row | hold
  | renderHeld i | setLimit l => cases h

end Session

/-! ### Building -/

/-- A history as it is when it has just been built, of validated records or of a value. -/
inductive History.Built : History → Prop
  | ofRecords {rs : List Record} {limit : Option Int} {h : History}
      (validated : ∀ r ∈ rs, r.Validated) (built : History.build rs limit = .ok h) : Built h
  | ofPayload {room : Nat} {v : Value} {limit : Option Int} {h : History}
      (built : (History.ofPayload room v limit).result = .ok h) : Built h

/-- A history that has been made was made of some validated records under some limit. -/
theorem History.Built.exists_build {h : History} (hb : h.Built) :
    ∃ rs limit, (∀ r ∈ rs, r.Validated) ∧ History.build rs limit = .ok h := by
  cases hb with
  | ofRecords validated built => exact ⟨_, _, validated, built⟩
  | @ofPayload room _ _ _ built =>
      obtain ⟨es, -, -, hbuild⟩ := Payload.ofPayload_eq_ok_iff.mp built
      refine ⟨es.filterMap (Payload.record? room), _, fun r hr => ?_, hbuild⟩
      obtain ⟨e, -, he⟩ := List.mem_filterMap.mp hr
      exact ⟨room, e, Payload.record?_eq_some_iff.mp he⟩

end ConfigPanel
