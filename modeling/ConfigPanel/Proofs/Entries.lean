import ConfigPanel.History.Payload
import ConfigPanel.Proofs.Record
import ConfigPanel.Proofs.Stored

/-!
# Payload — one entry at a time

Entries are judged one after the other, and each judgement is the entry's own.  The exception is an
entry with a date that is nested too deep to be shown (`TooDeep`): it ends the whole reading.

* `records_result`: where there is no such entry, the records of a list of entries are those of its
  entries, each by itself.
* `filter_records_events`: of what is logged then, the remarks on skipped entries are one for each
  entry that is no record, with its place among all entries.
* `ofPayload_entries`: where there is such an entry, there is no history; where there is none, the
  history of a list of entries shows the last records of their keys, as far as the limit allows, and
  entries that are no records make no difference to it.
-/

namespace ConfigPanel

namespace Payload

/-- The entry is an object whose date is nested too deep to be shown. -/
def TooDeep (room : Nat) (e : Value) : Prop :=
  ∃ ms v, e = .object ms ∧ Record.field "date" ms = some v ∧ v.obstacle? room = some .tooDeep

/-- The record that an entry is taken for, if it is taken for one. -/
def record? (room : Nat) (e : Value) : Option Record := (Record.ofValue room e).result.toOption

/-- The faults of the entries that are refused for their faults, with their places. -/
def refused (room : Nat) (es : List (Value × Nat)) : List (Nat × List Record.Fault) :=
  es.filterMap fun e =>
    match (Record.ofValue room e.1).result with
    | .error (.invalid fs) => some (e.2, fs)
    | _                    => none

/-- The record is what the last entry with its key is taken for; entries that are no records have
no key. -/
def LastEntry (room : Nat) (r : Record) (es : List Value) : Prop :=
  ∃ before e after, es = before ++ e :: after ∧ (Record.ofValue room e).result = .ok r ∧
    ∀ x ∈ after, ∀ other, (Record.ofValue room x).result = .ok other → other.key ≠ r.key

/-- The words with which a remark on a skipped entry begins. -/
def skipOpening : String := "Skipping invalid config at index "

/-- The words with which a remark on a date that is no timestamp begins. -/
def dateOpening : String := "Treating config date "

/-- Whether the words of an event begin like a remark on a skipped entry. -/
def isSkip (e : Event) : Bool := skipOpening.toList.isPrefixOf e.message.toList

/-! ### Records -/

variable {room : Nat}

/-- Only a date that is nested too deep is a reason to end the reading. -/
theorem tooDeep_iff {e : Value} :
    TooDeep room e ↔ (Record.ofValue room e).result = .error .tooDeep := by
  cases e with
  | object ms =>
      have hresult : (Record.ofValue room (.object ms)).result
          = Record.ofFields (Record.versionIn ms) (Record.userIn ms)
            (Record.dateIn room ms).result := rfl
      have hfields : (Record.ofValue room (.object ms)).result = .error .tooDeep ↔
          (Record.dateIn room ms).result = .error .tooDeep := by
        rw [hresult]
        cases Record.versionIn ms <;> cases Record.userIn ms <;>
          rcases (Record.dateIn room ms).result with (_ | _) | _ <;> simp [Record.ofFields]
      rw [hfields]
      rcases Record.dateIn_cases room ms with ⟨hno, hdate⟩ | ⟨v, hv, hdate⟩
      · rw [hdate]
        constructor
        · rintro ⟨ms', v, ⟨⟩, hv, -⟩
          rw [hno] at hv
          cases hv
        · intro hdeep
          cases hdeep
      · rw [hdate, Timestamp.judge_eq_error_iff]
        constructor
        · rintro ⟨ms', w, ⟨⟩, hw, hdeep⟩
          rw [hv] at hw
          cases hw
          exact hdeep
        · exact fun hdeep => ⟨ms, v, rfl, hv, hdeep⟩
  | null | bool b | int n | float d | text t | list xs =>
      constructor
      · rintro ⟨ms, v, heq, -⟩
        cases heq
      · intro hdeep
        cases hdeep

/-- An entry has a record when it is taken for one. -/
theorem record?_eq_some_iff {e : Value} {r : Record} :
    record? room e = some r ↔ (Record.ofValue room e).result = .ok r := by
  rw [record?]
  cases (Record.ofValue room e).result <;> simp [Except.toOption]

/-- What there is to an entry: it is a record, or it is refused for its faults, or it ends the
reading. -/
theorem entry_cases (room : Nat) (e : Value) :
    (∃ r, (Record.ofValue room e).result = .ok r ∧ record? room e = some r) ∨
    (∃ fs, (Record.ofValue room e).result = .error (.invalid fs) ∧ record? room e = none) ∨
    TooDeep room e := by
  cases he : (Record.ofValue room e).result with
  | ok r => exact .inl ⟨r, rfl, record?_eq_some_iff.mpr he⟩
  | error f =>
      cases f with
      | invalid fs => exact .inr (.inl ⟨fs, rfl, by rw [record?, he]; rfl⟩)
      | tooDeep => exact .inr (.inr (tooDeep_iff.mpr he))

/-- Entries that can be judged give the records of those that have one, in their order. -/
theorem records_result {es : List Value} (h : ∀ e ∈ es, ¬ TooDeep room e) (place : Nat) :
    (records room place es).result = .ok (es.filterMap (record? room)) := by
  induction es generalizing place with
  | nil => rfl
  | cons e es ih =>
      obtain ⟨he, hes⟩ := List.forall_mem_cons.mp h
      rw [List.filterMap_cons]
      simp only [records]
      rcases entry_cases room e with ⟨r, hr, hrecord⟩ | ⟨fs, hfs, hrecord⟩ | hdeep
      · rw [hr, hrecord, ih hes]
        rfl
      · rw [hfs, hrecord, ih hes]
      · exact absurd hdeep he

/-- An entry that is nested too deep ends the judging of all. -/
theorem records_of_tooDeep {es : List Value} (h : ∃ e ∈ es, TooDeep room e) (place : Nat) :
    (records room place es).result = .error .tooDeep := by
  induction es generalizing place with
  | nil =>
      obtain ⟨e, he, -⟩ := h
      cases he
  | cons e es ih =>
      simp only [records]
      rcases entry_cases room e with ⟨r, hr, -⟩ | ⟨fs, hfs, -⟩ | hdeep
      · have hne : ¬ TooDeep room e := fun hdeep => by rw [tooDeep_iff.mp hdeep] at hr; cases hr
        have hes : ∃ x ∈ es, TooDeep room x := by simpa [hne] using h
        rw [hr, ih hes]
        rfl
      · have hne : ¬ TooDeep room e := fun hdeep => by rw [tooDeep_iff.mp hdeep] at hfs; cases hfs
        have hes : ∃ x ∈ es, TooDeep room x := by simpa [hne] using h
        rw [hfs, ih hes]
      · rw [tooDeep_iff.mp hdeep]

/-- The last record with a key comes from the last entry with one. -/
theorem lastIn_filterMap_iff {r : Record} {es : List Value} :
    r.LastIn (es.filterMap (record? room)) ↔ LastEntry room r es := by
  refine ⟨?_, ?_⟩
  · rintro ⟨before, after, heq, hafter⟩
    obtain ⟨es₁, es₂, rfl, -, htail⟩ := List.filterMap_eq_append_iff.mp heq
    obtain ⟨skipped, e, rest, rfl, -, he, hrest⟩ := List.filterMap_eq_cons_iff.mp htail
    refine ⟨es₁ ++ skipped, e, rest, by simp, record?_eq_some_iff.mp he,
      fun x hx other hother => ?_⟩
    exact hafter other (hrest ▸ List.mem_filterMap.mpr ⟨x, hx, record?_eq_some_iff.mpr hother⟩)
  · rintro ⟨before, e, after, rfl, he, hafter⟩
    refine ⟨before.filterMap (record? room), after.filterMap (record? room),
      by simp [record?_eq_some_iff.mpr he], fun y hy => ?_⟩
    obtain ⟨x, hx, hxy⟩ := List.mem_filterMap.mp hy
    exact hafter x hx y (record?_eq_some_iff.mp hxy)

/-- Leaving out the entries that are refused changes nothing. -/
theorem filterMap_filter_isSome (es : List Value) :
    (es.filter fun e => (record? room e).isSome).filterMap (record? room)
      = es.filterMap (record? room) := by
  induction es with
  | nil => rfl
  | cons e es ih =>
      cases he : record? room e with
      | none => simp [he, ih]
      | some r => simp [he, ih]

/-! ### Remarks -/

/-- A skipped entry is named by its place, with the number of its faults. -/
theorem message_entrySkipped (place faults : Nat) :
    (Event.entrySkipped place faults).message
      = skipOpening ++ toString place ++ ": " ++ Event.counted faults "validation error"
        ++ " for ConfigVersionRecord" := rfl

theorem isSkip_entrySkipped (place faults : Nat) : isSkip (.entrySkipped place faults) = true := by
  rw [isSkip, message_entrySkipped, List.isPrefixOf_iff_prefix]
  simp only [String.toList_append, List.append_assoc]
  exact List.prefix_append _ _

theorem isSkip_dateAbsent (v : Value) (f : Timestamp.Fault) : isSkip (.dateAbsent v f) = false := by
  have hmessage : (Event.dateAbsent v f).message
      = dateOpening ++ v.shown ++ " as absent: " ++ f.message := rfl
  -- the two openings differ in their first character
  have hskip : skipOpening.toList = 'S' :: "kipping invalid config at index ".toList := by decide
  have hdate : dateOpening.toList = 'T' :: "reating config date ".toList := by decide
  rw [isSkip, hmessage]
  simp only [String.toList_append, List.append_assoc]
  rw [hskip, hdate, List.cons_append, List.isPrefixOf_cons_cons]
  rfl

/-- Judging an entry skips none. -/
theorem filter_ofValue_events (v : Value) : (Record.ofValue room v).events.filter isSkip = [] := by
  refine List.filter_eq_nil_iff.mpr fun e he => ?_
  obtain ⟨w, f, rfl⟩ := Record.dateAbsent_of_mem_events he
  simp [isSkip_dateAbsent]

/-- The entries that are skipped are the refused ones, each at its place and with its faults. -/
theorem filter_records_events {es : List Value} (h : ∀ e ∈ es, ¬ TooDeep room e) (place : Nat) :
    (records room place es).events.filter isSkip
      = (refused room (es.zipIdx place)).map fun p => .entrySkipped p.1 p.2.length := by
  induction es generalizing place with
  | nil => rfl
  | cons e es ih =>
      obtain ⟨he, hes⟩ := List.forall_mem_cons.mp h
      rw [List.zipIdx_cons, refused, List.filterMap_cons]
      simp only [records]
      rcases entry_cases room e with ⟨r, hr, -⟩ | ⟨fs, hfs, -⟩ | hdeep
      · simp only [hr, List.filter_append, filter_ofValue_events, List.nil_append, ih hes]
        rfl
      · simp only [hfs, List.filter_append, filter_ofValue_events, List.nil_append,
          List.filter_cons, isSkip_entrySkipped, if_true, ih hes, List.map_cons]
        rfl
      · exact absurd hdeep he

/-- All that is logged about entries are warnings. -/
theorem level_of_mem_events {place : Nat} {es : List Value} {e : Event}
    (he : e ∈ (records room place es).events) : e.level = .warning := by
  induction es generalizing place with
  | nil => cases he
  | cons v es ih =>
      have hfirst : e ∈ (Record.ofValue room v).events → e.level = .warning := fun hmem => by
        obtain ⟨w, f, rfl⟩ := Record.dateAbsent_of_mem_events hmem
        rfl
      simp only [records] at he
      split at he
      · exact (List.mem_append.mp he).elim hfirst ih
      · exact hfirst he
      · rcases List.mem_append.mp he with hmem | hmem
        · exact hfirst hmem
        · rcases List.mem_cons.mp hmem with rfl | hmem
          · rfl
          · exact ih hmem

/-- Judging entries informs of nothing. -/
theorem filter_info_records_events (place : Nat) (es : List Value) :
    (records room place es).events.filter (fun e => e.level == .info) = [] :=
  List.filter_eq_nil_iff.mpr fun e he => by simp [level_of_mem_events he]

/-! ### Histories -/

/-- A value gives a history by way of the records among its entries. -/
theorem ofPayload_eq_ok_iff {v : Value} {limit : Option Int} {h : History} :
    (History.ofPayload room v limit).result = .ok h ↔
      ∃ es, entries v = .ok es ∧ (∀ e ∈ es, ¬ TooDeep room e) ∧
        History.build (es.filterMap (record? room)) limit = .ok h := by
  rw [History.ofPayload]
  cases entries v with
  | error f => simp [Logged.quiet]
  | ok es =>
      simp only [Logged.map, Except.ok.injEq, exists_eq_left']
      by_cases hdeep : ∃ e ∈ es, TooDeep room e
      · have hnot : ¬ ∀ e ∈ es, ¬ TooDeep room e := fun hno => by
          obtain ⟨e, he, hd⟩ := hdeep
          exact hno e he hd
        simp [records_of_tooDeep hdeep, Except.bind, hnot]
      · have hno : ∀ e ∈ es, ¬ TooDeep room e := fun e he hd => hdeep ⟨e, he, hd⟩
        rw [records_result hno]
        cases hbuild : History.build (es.filterMap (record? room)) limit <;>
          simp [Except.bind, Except.mapError, hbuild, and_iff_right hno]

/-- A list of entries that can be judged gives the history of their records. -/
theorem ofPayload_list {es : List Value} (h : ∀ e ∈ es, ¬ TooDeep room e) (limit : Option Nat) :
    (History.ofPayload room (.list es) (limit.map Int.ofNat)).result
      = .ok ⟨History.stored (limit.map Int.ofNat) (es.filterMap (record? room)),
          limit.map Int.ofNat, none⟩ :=
  ofPayload_eq_ok_iff.mpr ⟨es, rfl, h, History.build_natCast _ limit⟩

/-- A list with an entry that is nested too deep gives no history. -/
theorem ofPayload_of_tooDeep {es : List Value} (h : ∃ e ∈ es, TooDeep room e)
    (limit : Option Int) : (History.ofPayload room (.list es) limit).result = .error .tooDeep := by
  have hresult : (History.ofPayload room (.list es) limit).result
      = (records room 0 es).result.bind fun rs =>
          (History.build rs limit).mapError .negativeLimit := rfl
  rw [hresult, records_of_tooDeep h]
  rfl

/-- An object stands for the list under its name for entries.  An empty list there does not count as
given, and then the list is empty. -/
theorem ofPayload_object {ms : Members} {es : List Value}
    (h : Members.get? (Text.of "configs") ms = some (.list es)) (limit : Option Int) :
    History.ofPayload room (.object ms) limit = History.ofPayload room (.list es) limit := by
  have hentries : entriesValue (.object ms) = .list es := by
    rw [entriesValue, h]
    cases es <;> rfl
  rw [History.ofPayload, entries, hentries]
  rfl

theorem leaves_natCast_iff {limit : Option Nat} {keys : Finset Nat} {k : Nat} :
    History.Leaves (limit.map Int.ofNat) keys k ↔
      ∀ n ∈ limit, (keys.filter fun j => k < j).card < n := by
  cases limit with
  | none => simp [History.Leaves]
  | some n => simp [History.Leaves]

/-- **One entry at a time.**  A list of entries and an object that holds it come to the same.  They
give a history exactly when no entry has a date that is nested too deep to be shown; where one has,
the reading fails, whatever the other entries are.  Where none has, nothing is selected in the
history.  It shows what the last entry of each key is taken for, as far as the limit leaves room
among the keys of entries that are records.  Lists that differ in entries that are no records only
show the same.  Each of these entries is remarked on once, with its place among all entries and in
their order, and no other entry is. -/
theorem ofPayload_entries (room : Nat) (es : List Value) (limit : Option Nat) :
    let read := History.ofPayload room (.list es) (limit.map Int.ofNat)
    (∀ ms, Members.get? (Text.of "configs") ms = some (.list es) →
      History.ofPayload room (.object ms) (limit.map Int.ofNat) = read) ∧
    ((∃ e ∈ es, TooDeep room e) → read.result = .error .tooDeep) ∧
    ((∀ e ∈ es, ¬ TooDeep room e) →
      ∃ h, read.result = .ok h ∧ h.selected = none ∧ History.Descending h.records ∧
        (∀ r, r ∈ h.records ↔ LastEntry room r es ∧
          ∀ n ∈ limit,
            ((Record.keys (es.filterMap (record? room))).filter fun k => r.key < k).card < n) ∧
        (∀ others : List Value, (∀ e ∈ others, ¬ TooDeep room e) →
          (others.filter fun e => (record? room e).isSome)
            = (es.filter fun e => (record? room e).isSome) →
          (History.ofPayload room (.list others) (limit.map Int.ofNat)).result = .ok h) ∧
        (read.events.filter isSkip).map Event.message
          = (refused room es.zipIdx).map fun p =>
              skipOpening ++ toString p.1 ++ ": " ++ Event.counted p.2.length "validation error"
                ++ " for ConfigVersionRecord") := by
  intro read
  refine ⟨fun ms hms => ofPayload_object hms _, fun hdeep => ofPayload_of_tooDeep hdeep _,
    fun hno => ⟨_, ofPayload_list hno limit, rfl, History.stored_pairwise _ _, fun r => ?_,
      fun others hdeep hothers => ?_, ?_⟩⟩
  · rw [History.mem_stored_iff, lastIn_filterMap_iff, leaves_natCast_iff]
  · rw [ofPayload_list hdeep, ← filterMap_filter_isSome others, hothers, filterMap_filter_isSome]
  · have hevents : read.events = (records room 0 es).events := rfl
    rw [hevents, filter_records_events hno, List.map_map]
    rfl

/-- A list in a list in a list, and so on. -/
def nested : Nat → Value
  | 0         => .list []
  | depth + 1 => .list [nested depth]

/-- A list that is nested one level deeper than there is room for cannot be shown. -/
theorem obstacle?_nested (room : Nat) : (nested (room + 1)).obstacle? room = some .tooDeep := by
  induction room with
  | zero => rfl
  | succ room ih =>
      rw [nested, Value.obstacle?, Value.itemsObstacle?, ih]
      rfl

/-- One entry with a date of a thousand lists hides the other entry, which is a record. -/
theorem entries_hidden :
    let bad : Value := .record [("version", .int 1), ("date", nested 991)]
    let good : Value := .record [("version", .int 2)]
    (History.ofPayload 990 (.list [bad, good]) none).result = .error .tooDeep ∧
      (History.ofPayload 990 (.list [good]) none).result
        = .ok ⟨[⟨some 2, none, none⟩], none, none⟩ := by
  intro bad good
  have hdeep : TooDeep 990 bad :=
    ⟨[(Text.of "version", .int 1), (Text.of "date", nested 991)], nested 991, rfl, rfl,
      obstacle?_nested 990⟩
  exact ⟨ofPayload_of_tooDeep ⟨bad, List.mem_cons_self .., hdeep⟩ none, rfl⟩

/-- A refused entry stands before and after the only record, with the same version. -/
theorem ofPayload_entries_refused :
    let bad : Value := .record [("version", .int 3), ("user", .int 7)]
    let good : Value := .record [("version", .text (Text.of "3")), ("user", .null)]
    let es : List Value := [bad, good, bad]
    ∃ h, (History.ofPayload 990 (.list es) (some 1)).result = .ok h ∧
      h.records = [⟨some 3, none, none⟩] ∧
      (History.ofPayload 990 (.list [good]) (some 1)).result = .ok h ∧
      History.ofPayload 990 (.record [("configs", .list es), ("total", .int 3)]) (some 1)
        = History.ofPayload 990 (.list es) (some 1) ∧
      ((History.ofPayload 990 (.list es) (some 1)).events.filter isSkip).map Event.message
        = ["Skipping invalid config at index 0: 1 validation error for ConfigVersionRecord",
          "Skipping invalid config at index 2: 1 validation error for ConfigVersionRecord"] := by
  intro bad good es
  have hbad : ¬ TooDeep 990 bad := fun hdeep => by
    rw [tooDeep_iff] at hdeep
    cases hdeep
  have hgood : ¬ TooDeep 990 good := fun hdeep => by
    rw [tooDeep_iff] at hdeep
    cases hdeep
  have hes : ∀ e ∈ es, ¬ TooDeep 990 e := by
    intro e he
    simp only [es, List.mem_cons, List.not_mem_nil, or_false] at he
    rcases he with rfl | rfl | rfl
    · exact hbad
    · exact hgood
    · exact hbad
  have hothers : ∀ e ∈ [good], ¬ TooDeep 990 e := fun e he => List.mem_singleton.mp he ▸ hgood
  obtain ⟨hobject, -, hread⟩ := ofPayload_entries 990 es (some 1)
  obtain ⟨h, hok, -, -, -, hsame, hremarks⟩ := hread hes
  have hrecords : (History.ofPayload 990 (.list es) (some 1)).result
      = .ok ⟨[⟨some 3, none, none⟩], some 1, none⟩ := by decide
  obtain rfl := Except.ok.inj (hok.symm.trans hrecords)
  have hconfigs : Members.get? (Text.of "configs")
      [(Text.of "configs", .list es), (Text.of "total", .int 3)] = some (.list es) := by
    rw [Members.get?_cons, if_pos rfl]
  exact ⟨_, hok, rfl, hsame [good] hothers rfl, hobject _ hconfigs, hremarks.trans (by decide)⟩

end Payload

end ConfigPanel
