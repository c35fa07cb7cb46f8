import ConfigPanel.Panel.Start
import ConfigPanel.Proofs.Snapshots

/-!
# Panel — when a start succeeds

A start can fail in many places, but once the settings have been read and the snapshot is a value,
two things are left that decide: whether the value has the shape of a payload (`Payload.Shaped`) and
whether the limit is negative.  The shape is looked at first.  The limit is looked at last, when all
entries have been judged; what they were found to be makes no difference.

* `Value.isTruthy_eq_false_iff`: the seven kinds of values that do not count as given.
* `Payload.exists_entries_iff`: the values that hold a list of entries.
* `Host.Settled.configure`: settings that leave the decision to the snapshot and the limit.
* `starts_by_shape`: when a start succeeds, and what it starts with.
-/

namespace ConfigPanel

/-! ### The shape of a payload -/

/-- Nothing, false, zero of either kind, or an empty text, list or object. -/
def Value.NotGiven (v : Value) : Prop :=
  v = .null ∨ v = .bool false ∨ v = .int 0 ∨ (∃ s e h, v = .float (.finite s 0 e h)) ∨
    v = .text [] ∨ v = .list [] ∨ v = .object []

/-- Nothing but nothing, false, zero and what is empty counts as not given. -/
theorem Value.isTruthy_eq_false_iff {v : Value} : v.isTruthy = false ↔ v.NotGiven := by
  cases v with
  | float d =>
      cases d with
      | finite s m e h =>
          have hfits : m = 0 → Double.Fits 0 e := fun hm => hm ▸ h
          simpa [isTruthy, NotGiven, Double.isZero] using hfits
      | infinite s | nan => simp [isTruthy, NotGiven, Double.isZero]
  | null | bool b | int n | text t | list xs | object ms => simp [isTruthy, NotGiven]

namespace Payload

/-- A list, or an object that has a list, nothing, or what does not count as given for its list of
entries. -/
inductive Shaped : Value → Prop
  | list (es : List Value) : Shaped (.list es)
  | missing {ms : Members} (h : Members.get? (Text.of "configs") ms = none) : Shaped (.object ms)
  | notGiven {ms : Members} {v : Value} (h : Members.get? (Text.of "configs") ms = some v)
      (hv : v.NotGiven) : Shaped (.object ms)
  | member {ms : Members} {es : List Value}
      (h : Members.get? (Text.of "configs") ms = some (.list es)) : Shaped (.object ms)

/-- A value has entries exactly when it has the shape for them. -/
theorem exists_entries_iff {v : Value} : (∃ es, entries v = .ok es) ↔ Shaped v := by
  constructor
  · rintro ⟨es, hes⟩
    cases v with
    | list xs => exact .list xs
    | object ms =>
        cases hget : Members.get? (Text.of "configs") ms with
        | none => exact .missing hget
        | some w =>
            cases hw : w.isTruthy with
            | false => exact .notGiven hget (Value.isTruthy_eq_false_iff.mp hw)
            | true =>
                cases w with
                | list xs => exact .member hget
                | null | bool b | int n | float d | text t | object ns =>
                    simp [entries, entriesValue, hget, hw] at hes
    | null | bool b | int n | float d | text t => cases hes
  · intro h
    cases h with
    | list es => exact ⟨es, rfl⟩
    | missing h => exact ⟨[], by rw [entries, entriesValue, h]⟩
    | notGiven h hv =>
        exact ⟨[], by simp [entries, entriesValue, h, Value.isTruthy_eq_false_iff.mpr hv]⟩
    | @member ms es h => exact ⟨es, by cases es <;> simp [entries, entriesValue, h, Value.isTruthy]⟩

/-- A value of another shape is told by its kind. -/
theorem entries_of_not_shaped {v : Value} (h : ¬ Shaped v) :
    entries v = .error (.notAList (entriesValue v).kind) := by
  cases hes : entries v with
  | ok es => exact absurd (exists_entries_iff.mp ⟨es, hes⟩) h
  | error f =>
      rw [entries] at hes
      split at hes
      · cases hes
      · exact hes.symm

/-- What a payload whose dates can be shown gives under a limit: a complaint about its shape before
any entry is judged, one about the limit when all of them have been, or a history. -/
theorem ofPayload_cases {room : Nat} {v : Value}
    (hdeep : ∀ es, entries v = .ok es → ∀ e ∈ es, ¬ TooDeep room e) (n : Int) :
    (¬ Shaped v ∧ History.ofPayload room v (some n)
      = .quiet (.error (.notAList (entriesValue v).kind))) ∨
    ∃ es, entries v = .ok es ∧
      (History.ofPayload room v (some n)).events = (records room 0 es).events ∧
      ((n < 0 ∧ (History.ofPayload room v (some n)).result = .error (.negativeLimit ⟨n⟩)) ∨
        0 ≤ n ∧ (History.ofPayload room v (some n)).result
          = .ok ⟨History.stored (some n) (es.filterMap (record? room)), some n, none⟩) := by
  by_cases hv : Shaped v
  · obtain ⟨es, hes⟩ := exists_entries_iff.mpr hv
    refine .inr ⟨es, hes, ?_, ?_⟩
    · rw [History.ofPayload, hes]
      rfl
    · by_cases hn : n < 0
      · refine .inl ⟨hn, ?_⟩
        simp only [History.ofPayload, hes, Logged.map, records_result (hdeep es hes), Except.bind,
          History.build, if_pos hn, Except.mapError]
      · refine .inr ⟨Int.not_lt.mp hn,
          ofPayload_eq_ok_iff.mpr ⟨es, hes, hdeep es hes, History.build_eq_ok_iff.mpr ?_⟩⟩
        exact ⟨fun m hm => Option.some.inj hm ▸ Int.not_lt.mp hn, rfl⟩
  · refine .inl ⟨hv, ?_⟩
    rw [History.ofPayload, entries_of_not_shaped hv]

end Payload

/-! ### Settings -/

/-- A variable that is not set, or is set to nothing. -/
theorem Environment.get?_of_unset {e : Environment} {name : String} (h : e.getD name "" = "") :
    e.get? name = none ∨ e.get? name = some "" := by
  rw [getD] at h
  cases hget : e.get? name with
  | none => exact .inl rfl
  | some s =>
      rw [hget] at h
      exact .inr (congrArg some h)

/-- The settings name a limit, a level and a title, and no log file. -/
structure Host.Settled (h : Host) (n : Int) (level : Level) : Prop where
  limit : Numeral.readLimit (h.env.getD "HISTORY_LIMIT" Settings.defaultLimit) = .ok n
  level : Level.ofName? (h.env.levelName h.env.isProduction) = some level
  noLog : h.env.getD "LOG_FILE" "" = ""
  titled : h.env.getD "ADMIN_TITLE" Settings.defaultTitle ≠ ""

variable {h : Host} {n : Int} {level : Level}

theorem Host.Settled.withLog (hs : h.Settled n level) :
    h.folder.withLog (h.env.get? "LOG_FILE") = .ok h.folder := by
  rcases Environment.get?_of_unset hs.noLog with hlog | hlog
  · rw [hlog]
    rfl
  · rw [hlog]
    rfl

/-- With such settings, what is loaded decides. -/
theorem Host.Settled.configure (hs : h.Settled n level) :
    ∃ s, h.configure = .ok s ∧ s.host = h ∧ s.settings.limit = n ∧ s.level = level ∧
      ∀ loaded, s.around loaded = .ok ⟨s.settings.title, loaded, level, h.site⟩ := by
  have htitle : (h.env.getD "ADMIN_TITLE" Settings.defaultTitle).isEmpty = false := by
    simpa using hs.titled
  refine ⟨⟨h, ⟨h.env.stage, h.env.isProduction, h.env.levelName h.env.isProduction,
    h.env.get? "LOG_FILE", h.env.getD "ADMIN_TITLE" Settings.defaultTitle, n⟩, level⟩,
    ?_, rfl, rfl, rfl, fun loaded => ?_⟩
  · simp only [Host.configure, Settings.read, hs.limit, hs.withLog, hs.level]
  · simp only [Setup.around, htitle]
    rfl

/-! ### Loading -/

/-- A threshold lets all events of a level through, or none of them. -/
theorem filter_info_admitted (threshold : Level) (es : List Event) :
    (admitted threshold es).filter (fun e => e.level == .info)
      = if threshold.admits .info then es.filter (fun e => e.level == .info) else [] := by
  have hboth : ∀ e : Event, (e.level == .info && threshold.admits e.level)
      = (threshold.admits .info && e.level == .info) := by
    intro e
    cases hlevel : e.level == Level.info with
    | false => simp
    | true => simp [eq_of_beq hlevel]
  rw [admitted, List.filter_filter, List.filter_congr fun e _ => hboth e]
  cases threshold.admits .info <;> simp

/-- What a snapshot file comes to once it has been read as a value. -/
theorem Setup.loadFrom_cases {s : Setup} {p : Path} {bytes : List UInt8} {v : Value}
    (hread : s.host.folder.read p = .ok bytes) (hvalue : Snapshot.value s.host.room bytes = .ok v) :
    (¬ Payload.Shaped v ∧ (s.loadFrom p).result
      = .error (.snapshot (.payload (.notAList (Payload.entriesValue v).kind)))) ∨
    (Payload.Shaped v ∧ s.settings.limit < 0 ∧ (s.loadFrom p).result
      = .error (.snapshot (.payload (.negativeLimit ⟨s.settings.limit⟩)))) ∨
    (Payload.Shaped v ∧ 0 ≤ s.settings.limit ∧ ∃ rs : List Record,
      (s.loadFrom p).result = .ok ⟨rs, some s.settings.limit, none⟩ ∧
      (rs.length : Int) ≤ s.settings.limit ∧
      (s.loadFrom p).events.filter (fun e => e.level == .info)
        = [.loaded rs.length p.shown]) := by
  have hload : s.loadFrom p
      = (History.ofSnapshot s.host.room bytes p.shown (some s.settings.limit)).map
        fun r => r.mapError .snapshot := by rw [Setup.loadFrom, hread]
  -- what has been read as a value can be shown as deep as it goes
  have hdeep : ∀ es, Payload.entries v = .ok es → ∀ e ∈ es, ¬ Payload.TooDeep s.host.room e :=
    fun es hes => Snapshot.not_tooDeep_of_value hvalue hes
  rw [hload, History.ofSnapshot, hvalue]
  rcases Payload.ofPayload_cases hdeep s.settings.limit with
    ⟨hshape, hpayload⟩ | ⟨es, hes, hevents, ⟨hneg, hresult⟩ | ⟨hpos, hresult⟩⟩
  · refine .inl ⟨hshape, ?_⟩
    simp only [hpayload]
    rfl
  · refine .inr (.inl ⟨Payload.exists_entries_iff.mp ⟨es, hes⟩, hneg, ?_⟩)
    simp only [hresult, Logged.map]
    rfl
  · refine .inr (.inr ⟨Payload.exists_entries_iff.mp ⟨es, hes⟩, hpos, _, ?_,
      History.length_stored_le hpos (es.filterMap (Payload.record? s.host.room)), ?_⟩)
    · simp only [hresult, Logged.map]
      rfl
    · simp only [hresult, hevents, Logged.map, List.filter_append,
        Payload.filter_info_records_events]
      rfl

theorem Environment.snapshotPath?_of_unset {e : Environment} (h : e.getD "CONFIGS_FILE" "" = "")
    (accounts : List (String × String)) : e.snapshotPath? accounts = .ok none := by
  rw [snapshotPath?]
  rcases get?_of_unset h with hname | hname
  · rw [hname]
  · rw [hname]
    rfl

/-- Without a file the panel starts empty, or is refused for a negative limit. -/
theorem Setup.beginEmpty_cases (s : Setup) :
    (s.settings.limit < 0 ∧
      s.beginEmpty.result = .error (.negativeLimit ⟨s.settings.limit⟩)) ∨
    (0 ≤ s.settings.limit ∧ s.beginEmpty.result = .ok ⟨[], some s.settings.limit, none⟩) := by
  have hresult : s.beginEmpty.result
      = (History.build [] (some s.settings.limit)).mapError .negativeLimit := rfl
  by_cases hn : s.settings.limit < 0
  · refine .inl ⟨hn, ?_⟩
    rw [hresult, History.build, if_pos hn]
    rfl
  · have hroom : ∀ m, some s.settings.limit = some m → (([] : List Record).length : Int) ≤ m :=
      fun m hm => Option.some.inj hm ▸ Int.not_lt.mp hn
    have hbuild : History.build [] (some s.settings.limit)
        = .ok ⟨[], some s.settings.limit, none⟩ := by
      rw [History.build, if_neg hn, History.stored_of_descending .nil hroom]
    refine .inr ⟨Int.not_lt.mp hn, ?_⟩
    rw [hresult, hbuild]
    rfl

/-- With such settings a start is a loading, behind the threshold. -/
theorem Host.Settled.start (hs : h.Settled n level) :
    ∃ s : Setup, s.host = h ∧ s.settings.limit = n ∧
      h.start.events = admitted level s.loadHistory.events ∧
      (∀ f, s.loadHistory.result = .error f →
        h.start.result = .error f ∧ ¬ ∃ panel, h.start.result = .ok panel) ∧
      ∀ loaded, s.loadHistory.result = .ok loaded →
        h.start.result = .ok ⟨s.settings.title, loaded, level, h.site⟩ := by
  obtain ⟨s, hconfigure, hhost, hlimit, rfl, haround⟩ := hs.configure
  have hstart : h.start = ⟨s.start.result, admitted s.level s.start.events⟩ := by
    rw [Host.start, hconfigure]
  have hresult : s.start.result = s.loadHistory.result.bind s.around := rfl
  refine ⟨s, hhost, hlimit, by rw [hstart]; rfl, fun f hf => ?_, fun loaded hloaded => ?_⟩
  · rw [hstart, hresult, hf]
    refine ⟨rfl, ?_⟩
    rintro ⟨panel, ⟨⟩⟩
  · rw [hstart, hresult, hloaded]
    exact haround loaded

/-- **A start goes by the shape of the snapshot and the sign of the limit.**  The settings name a
limit, a level and a title, and no log file.  If a snapshot file is named and read as a value, the
start succeeds exactly when the limit is not negative and the value is a list, or an object whose
`configs` is missing, does not count as given, or is a list.  Otherwise it fails for the shape, or
else for the limit, and never for an entry.  If no snapshot is named, it succeeds exactly when the
limit is not negative, with no record.  Whenever it succeeds, the history has the limit, nothing is
selected, and no more records are on show than the limit allows; and of a file, all that is logged
at level INFO is how many they are, if the level lets it through. -/
theorem starts_by_shape (hs : h.Settled n level) :
    (∀ p bytes v, h.env.snapshotPath? h.accounts = .ok (some p) →
      h.folder.read p = .ok bytes → Snapshot.value h.room bytes = .ok v →
      ((∃ panel, h.start.result = .ok panel) ↔ 0 ≤ n ∧ Payload.Shaped v) ∧
      (¬ Payload.Shaped v → h.start.result
        = .error (.snapshot (.payload (.notAList (Payload.entriesValue v).kind)))) ∧
      (Payload.Shaped v → n < 0 → h.start.result
        = .error (.snapshot (.payload (.negativeLimit ⟨n⟩)))) ∧
      ∀ panel, h.start.result = .ok panel →
        panel.history.limit = some n ∧ panel.history.selected = none ∧
        (panel.history.records.length : Int) ≤ n ∧
        (h.start.events.filter fun e => e.level == .info).map Event.message
          = if level.admits .info then
              ["Loaded " ++ toString panel.history.records.length ++ " config versions from "
                ++ p.shown]
            else []) ∧
    (h.env.getD "CONFIGS_FILE" "" = "" →
      ((∃ panel, h.start.result = .ok panel) ↔ 0 ≤ n) ∧
      (n < 0 → h.start.result = .error (.negativeLimit ⟨n⟩)) ∧
      ∀ panel, h.start.result = .ok panel → panel.history = ⟨[], some n, none⟩) := by
  obtain ⟨s, rfl, rfl, hevents, hfails, hsucceeds⟩ := hs.start
  refine ⟨fun p bytes v hpath hread hvalue => ?_, fun hunset => ?_⟩
  · have hload : s.loadHistory = s.loadFrom p := by rw [Setup.loadHistory, hpath]
    rw [hload] at hevents hfails hsucceeds
    rcases Setup.loadFrom_cases hread hvalue with
      ⟨hshape, hresult⟩ | ⟨hshape, hneg, hresult⟩ | ⟨hshape, hpos, rs, hresult, hle, hinfo⟩
    · obtain ⟨hstart, hnone⟩ := hfails _ hresult
      exact ⟨⟨fun hsome => absurd hsome hnone, fun hstarts => absurd hstarts.2 hshape⟩,
        fun _ => hstart, fun hv => absurd hv hshape,
        fun panel hpanel => absurd ⟨panel, hpanel⟩ hnone⟩
    · obtain ⟨hstart, hnone⟩ := hfails _ hresult
      exact ⟨⟨fun hsome => absurd hsome hnone,
          fun hstarts => absurd hneg (Int.not_lt.mpr hstarts.1)⟩,
        fun hv => absurd hshape hv, fun _ _ => hstart,
        fun panel hpanel => absurd ⟨panel, hpanel⟩ hnone⟩
    · have hstart := hsucceeds _ hresult
      rw [hstart]
      refine ⟨⟨fun _ => ⟨hpos, hshape⟩, fun _ => ⟨_, rfl⟩⟩, fun hv => absurd hshape hv,
        fun _ hneg => absurd hneg (Int.not_lt.mpr hpos), fun panel hpanel => ?_⟩
      obtain rfl := Except.ok.inj hpanel
      refine ⟨rfl, rfl, hle, ?_⟩
      rw [hevents, filter_info_admitted, hinfo]
      split <;> rfl
  · have hload : s.loadHistory = s.beginEmpty := by
      rw [Setup.loadHistory, Environment.snapshotPath?_of_unset hunset]
    rw [hload] at hfails hsucceeds
    rcases s.beginEmpty_cases with ⟨hneg, hresult⟩ | ⟨hpos, hresult⟩
    · obtain ⟨hstart, hnone⟩ := hfails _ hresult
      exact ⟨⟨fun hsome => absurd hsome hnone, fun hpos => absurd hneg (Int.not_lt.mpr hpos)⟩,
        fun _ => hstart, fun panel hpanel => absurd ⟨panel, hpanel⟩ hnone⟩
    · have hstart := hsucceeds _ hresult
      rw [hstart]
      refine ⟨⟨fun _ => hpos, fun _ => ⟨_, rfl⟩⟩,
        fun hneg => absurd hneg (Int.not_lt.mpr hpos), fun panel hpanel => ?_⟩
      obtain rfl := Except.ok.inj hpanel
      rfl

/-- Two bad entries and two good ones. -/
def halfBad : String :=
  "\x7b\"configs\":[1,\x7b\"version\":\"x\"\x7d,\x7b\"version\":5\x7d,\x7b\"version\":7\x7d]\x7d"

theorem exists_value_halfBad :
    ∃ v, Snapshot.value 990 halfBad.toUTF8.toList = .ok v ∧ Payload.Shaped v := by
  have hdecode : Utf8.decode halfBad.toUTF8.toList = .ok (Text.of halfBad) := by decide +kernel
  rw [Snapshot.value, hdecode]
  exact ⟨.object [(Text.of "configs", .list [.int 1,
    .object [(Text.of "version", .text (Text.of "x"))], .object [(Text.of "version", .int 5)],
    .object [(Text.of "version", .int 7)]])], rfl, .member rfl⟩

/-- Bad entries under a limit of one and under a negative limit, and a host where nothing is set. -/
theorem starts_by_shape_of_bad_entries :
    let folder : Folder := ⟨["home"], [], [(["home", "configs.json"], halfBad.toUTF8.toList)], []⟩
    let limited (limit : String) : Host :=
      ⟨[("CONFIGS_FILE", "configs.json"), ("HISTORY_LIMIT", limit)], folder, [], 990, default⟩
    let bare : Host := ⟨[], folder, [], 990, default⟩
    (limited "1").Settled 1 .info ∧ (limited "-1").Settled (-1) .info ∧ bare.Settled 50 .info ∧
      (∃ panel, (limited "1").start.result = .ok panel ∧
        (panel.history.records.length : Int) ≤ 1) ∧
      (¬ ∃ panel, (limited "-1").start.result = .ok panel) ∧
      ∃ panel, bare.start.result = .ok panel ∧ panel.history = ⟨[], some 50, none⟩ := by
  intro folder limited bare
  have hpath : ∀ limit, (limited limit).env.snapshotPath? []
      = .ok (some ⟨.working, ["configs.json"]⟩) := fun _ => rfl
  have hread : folder.read ⟨.working, ["configs.json"]⟩ = .ok halfBad.toUTF8.toList := by
    decide +kernel
  obtain ⟨v, hvalue, hshape⟩ := exists_value_halfBad
  have hone : (limited "1").Settled 1 .info :=
    ⟨by decide +kernel, by decide +kernel, by decide, by decide⟩
  have hnegative : (limited "-1").Settled (-1) .info :=
    ⟨by decide +kernel, by decide +kernel, by decide, by decide⟩
  have hbare : bare.Settled 50 .info :=
    ⟨by decide +kernel, by decide +kernel, by decide, by decide⟩
  obtain ⟨hstarts, -, -, hstarted⟩ := (starts_by_shape hone).1 _ _ v (hpath _) hread hvalue
  obtain ⟨panel, hpanel⟩ := hstarts.mpr ⟨by decide, hshape⟩
  obtain ⟨-, -, hle, -⟩ := hstarted panel hpanel
  obtain ⟨hfails, -⟩ := (starts_by_shape hnegative).1 _ _ v (hpath _) hread hvalue
  obtain ⟨hempty, -, hnone⟩ := (starts_by_shape hbare).2 rfl
  obtain ⟨first, hfirst⟩ := hempty.mpr (by decide)
  exact ⟨hone, hnegative, hbare, ⟨panel, hpanel, hle⟩,
    fun hpanel => absurd (hfails.mp hpanel).1 (by decide), first, hfirst, hnone first hfirst⟩

end ConfigPanel
