import ConfigPanel.Proofs.DateLabels
import ConfigPanel.Proofs.Selection
import ConfigPanel.Row.Mounted

/-!
# History — all ways of naming a version

A version is named to look its record up, to look its row up, to select it, or to click on its row.
The record and the row are found in two different lists, and a click takes the way through the row,
but all four agree: a stored record has the version for its key, and all succeed, or none has, and
all fail with the version.  They part over a version that cannot be written.  Looking it up
succeeds; to select it and to click on it fail, both after the selection has changed, since neither
can be remarked on.

* `Reachable`: a history that was built, and whatever calls make of it.
* `Reachable.sound`: every such history is sound.
* `mount_rowOf`: the row of a record can always be mounted.
* `naming_agrees`: the four ways, in every reachable history.
-/

namespace ConfigPanel

namespace History

/-- The histories that are built, and those that calls leave, in whatever session. -/
inductive Reachable : History → Prop
  | built {h : History} (hb : h.Built) : Reachable h
  | call {s : Session} (hs : Reachable s.history) {c : Command}
      (hc : ∀ rs, c = .replace rs → ∀ r ∈ rs, r.Validated) : Reachable (s.step c).session.history

/-- A reachable history is sound under some limit. -/
theorem Reachable.sound {h : History} (hr : h.Reachable) : ∃ under, h.Sound under := by
  induction hr with
  | built hb => exact ⟨_, hb.sound.1⟩
  | @call s _ c hc ih =>
      obtain ⟨under, hs⟩ := ih
      rw [Session.step_history]
      exact ⟨_, hs.after (s.act_valid hc)⟩

/-- The records of a reachable history are in order. -/
theorem Reachable.descending {h : History} (hr : h.Reachable) : Descending h.records := by
  obtain ⟨under, hs⟩ := hr.sound
  exact hs.descending

/-- Runs lead from reachable histories to reachable ones. -/
theorem Reachable.run {s : Session} (hs : s.history.Reachable) {cs : List Command}
    (hcs : ∀ rs, .replace rs ∈ cs → ∀ r ∈ rs, r.Validated) : (s.run cs).history.Reachable := by
  induction cs generalizing s with
  | nil => exact hs
  | cons c cs ih =>
      exact ih (.call hs fun rs hc => hcs rs (hc ▸ List.mem_cons_self ..))
        fun rs hrs => hcs rs (List.mem_cons_of_mem _ hrs)

/-! ### Rows -/

/-- The rows are those of the stored records, in their order. -/
theorem map_record_views (h : History) : h.views.map Row.record = h.records := by
  have hid : Row.record ∘ h.rowOf = id := rfl
  rw [views, List.map_map, hid, List.map_id]

/-- Nothing that is asked of a row before it is mounted can be missing. -/
theorem mount_rowOf (room : Nat) (h : History) (x : Record) (handler : Handler) :
    Row.Mounted.build room (.record x) (some handler) (.bool (h.selected == some x.key))
      = .quiet (.ok ⟨h.rowOf x, handler, 0⟩) := rfl

/-- In a list in descending order a key has one row. -/
theorem filter_views_key {h : History} (hd : Descending h.records) {x : Record}
    (hx : x ∈ h.records) :
    h.views.filter (fun row => (row.key : Int) == (x.key : Int)) = [h.rowOf x] := by
  have hkeys : (fun row : Row => (row.key : Int) == (x.key : Int)) ∘ h.rowOf
      = fun y => y.key == x.key := by
    funext y
    simp only [Function.comp_apply, Row.key, rowOf, beq_eq_decide, Int.natCast_inj]
  rw [views, List.filter_map, hkeys, filter_key_eq_singleton hd hx]
  rfl

/-! ### Naming a version -/

/-- What the four ways come to when a record has the version for its key. -/
theorem naming_of_mem {h : History} (hd : Descending h.records) {x : Record}
    (hx : x ∈ h.records) :
    h.get x.key = .ok x ∧ h.view x.key = .ok (h.rowOf x) ∧
      (h.select x.key).history = { h with selected := some x.key } ∧
      h.click x.key = ⟨(h.select x.key).answer.map fun _ => (), (h.select x.key).history,
        (h.select x.key).events⟩ := by
  have hget := get_key hd hx
  refine ⟨hget, ?_, select_history_of_get_ok hget, h.click_eq x.key⟩
  rw [view_eq, hget]
  rfl

/-- What the four ways come to when no record has. -/
theorem naming_of_not_mem {h : History} {v : Int} (hv : ∀ x ∈ h.records, (x.key : Int) ≠ v) :
    h.get v = .error ⟨v⟩ ∧ h.view v = .error ⟨v⟩ ∧
      h.select v = h.unchanged (.error (.missing ⟨v⟩)) ∧
      h.click v = h.unchanged (.error (.missing ⟨v⟩)) := by
  have hget : h.get v = .error ⟨v⟩ := by
    cases hfound : h.get v with
    | ok x =>
        obtain ⟨hx, hkey⟩ := get_eq_ok hfound
        exact absurd hkey (hv x hx)
    | error f => rw [(get_eq_error hfound).1]
  refine ⟨hget, ?_, select_of_get_error hget, ?_⟩
  · rw [view_eq, hget]
    rfl
  · rw [click_eq, select_of_get_error hget]
    rfl

/-! ### Looking -/

/-- Nothing is logged while rows of validated records are rendered. -/
theorem events_renderAll {rows : List Row} (h : ∀ row ∈ rows, row.record.Validated) :
    (Row.renderAll rows).events = [] := by
  refine List.eq_nil_iff_forall_not_mem.mpr fun e he => ?_
  obtain ⟨row, hrow, he⟩ := Logged.mem_each_events he
  rw [Row.render_of_validated (h row hrow)] at he
  cases he

/-- In a reachable history, looking at the record, the row or all rows logs nothing. -/
theorem step_look {h : History} (hr : h.Reachable) (held : List Row) {v : Int} {c : Command}
    (hc : c ∈ [Command.get v, .view v, .views]) :
    ((⟨h, held⟩ : Session).step c).session = ⟨h, held⟩ ∧
      ((⟨h, held⟩ : Session).step c).events = [] := by
  obtain ⟨under, hs⟩ := hr.sound
  have hrows : ∀ row ∈ h.views, row.record.Validated := fun row hrow => by
    obtain ⟨x, hx, rfl⟩ := List.mem_map.mp hrow
    exact hs.validated x hx
  simp only [List.mem_cons, List.not_mem_nil, or_false] at hc
  rcases hc with rfl | rfl | rfl
  · exact ⟨rfl, rfl⟩
  · simp only [Session.step]
    cases hview : h.view v with
    | error f => exact ⟨rfl, rfl⟩
    | ok row =>
        rw [view_eq] at hview
        cases hget : h.get v with
        | error f => rw [hget] at hview; cases hview
        | ok x =>
            rw [hget] at hview
            cases hview
            have hvalid : (h.rowOf x).record.Validated := hs.validated x (get_eq_ok hget).1
            exact ⟨rfl, congrArg Logged.events (Row.render_of_validated hvalid)⟩
  · exact ⟨rfl, events_renderAll hrows⟩

/-- **The ways of naming a version agree on every version that can be written.**  In every reachable
history, and for every integer: if a stored record has it for its key, then looking up gives this
record, its row is the one row of the list with the key, and a selection and a click leave the same
history, with this record selected.  They succeed, with one remark, exactly when the version can be
written; otherwise both fail for this reason, without a remark.  If no record has the integer for
its key, all four fail with the integer and leave the history as it is, without a remark.  No record
has a negative key, and one without a version has key zero.  There is always one row for each stored
record, in their order, and looking changes nothing. -/
theorem naming_agrees {h : History} (hr : h.Reachable) (v : Int) :
    (∀ x ∈ h.records, (x.key : Int) = v →
      h.get v = .ok x ∧
      (∃ row, h.view v = .ok row ∧ row.record = x ∧
        h.views.filter (fun other => (other.key : Int) == v) = [row]) ∧
      ((h.select v).answer = .ok x ↔ x.key < 10 ^ Numeral.digitLimit) ∧
      ((h.click v).answer = .ok () ↔ x.key < 10 ^ Numeral.digitLimit) ∧
      (h.select v).history = { h with selected := some x.key } ∧
      (h.click v).history = (h.select v).history ∧
      (h.click v).events = (h.select v).events ∧
      (x.key < 10 ^ Numeral.digitLimit →
        (h.select v).events.map Event.line = ["INFO: Selected config version " ++ toString v]) ∧
      (¬ x.key < 10 ^ Numeral.digitLimit →
        (h.select v).answer = .error (.unwritable .tooLong) ∧
        (h.click v).answer = .error (.unwritable .tooLong) ∧ (h.select v).events = [])) ∧
    ((∀ x ∈ h.records, (x.key : Int) ≠ v) →
      h.get v = .error ⟨v⟩ ∧ h.view v = .error ⟨v⟩ ∧
      h.select v = ⟨.error (.missing ⟨v⟩), h, []⟩ ∧
      h.click v = ⟨.error (.missing ⟨v⟩), h, []⟩) ∧
    (v < 0 → ∀ x ∈ h.records, (x.key : Int) ≠ v) ∧
    (∀ x ∈ h.records, x.version = none → h.get 0 = .ok x) ∧
    h.views.map Row.record = h.records ∧
    (∀ room, ∀ x ∈ h.records, ∀ handler,
      Row.Mounted.build room (.record x) (some handler) (.bool (h.selected == some x.key))
        = .quiet (.ok ⟨h.rowOf x, handler, 0⟩)) ∧
    ∀ held, ∀ c ∈ [Command.get v, .view v, .views],
      ((⟨h, held⟩ : Session).step c).session = ⟨h, held⟩ ∧
        ((⟨h, held⟩ : Session).step c).events = [] := by
  have hd := hr.descending
  refine ⟨?_, naming_of_not_mem, fun hneg x _ => by omega, fun x hx hnone => ?_,
    map_record_views h, fun room x _ handler => mount_rowOf room h x handler,
    fun held c hc => step_look hr held hc⟩
  · rintro x hx rfl
    obtain ⟨hget, hview, hselected, hclick⟩ := naming_of_mem hd hx
    rw [hclick, hselected]
    refine ⟨hget, ⟨_, hview, rfl, filter_views_key hd hx⟩, ?_⟩
    by_cases hkey : x.key < 10 ^ Numeral.digitLimit
    · rw [select_of_get_ok hget (Numeral.writable_natCast.mpr hkey)]
      exact ⟨⟨fun _ => hkey, fun _ => rfl⟩, ⟨fun _ => hkey, fun _ => rfl⟩, rfl, rfl, rfl,
        fun _ => rfl, fun hlong => absurd hkey hlong⟩
    · rw [select_of_unwritable hget (mt Numeral.writable_natCast.mp hkey)]
      exact ⟨⟨nofun, fun hshort => absurd hshort hkey⟩, ⟨nofun, fun hshort => absurd hshort hkey⟩,
        rfl, rfl, rfl, fun hshort => absurd hshort hkey, fun _ => ⟨rfl, rfl, rfl⟩⟩
  · have hkey : x.key = 0 := by rw [Record.key, hnone]; rfl
    have hget := get_key hd hx
    rwa [hkey] at hget

/-- The least version that cannot be written is found when it is looked up, and neither selected nor
clicked on with success. -/
theorem naming_parts :
    let version : Nat := 10 ^ Numeral.digitLimit
    let long : Record := ⟨some version, none, none⟩
    let h : History := ⟨[long], none, none⟩
    h.Reachable ∧ h.get version = .ok long ∧ h.view version = .ok ⟨long, false⟩ ∧
      h.select version = ⟨.error (.unwritable .tooLong), { h with selected := some version }, []⟩ ∧
      (h.click version).answer = .error (.unwritable .tooLong) := by
  obtain ⟨version, hversion, hlong⟩ := Numeral.exists_not_writable
  rw [hversion]
  intro _ long h
  have hb : h.Built := (Session.select_unwritable hlong).1
  have hmem : long ∈ h.records := List.mem_singleton_self long
  obtain ⟨hget, hview, -, hclick⟩ := naming_of_mem hb.sound.1.descending hmem
  have hselect := select_of_unwritable hget hlong
  refine ⟨.built hb, hget, hview, hselect, ?_⟩
  have hanswer := congrArg Outcome.answer hclick
  rw [hselect] at hanswer
  exact hanswer

/-- A record without a version is named by zero, and by nothing below, while another is selected. -/
theorem naming_agrees_at_zero :
    let plain : Record := ⟨none, none, none⟩
    let h : History := ⟨[⟨some 7, some (Text.of "ann"), none⟩, plain], none, some 7⟩
    h.Reachable ∧ h.get 0 = .ok plain ∧ (h.select 0).answer = .ok plain ∧
      (h.click 0).history = { h with selected := some 0 } ∧
      (h.select 0).events.map Event.line = ["INFO: Selected config version 0"] ∧
      (∃ row, h.view 0 = .ok row ∧ row.record = plain) ∧
      h.click (-1) = ⟨.error (.missing ⟨-1⟩), h, []⟩ := by
  intro plain h
  have hvalid : ∀ r ∈ [plain, ⟨some 7, some (Text.of "ann"), none⟩], r.Validated := by
    intro r hr
    simp only [List.mem_cons, List.not_mem_nil, or_false] at hr
    rcases hr with rfl | rfl <;> exact Record.validated_iff.mpr nofun
  have hbuild : build [plain, ⟨some 7, some (Text.of "ann"), none⟩] none
      = .ok ⟨h.records, none, none⟩ := by decide
  let start : Session := Session.start ⟨h.records, none, none⟩
  have hstart : start.history.Reachable := .built (.ofRecords hvalid hbuild)
  have hrun : (start.run [.select 7]).history.Reachable := hstart.run nofun
  have hselected : (start.run [.select 7]).history = h := by decide +kernel
  have hr : h.Reachable := hselected ▸ hrun
  have hplain : plain ∈ h.records := List.mem_cons_of_mem _ (List.mem_cons_self ..)
  obtain ⟨hmem, -⟩ := naming_agrees hr 0
  obtain ⟨-, hnone, hneg, -⟩ := naming_agrees hr (-1)
  obtain ⟨hget, ⟨row, hview, hrow, -⟩, hanswer, -, hselect, hclick, -, hline, -⟩ :=
    hmem plain hplain rfl
  have hzero : plain.key < 10 ^ Numeral.digitLimit := Numeral.lt_limit (by decide)
  exact ⟨hr, hget, hanswer.mpr hzero, hclick.trans hselect, hline hzero, ⟨row, hview, hrow⟩,
    (hnone (hneg (by decide))).2.2.2⟩

end History

end ConfigPanel
