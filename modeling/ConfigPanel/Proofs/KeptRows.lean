import ConfigPanel.Proofs.Naming

/-!
# Session — rows that outlive their list

A kept row is a record of the list that it was taken from, and whether it was selected then.  The
history goes on without it.  No call but `hold` touches the kept rows (`step_held`), so nothing that
happens later can change what they look like; and pressing one goes by its key alone (`step_press`),
so what a press does is settled by the records on show at that time, whichever record the row has.

* `run_held`: a run without `hold` keeps the kept rows.
* `step_renderHeld`: what a kept row is rendered as.
* `step_press`: pressing a row is selecting its key.
* `press_of_mem`, `press_of_not_mem`: what pressing a row comes to, in a list in descending order.
* `kept_rows_act_now`: kept rows show what was, and do what they can now.
-/

namespace ConfigPanel

namespace Session

/-! ### Kept rows stay -/

/-- Only `hold` changes which rows are kept. -/
theorem step_held (s : Session) {c : Command} (hc : c ≠ .hold) :
    (s.step c).session.held = s.held := by
  cases c with
  | hold => exact absurd rfl hc
  | view v => simp only [step]; cases s.history.view v <;> rfl
  | renderHeld i => simp only [step]; cases s.heldRow? i <;> rfl
  | clickHeld i => simp only [step]; cases s.heldRow? i <;> rfl
  | records | selected | get v | views | select v | click v | press row | replace rs
  | setLimit l => rfl

/-- Rows are kept by holding them, and by nothing else. -/
theorem run_held (s : Session) {cs : List Command} (hcs : .hold ∉ cs) :
    (s.run cs).held = s.held := by
  induction cs generalizing s with
  | nil => rfl
  | cons c cs ih =>
      have hrun : s.run (c :: cs) = (s.step c).session.run cs := rfl
      have hc : c ≠ .hold := fun hc => hcs (hc ▸ List.mem_cons_self ..)
      have hrest : .hold ∉ cs := fun hmem => hcs (List.mem_cons_of_mem _ hmem)
      rw [hrun, ih _ hrest, s.step_held hc]

/-- An index finds a kept row whatever has become of the history. -/
theorem heldRow?_of_held {s t : Session} (h : s.held = t.held) (i : Int) :
    s.heldRow? i = t.heldRow? i := by
  rw [heldRow?, heldRow?, h]

theorem heldRow?_natCast (s : Session) (i : Nat) : s.heldRow? i = s.held[i]? :=
  if_pos (Int.natCast_nonneg i)

/-- The row that is kept of a record is the one on show when it is kept. -/
theorem heldRow?_hold {s : Session} {i : Nat} {x : Record} (hx : s.history.records[i]? = some x) :
    (s.step .hold).session.heldRow? i = some (s.history.rowOf x) := by
  have hheld : (s.step .hold).session.held = s.history.views := rfl
  rw [heldRow?_natCast, hheld, History.views, List.getElem?_map, hx]
  rfl

/-! ### What is done with them -/

/-- What a kept row is rendered as depends on nothing but the row. -/
theorem step_renderHeld_of_held {s t : Session} (h : s.held = t.held) (i : Int) :
    s.step (.renderHeld i)
      = ⟨(t.step (.renderHeld i)).answer, s, (t.step (.renderHeld i)).events⟩ := by
  simp only [step, heldRow?_of_held h i]
  cases t.heldRow? i <;> rfl

/-- A kept row on a validated record is rendered quietly, if its version can be written. -/
theorem step_renderHeld {s : Session} {i : Int} {row : Row} (hrow : s.heldRow? i = some row)
    (hvalid : row.record.Validated) :
    s.step (.renderHeld i)
      = ⟨if Numeral.Writable row.key then .ok (.markup row.markup)
          else .error (.unwritable .tooLong), s, []⟩ := by
  simp only [step, hrow, display, Row.render_eq_ite hvalid, Logged.quiet]
  split <;> rfl

/-- Clicking a kept row presses this row. -/
theorem step_clickHeld {s : Session} {i : Int} {row : Row} (hrow : s.heldRow? i = some row) :
    s.step (.clickHeld i) = s.step (.press row) := by
  simp only [step, hrow]

/-- The rows of a list of validated records are shown when all their versions can be written. -/
theorem markups_of_views {s : Session} (hvalid : ∀ x ∈ s.history.records, x.Validated)
    {ts : List Text} (h : (s.step .views).answer = .ok (.markups ts)) :
    ts = s.history.views.map Row.markup := by
  have hrows : ∀ row ∈ s.history.views, row.record.Validated := fun row hrow => by
    obtain ⟨x, hx, rfl⟩ := List.mem_map.mp hrow
    exact hvalid x hx
  simp only [step, display, Row.renderAll_eq_ite hrows, Logged.quiet] at h
  split at h
  · cases h
    rfl
  · cases h

/-- Pressing a row is selecting its key, without the record in the answer. -/
theorem step_press (s : Session) (row : Row) :
    s.step (.press row) = ⟨(s.step (.select row.key)).answer.map fun _ => .done,
      (s.step (.select row.key)).session, (s.step (.select row.key)).events⟩ := by
  simp only [step, carry, History.press]
  cases (s.history.select row.key).answer <;> rfl

/-- Pressing a row selects the record on show with its key, be it that of the row or another.  It
succeeds, and is remarked on, when the key can be written. -/
theorem press_of_mem {s : Session} (hd : History.Descending s.history.records) {r : Row}
    {y : Record} (hy : y ∈ s.history.records) (hkey : y.key = r.key) :
    s.step (.press r)
      = ⟨if Numeral.Writable r.key then .ok .done else .error (.unwritable .tooLong),
        { s with history := { s.history with selected := some r.key } },
        if Numeral.Writable r.key then [.selected r.key] else []⟩ := by
  have hget : s.history.get y.key = .ok y := History.get_key hd hy
  rw [step_press, step, carry, ← hkey]
  by_cases hw : Numeral.Writable y.key
  · rw [History.select_of_get_ok hget hw, if_pos hw, if_pos hw]
    rfl
  · rw [History.select_of_unwritable hget hw, if_neg hw, if_neg hw]
    rfl

/-- Pressing a row whose key is not on show fails with the key and does nothing. -/
theorem press_of_not_mem {s : Session} {r : Row}
    (hno : ∀ y ∈ s.history.records, y.key ≠ r.key) :
    s.step (.press r) = ⟨.error (.missing ⟨r.key⟩), s, []⟩ := by
  obtain ⟨-, -, hselect, -⟩ := History.naming_of_not_mem (v := r.key) fun y hy hkey =>
    hno y hy (Int.ofNat_inj.mp hkey)
  rw [step_press, step, hselect]
  rfl

/-- A press of a row whose key is on show succeeds with a remark, or fails without one. -/
theorem press_answers {s : Session} (hd : History.Descending s.history.records) {r : Row}
    {y : Record} (hy : y ∈ s.history.records) (hkey : y.key = r.key) :
    let pressed := s.step (.press r)
    (pressed.answer = .ok .done ↔ r.key < 10 ^ Numeral.digitLimit) ∧
      (r.key < 10 ^ Numeral.digitLimit → pressed.events.map Event.line
        = ["INFO: Selected config version " ++ toString r.key]) ∧
      (¬ r.key < 10 ^ Numeral.digitLimit →
        pressed.answer = .error (.unwritable .tooLong) ∧ pressed.events = []) := by
  intro pressed
  have hpress : pressed = _ := press_of_mem hd hy hkey
  rw [hpress, ← Numeral.writable_natCast]
  by_cases hw : Numeral.Writable r.key
  · rw [if_pos hw, if_pos hw]
    exact ⟨iff_of_true rfl hw, fun _ => rfl, fun hlong => absurd hw hlong⟩
  · rw [if_neg hw, if_neg hw]
    refine ⟨iff_of_false (fun hdone => ?_) hw, fun hshort => absurd hshort hw,
      fun _ => ⟨rfl, rfl⟩⟩
    cases hdone

/-- A press leaves the key of one record on show selected, unless it was selected before and cannot
be written. -/
theorem current_of_press {s : Session} (hs : s.history.Reachable) {r : Row} {k : Nat}
    (hk : (s.step (.press r)).session.history.selected = some k)
    (hshort : k < 10 ^ Numeral.digitLimit ∨ s.history.selected ≠ some k) :
    ∃ y, (s.step (.press r)).session.history.records.filter (fun z => z.key == k) = [y] ∧
      (s.step (.press r)).session.history.current = .ok (some y) := by
  have hpressed : (s.step (.press r)).session.history.Reachable :=
    .call hs fun _ hc => by cases hc
  obtain ⟨under, hsound⟩ := hpressed.sound
  by_cases hshown : ∃ y ∈ s.history.records, y.key = r.key
  · -- the key is on show, whether it can be written or not
    obtain ⟨y, hy, hkey⟩ := hshown
    rw [press_of_mem hs.descending hy hkey] at hk ⊢
    obtain rfl : r.key = k := Option.some.inj hk
    have hget : s.history.get r.key = .ok y := hkey ▸ History.get_key hs.descending hy
    exact ⟨y, hkey ▸ History.filter_key_eq_singleton hs.descending hy,
      History.current_of_get_ok hget⟩
  · have hsame := press_of_not_mem (s := s) (r := r) fun y hmem hkey => hshown ⟨y, hmem, hkey⟩
    have hbefore : s.history.selected = some k := by rwa [hsame] at hk
    exact hsound.current hk
      (Numeral.writable_natCast.mpr (hshort.resolve_right fun hne => hne hbefore))

/-! ### Rows from an older list -/

/-- **A kept row shows what was, and does what it can now.**  The rows of a reachable history are
kept, and any calls follow.  As long as no other rows are kept, a kept row is rendered as it was
when the list was taken, with its record, key and highlight of that time, if its version can be
written, and otherwise not at all, then as now; and to click on it is to press that row.  Whatever
the row, one kept before or any other: pressing it is selecting its key, as the history is now.  If
a record on show has the key, the key is selected and the selected record is the one on show now;
and the press succeeds, with one remark, exactly when the key can be written, and fails without a
remark when it cannot.  If no record has the key, the press fails with the key, nothing changes, and
there is no remark.  So what is selected afterwards is the key of one record on show, unless it was
selected before and cannot be written. -/
theorem kept_rows_act_now {s : Session} (hs : s.history.Reachable) {cs : List Command}
    (hcs : ∀ rs, .replace rs ∈ cs → ∀ r ∈ rs, r.Validated) :
    let kept := (s.step .hold).session
    let now := kept.run cs
    (.hold ∉ cs →
      (∀ i : Int, now.step (.renderHeld i)
        = ⟨(kept.step (.renderHeld i)).answer, now, (kept.step (.renderHeld i)).events⟩) ∧
      ∀ (i : Nat) (x : Record), s.history.records[i]? = some x →
        let row : Row := ⟨x, s.history.selected == some x.key⟩
        (∀ ts, (s.step .views).answer = .ok (.markups ts) → ts[i]? = some row.markup) ∧
        now.step (.renderHeld i)
          = ⟨if Numeral.Writable x.key then .ok (.markup row.markup)
              else .error (.unwritable .tooLong), now, []⟩ ∧
        now.step (.clickHeld i) = now.step (.press row)) ∧
    ∀ row : Row,
      let chosen := now.step (.select row.key)
      let pressed := now.step (.press row)
      pressed = ⟨chosen.answer.map fun _ => .done, chosen.session, chosen.events⟩ ∧
      (∀ y ∈ now.history.records, y.key = row.key →
        pressed.session = { now with history := { now.history with selected := some row.key } } ∧
        pressed.session.history.current = .ok (some y) ∧
        (pressed.answer = .ok .done ↔ row.key < 10 ^ Numeral.digitLimit) ∧
        (row.key < 10 ^ Numeral.digitLimit → pressed.events.map Event.line
          = ["INFO: Selected config version " ++ toString row.key]) ∧
        (¬ row.key < 10 ^ Numeral.digitLimit →
          pressed.answer = .error (.unwritable .tooLong) ∧ pressed.events = [])) ∧
      ((∀ y ∈ now.history.records, y.key ≠ row.key) →
        pressed = ⟨.error (.missing ⟨row.key⟩), now, []⟩) ∧
      ∀ k, pressed.session.history.selected = some k →
        k < 10 ^ Numeral.digitLimit ∨ now.history.selected ≠ some k →
        ∃ y, pressed.session.history.records.filter (fun z => z.key == k) = [y] ∧
          pressed.session.history.current = .ok (some y) := by
  intro kept now
  have hkept : kept.history.Reachable := hs
  have hnow : now.history.Reachable := hkept.run hcs
  obtain ⟨under, hsound⟩ := hs.sound
  refine ⟨fun hhold => ?_, fun row => ⟨now.step_press row, fun y hy hkey => ?_, press_of_not_mem,
    fun k hk hshort => current_of_press hnow hk hshort⟩⟩
  · have hheld : now.held = kept.held := kept.run_held hhold
    refine ⟨step_renderHeld_of_held hheld, fun i x hx => ?_⟩
    have hrow : now.heldRow? i = some (s.history.rowOf x) :=
      (heldRow?_of_held hheld i).trans (heldRow?_hold hx)
    have hvalid : x.Validated := hsound.validated x (List.mem_of_getElem? hx)
    refine ⟨fun ts hts => ?_, step_renderHeld hrow hvalid, step_clickHeld hrow⟩
    rw [markups_of_views hsound.validated hts, History.views, List.getElem?_map,
      List.getElem?_map, hx]
    rfl
  · have hget : now.history.get row.key = .ok y := hkey ▸ History.get_key hnow.descending hy
    have hselected : (now.step (.press row)).session
        = { now with history := { now.history with selected := some row.key } } := by
      rw [press_of_mem hnow.descending hy hkey]
    refine ⟨hselected, ?_, press_answers hnow.descending hy hkey⟩
    rw [hselected]
    exact History.current_of_get_ok hget

/-- A row with the least version that cannot be written is kept; it cannot be rendered, and pressing
it selects the version and fails without a remark. -/
theorem kept_row_selects_in_silence :
    let version : Nat := 10 ^ Numeral.digitLimit
    let long : Record := ⟨some version, none, none⟩
    let s : Session := ⟨⟨[long], none, none⟩, []⟩
    let now := (s.step .hold).session
    s.history.Reachable ∧ now.heldRow? 0 = some ⟨long, false⟩ ∧
      now.step (.renderHeld 0) = ⟨.error (.unwritable .tooLong), now, []⟩ ∧
      now.step (.clickHeld 0)
        = ⟨.error (.unwritable .tooLong), ⟨⟨[long], none, some version⟩, now.held⟩, []⟩ := by
  obtain ⟨version, hversion, hlong⟩ := Numeral.exists_not_writable
  rw [hversion]
  intro _ long s now
  have hb : s.history.Built := (select_unwritable hlong).1
  have hmem : long ∈ now.history.records := List.mem_singleton_self long
  have hrow : now.heldRow? 0 = some ⟨long, false⟩ := rfl
  have hd : History.Descending now.history.records := hb.sound.1.descending
  have hvalid : long.Validated := Record.validated_iff.mpr nofun
  have hkey : ¬ Numeral.Writable (⟨long, false⟩ : Row).key := hlong
  have hrender := step_renderHeld hrow hvalid
  have hpress := press_of_mem (r := ⟨long, false⟩) hd hmem rfl
  rw [if_neg hkey] at hrender
  rw [if_neg hkey, if_neg hkey] at hpress
  exact ⟨.built hb, hrow, hrender, (step_clickHeld hrow).trans hpress⟩

/-- A row is kept, its version goes, and comes back with another record: the row still shows the
first one, does nothing in between, and then selects the second. -/
theorem kept_rows_act_now_on_return :
    let ann : Record := ⟨some 7, some (Text.of "ann"), none⟩
    let bob : Record := ⟨some 7, some (Text.of "bob"), none⟩
    let s : Session := ⟨⟨[ann], none, some 7⟩, []⟩
    let first : List Command := [.replace []]
    let rest : List Command := [.clickHeld 0, .replace [bob]]
    let gone := (s.step .hold).session.run first
    let back := (s.step .hold).session.run (first ++ rest)
    s.history.Reachable ∧
      gone.step (.clickHeld 0) = ⟨.error (.missing ⟨7⟩), gone, []⟩ ∧
      back.step (.renderHeld 0) = ⟨.ok (.markup (⟨ann, true⟩ : Row).markup), back, []⟩ ∧
      (back.step (.clickHeld 0)).session.history = ⟨[bob], none, some 7⟩ ∧
      (back.step (.clickHeld 0)).session.history.current = .ok (some bob) ∧
      (back.step (.clickHeld 0)).events.map Event.line = ["INFO: Selected config version 7"] := by
  intro ann bob s first rest gone back
  have hvalid : ∀ r ∈ [ann, bob], r.Validated := by
    intro r hr
    simp only [List.mem_cons, List.not_mem_nil, or_false] at hr
    rcases hr with rfl | rfl <;> exact Record.validated_iff.mpr nofun
  have hann : ∀ r ∈ [ann], r.Validated := fun r hr => hvalid r (List.mem_append_left [bob] hr)
  have hbuild : History.build [ann] none = .ok ⟨[ann], none, none⟩ := rfl
  have hstart : (start ⟨[ann], none, none⟩).history.Reachable := .built (.ofRecords hann hbuild)
  have hrun : ((start ⟨[ann], none, none⟩).run [.select 7]).history.Reachable := hstart.run nofun
  have hselected : ((start ⟨[ann], none, none⟩).run [.select 7]).history = s.history := by
    decide +kernel
  have hs : s.history.Reachable := hselected ▸ hrun
  have hall : ∀ rs, .replace rs ∈ first ++ rest → ∀ r ∈ rs, r.Validated := by
    intro rs hrs
    obtain rfl | rfl : rs = [] ∨ rs = [bob] := by simpa [first, rest] using hrs
    · nofun
    · exact fun r hr => hvalid r (List.mem_cons_of_mem _ hr)
  have hfirst : ∀ rs, .replace rs ∈ first → ∀ r ∈ rs, r.Validated := fun rs hrs =>
    hall rs (List.mem_append_left rest hrs)
  obtain ⟨hheldGone, hpressGone⟩ := kept_rows_act_now hs hfirst
  obtain ⟨hheldBack, hpressBack⟩ := kept_rows_act_now hs hall
  obtain ⟨-, -, hclickGone⟩ := (hheldGone (by simp [first])).2 0 ann rfl
  obtain ⟨-, hrender, hclickBack⟩ := (hheldBack (by simp [first, rest])).2 0 ann rfl
  have hclick : back.step (.clickHeld 0) = back.step (.press ⟨ann, true⟩) := hclickBack
  have hseven : Numeral.Writable ann.key := Numeral.Writable.of_natAbs_lt (by decide)
  have hgone : gone.history.records = [] := by decide +kernel
  have hback : back.history = ⟨[bob], none, none⟩ := by decide +kernel
  obtain ⟨-, hpress, -⟩ := hpressBack ⟨ann, true⟩
  obtain ⟨hsession, hcurrent, -, hline, -⟩ :=
    hpress bob (hback ▸ List.mem_singleton_self bob) rfl
  rw [if_pos hseven] at hrender
  rw [hclick]
  refine ⟨hs, hclickGone.trans ((hpressGone _).2.2.1 (hgone ▸ nofun)), hrender, ?_, hcurrent,
    (hline (Numeral.writable_natCast.mp hseven)).trans (by decide)⟩
  rw [hsession, hback]
  rfl

end Session

end ConfigPanel
