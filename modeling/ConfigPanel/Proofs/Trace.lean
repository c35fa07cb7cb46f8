import ConfigPanel.History.Snapshot
import ConfigPanel.Proofs.Rows
import ConfigPanel.Proofs.Selection

/-!
# Session — the log, read for the selection

The selection of a history is not in its log, but its changes are.  `Remark.ofMessage?` is a reader
that knows the words of two messages and takes the version from between them, and `follow` goes
through what was read: a version that was chosen is selected, and after one that is gone nothing
is.  This gives the selection after every call.

What a call says about the selection is settled by what it asks of the history (`History.logOf`),
and so the step is proved once for each of the four acts.  A version that cannot be written is
selected without a word.  The log then tells of an earlier selection, until the next one; what it
tells is always a version that can be written (`History.Told`).

* `ofMessage?_selected`, `ofMessage?_selectionGone`: the reader finds what was written.
* `Told.after`: one act; `told_run`: a run.
* `remarks_ofPayload`, `remarks_ofSnapshot`: nothing is said about the selection before the first
  call.
* `log_traces_selection`: the log of a history from its building on, and when it tells the
  selection.
-/

namespace ConfigPanel

/-! ### Remarks on the selection -/

/-- What a message says about the selection. -/
inductive Remark where
  | chosen (version : Nat)
  | gone (version : Nat)
  deriving DecidableEq, Repr

namespace Remark

/-- What a remark on the selection begins with. -/
def opening : Text := Text.of "Selected config version "

/-- What stands behind the version in the remark that it is gone. -/
def closing : Text := Text.of " is gone, clearing selection"

/-- The remark that is made of a version and the words behind it. -/
def ofParts? (version : Nat) (behind : Text) : Option Remark :=
  if behind = [] then some (.chosen version)
  else if behind = closing then some (.gone version)
  else none

/-- Reads a message: behind the opening stand digits up to the first blank or the end. -/
def ofMessage? (message : String) : Option Remark :=
  ((Text.of message).dropPrefix? opening).bind fun rest =>
    (Text.decimal? (rest.takeWhile (· != .char ' '))).bind fun version =>
      ofParts? version (rest.dropWhile (· != .char ' '))

/-- What is selected after the remark. -/
def selection : Remark → Option Nat
  | .chosen version => some version
  | .gone _         => none

/-- A message that begins like a remark is read by its version and what stands behind it. -/
theorem ofMessage?_of {behind : Text} {message : String} {k : Nat}
    (hmessage : Text.of message = opening ++ (Text.ofNat k ++ behind))
    (hbehind : behind.head?.all (· == .char ' ')) :
    ofMessage? message = ofParts? k behind := by
  have hdrop : (opening ++ (Text.ofNat k ++ behind)).dropPrefix? opening
      = some (Text.ofNat k ++ behind) :=
    List.dropPrefix?_eq_some_iff.mpr ⟨opening, rfl, by simp⟩
  have hdigits : ∀ p ∈ Text.ofNat k, (p != CodePoint.char ' ') = true := by
    intro p hp
    rw [Text.ofNat_eq] at hp
    obtain ⟨c, hc, rfl⟩ := List.mem_map.mp hp
    have hne : c ≠ ' ' := fun heq => Numeral.not_mem_toDigits (by decide) k (heq ▸ hc)
    simpa using hne
  have hstop : behind.takeWhile (· != CodePoint.char ' ') = [] ∧
      behind.dropWhile (· != CodePoint.char ' ') = behind := by
    cases behind with
    | nil => exact ⟨rfl, rfl⟩
    | cons p t =>
        obtain rfl : p = .char ' ' := by simpa using hbehind
        exact ⟨rfl, rfl⟩
  rw [ofMessage?, hmessage, hdrop, Option.bind_some, List.takeWhile_append_of_pos hdigits,
    List.dropWhile_append_of_pos hdigits, hstop.1, hstop.2, List.append_nil, Text.decimal?_ofNat,
    Option.bind_some]

/-- The message of a selection is read as this selection. -/
theorem ofMessage?_selected (k : Nat) :
    ofMessage? (Event.selected k).message = some (.chosen k) := by
  have hmessage : Text.of (Event.selected k).message = opening ++ (Text.ofNat k ++ []) := by
    rw [List.append_nil]
    exact Text.of_append "Selected config version " (toString k)
  rw [ofMessage?_of hmessage rfl]
  rfl

/-- The message that a selection is gone is read as that. -/
theorem ofMessage?_selectionGone (k : Nat) :
    ofMessage? (Event.selectionGone k).message = some (.gone k) := by
  have hmessage : Text.of (Event.selectionGone k).message
      = opening ++ (Text.ofNat k ++ closing) := by
    rw [← List.append_assoc, opening, Text.ofNat, ← Text.of_append]
    exact Text.of_append ("Selected config version " ++ toString k) " is gone, clearing selection"
  rw [ofMessage?_of hmessage (by decide)]
  rfl

/-- The message about a snapshot begins with other words. -/
theorem ofMessage?_loaded (count : Nat) (path : String) :
    ofMessage? (Event.loaded count path).message = none := by
  have hmessage : Text.of (Event.loaded count path).message
      = Text.of "Loaded " ++ Text.of (toString count) ++ Text.of " config versions from "
        ++ Text.of path := by
    rw [← Text.of_append, ← Text.of_append, ← Text.of_append]
    rfl
  have hdrop (t : Text) : (Text.of "Loaded " ++ t).dropPrefix? opening = none := by
    have hcons : Text.of "Loaded " ++ t = .char 'L' :: (Text.of "oaded " ++ t) := rfl
    have hopening : opening = .char 'S' :: Text.of "elected config version " := rfl
    rw [hcons, hopening, List.dropPrefix?, if_neg (by decide)]
  rw [ofMessage?, hmessage, List.append_assoc, List.append_assoc, hdrop, Option.bind_none]

end Remark

/-! ### Logs -/

/-- What a log says about the selection, in the messages of level INFO and in their order. -/
def remarks (es : List Event) : List Remark :=
  (es.filter fun e => e.level == .info).filterMap fun e => Remark.ofMessage? e.message

/-- The selection after remarks, each of which settles it anew. -/
def follow (selected : Option Nat) (rs : List Remark) : Option Nat :=
  rs.foldl (fun _ r => r.selection) selected

/-- Remarks are read event by event. -/
theorem remarks_append (es fs : List Event) : remarks (es ++ fs) = remarks es ++ remarks fs := by
  rw [remarks, List.filter_append, List.filterMap_append]
  rfl

/-- Remarks are followed one after the other. -/
theorem follow_append (selected : Option Nat) (rs ss : List Remark) :
    follow selected (rs ++ ss) = follow (follow selected rs) ss := List.foldl_append ..

theorem remarks_singleton {e : Event} (h : e.level = .info) :
    remarks [e] = (Remark.ofMessage? e.message).toList := by
  have hfilter : [e].filter (fun e => e.level == .info) = [e] := by simp [h]
  rw [remarks, hfilter, List.filterMap_cons, List.filterMap_nil]
  cases Remark.ofMessage? e.message <;> rfl

theorem remarks_selected (k : Nat) : remarks [.selected k] = [.chosen k] := by
  rw [remarks_singleton rfl, Remark.ofMessage?_selected]
  rfl

theorem remarks_selectionGone (k : Nat) : remarks [.selectionGone k] = [.gone k] := by
  rw [remarks_singleton rfl, Remark.ofMessage?_selectionGone]
  rfl

/-- Loading says nothing about the selection, however many records there are and whatever path. -/
theorem remarks_loaded (count : Nat) (path : String) : remarks [.loaded count path] = [] := by
  rw [remarks_singleton rfl, Remark.ofMessage?_loaded]
  rfl

/-- Only messages of level INFO are read. -/
theorem remarks_of_warnings {es : List Event} (h : ∀ e ∈ es, e.level = .warning) :
    remarks es = [] := by
  have hfilter : es.filter (fun e => e.level == .info) = [] :=
    List.filter_eq_nil_iff.mpr fun e he => by simp [h e he]
  rw [remarks, hfilter]
  rfl

/-! ### Building -/

/-- No history is made with a remark on the selection. -/
theorem remarks_ofPayload (room : Nat) (v : Value) (limit : Option Int) :
    remarks (History.ofPayload room v limit).events = [] := by
  rw [History.ofPayload]
  cases Payload.entries v with
  | error f => rfl
  | ok es => exact remarks_of_warnings fun _ he => Payload.level_of_mem_events he

/-- No history is read from a file with a remark on the selection. -/
theorem remarks_ofSnapshot (room : Nat) (bytes : List UInt8) (path : String) (limit : Option Int) :
    remarks (History.ofSnapshot room bytes path limit).events = [] := by
  rw [History.ofSnapshot]
  cases Snapshot.value room bytes with
  | error f => rfl
  | ok v =>
      simp only
      cases (History.ofPayload room v limit).result with
      | error f => exact remarks_ofPayload room v limit
      | ok h => rw [remarks_append, remarks_ofPayload, remarks_loaded, List.append_nil]

/-! ### Acts -/

/-- All that is logged while a row is rendered are warnings. -/
theorem Row.level_of_mem_render {row : Row} {e : Event} (he : e ∈ row.render.events) :
    e.level = .warning := by
  obtain ⟨f, rfl⟩ := Timestamp.exists_fault_of_mem_judge he
  rfl

namespace History

/-- What an act logs. -/
def logOf (h : History) : Act → List Event
  | .look      => []
  | .choose v  => (h.select v).events
  | .refill rs => (h.replace rs).events
  | .bound _   => []

/-- A new list is quiet and keeps the selection, or it drops the selected version and says which. -/
theorem replace_cases (h : History) (rs : List Record) :
    ((h.replace rs).events = [] ∧ (h.replace rs).history.selected = h.selected) ∨
    ∃ k, h.selected = some k ∧
      h.replace rs = ⟨.ok (), ⟨stored h.limit rs, h.limit, none⟩, [.selectionGone k]⟩ := by
  simp only [replace]
  cases h.selected with
  | none => exact .inl ⟨rfl, rfl⟩
  | some k =>
      by_cases hkey : hasKey (stored h.limit rs) k = true
      · exact .inl (by simp [hkey])
      · by_cases hk : Numeral.Writable k
        · exact .inr ⟨k, rfl, by simp only [hkey, if_pos hk]; rfl⟩
        · exact .inl (by simp [hkey, if_neg hk])

/-- **One act.**  It says nothing about the selection, and leaves it or ends in one that cannot be
written; or it says what is selected after it. -/
theorem logOf_cases (h : History) (a : Act) :
    (remarks (h.logOf a) = [] ∧ ((h.after a).selected = h.selected ∨ ¬ (h.after a).Legible)) ∨
    ∃ remark, remarks (h.logOf a) = [remark] ∧ (h.after a).selected = remark.selection ∧
      ∀ k, remark = .chosen k → Numeral.Writable k := by
  cases a with
  | look => exact .inl ⟨rfl, .inl rfl⟩
  | bound limit => exact .inl ⟨rfl, .inl rfl⟩
  | choose v =>
      simp only [logOf, after]
      cases hget : h.get v with
      | error f =>
          rw [select_of_get_error hget]
          exact .inl ⟨rfl, .inl rfl⟩
      | ok r =>
          by_cases hr : Numeral.Writable r.key
          · rw [select_of_get_ok hget hr, remarks_selected]
            refine .inr ⟨_, rfl, rfl, fun k hk => ?_⟩
            obtain rfl : r.key = k := Remark.chosen.inj hk
            exact hr
          · rw [select_of_unwritable hget hr]
            exact .inl ⟨rfl, .inr fun hlegible => hr (hlegible r.key rfl)⟩
  | refill rs =>
      simp only [logOf, after]
      rcases h.replace_cases rs with ⟨hquiet, hkept⟩ | ⟨k, -, hgone⟩
      · rw [hquiet, hkept]
        exact .inl ⟨rfl, .inl rfl⟩
      · rw [hgone, remarks_selectionGone]
        refine .inr ⟨_, rfl, rfl, fun j hj => ?_⟩
        cases hj

/-- What was read tells the selection when it can be written, and is itself a version that can. -/
structure Told (told : Option Nat) (h : History) : Prop where
  writable : ∀ k, told = some k → Numeral.Writable k
  selected : h.Legible → told = h.selected

/-- What has been told is the selection exactly when the selection can be written. -/
theorem Told.eq_selected_iff {told : Option Nat} {h : History} (ht : Told told h) :
    told = h.selected ↔ h.Legible :=
  ⟨fun heq k hk => ht.writable k (heq.trans hk), ht.selected⟩

/-- What an act logs is told with what was told before. -/
theorem Told.after {told : Option Nat} {h : History} (ht : Told told h) (a : Act) :
    Told (follow told (remarks (h.logOf a))) (h.after a) := by
  rcases h.logOf_cases a with ⟨hquiet, hkept | hlong⟩ | ⟨remark, hremark, hselected, hwritable⟩
  · rw [hquiet]
    refine ⟨ht.writable, fun hlegible => ?_⟩
    have hbefore : h.Legible := fun k hk => hlegible k (hkept.trans hk)
    exact (ht.selected hbefore).trans hkept.symm
  · rw [hquiet]
    exact ⟨ht.writable, fun hlegible => absurd hlegible hlong⟩
  · rw [hremark]
    refine ⟨fun k hk => ?_, fun _ => hselected.symm⟩
    cases remark with
    | chosen j =>
        obtain rfl : j = k := Option.some.inj hk
        exact hwritable j rfl
    | gone j => cases hk

end History

/-! ### Runs -/

namespace Session

/-- A call that only looks logs nothing but warnings. -/
theorem level_of_mem_step {s : Session} {c : Command} (hact : s.act c = .look) {e : Event}
    (he : e ∈ (s.step c).events) : e.level = .warning := by
  cases c with
  | view v =>
      simp only [step] at he
      split at he
      · exact Row.level_of_mem_render he
      · cases he
  | views =>
      obtain ⟨row, -, hrow⟩ := Logged.mem_each_events he
      exact Row.level_of_mem_render hrow
  | renderHeld i =>
      simp only [step] at he
      split at he
      · exact Row.level_of_mem_render he
      · cases he
  | clickHeld i =>
      simp only [step] at he
      split at he
      · rename_i row hrow
        simp only [act, hrow] at hact
        cases hact
      · cases he
  | records | selected | get v | hold => cases he
  | select v | click v | press row | replace rs | setLimit l => cases hact

/-- A step that does something logs what its act does. -/
theorem step_events {s : Session} {c : Command} (hact : s.act c ≠ .look) :
    (s.step c).events = s.history.logOf (s.act c) := by
  cases c with
  | click v => simp only [step, carry, act, History.logOf, History.click_eq]
  | clickHeld i =>
      simp only [step, act] at hact ⊢
      cases hrow : s.heldRow? i with
      | none => rfl
      | some row => rfl
  | select v | press row | replace rs | setLimit l => rfl
  | records | selected | get v | view v | views | hold | renderHeld i => exact absurd rfl hact

/-- What a call says about the selection is what its act says. -/
theorem remarks_step (s : Session) (c : Command) :
    remarks (s.step c).events = remarks (s.history.logOf (s.act c)) := by
  by_cases hact : s.act c = .look
  · rw [remarks_of_warnings fun _ he => level_of_mem_step hact he, hact]
    rfl
  · rw [step_events hact]

/-- The events of a run in two parts are those of one part and then of the other. -/
theorem runEvents_append (s : Session) (cs ds : List Command) :
    s.runEvents (cs ++ ds) = s.runEvents cs ++ (s.run cs).runEvents ds := by
  induction cs generalizing s with
  | nil => rfl
  | cons c cs ih =>
      have hrun : s.run (c :: cs) = (s.step c).session.run cs := rfl
      rw [List.cons_append, runEvents, runEvents, ih, List.append_assoc, hrun]

/-- **A run.**  What it logs is told with what was told before. -/
theorem told_run {s : Session} {told : Option Nat} (ht : s.history.Told told)
    (cs : List Command) : (s.run cs).history.Told (follow told (remarks (s.runEvents cs))) := by
  induction cs generalizing s told with
  | nil => exact ht
  | cons c cs ih =>
      have hstep := ht.after (s.act c)
      rw [← step_history, ← remarks_step] at hstep
      rw [runEvents, remarks_append, follow_append]
      exact ih hstep

/-! ### What one call logs -/

/-- A choice logs that it has been made, and nothing else. -/
theorem events_of_chooses {s : Session} {c : Command} {k : Nat} (hc : s.Chooses c k) :
    (s.step c).events = [.selected k] := by
  obtain ⟨hact, hk, r, hget, rfl⟩ := exists_get_of_chooses hc
  have hlook : s.act c ≠ .look := by
    rw [hact]
    nofun
  rw [step_events hlook, hact, History.logOf, History.select_of_get_ok hget hk]

/-- A replacement that drops the selection logs this, and nothing else. -/
theorem events_of_dropped {s : Session} {rs : List Record} {k : Nat}
    (hbefore : s.history.selected = some k)
    (hafter : (s.step (.replace rs)).session.history.selected = none) :
    (s.step (.replace rs)).events = [.selectionGone k] := by
  have hnone : (s.history.replace rs).history.selected = none := hafter
  rcases s.history.replace_cases rs with ⟨-, hkept⟩ | ⟨j, hj, hgone⟩
  · rw [hkept, hbefore] at hnone
    cases hnone
  · obtain rfl : k = j := Option.some.inj (hbefore.symm.trans hj)
    exact congrArg Outcome.events hgone

/-- A step that neither chooses nor drops a selection says nothing about it. -/
theorem remarks_of_other {s : Session} {c : Command} (hno : ∀ k, ¬ s.Chooses c k)
    (hkept : ∀ rs, c = .replace rs →
      (s.step c).session.history.selected = s.history.selected) :
    remarks (s.step c).events = [] := by
  rw [remarks_step]
  cases hact : s.act c with
  | look => rfl
  | bound limit => rfl
  | choose v =>
      rcases get_of_not_chooses hno hact with ⟨f, hget⟩ | ⟨r, hget, hr⟩
      · rw [History.logOf, History.select_of_get_error hget]
        rfl
      · rw [History.logOf, History.select_of_unwritable hget hr]
        rfl
  | refill rs =>
      obtain rfl := act_eq_refill hact
      have hsame : (s.history.replace rs).history.selected = s.history.selected := hkept rs rfl
      rcases s.history.replace_cases rs with ⟨hquiet, -⟩ | ⟨k, hk, hgone⟩
      · rw [History.logOf, hquiet]
        rfl
      · rw [hgone, hk] at hsame
        cases hsame

/-- A failed step says nothing about the selection. -/
theorem remarks_of_failed {s : Session} {c : Command} {f : Fault}
    (hfailed : (s.step c).answer = .error f) : remarks (s.step c).events = [] := by
  refine remarks_of_other (fun k hc => ?_) fun rs hc => ?_
  · obtain ⟨-, a, ha⟩ := hc
    rw [hfailed] at ha
    cases ha
  · subst hc
    rcases s.history.replace_cases rs with ⟨-, hkept⟩ | ⟨k, -, hgone⟩
    · exact hkept
    · rw [step, carry, hgone] at hfailed
      cases hfailed

/-- **The log traces the selection that can be written.**  Nothing is said about the selection while
a history is built or loaded.  After any beginning of any run of calls on a history that has been
built, what has been logged so far is the beginning of what the whole run logs; read in order, from
no selection on, it gives the selection at that point exactly when nothing is selected there or what
is can be written, which is so throughout when the versions of all records that ever come in can.
From any state, a selection that succeeds logs one line, with the version that it selects; a
`replace` that drops the selected version logs one line, with the version that was selected until
then; and every other call, in particular every call that fails, logs nothing about the
selection. -/
theorem log_traces_selection {h : History} (hb : h.Built) (cs : List Command) :
    (∀ before later, cs = before ++ later →
      let told := follow none (remarks ((Session.start h).runEvents before))
      let now := ((Session.start h).run before).history
      (Session.start h).runEvents cs
        = (Session.start h).runEvents before ++ ((Session.start h).run before).runEvents later ∧
      (told = now.selected ↔ ∀ k, now.selected = some k → k < 10 ^ Numeral.digitLimit) ∧
      ((∀ r ∈ h.records, r.key < 10 ^ Numeral.digitLimit) →
        (∀ rs, .replace rs ∈ cs → ∀ r ∈ rs, r.key < 10 ^ Numeral.digitLimit) →
        told = now.selected)) ∧
    (∀ room v limit, remarks (History.ofPayload room v limit).events = []) ∧
    (∀ room bytes path limit, remarks (History.ofSnapshot room bytes path limit).events = []) ∧
    (∀ (s : Session) (c : Command) (k : Nat), s.Chooses c k →
      (s.step c).events.map Event.line = ["INFO: Selected config version " ++ toString k] ∧
      remarks (s.step c).events = [.chosen k]) ∧
    (∀ (s : Session) (rs : List Record) (k : Nat), s.history.selected = some k →
      (s.step (.replace rs)).session.history.selected = none →
      (s.step (.replace rs)).events.map Event.line
        = ["INFO: Selected config version " ++ toString k ++ " is gone, clearing selection"] ∧
      remarks (s.step (.replace rs)).events = [.gone k]) ∧
    (∀ (s : Session) (c : Command), (∀ k, ¬ s.Chooses c k) →
      (∀ rs, c = .replace rs → (s.step c).session.history.selected = s.history.selected) →
      remarks (s.step c).events = []) ∧
    ∀ (s : Session) (c : Command) (f : Fault), (s.step c).answer = .error f →
      remarks (s.step c).events = [] := by
  have hnone : (Session.start h).history.selected = none := hb.sound.2
  have hstart : (Session.start h).history.Told none := ⟨nofun, fun _ => hnone.symm⟩
  simp only [← Numeral.writable_natCast]
  refine ⟨?_, remarks_ofPayload, remarks_ofSnapshot, fun s c k hc => ?_,
    fun s rs k hbefore hafter => ?_, fun s c hno hkept => remarks_of_other hno hkept,
    fun s c f hfailed => remarks_of_failed hfailed⟩
  · rintro before later rfl
    have htold := told_run hstart before
    refine ⟨runEvents_append _ before later, htold.eq_selected_iff, fun hrecords hcs => ?_⟩
    refine htold.selected (legible_run (fun k hk => ?_) hrecords fun rs hrs => ?_)
    · rw [hnone] at hk
      cases hk
    · exact hcs rs (List.mem_append_left later hrs)
  · rw [events_of_chooses hc, remarks_selected]
    exact ⟨rfl, rfl⟩
  · rw [events_of_dropped hbefore hafter, remarks_selectionGone]
    exact ⟨rfl, rfl⟩

/-- The least version that cannot be written is selected, and the log says nothing of it. -/
theorem selection_not_logged :
    let version : Nat := 10 ^ Numeral.digitLimit
    let h : History := ⟨[⟨some version, none, none⟩], none, none⟩
    let cs : List Command := [.select version]
    h.Built ∧ ((Session.start h).run cs).history.selected = some version ∧
      (Session.start h).runEvents cs = [] ∧
      follow none (remarks ((Session.start h).runEvents cs)) = none := by
  intro version h cs
  obtain ⟨hb, hselect⟩ := select_unwritable Numeral.not_writable_limit
  have hevents : (Session.start h).runEvents cs = [] := by
    rw [runEvents, hselect]
    rfl
  refine ⟨hb, ?_, hevents, ?_⟩
  · have hrun : (Session.start h).run cs = ((Session.start h).step (.select version)).session := rfl
    rw [hrun, hselect]
  · rw [hevents]
    rfl

/-- Key zero is selected by a click, cut off by a limit set in between, and not to be selected by
the row that was kept of it; the calls that fail are not in the log. -/
theorem log_traces_selection_of_cut :
    let old : Record := ⟨none, none, none⟩
    let new : Record := ⟨some 7, some (Text.of "ann"), none⟩
    let h : History := ⟨[new, old], some 2, none⟩
    let first : List Command := [.hold, .select 9, .click 0]
    let second : List Command := [.setLimit (some 1), .replace [old, new], .clickHeld 1]
    h.Built ∧
      ((Session.start h).runEvents (first ++ second)).map Event.line
        = ["INFO: Selected config version 0",
          "INFO: Selected config version 0 is gone, clearing selection"] ∧
      follow none (remarks ((Session.start h).runEvents first)) = some 0 ∧
      follow none (remarks ((Session.start h).runEvents (first ++ second))) = none := by
  intro old new h first second
  have hvalid : ∀ r ∈ [old, new], r.Validated := by
    intro r hr
    simp only [List.mem_cons, List.not_mem_nil, or_false] at hr
    rcases hr with rfl | rfl <;> exact Record.validated_iff.mpr nofun
  have hbuild : History.build [old, new] (some 2) = .ok h := rfl
  have hb : h.Built := .ofRecords hvalid hbuild
  obtain ⟨hrun, -⟩ := log_traces_selection hb (first ++ second)
  obtain ⟨-, hselected, -⟩ := hrun first second rfl
  obtain ⟨-, hdropped, -⟩ := hrun (first ++ second) [] (List.append_nil _).symm
  have hlines : ((Session.start h).runEvents (first ++ second)).map Event.line
      = ["INFO: Selected config version 0",
        "INFO: Selected config version 0 is gone, clearing selection"] := by decide +kernel
  have hzero : ((Session.start h).run first).history.selected = some 0 := by decide +kernel
  have hnone : ((Session.start h).run (first ++ second)).history.selected = none := by
    decide +kernel
  refine ⟨hb, hlines, (hselected.mpr fun k hk => ?_).trans hzero,
    (hdropped.mpr fun k hk => ?_).trans hnone⟩
  · rw [hzero] at hk
    cases hk
    exact Numeral.lt_limit (by decide)
  · rw [hnone] at hk
    cases hk

end Session

end ConfigPanel
