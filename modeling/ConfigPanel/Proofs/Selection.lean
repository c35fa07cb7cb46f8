import ConfigPanel.Proofs.Sound

/-!
# Session — the selection over a run

What is selected after a run of calls is read off the run: it is what the last selection was of, if
every later `replace` left it on show, and otherwise nothing.  Only calls that succeed count as
selections (`Chooses`), and what they are of is the version that they name, by itself or by a row.

A call can fail and yet select: it names a version on show that cannot be written.  Then that
version is selected, whatever the run says, and it stays so until another one is, since no `replace`
clears it (`replace_of_unwritable`).  As long as nothing of the kind is selected, the run tells the
selection.

* `step_selected_of_writable`, `step_holds`: what one call does to the selection.
* `run_selected_of_writable`, `run_holds`: what a run does to it, from any selection at its start.
* `selected_iff_lastChosen`: the selection of a history that was built, after any run, and when it
  is what the run says; nothing but selections and `replace` changes it, and what a `replace`
  dropped stays dropped until it is selected again.
-/

namespace ConfigPanel

namespace History

/-- A list on show keeps the selection that has a record in it and clears any other that can be
written. -/
theorem replace_selected_iff {h : History} {rs : List Record} {k : Nat}
    (hk : Numeral.Writable k) :
    (h.replace rs).history.selected = some k ↔
      h.selected = some k ∧ ∃ r ∈ (h.replace rs).history.records, r.key = k := by
  rw [replace_records, ← hasKey_iff]
  simp only [replace]
  cases hsel : h.selected with
  | none => simp
  | some j =>
      by_cases hkey : hasKey (stored h.limit rs) j = true
      · simp only [hkey, if_true, Option.some.injEq]
        refine ⟨fun hk => ?_, fun hk => hk.1⟩
        obtain rfl : j = k := hk
        exact ⟨rfl, hkey⟩
      · by_cases hj : Numeral.Writable j
        · simp only [hkey, if_pos hj, Option.some.injEq]
          refine ⟨fun hk => ?_, ?_⟩
          · cases hk
          · rintro ⟨rfl, hk⟩
            exact absurd hk hkey
        · simp only [hkey, if_neg hj, Option.some.injEq]
          refine ⟨fun hjk => ?_, ?_⟩
          · obtain rfl : j = k := Option.some.inj hjk
            exact absurd hk hj
          · rintro ⟨rfl, hk⟩
            exact absurd hk hkey

/-- A selected key that cannot be written stays selected, whatever is shown. -/
theorem replace_of_unwritable {h : History} {rs : List Record} {k : Nat}
    (hsel : h.selected = some k) (hk : ¬ Numeral.Writable k) :
    (h.replace rs).history.selected = some k := by
  simp only [replace, hsel, if_neg hk]
  split <;> rfl

/-- What is selected, if anything is, can be written. -/
def Legible (h : History) : Prop := ∀ k, h.selected = some k → Numeral.Writable k

theorem legible_iff {h : History} :
    h.Legible ↔ ∀ k, h.selected = some k → k < 10 ^ Numeral.digitLimit := by
  simp only [Legible, Numeral.writable_natCast]

end History

namespace Session

/-- The call selects the key: it names it, and it does not fail. -/
def Chooses (s : Session) (c : Command) (k : Nat) : Prop :=
  s.act c = .choose k ∧ ∃ a, (s.step c).answer = .ok a

/-- Nothing is selected in the run, and each `replace` in it leaves a record of the key on show. -/
def Keeps (s : Session) (k : Nat) : List Command → Prop
  | []      => True
  | c :: cs =>
      (∀ j, ¬ s.Chooses c j) ∧
      (∀ rs, c = .replace rs → ∃ r ∈ (s.step c).session.history.records, r.key = k) ∧
      (s.step c).session.Keeps k cs

/-- The last selection in the run is of the key, and no `replace` after it drops the key. -/
def LastChosen (s : Session) (cs : List Command) (k : Nat) : Prop :=
  ∃ before c after, cs = before ++ c :: after ∧ (s.run before).Chooses c k ∧
    ((s.run before).step c).session.Keeps k after

/-- The key is selected, or one that cannot be written is. -/
def Holds (s : Session) (k : Nat) : Prop :=
  s.history.selected = some k ∨ ¬ s.history.Legible

/-! ### One call -/

/-- A call that names a version selects it exactly when it is on show and can be written. -/
theorem chooses_iff {s : Session} {c : Command} {k : Nat} :
    s.Chooses c k ↔
      s.act c = .choose k ∧ (∃ r ∈ s.history.records, r.key = k) ∧ Numeral.Writable k := by
  refine and_congr_right fun hact => ?_
  rw [step_succeeds_iff hact]
  simp only [Int.natCast_inj]

/-- What is chosen is stored and can be written. -/
theorem exists_get_of_chooses {s : Session} {c : Command} {k : Nat} (hc : s.Chooses c k) :
    s.act c = .choose k ∧ Numeral.Writable k ∧ ∃ r, s.history.get k = .ok r ∧ r.key = k := by
  obtain ⟨hact, hr, hk⟩ := chooses_iff.mp hc
  obtain ⟨r, hget, -, hkey⟩ := History.exists_get hr
  exact ⟨hact, hk, r, hget, hkey⟩

/-- A call that names a version and is no successful selection finds no record of it, or one whose
version cannot be written. -/
theorem get_of_not_chooses {s : Session} {c : Command} {v : Int} (hno : ∀ k, ¬ s.Chooses c k)
    (hact : s.act c = .choose v) :
    (∃ f, s.history.get v = .error f) ∨
      ∃ r, s.history.get v = .ok r ∧ ¬ Numeral.Writable r.key := by
  cases hget : s.history.get v with
  | error f => exact .inl ⟨f, rfl⟩
  | ok r =>
      obtain ⟨hr, rfl⟩ := History.get_eq_ok hget
      exact .inr ⟨r, rfl, fun hk => hno r.key (chooses_iff.mpr ⟨hact, ⟨r, hr, rfl⟩, hk⟩)⟩

/-- A call that is no successful selection and no `replace` leaves the selection alone, unless it
names a version on show that cannot be written. -/
theorem step_selected_of_not_chooses {s : Session} {c : Command} (hno : ∀ k, ¬ s.Chooses c k)
    (hlist : ∀ rs, c ≠ .replace rs) :
    (s.step c).session.history.selected = s.history.selected ∨
      ∃ r ∈ s.history.records, s.act c = .choose r.key ∧ ¬ Numeral.Writable r.key ∧
        (s.step c).session.history.selected = some r.key := by
  rw [step_history]
  cases hact : s.act c with
  | look => exact .inl rfl
  | bound limit => exact .inl rfl
  | refill rs => exact absurd (act_eq_refill hact) (hlist rs)
  | choose v =>
      rcases get_of_not_chooses hno hact with ⟨f, hget⟩ | ⟨r, hget, hr⟩
      · rw [History.after, History.select_of_get_error hget]
        exact .inl rfl
      · obtain ⟨hmem, rfl⟩ := History.get_eq_ok hget
        refine .inr ⟨r, hmem, rfl, hr, ?_⟩
        rw [History.after, History.select_of_unwritable hget hr]

/-- A choice is what is selected next. -/
theorem step_selected_of_chooses {s : Session} {c : Command} {k : Nat} (hc : s.Chooses c k) :
    (s.step c).session.history.selected = some k := by
  obtain ⟨hact, -, r, hget, hkey⟩ := exists_get_of_chooses hc
  rw [step_history, hact, History.after, History.select_history_of_get_ok hget, hkey]

/-- When a key that can be written is selected after a call, the call has selected it, or it was
selected before and the call is no selection and leaves it on show. -/
theorem step_selected_of_writable {s : Session} {c : Command} {k : Nat}
    (hsel : (s.step c).session.history.selected = some k) (hk : Numeral.Writable k) :
    s.Chooses c k ∨ s.history.selected = some k ∧ (∀ j, ¬ s.Chooses c j) ∧
      ∀ rs, c = .replace rs → ∃ r ∈ (s.step c).session.history.records, r.key = k := by
  by_cases hyes : ∃ j, s.Chooses c j
  · obtain ⟨j, hj⟩ := hyes
    rw [step_selected_of_chooses hj] at hsel
    exact .inl (Option.some.inj hsel ▸ hj)
  · have hno : ∀ j, ¬ s.Chooses c j := fun j hj => hyes ⟨j, hj⟩
    by_cases hlist : ∃ rs, c = .replace rs
    · obtain ⟨rs, rfl⟩ := hlist
      obtain ⟨hbefore, hr⟩ := (History.replace_selected_iff hk).mp hsel
      exact .inr ⟨hbefore, hno, fun _ _ => hr⟩
    · have hother : ∀ rs, c ≠ .replace rs := fun rs hc => hlist ⟨rs, hc⟩
      rcases step_selected_of_not_chooses hno hother with hsame | ⟨r, -, -, hr, hchosen⟩
      · rw [hsame] at hsel
        exact .inr ⟨hsel, hno, fun rs hc => absurd hc (hother rs)⟩
      · rw [hchosen] at hsel
        obtain rfl := Option.some.inj hsel
        exact absurd hk hr

/-- A call that is no selection and leaves a key on show leaves it selected, unless something that
cannot be written is selected after it. -/
theorem step_holds {s : Session} {c : Command} {k : Nat} (hs : s.Holds k)
    (hno : ∀ j, ¬ s.Chooses c j)
    (hshown : ∀ rs, c = .replace rs → ∃ r ∈ (s.step c).session.history.records, r.key = k) :
    (s.step c).session.Holds k := by
  refine or_iff_not_imp_right.mpr fun hlegible => ?_
  replace hlegible := not_not.mp hlegible
  -- what is selected after the call was selected before it, or else cannot be written
  have hbefore : s.history.Legible := fun j hj => by
    by_contra hlong
    by_cases hlist : ∃ rs, c = .replace rs
    · obtain ⟨rs, rfl⟩ := hlist
      exact hlong (hlegible j (History.replace_of_unwritable hj hlong))
    · rcases step_selected_of_not_chooses hno fun rs hc => hlist ⟨rs, hc⟩ with
        hsame | ⟨r, -, -, hr, hchosen⟩
      · exact hlong (hlegible j (hsame ▸ hj))
      · exact hr (hlegible r.key hchosen)
  have hsel : s.history.selected = some k := hs.resolve_right (not_not_intro hbefore)
  by_cases hlist : ∃ rs, c = .replace rs
  · obtain ⟨rs, rfl⟩ := hlist
    exact (History.replace_selected_iff (hbefore k hsel)).mpr ⟨hsel, hshown rs rfl⟩
  · rcases step_selected_of_not_chooses hno fun rs hc => hlist ⟨rs, hc⟩ with
      hsame | ⟨r, -, -, hr, hchosen⟩
    · rw [hsame, hsel]
    · exact absurd (hlegible r.key hchosen) hr

/-! ### Runs -/

/-- The last choice of a run is its first step, if the rest keeps it, or the last choice of the
rest. -/
theorem lastChosen_cons_iff {s : Session} {c : Command} {cs : List Command} {k : Nat} :
    s.LastChosen (c :: cs) k ↔
      (s.Chooses c k ∧ (s.step c).session.Keeps k cs) ∨ (s.step c).session.LastChosen cs k := by
  constructor
  · rintro ⟨before, d, after, heq, hd, hkeeps⟩
    cases before with
    | nil =>
        obtain ⟨rfl, rfl⟩ := List.cons.inj heq
        exact .inl ⟨hd, hkeeps⟩
    | cons b before =>
        obtain ⟨rfl, rfl⟩ := List.cons.inj heq
        exact .inr ⟨before, d, after, rfl, hd, hkeeps⟩
  · rintro (⟨hc, hkeeps⟩ | ⟨before, d, after, rfl, hd, hkeeps⟩)
    · exact ⟨[], c, cs, rfl, hc, hkeeps⟩
    · exact ⟨c :: before, d, after, rfl, hd, hkeeps⟩

/-- When a key that can be written is selected after a run, the run says so, or it was selected
before and the run keeps it. -/
theorem run_selected_of_writable {s : Session} {cs : List Command} {k : Nat}
    (hsel : (s.run cs).history.selected = some k) (hk : Numeral.Writable k) :
    s.LastChosen cs k ∨ s.history.selected = some k ∧ s.Keeps k cs := by
  induction cs generalizing s with
  | nil => exact .inr ⟨hsel, trivial⟩
  | cons c cs ih =>
      rcases ih (s := (s.step c).session) hsel with hlast | ⟨hstep, hkeeps⟩
      · exact .inl (lastChosen_cons_iff.mpr (.inr hlast))
      · rcases step_selected_of_writable hstep hk with hc | ⟨hbefore, hno, hshown⟩
        · exact .inl (lastChosen_cons_iff.mpr (.inl ⟨hc, hkeeps⟩))
        · exact .inr ⟨hbefore, hno, hshown, hkeeps⟩

/-- What holds a selection holds it through a run that keeps it. -/
theorem run_holds {s : Session} {cs : List Command} {k : Nat} (hs : s.Holds k)
    (hkeeps : s.Keeps k cs) : (s.run cs).Holds k := by
  induction cs generalizing s with
  | nil => exact hs
  | cons c cs ih =>
      obtain ⟨hno, hshown, hrest⟩ := hkeeps
      exact ih (step_holds hs hno hshown) hrest

/-- What the run says is selected, unless something that cannot be written is. -/
theorem holds_of_lastChosen {s : Session} {cs : List Command} {k : Nat}
    (h : s.LastChosen cs k) : (s.run cs).Holds k := by
  obtain ⟨before, c, after, rfl, hc, hkeeps⟩ := h
  have hrun : s.run (before ++ c :: after) = (((s.run before).step c).session).run after := by
    rw [run_append]
    rfl
  rw [hrun]
  exact run_holds (.inl (step_selected_of_chooses hc)) hkeeps

/-- Only versions that can be written are chosen last. -/
theorem writable_of_lastChosen {s : Session} {cs : List Command} {k : Nat}
    (h : s.LastChosen cs k) : Numeral.Writable k := by
  obtain ⟨before, c, after, -, hc, -⟩ := h
  exact (chooses_iff.mp hc).2.2

/-- From no selection on, the run tells the selection exactly when what is selected in the end can
be written. -/
theorem run_selected_iff {s : Session} {cs : List Command} (hs : s.history.selected = none) :
    (∀ k, (s.run cs).history.selected = some k ↔ s.LastChosen cs k) ↔
      (s.run cs).history.Legible := by
  constructor
  · intro h k hk
    exact writable_of_lastChosen ((h k).mp hk)
  · intro hlegible k
    refine ⟨fun hk => ?_, fun hk => ?_⟩
    · rcases run_selected_of_writable hk (hlegible k hk) with hlast | ⟨hbefore, -⟩
      · exact hlast
      · rw [hs] at hbefore
        cases hbefore
    · exact (holds_of_lastChosen hk).resolve_right (not_not_intro hlegible)

/-- A key that can be written and that a `replace` leaves without a record is not selected again but
by a selection. -/
theorem chosen_again_of_dropped {s : Session} {rs : List Record} {cs : List Command} {k : Nat}
    (hgone : ∀ r ∈ (s.step (.replace rs)).session.history.records, r.key ≠ k)
    (hsel : (s.run (.replace rs :: cs)).history.selected = some k) (hk : Numeral.Writable k) :
    (s.step (.replace rs)).session.LastChosen cs k := by
  rcases run_selected_of_writable (s := (s.step (.replace rs)).session) hsel hk with
    hlast | ⟨hstep, -⟩
  · exact hlast
  · obtain ⟨-, r, hr, hkey⟩ := (History.replace_selected_iff hk).mp hstep
    exact absurd hkey (hgone r hr)

/-! ### Versions that can be written -/

/-- Replacing the records keeps the selection or clears it. -/
theorem legible_replace {h : History} (hs : h.Legible) (rs : List Record) :
    (h.replace rs).history.Legible := by
  intro k hk
  cases hsel : h.selected with
  | none => simp [History.replace, hsel] at hk
  | some j =>
      have hj := hs j hsel
      by_contra hlong
      simp only [History.replace, hsel] at hk
      split at hk
      · exact hlong (Option.some.inj hk ▸ hj)
      · cases hk

/-- When the keys on show and those that come in can be written, so can the selection and the keys
that are on show after an act. -/
theorem legible_after {h : History} (hs : h.Legible)
    (hshown : ∀ r ∈ h.records, Numeral.Writable r.key) {a : History.Act}
    (ha : ∀ rs, a = .refill rs → ∀ r ∈ rs, Numeral.Writable r.key) :
    (h.after a).Legible ∧ ∀ r ∈ (h.after a).records, Numeral.Writable r.key := by
  cases a with
  | look => exact ⟨hs, hshown⟩
  | bound limit => exact ⟨hs, hshown⟩
  | choose v =>
      cases hget : h.get v with
      | error f =>
          rw [History.after, History.select_of_get_error hget]
          exact ⟨hs, hshown⟩
      | ok r =>
          rw [History.after, History.select_history_of_get_ok hget]
          refine ⟨fun k hk => ?_, hshown⟩
          obtain rfl : r.key = k := Option.some.inj hk
          exact hshown r (History.get_eq_ok hget).1
  | refill rs =>
      refine ⟨legible_replace hs rs, fun r hr => ?_⟩
      rw [History.after, History.replace_records] at hr
      exact ha rs rfl r (History.mem_of_mem_stored hr)

/-- A selection and the keys on show that can be written stay so through a run, as long as all that
come in can. -/
theorem legible_run {s : Session} {cs : List Command} (hs : s.history.Legible)
    (hshown : ∀ r ∈ s.history.records, Numeral.Writable r.key)
    (hcs : ∀ rs, .replace rs ∈ cs → ∀ r ∈ rs, Numeral.Writable r.key) :
    (s.run cs).history.Legible := by
  induction cs generalizing s with
  | nil => exact hs
  | cons c cs ih =>
      have hstep := legible_after hs hshown (a := s.act c) fun rs hact =>
        hcs rs (act_eq_refill hact ▸ List.mem_cons_self ..)
      rw [← step_history] at hstep
      exact ih hstep.1 hstep.2 fun rs hrs => hcs rs (List.mem_cons_of_mem _ hrs)

/-- **The selection is what the run says.**  After any run of calls on a history that has been
built, what is selected is what the run says exactly when it can be written: a key is then selected
exactly when the last selection was of it and every later `replace` left it on show, and nothing is
selected otherwise.  It always can be written when the versions of all records that ever come in
can.  A call that names a version selects it successfully in every state that shows it, if it can be
written.  From any state, a call that is no selection that succeeds and no `replace` changes nothing
about the selection, unless it names a version on show that cannot be written: it fails, and the
version is selected.  A key that can be written and that a `replace` dropped is selected later only
if it has been selected anew; one that cannot be written is not dropped. -/
theorem selected_iff_lastChosen {h : History} (hb : h.Built) (cs : List Command) :
    let now := ((Session.start h).run cs).history
    ((∀ k, now.selected = some k ↔ (Session.start h).LastChosen cs k) ↔
      ∀ k, now.selected = some k → k < 10 ^ Numeral.digitLimit) ∧
    ((∀ k, now.selected = some k → k < 10 ^ Numeral.digitLimit) →
      (now.selected = none ↔ ∀ k, ¬ (Session.start h).LastChosen cs k)) ∧
    ((∀ r ∈ h.records, r.key < 10 ^ Numeral.digitLimit) →
      (∀ rs, .replace rs ∈ cs → ∀ r ∈ rs, r.key < 10 ^ Numeral.digitLimit) →
      ∀ k, now.selected = some k → k < 10 ^ Numeral.digitLimit) ∧
    (∀ (s : Session) (c : Command) (k : Nat), s.Chooses c k ↔
      s.act c = .choose k ∧ (∃ r ∈ s.history.records, r.key = k) ∧ k < 10 ^ Numeral.digitLimit) ∧
    (∀ (s : Session) (c : Command), (∀ k, ¬ s.Chooses c k) → (∀ rs, c ≠ .replace rs) →
      (s.step c).session.history.selected = s.history.selected ∨
      ∃ r ∈ s.history.records, s.act c = .choose r.key ∧ ¬ r.key < 10 ^ Numeral.digitLimit ∧
        (s.step c).session.history.selected = some r.key) ∧
    (∀ (s : Session) (rs : List Record) (later : List Command) (k : Nat),
      (∀ r ∈ (s.step (.replace rs)).session.history.records, r.key ≠ k) →
      (s.run (.replace rs :: later)).history.selected = some k → k < 10 ^ Numeral.digitLimit →
      (s.step (.replace rs)).session.LastChosen later k) ∧
    ∀ (s : Session) (rs : List Record) (k : Nat), s.history.selected = some k →
      ¬ k < 10 ^ Numeral.digitLimit →
      (s.step (.replace rs)).session.history.selected = some k := by
  intro now
  have hnone : (Session.start h).history.selected = none := hb.sound.2
  simp only [← Numeral.writable_natCast]
  refine ⟨run_selected_iff hnone, fun hlegible => ?_, fun hrecords hcs => ?_,
    fun s c k => chooses_iff, fun s c hno hlist => step_selected_of_not_chooses hno hlist,
    fun s rs later k hgone hsel hk => chosen_again_of_dropped hgone hsel hk,
    fun s rs k hsel hk => ?_⟩
  · have hiff := (run_selected_iff hnone).mpr hlegible
    refine ⟨fun hsel k hk => ?_, fun hno => Option.eq_none_iff_forall_ne_some.mpr fun k hk =>
      hno k ((hiff k).mp hk)⟩
    rw [(hiff k).mpr hk] at hsel
    cases hsel
  · refine legible_run (fun k hk => ?_) hrecords hcs
    rw [hnone] at hk
    cases hk
  · exact History.replace_of_unwritable hsel hk

/-- A version that cannot be written is selected by a call that fails and logs nothing. -/
theorem select_unwritable {k : Nat} (hk : ¬ Numeral.Writable k) :
    let long : Record := ⟨some k, none, none⟩
    let h : History := ⟨[long], none, none⟩
    h.Built ∧ (Session.start h).step (.select k)
      = ⟨.error (.unwritable .tooLong), ⟨⟨[long], none, some k⟩, []⟩, []⟩ := by
  intro long h
  have hlong : long.Validated := Record.validated_iff.mpr nofun
  have hb : h.Built := .ofRecords (fun r hr => List.mem_singleton.mp hr ▸ hlong)
    (show History.build [long] none = .ok h from rfl)
  have hget : h.get long.key = .ok long :=
    History.get_key (List.pairwise_singleton _ _) (List.mem_singleton_self long)
  have hselect : h.select k
      = ⟨.error (.unwritable .tooLong), ⟨[long], none, some k⟩, []⟩ :=
    History.select_of_unwritable hget hk
  refine ⟨hb, ?_⟩
  rw [step, carry]
  simp only [start, hselect]
  rfl

/-- The least version that cannot be written, selected by a call that fails and left behind when its
record goes. -/
theorem selection_left_behind :
    let version : Nat := 10 ^ Numeral.digitLimit
    let h : History := ⟨[⟨some version, none, none⟩], none, none⟩
    let cs : List Command := [.select version, .replace []]
    h.Built ∧ ((Session.start h).run cs).history = ⟨[], none, some version⟩ ∧
      ∀ k, ¬ (Session.start h).LastChosen cs k := by
  obtain ⟨version, hversion, hlong⟩ := Numeral.exists_not_writable
  rw [hversion]
  intro _ h cs
  obtain ⟨hb, hselect⟩ := select_unwritable hlong
  refine ⟨hb, ?_, fun k hk => ?_⟩
  · have hrun : (Session.start h).run cs
        = (((Session.start h).step (.select version)).session.step (.replace [])).session := rfl
    rw [hrun, hselect]
    simp only [step, carry, History.replace, if_neg hlong]
    rfl
  · obtain ⟨before, c, after, heq, hc, -⟩ := hk
    obtain ⟨hact, -, hshort⟩ := chooses_iff.mp hc
    cases before with
    | nil =>
        obtain ⟨rfl, -⟩ := List.cons.inj heq
        obtain rfl : version = k := Int.ofNat_inj.mp (History.Act.choose.inj hact)
        exact hlong hshort
    | cons first before =>
        obtain ⟨-, heq⟩ := List.cons.inj heq
        cases before with
        | nil =>
            obtain ⟨rfl, -⟩ := List.cons.inj heq
            cases hact
        | cons second before =>
            obtain ⟨-, heq⟩ := List.cons.inj heq
            cases before <;> cases heq

/-- Key zero, first of a record without a version and then of one with version zero. -/
theorem selected_zero_iff_lastChosen :
    let plain : Record := ⟨none, none, none⟩
    let zero : Record := ⟨some 0, some (Text.of "zoe"), none⟩
    let h : History := ⟨[plain], none, none⟩
    let cs : List Command := [.click 0, .select 9, .setLimit (some 1), .replace [zero], .get 3]
    h.Built ∧ ((Session.start h).run cs).history.selected = some 0 ∧
      (Session.start h).LastChosen cs 0 := by
  intro plain zero h cs
  have hbuild : History.build [plain] none = .ok h := rfl
  have hplain : plain.Validated := Record.validated_iff.mpr nofun
  have hb : h.Built := .ofRecords (fun r hr => List.mem_singleton.mp hr ▸ hplain) hbuild
  have hsel : ((Session.start h).run cs).history.selected = some 0 := by decide +kernel
  obtain ⟨hiff, -⟩ := selected_iff_lastChosen hb cs
  refine ⟨hb, hsel, (hiff.mpr (fun k hk => ?_) 0).mp hsel⟩
  rw [hsel] at hk
  cases hk
  exact Numeral.lt_limit (by decide)

end Session

end ConfigPanel
