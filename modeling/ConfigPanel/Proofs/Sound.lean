import ConfigPanel.Proofs.Runs

/-!
# Session — what holds after every call

`History.Sound` is the invariant of a history: its keys descend, the selected one is among them, as
many records are on show as the limit let through when they were stored, and each is a validated
one.  The limit may have been changed since; `Session.listLimit` follows the one that counts along a
run.  Nothing is said of a selected key that cannot be written: it is not cleared when its record
goes.

* `Sound.after`: every act keeps it, also one that fails.
* `run_sound`: after any run of calls the history is sound, and `selected` gives the one record of
  the selected key.
* `stored_date_kept`: records with a date are stored as they are.
-/

namespace ConfigPanel

namespace History

/-- What holds of a history that shows records stored under a limit. -/
structure Sound (under : Option Int) (h : History) : Prop where
  descending : Descending h.records
  selected : ∀ k, h.selected = some k → Numeral.Writable k → ∃ r ∈ h.records, r.key = k
  within : ∀ n, under = some n → 0 ≤ n → (h.records.length : Int) ≤ n
  validated : ∀ r ∈ h.records, r.Validated

/-- An act that shows records shows validated ones. -/
def Act.Valid : Act → Prop
  | .refill rs => ∀ r ∈ rs, r.Validated
  | _          => True

/-- The limit under which the records on show are stored after an act. -/
def Act.under (h : History) (under : Option Int) : Act → Option Int
  | .refill _ => h.limit
  | _         => under

/-! ### Stored records -/

/-- No more is stored than the limit lets through. -/
theorem length_stored_le {n : Int} (hn : 0 ≤ n) (rs : List Record) :
    ((stored (some n) rs).length : Int) ≤ n := by
  simp only [stored, cut, if_pos hn]
  have := List.length_take_le n.toNat (newestFirst rs)
  omega

/-- Only records that are given are stored. -/
theorem mem_of_mem_stored {limit : Option Int} {r : Record} {rs : List Record}
    (hr : r ∈ stored limit rs) : r ∈ rs := by
  obtain ⟨⟨before, after, rfl, -⟩, -⟩ := mem_stored_iff.mp hr
  exact List.mem_append_right _ (List.mem_cons_self ..)

/-- Stored records make a sound history with any selection of theirs. -/
theorem sound_stored {limit : Option Int} {rs : List Record} (hrs : ∀ r ∈ rs, r.Validated)
    {k? : Option Nat}
    (hk : ∀ k, k? = some k → Numeral.Writable k → ∃ r ∈ stored limit rs, r.key = k) :
    Sound limit ⟨stored limit rs, limit, k?⟩ where
  descending := stored_pairwise limit rs
  selected := hk
  within n hn hpos := by
    obtain rfl : limit = some n := hn
    exact length_stored_le hpos rs
  validated r hr := hrs r (mem_of_mem_stored hr)

theorem hasKey_iff {rs : List Record} {k : Nat} : hasKey rs k = true ↔ ∃ r ∈ rs, r.key = k := by
  simp [hasKey]

/-! ### Acts -/

/-- Selecting keeps a history sound. -/
theorem Sound.select {under : Option Int} {h : History} (hs : h.Sound under) (v : Int) :
    (h.select v).history.Sound under := by
  cases hget : h.get v with
  | error f => rw [select_of_get_error hget]; exact hs
  | ok r =>
      rw [select_history_of_get_ok hget]
      refine ⟨hs.descending, fun k hk _ => ?_, hs.within, hs.validated⟩
      obtain rfl : r.key = k := Option.some.inj hk
      exact ⟨r, (get_eq_ok hget).1, rfl⟩

/-- A replacement leaves a sound history, whatever was there before. -/
theorem sound_replace (h : History) {rs : List Record} (hrs : ∀ r ∈ rs, r.Validated) :
    (h.replace rs).history.Sound h.limit := by
  simp only [replace]
  split
  · exact sound_stored hrs (by simp)
  · rename_i k _
    split
    · rename_i hkey
      refine sound_stored hrs fun j hj _ => ?_
      obtain rfl : k = j := Option.some.inj hj
      exact hasKey_iff.mp hkey
    · split
      · exact sound_stored hrs (by simp)
      · rename_i hlong
        refine sound_stored hrs fun j hj hshort => ?_
        obtain rfl : k = j := Option.some.inj hj
        exact absurd hshort hlong

/-- **Every act keeps a history sound.** -/
theorem Sound.after {under : Option Int} {h : History} (hs : h.Sound under) {a : Act}
    (ha : a.Valid) : (h.after a).Sound (a.under h under) := by
  cases a with
  | look => exact hs
  | choose v => exact hs.select v
  | refill rs => exact sound_replace h ha
  | bound limit => exact ⟨hs.descending, hs.selected, hs.within, hs.validated⟩

/-- A history that has been made is sound, with nothing selected. -/
theorem Built.sound {h : History} (hb : h.Built) : h.Sound h.limit ∧ h.selected = none := by
  obtain ⟨rs, limit, hrs, hbuild⟩ := hb.exists_build
  obtain ⟨-, rfl⟩ := build_eq_ok_iff.mp hbuild
  exact ⟨sound_stored hrs (by simp), rfl⟩

/-! ### The selected record -/

/-- In a list in descending order a key stands once. -/
theorem filter_key_eq_singleton {rs : List Record} (h : Descending rs) {r : Record} (hr : r ∈ rs) :
    rs.filter (fun x => x.key == r.key) = [r] := by
  induction rs with
  | nil => cases hr
  | cons x xs ih =>
      obtain ⟨hx, hxs⟩ := List.pairwise_cons.mp h
      rcases List.mem_cons.mp hr with rfl | hr
      · have hnone : xs.filter (fun x => x.key == r.key) = [] :=
          List.filter_eq_nil_iff.mpr fun b hb => by simpa using Nat.ne_of_lt (hx b hb)
        rw [List.filter_cons_of_pos (by simp), hnone]
      · have hne : x.key ≠ r.key := Nat.ne_of_gt (hx r hr)
        rw [List.filter_cons_of_neg (by simpa using hne), ih hxs hr]

/-- A stored record is found under its key. -/
theorem get_key {h : History} (hd : Descending h.records) {r : Record} (hr : r ∈ h.records) :
    h.get r.key = .ok r := by
  have hfind : h.find? r.key = some r := by
    rw [find?, ← List.head?_filter]
    simp only [Int.natCast_inj, beq_eq_decide]
    have := filter_key_eq_singleton hd hr
    simp only [beq_eq_decide] at this
    rw [this]
    rfl
  rw [get, hfind]

/-- What is selected and can be written is the key of one record. -/
theorem Sound.selected_cases {under : Option Int} {h : History} (hs : h.Sound under)
    (hshort : ∀ k, h.selected = some k → Numeral.Writable k) :
    h.selected = none ∨
      ∃ x, h.selected = some x.key ∧ h.records.filter (fun y => y.key == x.key) = [x] := by
  cases hselected : h.selected with
  | none => exact .inl rfl
  | some k =>
      obtain ⟨x, hx, rfl⟩ := hs.selected k hselected (hshort k hselected)
      exact .inr ⟨x, rfl, filter_key_eq_singleton hs.descending hx⟩

/-- A selection that can be written is that of exactly one stored record, which is found. -/
theorem Sound.current {under : Option Int} {h : History} (hs : h.Sound under) {k : Nat}
    (hk : h.selected = some k) (hshort : Numeral.Writable k) :
    ∃ r, h.records.filter (fun x => x.key == k) = [r] ∧ h.current = .ok (some r) := by
  obtain ⟨r, hr, rfl⟩ := hs.selected k hk hshort
  refine ⟨r, filter_key_eq_singleton hs.descending hr, ?_⟩
  rw [History.current, hk]
  simp only [get_key hs.descending hr]
  rfl

/-- Without a selection no record is selected. -/
theorem current_of_none {h : History} (hk : h.selected = none) : h.current = .ok none := by
  rw [History.current, hk]

end History

namespace Session

/-- The limit under which the records on show are stored after a run of calls: the one in force at
the last `replace`, or `under` when there is none. -/
def listLimit (s : Session) (under : Option Int) : List Command → Option Int
  | []                => under
  | .replace rs :: cs => (s.step (.replace rs)).session.listLimit s.history.limit cs
  | c :: cs           => (s.step c).session.listLimit under cs

/-- After a step, the limit of the list is what its act leaves. -/
theorem listLimit_cons (s : Session) (under : Option Int) (c : Command) (cs : List Command) :
    s.listLimit under (c :: cs)
      = (s.step c).session.listLimit ((s.act c).under s.history under) cs := by
  cases c with
  | clickHeld i =>
      simp only [listLimit, act]
      cases s.heldRow? i <;> rfl
  | records | selected | get v | view v | views | select v | click v | press row | hold
  | renderHeld i | replace rs | setLimit l => rfl

theorem act_valid (s : Session) {c : Command}
    (hc : ∀ rs, c = .replace rs → ∀ r ∈ rs, r.Validated) : (s.act c).Valid := by
  cases hact : s.act c with
  | refill rs => exact hc rs (act_eq_refill hact)
  | look => trivial
  | choose v => trivial
  | bound limit => trivial

/-- A run of calls keeps the history of a session sound. -/
theorem sound_run {s : Session} {under : Option Int} (hs : s.history.Sound under)
    {cs : List Command} (hcs : ∀ rs, .replace rs ∈ cs → ∀ r ∈ rs, r.Validated) :
    (s.run cs).history.Sound (s.listLimit under cs) := by
  induction cs generalizing s under with
  | nil => exact hs
  | cons c cs ih =>
      have hstep := hs.after (s.act_valid fun rs hc => hcs rs (hc ▸ List.mem_cons_self ..))
      rw [← step_history] at hstep
      rw [listLimit_cons]
      exact ih hstep fun rs hrs => hcs rs (List.mem_cons_of_mem _ hrs)

/-- **What holds after every call.**  Whatever is called on a history that has been built, in any
order: its keys are strictly descending; `selected` gives nothing when nothing is selected, and when
a key that can be written is, it gives the one stored record that has it; a limit that was in force
when the list on show came in bounds its length; and every stored record passes validation as it is,
with a date that is absent or within range. -/
theorem run_sound {h : History} (hb : h.Built) {cs : List Command}
    (hcs : ∀ rs, .replace rs ∈ cs → ∀ r ∈ rs, r.Validated) :
    let now := ((Session.start h).run cs).history
    History.Descending now.records ∧
    (now.selected = none → now.current = .ok none) ∧
    (∀ k, now.selected = some k → k < 10 ^ Numeral.digitLimit →
      ∃ r, now.records.filter (fun x => x.key == k) = [r] ∧ now.current = .ok (some r)) ∧
    (∀ n, (Session.start h).listLimit h.limit cs = some n → 0 ≤ n →
      (now.records.length : Int) ≤ n) ∧
    ∀ r ∈ now.records, (∀ room, Record.ofValue room r.toValue = .quiet (.ok r)) ∧
      ∀ d, r.date = some d → d ≤ Timestamp.lastSecond := by
  intro now
  have hs : now.Sound ((Session.start h).listLimit h.limit cs) := sound_run hb.sound.1 hcs
  refine ⟨hs.descending, History.current_of_none, ?_, hs.within, fun r hr => ?_⟩
  · exact fun k hk hshort => hs.current hk (Numeral.writable_natCast.mpr hshort)
  · exact ⟨(hs.validated r hr).ofValue_toValue, fun d hd => (hs.validated r hr).date_le hd⟩

/-- The selected record, which has no version, is cut off by a limit set in between; its row, kept
from before, then selects nothing. -/
theorem run_sound_of_cut :
    let old : Record := ⟨none, none, none⟩
    let new : Record := ⟨some 7, some (Text.of "ann"), some Timestamp.lastSecond⟩
    let cs : List Command :=
      [.hold, .select 0, .setLimit (some 1), .replace [old, new], .clickHeld 1]
    let now := ((Session.start ⟨[new, old], some 2, none⟩).run cs).history
    History.build [old, new] (some 2) = .ok ⟨[new, old], some 2, none⟩ ∧
    (∀ rs, .replace rs ∈ cs → ∀ r ∈ rs, r.Validated) ∧
    now.records = [new] ∧ now.selected = none ∧ now.current = .ok none ∧
    (now.records.length : Int) ≤ 1 := by
  intro old new cs now
  have hvalid : ∀ r ∈ [old, new], r.Validated := by
    intro r hr
    refine Record.validated_iff.mpr fun d hd => ?_
    rcases List.mem_cons.mp hr with rfl | hr
    · cases hd
    · obtain rfl := List.mem_singleton.mp hr
      cases hd
      exact Nat.le_refl _
  have hcs : ∀ rs, .replace rs ∈ cs → ∀ r ∈ rs, r.Validated := by
    intro rs hrs
    have hrs' : rs = [old, new] := by simpa [cs] using hrs
    exact hrs' ▸ hvalid
  have hbuild : History.build [old, new] (some 2) = .ok ⟨[new, old], some 2, none⟩ := rfl
  have hrecords : now.records = [new] := by decide +kernel
  have hselected : now.selected = none := by decide +kernel
  have hlimit : (Session.start ⟨[new, old], some 2, none⟩).listLimit (some 2) cs = some 1 := by
    decide +kernel
  have hsound := run_sound (.ofRecords hvalid hbuild) hcs
  exact ⟨hbuild, hcs, hrecords, hselected, hsound.2.1 hselected,
    hsound.2.2.2.1 1 hlimit (by decide)⟩

/-- A stored record has the date that it was given. -/
theorem stored_date_kept :
    (Record.ofValue 990 (.record [("version", .int 1), ("date", .int 1700000000)])).result
      = .ok ⟨some 1, none, some 1700000000⟩ ∧
    History.build [⟨some 1, none, some 1700000000⟩] none
      = .ok ⟨[⟨some 1, none, some 1700000000⟩], none, none⟩ ∧
    ∃ r ∈ ((Session.start ⟨[⟨some 1, none, some 1700000000⟩], none, none⟩).run
      [.records]).history.records, r.date ≠ none :=
  ⟨rfl, rfl, _, List.mem_singleton_self _, by simp⟩

end Session

end ConfigPanel
