import ConfigPanel.Proofs.Selection
import Mathlib.Data.List.Sort

/-!
# History — lists that come in parts

What `replace` leaves out of a list, a limit or a later record of the same key has left out, and
neither can bring it back when more records follow.  A record that the limit cuts has as many
greater keys before it as the limit allows, and these are stored; whatever comes in later pushes it
further back, unless it has the same key and takes its place.

* `take_insert_take`: cutting before a record comes in changes nothing about what is left after it;
  `take_foldl_insert_take` says the same of a list of records.
* `stored_stored_append`: what is stored of a list and more records is what is stored of both lists.
* `Sound.replace_perm`: a list that shows what is on show already, in any order, changes nothing.
* `refresh_in_parts`: both, for histories under a limit that stays.
-/

namespace ConfigPanel

namespace History

/-! ### Cutting before and after -/

/-- A record that is cut off stays cut off, whatever comes in. -/
theorem take_insert_take (n : Nat) (r : Record) (xs : List Record) :
    (insert r (xs.take n)).take n = (insert r xs).take n := by
  induction xs generalizing n with
  | nil => rw [List.take_nil]
  | cons x xs ih =>
      cases n with
      | zero => rfl
      | succ n =>
          rw [List.take_succ_cons, insert, insert]
          split
          · -- the record comes to the front, and one more is cut off behind it
            have hbehind : (x :: xs.take n).take n = (x :: xs).take n := by
              rw [← List.take_succ_cons, List.take_take, Nat.min_eq_left (Nat.le_succ n)]
            rw [List.take_succ_cons, List.take_succ_cons, hbehind]
          · split
            · rw [List.take_succ_cons, List.take_succ_cons, List.take_take, Nat.min_self]
            · rw [List.take_succ_cons, List.take_succ_cons, ih]

/-- What has been cut off before does not come back among the first so many. -/
theorem take_foldl_insert_take (n : Nat) (rs xs : List Record) :
    (rs.foldl (fun xs r => insert r xs) (xs.take n)).take n
      = (rs.foldl (fun xs r => insert r xs) xs).take n := by
  induction rs generalizing xs with
  | nil => rw [List.foldl_nil, List.foldl_nil, List.take_take, Nat.min_self]
  | cons r rs ih =>
      rw [List.foldl_cons, List.foldl_cons, ← ih (insert r (xs.take n)), take_insert_take, ih]

theorem newestFirst_append (xs ys : List Record) :
    newestFirst (xs ++ ys) = ys.foldl (fun xs r => insert r xs) (newestFirst xs) :=
  List.foldl_append

/-- **Storing in parts.**  What was left out of the first list is not missed when the second one
follows. -/
theorem stored_stored_append {limit : Option Int} (hlimit : ∀ n, limit = some n → 0 ≤ n)
    (xs ys : List Record) : stored limit (stored limit xs ++ ys) = stored limit (xs ++ ys) := by
  have hordered : newestFirst (stored limit xs) = stored limit xs :=
    newestFirst_of_descending (stored_pairwise limit xs)
  have hparts : stored limit (stored limit xs ++ ys)
      = cut limit (ys.foldl (fun xs r => insert r xs) (stored limit xs)) := by
    rw [stored, newestFirst_append, hordered]
  rw [hparts, stored, stored, newestFirst_append]
  cases limit with
  | none => rfl
  | some n =>
      simp only [cut, if_pos (hlimit n rfl)]
      exact take_foldl_insert_take n.toNat ys (newestFirst xs)

/-! ### The same list again -/

/-- When no key comes twice, every record is the last of its key. -/
theorem lastIn_iff_mem {rs : List Record} (h : (rs.map Record.key).Nodup) {r : Record} :
    r.LastIn rs ↔ r ∈ rs := by
  constructor
  · rintro ⟨before, after, rfl, -⟩
    exact List.mem_append_right _ (List.mem_cons_self ..)
  · intro hr
    obtain ⟨before, after, rfl⟩ := List.append_of_mem hr
    refine ⟨before, after, rfl, fun x hx hkey => ?_⟩
    rw [List.map_append, List.map_cons] at h
    obtain ⟨hrest, -⟩ := List.nodup_cons.mp (List.nodup_append.mp h).2.1
    exact hrest (hkey ▸ List.mem_map_of_mem hx)

/-- A list in descending order is brought back into it from any other. -/
theorem newestFirst_of_perm {rs xs : List Record} (hperm : rs.Perm xs) (hd : Descending xs) :
    newestFirst rs = xs := by
  have hnodup : (rs.map Record.key).Nodup := (hperm.map _).nodup_iff.mpr (nodup_keys hd)
  refine (newestFirst_pairwise rs).eq_of_mem_iff hd fun r => ?_
  rw [mem_newestFirst_iff, lastIn_iff_mem hnodup, hperm.mem_iff]

/-- Records in order are stored as they are, in whatever order they come, when there is room for
them. -/
theorem stored_of_perm {limit : Option Int} {rs xs : List Record} (hperm : rs.Perm xs)
    (hd : Descending xs) (hroom : ∀ n, limit = some n → (xs.length : Int) ≤ n) :
    stored limit rs = xs := by
  have hstored : stored limit rs = stored limit xs := by
    rw [stored, stored, newestFirst_of_perm hperm hd, newestFirst_of_descending hd]
  rw [hstored, stored_of_descending hd hroom]

/-- A list that shows what is on show already changes nothing, and nothing is logged.  It fails only
when a version is selected that cannot be written and is not on show. -/
theorem Sound.replace_perm {h : History} (hs : h.Sound h.limit)
    (hlimit : ∀ n, h.limit = some n → 0 ≤ n) {rs : List Record} (hperm : rs.Perm h.records) :
    (h.replace rs).history = h ∧ (h.replace rs).events = [] ∧
      (h.Legible → (h.replace rs).answer = .ok ()) := by
  have hstored : stored h.limit rs = h.records :=
    stored_of_perm hperm hs.descending fun n hn => hs.within n hn (hlimit n hn)
  obtain ⟨records, limit, selected⟩ := h
  rw [replace, hstored]
  cases selected with
  | none => exact ⟨rfl, rfl, fun _ => rfl⟩
  | some k =>
      by_cases hkey : hasKey records k = true
      · simp [hkey]
      · have hlong : ¬ Numeral.Writable k := fun hk => hkey (hasKey_iff.mpr (hs.selected k rfl hk))
        simp only [hkey, if_neg hlong]
        exact ⟨rfl, rfl, fun hlegible => absurd (hlegible k rfl) hlong⟩

/-! ### A limit that stays -/

/-- No history is made under a negative limit. -/
theorem Built.limit_nonneg {h : History} (hb : h.Built) {n : Int} (hn : h.limit = some n) :
    0 ≤ n := by
  obtain ⟨rs, limit, -, hbuild⟩ := hb.exists_build
  obtain ⟨hnonneg, rfl⟩ := build_eq_ok_iff.mp hbuild
  exact hnonneg n hn

theorem limit_replace (h : History) (rs : List Record) :
    (h.replace rs).history.limit = h.limit := by
  simp only [replace]
  split
  · rfl
  · split
    · rfl
    · split <;> rfl

/-- Only setting another limit changes the limit. -/
theorem limit_after {h : History} {a : Act} (ha : ∀ limit, a = .bound limit → limit = h.limit) :
    (h.after a).limit = h.limit := by
  cases a with
  | look => rfl
  | bound limit => exact ha limit rfl
  | refill rs => exact h.limit_replace rs
  | choose v =>
      cases hget : h.get v with
      | error f => rw [after, select_of_get_error hget]; rfl
      | ok r => rw [after, select_history_of_get_ok hget]

end History

namespace Session

theorem act_eq_bound {s : Session} {c : Command} {limit : Option Int}
    (h : s.act c = .bound limit) : c = .setLimit limit := by
  cases c with
  | setLimit l => cases h; rfl
  | clickHeld i =>
      simp only [act] at h
      cases hrow : s.heldRow? i <;> rw [hrow] at h <;> cases h
  | records | selected | get v | view v | views | select v | click v | press row | hold
  | renderHeld i | replace rs => cases h

/-- A run that sets no other limit leaves the history sound under its limit. -/
theorem sound_run_of_limit {s : Session} (hs : s.history.Sound s.history.limit) {cs : List Command}
    (hcs : ∀ rs, .replace rs ∈ cs → ∀ r ∈ rs, r.Validated)
    (hlimit : ∀ l, .setLimit l ∈ cs → l = s.history.limit) :
    (s.run cs).history.limit = s.history.limit ∧
      (s.run cs).history.Sound s.history.limit := by
  induction cs generalizing s with
  | nil => exact ⟨rfl, hs⟩
  | cons c cs ih =>
      have hkept : (s.step c).session.history.limit = s.history.limit := by
        rw [step_history]
        exact History.limit_after fun l hl =>
          hlimit l (act_eq_bound hl ▸ List.mem_cons_self ..)
      have hstep : (s.step c).session.history.Sound s.history.limit := by
        have hafter := hs.after (s.act_valid fun rs hc => hcs rs (hc ▸ List.mem_cons_self ..))
        have hunder : (s.act c).under s.history s.history.limit = s.history.limit := by
          cases s.act c <;> rfl
        rwa [hunder, ← step_history] at hafter
      have hrest := ih (hkept ▸ hstep) (fun rs hrs => hcs rs (List.mem_cons_of_mem _ hrs))
        fun l hl => (hlimit l (List.mem_cons_of_mem _ hl)).trans hkept.symm
      rwa [hkept] at hrest

end Session

/-! ### Refreshing -/

namespace History

/-- **Refreshing in parts is refreshing at once.**  Let the limit be none, or not negative.  A
history that is given a list, and then what it shows of this list with a second one behind it, shows
in the end what it shows when it is given both lists at once, whatever it showed before.  And when
no call since a history was built has set another limit, then giving it the records on show, in any
order, changes nothing and logs nothing; and that succeeds, if what is selected can be written. -/
theorem refresh_in_parts :
    (∀ (h : History) (older newer : List Record), (∀ n, h.limit = some n → 0 ≤ n) →
      let first := (h.replace older).history
      (first.replace (first.records ++ newer)).history.records
        = (h.replace (older ++ newer)).history.records) ∧
    ∀ (h : History) (cs : List Command), h.Built →
      (∀ rs, .replace rs ∈ cs → ∀ r ∈ rs, r.Validated) →
      (∀ l, .setLimit l ∈ cs → l = h.limit) →
      let now := ((Session.start h).run cs).history
      ∀ rs, rs.Perm now.records →
        (now.replace rs).history = now ∧ (now.replace rs).events = [] ∧
        ((∀ k, now.selected = some k → k < 10 ^ Numeral.digitLimit) →
          (now.replace rs).answer = .ok ()) := by
  refine ⟨?_, ?_⟩
  · intro h older newer hlimit first
    have hfirst : first.limit = h.limit := h.limit_replace older
    rw [replace_records, replace_records, hfirst, replace_records]
    exact stored_stored_append hlimit older newer
  · intro h cs hb hcs hbound now rs hperm
    obtain ⟨hkept, hs⟩ := Session.sound_run_of_limit (s := Session.start h) hb.sound.1 hcs hbound
    have hlimit : now.limit = h.limit := hkept
    have hsound : now.Sound now.limit := hlimit ▸ hs
    obtain ⟨hsame, hquiet, hanswer⟩ :=
      hsound.replace_perm (fun n hn => hb.limit_nonneg (hlimit ▸ hn)) hperm
    exact ⟨hsame, hquiet, fun hshort => hanswer (legible_iff.mpr hshort)⟩

/-- A record is cut off by the first list, and one that stayed is replaced by the second; and the
records on show, turned around, change nothing while one of them is selected. -/
theorem refresh_in_parts_of_cut :
    let plain : Record := ⟨none, some (Text.of "ann"), none⟩
    let one : Record := ⟨some 1, none, none⟩
    let five : Record := ⟨some 5, none, none⟩
    let new : Record := ⟨some 5, some (Text.of "bob"), none⟩
    let h : History := ⟨[five, one], some 2, none⟩
    let first := (h.replace [plain, one, five]).history
    let now := ((Session.start h).run [.select 1, .setLimit (some 2)]).history
    first.records = [five, one] ∧
      (first.replace (first.records ++ [new])).history.records = [new, one] ∧
      (h.replace [plain, one, five, new]).history.records = [new, one] ∧
      h.Built ∧ now.selected = some 1 ∧ (now.replace [one, five]).history = now ∧
      (now.replace [one, five]).events = [] := by
  intro plain one five new h first now
  have hvalid : ∀ r ∈ [one, five], r.Validated := by
    intro r hr
    simp only [List.mem_cons, List.not_mem_nil, or_false] at hr
    rcases hr with rfl | rfl <;> exact Record.validated_iff.mpr nofun
  have hbuild : build [one, five] (some 2) = .ok h := by decide
  have hb : h.Built := .ofRecords hvalid hbuild
  obtain ⟨hparts, hagain⟩ := refresh_in_parts
  have honce : (h.replace [plain, one, five, new]).history.records = [new, one] := by decide
  have hlimit : ∀ n, h.limit = some n → 0 ≤ n := fun n hn => hb.limit_nonneg hn
  have hbound : ∀ l, .setLimit l ∈ [Command.select 1, .setLimit (some 2)] → l = h.limit := by
    intro l hl
    simpa using hl
  have hnow : now.records = [five, one] := by decide +kernel
  obtain ⟨hsame, hquiet, -⟩ := hagain h [.select 1, .setLimit (some 2)] hb (by simp) hbound
    [one, five] (hnow ▸ List.Perm.swap five one [])
  exact ⟨by decide, (hparts h [plain, one, five] [new] hlimit).trans honce, honce, hb,
    by decide +kernel, hsame, hquiet⟩

/-- Under a negative limit every list loses records again. -/
example :
    let one : Record := ⟨some 1, none, none⟩
    let two : Record := ⟨some 2, none, none⟩
    let h : History := ⟨[], some (-1), none⟩
    let first := (h.replace [one, two]).history
    first.records = [two] ∧ (first.replace first.records).history.records = [] := by decide

end History

end ConfigPanel
