import ConfigPanel.History
import Mathlib.Data.Finset.Card

/-!
# History — what a list leaves on show

`newestFirst` and `cut` say step by step how a list becomes what a history shows of it.  Here the
result is told by its members:

* `mem_newestFirst_iff`: in the ordered list stand the records that are the last of their key.
* `mem_take_iff`: a record is among the first `n` of a list in descending order exactly when fewer
  than `n` keys are greater than its own; `countP_split` counts the smaller ones from the other end.
* `mem_stored_iff`: both together, for every limit (`Leaves`), where only different keys count.
* `replace_stores`: what `replace` and a new history show, whatever was shown before.
-/

namespace ConfigPanel

/-- The record is the last one of a list that has its key. -/
def Record.LastIn (r : Record) (rs : List Record) : Prop :=
  ∃ before after, rs = before ++ r :: after ∧ ∀ x ∈ after, x.key ≠ r.key

/-- The different keys of a list. -/
def Record.keys (rs : List Record) : Finset Nat := (rs.map Record.key).toFinset

namespace History

/-- The keys are strictly descending. -/
abbrev Descending (rs : List Record) : Prop := rs.Pairwise fun a b => b.key < a.key

/-- Whether a limit leaves the place of a key among others: fewer than the limit are greater, or,
when the limit is negative, at least that many are smaller. -/
def Leaves (limit : Option Int) (keys : Finset Nat) (k : Nat) : Prop :=
  match limit with
  | none   => True
  | some n =>
      if 0 ≤ n then ((keys.filter fun j => k < j).card : Int) < n
      else -n ≤ ((keys.filter fun j => j < k).card : Int)

/-! ### The last of each key -/

/-- A record comes last with its key when it is the last of all, or when it did before and the last
of all has another key. -/
theorem lastIn_append_singleton {r x : Record} {rs : List Record} :
    r.LastIn (rs ++ [x]) ↔ r = x ∨ r.LastIn rs ∧ r.key ≠ x.key := by
  refine ⟨?_, ?_⟩
  · rintro ⟨before, after, heq, hafter⟩
    rcases List.eq_nil_or_concat after with rfl | ⟨after', y, rfl⟩
    · obtain ⟨-, hx⟩ := List.append_inj' heq rfl
      exact .inl (List.singleton_inj.mp hx).symm
    · rw [List.concat_eq_append, ← List.cons_append, ← List.append_assoc] at heq
      obtain ⟨hrs, hy⟩ := List.append_inj' heq rfl
      obtain rfl : x = y := List.singleton_inj.mp hy
      refine .inr ⟨⟨before, after', hrs, fun z hz => hafter z (by simp [hz])⟩, ?_⟩
      exact (hafter x (by simp)).symm
  · rintro (rfl | ⟨⟨before, after, rfl, hafter⟩, hne⟩)
    · exact ⟨rs, [], rfl, by simp⟩
    · refine ⟨before, after ++ [x], by simp, fun z hz => ?_⟩
      rcases List.mem_append.mp hz with hz | hz
      · exact hafter z hz
      · obtain rfl : z = x := List.mem_singleton.mp hz
        exact hne.symm

/-- The last record is inserted after all others. -/
theorem newestFirst_append_singleton (rs : List Record) (x : Record) :
    newestFirst (rs ++ [x]) = insert x (newestFirst rs) := by
  simp [newestFirst]

/-- Of the records with one key, the last is kept. -/
theorem mem_newestFirst_iff {r : Record} {rs : List Record} :
    r ∈ newestFirst rs ↔ r.LastIn rs := by
  -- the list is read from its front, so the induction takes records off its end
  induction rs using List.reverseRecOn with
  | nil => simp [newestFirst, Record.LastIn]
  | append_singleton rs x ih =>
      rw [newestFirst_append_singleton, mem_insert (newestFirst_pairwise rs), ih,
        lastIn_append_singleton]

/-- No key is lost. -/
theorem keys_newestFirst (rs : List Record) : Record.keys (newestFirst rs) = Record.keys rs := by
  induction rs using List.reverseRecOn with
  | nil => rfl
  | append_singleton rs x ih =>
      ext k
      have hk : k ∈ Record.keys (newestFirst rs) ↔ k ∈ Record.keys rs := by rw [ih]
      simp only [Record.keys, List.mem_toFinset, List.mem_map] at hk ⊢
      rw [newestFirst_append_singleton]
      simp only [mem_insert (newestFirst_pairwise rs), List.mem_append, List.mem_singleton]
      refine ⟨?_, ?_⟩
      · rintro ⟨a, rfl | ⟨ha, -⟩, rfl⟩
        · exact ⟨a, .inr rfl, rfl⟩
        · obtain ⟨b, hb, hab⟩ := hk.mp ⟨a, ha, rfl⟩
          exact ⟨b, .inl hb, hab⟩
      · rintro ⟨a, ha | rfl, rfl⟩
        · obtain ⟨b, hb, hba⟩ := hk.mpr ⟨a, ha, rfl⟩
          by_cases hx : b.key = x.key
          · exact ⟨x, .inl rfl, by rw [← hx, hba]⟩
          · exact ⟨b, .inr ⟨hb, hx⟩, hba⟩
        · exact ⟨a, .inl rfl, rfl⟩

/-! ### The place of a key -/

/-- No record behind the first of a list in descending order has a greater key. -/
theorem countP_greater_eq_zero {x : Record} {xs : List Record} (hx : ∀ b ∈ xs, b.key < x.key) :
    xs.countP (fun b => x.key < b.key) = 0 := by
  refine List.countP_eq_zero.mpr fun b hb => ?_
  simpa using (hx b hb).le

/-- Of records in order, the first so many are those with fewer than so many greater keys. -/
theorem mem_take_iff {xs : List Record} (h : Descending xs) {r : Record} {n : Nat} :
    r ∈ xs.take n ↔ r ∈ xs ∧ xs.countP (fun x => r.key < x.key) < n := by
  induction xs generalizing n with
  | nil => simp
  | cons x xs ih =>
      obtain ⟨hx, hxs⟩ := List.pairwise_cons.mp h
      cases n with
      | zero => simp
      | succ n =>
          rw [List.take_succ_cons, List.mem_cons, List.mem_cons, ih hxs, List.countP_cons]
          refine ⟨?_, ?_⟩
          · rintro (rfl | ⟨hr, hlt⟩)
            · exact ⟨.inl rfl, by simp [countP_greater_eq_zero hx]⟩
            · exact ⟨.inr hr, by split <;> omega⟩
          · rintro ⟨rfl | hr, hlt⟩
            · exact .inl rfl
            · have hgreater : r.key < x.key := hx r hr
              simp only [hgreater, decide_true, if_true] at hlt
              exact .inr ⟨hr, by omega⟩

/-- In a list in descending order stand the greater keys, the key itself, and the smaller ones. -/
theorem countP_split {xs : List Record} (h : Descending xs) {r : Record} (hr : r ∈ xs) :
    xs.countP (fun x => r.key < x.key) + 1 + xs.countP (fun x => x.key < r.key) = xs.length := by
  induction xs with
  | nil => cases hr
  | cons x xs ih =>
      obtain ⟨hx, hxs⟩ := List.pairwise_cons.mp h
      rw [List.countP_cons, List.countP_cons, List.length_cons]
      rcases List.mem_cons.mp hr with rfl | hr
      · have hall : xs.countP (fun x => x.key < r.key) = xs.length :=
          List.countP_eq_length.mpr fun b hb => by simpa using hx b hb
        simp [countP_greater_eq_zero hx, hall]
        omega
      · have hgreater : r.key < x.key := hx r hr
        have := ih hxs hr
        simp only [hgreater, decide_true, if_true, Nat.not_lt.mpr hgreater.le, decide_false,
          Bool.false_eq_true, if_false]
        omega

/-- In a list in descending order no key comes twice. -/
theorem nodup_keys {xs : List Record} (h : Descending xs) : (xs.map Record.key).Nodup :=
  List.pairwise_map.mpr (h.imp fun hab => Nat.ne_of_gt hab)

/-- Counting records of a list in descending order is counting its keys. -/
theorem countP_eq_card {xs : List Record} (h : Descending xs) (p : Nat → Prop) [DecidablePred p] :
    xs.countP (fun x => p x.key) = ((Record.keys xs).filter p).card := by
  have hkeys : (Record.keys xs).filter p = ((xs.map Record.key).filter p).toFinset := by
    ext k
    simp [Record.keys]
  rw [hkeys, List.toFinset_card_of_nodup ((nodup_keys h).filter _), ← List.countP_eq_length_filter,
    List.countP_map]
  rfl

/-! ### What is stored -/

/-- What is stored are the records that come last with their keys, as far as the limit leaves their
keys. -/
theorem mem_stored_iff {limit : Option Int} {r : Record} {rs : List Record} :
    r ∈ stored limit rs ↔ r.LastIn rs ∧ Leaves limit (Record.keys rs) r.key := by
  have hdesc : Descending (newestFirst rs) := newestFirst_pairwise rs
  have hgreater : (newestFirst rs).countP (fun x => r.key < x.key)
      = ((Record.keys rs).filter fun j => r.key < j).card := by
    rw [countP_eq_card hdesc fun j => r.key < j, keys_newestFirst]
  have hsmaller : (newestFirst rs).countP (fun x => x.key < r.key)
      = ((Record.keys rs).filter fun j => j < r.key).card := by
    rw [countP_eq_card hdesc fun j => j < r.key, keys_newestFirst]
  cases limit with
  | none => simp [stored, cut, Leaves, mem_newestFirst_iff]
  | some n =>
      simp only [stored, cut, Leaves]
      split
      · rw [mem_take_iff hdesc, mem_newestFirst_iff, hgreater]
        refine and_congr_right fun _ => ?_
        omega
      · rw [mem_take_iff hdesc, mem_newestFirst_iff]
        refine and_congr_right fun hr => ?_
        have := countP_split hdesc (mem_newestFirst_iff.mpr hr)
        omega

/-- A key that comes twice takes one place, and the last record of it stands there. -/
example :
    stored (some 2) [⟨some 5, none, none⟩, ⟨none, none, none⟩, ⟨some 3, none, none⟩,
      ⟨some 5, some (Text.of "eve"), none⟩]
      = [⟨some 5, some (Text.of "eve"), none⟩, ⟨some 3, none, none⟩] := by decide

/-! ### Lists that are in order -/

/-- A record whose key is less than all others comes last. -/
theorem insert_of_forall_lt {x : Record} {xs : List Record} (h : ∀ a ∈ xs, x.key < a.key) :
    insert x xs = xs ++ [x] := by
  induction xs with
  | nil => rfl
  | cons a xs ih =>
      obtain ⟨ha, hxs⟩ := List.forall_mem_cons.mp h
      rw [insert, if_neg (by omega), if_neg (by omega), ih hxs, List.cons_append]

/-- Records in order are kept as they are. -/
theorem newestFirst_of_descending {rs : List Record} (h : Descending rs) : newestFirst rs = rs := by
  induction rs using List.reverseRecOn with
  | nil => rfl
  | append_singleton rs x ih =>
      obtain ⟨hrs, -, hx⟩ := List.pairwise_append.mp h
      rw [newestFirst_append_singleton, ih hrs]
      exact insert_of_forall_lt fun a ha => hx a ha x (List.mem_singleton_self x)

/-- A list in order stays as it is under a limit that has room for it. -/
theorem stored_of_descending {limit : Option Int} {rs : List Record} (h : Descending rs)
    (hroom : ∀ n, limit = some n → (rs.length : Int) ≤ n) : stored limit rs = rs := by
  rw [stored, newestFirst_of_descending h]
  cases limit with
  | none => rfl
  | some n =>
      have hle := hroom n rfl
      rw [cut, if_pos (by omega)]
      exact List.take_of_length_le (by omega)

/-! ### Histories -/

/-- A replacement stores its records under the limit that the history has. -/
theorem replace_records (h : History) (rs : List Record) :
    (h.replace rs).history.records = stored h.limit rs := by
  simp only [replace]
  split
  · rfl
  · split
    · rfl
    · split <;> rfl

/-- A history is made under any limit that is not negative, with nothing selected. -/
theorem build_eq_ok_iff {rs : List Record} {limit : Option Int} {h : History} :
    build rs limit = .ok h ↔
      (∀ n, limit = some n → 0 ≤ n) ∧ h = ⟨stored limit rs, limit, none⟩ := by
  cases limit with
  | none => simp [build, eq_comm]
  | some n =>
      simp only [build, Option.some.injEq, forall_eq']
      split
      · refine ⟨nofun, fun ⟨hn, _⟩ => ?_⟩
        omega
      · rw [Except.ok.injEq]
        exact ⟨fun h => ⟨by omega, h.symm⟩, fun h => h.2.symm⟩

theorem build_natCast (rs : List Record) (limit : Option Nat) :
    build rs (limit.map Int.ofNat)
      = .ok ⟨stored (limit.map Int.ofNat) rs, limit.map Int.ofNat, none⟩ := by
  refine build_eq_ok_iff.mpr ⟨fun n hn => ?_, rfl⟩
  obtain ⟨m, -, rfl⟩ := Option.map_eq_some_iff.mp hn
  exact Int.natCast_nonneg m

/-- **What a list leaves on show.**  After `replace` the history shows the records that are the
last of their key in the list and whose place the limit leaves, in strictly descending order; what
it showed before, and what was selected, make no difference.  A new history shows the same. -/
theorem replace_stores (h : History) (rs : List Record) :
    (∀ r, r ∈ (h.replace rs).history.records ↔
      r.LastIn rs ∧ Leaves h.limit (Record.keys rs) r.key) ∧
    Descending (h.replace rs).history.records ∧
    (∀ shown selected, ((⟨shown, h.limit, selected⟩ : History).replace rs).history.records
      = (h.replace rs).history.records) ∧
    ∀ limit : Option Nat, ∃ new, build rs (limit.map Int.ofNat) = .ok new ∧
      Descending new.records ∧
      ∀ r, r ∈ new.records ↔ r.LastIn rs ∧ Leaves (limit.map Int.ofNat) (Record.keys rs) r.key := by
  refine ⟨fun r => ?_, ?_, fun shown selected => ?_, fun limit => ?_⟩
  · rw [replace_records]
    exact mem_stored_iff
  · rw [replace_records]
    exact stored_pairwise _ _
  · rw [replace_records, replace_records]
  · exact ⟨_, build_natCast rs limit, stored_pairwise _ _, fun r => mem_stored_iff⟩

end History

end ConfigPanel
