import ConfigPanel.History.Snapshot
import ConfigPanel.Proofs.Entries
import ConfigPanel.Proofs.Numerals
import ConfigPanel.Proofs.Sound

/-!
# History — what a loaded history holds

A history that was loaded from a snapshot is sound, and there is a bound for its keys.  The reader
takes no number of more than `Numeral.digitLimit` digits, wherever in a value it stands, and no
brackets that are nested deeper than there is room for; so whatever it reads can be shown in the
same room (`Value.Fits`).  A version is such a number, or a truth value, or a double or a text, for
which there are bounds as well; and no date is nested too deep to be shown.

* `Json.fits_of_read`: what is read fits.
* `not_tooDeep_of_value`: no entry of a snapshot is nested too deep.
* `sound_of_snapshot`: a loaded history is sound.
* `key_lt_of_snapshot`: its keys can be written and read again.
-/

namespace ConfigPanel

/-! ### Values that can be shown -/

namespace Value

/-- The value can be shown where there is room for so many levels. -/
def Fits (room : Nat) (v : Value) : Prop := v.obstacle? room = none

variable {room : Nat}

theorem fits_null : Fits room .null := rfl

theorem fits_bool (b : Bool) : Fits room (.bool b) := rfl

theorem fits_float (d : Double) : Fits room (.float d) := rfl

theorem fits_text (t : Text) : Fits room (.text t) := rfl

theorem fits_int_iff {n : Int} : Fits room (.int n) ↔ Numeral.Writable n := by
  rw [Fits, obstacle?_int]
  split <;> simp_all

theorem fits_list_nil : Fits room (.list []) := by
  rw [Fits, obstacle?, itemsObstacle?]

theorem fits_object_nil : Fits room (.object []) := by
  rw [Fits, obstacle?, membersObstacle?]

theorem fits_list_iff {vs : List Value} :
    Fits (room + 1) (.list vs) ↔ ∀ v ∈ vs, v.Fits room := by
  rw [Fits, obstacle?]
  induction vs with
  | nil => simp [itemsObstacle?]
  | cons v vs ih => simp [itemsObstacle?, ih, Fits]

theorem fits_object_iff {ms : Members} :
    Fits (room + 1) (.object ms) ↔ ∀ m ∈ ms, m.2.Fits room := by
  rw [Fits, obstacle?]
  induction ms with
  | nil => simp [membersObstacle?]
  | cons m ms ih => simp [membersObstacle?, ih, Fits]

/-- More room does no harm. -/
theorem Fits.succ {v : Value} (h : v.Fits room) : v.Fits (room + 1) := by
  induction room generalizing v with
  | zero =>
      cases v with
      | list vs =>
          cases vs with
          | nil => exact fits_list_nil
          | cons v vs => rw [Fits, obstacle?, itemsObstacle?] at h; cases h
      | object ms =>
          cases ms with
          | nil => exact fits_object_nil
          | cons m ms => rw [Fits, obstacle?, membersObstacle?] at h; cases h
      | int n => exact fits_int_iff.mpr (fits_int_iff.mp h)
      | null => exact fits_null
      | bool b => exact fits_bool b
      | float d => exact fits_float d
      | text t => exact fits_text t
  | succ room ih =>
      cases v with
      | list vs => exact fits_list_iff.mpr fun v hv => ih (fits_list_iff.mp h v hv)
      | object ms => exact fits_object_iff.mpr fun m hm => ih (fits_object_iff.mp h m hm)
      | int n => exact fits_int_iff.mpr (fits_int_iff.mp h)
      | null => exact fits_null
      | bool b => exact fits_bool b
      | float d => exact fits_float d
      | text t => exact fits_text t

theorem Fits.of_mem_list {vs : List Value} (h : Fits room (.list vs)) {v : Value} (hv : v ∈ vs) :
    v.Fits room := by
  cases room with
  | zero =>
      cases vs with
      | nil => cases hv
      | cons w vs => rw [Fits, obstacle?, itemsObstacle?] at h; cases h
  | succ room => exact (fits_list_iff.mp h v hv).succ

theorem Fits.of_mem_object {ms : Members} (h : Fits room (.object ms)) {m : Text × Value}
    (hm : m ∈ ms) : m.2.Fits room := by
  cases room with
  | zero =>
      cases ms with
      | nil => cases hm
      | cons n ms => rw [Fits, obstacle?, membersObstacle?] at h; cases h
  | succ room => exact (fits_object_iff.mp h m hm).succ

end Value

/-! ### Members -/

namespace Members

variable {p : Value → Prop}

theorem forall_put {name : Text} {v : Value} {ms : Members} (hv : p v) (h : ∀ m ∈ ms, p m.2) :
    ∀ m ∈ put name v ms, p m.2 := by
  induction ms with
  | nil => exact List.forall_mem_singleton.mpr hv
  | cons m ms ih =>
      obtain ⟨hm, hms⟩ := List.forall_mem_cons.mp h
      rw [put]
      split
      · exact List.forall_mem_cons.mpr ⟨hv, hms⟩
      · exact List.forall_mem_cons.mpr ⟨hm, ih hms⟩

theorem forall_ofPairs {ps : List (Text × Value)} (h : ∀ m ∈ ps, p m.2) :
    ∀ m ∈ ofPairs ps, p m.2 := by
  -- members put so far
  have hfrom (ms : Members) (hms : ∀ m ∈ ms, p m.2) :
      ∀ m ∈ ps.foldl (fun ms q => put q.1 q.2 ms) ms, p m.2 := by
    induction ps generalizing ms with
    | nil => exact hms
    | cons q ps ih =>
        obtain ⟨hq, hps⟩ := List.forall_mem_cons.mp h
        exact ih hps _ (forall_put hq hms)
  exact hfrom [] (List.forall_mem_nil _)

theorem of_get? {name : Text} {v : Value} {ms : Members} (h : ∀ m ∈ ms, p m.2)
    (hget : get? name ms = some v) : p v := by
  induction ms with
  | nil => cases hget
  | cons m ms ih =>
      obtain ⟨hm, hms⟩ := List.forall_mem_cons.mp h
      rw [get?_cons] at hget
      split at hget
      · exact Option.some.inj hget ▸ hm
      · exact ih hms hget

end Members

/-! ### Readers -/

namespace Json

/-- Whatever the reader reads can be shown in the room. -/
def ReadsFitting (room : Nat) (item : Text → Reading Value) : Prop :=
  ∀ (t : Text) (r : Value × Text), item t = .ok r → r.1.Fits room

variable {room : Nat}

theorem map_eq_ok_iff {ε α β : Type} {f : α → β} {x : Except ε α} {b : β} :
    x.map f = .ok b ↔ ∃ a, x = .ok a ∧ f a = b := by
  cases x <;> simp [Except.map]

theorem digitsOf_lt {t : Text} : ∀ d ∈ digitsOf t, d < 10 := by
  intro d hd
  obtain ⟨p, -, hp⟩ := List.mem_filterMap.mp hd
  obtain ⟨c, -, hc⟩ := Option.bind_eq_some_iff.mp hp
  exact Text.asciiDigitValue?_lt hc

theorem integerOf_lt {t : Text} : ∀ d ∈ integerOf t, d < 10 := by
  rw [integerOf]
  split
  · exact List.forall_mem_singleton.mpr (by decide)
  · exact digitsOf_lt

/-- A number that is read can be shown. -/
theorem fits_readNumber : ReadsFitting room readNumber := by
  intro t r h
  unfold readNumber at h
  split at h
  rename_i negative u _
  simp only at h
  split at h
  · cases h
  · split at h
    -- with an exponent or a fraction it is a double, of whatever size
    · cases h
      exact Value.fits_float _
    · split at h
      · cases h
        exact Value.fits_float _
      · split at h
        · cases h
        · rename_i hle
          cases h
          refine Value.fits_int_iff.mpr ?_
          rw [Numeral.writable_iff, Numeral.natAbs_negateIf]
          calc Numeral.ofDigits (integerOf u)
              < 10 ^ (integerOf u).length := Numeral.ofDigits_lt integerOf_lt
            _ ≤ 10 ^ Numeral.digitLimit := Nat.pow_le_pow_right (by decide) (Nat.le_of_not_lt hle)

/-- A word that is read can be shown. -/
theorem fits_of_readWord? {t : Text} {r : Value × Text} (h : readWord? t = some r) :
    r.1.Fits room := by
  obtain ⟨w, hw, rfl⟩ := Option.map_eq_some_iff.mp h
  have hwords : ∀ w ∈ words, w.2.Fits room := by
    simp only [words, List.forall_mem_cons]
    exact ⟨Value.fits_null, Value.fits_bool _, Value.fits_bool _, Value.fits_float _,
      Value.fits_float _, Value.fits_float _, List.forall_mem_nil _⟩
  exact hwords w (List.mem_of_find?_eq_some hw)

theorem fits_readPlain : ReadsFitting room readPlain := by
  intro t r h
  unfold readPlain at h
  split at h
  · obtain ⟨-, -, rfl⟩ := map_eq_ok_iff.mp h
    exact Value.fits_text _
  · split at h
    · rename_i hword
      cases h
      exact fits_of_readWord? hword
    · exact fits_readNumber _ _ h

/-! ### Brackets -/

section
variable {item : Text → Reading Value} (hitem : ReadsFitting room item)

include hitem

theorem fits_of_readItems {fuel : Nat} {read : List Value} {t : Text} {r : List Value × Text}
    (hread : ∀ v ∈ read, v.Fits room) (h : readItems item fuel read t = .ok r) :
    ∀ v ∈ r.1, v.Fits room := by
  induction fuel generalizing read t with
  | zero => cases h
  | succ fuel ih =>
      rw [readItems] at h
      split at h
      · cases h
      · rename_i v rest hv
        have hnext : ∀ w ∈ v :: read, w.Fits room := List.forall_mem_cons.mpr ⟨hitem _ _ hv, hread⟩
        split at h
        · cases h
          exact fun w hw => hnext w (List.mem_reverse.mp hw)
        · exact ih hnext h
        · cases h

theorem fits_of_readMember {t : Text} {r : (Text × Value) × Text}
    (h : readMember item t = .ok r) : r.1.2.Fits room := by
  unfold readMember at h
  split at h
  · split at h
    · cases h
    · split at h
      · obtain ⟨s, hs, rfl⟩ := map_eq_ok_iff.mp h
        exact hitem _ _ hs
      · cases h
  · cases h

theorem fits_of_readMembers {fuel : Nat} {read : Members} {t : Text} {r : Members × Text}
    (hread : ∀ m ∈ read, m.2.Fits room) (h : readMembers item fuel read t = .ok r) :
    ∀ m ∈ r.1, m.2.Fits room := by
  induction fuel generalizing read t with
  | zero => cases h
  | succ fuel ih =>
      rw [readMembers] at h
      split at h
      · cases h
      · rename_i m rest hm
        have hnext : ∀ n ∈ m :: read, n.2.Fits room :=
          List.forall_mem_cons.mpr ⟨fits_of_readMember hitem hm, hread⟩
        split at h
        · cases h
          exact fun n hn => hnext n (List.mem_reverse.mp hn)
        · exact ih hnext h
        · cases h

/-- A list that is read can be shown with room for one more level than its items. -/
theorem fits_readList (fuel : Nat) : ReadsFitting (room + 1) (readList item fuel) := by
  intro t r h
  unfold readList at h
  split at h
  · cases h
    exact Value.fits_list_nil
  · obtain ⟨s, hs, rfl⟩ := map_eq_ok_iff.mp h
    exact Value.fits_list_iff.mpr (fits_of_readItems hitem (List.forall_mem_nil _) hs)

/-- An object that is read can be shown with room for one more level than its members. -/
theorem fits_readObject (fuel : Nat) : ReadsFitting (room + 1) (readObject item fuel) := by
  intro t r h
  unfold readObject at h
  split at h
  · cases h
    exact Value.fits_object_nil
  · obtain ⟨s, hs, rfl⟩ := map_eq_ok_iff.mp h
    exact Value.fits_object_iff.mpr (Members.forall_ofPairs
      (fits_of_readMembers hitem (List.forall_mem_nil _) hs))

end

/-! ### Whole texts -/

/-- What is read in a depth can be shown in a room of this depth. -/
theorem fits_readValue (fuel depth : Nat) : ReadsFitting depth (readValue fuel depth) := by
  -- brackets are read by the reader for one level less, which reads what fits in one level less
  induction depth with
  | zero =>
      intro t r h
      unfold readValue at h
      split at h
      · cases h
      · cases h
      · contradiction
      · contradiction
      · exact fits_readPlain _ _ h
  | succ depth ih =>
      intro t r h
      unfold readValue at h
      split at h
      · cases h
      · cases h
      · rename_i hdepth
        cases hdepth
        exact fits_readList ih fuel _ _ h
      · rename_i hdepth
        cases hdepth
        exact fits_readObject ih fuel _ _ h
      · exact fits_readPlain _ _ h

theorem fits_of_readAll {t : Text} {v : Value} (h : readAll room t = .ok v) : v.Fits room := by
  unfold readAll at h
  split at h
  · cases h
  · split at h
    · cases h
    · rename_i hv
      split at h
      · cases h
        exact fits_readValue _ _ _ _ hv
      · cases h

/-- A value that is read can be shown in the room that it was read in. -/
theorem fits_of_read {t : Text} {v : Value} (h : read room t = .ok v) : v.Fits room := by
  rw [read] at h
  split at h
  · rename_i hall
    cases h
    exact fits_of_readAll hall
  · cases h
  · cases h
  · cases h

end Json

/-! ### Keys -/

namespace Version

theorem natAbs_lt_of_ofDouble {d : Double} {n : Int} (h : ofDouble d = .ok n) :
    n.natAbs < 10 ^ Numeral.digitLimit := by
  rw [ofDouble] at h
  split at h
  · cases h
  · split at h
    · cases h
    · split at h
      · cases h
      · rename_i hlt
        cases h
        calc n.natAbs
            < doubleBound := Nat.lt_of_not_le hlt
          _ ≤ 10 ^ 19 := by decide
          _ ≤ 10 ^ Numeral.digitLimit := Nat.pow_le_pow_right (by decide) (by decide)

/-- A number that is taken from a value that can be shown can be written. -/
theorem natAbs_lt_of_integer {room : Nat} {v : Value} (hv : v.Fits room) {n : Int}
    (h : integer v = .ok n) : n.natAbs < 10 ^ Numeral.digitLimit := by
  cases v with
  | null | list | object => cases h
  | bool b =>
      obtain rfl := Except.ok.inj h
      have hone : (if b then 1 else 0 : Int).natAbs < 10 ^ 1 := by cases b <;> decide
      exact Nat.lt_of_lt_of_le hone (Nat.pow_le_pow_right (by decide) (by decide))
  | int m =>
      obtain rfl := Except.ok.inj h
      exact Numeral.writable_iff.mp (Value.fits_int_iff.mp hv)
  | float d => exact natAbs_lt_of_ofDouble h
  | text t => exact natAbs_lt_of_denoted h

theorem lt_of_ofValue {room : Nat} {v : Value} (hv : v.Fits room) {k : Nat}
    (h : ofValue v = .ok (some k)) : k < 10 ^ Numeral.digitLimit := by
  unfold ofValue at h
  split at h
  · cases h
  · split at h
    · cases h
    · rename_i n hn
      split at h
      · cases h
      · cases h
        have hlt := natAbs_lt_of_integer hv hn
        omega

end Version

/-- A record that is taken from a value that can be shown has a key that can be written. -/
theorem Record.key_lt_of_ofValue {room : Nat} {v : Value} (hv : v.Fits room) {r : Record}
    (h : (ofValue room v).result = .ok r) : r.key < 10 ^ Numeral.digitLimit := by
  cases v with
  | null | bool | int | float | text | list => cases h
  | object ms =>
      have hversion : versionIn ms = .ok r.version := (ofFields_eq_ok_iff.mp h).1
      rw [key]
      cases hr : r.version with
      | none => exact Nat.pow_pos (by decide)
      | some k =>
          rw [hr, versionIn] at hversion
          cases hfield : field "version" ms with
          | none => rw [hfield] at hversion; cases hversion
          | some w =>
              rw [hfield] at hversion
              have hw := Members.of_get? (fun _ hm => hv.of_mem_object hm) hfield
              exact Version.lt_of_ofValue hw hversion

/-! ### Entries -/

namespace Payload

variable {room : Nat}

/-- The entries of a value that can be shown can be shown. -/
theorem fits_of_entries {v : Value} (hv : v.Fits room) {es : List Value}
    (h : entries v = .ok es) : ∀ e ∈ es, e.Fits room := by
  have hvalue : (entriesValue v).Fits room := by
    unfold entriesValue
    split
    · split
      · rename_i w hw
        split
        · exact Members.of_get? (fun _ hm => hv.of_mem_object hm) hw
        · exact Value.fits_list_nil
      · exact Value.fits_list_nil
    · exact hv
  rw [entries] at h
  split at h
  · rename_i hlist
    cases h
    rw [hlist] at hvalue
    exact fun _ he => hvalue.of_mem_list he
  · cases h

/-- An entry that can be shown has a date that can be. -/
theorem not_tooDeep_of_fits {e : Value} (he : e.Fits room) : ¬ TooDeep room e := by
  rintro ⟨ms, d, rfl, hd, hobstacle⟩
  have hfits : d.Fits room := Members.of_get? (fun _ hm => he.of_mem_object hm) hd
  cases hfits.symm.trans hobstacle

end Payload

/-- A value that a file holds can be shown. -/
theorem Snapshot.fits_of_value {room : Nat} {bytes : List UInt8} {v : Value}
    (h : Snapshot.value room bytes = .ok v) : v.Fits room := by
  rw [Snapshot.value] at h
  split at h
  · cases h
  · rename_i t _
    cases hread : Json.read room t.foldLineEnds with
    | error f => rw [hread] at h; cases h
    | ok w =>
        rw [hread] at h
        cases h
        exact Json.fits_of_read hread

/-- No entry of a snapshot is nested too deep. -/
theorem Snapshot.not_tooDeep_of_value {room : Nat} {bytes : List UInt8} {v : Value}
    {es : List Value} (h : Snapshot.value room bytes = .ok v) (hes : Payload.entries v = .ok es) :
    ∀ e ∈ es, ¬ Payload.TooDeep room e := fun e he =>
  Payload.not_tooDeep_of_fits (Payload.fits_of_entries (fits_of_value h) hes e he)

namespace History

variable {room : Nat} {bytes : List UInt8} {path : String} {limit : Option Int} {h : History}

theorem ofSnapshot_eq_ok (hload : (ofSnapshot room bytes path limit).result = .ok h) :
    ∃ v, Snapshot.value room bytes = .ok v ∧ (ofPayload room v limit).result = .ok h := by
  rw [ofSnapshot] at hload
  cases hvalue : Snapshot.value room bytes with
  | error f => rw [hvalue] at hload; cases hload
  | ok v =>
      rw [hvalue] at hload
      simp only at hload
      cases hpayload : (ofPayload room v limit).result with
      | error f => rw [hpayload] at hload; cases hload
      | ok g =>
          rw [hpayload] at hload
          cases hload
          exact ⟨v, rfl, hpayload⟩

/-- A history that is read from a file is sound. -/
theorem sound_of_snapshot (hload : (ofSnapshot room bytes path limit).result = .ok h) :
    h.Sound h.limit := by
  obtain ⟨v, -, hpayload⟩ := ofSnapshot_eq_ok hload
  exact (History.Built.ofPayload hpayload).sound.1

/-- A history that is read from a file has nothing selected. -/
theorem selected_of_snapshot (hload : (ofSnapshot room bytes path limit).result = .ok h) :
    h.selected = none := by
  obtain ⟨v, -, hpayload⟩ := ofSnapshot_eq_ok hload
  exact (History.Built.ofPayload hpayload).sound.2

/-- No key of a loaded history is too great to be written and read again. -/
theorem key_lt_of_snapshot (hload : (ofSnapshot room bytes path limit).result = .ok h) :
    ∀ r ∈ h.records, r.key < 10 ^ Numeral.digitLimit := by
  obtain ⟨v, hvalue, hpayload⟩ := ofSnapshot_eq_ok hload
  obtain ⟨es, hes, -, hbuild⟩ := Payload.ofPayload_eq_ok_iff.mp hpayload
  obtain ⟨-, rfl⟩ := build_eq_ok_iff.mp hbuild
  intro r hr
  obtain ⟨e, he, hrecord⟩ := List.mem_filterMap.mp (mem_of_mem_stored hr)
  exact Record.key_lt_of_ofValue (Payload.fits_of_entries (Snapshot.fits_of_value hvalue) hes e he)
    (Payload.record?_eq_some_iff.mp hrecord)

end History

end ConfigPanel
