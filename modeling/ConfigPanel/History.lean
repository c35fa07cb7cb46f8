import ConfigPanel.Row

/-!
# History — the versions on show, newest first

A history keeps records in strictly descending order of their keys, a limit, and the key of the
selected record.  `newestFirst` brings any list into that order, the last record of a key winning;
`cut` then leaves as many as the limit allows.  Only `replace` changes the records and only a
selection of a key on show, or a `replace` that drops the selected one, changes the selection; both
are logged.

A request that names a version names it by any integer.  `get`, `view`, `select` and `click` all
fail with the integer when no record has it for its key, and then leave the history as it is.

A selection and a cleared selection are remarked on with the key, which may have too many digits to
be written.  The remark on a selection comes after it, and the one on a cleared selection after the
new records are in and before the selection is cleared.  So where the remark fails, a selection
stands although the call failed, and a `replace` leaves the new records with the old selection.
-/

namespace ConfigPanel

/-- The records on show, the limit, and the key that is selected. -/
structure History where
  records : List Record
  limit : Option Int
  selected : Option Nat
  deriving DecidableEq, Repr

/-- No record has the version for its key. -/
structure MissingVersion where
  version : Int
  deriving DecidableEq, Repr

/-- The version that was asked for. -/
def MissingVersion.message (f : MissingVersion) : String := toString f.version

/-- Why a call on a history fails. -/
inductive CallFault where
  | missing (fault : MissingVersion)
  | unwritable (reason : Unwritable)
  deriving DecidableEq, Repr

/-- A history does not start with a negative limit. -/
structure NegativeLimit where
  limit : Int
  deriving DecidableEq, Repr

/-- What is said of a negative limit; one that cannot be written fails for that. -/
def NegativeLimit.message (f : NegativeLimit) : String :=
  if Numeral.Writable f.limit then "History limit must not be negative, got " ++ toString f.limit
  else Unwritable.tooLong.message

/-- What a call on a history leaves: its answer, the history after it, and what it logged. -/
structure Outcome (ε α : Type) where
  answer : Except ε α
  history : History
  events : List Event

namespace History

/-! ### Order and limit -/

/-- Puts a record in its place among others in descending order, instead of one with its key. -/
def insert (r : Record) : List Record → List Record
  | []      => [r]
  | x :: xs =>
      if x.key < r.key then r :: x :: xs
      else if x.key = r.key then r :: xs
      else x :: insert r xs

/-- The last record of each key, in descending order. -/
def newestFirst (rs : List Record) : List Record := rs.foldl (fun xs r => insert r xs) []

/-- What a limit leaves of a list: so many from the front, or, when it is negative, all but so many
at the end. -/
def cut {α : Type} (limit : Option Int) (xs : List α) : List α :=
  match limit with
  | none   => xs
  | some n => if 0 ≤ n then xs.take n.toNat else xs.take (xs.length - (-n).toNat)

/-- The records that a history with the limit shows of a list. -/
def stored (limit : Option Int) (rs : List Record) : List Record := cut limit (newestFirst rs)

/-- The record comes in, and what had its key goes. -/
theorem mem_insert {r a : Record} {xs : List Record} (h : xs.Pairwise fun a b => b.key < a.key) :
    a ∈ insert r xs ↔ a = r ∨ a ∈ xs ∧ a.key ≠ r.key := by
  induction xs with
  | nil => simp [insert]
  | cons x xs ih =>
      obtain ⟨hx, hxs⟩ := List.pairwise_cons.mp h
      have later : a ∈ xs → a.key < x.key := hx a
      simp only [insert]
      split
      · grind
      · split
        · grind
        · grind [ih hxs]

/-- A list in descending order stays so. -/
theorem insert_pairwise {r : Record} {xs : List Record}
    (h : xs.Pairwise fun a b => b.key < a.key) :
    (insert r xs).Pairwise fun a b => b.key < a.key := by
  induction xs with
  | nil => simp [insert]
  | cons x xs ih =>
      obtain ⟨hx, hxs⟩ := List.pairwise_cons.mp h
      simp only [insert]
      split
      · rename_i hlt
        refine List.pairwise_cons.mpr ⟨fun b hb => ?_, h⟩
        rcases List.mem_cons.mp hb with rfl | hb
        · exact hlt
        · exact Nat.lt_trans (hx b hb) hlt
      · split
        · rename_i heq
          exact List.pairwise_cons.mpr ⟨fun b hb => heq ▸ hx b hb, hxs⟩
        · refine List.pairwise_cons.mpr ⟨fun b hb => ?_, ih hxs⟩
          rcases (mem_insert hxs).mp hb with rfl | ⟨hb, -⟩
          · omega
          · exact hx b hb

/-- The keys of a list that was put in order are strictly descending. -/
theorem newestFirst_pairwise (rs : List Record) :
    (newestFirst rs).Pairwise fun a b => b.key < a.key := by
  have : ∀ xs : List Record, xs.Pairwise (fun a b => b.key < a.key) →
      (rs.foldl (fun xs r => insert r xs) xs).Pairwise fun a b => b.key < a.key := by
    induction rs with
    | nil => exact fun _ h => h
    | cons r rs ih => exact fun xs h => ih _ (insert_pairwise h)
  exact this [] .nil

/-- A limit takes records away and changes no order. -/
theorem cut_sublist {α : Type} (limit : Option Int) (xs : List α) : (cut limit xs).Sublist xs := by
  cases limit with
  | none => exact .refl xs
  | some n =>
      simp only [cut]
      split <;> exact List.take_sublist ..

/-- What is stored is in strictly descending order. -/
theorem stored_pairwise (limit : Option Int) (rs : List Record) :
    (stored limit rs).Pairwise fun a b => b.key < a.key :=
  (newestFirst_pairwise rs).sublist (cut_sublist limit _)

/-! ### Starting -/

/-- A history without a record. -/
def empty (limit : Option Int) : History := ⟨[], limit, none⟩

/-- A history of a list of records, under no limit or one that is not negative. -/
def build (rs : List Record) (limit : Option Int) : Except NegativeLimit History :=
  match limit with
  | some n =>
      if n < 0 then .error ⟨n⟩ else .ok ⟨stored limit rs, limit, none⟩
  | none => .ok ⟨stored limit rs, limit, none⟩

/-! ### Reading -/

/-- The record with a key. -/
def find? (h : History) (version : Int) : Option Record :=
  h.records.find? fun r => (r.key : Int) == version

/-- The record with a key, which must be there. -/
def get (h : History) (version : Int) : Except MissingVersion Record :=
  match h.find? version with
  | some r => .ok r
  | none   => .error ⟨version⟩

/-- The selected record. -/
def current (h : History) : Except MissingVersion (Option Record) :=
  match h.selected with
  | none   => .ok none
  | some k => (h.get k).map some

/-- The row of a record as the history shows it now. -/
def rowOf (h : History) (r : Record) : Row := ⟨r, h.selected == some r.key⟩

/-- The rows of all records. -/
def views (h : History) : List Row := h.records.map h.rowOf

/-- The row with a key. -/
def view (h : History) (version : Int) : Except MissingVersion Row :=
  match h.views.find? fun r => (r.key : Int) == version with
  | some row => .ok row
  | none     => .error ⟨version⟩

/-! ### Changing -/

/-- Nothing changed and nothing was logged. -/
def unchanged {ε α : Type} (h : History) (answer : Except ε α) : Outcome ε α := ⟨answer, h, []⟩

/-- Selects the record with a key. -/
def select (h : History) (version : Int) : Outcome CallFault Record :=
  match h.get version with
  | .error f => h.unchanged (.error (.missing f))
  | .ok r    =>
      -- the selection comes before the remark on it, and stands when that fails
      let chosen := { h with selected := some r.key }
      if Numeral.Writable r.key then ⟨.ok r, chosen, [.selected r.key]⟩
      else ⟨.error (.unwritable .tooLong), chosen, []⟩

/-- A click on a row, of this history or of an earlier state of it, selects the row's key. -/
def press (h : History) (row : Row) : Outcome CallFault Unit :=
  let o := h.select row.key
  ⟨o.answer.map fun _ => (), o.history, o.events⟩

/-- A click on the row with a key. -/
def click (h : History) (version : Int) : Outcome CallFault Unit :=
  match h.view version with
  | .ok row  => h.press row
  | .error f => h.unchanged (.error (.missing f))

/-- The key is one of the records'. -/
def hasKey (rs : List Record) (k : Nat) : Bool := rs.any fun r => r.key == k

/-- Shows another list; a selection that is not on it is cleared. -/
def replace (h : History) (rs : List Record) : Outcome Unwritable Unit :=
  let records := stored h.limit rs
  match h.selected with
  | none   => ⟨.ok (), ⟨records, h.limit, none⟩, []⟩
  | some k =>
      if hasKey records k then ⟨.ok (), ⟨records, h.limit, some k⟩, []⟩
      else if Numeral.Writable k then ⟨.ok (), ⟨records, h.limit, none⟩, [.selectionGone k]⟩
      -- the records are in, and the selection is not cleared before the remark
      else ⟨.error .tooLong, ⟨records, h.limit, some k⟩, []⟩

/-- A new limit takes effect with the next list. -/
def setLimit (h : History) (limit : Option Int) : History := { h with limit := limit }

end History

end ConfigPanel
