import ConfigPanel.Log

/-!
# Record — one version of the configuration

A record has a version, a user and a date, each of which may be absent.  Lists and the selection go
by its key, its version, where an absent version counts as zero.  `Labels` are the three texts that
a row shows: they fall back on `unknown` where there is nothing to show.

A date is judged in two places, where a record is made and where its labels are; both go by
`Timestamp.judge`.  Judging fails where the remark on a malformed value cannot be written, and the
labels of a record fail where its version cannot.
-/

namespace ConfigPanel

/-! ### Judging dates -/

/-- Judges a date.  A malformed value is taken for none, and that is remarked with the value as it
is shown, for which there is room for `room` levels; where it cannot be shown there is no remark and
no judgement. -/
def Timestamp.judge (room : Nat) (remark : Value → Fault → Event) (v : Value) :
    Logged (Except Unwritable (Option Nat)) :=
  match ofValue v with
  | .ok t                 => .quiet (.ok t)
  | .error .tooLong       => .quiet (.error .tooLong)
  | .error (.malformed f) =>
      match v.obstacle? room with
      | some u => .quiet (.error u)
      | none   => ⟨.ok none, [remark v f]⟩

/-! ### Records -/

/-- A version of the configuration, as it was judged. -/
structure Record where
  version : Option Nat
  user : Option Text
  date : Option Nat
  deriving DecidableEq, Repr

namespace Record

/-- What lists and the selection know a record by. -/
def key (r : Record) : Nat := r.version.getD 0

/-- The fields of a record by their names, absent ones as nothing. -/
def members (r : Record) : Members :=
  [(Text.of "version", Value.ofNat? r.version), (Text.of "user", Value.ofText? r.user),
    (Text.of "date", Value.ofNat? r.date)]

/-- A record as a value. -/
def toValue (r : Record) : Value := .object r.members

end Record

/-! ### Labels -/

/-- The texts that a row shows. -/
structure Labels where
  version : Text
  user : Text
  date : Text
  deriving DecidableEq, Repr

namespace Labels

/-- What is shown where there is nothing to show. -/
def unknown : Text := Text.of "unknown"

/-- What stands before a version. -/
def versionMark : Text := Text.of "v"

/-- What stands before an author. -/
def authorOpening : Text := Text.of " by "

/-- What stands after an author. -/
def authorClosing : Text := Text.of " at "

/-- A label that falls back when it is empty. -/
def orUnknown (t : Text) : Text := if t.isEmpty then unknown else t

/-- The text of a judged date: empty for none and for second zero. -/
def dateLines : Option Nat → Text
  | none         => []
  | some 0       => []
  | some (n + 1) => Text.of (Timestamp.lines (n + 1))

/-- The date text of any value. -/
def dateText (room : Nat) (v : Value) : Logged (Except Unwritable Text) :=
  (Timestamp.judge room .dateIgnored v).map fun date => date.map dateLines

/-- The labels that a version, a user and the text of a date make. -/
def texts (version : Int) (user : Option Text) (date : Text) : Labels :=
  ⟨versionMark ++ Text.of (toString version),
    authorOpening ++ orUnknown (user.getD []) ++ authorClosing, orUnknown date⟩

/-- The labels of three fields that nobody has checked.  The date is judged before the version is
written. -/
def ofFields (room : Nat) (version : Option Int) (user : Option Text) (date : Value) :
    Logged (Except Unwritable Labels) :=
  (dateText room date).map fun text =>
    text.bind fun text =>
      if Numeral.Writable (version.getD 0) then .ok (texts (version.getD 0) user text)
      else .error .tooLong

/-- Labels as a value. -/
def toValue (l : Labels) : Value :=
  .object [(Text.of "version", .text l.version), (Text.of "user", .text l.user),
    (Text.of "date", .text l.date)]

end Labels

namespace Record

/-- The labels of a record, with what is logged about its date, which is a number or nothing and so
needs no room to be shown. -/
def loggedLabels (r : Record) : Logged (Except Unwritable Labels) :=
  Labels.ofFields 0 (r.version.map Int.ofNat) r.user (Value.ofNat? r.date)

/-- The date of a record as it is judged anew. -/
def shownDate (r : Record) : Option Nat :=
  match Timestamp.ofValue (Value.ofNat? r.date) with
  | .ok t    => t
  | .error _ => none

/-- The texts of a record's labels, which it has where its version and its date can be written. -/
def labels (r : Record) : Labels := Labels.texts r.key r.user (Labels.dateLines r.shownDate)

end Record

end ConfigPanel
