import ConfigPanel.Number.Numeral
import ConfigPanel.Record

/-!
# Record — values taken for records

`Record.ofValue` takes an object to the record that its members `version`, `user` and `date` make,
whatever else it holds.  The fields are judged one by one and all of them are: the faults are those
of the version, then those of the user, then those of the date.  A date that is malformed is absent,
and that is logged, also when the record is refused.  A date is at fault only when a number in it is
too long for the remark; and when it is nested too deep for the remark, the judging ends there,
without faults and without a record.
-/

namespace ConfigPanel

/-! ### Versions -/

/-- Why a value is no version. -/
inductive VersionFault where
  | notAnInteger
  | unreadable
  | tooLong
  | fractional
  | notFinite
  | negative
  deriving DecidableEq, Repr

namespace VersionFault

/-- The name of a fault. -/
def code : VersionFault → String
  | .notAnInteger => "int_type"
  | .unreadable   => "int_parsing"
  | .tooLong      => "int_parsing_size"
  | .fractional   => "int_from_float"
  | .notFinite    => "finite_number"
  | .negative     => "greater_than_equal"

/-- What is said of a fault. -/
def message : VersionFault → String
  | .notAnInteger => "Input should be a valid integer"
  | .unreadable   => "Input should be a valid integer, unable to parse string as an integer"
  | .tooLong      => "Unable to parse input string as an integer, exceeded maximum size"
  | .fractional   => "Input should be a valid integer, got a number with a fractional part"
  | .notFinite    => "Input should be a finite number"
  | .negative     => "Input should be greater than or equal to 0"

end VersionFault

namespace Version

/-- The whole number that a text denotes, negative or not. -/
def denoted (t : Text) : Except VersionFault Int :=
  match Numeral.readVersion t with
  | .ok n               => .ok n
  | .error .unreadable  => .error .unreadable
  | .error (.tooLong _) => .error .tooLong

/-- Doubles of this magnitude and beyond are not taken for whole numbers. -/
def doubleBound : Nat := 9223372036854775808

/-- The whole number that a double is taken for. -/
def ofDouble (d : Double) : Except VersionFault Int :=
  match d.whole? with
  | none   => .error .notFinite
  | some n =>
      if !d.isWhole then .error .fractional
      else if doubleBound ≤ n.natAbs then .error .tooLong
      else .ok n

/-- The whole number that a value is taken for. -/
def integer : Value → Except VersionFault Int
  | .bool b  => .ok (if b then 1 else 0)
  | .int n   => .ok n
  | .float d => ofDouble d
  | .text t  => denoted t
  | _        => .error .notAnInteger

/-- The version that a value is, or nothing for nothing. -/
def ofValue : Value → Except VersionFault (Option Nat)
  | .null => .ok none
  | v     =>
      match integer v with
      | .error f => .error f
      | .ok n    => if n < 0 then .error .negative else .ok (some n.toNat)

end Version

/-! ### Records -/

namespace Record

/-- A fault of a value that is taken for a record, or why a field is not changed. -/
inductive Fault where
  | version (fault : VersionFault)
  | user
  | date
  | notAnObject
  | frozen (field : String)
  deriving DecidableEq, Repr

namespace Fault

/-- The name of a fault. -/
def code : Fault → String
  | .version f   => f.code
  | .user        => "string_type"
  | .date        => "value_error"
  | .notAnObject => "model_type"
  | .frozen _    => "frozen_instance"

/-- The field at fault; none, when the whole value is. -/
def place : Fault → List String
  | .version _    => ["version"]
  | .user         => ["user"]
  | .date         => ["date"]
  | .notAnObject  => []
  | .frozen field => [field]

/-- What is said of a fault. -/
def message : Fault → String
  | .version f   => f.message
  | .user        => "Input should be a valid string"
  | .date        => "Value error, " ++ Unwritable.tooLong.message
  | .notAnObject => "Input should be a valid dictionary or instance of ConfigVersionRecord"
  | .frozen _    => "Instance is frozen"

end Fault

/-- Why a value is not taken for a record: it has faults, or its date is nested too deep. -/
inductive Refusal where
  | invalid (faults : List Fault)
  | tooDeep
  deriving DecidableEq, Repr

/-- The user that a value is, or nothing for nothing. -/
def userOf : Value → Except Unit (Option Text)
  | .null   => .ok none
  | .text t => .ok (some t)
  | _       => .error ()

/-- The date that a value is; a malformed value is no date. -/
def dateOf (room : Nat) (v : Value) : Logged (Except Unwritable (Option Nat)) :=
  Timestamp.judge room .dateAbsent v

/-- A field that may be missing. -/
def field (name : String) (ms : Members) : Option Value := Members.get? (Text.of name) ms

/-- The version among members. -/
def versionIn (ms : Members) : Except VersionFault (Option Nat) :=
  (field "version" ms).elim (.ok none) Version.ofValue

/-- The user among members. -/
def userIn (ms : Members) : Except Unit (Option Text) := (field "user" ms).elim (.ok none) userOf

/-- The date among members. -/
def dateIn (room : Nat) (ms : Members) : Logged (Except Unwritable (Option Nat)) :=
  (field "date" ms).elim (.quiet (.ok none)) (dateOf room)

/-- The fault of a judged field, if it has one. -/
def faultsOf {ε α : Type} (fault : ε → Fault) : Except ε α → List Fault
  | .ok _    => []
  | .error e => [fault e]

/-- The record of three judged fields, or all their faults. -/
def ofFields (version : Except VersionFault (Option Nat)) (user : Except Unit (Option Text))
    (date : Except Unwritable (Option Nat)) : Except Refusal Record :=
  match version, user, date with
  | _, _, .error .tooDeep => .error .tooDeep
  | .ok v, .ok u, .ok d   => .ok ⟨v, u, d⟩
  | _, _, _               =>
      .error (.invalid (faultsOf .version version ++ faultsOf (fun _ => .user) user ++
        faultsOf (fun _ => .date) date))

/-- The record that the members of an object make. -/
def ofMembers (room : Nat) (ms : Members) : Logged (Except Refusal Record) :=
  (dateIn room ms).map (ofFields (versionIn ms) (userIn ms))

/-- The record that a value is taken for. -/
def ofValue (room : Nat) : Value → Logged (Except Refusal Record)
  | .object ms => ofMembers room ms
  | _          => .quiet (.error (.invalid [.notAnObject]))

/-- The records of a list of values, up to the first that is none. -/
def ofValues (room : Nat) : List Value → Logged (Except Refusal (List Record)) :=
  Logged.each (ofValue room)

end Record

end ConfigPanel
