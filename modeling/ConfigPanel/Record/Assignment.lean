import ConfigPanel.Record.Validation
import ConfigPanel.Text.Quoted

/-!
# Record — assignments

A record in use is the members that it holds: at first its three fields (`Record.members`), later
also notes.  No field is changed by its name: an assignment to it is refused, and so is one to any
other plain name.  Names that begin with an underscore are inner names.  Behind one of them are the
members themselves, as an object: another object takes their place as it is, and nobody judges it.
A few cannot be assigned to.  Any other is the name of a note, which becomes a member.

Written out, members are the fields among them (`Members.fields`).  A record finds what writes it
out under names of its own (`Writing`), and a member of such a name stands in the way.
-/

namespace ConfigPanel

/-! ### Assigning -/

/-- Why an assignment to a record is refused. -/
inductive AssignFault where
  | frozen (field : String)
  | derived (name : String)
  | unwritable (name : String)
  | membersNoObject (kind : String)
  | noClass (kind : String)
  deriving DecidableEq, Repr

namespace Record

/-- Whether a name is an inner name. -/
def isInner (name : String) : Bool := name.toList.head? == some '_'

/-- The inner name of the members, as an object. -/
def membersName : String := "__dict__"

/-- The inner name of what a record is, which no value can be. -/
def className : String := "__class__"

/-- The inner name of what refers to a record. -/
def referenceName : String := "__weakref__"

/-- The inner names of what is worked out at each reading. -/
def derivedNames : List String := ["__fields__", "__fields_set__"]

end Record

/-- The members of a record after an assignment. -/
def Members.assign (ms : Members) (name : String) (v : Value) : Except AssignFault Members :=
  if !Record.isInner name then .error (.frozen name)
  else if name = Record.membersName then
    match v with
    | .object other => .ok other
    | _             => .error (.membersNoObject v.kind)
  else if name = Record.className then .error (.noClass v.kind)
  else if Record.derivedNames.contains name then .error (.derived name)
  else if name = Record.referenceName then .error (.unwritable name)
  else .ok (ms.put (Text.of name) v)

/-- What is said of a refused assignment. -/
def AssignFault.message : AssignFault → String
  | .frozen field         => (Record.Fault.frozen field).message
  | .derived name         =>
      "property " ++ Text.quotedString name ++ " of 'ConfigVersionRecord' object has no setter"
  | .unwritable name      =>
      "attribute " ++ Text.quotedString name ++
        " of 'ConfigVersionRecord' objects is not writable"
  | .membersNoObject kind =>
      Record.membersName ++ " must be set to a dictionary, not a '" ++ kind ++ "'"
  | .noClass kind         =>
      Record.className ++ " must be set to a class, not '" ++ kind ++ "' object"

/-! ### Writing out -/

/-- The names under which a record finds the call that writes it out, the writer that the call
turns to, and what the writer is asked for. -/
structure Writing where
  call : String
  writer : String
  method : String

/-- Why members are not written out. -/
inductive WriteFault where
  | notCallable (kind : String)
  | missing (kind method : String)
  deriving DecidableEq, Repr

/-- What is said when members are not written out. -/
def WriteFault.message : WriteFault → String
  | .notCallable kind    => "'" ++ kind ++ "' object is not callable"
  | .missing kind method => "'" ++ kind ++ "' object has no attribute '" ++ method ++ "'"

namespace Members

/-- The fields of a record among members, as they are and in their order. -/
def fields (ms : Members) : Members :=
  ms.filter fun m => ["version", "user", "date"].any fun name => m.1 == Text.of name

/-- The fields as they are written out.  No value can be called, and none is a writer. -/
def written (w : Writing) (ms : Members) : Except WriteFault Members :=
  match get? (Text.of w.call) ms, get? (Text.of w.writer) ms with
  | some v, _      => .error (.notCallable v.kind)
  | none,   some v => .error (.missing v.kind w.method)
  | none,   none   => .ok ms.fields

end Members

end ConfigPanel
