import ConfigPanel.Record.Validation
import ConfigPanel.Row

/-!
# Row — a row in use

A row is mounted on a record, or on a value taken for one, and on a handler that is called when the
row is clicked.  `Mounted.build` checks in this order: there is a record at all, the handler can be
called, the record is one.  Using the row changes nothing but the highlight and the number of calls;
a click passes on what the handler does, and a look at labels that cannot be written fails.
-/

namespace ConfigPanel

/-- What a handler fails with. -/
structure HandlerFault where
  message : String
  deriving DecidableEq, Repr

/-- What a handler does when it is called. -/
inductive Reaction where
  | returns
  | fails (fault : HandlerFault := ⟨"callback failed"⟩)
  deriving DecidableEq, Repr

/-- What a handler does at each of its calls, which are counted from zero. -/
abbrev Handler := Nat → Reaction

namespace Row

/-- What a row may be mounted on. -/
inductive Candidate where
  | record (r : Record)
  | value (v : Value)

/-- Why a row cannot be mounted. -/
inductive MountFault where
  | noRecord
  | noHandler
  | notARecord (kind : String)
  | refused (refusal : Record.Refusal)
  deriving DecidableEq, Repr

/-- The words for a missing or mistaken input; a refused record is told by its own faults. -/
def MountFault.message : MountFault → String
  | .noRecord        => "A config record is required"
  | .noHandler       => "on_select must be callable"
  | .notARecord kind => "Expected a config record, got " ++ kind
  | .refused _       => ""

/-- A row with its handler and the number of calls the handler has had. -/
structure Mounted where
  row : Row
  handler : Handler
  calls : Nat

namespace Mounted

/-- The record of a candidate. -/
def recordOf (room : Nat) : Candidate → Logged (Except MountFault Record)
  | .record r           => .quiet (.ok r)
  | .value (.object ms) => (Record.ofMembers room ms).map fun r => r.mapError .refused
  | .value v            => .quiet (.error (.notARecord v.kind))

/-- Mounts a row; `none` stands for a handler that cannot be called. -/
def build (room : Nat) (candidate : Candidate) (handler : Option Handler) (highlighted : Value) :
    Logged (Except MountFault Mounted) :=
  match candidate, handler with
  | .value .null, _ => .quiet (.error .noRecord)
  | _, none         => .quiet (.error .noHandler)
  | c, some h       =>
      (recordOf room c).map fun r => r.map fun record => ⟨⟨record, highlighted.isTruthy⟩, h, 0⟩

/-! ### Using a row -/

/-- What is done with a row; `embed` is what a page does that puts the row in, as it stands. -/
inductive Use where
  | render
  | embed
  | key
  | labels
  | record
  | click
  | highlight (v : Value)

/-- What a use gives back. -/
inductive Answer where
  | markup (t : Text)
  | key (k : Nat)
  | labels (l : Labels)
  | record (r : Record)
  | done
  deriving DecidableEq, Repr

/-- Why a use fails. -/
inductive UseFault where
  | handler (fault : HandlerFault)
  | unwritable (reason : Unwritable)
  deriving DecidableEq, Repr

/-- What a use leaves: its answer, the row after it, and what it logged. -/
structure Turn where
  answer : Except UseFault Answer
  row : Mounted
  events : List Event

/-- A use that only looks at something that may be beyond words. -/
def look {α : Type} (m : Mounted) (seen : Logged (Except Unwritable α)) (answer : α → Answer) :
    Turn :=
  ⟨(seen.result.map answer).mapError .unwritable, m, seen.events⟩

/-- One use of a row. -/
def use (m : Mounted) : Use → Turn
  | .render      => m.look m.row.render .markup
  | .embed       => m.look m.row.render .markup
  | .key         => ⟨.ok (.key m.row.key), m, []⟩
  | .labels      => m.look m.row.record.loggedLabels .labels
  | .record      => ⟨.ok (.record m.row.record), m, []⟩
  | .highlight v => ⟨.ok .done, { m with row := { m.row with highlighted := v.isTruthy } }, []⟩
  | .click       =>
      -- a call that fails is a call
      let called := { m with calls := m.calls + 1 }
      match m.handler m.calls with
      | .returns => ⟨.ok .done, called, []⟩
      | .fails f => ⟨.error (.handler f), called, []⟩

/-- The row after a run of uses. -/
def run (m : Mounted) (us : List Use) : Mounted := us.foldl (fun m u => (m.use u).row) m

/-- A run in two parts is the run of the second part after the first. -/
theorem run_append (m : Mounted) (us vs : List Use) : m.run (us ++ vs) = (m.run us).run vs := by
  simp [run]

end Mounted

end Row

end ConfigPanel
