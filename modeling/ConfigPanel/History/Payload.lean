import ConfigPanel.History
import ConfigPanel.Record.Validation

/-!
# History — a history from a value

The value is a list of entries, or an object with such a list under `configs`, where whatever does
not count as given stands for no entry.  Every entry is judged by itself; one that has faults as a
record is skipped, and that is logged with its place in the whole list.  An entry whose date is
nested too deep ends the whole reading.
-/

namespace ConfigPanel

namespace Payload

/-- Why a value gives no history. -/
inductive Fault where
  | notAList (kind : String)
  | tooDeep
  | negativeLimit (fault : NegativeLimit)
  deriving DecidableEq, Repr

/-- What is said of a fault. -/
def Fault.message : Fault → String
  | .notAList kind   => "Expected a list of configs, got " ++ kind
  | .tooDeep         => Unwritable.tooDeep.message
  | .negativeLimit f => f.message

/-- The value that should be the list of entries. -/
def entriesValue : Value → Value
  | .object ms =>
      match Members.get? (Text.of "configs") ms with
      | some v => if v.isTruthy then v else .list []
      | none   => .list []
  | v => v

/-- The list of entries of a value. -/
def entries (v : Value) : Except Fault (List Value) :=
  match entriesValue v with
  | .list es => .ok es
  | w        => .error (.notAList w.kind)

/-- The records among entries, of which the first has the given place. -/
def records (room place : Nat) : List Value → Logged (Except Fault (List Record))
  | []      => .quiet (.ok [])
  | e :: es =>
      let first := Record.ofValue room e
      let rest := records room (place + 1) es
      match first.result with
      | .ok r                 => ⟨rest.result.map (r :: ·), first.events ++ rest.events⟩
      | .error .tooDeep       => ⟨.error .tooDeep, first.events⟩
      -- what its date gave rise to comes before the remark on the entry
      | .error (.invalid fs)  =>
          ⟨rest.result, first.events ++ .entrySkipped place fs.length :: rest.events⟩

end Payload

/-- The history of a value, when there is room to show dates of `room` levels. -/
def History.ofPayload (room : Nat) (v : Value) (limit : Option Int) :
    Logged (Except Payload.Fault History) :=
  match Payload.entries v with
  | .error f => .quiet (.error f)
  | .ok es   =>
      (Payload.records room 0 es).map fun rs =>
        rs.bind fun rs => (History.build rs limit).mapError .negativeLimit

end ConfigPanel
