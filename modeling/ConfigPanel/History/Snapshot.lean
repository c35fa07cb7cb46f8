import ConfigPanel.History.Payload
import ConfigPanel.Json.Reader
import ConfigPanel.Text.Encoding

/-!
# History — a history from a snapshot file

The bytes of the file are read as UTF-8, its line ends become single line feeds, the text is read
as a value, and the value gives the history.  Each stage fails for reasons of its own, and a later
one is not begun when an earlier one has failed.  There is room for `room` levels of nesting, both
when the text is read and when a date in it is shown.
-/

namespace ConfigPanel

namespace Snapshot

/-- Why a file gives no history. -/
inductive Fault where
  | notUtf8 (fault : Utf8.Fault)
  | notJson (fault : Json.Fault)
  | payload (fault : Payload.Fault)
  deriving DecidableEq, Repr

/-- What is said of a fault. -/
def Fault.message : Fault → String
  | .notUtf8 f => f.message
  | .notJson f => f.message
  | .payload f => f.message

/-- The value that a file holds. -/
def value (room : Nat) (bytes : List UInt8) : Except Fault Value :=
  match Utf8.decode bytes with
  | .error f => .error (.notUtf8 f)
  | .ok t    => (Json.read room t.foldLineEnds).mapError .notJson

end Snapshot

/-- The history of a file, which is loaded from `path`. -/
def History.ofSnapshot (room : Nat) (bytes : List UInt8) (path : String) (limit : Option Int) :
    Logged (Except Snapshot.Fault History) :=
  match Snapshot.value room bytes with
  | .error f => .quiet (.error f)
  | .ok v    =>
      let read := History.ofPayload room v limit
      match read.result with
      | .error f => ⟨.error (.payload f), read.events⟩
      | .ok h    => ⟨.ok h, read.events ++ [.loaded h.records.length path]⟩

end ConfigPanel
