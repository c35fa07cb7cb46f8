import ConfigPanel.History

/-!
# History — a run of calls

A session is a history in use, with the rows that its user has kept from an earlier look at it.  A
`Command` is one call, and `Session.step` says what it answers, leaves and logs; `Session.run` makes
one call after the other.  A row may be pressed whether the history still shows it or not, and
whether it was kept by the session or by someone else.
-/

namespace ConfigPanel

/-- A history and the rows kept from it. -/
structure Session where
  history : History
  held : List Row
  deriving DecidableEq, Repr

/-- One call on a history, or on the rows kept from it. -/
inductive Command where
  | records
  | selected
  | get (version : Int)
  | view (version : Int)
  | views
  | select (version : Int)
  | click (version : Int)
  | press (row : Row)
  | hold
  | renderHeld (index : Int)
  | clickHeld (index : Int)
  | replace (rs : List Record)
  | setLimit (limit : Option Int)
  deriving Repr

namespace Session

/-- Why a call fails. -/
inductive Fault where
  | missing (fault : MissingVersion)
  | unwritable (reason : Unwritable)
  | noHeldRow
  deriving DecidableEq, Repr

/-- What is said of a fault. -/
def Fault.message : Fault → String
  | .missing f    => f.message
  | .unwritable u => u.message
  | .noHeldRow    => "list index out of range"

/-- A fault of the history, as the session tells it. -/
def Fault.ofCall : CallFault → Fault
  | .missing f    => .missing f
  | .unwritable u => .unwritable u

/-- What a call answers. -/
inductive Answer where
  | records (rs : List Record)
  | record (r : Option Record)
  | markup (t : Text)
  | markups (ts : List Text)
  | count (n : Nat)
  | done
  deriving DecidableEq, Repr

/-- The answer of a call, the session after it, and what it logged. -/
structure Turn where
  answer : Except Fault Answer
  session : Session
  events : List Event

/-- A session in which no row is kept yet. -/
def start (h : History) : Session := ⟨h, []⟩

/-- The kept row with an index; one before the first counts from the end. -/
def heldRow? (s : Session) (index : Int) : Option Row :=
  if 0 ≤ index then s.held[index.toNat]?
  else if (-index).toNat ≤ s.held.length then s.held[s.held.length - (-index).toNat]?
  else none

/-- A call that only looks. -/
def look (s : Session) (answer : Except MissingVersion Answer) : Turn :=
  ⟨answer.mapError .missing, s, []⟩

/-- A call that only looks at what is rendered for it. -/
def display {α : Type} (s : Session) (rendered : Logged (Except Unwritable α))
    (answer : α → Answer) : Turn :=
  ⟨(rendered.result.map answer).mapError .unwritable, s, rendered.events⟩

/-- A call on the history, in a session that keeps its rows. -/
def carry {ε α : Type} (s : Session) (o : Outcome ε α) (fault : ε → Fault) (answer : α → Answer) :
    Turn :=
  ⟨(o.answer.map answer).mapError fault, { s with history := o.history }, o.events⟩

/-- One call. -/
def step (s : Session) : Command → Turn
  | .records      => s.look (.ok (.records s.history.records))
  | .selected     => s.look (s.history.current.map .record)
  | .get v        => s.look ((s.history.get v).map fun r => .record (some r))
  | .view v       =>
      match s.history.view v with
      | .ok row  => s.display row.render .markup
      | .error f => ⟨.error (.missing f), s, []⟩
  | .views        => s.display (Row.renderAll s.history.views) .markups
  | .select v     => s.carry (s.history.select v) .ofCall fun r => .record (some r)
  | .click v      => s.carry (s.history.click v) .ofCall fun _ => .done
  | .press row    => s.carry (s.history.press row) .ofCall fun _ => .done
  | .hold         => ⟨.ok (.count s.history.views.length), ⟨s.history, s.history.views⟩, []⟩
  | .renderHeld i =>
      match s.heldRow? i with
      | some row => s.display row.render .markup
      | none     => ⟨.error .noHeldRow, s, []⟩
  | .clickHeld i  =>
      match s.heldRow? i with
      | some row => s.carry (s.history.press row) .ofCall fun _ => .done
      | none     => ⟨.error .noHeldRow, s, []⟩
  | .replace rs   => s.carry (s.history.replace rs) .unwritable fun _ => .done
  | .setLimit l   => ⟨.ok .done, { s with history := s.history.setLimit l }, []⟩

/-- The session after a run of calls. -/
def run (s : Session) (cs : List Command) : Session :=
  cs.foldl (fun s c => (s.step c).session) s

/-- What a run of calls logs. -/
def runEvents (s : Session) : List Command → List Event
  | []      => []
  | c :: cs => (s.step c).events ++ (s.step c).session.runEvents cs

/-- A run in two parts is the run of the second part after the first. -/
theorem run_append (s : Session) (cs ds : List Command) :
    s.run (cs ++ ds) = (s.run cs).run ds := by
  simp [run]

end Session

end ConfigPanel
