import ConfigPanel.Number.Numeral
import ConfigPanel.Number.Shortest
import ConfigPanel.Text.Quoted
import ConfigPanel.Value

/-!
# Value — values as messages show them

Numbers in decimal, texts quoted, lists in square brackets and objects in curly ones, with a comma
and a space between two items and a colon and a space between a name and its value.

A value may be beyond what can be shown: it holds a number with too many digits, or its lists and
objects are nested deeper than there is room for on the stack.  `obstacle?` tells which of the two
is met first; `shown` is what the value would look like, and is put into a message only where there
is no obstacle.
-/

namespace ConfigPanel

/-- Why a value or a number cannot be put into words. -/
inductive Unwritable where
  | tooLong
  | tooDeep
  deriving DecidableEq, Repr

/-- What the failure says. -/
def Unwritable.message : Unwritable → String
  | .tooLong =>
      "Exceeds the limit (" ++ toString Numeral.digitLimit ++ " digits) for integer string " ++
        "conversion; use sys.set_int_max_str_digits() to increase the limit"
  | .tooDeep => "maximum recursion depth exceeded while getting the repr of an object"

namespace Value

mutual

/-- The characters that show a value. -/
def shownChars : Value → List Char
  | .null       => "None".toList
  | .bool true  => "True".toList
  | .bool false => "False".toList
  | .int n      => (toString n).toList
  | .float d    => d.shown.toList
  | .text t     => t.quoted
  | .list xs    => '[' :: (shownItems xs ++ [']'])
  | .object ms  => '\x7b' :: (shownMembers ms ++ ['\x7d'])

/-- The characters that show the items of a list. -/
def shownItems : List Value → List Char
  | []      => []
  | [v]     => shownChars v
  | v :: vs => shownChars v ++ ',' :: ' ' :: shownItems vs

/-- The characters that show the members of an object. -/
def shownMembers : List (Text × Value) → List Char
  | []           => []
  | [(k, v)]     => k.quoted ++ ':' :: ' ' :: shownChars v
  | (k, v) :: ms => k.quoted ++ ':' :: ' ' :: (shownChars v ++ ',' :: ' ' :: shownMembers ms)

end

/-- A value as a message shows it. -/
def shown (v : Value) : String := String.ofList v.shownChars

/-! ### What cannot be shown -/

mutual

/-- What is first in the way of showing a value when there is room for `room` levels below it. -/
def obstacle? : Value → (room : Nat) → Option Unwritable
  | .int n,     _    => if Numeral.Writable n then none else some .tooLong
  | .list xs,   room => itemsObstacle? xs room
  | .object ms, room => membersObstacle? ms room
  | _,          _    => none

/-- What is first in the way of showing the items of a list. -/
def itemsObstacle? : List Value → (room : Nat) → Option Unwritable
  | [],      _        => none
  | _ :: _,  0        => some .tooDeep
  | v :: vs, room + 1 => (obstacle? v room).or (itemsObstacle? vs (room + 1))

/-- What is first in the way of showing the members of an object; their names never are. -/
def membersObstacle? : List (Text × Value) → (room : Nat) → Option Unwritable
  | [],           _        => none
  | _ :: _,       0        => some .tooDeep
  | (_, v) :: ms, room + 1 => (obstacle? v room).or (membersObstacle? ms (room + 1))

end

/-- A number is shown exactly when it can be written, whatever room there is. -/
theorem obstacle?_int (n : Int) (room : Nat) :
    obstacle? (.int n) room = if Numeral.Writable n then none else some .tooLong := by
  rw [obstacle?]

end Value

end ConfigPanel
