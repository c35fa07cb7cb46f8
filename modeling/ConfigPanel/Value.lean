import ConfigPanel.Number.Double
import ConfigPanel.Text

/-!
# Value — data of any shape

What a snapshot holds and what a caller may hand over: nothing, a truth value, a whole number, a
double, a text, a list, or an object.  An object is its members in the order in which their names
first came; setting a name that is there keeps its place (`Members.put`).
-/

namespace ConfigPanel

/-- Data of any shape. -/
inductive Value where
  | null
  | bool (b : Bool)
  | int (n : Int)
  | float (d : Double)
  | text (t : Text)
  | list (items : List Value)
  | object (members : List (Text × Value))
  deriving Repr, Inhabited

/-- The members of an object by their names, in their order. -/
abbrev Members := List (Text × Value)

namespace Members

/-- The value under a name. -/
def get? (name : Text) (ms : Members) : Option Value := ms.lookup name

/-- Sets a name: in its place if it is there, else at the end. -/
def put (name : Text) (v : Value) : Members → Members
  | [] => [(name, v)]
  | (other, w) :: ms => if other = name then (name, v) :: ms else (other, w) :: put name v ms

/-- The members of a list of pairs, of which the last with a name counts. -/
def ofPairs (ps : List (Text × Value)) : Members := ps.foldl (fun ms p => put p.1 p.2 ms) []

/-- The first member counts, if it has the name. -/
theorem get?_cons (name other : Text) (v : Value) (ms : Members) :
    get? other ((name, v) :: ms) = if other = name then some v else get? other ms := by
  rw [get?, List.lookup_cons]
  by_cases h : other = name
  · simp [h]
  · have h' : (other == name) = false := by simpa using h
    simp [get?, h, h']

end Members

namespace Value

/-- The name of the kind of a value, as messages give it. -/
def kind : Value → String
  | .null     => "NoneType"
  | .bool _   => "bool"
  | .int _    => "int"
  | .float _  => "float"
  | .text _   => "str"
  | .list _   => "list"
  | .object _ => "dict"

/-- Nothing, false, zero and whatever is empty do not count as given; no number does. -/
def isTruthy : Value → Bool
  | .null      => false
  | .bool b    => b
  | .int n     => n != 0
  | .float d   => !d.isZero
  | .text t    => !t.isEmpty
  | .list xs   => !xs.isEmpty
  | .object ms => !ms.isEmpty

/-- The text of a string, as a value. -/
def string (s : String) : Value := .text (Text.of s)

/-- A whole number or nothing. -/
def ofNat? : Option Nat → Value
  | some n => .int n
  | none   => .null

/-- A text or nothing. -/
def ofText? : Option Text → Value
  | some t => .text t
  | none   => .null

/-- An object from its members, each name given once. -/
def record (ms : List (String × Value)) : Value := .object (ms.map fun m => (Text.of m.1, m.2))

end Value

end ConfigPanel
