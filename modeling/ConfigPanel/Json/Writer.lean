import ConfigPanel.Number.Shortest
import ConfigPanel.Text.Quoted
import ConfigPanel.Value

/-!
# Json — writing a value

The compact form: no blanks, members in their order, and every code point as itself but for the
double quote, the backslash and the controls below `0x20`.  A lone surrogate is written as itself,
too, so the written text of a value that holds one cannot be encoded.
-/

namespace ConfigPanel.Json

/-- A code point inside a written text. -/
def writtenCodePoint : CodePoint → Text
  | .lone k => [.lone k]
  | .char c =>
      if c = '\x22' then Text.of "\\\x22"
      else if c = '\\' then Text.of "\\\\"
      else if c = '\n' then Text.of "\\n"
      else if c = '\r' then Text.of "\\r"
      else if c = '\t' then Text.of "\\t"
      else if c = '\x0c' then Text.of "\\f"
      else if c = '\x08' then Text.of "\\b"
      else if c.toNat < 0x20 then (('\\' :: 'u' :: Text.hexDigits 4 c.toNat).map .char)
      else [.char c]

/-- A text in double quotes. -/
def writtenText (t : Text) : Text :=
  .char '\x22' :: (t.flatMap writtenCodePoint ++ [.char '\x22'])

/-- A double by its shortest digits, the special ones by the words that are read back. -/
def writtenDouble : Double → Text
  | .nan            => Text.of "NaN"
  | .infinite false => Text.of "Infinity"
  | .infinite true  => Text.of "-Infinity"
  | d               => Text.of d.shown

mutual

/-- The compact text of a value. -/
def written : Value → Text
  | .null       => Text.of "null"
  | .bool true  => Text.of "true"
  | .bool false => Text.of "false"
  | .int n      => Text.of (toString n)
  | .float d    => writtenDouble d
  | .text t     => writtenText t
  | .list xs    => .char '[' :: (writtenItems xs ++ [.char ']'])
  | .object ms  => .char '\x7b' :: (writtenMembers ms ++ [.char '\x7d'])

/-- The items of a list with commas between them. -/
def writtenItems : List Value → Text
  | []      => []
  | [v]     => written v
  | v :: vs => written v ++ .char ',' :: writtenItems vs

/-- The members of an object, each a name, a colon and a value, with commas between them. -/
def writtenMembers : List (Text × Value) → Text
  | []           => []
  | [(k, v)]     => writtenText k ++ .char ':' :: written v
  | (k, v) :: ms => writtenText k ++ .char ':' :: (written v ++ .char ',' :: writtenMembers ms)

end

end ConfigPanel.Json
