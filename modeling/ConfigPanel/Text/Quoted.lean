import ConfigPanel.Text
import ConfigPanel.Text.Printable

/-!
# Text — quoted texts

A text in a message stands between single quotes; if it holds single quotes and no double ones, it
stands between double quotes.  The quote in use and the backslash are escaped by a backslash, the
tab, the line feed and the carriage return by their letters, and whatever is not printable by its
number in two, four or eight hexadecimal digits.
-/

namespace ConfigPanel.Text

/-- The last `width` hexadecimal digits of a number. -/
def hexDigits : (width : Nat) → Nat → List Char
  | 0, _         => []
  | width + 1, n => hexDigits width (n / 16) ++ [Nat.digitChar (n % 16)]

/-- The escape of a code point by its number. -/
def numberEscape (n : Nat) : List Char :=
  if n < 0x100 then '\\' :: 'x' :: hexDigits 2 n
  else if n < 0x10000 then '\\' :: 'u' :: hexDigits 4 n
  else '\\' :: 'U' :: hexDigits 8 n

/-- A code point in a quoted text. -/
def quotedCodePoint (quote : Char) : CodePoint → List Char
  | .lone k => numberEscape (0xD800 + k)
  | .char c =>
      if c = quote || c = '\\' then ['\\', c]
      else if c = '\t' then ['\\', 't']
      else if c = '\n' then ['\\', 'n']
      else if c = '\r' then ['\\', 'r']
      else if isPrintable c then [c]
      else numberEscape c.toNat

/-- The quote that a text usually stands in. -/
def singleQuote : Char := Char.ofNat 39

/-- The quote for texts that hold single quotes only. -/
def doubleQuote : Char := Char.ofNat 34

/-- The quote that a text is put in. -/
def quoteFor (t : Text) : Char :=
  if t.contains (.char singleQuote) && !t.contains (.char doubleQuote) then doubleQuote
  else singleQuote

/-- A text in the quotes that suit it. -/
def quoted (t : Text) : List Char :=
  let quote := quoteFor t
  quote :: (t.flatMap (quotedCodePoint quote) ++ [quote])

/-- A string in the quotes that suit it. -/
def quotedString (s : String) : String := String.ofList (quoted (of s))

end ConfigPanel.Text
