import ConfigPanel.Text.DecimalDigit
import ConfigPanel.Text.Encoding

/-!
# Text — percent encoding

An address is written in ASCII: letters, digits, and the marks that stay as they are; every byte of
any other character becomes a percent sign and two upper-case hexadecimal digits.  In a path the
question mark and the number sign are among the others, since they would end it; a query keeps them.
Decoding puts the bytes back; a percent sign without two digits after it stands for itself.
-/

namespace ConfigPanel.Text

/-- The marks that a path keeps. -/
def pathMarks : List Char := "_.-~:/%=@[]!$&'()*+,;".toList

/-- The marks that a query keeps. -/
def queryMarks : List Char := '?' :: '#' :: pathMarks

/-- The last hexadecimal digit of a number, in upper case. -/
def upperHexDigit (n : Nat) : Char := (Nat.digitChar (n % 16)).toUpper

/-- A byte behind a percent sign. -/
def percentByte (b : UInt8) : List Char :=
  ['%', upperHexDigit (b.toNat / 16), upperHexDigit b.toNat]

/-- A character of an address that keeps the marks. -/
def percentChar (marks : List Char) (c : Char) : List Char :=
  if c.isAlphanum || marks.contains c then [c]
  else (String.utf8EncodeChar c).flatMap percentByte

/-- The address of a text that keeps the marks. -/
def percentEncode (marks : List Char) (s : String) : String :=
  String.ofList (s.toList.flatMap (percentChar marks))

/-- The bytes that a written address stands for. -/
def percentBytes : List Char → List UInt8
  | '%' :: a :: b :: rest =>
      match hexDigitValue? a, hexDigitValue? b with
      | some x, some y => (x * 16 + y).toUInt8 :: percentBytes rest
      | _, _           => 0x25 :: percentBytes (a :: b :: rest)
  | c :: rest => String.utf8EncodeChar c ++ percentBytes rest
  | []        => []

/-- The text that a written address stands for, if its bytes are one. -/
def percentDecode? (s : String) : Option String :=
  match Utf8.decode (percentBytes s.toList) with
  | .ok t    => t.toString?
  | .error _ => none

example : percentEncode pathMarks "/configs/a b?" = "/configs/a%20b%3F" := by decide
example : percentEncode queryMarks "a b?" = "a%20b?" := by decide

end ConfigPanel.Text
