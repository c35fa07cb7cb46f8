import ConfigPanel.Text
import ConfigPanel.Text.Blank
import ConfigPanel.Text.DecimalDigit

/-!
# Number — whole numbers written in decimal

Two readers, each with its own grammar.  Both take blanks at either end, a sign, and digits with
single underscores between them (`grouped?`), and neither takes more than 4300 digits.

* `readVersion` reads ASCII digits.  Before them a run of zeros and underscores that starts with a
  zero counts for nothing, and so may a minus sign stand behind such a run; after them may stand a
  point with zeros only.  A text that goes on for too long is told from one that cannot be read only
  where the digits are the first thing in it (`plainDigits`).
* `readLimit` reads the decimal digits of any script, counts the zeros in front as digits too, and
  looks at the number of digits before it looks at what follows them.

The same bound holds where a number is written: one of more digits is not `Writable`, and whatever
would write it fails.
-/

namespace ConfigPanel.Numeral

/-- Why a text is refused as a whole number. -/
inductive Fault where
  | unreadable
  | tooLong (digits : Nat)
  deriving DecidableEq, Repr

/-- The most digits a number may have when it is read or written. -/
def digitLimit : Nat := 4300

/-! ### Writing -/

/-- The number has no more digits than can be written. -/
def Writable (n : Int) : Prop := n.natAbs < Nat.pow 10 digitLimit

-- irreducible, so that no proof computes the power
@[irreducible] instance : DecidablePred Writable := fun n =>
  Nat.decLt n.natAbs (Nat.pow 10 digitLimit)

/-! ### Reading -/

/-- The number that a list of digits stands for. -/
def ofDigits (ds : List Nat) : Nat := ds.foldl (fun n d => 10 * n + d) 0

/-- The values of digits with single underscores between them. -/
def grouped? (value? : Char → Option Nat) : List Char → Option (List Nat)
  | []               => none
  | [c]              => (value? c).map fun d => [d]
  | c :: '_' :: rest => (value? c).bind fun d => (grouped? value? rest).map (d :: ·)
  | c :: rest        => (value? c).bind fun d => (grouped? value? rest).map (d :: ·)

/-- A sign, and what follows it. -/
def splitSign : List Char → Bool × List Char
  | '+' :: rest => (false, rest)
  | '-' :: rest => (true, rest)
  | cs          => (false, cs)

/-- The number, or its negation. -/
def negateIf (negative : Bool) (n : Nat) : Int := if negative then -(n : Int) else n

/-! ### Versions -/

/-- What a run in front of a version may hold that counts for nothing. -/
def isZeroOrUnderscore (c : Char) : Bool := c == '0' || c == '_'

/-- Drops the zeros and underscores in front of the first other digit or of a minus sign, if the
run starts with a zero; of a number that is zero, the last zero stays. -/
def dropLeadingZeros? : List Char → Option (List Char)
  | '0' :: rest =>
      let run := '0' :: rest.takeWhile isZeroOrUnderscore
      match rest.dropWhile isZeroOrUnderscore with
      | c :: more =>
          if c.isDigit || c = '-' then some (c :: more)
          else if c = '.' && run.getLast? == some '0' then some ('0' :: c :: more)
          else none
      | [] => if run.getLast? == some '0' then some ['0'] else none
  | '-' :: _ => none
  | cs       => some cs

/-- Drops a point followed by one zero or more at the end. -/
def dropZeroFraction (cs : List Char) : List Char :=
  match cs.dropWhile (· != '.') with
  | '.' :: '0' :: zeros => if zeros.all (· == '0') then cs.takeWhile (· != '.') else cs
  | _                   => cs

/-- The digits behind a minus sign that stands behind zeros: an underscore may come before them, and
no zero that they do not need. -/
def digitsAfterMinus? (cs : List Char) : Option (List Nat) :=
  let cs := match cs with
    | '_' :: more => more
    | cs          => cs
  (grouped? Text.asciiDigitValue? cs).filter fun ds => ds.head? != some 0 || ds.length == 1

/-- The digits of a version with the sign of the number: the sign in front, or a minus sign behind
zeros when there is no other. -/
def versionDigits? (negative : Bool) (cs : List Char) : Option (Bool × List Nat) :=
  (dropLeadingZeros? cs).bind fun cs =>
    match dropZeroFraction cs with
    | '-' :: rest => if negative then none else (digitsAfterMinus? rest).map fun ds => (true, ds)
    | cs          => (grouped? Text.asciiDigitValue? cs).map fun ds => (negative, ds)

/-- The digits that a text begins with, after a minus sign or none, unless the first is a zero. -/
def plainDigits (cs : List Char) : List Char :=
  let cs := match cs with
    | '-' :: rest => rest
    | cs          => cs
  if cs.head? = some '0' then [] else cs.takeWhile Char.isDigit

/-- The whole number that the characters of a version denote. -/
def version? (cs : List Char) : Option Int :=
  let (negative, cs) := splitSign (Text.trimBlanks cs)
  (versionDigits? negative cs).bind fun (negative, ds) =>
    if ds.length ≤ digitLimit then some (negateIf negative (ofDigits ds)) else none

/-- The whole number that a version text denotes. -/
def readVersion (t : Text) : Except Fault Int :=
  match t.mapM CodePoint.char? with
  | none    => .error .unreadable
  | some cs =>
      -- what follows the digits does not matter when they are too many
      if digitLimit < (plainDigits cs).length then .error (.tooLong (plainDigits cs).length)
      else
        match version? cs with
        | some n => .ok n
        | none   => .error .unreadable

/-! ### Limits -/

/-- What the digits of a limit are made of. -/
def isDigitOrUnderscore (c : Char) : Bool := c == '_' || (Text.digitValue? c).isSome

/-- The whole number that a limit text denotes. -/
def readLimit (s : String) : Except Fault Int :=
  let (negative, cs) := splitSign (Text.trimBlanks s.toList)
  match grouped? Text.digitValue? (cs.takeWhile isDigitOrUnderscore) with
  | none    => .error .unreadable
  | some ds =>
      -- too many digits are noticed before anything that follows them
      if digitLimit < ds.length then .error (.tooLong ds.length)
      else if (cs.dropWhile isDigitOrUnderscore).isEmpty then
        .ok (negateIf negative (ofDigits ds))
      else .error .unreadable

/-- What is said of a number with too many digits. -/
def tooLongMessage (digits : Nat) : String :=
  "Exceeds the limit (" ++ toString digitLimit ++
    " digits) for integer string conversion: value has " ++ toString digits ++
    " digits; use sys.set_int_max_str_digits() to increase the limit"

/-! ### Samples -/

example : readVersion (Text.of " +1_0.0 ") = .ok 10 := rfl
example : readVersion (Text.of "00_1") = .ok 1 := rfl
example : readVersion (Text.of "-007") = .ok (-7) := rfl
example : readVersion (Text.of "_1") = .error .unreadable := rfl
example : readVersion (Text.of "5.") = .error .unreadable := rfl
example : readVersion (Text.of "0_-_5") = .ok (-5) := rfl
example : readVersion (Text.of "-0-5") = .error .unreadable := rfl
example : readVersion (Text.of "0-05") = .error .unreadable := rfl
example : readLimit " 1_0 " = .ok 10 := rfl
example : readLimit "1__0" = .error .unreadable := rfl

end ConfigPanel.Numeral
