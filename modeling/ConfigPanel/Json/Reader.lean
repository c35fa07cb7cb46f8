import ConfigPanel.Number.Numeral
import ConfigPanel.Value

/-!
# Json — reading a value

`Json.read` takes a text to the value it writes.  Every reader works on what is left of the text
and gives back what it leaves; a flaw carries the number of code points from its place to the end,
and only `Json.read`, which knows the whole text, turns that into a place in it.

Beside the values of the standard format, the words `NaN`, `Infinity` and `-Infinity` are doubles;
a number with a fraction or an exponent is a double and any other a whole number, of at most 4300
digits; of members with one name the last counts; and an escaped surrogate that is not the half of
a pair stays by itself.  Brackets may be nested as deep as there is room for on the stack.
-/

namespace ConfigPanel.Json

/-! ### Faults -/

/-- What a text lacks at some place, or has too much. -/
inductive Flaw where
  | noValue
  | noName
  | noColon
  | noComma
  | extraData
  | openText
  | controlCharacter
  | badEscape
  | badNumberEscape
  | byteOrderMark
  deriving DecidableEq, Repr

/-- The two kinds of brackets that nest. -/
inductive Bracket where
  | square
  | curly
  deriving DecidableEq, Repr

/-- A place in a text: its line and column, from one, and its offset, from zero. -/
structure Place where
  line : Nat
  column : Nat
  offset : Nat
  deriving DecidableEq, Repr

/-- Why a text is no value. -/
inductive Fault where
  | malformed (flaw : Flaw) (place : Place)
  | tooLong (digits : Nat)
  | tooDeep (innermost : Bracket)
  deriving DecidableEq, Repr

/-- A fault as a reader sees it, a flaw by the number of code points from it to the end. -/
inductive Stop where
  | flaw (flaw : Flaw) (left : Nat)
  | tooLong (digits : Nat)
  | tooDeep (innermost : Bracket)
  deriving DecidableEq, Repr

/-- What a reader finds: a result and the text after it, or a reason to stop. -/
abbrev Reading (α : Type) := Except Stop (α × Text)

/-- Stops with a flaw at what is left. -/
def stopAt {α : Type} (flaw : Flaw) (rest : Text) : Reading α := .error (.flaw flaw rest.length)

/-! ### Blanks and words -/

/-- The four characters that may stand between the parts of a value. -/
def isBlank (p : CodePoint) : Bool :=
  p = .char ' ' || p = .char '\t' || p = .char '\n' || p = .char '\r'

/-- What is left behind the blanks. -/
def skipBlanks (t : Text) : Text := t.dropWhile isBlank

/-- The words that stand for values. -/
def words : List (Text × Value) := [
    (Text.of "null", .null), (Text.of "true", .bool true), (Text.of "false", .bool false),
    (Text.of "NaN", .float .nan), (Text.of "Infinity", .float (.infinite false)),
    (Text.of "-Infinity", .float (.infinite true))]

/-- The value of the word that the text begins with. -/
def readWord? (t : Text) : Option (Value × Text) :=
  (words.find? fun w => w.1.isPrefixOf t).map fun w => (w.2, t.drop w.1.length)

/-! ### Texts -/

/-- Puts the code point with the number `n` in front of the text read so far, the last first; a
low half right after a high half makes one character with it. -/
def pushNumber (n : Nat) (read : Text) : Text :=
  match read with
  | high :: before =>
      if high.isHigh && (CodePoint.ofValue n).isLow then
        CodePoint.paired high (CodePoint.ofValue n) :: before
      else CodePoint.ofValue n :: read
  | [] => [CodePoint.ofValue n]

/-- The character that an escape letter stands for. -/
def escapedChar? : CodePoint → Option Char
  | .char '\x22' => some '\x22'
  | .char '\\'   => some '\\'
  | .char '/'    => some '/'
  | .char 'b'    => some '\x08'
  | .char 'f'    => some '\x0c'
  | .char 'n'    => some '\n'
  | .char 'r'    => some '\r'
  | .char 't'    => some '\t'
  | _            => none

/-- The value of a code point that is a hexadecimal digit. -/
def hexDigit? (p : CodePoint) : Option Nat := p.char?.bind Text.hexDigitValue?

/-- The number that four hexadecimal digits write. -/
def hexNumber? (a b c d : CodePoint) : Option Nat := do
  let a ← hexDigit? a
  let b ← hexDigit? b
  let c ← hexDigit? c
  let d ← hexDigit? d
  return ((a * 16 + b) * 16 + c) * 16 + d

/-- Reads a text after its opening quote, from which on all is `start`.  A number escape at the very
end is bad, since a quote must follow it. -/
def readTextFrom (start read : Text) : Text → Reading Text
  | [] => stopAt .openText start
  | .char '\x22' :: rest => .ok (read.reverse, rest)
  | .char '\\' :: [] => stopAt .openText start
  | .char '\\' :: .char 'u' :: a :: b :: c :: d :: rest =>
      match hexNumber? a b c d with
      | some n =>
          -- the four digits are the last of the text
          if rest.isEmpty then .error (.flaw .badNumberEscape 5)
          else readTextFrom start (pushNumber n read) rest
      | none => .error (.flaw .badNumberEscape (rest.length + 5))
  | .char '\\' :: p :: rest =>
      match escapedChar? p with
      | some c => readTextFrom start (.char c :: read) rest
      | none   =>
          if p = .char 'u' then .error (.flaw .badNumberEscape (rest.length + 1))
          else .error (.flaw .badEscape (rest.length + 2))
  | p :: rest =>
      if p.value < 0x20 then .error (.flaw .controlCharacter (rest.length + 1))
      else readTextFrom start (p :: read) rest

/-! ### Numbers -/

/-- The digits that a text begins with. -/
def digitsOf (t : Text) : List Nat :=
  (t.takeWhile fun p => (p.char?.bind Text.asciiDigitValue?).isSome).filterMap fun p =>
    p.char?.bind Text.asciiDigitValue?

/-- The digits of a fraction: a point with a digit after it. -/
def fractionOf : Text → List Nat
  | .char '.' :: rest => digitsOf rest
  | _                 => []

/-- The value and the length of an exponent: its letter, a sign, and a digit after these. -/
def exponentOf? : Text → Option (Int × Nat)
  | .char e :: rest =>
      if e = 'e' || e = 'E' then
        let (negative, mark, rest) := match rest with
          | .char '+' :: rest => (false, 2, rest)
          | .char '-' :: rest => (true, 2, rest)
          | rest              => (false, 1, rest)
        let ds := digitsOf rest
        if ds.isEmpty then none
        else some (Numeral.negateIf negative (Numeral.ofDigits ds), mark + ds.length)
      else none
  | _ => none

/-- A number starts with a zero that stands alone, or with another digit. -/
def integerOf (t : Text) : List Nat :=
  match digitsOf t with
  | 0 :: _ => [0]
  | ds     => ds

/-- Reads a number; `all` is where its text starts. -/
def readNumber (all : Text) : Reading Value :=
  let (negative, t) := match all with
    | .char '-' :: rest => (true, rest)
    | _                 => (false, all)
  let whole := integerOf t
  if whole.isEmpty then stopAt .noValue all
  else
    let t := t.drop whole.length
    let fraction := fractionOf t
    let t := if fraction.isEmpty then t else t.drop (fraction.length + 1)
    match exponentOf? t with
    | some (power, length) =>
        .ok (.float (Double.ofDecimal negative (Numeral.ofDigits (whole ++ fraction))
          (power - fraction.length)), t.drop length)
    | none =>
        if !fraction.isEmpty then
          .ok (.float (Double.ofDecimal negative (Numeral.ofDigits (whole ++ fraction))
            (-fraction.length)), t)
        else if Numeral.digitLimit < whole.length then .error (.tooLong whole.length)
        else .ok (.int (Numeral.negateIf negative (Numeral.ofDigits whole)), t)

/-! ### Values -/

/-- Reads items and the closing bracket; `fuel` bounds the number of items and is never used up by
a text that is shorter. -/
def readItems (item : Text → Reading Value) : Nat → List Value → Text → Reading (List Value)
  | 0, _, t => stopAt .noComma t
  | fuel + 1, read, t =>
      match item t with
      | .error e => .error e
      | .ok (v, rest) =>
          match skipBlanks rest with
          | .char ']' :: rest => .ok ((v :: read).reverse, rest)
          | .char ',' :: rest => readItems item fuel (v :: read) (skipBlanks rest)
          | rest              => stopAt .noComma rest

/-- Reads a name, a colon and a value. -/
def readMember (item : Text → Reading Value) : Text → Reading (Text × Value)
  | start@(.char '\x22' :: rest) =>
      match readTextFrom start [] rest with
      | .error e => .error e
      | .ok (name, rest) =>
          match skipBlanks rest with
          | .char ':' :: rest => (item (skipBlanks rest)).map fun r => ((name, r.1), r.2)
          | rest              => stopAt .noColon rest
  | t => stopAt .noName t

/-- Reads members and the closing bracket, with `fuel` as for items. -/
def readMembers (item : Text → Reading Value) :
    Nat → List (Text × Value) → Text → Reading (List (Text × Value))
  | 0, _, t => stopAt .noComma t
  | fuel + 1, read, t =>
      match readMember item t with
      | .error e => .error e
      | .ok (m, rest) =>
          match skipBlanks rest with
          | .char '\x7d' :: rest => .ok ((m :: read).reverse, rest)
          | .char ',' :: rest    => readMembers item fuel (m :: read) (skipBlanks rest)
          | rest                 => stopAt .noComma rest

/-- Reads a list after its opening bracket. -/
def readList (item : Text → Reading Value) (fuel : Nat) (t : Text) : Reading Value :=
  match skipBlanks t with
  | .char ']' :: rest => .ok (.list [], rest)
  | t => (readItems item fuel [] t).map fun r => (.list r.1, r.2)

/-- Reads an object after its opening bracket. -/
def readObject (item : Text → Reading Value) (fuel : Nat) (t : Text) : Reading Value :=
  match skipBlanks t with
  | .char '\x7d' :: rest => .ok (.object [], rest)
  | t => (readMembers item fuel [] t).map fun r => (.object (Members.ofPairs r.1), r.2)

/-- Reads a text, a word or a number. -/
def readPlain : Text → Reading Value
  | start@(.char '\x22' :: rest) =>
      (readTextFrom start [] rest).map fun r => (.text r.1, r.2)
  | t =>
      match readWord? t with
      | some r => .ok r
      | none   => readNumber t

/-- Reads a value in which brackets are nested at most `depth` deep and hold less than `fuel`
items each. -/
def readValue (fuel : Nat) : (depth : Nat) → Text → Reading Value
  | 0, .char '[' :: _              => .error (.tooDeep .square)
  | 0, .char '\x7b' :: _           => .error (.tooDeep .curly)
  | depth + 1, .char '[' :: rest    => readList (readValue fuel depth) fuel rest
  | depth + 1, .char '\x7b' :: rest => readObject (readValue fuel depth) fuel rest
  | _, t                           => readPlain t

/-- Reads a value with blanks around it and nothing after it, in which brackets are nested at most
`room` deep; no brackets in a text hold as many items as it has code points. -/
def readAll (room : Nat) (t : Text) : Except Stop Value :=
  match t with
  | .char '\ufeff' :: _ => .error (.flaw .byteOrderMark t.length)
  | _ =>
      match readValue t.length room (skipBlanks t) with
      | .error e => .error e
      | .ok (v, rest) =>
          match skipBlanks rest with
          | []   => .ok v
          | rest => .error (.flaw .extraData rest.length)

/-! ### Places and messages -/

/-- The place that lies `left` code points before the end. -/
def placeOf (t : Text) (left : Nat) : Place :=
  let before := t.take (t.length - left)
  let column := (before.reverse.takeWhile (· != .char '\n')).length
  ⟨before.count (.char '\n') + 1, column + 1, before.length⟩

/-- The value that a text writes, if its brackets are nested at most `room` deep. -/
def read (room : Nat) (t : Text) : Except Fault Value :=
  match readAll room t with
  | .ok v                    => .ok v
  | .error (.flaw flaw left) => .error (.malformed flaw (placeOf t left))
  | .error (.tooLong digits) => .error (.tooLong digits)
  | .error (.tooDeep b)      => .error (.tooDeep b)

/-- What is said of a flaw. -/
def Flaw.message : Flaw → String
  | .noValue          => "Expecting value"
  | .noName           => "Expecting property name enclosed in double quotes"
  | .noColon          => "Expecting ':' delimiter"
  | .noComma          => "Expecting ',' delimiter"
  | .extraData        => "Extra data"
  | .openText         => "Unterminated string starting at"
  | .controlCharacter => "Invalid control character at"
  | .badEscape        => "Invalid \\escape"
  | .badNumberEscape  => "Invalid \\uXXXX escape"
  | .byteOrderMark    => "Unexpected UTF-8 BOM (decode using utf-8-sig)"

/-- What messages call a value in such brackets. -/
def Bracket.name : Bracket → String
  | .square => "array"
  | .curly  => "object"

/-- What is said of a fault, with its place counted in lines, columns and code points. -/
def Fault.message : Fault → String
  | .malformed flaw place =>
      flaw.message ++ ": line " ++ toString place.line ++ " column " ++ toString place.column ++
        " (char " ++ toString place.offset ++ ")"
  | .tooLong digits => Numeral.tooLongMessage digits
  | .tooDeep b =>
      "maximum recursion depth exceeded while decoding a JSON " ++ b.name ++
        " from a unicode string"

end ConfigPanel.Json
