import ConfigPanel.Text

/-!
# Text — UTF-8, read strictly, and the line ends of a file

`Utf8.decode` reads bytes as UTF-8 without mercy: the first byte that cannot stand where it stands
ends the reading, and the fault names the bytes of the sequence that were still good.  Overlong
forms, surrogates and numbers beyond `0x10FFFF` are excluded by the range allowed for the second
byte.  `Text.encode` goes the other way and fails at the first run of lone surrogates.
`Text.foldLineEnds` makes every line end a single line feed.
-/

namespace ConfigPanel

/-! ### Reading bytes -/

namespace Utf8

/-- Why a byte sequence is not UTF-8. -/
inductive Flaw where
  | startByte
  | continuationByte
  | cutOff
  deriving DecidableEq, Repr

/-- A flaw, with the first byte of the sequence it spoils, its place and how many bytes are good. -/
structure Fault where
  flaw : Flaw
  byte : UInt8
  place : Nat
  length : Nat
  deriving DecidableEq, Repr

/-- A sequence under way: the bytes still to come, the range of the next one, the number read so
far, and where the sequence began. -/
structure Pending where
  missing : Nat
  low : UInt8
  high : UInt8
  number : Nat
  byte : UInt8
  place : Nat
  length : Nat

/-- What a first byte announces: a whole character, a sequence, or nothing. -/
inductive Lead where
  | whole (c : Char)
  | opens (p : Pending)
  | stray

/-- The range of the second byte shuts out overlong forms, surrogates and numbers too great. -/
def lead (b : UInt8) (place : Nat) : Lead :=
  if b < 0x80 then .whole (Char.ofNat b.toNat)
  else if b < 0xC2 then .stray
  else if b < 0xE0 then .opens ⟨1, 0x80, 0xBF, b.toNat - 0xC0, b, place, 1⟩
  else if b < 0xF0 then
    .opens ⟨2, if b = 0xE0 then 0xA0 else 0x80, if b = 0xED then 0x9F else 0xBF,
      b.toNat - 0xE0, b, place, 1⟩
  else if b < 0xF5 then
    .opens ⟨3, if b = 0xF0 then 0x90 else 0x80, if b = 0xF4 then 0x8F else 0xBF,
      b.toNat - 0xF0, b, place, 1⟩
  else .stray

/-- Reads on at `place`, inside a sequence or between two, with the characters read so far last
first. -/
def decodeFrom (place : Nat) (pending : Option Pending) (read : Text) :
    List UInt8 → Except Fault Text
  | [] =>
      match pending with
      | none   => .ok read.reverse
      | some p => .error ⟨.cutOff, p.byte, p.place, p.length⟩
  | b :: bytes =>
      match pending with
      | none =>
          match lead b place with
          | .whole c => decodeFrom (place + 1) none (.char c :: read) bytes
          | .opens p => decodeFrom (place + 1) (some p) read bytes
          | .stray   => .error ⟨.startByte, b, place, 1⟩
      | some p =>
          if p.low ≤ b ∧ b ≤ p.high then
            let number := p.number * 64 + (b.toNat - 0x80)
            if p.missing ≤ 1 then
              decodeFrom (place + 1) none (.char (Char.ofNat number) :: read) bytes
            else
              decodeFrom (place + 1)
                (some ⟨p.missing - 1, 0x80, 0xBF, number, p.byte, p.place, p.length + 1⟩) read bytes
          -- the sequence is at fault, not the byte that it lacks
          else .error ⟨.continuationByte, p.byte, p.place, p.length⟩

/-- The text of a byte sequence. -/
def decode (bytes : List UInt8) : Except Fault Text := decodeFrom 0 none [] bytes

/-- The last hexadecimal digit of a number, in lower case. -/
def hexDigit (n : Nat) : Char := Nat.digitChar (n % 16)

/-- What is said of a flaw. -/
def Flaw.reason : Flaw → String
  | .startByte        => "invalid start byte"
  | .continuationByte => "invalid continuation byte"
  | .cutOff           => "unexpected end of data"

/-- One byte is named by its value, several by their places alone. -/
def Fault.message (f : Fault) : String :=
  if f.length = 1 then
    "'utf-8' codec can't decode byte 0x" ++
      String.ofList [hexDigit (f.byte.toNat / 16), hexDigit f.byte.toNat] ++
      " in position " ++ toString f.place ++ ": " ++ f.flaw.reason
  else
    "'utf-8' codec can't decode bytes in position " ++ toString f.place ++ "-" ++
      toString (f.place + f.length - 1) ++ ": " ++ f.flaw.reason

end Utf8

/-! ### Line ends -/

namespace Text

/-- Turns `\r\n` and `\r` into `\n`; `afterReturn` says that the last code point was a `\r`. -/
def foldLineEndsFrom (afterReturn : Bool) (folded : Text) : Text → Text
  | [] => folded.reverse
  | p :: t =>
      if p = .char '\r' then foldLineEndsFrom true (.char '\n' :: folded) t
      else if p = .char '\n' && afterReturn then foldLineEndsFrom false folded t
      else foldLineEndsFrom false (p :: folded) t

/-- A text with line feeds for its line ends. -/
def foldLineEnds (t : Text) : Text := foldLineEndsFrom false [] t

/-! ### Encoding -/

/-- The first run of lone surrogates of a text that cannot be encoded: its first code point, its
place and its length. -/
structure EncodeFault where
  first : CodePoint
  place : Nat
  length : Nat
  deriving DecidableEq, Repr

/-- The code points before the first lone surrogate. -/
def beforeLone (t : Text) : Text := t.takeWhile fun p => p.char?.isSome

/-- The first run of lone surrogates. -/
def firstLoneRun (t : Text) : Text :=
  (t.dropWhile fun p => p.char?.isSome).takeWhile fun p => p.char?.isNone

/-- The string of a text, or the run of surrogates that keeps it from being one. -/
def encode (t : Text) : Except EncodeFault String :=
  match t.toString? with
  | some s => .ok s
  | none   => .error ⟨t.firstLoneRun.headD (.char ' '), t.beforeLone.length, t.firstLoneRun.length⟩

/-- A text is encoded exactly when it is the text of a string, and as this string. -/
theorem encode_eq_ok_iff {t : Text} {s : String} : t.encode = .ok s ↔ t = of s := by
  rw [← toString?_eq_some_iff, encode]
  cases t.toString? <;> simp

/-- What is said of a text that cannot be encoded: one surrogate is named by its number, several by
their places alone. -/
def EncodeFault.message (f : EncodeFault) : String :=
  if f.length = 1 then
    "'utf-8' codec can't encode character '\\u" ++
      String.ofList (Nat.toDigits 16 f.first.value) ++ "' in position " ++ toString f.place ++
      ": surrogates not allowed"
  else
    "'utf-8' codec can't encode characters in position " ++ toString f.place ++ "-" ++
      toString (f.place + f.length - 1) ++ ": surrogates not allowed"

end Text

end ConfigPanel
