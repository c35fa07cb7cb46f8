import ConfigPanel.Number.Double

/-!
# Number — the fewest digits that read back

The reals that round to a positive double form an interval around it, whose ends belong to it when
the mantissa is even.  `Shortest.digits` looks for a decimal number in that interval on ever finer
grids, of one digit, two digits, and so on: on each grid only the two neighbours of the double can
be in the interval, and of two that are the nearer is taken.  Everything is compared in exact
arithmetic, as multiples of a quarter of the last binary place.

`Double.shown` lays the digits out: positionally when the first digit stands for `10 ^ -4` to
`10 ^ 15`, with a fraction always there, and otherwise with an exponent of two digits or more.
-/

namespace ConfigPanel

/-! ### The digits -/

namespace Shortest

/-- A decimal number `significand · 10 ^ exponent`. -/
structure Decimal where
  significand : Nat
  exponent : Int
  deriving DecidableEq, Repr

/-- A double with the interval of reals that round to it, all in units of `2 ^ exponent`. -/
structure Interval where
  low : Nat
  center : Nat
  high : Nat
  exponent : Int
  closed : Bool
  deriving DecidableEq, Repr

/-- The interval of a double: half a place on either side, but a quarter below a power of two,
where the places begin to lie closer. -/
def Interval.around (mantissa : Nat) (exponent : Int) : Interval :=
  let narrow := mantissa == Double.leastMantissa && Double.leastExponent < exponent
  ⟨4 * mantissa - (if narrow then 1 else 2), 4 * mantissa, 4 * mantissa + 2, exponent - 2,
    mantissa % 2 == 0⟩

/-- The two sides of a comparison between `n · 2 ^ binary` and `k · 10 ^ decimal`, scaled to
natural numbers. -/
def scaled (n : Nat) (binary : Int) (k : Nat) (decimal : Int) : Nat × Nat :=
  (raise 10 (raise 2 n binary) (-decimal), raise 2 (raise 10 k decimal) (-binary))

/-- Whether a decimal number lies in the interval. -/
def Interval.admits (i : Interval) (d : Decimal) : Bool :=
  let (low, x) := scaled i.low i.exponent d.significand d.exponent
  let (high, y) := scaled i.high i.exponent d.significand d.exponent
  if i.closed then low ≤ x && y ≤ high else low < x && y < high

/-- The distance between the double and a decimal number, in units that only depend on the
exponent of the latter. -/
def Interval.distance (i : Interval) (d : Decimal) : Nat :=
  let (c, x) := scaled i.center i.exponent d.significand d.exponent
  (c - x) + (x - c)

/-- The greatest `p` with `10 ^ p ≤ num / den`. -/
def log10Quotient (num den : Nat) : Int :=
  let guess : Int := (Double.digitCount num : Int) - Double.digitCount den
  if raise 10 den guess ≤ raise 10 num (-guess) then guess else guess - 1

/-- The better of the two grid points next to the double, if one is in the interval. -/
def Interval.onGrid? (i : Interval) (exponent : Int) : Option Decimal :=
  let (c, unit) := scaled i.center i.exponent 1 exponent
  let below : Decimal := ⟨c / unit, exponent⟩
  let above : Decimal := ⟨c / unit + 1, exponent⟩
  match i.admits below, i.admits above with
  | false, false => none
  | true,  false => some below
  | false, true  => some above
  | true,  true  =>
      if i.distance below < i.distance above then some below
      else if i.distance above < i.distance below then some above
      -- the double lies in the middle
      else if below.significand % 2 = 0 then some below
      else some above

/-- The grids of one digit to seventeen, the coarsest first. -/
def grids (leading : Int) : List Int := (List.range 17).map fun (n : Nat) => leading - n

/-- The shortest decimal number that rounds to `mantissa · 2 ^ exponent`, the nearest of those.
Seventeen digits always do; past them stands the double itself. -/
def digits (mantissa : Nat) (exponent : Int) : Decimal :=
  let i := Interval.around mantissa exponent
  let leading := log10Quotient (raise 2 i.center i.exponent) (raise 2 1 (-i.exponent))
  match (grids leading).findSome? i.onGrid? with
  | some d => d
  | none   => ⟨Double.floorMagnitude mantissa exponent, 0⟩

/-- A decimal number without the zeros at the end of its significand. -/
def Decimal.stripZeros (d : Decimal) : Decimal :=
  go d.significand d.significand d.exponent
where
  go : Nat → Nat → Int → Decimal
    | 0, n, e => ⟨n, e⟩
    | fuel + 1, n, e => if n % 10 = 0 && 0 < n then go fuel (n / 10) (e + 1) else ⟨n, e⟩

end Shortest

/-! ### The layout -/

namespace Double

/-- The least place of the first digit at which a number is written positionally. -/
def positionalFrom : Int := -4

/-- The place of the first digit from which on a number is no longer written positionally. -/
def positionalBelow : Int := 16

/-- So many zeros. -/
def zeros (n : Nat) : List Char := List.replicate n '0'

/-- The digits `ds`, of which the first stands for `10 ^ leading`, with a point. -/
def positional (ds : List Char) (leading : Int) : List Char :=
  if leading < 0 then '0' :: '.' :: (zeros (-leading - 1).toNat ++ ds)
  else
    let before := leading.toNat + 1
    if ds.length ≤ before then ds ++ zeros (before - ds.length) ++ ['.', '0']
    else ds.take before ++ '.' :: ds.drop before

/-- The digits `ds` with a point after the first and an exponent. -/
def scientific (ds : List Char) (leading : Int) : List Char :=
  let front := match ds with
    | d :: e :: rest => d :: '.' :: e :: rest
    | _              => ds
  let power := Nat.toDigits 10 leading.natAbs
  front ++ 'e' :: (if leading < 0 then '-' else '+') :: (zeros (2 - power.length) ++ power)

/-- The shortest text that reads back, without a sign. -/
def shownMagnitude (mantissa : Nat) (exponent : Int) : List Char :=
  if mantissa = 0 then ['0', '.', '0']
  else
    let d := (Shortest.digits mantissa exponent).stripZeros
    let ds := Nat.toDigits 10 d.significand
    let leading := d.exponent + ds.length - 1
    if positionalFrom ≤ leading && leading < positionalBelow then positional ds leading
    else scientific ds leading

/-- A double as messages show it. -/
def shown : Double → String
  | .finite s m e _ => String.ofList (if s then '-' :: shownMagnitude m e else shownMagnitude m e)
  | .infinite s     => if s then "-inf" else "inf"
  | .nan            => "nan"

end Double

end ConfigPanel
