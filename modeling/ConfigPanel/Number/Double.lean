import ConfigPanel.Number.Scale

/-!
# Number — double-precision numbers as dyadic fractions

A finite double is `± m · 2 ^ e` with a 53-bit mantissa and an exponent from `-1074` to `971`.  Its
whole part and whether it has a fractional part are read off `m` and `e` in exact arithmetic
(`Double.whole?`, `Double.isWhole`).  `Double.ofDecimal` takes a decimal number to the double
nearest to it, a tie going to the even mantissa; beyond the greatest exponent lies infinity.
-/

namespace ConfigPanel

namespace Double

/-- Mantissas lie below this power of two. -/
def mantissaBound : Nat := 9007199254740992

/-- The least mantissa of a number that is not too small to use all its bits. -/
def leastMantissa : Nat := 4503599627370496

/-- The exponent of the smallest numbers. -/
def leastExponent : Int := -1074

/-- The exponent of the greatest numbers. -/
def greatestExponent : Int := 971

/-- Mantissa and exponent are those of a double. -/
def Fits (mantissa : Nat) (exponent : Int) : Prop :=
  mantissa < mantissaBound ∧ leastExponent ≤ exponent ∧ exponent ≤ greatestExponent

instance (mantissa : Nat) (exponent : Int) : Decidable (Fits mantissa exponent) :=
  inferInstanceAs (Decidable (_ ∧ _ ∧ _))

end Double

/-- A double: `mantissa · 2 ^ exponent` with a sign, an infinity, or no number. -/
inductive Double where
  | finite (negative : Bool) (mantissa : Nat) (exponent : Int)
      (fits : Double.Fits mantissa exponent)
  | infinite (negative : Bool)
  | nan
  deriving DecidableEq, Repr

namespace Double

/-! ### Whole parts -/

/-- The magnitude without its fraction. -/
def floorMagnitude (mantissa : Nat) (exponent : Int) : Nat :=
  raise 2 mantissa exponent / raise 2 1 (-exponent)

/-- A number with a sign. -/
def signed (negative : Bool) (n : Nat) : Int := if negative then -(n : Int) else n

/-- The number with its fraction cut off, if it is finite. -/
def whole? : Double → Option Int
  | .finite s m e _ => some (signed s (floorMagnitude m e))
  | .infinite _     => none
  | .nan            => none

/-- A finite number without a fractional part. -/
def isWhole : Double → Bool
  | .finite _ m e _ => m % raise 2 1 (-e) == 0
  | .infinite _     => false
  | .nan            => false

/-- Plus or minus zero. -/
def isZero : Double → Bool
  | .finite _ m _ _ => m == 0
  | _               => false

/-- The whole part of a double has no more bits than mantissas have, and no more places after them
than the greatest exponent gives. -/
theorem natAbs_lt_of_whole? {d : Double} {n : Int} (h : d.whole? = some n) :
    n.natAbs < raise 2 mantissaBound greatestExponent := by
  cases d with
  | infinite s => cases h
  | nan => cases h
  | finite s m e hfits =>
      have habs : n.natAbs = floorMagnitude m e := by
        rw [← Option.some.inj h]
        cases s <;> simp [signed]
      rw [habs]
      calc floorMagnitude m e
          ≤ raise 2 m e := Nat.div_le_self ..
        _ ≤ raise 2 m greatestExponent := raise_le_raise_right (by decide) hfits.2.2
        _ < raise 2 mantissaBound greatestExponent := raise_lt_raise (by decide) hfits.1

/-! ### The nearest double -/

/-- The quotient rounded to the nearest natural number, a tie to the even one. -/
def roundQuotient (num den : Nat) : Nat :=
  let q := num / den
  let r := num % den
  if den < 2 * r then q + 1
  else if 2 * r = den && q % 2 = 1 then q + 1
  else q

theorem roundQuotient_le {num den bound : Nat} (h : num < den * bound) :
    roundQuotient num den ≤ bound := by
  have hq : num / den < bound := Nat.div_lt_of_lt_mul h
  simp only [roundQuotient]
  split
  · exact hq
  · split
    · exact hq
    · exact Nat.le_of_lt hq

/-- The greatest `k` with `2 ^ k ≤ num / den`. -/
def log2Quotient (num den : Nat) : Int :=
  let guess : Int := Nat.log2 num - Nat.log2 den
  if raise 2 den guess ≤ raise 2 num (-guess) then guess else guess - 1

/-- The next power of two is beyond the quotient. -/
theorem lt_log2Quotient_succ {num den : Nat} (hden : 0 < den) :
    raise 2 num (-(log2Quotient num den + 1)) < raise 2 den (log2Quotient num den + 1) := by
  simp only [log2Quotient]
  split
  · simp only [raise, Nat.pow_eq]
    generalize hk : ((Nat.log2 num : Int) - Nat.log2 den + 1) = k
    have hexp : num.log2 + 1 + (-k).toNat = den.log2 + k.toNat := by omega
    calc num * 2 ^ (-k).toNat
        < 2 ^ (num.log2 + 1) * 2 ^ (-k).toNat :=
          Nat.mul_lt_mul_of_pos_right Nat.lt_log2_self (Nat.two_pow_pos _)
      _ = 2 ^ den.log2 * 2 ^ k.toNat := by rw [← Nat.pow_add, ← Nat.pow_add, hexp]
      _ ≤ den * 2 ^ k.toNat := Nat.mul_le_mul_right _ (Nat.log2_self_le (by omega))
  · rename_i hnot
    rw [Int.sub_add_cancel]
    exact Nat.lt_of_not_le hnot

/-- The exponent at which a quotient is rounded to a mantissa. -/
def exponentFor (num den : Nat) : Int := max leastExponent (log2Quotient num den - 52)

/-- The quotient rounded at its exponent. -/
def mantissaFor (num den : Nat) : Nat :=
  let e := exponentFor num den
  roundQuotient (raise 2 num (-e)) (raise 2 den e)

/-- A quotient scaled to its exponent rounds to no more than the bound, which is the next power of
two. -/
theorem mantissaFor_le {num den : Nat} (hden : 0 < den) : mantissaFor num den ≤ mantissaBound := by
  refine roundQuotient_le (raise_lt_raise_mul (w := 53) (lt_log2Quotient_succ hden) ?_)
  rw [exponentFor]
  omega

/-- The number of a mantissa and an exponent, or infinity when the exponent is too large. -/
def ofParts (negative : Bool) (m : Nat) (e : Int) (h : m < mantissaBound ∧ leastExponent ≤ e) :
    Double :=
  if he : e ≤ greatestExponent then .finite negative m e ⟨h.1, h.2, he⟩ else .infinite negative

/-- Plus or minus zero. -/
def zero (negative : Bool) : Double := .finite negative 0 leastExponent (by decide)

/-- The double nearest to `± num / den`. -/
def ofQuotient (negative : Bool) (num den : Nat) (hden : 0 < den) : Double :=
  have hexp : leastExponent ≤ exponentFor num den := Int.le_max_left ..
  if num = 0 then zero negative
  -- rounding up can reach the next power of two
  else if h : mantissaFor num den = mantissaBound then
    ofParts negative leastMantissa (exponentFor num den + 1) ⟨by decide, by omega⟩
  else
    ofParts negative (mantissaFor num den) (exponentFor num den)
      ⟨Nat.lt_of_le_of_ne (mantissaFor_le hden) h, hexp⟩

/-- The number of decimal digits of a number; zero has one. -/
def digitCount (n : Nat) : Nat := (Nat.toDigits 10 n).length

/-- The double nearest to `± digits · 10 ^ exponent`.  Numbers from `10 ^ 310` on are infinite and
those below `10 ^ -330` are zero, whatever their digits. -/
def ofDecimal (negative : Bool) (digits : Nat) (exponent : Int) : Double :=
  let scale := exponent + digitCount digits
  if digits = 0 || scale < -330 then zero negative
  else if 310 < scale then .infinite negative
  else
    ofQuotient negative (raise 10 digits exponent) (raise 10 1 (-exponent))
      (raise_pos (by decide) (by decide))

example : ofDecimal false 5 0 = .finite false 5629499534213120 (-50) (by decide) := by decide
example : ofDecimal true 0 3 = zero true := by decide
example : ofDecimal false 9007199254740993 0 = .finite false leastMantissa 1 (by decide) := by
  decide

end Double

end ConfigPanel
