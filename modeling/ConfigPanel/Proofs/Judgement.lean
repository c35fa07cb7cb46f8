import ConfigPanel.Proofs.Display
import Mathlib.Data.Rat.Floor
import Mathlib.Tactic.NormNum

/-!
# Timestamp — which values are timestamps

A double stands for a rational number, `Double.value?`, and rounding that number toward zero is
`Double.truncated`.  The whole part that `Double.whole?` computes from mantissa and exponent is the
number rounded so (`whole?_eq`).  What a value comes to is then told without looking at how it is
judged: it comes to a whole number when it is this number, or a double that is rounded to it
(`Value.ComesTo`), and it is a timestamp when the number lies in range.  Any other value but nothing
is unfit, and it is found malformed unless it is a whole number that cannot be written.

* `ofValue_eq_ok_iff_comesTo`: the values that give a timestamp, and which one.
* `exists_refusal_iff`, `exists_fault_iff`: the values that are refused are the unfit ones, and
  those of them that can be written are found malformed.
* `lastSecond_eq`: the range ends with the last second of the last day of the year 9999, counted up
  day by day.
* `judged_exactly`: all of it for every value.
-/

namespace ConfigPanel

/-! ### Doubles as fractions -/

namespace Double

/-- The number that a double is, if it is finite. -/
def value? : Double → Option ℚ
  | .finite s m e _ => some (if s then -(m * 2 ^ e) else m * 2 ^ e)
  | .infinite _     => none
  | .nan            => none

/-- A number without its fraction: the nearest whole number on the side of zero. -/
def truncated (x : ℚ) : Int := if 0 ≤ x then ⌊x⌋ else ⌈x⌉

/-- Truncation is towards zero from both sides. -/
theorem truncated_neg (x : ℚ) : truncated (-x) = -truncated x := by
  rcases lt_trichotomy x 0 with hx | rfl | hx
  · rw [truncated, truncated, if_pos (by linarith), if_neg (not_le.mpr hx), Int.floor_neg]
  · rfl
  · rw [truncated, truncated, if_neg (by linarith), if_pos hx.le, Int.ceil_neg]

/-- Rounding a quotient of natural numbers is dividing them. -/
theorem truncated_div (n d : Nat) : truncated ((n : ℚ) / d) = (n / d : Nat) := by
  have hpos : (0 : ℚ) ≤ (n : ℚ) / d := by positivity
  rw [truncated, if_pos hpos, Rat.floor_natCast_div_natCast]
  exact (Int.natCast_div n d).symm

/-- A magnitude as a fraction of natural numbers. -/
theorem magnitude_eq (m : Nat) (e : Int) :
    (m : ℚ) * 2 ^ e = (raise 2 m e : ℚ) / (raise 2 1 (-e) : ℚ) := by
  have hraise (n : Nat) (k : Int) : ((raise 2 n k : Nat) : ℚ) = n * 2 ^ k.toNat := by
    simp [raise]
  rw [hraise, hraise]
  rcases Int.le_total 0 e with he | he
  · obtain ⟨k, rfl⟩ := Int.eq_ofNat_of_zero_le he
    simp
  · obtain ⟨k, rfl⟩ := Int.exists_eq_neg_ofNat he
    simp [div_eq_mul_inv]

/-- What mantissa and exponent give for the whole part is the number rounded toward zero. -/
theorem whole?_eq (d : Double) : d.whole? = d.value?.map truncated := by
  cases d with
  | infinite s => rfl
  | nan => rfl
  | finite s m e hfits =>
      have hfloor : truncated (m * 2 ^ e) = floorMagnitude m e := by
        rw [magnitude_eq, truncated_div, floorMagnitude]
      cases s with
      | false => simp [whole?, value?, signed, hfloor]
      | true => simp [whole?, value?, signed, truncated_neg, hfloor]

end Double

/-! ### Values that come to a number -/

/-- The value is the whole number, or a finite double that is rounded to it. -/
def Value.ComesTo (v : Value) (n : Int) : Prop :=
  v = .int n ∨ ∃ d x, v = .float d ∧ d.value? = some x ∧ Double.truncated x = n

/-- A value comes to a whole number as this number or as a double that truncates to it. -/
theorem Value.comesTo_iff {v : Value} {n : Int} :
    v.ComesTo n ↔ v = .int n ∨ ∃ d, v = .float d ∧ d.whole? = some n := by
  simp only [ComesTo, Double.whole?_eq, Option.map_eq_some_iff, exists_and_left]

namespace Timestamp

/-- The whole number lies between the epoch and the last second. -/
def InRange (n : Int) : Prop := 0 ≤ n ∧ n ≤ lastSecond

/-- The value is there, and comes to no number in range. -/
def Unfit (v : Value) : Prop := v ≠ .null ∧ ∀ n, v.ComesTo n → ¬ InRange n

/-- The values with a timestamp are those that come to a number in range. -/
theorem ofValue_eq_ok_iff_comesTo {v : Value} {n : Int} :
    (∃ s : Nat, ofValue v = .ok (some s) ∧ (s : Int) = n) ↔ v.ComesTo n ∧ InRange n := by
  constructor
  · rintro ⟨s, hs, rfl⟩
    obtain ⟨hle, hv⟩ := ofValue_eq_ok_some_iff.mp hs
    exact ⟨Value.comesTo_iff.mpr hv, Int.natCast_nonneg s, Int.ofNat_le.mpr hle⟩
  · rintro ⟨hv, hnonneg, hle⟩
    obtain ⟨s, rfl⟩ := Int.eq_ofNat_of_zero_le hnonneg
    exact ⟨s, ofValue_eq_ok_some_iff.mpr ⟨Int.ofNat_le.mp hle, Value.comesTo_iff.mp hv⟩, rfl⟩

/-- Exactly the unfit values are refused. -/
theorem exists_refusal_iff {v : Value} : (∃ e, ofValue v = .error e) ↔ Unfit v := by
  constructor
  · rintro ⟨f, hf⟩
    refine ⟨?_, fun n hn hrange => ?_⟩
    · rintro rfl
      cases hf
    · obtain ⟨s, hs, -⟩ := ofValue_eq_ok_iff_comesTo.mpr ⟨hn, hrange⟩
      rw [hf] at hs
      cases hs
  · rintro ⟨hnull, hnone⟩
    cases hv : ofValue v with
    | error f => exact ⟨f, rfl⟩
    | ok t =>
        cases t with
        | none => exact absurd (ofValue_eq_ok_none_iff.mp hv) hnull
        | some s =>
            obtain ⟨hn, hrange⟩ := ofValue_eq_ok_iff_comesTo.mp ⟨s, hv, rfl⟩
            exact absurd hrange (hnone s hn)

/-- Of the unfit values all are malformed but the whole numbers that cannot be written. -/
theorem exists_fault_iff {v : Value} :
    (∃ f, ofValue v = .error (.malformed f)) ↔
      Unfit v ∧ ∀ n, v = .int n → Numeral.Writable n := by
  rw [← exists_refusal_iff]
  constructor
  · rintro ⟨f, hf⟩
    refine ⟨⟨_, hf⟩, ?_⟩
    rintro n rfl
    refine Decidable.byContradiction fun hlong => ?_
    rw [ofValue_eq_tooLong_iff.mpr ⟨n, rfl, hlong⟩] at hf
    cases hf
  · rintro ⟨⟨e, he⟩, hshort⟩
    cases e with
    | malformed f => exact ⟨f, he⟩
    | tooLong =>
        obtain ⟨n, hn, hlong⟩ := ofValue_eq_tooLong_iff.mp he
        exact absurd (hshort n hn) hlong

/-- What was taken once is taken for itself. -/
theorem ofValue_again {v : Value} {t : Option Nat} (h : ofValue v = .ok t) :
    ofValue (Value.ofNat? t) = .ok t :=
  ofValue_ofNat? fun _ hs => le_lastSecond_of_ofValue (hs ▸ h)

/-- A finite double is judged as the whole number that it is rounded to. -/
theorem ofValue_truncated {d : Double} {x : ℚ} (h : d.value? = some x) :
    ofValue (.float d) = ofValue (.int (Double.truncated x)) :=
  ofValue_float (by rw [Double.whole?_eq, h, Option.map_some])

/-- The range ends at midnight after the last day of the last year, one second before. -/
theorem lastSecond_eq :
    lastSecond = ((⟨9999, 12, 31⟩ : Calendar.Date).toDay - Calendar.Date.epoch.toDay) * 86400
      + 86399 := by
  rw [Calendar.toDay_epoch, Calendar.Date.toDay, Calendar.total_yearLengths]
  decide

/-- **What is a timestamp.**  Nothing is taken for no timestamp, and only nothing is.  A value is
taken for a timestamp exactly when it is a whole number, or a finite double that is rounded toward
zero to one, from zero to the last second, and then for this number.  Every other value is found
malformed, but for the whole numbers of more digits than can be written: these are refused without
being found malformed, and nothing else is.  So a timestamp is taken for itself, and a finite double
is judged as the whole number that it is rounded to: it is refused for the same reason, or taken for
the same timestamp.  The last second is that of the year 9999, with years and months counted up to
its last day, and the seconds up to it are those whose date lies in that year or before. -/
theorem judged_exactly (v : Value) :
    (ofValue v = .ok none ↔ v = .null) ∧
    (∀ n : Int, (∃ s : Nat, ofValue v = .ok (some s) ∧ (s : Int) = n) ↔
      v.ComesTo n ∧ 0 ≤ n ∧ n ≤ 253402300799) ∧
    ((∃ f, ofValue v = .error (.malformed f)) ↔
      (v ≠ .null ∧ ∀ n, v.ComesTo n → ¬ (0 ≤ n ∧ n ≤ 253402300799)) ∧
        ∀ n : Int, v = .int n → n.natAbs < 10 ^ Numeral.digitLimit) ∧
    (ofValue v = .error .tooLong ↔ ∃ n : Int, v = .int n ∧ ¬ n.natAbs < 10 ^ Numeral.digitLimit) ∧
    (∀ t, ofValue v = .ok t → ofValue (Value.ofNat? t) = .ok t) ∧
    (∀ d x, v = .float d → d.value? = some x →
      ofValue v = ofValue (.int (Double.truncated x))) ∧
    253402300799 = ((⟨9999, 12, 31⟩ : Calendar.Date).toDay - Calendar.Date.epoch.toDay) * 86400
      + 86399 ∧
    ∀ s : Nat, s ≤ 253402300799 ↔
      (Calendar.Date.ofDay (Calendar.epochDay + s / 86400)).year ≤ 9999 := by
  simp only [← Numeral.writable_iff]
  refine ⟨ofValue_eq_ok_none_iff, fun n => ofValue_eq_ok_iff_comesTo, exists_fault_iff,
    ofValue_eq_tooLong_iff, fun t => ofValue_again, ?_, lastSecond_eq,
    fun s => (yearOfSecond_le_iff s).symm⟩
  rintro d x rfl hx
  exact ofValue_truncated hx

/-- The least numbers on either side of zero that cannot be written are not found malformed. -/
theorem number_beyond_words :
    ofValue (.int (10 ^ Numeral.digitLimit : Nat)) = .error .tooLong ∧
      ofValue (.int (-(10 ^ Numeral.digitLimit : Nat))) = .error .tooLong := by
  have hlong := Numeral.not_writable_limit
  refine ⟨ofValue_eq_tooLong_iff.mpr ⟨_, rfl, hlong⟩, ofValue_eq_tooLong_iff.mpr ⟨_, rfl, ?_⟩⟩
  rw [Numeral.Writable, Int.natAbs_neg]
  exact hlong

/-- Half a second after the last one is taken for the last, and half a second before the epoch for
the epoch; the second after the last is refused, and so is a truth value. -/
theorem judged_exactly_around_the_range :
    let late : Double := .finite false 506804601599 (-1) (by decide)
    let early : Double := .finite true 1 (-1) (by decide)
    ofValue (.float late) = ofValue (.int 253402300799) ∧
      ofValue (.float late) = .ok (some 253402300799) ∧
      ofValue (.float early) = .ok (some 0) ∧
      (∃ f, ofValue (.int 253402300800) = .error (.malformed f)) ∧
      ∃ f, ofValue (.bool true) = .error (.malformed f) := by
  intro late early
  have hlate : late.value? = some (506804601599 * 2 ^ (-1 : Int)) := rfl
  have hlast : Double.truncated (506804601599 * 2 ^ (-1 : Int)) = 253402300799 := by
    have hwhole : late.whole? = some 253402300799 := by decide
    rw [Double.whole?_eq, hlate] at hwhole
    exact Option.some.inj hwhole
  have hzero : (Value.float early).ComesTo 0 := Value.comesTo_iff.mpr (.inr ⟨early, rfl, by decide⟩)
  obtain ⟨-, htaken, -, -, -, hdouble, -⟩ := judged_exactly (.float late)
  obtain ⟨s, hs, hsecond⟩ := (htaken 253402300799).mpr
    ⟨.inr ⟨late, _, rfl, hlate, hlast⟩, by decide, by decide⟩
  obtain ⟨z, hz, hepoch⟩ := ((judged_exactly (.float early)).2.1 0).mpr
    ⟨hzero, by decide, by decide⟩
  obtain rfl : s = 253402300799 := by exact_mod_cast hsecond
  obtain rfl : z = 0 := by exact_mod_cast hepoch
  refine ⟨hlast ▸ hdouble late _ rfl hlate, hs, hz, ?_, ?_⟩
  · refine (judged_exactly (.int 253402300800)).2.2.1.mpr ⟨⟨nofun, fun n hn => ?_⟩, ?_⟩
    · rcases hn with hn | ⟨d, x, hd, -⟩
      · cases hn
        decide
      · cases hd
    · rintro n ⟨⟩
      exact Numeral.lt_limit (by decide)
  · refine (judged_exactly (.bool true)).2.2.1.mpr ⟨⟨nofun, fun n hn => ?_⟩, nofun⟩
    rcases hn with hn | ⟨d, x, hd, -⟩
    · cases hn
    · cases hd

end Timestamp

end ConfigPanel
