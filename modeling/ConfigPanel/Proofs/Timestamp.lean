import ConfigPanel.Proofs.Numerals
import ConfigPanel.Timestamp

/-!
# Timestamp — the last second

Whether a second is a timestamp is decided by the year in which it lies.  `yearsBefore` and
`daysOfYears` are a Galois connection (`yearsBefore_lt_iff`), so the years up to the last one end at
one second, `lastSecond`:

* `ofSeconds_eq_ok_iff`: a whole number is a timestamp exactly when it is not negative and not
  beyond `lastSecond`.
* `ofValue_eq_ok_some_iff`: which values give a timestamp.
* `ofValue_eq_tooLong_iff`: the only values that are neither taken nor found malformed are the whole
  numbers that cannot be written; no double is one, since none has so many digits.
-/

namespace ConfigPanel

namespace Calendar

theorem daysOfYears_mono {m n : Nat} (h : m ≤ n) : daysOfYears m ≤ daysOfYears n := by
  induction h with
  | refl => exact Nat.le_refl _
  | step _ ih =>
      rw [daysOfYears_succ]
      exact Nat.le_trans ih (Nat.le_add_right _ _)

/-- Fewer than `n` years ended before a day exactly when the first `n` years have not. -/
theorem yearsBefore_lt_iff (day n : Nat) : yearsBefore day < n ↔ day < daysOfYears n := by
  constructor
  · intro h
    exact Nat.lt_of_lt_of_le (lt_daysOfYears_yearsBefore_succ day) (daysOfYears_mono h)
  · intro h
    refine Nat.lt_of_not_le fun hle => ?_
    have hmono : daysOfYears n ≤ daysOfYears (yearsBefore day) := daysOfYears_mono hle
    exact Nat.not_lt.mpr (Nat.le_trans hmono (daysOfYears_yearsBefore_le day)) h

end Calendar

namespace Timestamp

/-- The last second of the last year that can be shown. -/
def lastSecond : Nat := 253402300799

/-- The years up to the last are those of the seconds up to the last. -/
theorem yearOfSecond_le_iff (s : Nat) : Calendar.yearOfSecond s ≤ lastYear ↔ s ≤ lastSecond := by
  have hyear : Calendar.yearOfSecond s ≤ lastYear ↔
      Calendar.yearsBefore (Calendar.epochDay + s / 86400) < lastYear := by
    rw [Calendar.yearOfSecond, Calendar.yearOf, Nat.succ_le_iff]
  have hdays : Calendar.daysOfYears lastYear = 3652059 := by decide
  rw [hyear, Calendar.yearsBefore_lt_iff, hdays, Calendar.epochDay, lastSecond]
  omega

/-- A whole number is a timestamp exactly when it is one of these seconds. -/
theorem ofSeconds_eq_ok_iff {n : Int} {s : Nat} :
    ofSeconds n = .ok s ↔ n = s ∧ s ≤ lastSecond := by
  rw [ofSeconds]
  split
  · rename_i hneg
    constructor
    · intro h; cases h
    · rintro ⟨rfl, -⟩; omega
  · rename_i hpos
    have hle := yearOfSecond_le_iff n.toNat
    split
    · constructor
      · intro h; cases h
      · rintro ⟨rfl, hs⟩
        exact absurd (hle.mpr (by simpa using hs)) (by omega)
    · rw [Except.ok.injEq]
      have hlast : n.toNat ≤ lastSecond := hle.mp (by omega)
      constructor
      · rintro rfl; exact ⟨by omega, hlast⟩
      · rintro ⟨rfl, -⟩; simp

/-- Every timestamp can be written. -/
theorem writable_of_le {s : Nat} (h : s ≤ lastSecond) : Numeral.Writable s := by
  refine Numeral.Writable.of_natAbs_lt ?_
  rw [lastSecond] at h
  rw [Int.natAbs_natCast]
  omega

/-- It is told to be too long exactly when it cannot be written. -/
theorem ofSeconds_eq_tooLong_iff {n : Int} :
    ofSeconds n = .error .tooLong ↔ ¬ Numeral.Writable n := by
  cases hn : ofSeconds n with
  | ok s =>
      obtain ⟨rfl, hs⟩ := ofSeconds_eq_ok_iff.mp hn
      simp [writable_of_le hs]
  | error e =>
      obtain ⟨f, hf⟩ : ∃ f, ofSeconds n = refuse n f := by
        rw [ofSeconds] at hn ⊢
        split at hn
        · rename_i hneg
          exact ⟨_, if_pos hneg⟩
        · rename_i hpos
          rw [if_neg hpos]
          split at hn
          · rename_i hlate
            exact ⟨_, if_pos hlate⟩
          · cases hn
      rw [← hn, hf, refuse]
      split <;> simp_all

/-- What gives a timestamp: a whole number within range, or a double whose whole part is one. -/
theorem ofValue_eq_ok_some_iff {v : Value} {s : Nat} :
    ofValue v = .ok (some s) ↔
      s ≤ lastSecond ∧ (v = .int s ∨ ∃ d, v = .float d ∧ d.whole? = some (s : Int)) := by
  have hmap (n : Int) : (ofSeconds n).map some = .ok (some s) ↔ s ≤ lastSecond ∧ n = s := by
    rw [and_comm, ← ofSeconds_eq_ok_iff]
    cases ofSeconds n <;> simp [Except.map]
  cases v with
  | int n => rw [ofValue, hmap]; simp
  | float d =>
      cases hd : d.whole? with
      | none => simp [ofValue, hd]
      | some n => simp [ofValue, hd, hmap]
  | null | bool b | text t | list xs | object ms => simp [ofValue]

/-- Only nothing is no timestamp. -/
theorem ofValue_eq_ok_none_iff {v : Value} : ofValue v = .ok none ↔ v = .null := by
  have hmap (n : Int) : (ofSeconds n).map some ≠ .ok none := by
    cases ofSeconds n <;> simp [Except.map]
  cases v with
  | int n => simp [ofValue, hmap]
  | float d => cases hd : d.whole? <;> simp [ofValue, hd, hmap]
  | null | bool b | text t | list xs | object ms => simp [ofValue]

/-- A double has few enough digits. -/
theorem writable_of_whole? {d : Double} {n : Int} (h : d.whole? = some n) : Numeral.Writable n := by
  have hbase (k : Int) : raise 2 Double.mantissaBound k ≤ 10 ^ 16 * 10 ^ k.toNat :=
    Nat.mul_le_mul (by decide) (Nat.pow_le_pow_left (by decide) _)
  refine Numeral.writable_iff.mpr (Nat.lt_of_lt_of_le (Double.natAbs_lt_of_whole? h) ?_)
  calc raise 2 Double.mantissaBound Double.greatestExponent
      ≤ 10 ^ 16 * 10 ^ Double.greatestExponent.toNat := hbase _
    _ = 10 ^ (16 + Double.greatestExponent.toNat) := by rw [Nat.pow_add]
    _ ≤ 10 ^ Numeral.digitLimit := Nat.pow_le_pow_right (by decide) (by decide)

/-- Of all values only a whole number can be too long to be judged. -/
theorem ofValue_eq_tooLong_iff {v : Value} :
    ofValue v = .error .tooLong ↔ ∃ n, v = .int n ∧ ¬ Numeral.Writable n := by
  have hmap (n : Int) : (ofSeconds n).map some = .error .tooLong ↔ ¬ Numeral.Writable n := by
    rw [← ofSeconds_eq_tooLong_iff]
    cases ofSeconds n <;> simp [Except.map]
  cases v with
  | int n => simp [ofValue, hmap]
  | float d =>
      cases hd : d.whole? with
      | none => simp [ofValue, hd]
      | some n => simp [ofValue, hd, hmap, writable_of_whole? hd]
  | null | bool b | text t | list xs | object ms => simp [ofValue]

/-- What gives a timestamp can be shown. -/
theorem obstacle?_of_ok {v : Value} {t : Option Nat} (h : ofValue v = .ok t) (room : Nat) :
    v.obstacle? room = none := by
  cases v with
  | int n =>
      have hn : Numeral.Writable n := Decidable.byContradiction fun hlong => by
        rw [ofValue_eq_tooLong_iff.mpr ⟨n, rfl, hlong⟩] at h
        cases h
      rw [Value.obstacle?_int, if_pos hn]
  | null | bool b | float d | text t => rfl
  | list xs | object ms => cases h

/-- A timestamp that a value gives is not beyond the last second. -/
theorem le_lastSecond_of_ofValue {v : Value} {s : Nat} (h : ofValue v = .ok (some s)) :
    s ≤ lastSecond := (ofValue_eq_ok_some_iff.mp h).1

/-- What is within range is taken for itself. -/
theorem ofValue_ofNat? {t : Option Nat} (h : ∀ s, t = some s → s ≤ lastSecond) :
    ofValue (Value.ofNat? t) = .ok t := by
  cases t with
  | none => rfl
  | some s => exact ofValue_eq_ok_some_iff.mpr ⟨h s rfl, .inl rfl⟩

end Timestamp

end ConfigPanel
