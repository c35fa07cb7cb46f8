/-!
# Number — scaling by powers

`raise b n k` is `n` times the `k`-th power of `b`, and `n` itself when `k` is negative; a fraction
`n / d · b ^ k` is then `raise b n k / raise b d (-k)` for either sign of `k`.
-/

namespace ConfigPanel

/-- `n` times the `k`-th power of `b`, a negative `k` counting as zero. -/
def raise (b n : Nat) (k : Int) : Nat := n * Nat.pow b k.toNat

theorem raise_pos {b n : Nat} {k : Int} (hb : 0 < b) (hn : 0 < n) : 0 < raise b n k :=
  Nat.mul_pos hn (Nat.pow_pos hb)

/-- The higher power is no less. -/
theorem raise_le_raise_right {b n : Nat} {j k : Int} (hb : 0 < b) (h : j ≤ k) :
    raise b n j ≤ raise b n k :=
  Nat.mul_le_mul_left n (Nat.pow_le_pow_right hb (by omega))

/-- The greater number stays greater. -/
theorem raise_lt_raise {b m n : Nat} {k : Int} (hb : 0 < b) (h : m < n) :
    raise b m k < raise b n k :=
  Nat.mul_lt_mul_of_pos_right h (Nat.pow_pos hb)

/-- A bound on a fraction is one on its multiples: from `n / d < 2 ^ j` follows
`n / d / 2 ^ e < 2 ^ w` where `w` is no less than `j - e`. -/
theorem raise_lt_raise_mul {n d w : Nat} {j e : Int} (h : raise 2 n (-j) < raise 2 d j)
    (hw : j - e ≤ w) : raise 2 n (-e) < raise 2 d e * Nat.pow 2 w := by
  simp only [raise, Nat.pow_eq] at *
  have hd : 0 < d := Nat.pos_of_ne_zero fun hzero => by simp [hzero] at h
  have hexp : j.toNat + (-e).toNat ≤ e.toNat + w + (-j).toNat := by omega
  refine Nat.lt_of_mul_lt_mul_right (a := 2 ^ (-j).toNat) ?_
  calc n * 2 ^ (-e).toNat * 2 ^ (-j).toNat
      = n * 2 ^ (-j).toNat * 2 ^ (-e).toNat := Nat.mul_right_comm ..
    _ < d * 2 ^ j.toNat * 2 ^ (-e).toNat := Nat.mul_lt_mul_of_pos_right h (Nat.two_pow_pos _)
    _ = d * 2 ^ (j.toNat + (-e).toNat) := by rw [Nat.mul_assoc, ← Nat.pow_add]
    _ ≤ d * 2 ^ (e.toNat + w + (-j).toNat) :=
        Nat.mul_le_mul_left d (Nat.pow_le_pow_right (by decide) hexp)
    _ = d * 2 ^ e.toNat * 2 ^ w * 2 ^ (-j).toNat := by rw [Nat.pow_add, Nat.pow_add]; ac_rfl

end ConfigPanel
