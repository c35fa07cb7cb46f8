import ConfigPanel.Record.Validation
import Mathlib.Algebra.Group.Nat.Defs

/-!
# Number — numerals that are read

Which numbers can be written, what a text of digits denotes, and how great it can be.

* `writable_natCast`: a number can be written when it lies below a power of ten.
* `natAbs_lt_of_denoted`: no version text has more than `Numeral.digitLimit` digits that count, so
  the whole number that it denotes has no more either.
* `isPiece_of_denoted`: a text that denotes a number is not empty and holds no slash.  Blanks, signs
  and zeros are dropped from it on the way to its digits, but a slash never is.
* `denoted_ofNat`: the decimal text of a number within the bound denotes the number.
-/

namespace ConfigPanel

namespace Numeral

/-! ### Writing -/

/-- A number can be written when its magnitude lies below a power of ten. -/
theorem writable_iff {n : Int} : Writable n ↔ n.natAbs < 10 ^ digitLimit := by
  rw [Writable, Nat.pow_eq]

theorem writable_natCast {k : Nat} : Writable k ↔ k < 10 ^ digitLimit := by
  rw [writable_iff, Int.natAbs_natCast]

/-- Any number that is met in practice is within the limit. -/
theorem lt_limit {k : Nat} (h : k < 10 ^ 20) : k < 10 ^ digitLimit :=
  Nat.lt_of_lt_of_le h (Nat.pow_le_pow_right (by decide) (by decide))

theorem Writable.of_natAbs_lt {n : Int} (h : n.natAbs < 10 ^ 20) : Writable n :=
  writable_iff.mpr (lt_limit h)

/-- The least number that cannot be written. -/
theorem not_writable_limit : ¬ Writable ((10 ^ digitLimit : Nat) : Int) :=
  fun h => Nat.lt_irrefl _ (writable_natCast.mp h)

/-- The same number under a name, so that a proof about it does not compute it. -/
theorem exists_not_writable : ∃ n : Nat, 10 ^ digitLimit = n ∧ ¬ Writable n :=
  ⟨_, rfl, not_writable_limit⟩

end Numeral

namespace Text

theorem asciiDigitValue?_lt {c : Char} {d : Nat} (h : asciiDigitValue? c = some d) : d < 10 := by
  rw [asciiDigitValue?] at h
  split at h
  · rename_i hdigit
    simp only [Char.isDigit, Bool.and_eq_true, decide_eq_true_eq, ge_iff_le,
      UInt32.le_iff_toNat_le] at hdigit
    have hle : c.toNat ≤ 57 := hdigit.2
    have hd : c.toNat - 48 = d := Option.some.inj h
    omega
  · cases h

theorem eq_zero_of_asciiDigitValue? {c : Char} (h : asciiDigitValue? c = some 0) : c = '0' := by
  rw [asciiDigitValue?] at h
  split at h
  · rename_i hdigit
    simp only [Char.isDigit, Bool.and_eq_true, decide_eq_true_eq, ge_iff_le,
      UInt32.le_iff_toNat_le] at hdigit
    have hge : 48 ≤ c.toNat := hdigit.1
    have hzero : c.toNat - 48 = 0 := Option.some.inj h
    have hc : c.toNat = 48 := by omega
    rw [← Char.ofNat_toNat c, hc]
  · cases h

theorem asciiDigitValue?_digitChar : ∀ d < 10, asciiDigitValue? (Nat.digitChar d) = some d := by
  decide

theorem isDigit_digitChar : ∀ d < 10, (Nat.digitChar d).isDigit = true := by decide

/-- A decimal text holds nothing but digits. -/
theorem isDigit_of_mem_toDigits {k : Nat} {c : Char} (h : c ∈ Nat.toDigits 10 k) :
    c.isDigit = true :=
  Nat.isDigit_of_mem_toDigits (by decide) (by decide) h

/-- The text of a natural number is its digits. -/
theorem ofNat_eq (n : Nat) : ofNat n = (Nat.toDigits 10 n).map .char := by
  rw [ofNat, of]
  exact congrArg _ Nat.toList_repr

theorem trimBlanks_of_isDigit {cs : List Char} (h : ∀ c ∈ cs, c.isDigit = true) :
    trimBlanks cs = cs := by
  have hdrop {ds : List Char} (hds : ∀ c ∈ ds, c.isDigit = true) : ds.dropWhile isBlank = ds := by
    cases ds with
    | nil => rfl
    | cons c ds =>
        exact List.dropWhile_cons_of_neg (by
          simp [not_isBlank_of_isDigit (hds c (List.mem_cons_self ..))])
  rw [trimBlanks, hdrop h, hdrop fun c hc => h c (List.mem_reverse.mp hc), List.reverse_reverse]

end Text

namespace Numeral

/-! ### Values of digits -/

/-- A digit at the end counts for itself, and makes ten times as much of those before it. -/
theorem ofDigits_append_singleton (ds : List Nat) (d : Nat) :
    ofDigits (ds ++ [d]) = 10 * ofDigits ds + d := by
  simp [ofDigits]

/-- Digits make a number that has no more of them. -/
theorem ofDigits_lt {ds : List Nat} (h : ∀ d ∈ ds, d < 10) : ofDigits ds < 10 ^ ds.length := by
  -- digits read so far come in front
  have hfrom (n : Nat) : ds.foldl (fun n d => 10 * n + d) n < (n + 1) * 10 ^ ds.length := by
    induction ds generalizing n with
    | nil => simp
    | cons d ds ih =>
        have hd : d < 10 := h d (List.mem_cons_self ..)
        have hrest := ih (fun x hx => h x (List.mem_cons_of_mem _ hx)) (10 * n + d)
        calc ds.foldl (fun n d => 10 * n + d) (10 * n + d)
            < (10 * n + d + 1) * 10 ^ ds.length := hrest
          _ ≤ (10 * (n + 1)) * 10 ^ ds.length := Nat.mul_le_mul_right _ (by omega)
          _ = (n + 1) * 10 ^ (d :: ds).length := by
              rw [List.length_cons, Nat.pow_succ, Nat.mul_comm 10, Nat.mul_assoc,
                Nat.mul_comm 10]
  simpa [ofDigits] using hfrom 0

theorem natAbs_negateIf (negative : Bool) (n : Nat) : (negateIf negative n).natAbs = n := by
  rw [negateIf]
  split <;> simp

/-- Digits that are read are less than ten. -/
theorem grouped?_lt {cs : List Char} {ds : List Nat}
    (h : grouped? Text.asciiDigitValue? cs = some ds) : ∀ d ∈ ds, d < 10 := by
  fun_induction grouped? Text.asciiDigitValue? cs generalizing ds with
  | case1 => cases h
  | case2 c =>
      obtain ⟨d, hd, rfl⟩ := Option.map_eq_some_iff.mp h
      simpa using Text.asciiDigitValue?_lt hd
  | case3 c rest ih =>
      obtain ⟨d, hd, hrest⟩ := Option.bind_eq_some_iff.mp h
      obtain ⟨es, hes, rfl⟩ := Option.map_eq_some_iff.mp hrest
      exact List.forall_mem_cons.mpr ⟨Text.asciiDigitValue?_lt hd, ih hes⟩
  | case4 c rest _ _ ih =>
      obtain ⟨d, hd, hrest⟩ := Option.bind_eq_some_iff.mp h
      obtain ⟨es, hes, rfl⟩ := Option.map_eq_some_iff.mp hrest
      exact List.forall_mem_cons.mpr ⟨Text.asciiDigitValue?_lt hd, ih hes⟩

theorem versionDigits?_lt {negative negative' : Bool} {cs : List Char} {ds : List Nat}
    (h : versionDigits? negative cs = some (negative', ds)) : ∀ d ∈ ds, d < 10 := by
  obtain ⟨cs', -, hdigits⟩ := Option.bind_eq_some_iff.mp h
  split at hdigits
  · split at hdigits
    · cases hdigits
    · obtain ⟨es, hes, heq⟩ := Option.map_eq_some_iff.mp hdigits
      obtain rfl : es = ds := (Prod.mk.inj heq).2
      exact grouped?_lt (Option.filter_eq_some_iff.mp hes).1
  · obtain ⟨es, hes, heq⟩ := Option.map_eq_some_iff.mp hdigits
    obtain rfl : es = ds := (Prod.mk.inj heq).2
    exact grouped?_lt hes

/-! ### Bounds -/

/-- A version has no more digits than the limit lets through. -/
theorem natAbs_lt_of_version? {cs : List Char} {n : Int} (h : version? cs = some n) :
    n.natAbs < 10 ^ digitLimit := by
  obtain ⟨⟨negative, ds⟩, hds, hn⟩ := Option.bind_eq_some_iff.mp h
  simp only at hn
  split at hn
  · rename_i hle
    obtain rfl : negateIf negative (ofDigits ds) = n := Option.some.inj hn
    rw [natAbs_negateIf]
    exact Nat.lt_of_lt_of_le (ofDigits_lt (versionDigits?_lt hds))
      (Nat.pow_le_pow_right (by decide) hle)
  · cases hn

theorem natAbs_lt_of_readVersion {t : Text} {n : Int} (h : readVersion t = .ok n) :
    n.natAbs < 10 ^ digitLimit := by
  rw [readVersion] at h
  split at h
  · cases h
  · split at h
    · cases h
    · split at h
      · rename_i m hm
        cases h
        exact natAbs_lt_of_version? hm
      · cases h

/-! ### No slashes -/

/-- What is dropped in front holds nothing that is kept. -/
theorem mem_dropWhile_of_mem {p : Char → Bool} {c : Char} (hc : p c = false) {cs : List Char}
    (h : c ∈ cs) : c ∈ cs.dropWhile p := by
  induction cs with
  | nil => cases h
  | cons d ds ih =>
      by_cases hd : p d = true
      · rw [List.dropWhile_cons_of_pos hd]
        rcases List.mem_cons.mp h with rfl | h
        · rw [hc] at hd; cases hd
        · exact ih h
      · rw [List.dropWhile_cons_of_neg hd]
        exact h

/-- A slash is no blank, so trimming keeps it. -/
theorem slash_mem_trimBlanks {cs : List Char} (h : '/' ∈ cs) : '/' ∈ Text.trimBlanks cs := by
  have hblank : Text.isBlank '/' = false := by decide
  have hfront := mem_dropWhile_of_mem hblank h
  exact List.mem_reverse.mpr (mem_dropWhile_of_mem hblank (List.mem_reverse.mpr hfront))

/-- A slash is no sign, so it stays behind one. -/
theorem slash_mem_splitSign {cs : List Char} (h : '/' ∈ cs) : '/' ∈ (splitSign cs).2 := by
  unfold splitSign
  split
  · exact (List.mem_cons.mp h).resolve_left (by decide)
  · exact (List.mem_cons.mp h).resolve_left (by decide)
  · exact h

/-- A slash is not dropped with the zeros in front. -/
theorem slash_mem_of_dropLeadingZeros? {cs ds : List Char} (hds : dropLeadingZeros? cs = some ds)
    (h : '/' ∈ cs) : '/' ∈ ds := by
  unfold dropLeadingZeros? at hds
  split at hds
  · rename_i rest
    have hrest : '/' ∈ rest := (List.mem_cons.mp h).resolve_left (by decide)
    have hleft : '/' ∈ rest.dropWhile isZeroOrUnderscore := mem_dropWhile_of_mem (by decide) hrest
    simp only at hds
    split at hds
    · rename_i heq
      rw [heq] at hleft
      split at hds
      · cases hds
        exact hleft
      · split at hds
        · cases hds
          exact List.mem_cons_of_mem _ hleft
        · cases hds
    · rename_i heq
      rw [heq] at hleft
      cases hleft
  · cases hds
  · cases hds
    exact h

/-- A slash is not dropped with the zeros behind a point. -/
theorem slash_mem_dropZeroFraction {cs : List Char} (h : '/' ∈ cs) :
    '/' ∈ dropZeroFraction cs := by
  unfold dropZeroFraction
  split
  · rename_i zeros heq
    split
    · rename_i hzeros
      rw [← List.takeWhile_append_dropWhile (p := (· != '.')) (l := cs), heq] at h
      -- behind the point there are zeros only
      have hfraction : '/' ∉ '.' :: '0' :: zeros := by
        intro hmem
        have hlater := (List.mem_cons.mp hmem).resolve_left (by decide)
        have hzero := (List.mem_cons.mp hlater).resolve_left (by decide)
        exact absurd (List.all_eq_true.mp hzeros '/' hzero) (by decide)
      exact (List.mem_append.mp h).resolve_right hfraction
    · exact h
  · exact h

/-- A slash is no digit and no underscore. -/
theorem slash_not_mem_of_grouped? {cs : List Char} {ds : List Nat}
    (h : grouped? Text.asciiDigitValue? cs = some ds) : '/' ∉ cs := by
  have hdigit {c : Char} {d : Nat} (hc : Text.asciiDigitValue? c = some d) : '/' ≠ c := by
    rintro rfl
    cases hc
  fun_induction grouped? Text.asciiDigitValue? cs generalizing ds with
  | case1 => cases h
  | case2 c =>
      obtain ⟨d, hd, -⟩ := Option.map_eq_some_iff.mp h
      exact fun hmem => hdigit hd (List.mem_singleton.mp hmem)
  | case3 c rest ih =>
      obtain ⟨d, hd, hrest⟩ := Option.bind_eq_some_iff.mp h
      obtain ⟨es, hes, -⟩ := Option.map_eq_some_iff.mp hrest
      intro hmem
      have hlater := (List.mem_cons.mp hmem).resolve_left (hdigit hd)
      exact ih hes ((List.mem_cons.mp hlater).resolve_left (by decide))
  | case4 c rest _ _ ih =>
      obtain ⟨d, hd, hrest⟩ := Option.bind_eq_some_iff.mp h
      obtain ⟨es, hes, -⟩ := Option.map_eq_some_iff.mp hrest
      exact fun hmem => ih hes ((List.mem_cons.mp hmem).resolve_left (hdigit hd))

theorem slash_not_mem_of_digitsAfterMinus? {cs : List Char} {ds : List Nat}
    (h : digitsAfterMinus? cs = some ds) : '/' ∉ cs := by
  unfold digitsAfterMinus? at h
  obtain ⟨hgroup, -⟩ := Option.filter_eq_some_iff.mp h
  have hdigits := slash_not_mem_of_grouped? hgroup
  intro hmem
  split at hdigits
  · exact hdigits ((List.mem_cons.mp hmem).resolve_left (by decide))
  · exact hdigits hmem

theorem slash_not_mem_of_versionDigits? {negative : Bool} {cs : List Char} {r : Bool × List Nat}
    (h : versionDigits? negative cs = some r) : '/' ∉ cs := by
  intro hmem
  obtain ⟨es, hes, hdigits⟩ := Option.bind_eq_some_iff.mp h
  have hleft := slash_mem_dropZeroFraction (slash_mem_of_dropLeadingZeros? hes hmem)
  split at hdigits
  · rename_i heq
    rw [heq] at hleft
    split at hdigits
    · cases hdigits
    · obtain ⟨ds, hds, -⟩ := Option.map_eq_some_iff.mp hdigits
      exact slash_not_mem_of_digitsAfterMinus? hds
        ((List.mem_cons.mp hleft).resolve_left (by decide))
  · obtain ⟨ds, hds, -⟩ := Option.map_eq_some_iff.mp hdigits
    exact slash_not_mem_of_grouped? hds hleft

theorem slash_not_mem_of_version? {cs : List Char} {n : Int} (h : version? cs = some n) :
    '/' ∉ cs := by
  intro hmem
  obtain ⟨r, hr, -⟩ := Option.bind_eq_some_iff.mp h
  exact slash_not_mem_of_versionDigits? hr (slash_mem_splitSign (slash_mem_trimBlanks hmem))

/-- A text with a slash denotes no number. -/
theorem slash_not_mem_of_readVersion {cs : List Char} {n : Int}
    (h : readVersion (cs.map .char) = .ok n) : '/' ∉ cs := by
  rw [readVersion, Text.mapM_char?] at h
  simp only at h
  split at h
  · cases h
  · split at h
    · rename_i hversion
      exact slash_not_mem_of_version? hversion
    · cases h

/-! ### Decimal texts -/

theorem not_mem_toDigits {c : Char} (hc : c.isDigit = false) (k : Nat) : c ∉ Nat.toDigits 10 k := by
  intro hmem
  rw [Text.isDigit_of_mem_toDigits hmem] at hc
  cases hc

/-- The digits of a number make this number. -/
theorem mapM_toDigits (k : Nat) :
    ∃ ds, (Nat.toDigits 10 k).mapM Text.asciiDigitValue? = some ds ∧
      ds.length = (Nat.toDigits 10 k).length ∧ ofDigits ds = k := by
  induction k using Nat.strongRecOn with
  | ind k ih =>
      by_cases hk : k < 10
      · refine ⟨[k], ?_, ?_, ?_⟩
        · simp [Nat.toDigits_of_lt_base hk, Text.asciiDigitValue?_digitChar k hk]
        · rw [Nat.toDigits_of_lt_base hk]; rfl
        · simp [ofDigits]
      · obtain ⟨ds, hds, hlength, hvalue⟩ := ih (k / 10) (by omega)
        have hlast := Text.asciiDigitValue?_digitChar (k % 10) (Nat.mod_lt k (by decide))
        rw [Nat.toDigits_of_base_le (by decide) (by omega)]
        refine ⟨ds ++ [k % 10], ?_, by simp [hlength], ?_⟩
        · simp [List.mapM_append, hds, hlast]
        · rw [ofDigits_append_singleton, hvalue]
          exact Nat.div_add_mod k 10

theorem toDigits_ne_cons {c : Char} (hc : c.isDigit = false) (k : Nat) (rest : List Char) :
    Nat.toDigits 10 k ≠ c :: rest :=
  fun heq => not_mem_toDigits hc k (heq ▸ List.mem_cons_self ..)

/-- A positive number is written without a zero in front. -/
theorem head_toDigits {k : Nat} (hk : 0 < k) : (Nat.toDigits 10 k).head? ≠ some '0' := by
  induction k using Nat.strongRecOn with
  | ind k ih =>
      by_cases hlt : k < 10
      · have hdigit : ∀ d < 10, 0 < d → Nat.digitChar d ≠ '0' := by decide
        rw [Nat.toDigits_of_lt_base hlt]
        simpa using hdigit k hlt hk
      · have hrest := ih (k / 10) (by omega) (by omega)
        rw [Nat.toDigits_of_base_le (by decide) (by omega), List.head?_append]
        cases hhead : (Nat.toDigits 10 (k / 10)).head? with
        | none => exact absurd (List.head?_eq_none_iff.mp hhead) Nat.toDigits_ne_nil
        | some c => rwa [hhead] at hrest

/-- In front of a decimal text there is nothing to drop. -/
theorem dropLeadingZeros?_toDigits (k : Nat) :
    dropLeadingZeros? (Nat.toDigits 10 k) = some (Nat.toDigits 10 k) := by
  rcases Nat.eq_zero_or_pos k with rfl | hk
  · rfl
  · have hhead := head_toDigits hk
    unfold dropLeadingZeros?
    split
    · rename_i heq
      rw [heq] at hhead
      exact absurd rfl hhead
    · rename_i heq
      exact absurd heq (toDigits_ne_cons rfl k _)
    · rfl

/-- Without a point there is no fraction to drop. -/
theorem dropZeroFraction_of_not_mem {cs : List Char} (h : '.' ∉ cs) : dropZeroFraction cs = cs := by
  have hpoint : '.' ∉ cs.dropWhile (· != '.') := fun hmem => h ((List.dropWhile_sublist _).mem hmem)
  unfold dropZeroFraction
  split
  · rename_i heq
    rw [heq] at hpoint
    exact absurd (List.mem_cons_self ..) hpoint
  · rfl

/-- Without underscores there is nothing to group. -/
theorem grouped?_of_mapM {value? : Char → Option Nat} {cs : List Char} {ds : List Nat}
    (hne : cs ≠ []) (hmark : '_' ∉ cs) (h : cs.mapM value? = some ds) :
    grouped? value? cs = some ds := by
  fun_induction grouped? value? cs generalizing ds with
  | case1 => exact absurd rfl hne
  | case2 c =>
      rw [List.mapM_cons] at h
      obtain ⟨d, hd, htail⟩ := Option.bind_eq_some_iff.mp h
      obtain rfl : [d] = ds := Option.some.inj htail
      rw [hd]
      rfl
  | case3 c rest => simp at hmark
  | case4 c rest hrest _ ih =>
      rw [List.mapM_cons] at h
      obtain ⟨d, hd, htail⟩ := Option.bind_eq_some_iff.mp h
      obtain ⟨es, hes, heq⟩ := Option.bind_eq_some_iff.mp htail
      obtain rfl : d :: es = ds := Option.some.inj heq
      have hgroup := ih (fun hnil => hrest hnil) (fun hm => hmark (List.mem_cons_of_mem _ hm)) hes
      rw [hd, hgroup]
      rfl

theorem versionDigits?_toDigits (k : Nat) :
    ∃ ds, versionDigits? false (Nat.toDigits 10 k) = some (false, ds) ∧
      ds.length = (Nat.toDigits 10 k).length ∧ ofDigits ds = k := by
  obtain ⟨ds, hds, hlength, hvalue⟩ := mapM_toDigits k
  have hgroup := grouped?_of_mapM Nat.toDigits_ne_nil (not_mem_toDigits rfl k) hds
  refine ⟨ds, ?_, hlength, hvalue⟩
  -- nothing is dropped in front or at the end, and no sign stands among the digits
  rw [versionDigits?, dropLeadingZeros?_toDigits, Option.bind_some,
    dropZeroFraction_of_not_mem (not_mem_toDigits rfl k)]
  split
  · rename_i heq
    exact absurd heq (toDigits_ne_cons rfl k _)
  · rw [hgroup]
    rfl

theorem splitSign_toDigits (k : Nat) :
    splitSign (Nat.toDigits 10 k) = (false, Nat.toDigits 10 k) := by
  unfold splitSign
  split
  · rename_i heq
    exact absurd heq (toDigits_ne_cons rfl k _)
  · rename_i heq
    exact absurd heq (toDigits_ne_cons rfl k _)
  · rfl

/-- A decimal text that is not too long denotes its number. -/
theorem version?_toDigits {k : Nat} (h : (Nat.toDigits 10 k).length ≤ digitLimit) :
    version? (Nat.toDigits 10 k) = some (k : Int) := by
  obtain ⟨ds, hds, hlength, hvalue⟩ := versionDigits?_toDigits k
  have hblank := Text.trimBlanks_of_isDigit fun c => Text.isDigit_of_mem_toDigits (k := k) (c := c)
  simp only [version?, hblank, splitSign_toDigits, hds, Option.bind_some]
  rw [if_pos (by omega), hvalue]
  rfl

theorem length_plainDigits_le (cs : List Char) : (plainDigits cs).length ≤ cs.length := by
  have hdigits (ds : List Char) :
      (if ds.head? = some '0' then [] else ds.takeWhile Char.isDigit).length ≤ ds.length := by
    split
    · exact Nat.zero_le _
    · exact (List.takeWhile_sublist _).length_le
  simp only [plainDigits]
  split
  · exact Nat.le_succ_of_le (hdigits _)
  · exact hdigits _

/-- A number within the limit is read back from its decimal text. -/
theorem readVersion_ofNat {k : Nat} (h : k < 10 ^ digitLimit) :
    readVersion (Text.ofNat k) = .ok k := by
  have hlength : (Nat.toDigits 10 k).length ≤ digitLimit :=
    (Nat.length_toDigits_le_iff (by decide) (by decide)).mpr h
  have hplain := length_plainDigits_le (Nat.toDigits 10 k)
  rw [readVersion, Text.ofNat_eq, Text.mapM_char?]
  simp only
  rw [if_neg (by omega), version?_toDigits hlength]

end Numeral

namespace Version

/-- A version that a text denotes is within the limit. -/
theorem natAbs_lt_of_denoted {t : Text} {n : Int} (h : denoted t = .ok n) :
    n.natAbs < 10 ^ Numeral.digitLimit := by
  rw [denoted] at h
  split at h
  · rename_i m hread
    cases h
    exact Numeral.natAbs_lt_of_readVersion hread
  · cases h
  · cases h

/-- A text that denotes a number can be a piece of a path. -/
theorem isPiece_of_denoted {version : String} {n : Int} (h : denoted (Text.of version) = .ok n) :
    version ≠ "" ∧ '/' ∉ version.toList := by
  refine ⟨?_, ?_⟩
  · rintro rfl
    cases h
  · rw [denoted] at h
    split at h
    · rename_i hread
      exact Numeral.slash_not_mem_of_readVersion hread
    · cases h
    · cases h

/-- The decimal text of a number within the limit denotes this number. -/
theorem denoted_ofNat {k : Nat} (h : k < 10 ^ Numeral.digitLimit) :
    denoted (Text.ofNat k) = .ok k := by
  rw [denoted, Numeral.readVersion_ofNat h]

end Version

end ConfigPanel
