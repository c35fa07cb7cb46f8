import ConfigPanel.Json.Reader
import ConfigPanel.Json.Writer
import ConfigPanel.Proofs.Numerals
import Mathlib.Data.List.Induction

/-!
# Json — what is written is read back

The compact text of a value is read as this value, however deep its brackets are nested, as long as
there is room for them (`read_written`).  What such a value may hold is said by `Plain`: its whole
numbers have no more digits than can be written, and its objects give no name twice.  Doubles are
left out.

The proof follows the reader.  A part of a text is read wherever it stands, up to a mark that may
follow it (`Ends`):

* `readTextFrom_flatMap`: a text up to its closing quote, whatever code points it holds.
* `readPlain_int`: a whole number, since no mark that may follow goes on with its digits.
* `readItems_writtenItems`, `readMembers_writtenMembers`: what stands between brackets.
* `readValue_written`: a value, by induction on how it is plain.
-/

namespace ConfigPanel

/-! ### Objects -/

namespace Members

/-- A new name comes last. -/
theorem put_of_not_mem {name : Text} {v : Value} {ms : Members} (h : name ∉ ms.map Prod.fst) :
    put name v ms = ms ++ [(name, v)] := by
  induction ms with
  | nil => rfl
  | cons m ms ih =>
      obtain ⟨hne, hms⟩ := not_or.mp (mt List.mem_cons.mpr h)
      rw [put, if_neg (Ne.symm hne), ih hms, List.cons_append]

/-- Pairs with different names are set each in a place of its own. -/
theorem ofPairs_of_nodup {ps : List (Text × Value)} (h : (ps.map Prod.fst).Nodup) :
    ofPairs ps = ps := by
  induction ps using List.reverseRecOn with
  | nil => rfl
  | append_singleton ps p ih =>
      rw [List.map_append, List.nodup_append] at h
      obtain ⟨hps, -, hp⟩ := h
      have hstep : ofPairs (ps ++ [p]) = put p.1 p.2 (ofPairs ps) := by simp [ofPairs]
      rw [hstep, ih hps]
      exact put_of_not_mem fun hmem => hp p.1 hmem p.1 (List.mem_singleton_self _) rfl

end Members

namespace Json

/-! ### Texts -/

/-- Four hexadecimal digits are read as the number that they were written for. -/
theorem hexNumber?_hexDigits {n : Nat} (h : n < 0x10000) :
    ∃ a b c d, Text.hexDigits 4 n = [a, b, c, d] ∧
      hexNumber? (.char a) (.char b) (.char c) (.char d) = some n := by
  have hchar : ∀ k < 16, Text.hexDigitValue? (Nat.digitChar k) = some k := by decide
  have hdigit (k : Nat) : hexDigit? (.char (Nat.digitChar (k % 16))) = some (k % 16) :=
    hchar _ (Nat.mod_lt _ (by decide))
  refine ⟨_, _, _, _, rfl, ?_⟩
  simp only [hexNumber?, hdigit, Option.bind_eq_bind, Option.bind_some, Option.pure_def,
    Option.some.injEq]
  omega

/-- A control is no half of a pair, so it stays by itself. -/
theorem pushNumber_of_lt {c : Char} (h : c.toNat < 0x20) (read : Text) :
    pushNumber c.toNat read = .char c :: read := by
  have hvalue : CodePoint.ofValue c.toNat = .char c := by
    rw [CodePoint.ofValue, dif_neg (by omega), Char.ofNat_toNat]
  cases read with
  | nil => rw [pushNumber, hvalue]
  | cons high before => simp [pushNumber, hvalue, CodePoint.isLow]

/-- An escape by a letter is read as the character that the letter stands for. -/
theorem readTextFrom_escape {letter c : Char} (hletter : letter ≠ 'u')
    (h : escapedChar? (.char letter) = some c) (start read more : Text) :
    readTextFrom start read (.char '\\' :: .char letter :: more)
      = readTextFrom start (.char c :: read) more := by
  simp [readTextFrom, hletter, h]

/-- A code point is read back from what is written for it.  The text must go on behind it, since a
number escape at the very end is refused. -/
theorem readTextFrom_writtenCodePoint (start read : Text) (p : CodePoint) {more : Text}
    (h : more ≠ []) :
    readTextFrom start read (writtenCodePoint p ++ more) = readTextFrom start (p :: read) more := by
  cases p with
  | lone k =>
      have hvalue : ¬ (CodePoint.lone k).value < 0x20 := by simp only [CodePoint.value]; omega
      simp [writtenCodePoint, readTextFrom, hvalue]
  | char c =>
      rw [writtenCodePoint]
      -- the seven that are escaped by a letter
      iterate 7
        split
        · rename_i hc
          subst hc
          exact readTextFrom_escape (by decide) rfl ..
      rename_i hquote hslash _ _ _ _ _
      split
      · rename_i hlow
        obtain ⟨a, b, c', d, hdigits, hnumber⟩ := hexNumber?_hexDigits (n := c.toNat) (by omega)
        simp [readTextFrom, hdigits, hnumber, h, pushNumber_of_lt hlow]
      · rename_i hlow
        have hvalue : ¬ (CodePoint.char c).value < 0x20 := hlow
        simp [readTextFrom, hquote, hslash, hvalue]

/-- A text is read back up to its closing quote. -/
theorem readTextFrom_flatMap (start read t rest : Text) :
    readTextFrom start read (t.flatMap writtenCodePoint ++ .char '\x22' :: rest)
      = .ok (read.reverse ++ t, rest) := by
  induction t generalizing read with
  | nil => simp [readTextFrom]
  | cons p t ih =>
      have hmore : t.flatMap writtenCodePoint ++ CodePoint.char '\x22' :: rest ≠ [] := by simp
      rw [List.flatMap_cons, List.append_assoc, readTextFrom_writtenCodePoint _ _ _ hmore, ih]
      simp

/-! ### What may follow a value -/

/-- The text is at its end, or goes on with a mark that may stand behind a value. -/
def Ends (t : Text) : Prop :=
  ∀ p ∈ t.head?, p = .char ',' ∨ p = .char ']' ∨ p = .char '\x7d'

theorem ends_nil : Ends [] := nofun

theorem ends_cons {c : Char} {t : Text} (h : c = ',' ∨ c = ']' ∨ c = '\x7d') :
    Ends (.char c :: t) := by
  simpa [Ends] using h

namespace Ends

variable {rest : Text}

/-- Behind a value no digits follow. -/
theorem digitsOf (h : Ends rest) : digitsOf rest = [] := by
  cases rest with
  | nil => rfl
  | cons p rest => rcases h p rfl with rfl | rfl | rfl <;> rfl

/-- Behind a value no fraction follows. -/
theorem fractionOf (h : Ends rest) : fractionOf rest = [] := by
  cases rest with
  | nil => rfl
  | cons p rest => rcases h p rfl with rfl | rfl | rfl <;> rfl

/-- Behind a value no exponent follows. -/
theorem exponentOf? (h : Ends rest) : exponentOf? rest = none := by
  cases rest with
  | nil => rfl
  | cons p rest => rcases h p rfl with rfl | rfl | rfl <;> rfl

end Ends

/-! ### Whole numbers -/

/-- The text of a whole number is a minus sign, if it is negative, and its digits. -/
theorem of_toString (n : Int) :
    Text.of (toString n)
      = (if n < 0 then [.char '-'] else []) ++ (Nat.toDigits 10 n.natAbs).map .char := by
  cases n with
  | ofNat k => exact Text.ofNat_eq k
  | negSucc k =>
      have hsign : toString (Int.negSucc k) = "-" ++ toString (k + 1) := rfl
      have hdigits : Text.of (toString (k + 1)) = (Nat.toDigits 10 (k + 1)).map .char :=
        Text.ofNat_eq (k + 1)
      rw [if_pos (Int.negSucc_lt_zero k), hsign, Text.of_append, hdigits]
      rfl

/-- A written number begins with a minus sign or a digit. -/
theorem head_written_int (n : Int) :
    ∃ c t, written (.int n) = .char c :: t ∧ ∀ d, d ≠ '-' → d.isDigit = false → c ≠ d := by
  rw [written, of_toString]
  by_cases hn : n < 0
  · rw [if_pos hn]
    exact ⟨'-', _, rfl, fun d hd _ => Ne.symm hd⟩
  · rw [if_neg hn]
    cases hcs : Nat.toDigits 10 n.natAbs with
    | nil => exact absurd hcs Nat.toDigits_ne_nil
    | cons c cs =>
        refine ⟨c, _, rfl, fun d _ hd => ?_⟩
        rintro rfl
        exact Numeral.toDigits_ne_cons hd _ cs hcs

/-- Digits are taken up to the end of the value. -/
theorem digitsOf_append {cs : List Char} {ds : List Nat} {rest : Text}
    (h : cs.mapM Text.asciiDigitValue? = some ds) (hrest : Ends rest) :
    digitsOf (cs.map .char ++ rest) = ds := by
  induction cs generalizing ds with
  | nil =>
      cases h
      exact hrest.digitsOf
  | cons c cs ih =>
      rw [List.mapM_cons] at h
      obtain ⟨d, hd, htail⟩ := Option.bind_eq_some_iff.mp h
      obtain ⟨es, hes, heq⟩ := Option.bind_eq_some_iff.mp htail
      obtain rfl : d :: es = ds := Option.some.inj heq
      have hc : ((CodePoint.char c).char?.bind Text.asciiDigitValue?) = some d := hd
      have hrec := ih hes
      rw [digitsOf] at hrec ⊢
      simp only [List.map_cons, List.cons_append, List.takeWhile_cons, hc, Option.isSome_some,
        if_true, List.filterMap_cons, hrec]

/-- The digits of a number are all taken: one that begins with a zero is a zero. -/
theorem integerOf_toDigits (k : Nat) {rest : Text} (hrest : Ends rest) :
    ∃ ds, integerOf ((Nat.toDigits 10 k).map .char ++ rest) = ds ∧
      ds.length = (Nat.toDigits 10 k).length ∧ Numeral.ofDigits ds = k := by
  obtain ⟨ds, hds, hlength, hvalue⟩ := Numeral.mapM_toDigits k
  refine ⟨ds, ?_, hlength, hvalue⟩
  rw [integerOf, digitsOf_append hds hrest]
  split
  · rename_i es
    rcases Nat.eq_zero_or_pos k with rfl | hk
    · obtain rfl : es = [] := List.eq_nil_of_length_eq_zero (by simpa using hlength)
      rfl
    · have hhead := Numeral.head_toDigits hk
      cases hcs : Nat.toDigits 10 k with
      | nil => exact absurd hcs Nat.toDigits_ne_nil
      | cons c cs =>
          rw [hcs, List.mapM_cons] at hds
          obtain ⟨d, hd, htail⟩ := Option.bind_eq_some_iff.mp hds
          obtain ⟨_, -, heq⟩ := Option.bind_eq_some_iff.mp htail
          obtain rfl : d = 0 := (List.cons.inj (Option.some.inj heq)).1
          rw [hcs, Text.eq_zero_of_asciiDigitValue? hd] at hhead
          exact absurd rfl hhead
  · rfl

/-- A number that can be written is read back from its digits, with a minus sign or without. -/
theorem readNumber_toDigits {k : Nat} (hk : k < 10 ^ Numeral.digitLimit) {rest : Text}
    (hrest : Ends rest) :
    readNumber ((Nat.toDigits 10 k).map .char ++ rest) = .ok (.int k, rest) ∧
      readNumber (.char '-' :: ((Nat.toDigits 10 k).map .char ++ rest))
        = .ok (.int (-k), rest) := by
  obtain ⟨ds, hds, hlength, hvalue⟩ := integerOf_toDigits k hrest
  have hle : ¬ Numeral.digitLimit < ds.length := by
    rw [hlength]
    exact Nat.not_lt.mpr ((Nat.length_toDigits_le_iff (by decide) (by decide)).mpr hk)
  have hne : ds.isEmpty = false := by
    rw [List.isEmpty_eq_false_iff]
    rintro rfl
    exact Nat.toDigits_ne_nil (List.eq_nil_of_length_eq_zero hlength.symm)
  have hdrop : ((Nat.toDigits 10 k).map CodePoint.char ++ rest).drop ds.length = rest := by
    rw [hlength, ← List.length_map (f := CodePoint.char), List.drop_left]
  constructor
  · cases hcs : Nat.toDigits 10 k with
    | nil => exact absurd hcs Nat.toDigits_ne_nil
    | cons c cs =>
        have hc : c ≠ '-' := by
          rintro rfl
          exact Numeral.toDigits_ne_cons rfl k cs hcs
        rw [hcs] at hds hdrop
        simp only [List.map_cons, List.cons_append] at hds hdrop ⊢
        simp [readNumber, hc, hds, hne, hdrop, hrest.fractionOf, hrest.exponentOf?, hle, hvalue,
          Numeral.negateIf]
  · simp [readNumber, hds, hne, hdrop, hrest.fractionOf, hrest.exponentOf?, hle, hvalue,
      Numeral.negateIf]

/-- No word begins as a number does. -/
theorem readWord?_toDigits (k : Nat) (rest : Text) :
    readWord? ((Nat.toDigits 10 k).map .char ++ rest) = none ∧
      readWord? (.char '-' :: ((Nat.toDigits 10 k).map .char ++ rest)) = none := by
  cases hcs : Nat.toDigits 10 k with
  | nil => exact absurd hcs Nat.toDigits_ne_nil
  | cons c cs =>
      have hne {d : Char} (hd : d.isDigit = false) : d ≠ c := by
        rintro rfl
        exact Numeral.toDigits_ne_cons hd k cs hcs
      have hn := hne (d := 'n') rfl
      have ht := hne (d := 't') rfl
      have hf := hne (d := 'f') rfl
      have hN := hne (d := 'N') rfl
      have hI := hne (d := 'I') rfl
      have hminus := hne (d := '-') rfl
      constructor
      · simp [readWord?, words, Text.of, hn, ht, hf, hN, hI, hminus]
      · simp [readWord?, words, Text.of, hI]

/-- A whole number that can be written is read back. -/
theorem readPlain_int {n : Int} (h : Numeral.Writable n) {rest : Text} (hrest : Ends rest) :
    readPlain (written (.int n) ++ rest) = .ok (.int n, rest) := by
  obtain ⟨hnat, hminus⟩ := readNumber_toDigits (Numeral.writable_iff.mp h) hrest
  obtain ⟨wnat, wminus⟩ := readWord?_toDigits n.natAbs rest
  rw [written, of_toString, List.append_assoc]
  by_cases hn : n < 0
  · have hsign : -(n.natAbs : Int) = n := by omega
    rw [hsign] at hminus
    rw [if_pos hn, List.singleton_append]
    simp [readPlain, wminus, hminus]
  · have hsign : (n.natAbs : Int) = n := by omega
    rw [hsign] at hnat
    rw [if_neg hn, List.nil_append]
    cases hcs : Nat.toDigits 10 n.natAbs with
    | nil => exact absurd hcs Nat.toDigits_ne_nil
    | cons c cs =>
        have hquote : c ≠ '\x22' := by
          rintro rfl
          exact Numeral.toDigits_ne_cons rfl _ cs hcs
        rw [hcs, List.map_cons, List.cons_append] at hnat wnat
        rw [List.map_cons, List.cons_append]
        simp [readPlain, hquote, wnat, hnat]

/-! ### Plain values -/

/-- The value holds no doubles and no number that cannot be written, its objects have each name
once, and its brackets are nested at most `depth` deep. -/
inductive Plain : (depth : Nat) → Value → Prop where
  | null (depth : Nat) : Plain depth .null
  | bool (depth : Nat) (b : Bool) : Plain depth (.bool b)
  | int (depth : Nat) {n : Int} (h : Numeral.Writable n) : Plain depth (.int n)
  | text (depth : Nat) (t : Text) : Plain depth (.text t)
  | list {depth : Nat} {vs : List Value} (h : ∀ v ∈ vs, Plain depth v) :
      Plain (depth + 1) (.list vs)
  | object {depth : Nat} {ms : Members} (hnames : (ms.map Prod.fst).Nodup)
      (h : ∀ m ∈ ms, Plain depth m.2) : Plain (depth + 1) (.object ms)

/-- A plain value is written with no blank in front, and with nothing that would close a list or
mark the order of bytes. -/
theorem Plain.head {depth : Nat} {v : Value} (h : Plain depth v) :
    ∃ c t, written v = .char c :: t ∧ isBlank (.char c) = false ∧ c ≠ ']' ∧ c ≠ '\ufeff' := by
  cases h with
  | null => exact ⟨'n', _, rfl, rfl, by decide, by decide⟩
  | bool depth b =>
      cases b with
      | true => exact ⟨'t', _, rfl, rfl, by decide, by decide⟩
      | false => exact ⟨'f', _, rfl, rfl, by decide, by decide⟩
  | int depth h =>
      obtain ⟨c, t, hhead, hne⟩ := head_written_int _
      refine ⟨c, t, hhead, ?_, hne _ (by decide) rfl, hne _ (by decide) rfl⟩
      simp [isBlank, hne ' ' (by decide) rfl, hne '\t' (by decide) rfl, hne '\n' (by decide) rfl,
        hne '\r' (by decide) rfl]
  | text depth t => exact ⟨'\x22', _, rfl, rfl, by decide, by decide⟩
  | list h => exact ⟨'[', _, by rw [written], rfl, by decide, by decide⟩
  | object hnames h => exact ⟨'\x7b', _, by rw [written], rfl, by decide, by decide⟩

theorem skipBlanks_char {c : Char} (h : isBlank (.char c) = false) (t : Text) :
    skipBlanks (.char c :: t) = .char c :: t := by
  rw [skipBlanks, List.dropWhile_cons_of_neg (by simp [h])]

/-- In front of a plain value there is nothing to skip. -/
theorem Plain.skipBlanks {depth : Nat} {v : Value} (h : Plain depth v) (rest : Text) :
    skipBlanks (written v ++ rest) = written v ++ rest := by
  obtain ⟨c, t, hv, hc, -⟩ := h.head
  rw [hv, List.cons_append, skipBlanks_char hc]

/-! ### Between commas -/

/-- A member as it is written. -/
def writtenMember (m : Text × Value) : Text := writtenText m.1 ++ .char ':' :: written m.2

/-- Items are written with commas between them. -/
theorem writtenItems_eq (vs : List Value) :
    writtenItems vs = [.char ','].intercalate (vs.map written) := by
  induction vs with
  | nil => rw [writtenItems]; rfl
  | cons v vs ih =>
      cases vs with
      | nil => simp [writtenItems]
      | cons w vs =>
          rw [writtenItems, ih]
          · simp
          · simp

/-- Members are written with commas between them. -/
theorem writtenMembers_eq (ms : Members) :
    writtenMembers ms = [.char ','].intercalate (ms.map writtenMember) := by
  induction ms with
  | nil => rw [writtenMembers]; rfl
  | cons m ms ih =>
      obtain ⟨k, v⟩ := m
      cases ms with
      | nil => simp [writtenMembers, writtenMember]
      | cons n ms =>
          rw [writtenMembers, ih]
          · simp [writtenMember]
          · simp

/-- What stands between commas is no longer than all of it. -/
theorem length_le_of_mem {t : Text} {ts : List Text} (h : t ∈ ts) :
    t.length ≤ ([CodePoint.char ','].intercalate ts).length := by
  induction ts with
  | nil => cases h
  | cons u ts ih =>
      cases ts with
      | nil => simp_all
      | cons w ts =>
          rw [List.intercalate_cons_cons, List.length_append, List.length_append]
          rcases List.mem_cons.mp h with rfl | h
          · omega
          · exact Nat.le_add_left_of_le (ih h)

/-- Between commas there are no more texts than code points, when none of them is empty. -/
theorem length_le_intercalate {ts : List Text} (h : ∀ t ∈ ts, t ≠ []) :
    ts.length ≤ ([CodePoint.char ','].intercalate ts).length := by
  induction ts with
  | nil => exact Nat.zero_le _
  | cons u ts ih =>
      obtain ⟨hu, hts⟩ := List.forall_mem_cons.mp h
      have hpos : 1 ≤ u.length := List.length_pos_iff.mpr hu
      have hrest := ih hts
      cases ts with
      | nil => simpa using hpos
      | cons w ts =>
          rw [List.intercalate_cons_cons, List.length_append, List.length_append, List.length_cons]
          omega

/-- Commas come later than the first text. -/
theorem exists_intercalate_cons (u : Text) (ts : List Text) :
    ∃ t, [CodePoint.char ','].intercalate (u :: ts) = u ++ t := by
  cases ts with
  | nil => exact ⟨[], by simp⟩
  | cons w ts => exact ⟨_, by rw [List.intercalate_cons_cons, List.append_assoc]⟩

/-! ### Items and members -/

/-- The reader finds the value wherever its text stands, up to a mark that may follow. -/
def ReadsBack (item : Text → Reading Value) (v : Value) : Prop :=
  ∀ rest, Ends rest → item (written v ++ rest) = .ok (v, rest)

section

variable {item : Text → Reading Value} {fuel depth : Nat} {t more : Text}

/-- Behind an item and a comma the next item is read. -/
theorem readItems_comma {v : Value} (h : item t = .ok (v, .char ',' :: more)) (read : List Value) :
    readItems item (fuel + 1) read t = readItems item fuel (v :: read) (skipBlanks more) := by
  rw [readItems, h]
  rfl

/-- Behind an item and a bracket the list is complete. -/
theorem readItems_close {v : Value} (h : item t = .ok (v, .char ']' :: more)) (read : List Value) :
    readItems item (fuel + 1) read t = .ok ((v :: read).reverse, more) := by
  rw [readItems, h]
  rfl

/-- Behind a member and a comma the next member is read. -/
theorem readMembers_comma {m : Text × Value} (h : readMember item t = .ok (m, .char ',' :: more))
    (read : Members) :
    readMembers item (fuel + 1) read t = readMembers item fuel (m :: read) (skipBlanks more) := by
  rw [readMembers, h]
  rfl

/-- Behind a member and a bracket the object is complete. -/
theorem readMembers_close {m : Text × Value}
    (h : readMember item t = .ok (m, .char '\x7d' :: more)) (read : Members) :
    readMembers item (fuel + 1) read t = .ok ((m :: read).reverse, more) := by
  rw [readMembers, h]
  rfl

/-- A member is read back when its value is. -/
theorem readMember_writtenMember {m : Text × Value} (hplain : Plain depth m.2)
    (hitem : ReadsBack item m.2) (rest : Text) (hrest : Ends rest) :
    readMember item (writtenMember m ++ rest) = .ok (m, rest) := by
  have hname (start : Text) :=
    readTextFrom_flatMap start [] m.1 (.char ':' :: (written m.2 ++ rest))
  simp only [writtenMember, writtenText, List.cons_append, List.append_assoc, List.nil_append,
    readMember, hname, List.reverse_nil, skipBlanks_char (c := ':') rfl, hplain.skipBlanks,
    hitem rest hrest]
  rfl

/-- Items are read back up to the closing bracket when each of them is. -/
theorem readItems_writtenItems {vs : List Value} (hplain : ∀ v ∈ vs, Plain depth v)
    (hitem : ∀ v ∈ vs, ReadsBack item v) (hne : vs ≠ []) (hfuel : vs.length ≤ fuel)
    (read : List Value) (rest : Text) :
    readItems item fuel read (writtenItems vs ++ .char ']' :: rest)
      = .ok (read.reverse ++ vs, rest) := by
  rw [writtenItems_eq]
  induction vs generalizing fuel read with
  | nil => exact absurd rfl hne
  | cons v vs ih =>
      obtain ⟨hv, hvs⟩ := List.forall_mem_cons.mp hitem
      obtain ⟨-, hplains⟩ := List.forall_mem_cons.mp hplain
      obtain ⟨fuel, rfl⟩ := Nat.exists_eq_add_of_le' (Nat.le_of_add_left_le hfuel)
      cases vs with
      | nil =>
          have hread := hv (.char ']' :: rest) (ends_cons (.inr (.inl rfl)))
          rw [List.map_singleton, List.intercalate_singleton, readItems_close hread,
            List.reverse_cons]
      | cons w vs =>
          have hlater := ih hplains hvs (List.cons_ne_nil w vs) (Nat.le_of_succ_le_succ hfuel)
            (v :: read)
          obtain ⟨t, ht⟩ := exists_intercalate_cons (written w) (vs.map written)
          rw [List.map_cons, ht, List.append_assoc] at hlater
          have hread := hv (.char ',' :: (written w ++ (t ++ .char ']' :: rest)))
            (ends_cons (.inl rfl))
          rw [List.map_cons, List.map_cons, List.intercalate_cons_cons, ht]
          simp only [List.append_assoc, List.cons_append, List.nil_append]
          rw [readItems_comma hread, (hplains w (List.mem_cons_self ..)).skipBlanks, hlater,
            List.reverse_cons, List.append_assoc, List.singleton_append]

/-- Members are read back up to the closing bracket when the value of each is. -/
theorem readMembers_writtenMembers {ms : Members} (hplain : ∀ m ∈ ms, Plain depth m.2)
    (hitem : ∀ m ∈ ms, ReadsBack item m.2) (hne : ms ≠ []) (hfuel : ms.length ≤ fuel)
    (read : Members) (rest : Text) :
    readMembers item fuel read (writtenMembers ms ++ .char '\x7d' :: rest)
      = .ok (read.reverse ++ ms, rest) := by
  rw [writtenMembers_eq]
  induction ms generalizing fuel read with
  | nil => exact absurd rfl hne
  | cons m ms ih =>
      obtain ⟨hm, hms⟩ := List.forall_mem_cons.mp hitem
      obtain ⟨hfirst, hplains⟩ := List.forall_mem_cons.mp hplain
      obtain ⟨fuel, rfl⟩ := Nat.exists_eq_add_of_le' (Nat.le_of_add_left_le hfuel)
      cases ms with
      | nil =>
          have hread := readMember_writtenMember hfirst hm (.char '\x7d' :: rest)
            (ends_cons (.inr (.inr rfl)))
          rw [List.map_singleton, List.intercalate_singleton, readMembers_close hread,
            List.reverse_cons]
      | cons n ms =>
          have hlater := ih hplains hms (List.cons_ne_nil n ms) (Nat.le_of_succ_le_succ hfuel)
            (m :: read)
          obtain ⟨t, ht⟩ := exists_intercalate_cons (writtenMember n) (ms.map writtenMember)
          rw [List.map_cons, ht, List.append_assoc] at hlater
          have hread := readMember_writtenMember hfirst hm
            (.char ',' :: (writtenMember n ++ (t ++ .char '\x7d' :: rest))) (ends_cons (.inl rfl))
          have hquote (u : Text) : skipBlanks (writtenMember n ++ u) = writtenMember n ++ u :=
            skipBlanks_char rfl _
          rw [List.map_cons, List.map_cons, List.intercalate_cons_cons, ht]
          simp only [List.append_assoc, List.cons_append, List.nil_append]
          rw [readMembers_comma hread, hquote, hlater, List.reverse_cons, List.append_assoc,
            List.singleton_append]

end

/-! ### Values -/

/-- What begins with no bracket is a text, a word or a number. -/
theorem readValue_cons {c : Char} (hsquare : c ≠ '[') (hcurly : c ≠ '\x7b') (fuel depth : Nat)
    (t : Text) : readValue fuel depth (.char c :: t) = readPlain (.char c :: t) := by
  cases depth with
  | zero => simp [readValue, hsquare, hcurly]
  | succ depth => simp [readValue, hsquare, hcurly]

/-- A list is read back behind its opening bracket when its items are. -/
theorem readList_written {item : Text → Reading Value} {depth fuel : Nat} {vs : List Value}
    (hplain : ∀ v ∈ vs, Plain depth v) (hitem : ∀ v ∈ vs, ReadsBack item v)
    (hfuel : (writtenItems vs).length ≤ fuel) (rest : Text) :
    readList item fuel (writtenItems vs ++ .char ']' :: rest) = .ok (.list vs, rest) := by
  cases vs with
  | nil => rfl
  | cons v vs =>
      obtain ⟨c, u, hhead, hblank, hsquare, -⟩ := (hplain v (List.mem_cons_self ..)).head
      obtain ⟨t, ht⟩ := exists_intercalate_cons (written v) (vs.map written)
      have hlength : (v :: vs).length ≤ fuel := by
        refine Nat.le_trans ?_ hfuel
        rw [writtenItems_eq, ← List.length_map (f := written)]
        refine length_le_intercalate (List.forall_mem_map.mpr fun w hw => ?_)
        obtain ⟨d, s, hd, -⟩ := (hplain w hw).head
        rw [hd]
        exact List.cons_ne_nil _ _
      have hread := readItems_writtenItems hplain hitem (List.cons_ne_nil v vs) hlength [] rest
      have hstart : writtenItems (v :: vs) ++ .char ']' :: rest
          = .char c :: (u ++ (t ++ .char ']' :: rest)) := by
        rw [writtenItems_eq, List.map_cons, ht, hhead]
        simp
      rw [hstart] at hread ⊢
      simp [readList, skipBlanks_char hblank, hsquare, hread, Except.map]

/-- An object is read back behind its opening bracket when its members are and have different names.
-/
theorem readObject_written {item : Text → Reading Value} {depth fuel : Nat} {ms : Members}
    (hnames : (ms.map Prod.fst).Nodup) (hplain : ∀ m ∈ ms, Plain depth m.2)
    (hitem : ∀ m ∈ ms, ReadsBack item m.2) (hfuel : (writtenMembers ms).length ≤ fuel)
    (rest : Text) :
    readObject item fuel (writtenMembers ms ++ .char '\x7d' :: rest) = .ok (.object ms, rest) := by
  cases ms with
  | nil => rfl
  | cons m ms =>
      obtain ⟨t, ht⟩ := exists_intercalate_cons (writtenMember m) (ms.map writtenMember)
      have hlength : (m :: ms).length ≤ fuel := by
        refine Nat.le_trans ?_ hfuel
        rw [writtenMembers_eq, ← List.length_map (f := writtenMember)]
        exact length_le_intercalate (List.forall_mem_map.mpr fun w _ => List.cons_ne_nil _ _)
      have hread := readMembers_writtenMembers hplain hitem (List.cons_ne_nil m ms) hlength [] rest
      have hstart : ∃ u, writtenMembers (m :: ms) ++ .char '\x7d' :: rest = .char '\x22' :: u := by
        rw [writtenMembers_eq, List.map_cons, ht]
        exact ⟨_, rfl⟩
      obtain ⟨u, hu⟩ := hstart
      rw [hu] at hread ⊢
      have hpairs := Members.ofPairs_of_nodup hnames
      simp [readObject, skipBlanks_char (c := '\x22') rfl, hread, Except.map, hpairs]

/-- An item is no longer than all of them. -/
theorem length_written_le {v : Value} {vs : List Value} (h : v ∈ vs) :
    (written v).length ≤ (writtenItems vs).length := by
  rw [writtenItems_eq]
  exact length_le_of_mem (List.mem_map_of_mem h)

/-- A plain value is read back, wherever it stands. -/
theorem readValue_written {depth : Nat} {v : Value} (h : Plain depth v) {fuel : Nat}
    (hfuel : (written v).length ≤ fuel) : ReadsBack (readValue fuel depth) v := by
  induction h with
  | null depth =>
      intro rest hrest
      exact readValue_cons (by decide) (by decide) ..
  | bool depth b =>
      intro rest hrest
      cases b with
      | false => exact readValue_cons (by decide) (by decide) ..
      | true => exact readValue_cons (by decide) (by decide) ..
  | @int depth n h =>
      intro rest hrest
      obtain ⟨c, t, hhead, hne⟩ := head_written_int n
      rw [← readPlain_int h hrest, hhead]
      exact readValue_cons (hne _ (by decide) rfl) (hne _ (by decide) rfl) ..
  | text depth t =>
      intro rest hrest
      have hread (start : Text) := readTextFrom_flatMap start [] t rest
      refine (readValue_cons (by decide) (by decide) ..).trans ?_
      simp [readPlain, hread, Except.map]
  | @list depth vs h ih =>
      intro rest hrest
      rw [written, List.length_cons, List.length_append] at hfuel
      have hitems : ∀ v ∈ vs, ReadsBack (readValue fuel depth) v := fun v hv =>
        ih v hv (Nat.le_trans (length_written_le hv) (by omega))
      rw [written, List.cons_append, List.append_assoc, List.singleton_append]
      exact readList_written h hitems (by omega) rest
  | @object depth ms hnames h ih =>
      intro rest hrest
      rw [written, List.length_cons, List.length_append] at hfuel
      have hitems : ∀ m ∈ ms, ReadsBack (readValue fuel depth) m.2 := by
        intro m hm
        have hmember : (writtenMember m).length ≤ (writtenMembers ms).length := by
          rw [writtenMembers_eq]
          exact length_le_of_mem (List.mem_map_of_mem hm)
        rw [writtenMember, List.length_append, List.length_cons] at hmember
        exact ih m hm (by omega)
      rw [written, List.cons_append, List.append_assoc, List.singleton_append]
      exact readObject_written hnames h hitems (by omega) rest

/-- **What is written is read back.**  The compact text of a plain value is read as this value, by
whoever has room for its brackets. -/
theorem read_written {room : Nat} {v : Value} (h : Plain room v) :
    read room (written v) = .ok v := by
  obtain ⟨c, t, hhead, hblank, -, hmark⟩ := h.head
  have hread := readValue_written h (Nat.le_refl _) [] ends_nil
  rw [List.append_nil] at hread
  have hall : readAll room (written v) = .ok v := by
    rw [hhead] at hread ⊢
    simp only [readAll, skipBlanks_char hblank, hread]
    simp [skipBlanks, hmark]
  rw [read, hall]

end Json

end ConfigPanel
