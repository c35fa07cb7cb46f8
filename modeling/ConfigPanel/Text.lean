/-!
# Text — code points, lone surrogates included

A text is a list of code points.  A code point is a character, or one of the 2048 surrogates when
it stands alone: a snapshot may name one by an escape, and then it is kept, shown and compared like
any other code point.  It has no encoding, so a text is a string exactly when it holds none
(`Text.toString?_eq_some_iff`).
-/

namespace ConfigPanel

/-- A character, or the surrogate `0xD800 + k` standing alone. -/
inductive CodePoint where
  | char (c : Char)
  | lone (k : Fin 2048)
  deriving DecidableEq, Repr

/-- A list of code points, any of which may be a lone surrogate. -/
abbrev Text := List CodePoint

namespace CodePoint

/-- The number of a code point. -/
def value : CodePoint → Nat
  | .char c => c.toNat
  | .lone k => 0xD800 + k

/-- The code point with the number `n`; a number that is none gives the null character. -/
def ofValue (n : Nat) : CodePoint :=
  if h : 0xD800 ≤ n ∧ n < 0xE000 then .lone ⟨n - 0xD800, by omega⟩ else .char (Char.ofNat n)

/-- The first half of a surrogate pair. -/
def isHigh : CodePoint → Bool
  | .char _ => false
  | .lone k => k < 1024

/-- The second half of a surrogate pair. -/
def isLow : CodePoint → Bool
  | .char _ => false
  | .lone k => 1024 ≤ k

/-- The character that a high and a low half make together. -/
def paired (high low : CodePoint) : CodePoint :=
  ofValue (0x10000 + (high.value - 0xD800) * 1024 + (low.value - 0xDC00))

/-- The character that a code point is, if it is one. -/
def char? : CodePoint → Option Char
  | .char c => some c
  | .lone _ => none

end CodePoint

namespace Text

/-- The text of a string. -/
def of (s : String) : Text := s.toList.map .char

/-- The decimal text of a natural number. -/
def ofNat (n : Nat) : Text := of (toString n)

/-- The string of a text, if no surrogate stands alone in it. -/
def toString? (t : Text) : Option String := (t.mapM CodePoint.char?).map String.ofList

/-! ### Texts and strings -/

@[simp] theorem of_append (s t : String) : of (s ++ t) = of s ++ of t := by
  simp [of]

theorem mapM_char? (cs : List Char) : (cs.map CodePoint.char).mapM CodePoint.char? = some cs := by
  induction cs with
  | nil => rfl
  | cons c cs ih => simp [List.mapM_cons, CodePoint.char?, ih]

@[simp] theorem toString?_of (s : String) : toString? (of s) = some s := by
  rw [toString?, of, mapM_char?, Option.map_some, String.ofList_toList]

theorem eq_map_of_mapM {t : Text} {cs : List Char} (h : t.mapM CodePoint.char? = some cs) :
    t = cs.map CodePoint.char := by
  induction t generalizing cs with
  | nil => simp_all
  | cons p t ih =>
      cases p with
      | lone k => simp [List.mapM_cons, CodePoint.char?] at h
      | char c =>
          simp only [List.mapM_cons, CodePoint.char?, Option.pure_def, Option.bind_eq_bind,
            Option.bind_some, Option.bind_eq_some_iff, Option.some.injEq] at h
          obtain ⟨ds, hds, rfl⟩ := h
          simp [ih hds]

/-- A text has a string exactly when it is the text of one. -/
theorem toString?_eq_some_iff {t : Text} {s : String} : toString? t = some s ↔ t = of s := by
  constructor
  · intro h
    obtain ⟨cs, hcs, rfl⟩ := Option.map_eq_some_iff.mp h
    simp [of, eq_map_of_mapM hcs]
  · rintro rfl
    exact toString?_of s

end Text

end ConfigPanel
