/-!
# Text — the pieces between slashes

A text cut at its slashes has one piece more than it has slashes; pieces may be empty.
-/

namespace ConfigPanel.Text

/-- The pieces between slashes, empty ones included. -/
def pieces : List Char → List (List Char)
  | []      => [[]]
  | c :: cs =>
      match pieces cs with
      | []      => [[c]]
      | p :: ps => if c = '/' then [] :: p :: ps else (c :: p) :: ps

theorem pieces_ne_nil (cs : List Char) : pieces cs ≠ [] := by
  cases cs with
  | nil => simp [pieces]
  | cons c cs =>
      simp only [pieces]
      split
      · simp
      · split <;> simp

/-- A text without slashes is one piece. -/
theorem pieces_of_not_mem {cs : List Char} (h : '/' ∉ cs) : pieces cs = [cs] := by
  induction cs with
  | nil => rfl
  | cons c cs ih =>
      simp only [List.mem_cons, not_or] at h
      simp [pieces, ih h.2, Ne.symm h.1]

/-- A slash ends a piece. -/
theorem pieces_append_slash {cs : List Char} (h : '/' ∉ cs) (rest : List Char) :
    pieces (cs ++ '/' :: rest) = cs :: pieces rest := by
  induction cs with
  | nil =>
      simp only [List.nil_append, pieces]
      split
      · rename_i hp
        exact absurd hp (pieces_ne_nil rest)
      · rename_i hp
        simp [hp]
  | cons c cs ih =>
      simp only [List.mem_cons, not_or] at h
      simp [pieces, ih h.2, Ne.symm h.1]

end ConfigPanel.Text
