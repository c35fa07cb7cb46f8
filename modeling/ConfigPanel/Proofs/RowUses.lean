import ConfigPanel.Proofs.Mounting
import Mathlib.Logic.Function.Basic

/-!
# Row — what a row in use keeps

Three things can become of a row: its highlight is set, its handler has one more call, or nothing.
`use_state` says which it is for each use, so what a run of uses leaves comes down to two things:
how often the row was clicked, and whether the value that the highlight was last set to counts as
given.  What the handler did at its calls is not among them; it is passed on and forgotten.  Whether
there are labels and markup to be read is settled by the record alone, when the row is mounted.

* `use_state`, `run_state`: the row after one use and after a run of uses.
* `build_state`: the row as it is mounted.
* `answers_congr`: what a row answers from some point on does not depend on what its handler did
  before.
* `run_shows`: all of it, for every row that could be mounted.
-/

namespace ConfigPanel.Row.Mounted

/-! ### Clicks and highlights -/

/-- Whether a use is a click. -/
def Use.isClick : Use → Bool
  | .click => true
  | _      => false

/-- The value that the highlight is set to after a use, when it was set to `v` before. -/
def Use.setting (v : Value) : Use → Value
  | .highlight w => w
  | _            => v

/-- The number of clicks in a run of uses. -/
def clicks (us : List Use) : Nat := us.countP Use.isClick

/-- The value that the highlight was last set to in a run of uses, or `v` when it was not. -/
def lastSetting (v : Value) (us : List Use) : Value := us.foldl Use.setting v

/-- What a run of uses answers. -/
def answers (m : Mounted) : List Use → List (Except UseFault Answer)
  | []      => []
  | u :: us => (m.use u).answer :: (m.use u).row.answers us

/-- What a click answers when the handler does this. -/
def passedOn : Reaction → Except UseFault Answer
  | .returns => .ok .done
  | .fails f => .error (.handler f)

/-- The row with its highlight set to a value, after some more calls of its handler. -/
def after (m : Mounted) (v : Value) (calls : Nat) : Mounted :=
  ⟨⟨m.row.record, v.isTruthy⟩, m.handler, m.calls + calls⟩

/-! ### One use and a run of uses -/

/-- A click calls the handler once and passes on what it answers. -/
theorem use_click (m : Mounted) :
    m.use .click = ⟨passedOn (m.handler m.calls), { m with calls := m.calls + 1 }, []⟩ := by
  rw [use]
  cases m.handler m.calls <;> rfl

theorem after_zero {m : Mounted} {v : Value} (hv : m.row.highlighted = v.isTruthy) :
    m.after v 0 = m := by
  rw [after, ← hv, Nat.add_zero]

/-- **One use.**  A click is one call, whatever comes of it, and nothing else calls the handler;
only setting the highlight changes it, and nothing changes the record. -/
theorem use_state {m : Mounted} {v : Value} (hv : m.row.highlighted = v.isTruthy) (u : Use) :
    (m.use u).row = m.after (u.setting v) (if u.isClick then 1 else 0) := by
  cases u with
  | click =>
      have hcalled : m.after v 1 = { m with calls := m.calls + 1 } := by rw [after, ← hv]
      rw [use_click]
      exact hcalled.symm
  | highlight w => rfl
  | render | embed | key | labels | record => exact (after_zero hv).symm

/-- **A run of uses.** -/
theorem run_state {m : Mounted} {v : Value} (hv : m.row.highlighted = v.isTruthy) (us : List Use) :
    m.run us = m.after (lastSetting v us) (clicks us) := by
  induction us generalizing m v with
  | nil => exact (after_zero hv).symm
  | cons u us ih =>
      have hrun : m.run (u :: us) = (m.use u).row.run us := rfl
      have hsetting : lastSetting v (u :: us) = lastSetting (u.setting v) us := rfl
      have hclicks : clicks (u :: us) = (if u.isClick then 1 else 0) + clicks us := by
        rw [clicks, List.countP_cons, Nat.add_comm]
        rfl
      rw [hrun, use_state hv, ih rfl, hsetting, hclicks]
      simp only [after, Nat.add_assoc]

/-! ### Mounting -/

/-- A row that could be mounted is that of the record of its candidate, and its handler has not been
called. -/
theorem build_state {room : Nat} {candidate : Candidate} {handler : Handler} {highlighted : Value}
    {m : Mounted} (hm : (build room candidate (some handler) highlighted).result = .ok m) :
    ∃ r, (recordOf room candidate).result = .ok r ∧
      m = ⟨⟨r, highlighted.isTruthy⟩, handler, 0⟩ := by
  have hc : candidate ≠ .value .null := by
    rintro rfl
    cases hm
  rw [build_some room hc, Logged.map] at hm
  cases hrecord : (recordOf room candidate).result with
  | error f => rw [hrecord] at hm; cases hm
  | ok r =>
      rw [hrecord] at hm
      exact ⟨r, rfl, (Except.ok.inj hm).symm⟩

/-! ### Handlers -/

/-- What a row answers depends on its handler only from the next call on. -/
theorem answers_congr {m n : Mounted} (hrow : m.row = n.row) (hcalls : m.calls = n.calls)
    (hhandler : ∀ k, m.calls ≤ k → m.handler k = n.handler k) (us : List Use) :
    m.answers us = n.answers us := by
  induction us generalizing m n with
  | nil => rfl
  | cons u us ih =>
      rw [answers, answers]
      cases u with
      | click =>
          rw [use_click, use_click, hhandler m.calls (Nat.le_refl _), hcalls]
          refine congrArg _ (ih hrow rfl fun k hk => hhandler k ?_)
          exact Nat.le_of_succ_le (hcalls ▸ hk)
      | highlight w =>
          refine congrArg _ (ih ?_ hcalls hhandler)
          show (⟨m.row.record, w.isTruthy⟩ : Row) = ⟨n.row.record, w.isTruthy⟩
          rw [hrow]
      | render | embed | key | labels | record =>
          simp only [use, hrow]
          exact congrArg _ (ih hrow hcalls hhandler)

/-! ### A row in use -/

/-- **A row in use**, after any run of uses.  Its handler has been called once for every click and
not otherwise; its key and its record are those that it was mounted with.  If the record can be
written, its labels are there as well, and the markup is that of this record with the highlight last
set; if not, every look at them fails, at any time.  A click passes on what the handler does, and
one that fails leaves a row that answers as if the handler had returned.  So two runs leave the same
markup, or none both times, if the highlight counts as given after both or after neither. -/
theorem run_shows {room : Nat} {candidate : Candidate} {handler : Handler} {highlighted : Value}
    {m : Mounted} (hm : (build room candidate (some handler) highlighted).result = .ok m)
    (us : List Use) :
    ∃ r, (recordOf room candidate).result = .ok r ∧
      let now := m.run us
      let shown := (lastSetting highlighted us).isTruthy
      let row : Row := ⟨r, shown⟩
      now.calls = clicks us ∧
      (now.use .key).answer = .ok (.key r.key) ∧
      (now.use .record).answer = .ok (.record r) ∧
      (r.Writable → (now.use .labels).answer = .ok (.labels r.labels) ∧
        (now.use .render).answer = .ok (.markup row.markup) ∧
        (now.use .embed).answer = .ok (.markup row.markup)) ∧
      (¬ r.Writable → ∀ u ∈ looks, (now.use u).answer = .error (.unwritable .tooLong)) ∧
      (now.use .click).answer = passedOn (handler (clicks us)) ∧
      (∀ vs, (m.run (us ++ [.click])).answers vs =
        (({ m with handler := Function.update handler (clicks us) .returns } : Mounted).run
          (us ++ [.click])).answers vs) ∧
      ∀ vs, (lastSetting highlighted vs).isTruthy = shown →
        ∀ u ∈ looks, ((m.run vs).use u).answer = (now.use u).answer := by
  obtain ⟨r, hr, rfl⟩ := build_state hm
  have hrun (h : Handler) (ws : List Use) :
      (⟨⟨r, highlighted.isTruthy⟩, h, 0⟩ : Mounted).run ws =
        ⟨⟨r, (lastSetting highlighted ws).isTruthy⟩, h, clicks ws⟩ := by
    rw [run_state rfl, after, Nat.zero_add]
  have hpassed (k : Nat) (hk : clicks (us ++ [.click]) ≤ k) :
      handler k = Function.update handler (clicks us) .returns k := by
    -- the two handlers differ at a call that lies behind
    have hclicked : clicks (us ++ [.click]) = clicks us + 1 := by
      rw [clicks, List.countP_append]
      rfl
    have hpast : k ≠ clicks us := by omega
    exact (Function.update_of_ne hpast _ _).symm
  refine ⟨r, hr, ?_⟩
  rw [hrun]
  refine ⟨rfl, rfl, rfl, fun hw => look_of_writable hw, fun hw => look_of_not_writable hw, ?_,
    fun vs => ?_, fun vs hvs u hu => ?_⟩
  · rw [use_click]
  · rw [hrun, hrun]
    refine answers_congr ?_ ?_ hpassed vs <;> rfl
  · rw [hrun, hvs]
    simp only [looks, List.mem_cons, List.not_mem_nil, or_false] at hu
    rcases hu with rfl | rfl | rfl <;> rfl

/-- A row on a version of 4301 digits: it is mounted, it has its key and it can be clicked, but no
look at its labels or its markup succeeds, before the click or after it. -/
theorem run_beyond_words :
    let version : Nat := 10 ^ Numeral.digitLimit
    let handler : Handler := fun _ => .returns
    ∃ m, build 990 (.record ⟨some version, none, none⟩) (some handler) .null = .quiet (.ok m) ∧
      (m.use .key).answer = .ok (.key version) ∧
      (∀ u ∈ looks, (m.use u).answer = .error (.unwritable .tooLong)) ∧
      (m.run [.click]).calls = 1 ∧
      ∀ u ∈ looks, ((m.run [.click]).use u).answer = .error (.unwritable .tooLong) := by
  obtain ⟨version, hversion, hlong⟩ := Numeral.exists_not_writable
  rw [hversion]
  intro _ handler
  let m : Mounted := ⟨⟨⟨some version, none, none⟩, false⟩, handler, 0⟩
  have hbefore : ¬ m.row.record.Writable := fun h => hlong h.1
  have hafter : ¬ (m.run [.click]).row.record.Writable := fun h => hlong h.1
  exact ⟨m, rfl, rfl, look_of_not_writable hbefore, rfl, look_of_not_writable hafter⟩

/-- A row on version 7, given as a value, that was clicked, highlighted, shown and clicked again;
its handler fails at the first call and not at the second. -/
theorem run_shows_of_two_clicks :
    let candidate : Candidate := .value (.object [(Text.of "version", .int 7)])
    let handler : Handler := fun k => if k = 0 then .fails ⟨"first"⟩ else .returns
    let us : List Use := [.click, .highlight (.text (Text.of "x")), .render, .click]
    ∃ m r, (build 990 candidate (some handler) .null).result = .ok m ∧
      (recordOf 990 candidate).result = .ok r ∧ r.Writable ∧ (m.run us).calls = 2 ∧
      ((m.run us).use .render).answer = .ok (.markup (⟨r, true⟩ : Row).markup) ∧
      (m.use .click).answer = .error (.handler ⟨"first"⟩) ∧
      ((m.run [.click]).use .click).answer = .ok .done := by
  intro candidate handler us
  have hrecord : (recordOf 990 candidate).result = .ok ⟨some 7, none, none⟩ := rfl
  have hbuild : (build 990 candidate (some handler) .null).result
      = .ok ⟨⟨⟨some 7, none, none⟩, false⟩, handler, 0⟩ := by
    show ((recordOf 990 candidate).result.map fun r =>
      (⟨⟨r, false⟩, handler, 0⟩ : Mounted)) = _
    rw [hrecord]
    rfl
  have hshort : (⟨some 7, none, none⟩ : Record).Writable :=
    ⟨Numeral.Writable.of_natAbs_lt (by decide), fun d hd => by cases hd⟩
  obtain ⟨r, hr, hcalls, -, -, hlooks, -⟩ := run_shows hbuild us
  obtain rfl : ⟨some 7, none, none⟩ = r := Except.ok.inj (hrecord.symm.trans hr)
  obtain ⟨-, -, -, -, -, -, -, hfirst, -⟩ := run_shows hbuild []
  obtain ⟨-, -, -, -, -, -, -, hsecond, -⟩ := run_shows hbuild [.click]
  exact ⟨_, _, hbuild, hr, hshort, hcalls, (hlooks hshort).2.1, hfirst, hsecond⟩

end ConfigPanel.Row.Mounted
