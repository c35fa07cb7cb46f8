import ConfigPanel.Timestamp

/-!
# Log — what is written down while the panel works

Every remark is an `Event`; its level and its words are functions of it, so a run can be read off
its events without looking at their texts.  A threshold lets an event through when it weighs at
least as much (`Level.admits`).  An event is there only where its words could be written: whatever
would log one that names an unwritable number fails instead, and logs nothing.
-/

namespace ConfigPanel

/-! ### Levels -/

/-- How much a remark weighs. -/
inductive Level where
  | all
  | debug
  | info
  | warning
  | error
  | critical
  deriving DecidableEq, Repr

namespace Level

/-- The number by which levels are compared. -/
def weight : Level → Nat
  | .all      => 0
  | .debug    => 10
  | .info     => 20
  | .warning  => 30
  | .error    => 40
  | .critical => 50

/-- The name of a level in a line of the log. -/
def name : Level → String
  | .all      => "NOTSET"
  | .debug    => "DEBUG"
  | .info     => "INFO"
  | .warning  => "WARNING"
  | .error    => "ERROR"
  | .critical => "CRITICAL"

/-- The names of the levels; two of them have a second one. -/
def names : List (String × Level) := [
    ("CRITICAL", .critical), ("FATAL", .critical), ("ERROR", .error), ("WARN", .warning),
    ("WARNING", .warning), ("INFO", .info), ("DEBUG", .debug), ("NOTSET", .all)]

/-- The level with a name. -/
def ofName? (s : String) : Option Level := names.lookup s

/-- Whether a threshold lets a level through. -/
def admits (threshold level : Level) : Bool := threshold.weight ≤ level.weight

end Level

/-! ### Events -/

/-- What is remarked, with what the remark names. -/
inductive Event where
  | dateIgnored (value : Value) (fault : Timestamp.Fault)
  | dateAbsent (value : Value) (fault : Timestamp.Fault)
  | entrySkipped (index : Nat) (faults : Nat)
  | loaded (count : Nat) (path : String)
  | selected (key : Nat)
  | selectionGone (key : Nat)
  | noSnapshot
  deriving Repr

namespace Event

/-- The level at which an event is logged. -/
def level : Event → Level
  | .dateIgnored ..  => .warning
  | .dateAbsent ..   => .warning
  | .entrySkipped .. => .warning
  | .loaded ..       => .info
  | .selected _      => .info
  | .selectionGone _ => .info
  | .noSnapshot      => .warning

/-- So many of something. -/
def counted (n : Nat) (noun : String) : String :=
  toString n ++ " " ++ noun ++ (if n = 1 then "" else "s")

/-- The words of an event.  The remark on a skipped entry goes on for some lines, with the fault of
each field and a piece of its value; only its first line is kept here. -/
def message : Event → String
  | .dateIgnored v f  => "Ignoring malformed config date " ++ v.shown ++ ": " ++ f.message
  | .dateAbsent v f   => "Treating config date " ++ v.shown ++ " as absent: " ++ f.message
  | .entrySkipped i n =>
      "Skipping invalid config at index " ++ toString i ++ ": " ++ counted n "validation error" ++
        " for ConfigVersionRecord"
  | .loaded n path    => "Loaded " ++ toString n ++ " config versions from " ++ path
  | .selected k       => "Selected config version " ++ toString k
  | .selectionGone k  =>
      "Selected config version " ++ toString k ++ " is gone, clearing selection"
  | .noSnapshot       => "CONFIGS_FILE is not set, starting with an empty config history"

/-- An event as the console shows it. -/
def line (e : Event) : String := e.level.name ++ ": " ++ e.message

/-- An event as a log file keeps it, at a time of the day. -/
def fileLine (time : String) (e : Event) : String :=
  time ++ " - " ++ e.level.name ++ " - " ++ e.message

end Event

/-- The events that a threshold lets through. -/
def admitted (threshold : Level) (es : List Event) : List Event :=
  es.filter fun e => threshold.admits e.level

/-! ### Results with events -/

/-- A result, with what was logged on the way to it. -/
structure Logged (α : Type) where
  result : α
  events : List Event

namespace Logged

/-- A result on the way to which nothing was logged. -/
def quiet {α : Type} (a : α) : Logged α := ⟨a, []⟩

/-- Goes on with the result, logging nothing. -/
def map {α β : Type} (f : α → β) (l : Logged α) : Logged β := ⟨f l.result, l.events⟩

/-- Does the same with one thing after the other, up to the first with which it fails. -/
def each {α β ε : Type} (f : α → Logged (Except ε β)) : List α → Logged (Except ε (List β))
  | []      => .quiet (.ok [])
  | a :: as =>
      match (f a).result with
      | .error e => ⟨.error e, (f a).events⟩
      | .ok b    =>
          let rest := each f as
          ⟨rest.result.map (b :: ·), (f a).events ++ rest.events⟩

/-- Where each thing is done quietly, or fails with the same fault, all are done if each can be. -/
theorem each_quiet {α β ε : Type} {f : α → Logged (Except ε β)} {p : α → Prop} [DecidablePred p]
    {g : α → β} {e : ε} {as : List α}
    (h : ∀ a ∈ as, f a = .quiet (if p a then .ok (g a) else .error e)) :
    each f as = .quiet (if ∀ a ∈ as, p a then .ok (as.map g) else .error e) := by
  induction as with
  | nil => rfl
  | cons a as ih =>
      have hfirst := h a (List.mem_cons_self ..)
      have hrest := ih fun b hb => h b (List.mem_cons_of_mem _ hb)
      have hall : (∀ b ∈ a :: as, p b) ↔ p a ∧ ∀ b ∈ as, p b := List.forall_mem_cons
      rw [each, hfirst, hrest]
      by_cases ha : p a
      · by_cases has : ∀ b ∈ as, p b
        · rw [if_pos ha, if_pos has, if_pos (hall.mpr ⟨ha, has⟩)]
          rfl
        · rw [if_pos ha, if_neg has, if_neg fun h => has (hall.mp h).2]
          rfl
      · rw [if_neg ha, if_neg fun h => ha (hall.mp h).1]
        rfl

/-- What is logged on the way is logged about one of the things. -/
theorem mem_each_events {α β ε : Type} {f : α → Logged (Except ε β)} {as : List α} {e : Event}
    (h : e ∈ (each f as).events) : ∃ a ∈ as, e ∈ (f a).events := by
  induction as with
  | nil => cases h
  | cons a as ih =>
      simp only [each] at h
      split at h
      · exact ⟨a, List.mem_cons_self .., h⟩
      · rcases List.mem_append.mp h with hfirst | hrest
        · exact ⟨a, List.mem_cons_self .., hfirst⟩
        · obtain ⟨b, hb, he⟩ := ih hrest
          exact ⟨b, List.mem_cons_of_mem _ hb, he⟩

end Logged

end ConfigPanel
