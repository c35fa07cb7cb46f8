import ConfigPanel.Proofs.Listings

/-!
# Panel — version texts

Two endpoints take a version: one shows its row, the other selects it.  Either gets it as a piece of
the path, which may be any text that is not empty and holds no slash, and goes its own way with the
number that the piece denotes: through the rows of the history, or through a click and the record
that is selected after it.  They still agree about every text.

* `History.statusOf`: the status that a text deserves, from what it denotes and what is stored.
* `answers_row_statusOf`, `answers_selection_statusOf`: both endpoints answer with it.
* `version_routes_agree`: the two together, and texts that denote the same number.
-/

namespace ConfigPanel

/-! ### What a text deserves -/

namespace History

/-- The status that a version text deserves. -/
def statusOf (h : History) (version : String) : Nat :=
  match Version.denoted (Text.of version) with
  | .error _ => 422
  | .ok n    => if h.records.any fun x => (x.key : Int) == n then 200 else 404

/-- A text that denotes no number is unprocessable. -/
theorem statusOf_of_error {h : History} {version : String} {f : VersionFault}
    (hdenoted : Version.denoted (Text.of version) = .error f) : h.statusOf version = 422 := by
  rw [statusOf, hdenoted]

/-- A text that denotes a stored version is found. -/
theorem statusOf_of_mem {h : History} {version : String} {x : Record} (hx : x ∈ h.records)
    (hdenoted : Version.denoted (Text.of version) = .ok x.key) : h.statusOf version = 200 := by
  have hany : (h.records.any fun y => (y.key : Int) == x.key) = true :=
    List.any_eq_true.mpr ⟨x, hx, beq_self_eq_true _⟩
  rw [statusOf, hdenoted]
  exact if_pos hany

/-- A text that denotes a version that is not stored is not found. -/
theorem statusOf_of_not_mem {h : History} {version : String} {n : Int}
    (hdenoted : Version.denoted (Text.of version) = .ok n)
    (hn : ∀ x ∈ h.records, (x.key : Int) ≠ n) : h.statusOf version = 404 := by
  have hany : (h.records.any fun y => (y.key : Int) == n) = false := by simpa using hn
  rw [statusOf, hdenoted]
  simp only [hany]
  rfl

/-- A text denotes no number, or one that is no stored key, or a stored key. -/
theorem denoted_cases (h : History) (version : String) :
    (∃ f, Version.denoted (Text.of version) = .error f) ∨
      (∃ n, Version.denoted (Text.of version) = .ok n ∧ ∀ x ∈ h.records, (x.key : Int) ≠ n) ∨
      ∃ x ∈ h.records, Version.denoted (Text.of version) = .ok x.key := by
  cases hdenoted : Version.denoted (Text.of version) with
  | error f => exact .inl ⟨f, rfl⟩
  | ok n =>
      by_cases hn : ∃ x ∈ h.records, (x.key : Int) = n
      · obtain ⟨x, hx, rfl⟩ := hn
        exact .inr (.inr ⟨x, hx, rfl⟩)
      · exact .inr (.inl ⟨n, rfl, fun x hx hkey => hn ⟨x, hx, hkey⟩⟩)

theorem statusOf_eq_422_iff {h : History} {version : String} :
    h.statusOf version = 422 ↔ ∀ n, Version.denoted (Text.of version) ≠ .ok n := by
  rcases h.denoted_cases version with ⟨f, hf⟩ | ⟨n, hn, hno⟩ | ⟨x, hx, hkey⟩
  · simp [statusOf_of_error hf, hf]
  · simp [statusOf_of_not_mem hn hno, hn]
  · simp [statusOf_of_mem hx hkey, hkey]

theorem statusOf_eq_404_iff {h : History} {version : String} :
    h.statusOf version = 404 ↔
      ∃ n, Version.denoted (Text.of version) = .ok n ∧ ∀ x ∈ h.records, (x.key : Int) ≠ n := by
  rcases h.denoted_cases version with ⟨f, hf⟩ | ⟨n, hn, hno⟩ | ⟨x, hx, hkey⟩
  · simp [statusOf_of_error hf, hf]
  · exact iff_of_true (statusOf_of_not_mem hn hno) ⟨n, hn, hno⟩
  · refine iff_of_false (by simp [statusOf_of_mem hx hkey]) ?_
    rintro ⟨n, hn, hno⟩
    exact hno x hx (Except.ok.inj (hkey.symm.trans hn))

theorem statusOf_eq_200_iff {h : History} {version : String} :
    h.statusOf version = 200 ↔ ∃ x ∈ h.records, Version.denoted (Text.of version) = .ok x.key := by
  rcases h.denoted_cases version with ⟨f, hf⟩ | ⟨n, hn, hno⟩ | ⟨x, hx, hkey⟩
  · simp [statusOf_of_error hf, hf]
  · refine iff_of_false (by simp [statusOf_of_not_mem hn hno]) ?_
    rintro ⟨x, hx, hkey⟩
    exact hno x hx (Except.ok.inj (hkey.symm.trans hn))
  · exact iff_of_true (statusOf_of_mem hx hkey) ⟨x, hx, hkey⟩

end History

/-! ### Refusals -/

namespace Draft

@[simp] theorem isString_unreadableVersion {piece : Text} {f : VersionFault} :
    (unreadableVersion piece f).body.IsString ↔ piece.IsString := by
  simp [unreadableVersion, json, Value.record, Value.string]

theorem isString_versionNotFound : versionNotFound.body.IsString := by
  simp [versionNotFound, refusal, json, Value.record, Value.string]

end Draft

namespace Panel

variable {p : Panel}

/-- A request whose draft can be encoded is answered with the status of the draft. -/
theorem answers_of_turn {r : Request} {d : Draft} (hturn : p.turn r = p.respond d)
    (hd : d.body.IsString) : (p.answer r).Answers d.status :=
  (answers_of_draft (congrArg Turn.draft hturn)).mpr ⟨rfl, hd⟩

/-- A text that denotes no number is answered with its fault. -/
theorem withVersion_of_error {version : String} {f : VersionFault}
    (h : Version.denoted (Text.of version) = .error f) (p : Panel) (serve : Int → Turn) :
    p.withVersion version.toList serve = p.respond (.unreadableVersion (Text.of version) f) := by
  rw [withVersion, ← Text.of, h]

theorem serveRow_of_not_mem {n : Int} (hn : ∀ x ∈ p.history.records, (x.key : Int) ≠ n) :
    p.serveRow n = p.respond .versionNotFound := by
  have hview : p.history.view n = .error ⟨n⟩ := (History.naming_of_not_mem hn).2.1
  rw [serveRow, hview]

theorem serveSelect_of_not_mem {n : Int} (hn : ∀ x ∈ p.history.records, (x.key : Int) ≠ n) :
    p.serveSelect n = p.respond .versionNotFound :=
  serveSelect_of_get_error (History.naming_of_not_mem hn).1

/-! ### One text, two endpoints -/

section

variable {version : String} (hne : version ≠ "") (hslash : '/' ∉ version.toList)
include hne hslash

theorem turn_forSelection (p : Panel) (query : String) :
    p.turn (.forSelection version query) = p.withVersion version.toList p.serveSelect :=
  turn_of_selects ⟨rfl, hne, hslash, .inl rfl⟩

/-- The row route answers with the status of the version text. -/
theorem answers_row_statusOf (hvalid : ∀ x ∈ p.history.records, x.Validated)
    (husers : ∀ x ∈ p.history.records, x.Encodable) (query : String) :
    (p.answer ⟨"GET", "/configs/" ++ version, query⟩).Answers (p.history.statusOf version) := by
  rcases p.history.denoted_cases version with ⟨f, hf⟩ | ⟨n, hn, hno⟩ | ⟨x, hx, hkey⟩
  · rw [History.statusOf_of_error hf]
    refine answers_of_turn ((turn_row hne hslash query).trans (withVersion_of_error hf p _)) ?_
    exact Draft.isString_unreadableVersion.mpr (Text.isString_of version)
  · rw [History.statusOf_of_not_mem hn hno]
    exact answers_of_turn ((turn_row_of_denoted hn query).trans (serveRow_of_not_mem hno))
      Draft.isString_versionNotFound
  · obtain ⟨y, hget, hy, hyx⟩ := History.exists_get ⟨x, hx, rfl⟩
    have hlt : y.key < 10 ^ Numeral.digitLimit := hyx ▸ Version.natAbs_lt_of_denoted hkey
    rw [History.statusOf_of_mem hx hkey]
    refine answers_of_turn ((turn_row_of_denoted hkey query).trans
      (serveRow_of_get_ok hget (hvalid y hy) hlt)) ?_
    exact (Row.isString_markup _).mpr (husers y hy)

/-- The selection route answers with the status of the version text. -/
theorem answers_selection_statusOf (husers : ∀ x ∈ p.history.records, x.Encodable)
    (query : String) :
    (p.answer (.forSelection version query)).Answers (p.history.statusOf version) := by
  rcases p.history.denoted_cases version with ⟨f, hf⟩ | ⟨n, hn, hno⟩ | ⟨x, hx, hkey⟩
  · rw [History.statusOf_of_error hf]
    refine answers_of_turn ((turn_forSelection hne hslash p query).trans
      (withVersion_of_error hf p _)) ?_
    exact Draft.isString_unreadableVersion.mpr (Text.isString_of version)
  · rw [History.statusOf_of_not_mem hn hno]
    refine answers_of_turn ?_ Draft.isString_versionNotFound
    rw [turn_forSelection hne hslash, withVersion_of_denoted hn, serveSelect_of_not_mem hno]
  · have hchosen : p.Chooses (.forSelection version query) x.key :=
      chooses_forSelection_iff.mpr ⟨hkey, x, hx, rfl⟩
    obtain ⟨y, hy, -, -, hencodable⟩ := answers_of_chooses hchosen
    rw [History.statusOf_of_mem hx hkey]
    exact hencodable.mpr (husers y hy)

end

/-- What a text denotes is all that either endpoint learns of it. -/
theorem answer_congr_of_denoted {version other : String} {n : Int}
    (hversion : Version.denoted (Text.of version) = .ok n)
    (hother : Version.denoted (Text.of other) = .ok n) (p : Panel) (query query' : String) :
    p.answer ⟨"GET", "/configs/" ++ other, query'⟩
        = p.answer ⟨"GET", "/configs/" ++ version, query⟩ ∧
      p.answer (.forSelection other query') = p.answer (.forSelection version query) := by
  obtain ⟨hne, hslash⟩ := Version.isPiece_of_denoted hversion
  obtain ⟨hne', hslash'⟩ := Version.isPiece_of_denoted hother
  constructor
  · rw [answer, answer, turn_row_of_denoted hother, turn_row_of_denoted hversion]
  · rw [answer, answer, turn_forSelection hne' hslash', turn_forSelection hne hslash,
      withVersion_of_denoted hother, withVersion_of_denoted hversion]

/-- **The two endpoints that take a version agree about every text.**  In every reachable history,
and when the users of the records can be shown, a request for the row of a text and one for its
selection are answered with the same status: 422 exactly when the text denotes no whole number, 404
exactly when it denotes one that is no stored key, as every negative number is, and 200 exactly when
it denotes a stored key; there is no other.  Texts that denote the same number get equal answers. -/
theorem version_routes_agree (hp : p.history.Reachable)
    (husers : ∀ x ∈ p.history.records, x.Encodable) {version : String}
    (hne : version ≠ "") (hslash : '/' ∉ version.toList) (query : String) :
    (∃ status,
      (p.answer ⟨"GET", "/configs/" ++ version, query⟩).Answers status ∧
      (p.answer (.forSelection version query)).Answers status ∧
      (status = 422 ↔ ∀ n, Version.denoted (Text.of version) ≠ .ok n) ∧
      (status = 404 ↔ ∃ n, Version.denoted (Text.of version) = .ok n ∧
        ∀ x ∈ p.history.records, (x.key : Int) ≠ n) ∧
      (status = 200 ↔ ∃ x ∈ p.history.records, Version.denoted (Text.of version) = .ok x.key) ∧
      (status = 422 ∨ status = 404 ∨ status = 200) ∧
      ∀ n < 0, Version.denoted (Text.of version) = .ok n → status = 404) ∧
    ∀ other n query', Version.denoted (Text.of version) = .ok n →
      Version.denoted (Text.of other) = .ok n →
      p.answer ⟨"GET", "/configs/" ++ other, query'⟩
          = p.answer ⟨"GET", "/configs/" ++ version, query⟩ ∧
        p.answer (.forSelection other query') = p.answer (.forSelection version query) := by
  obtain ⟨under, hs⟩ := hp.sound
  refine ⟨⟨p.history.statusOf version, answers_row_statusOf hne hslash hs.validated husers query,
    answers_selection_statusOf hne hslash husers query, History.statusOf_eq_422_iff,
    History.statusOf_eq_404_iff, History.statusOf_eq_200_iff, ?_, fun n hneg hn => ?_⟩,
    fun other n query' hn hother => answer_congr_of_denoted hn hother p query query'⟩
  · rcases p.history.denoted_cases version with ⟨f, hf⟩ | ⟨n, hn, hno⟩ | ⟨x, hx, hkey⟩
    · exact .inl (History.statusOf_of_error hf)
    · exact .inr (.inl (History.statusOf_of_not_mem hn hno))
    · exact .inr (.inr (History.statusOf_of_mem hx hkey))
  · exact History.statusOf_of_not_mem hn fun x _ => by omega

/-- Spellings of seven, which is stored, of minus seven, and of nothing. -/
theorem version_routes_agree_on_seven :
    let p := sample "Panel" "ann"
    p.history.Reachable ∧ (∀ x ∈ p.history.records, x.Encodable) ∧
      (p.answer ⟨"GET", "/configs/007", ""⟩).Answers 200 ∧
      (p.answer (.forSelection "007" "")).Answers 200 ∧
      (p.answer ⟨"GET", "/configs/-7", ""⟩).Answers 404 ∧
      (p.answer (.forSelection "-7" "")).Answers 404 ∧
      (p.answer ⟨"GET", "/configs/7x", ""⟩).Answers 422 ∧
      (p.answer (.forSelection "7x" "")).Answers 422 ∧
      ∀ other ∈ ["7", "+7", "7.0", " 7\n"],
        p.answer ⟨"GET", "/configs/" ++ other, ""⟩ = p.answer ⟨"GET", "/configs/007", ""⟩ ∧
          p.answer (.forSelection other "") = p.answer (.forSelection "007" "") := by
  intro p
  obtain ⟨-, -, hp, -, husers, -⟩ := sample_run "Panel" "ann" []
  have hspelt : ∀ other ∈ ["007", "7", "+7", "7.0", " 7\n"],
      Version.denoted (Text.of other) = .ok 7 := by decide
  have hseven := hspelt "007" (List.mem_cons_self ..)
  have hminus : Version.denoted (Text.of "-7") = .ok (-7) := rfl
  have hnone : Version.denoted (Text.of "7x") = .error .unreadable := rfl
  obtain ⟨⟨_, hrow, hselection, -, -, hstored, -⟩, hsame⟩ :=
    version_routes_agree hp husers (show "007" ≠ "" by decide) (by decide) ""
  obtain rfl := hstored.mpr ⟨_, List.mem_cons_self .., hseven⟩
  obtain ⟨⟨_, hrow', hselection', -, -, -, -, hnegative⟩, -⟩ :=
    version_routes_agree hp husers (show "-7" ≠ "" by decide) (by decide) ""
  obtain rfl := hnegative (-7) (by decide) hminus
  obtain ⟨⟨_, hrow'', hselection'', hunreadable, -⟩, -⟩ :=
    version_routes_agree hp husers (show "7x" ≠ "" by decide) (by decide) ""
  obtain rfl := hunreadable.mpr fun n hn => nomatch hnone.symm.trans hn
  exact ⟨hp, husers, hrow, hselection, hrow', hselection', hrow'', hselection'',
    fun other hother => hsame other 7 "" hseven (hspelt other (List.mem_cons_of_mem _ hother))⟩

end Panel

end ConfigPanel
