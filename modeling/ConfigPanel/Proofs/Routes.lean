import ConfigPanel.Panel.Request

/-!
# Panel — which paths name what

A path is cut into pieces that hold no slash, and put together again they are the path
(`pieces_eq_iff`).  So the paths of an endpoint can be written down:

* `ofPath?_eq_row_iff`, `ofPath?_eq_select_iff`: a version stands between two slashes, or behind the
  last one, and is any text that is not empty and holds no slash.
* `Request.Selects`: a request that asks for the selection of a version.
* `Request.eq_of_selects`: the request for the selection of a text asks for no other selection.
-/

namespace ConfigPanel

/-! ### Pieces -/

namespace Text

/-- No piece holds a slash. -/
theorem not_mem_of_mem_pieces {cs p : List Char} (h : p ∈ pieces cs) : '/' ∉ p := by
  induction cs generalizing p with
  | nil =>
      obtain rfl := List.mem_singleton.mp h
      exact List.not_mem_nil
  | cons c cs ih =>
      simp only [pieces] at h
      split at h
      · rename_i hnil
        exact absurd hnil (pieces_ne_nil cs)
      · rename_i q qs hq
        rw [hq] at ih
        have hrest : '/' ∉ q := ih (List.mem_cons_self ..)
        split at h
        · rcases List.mem_cons.mp h with rfl | h
          · exact List.not_mem_nil
          · exact ih h
        · rename_i hc
          rcases List.mem_cons.mp h with rfl | h
          · simpa [hrest] using Ne.symm hc
          · exact ih (List.mem_cons_of_mem _ h)

/-- Pieces with slashes between them make the text again. -/
theorem intercalate_pieces (cs : List Char) : ['/'].intercalate (pieces cs) = cs := by
  induction cs with
  | nil => rfl
  | cons c cs ih =>
      simp only [pieces]
      split
      · rename_i hnil
        exact absurd hnil (pieces_ne_nil cs)
      · rename_i q qs hq
        rw [hq] at ih
        split
        · rename_i hc
          rw [List.intercalate_cons_cons, ih, hc]
          rfl
        · cases qs with
          | nil => rw [List.intercalate_singleton] at ih ⊢; rw [ih]
          | cons q' qs =>
              rw [List.intercalate_cons_cons] at ih ⊢
              rw [← ih]
              rfl

/-- Texts without slashes, put together by slashes, are the pieces. -/
theorem pieces_intercalate {ps : List (List Char)} (hne : ps ≠ []) (h : ∀ p ∈ ps, '/' ∉ p) :
    pieces (['/'].intercalate ps) = ps := by
  induction ps with
  | nil => exact absurd rfl hne
  | cons p ps ih =>
      have hp : '/' ∉ p := h p (List.mem_cons_self ..)
      cases ps with
      | nil => rw [List.intercalate_singleton, pieces_of_not_mem hp]
      | cons q qs =>
          have hrest := ih (by simp) fun x hx => h x (List.mem_cons_of_mem _ hx)
          rw [List.intercalate_cons_cons, List.append_assoc, List.singleton_append,
            pieces_append_slash hp, hrest]

/-- A text is cut into given pieces exactly when they hold no slash and it is they with slashes in
between. -/
theorem pieces_eq_iff {cs : List Char} {ps : List (List Char)} (hne : ps ≠ []) :
    pieces cs = ps ↔ (∀ p ∈ ps, '/' ∉ p) ∧ cs = ['/'].intercalate ps := by
  constructor
  · rintro rfl
    exact ⟨fun p hp => not_mem_of_mem_pieces hp, (intercalate_pieces cs).symm⟩
  · rintro ⟨h, rfl⟩
    exact pieces_intercalate hne h

end Text

/-! ### Endpoints with a version -/

namespace Endpoint

theorem configs_eq : configs = "configs".toList := rfl

theorem slash_not_mem_configs : '/' ∉ configs := by
  rw [configs_eq]
  decide

/-- Routing passes over a line feed behind the last piece. -/
theorem isLast_iff {piece word : List Char} :
    isLast piece word = true ↔ piece = word ∨ piece = word ++ ['\n'] := by
  simp [isLast]

/-- What a path of one piece names takes no version. -/
theorem of_single_ne (last version : List Char) :
    ofPieces? [[], last] ≠ some (.select version) ∧ ofPieces? [[], last] ≠ some (.row version) := by
  simp only [ofPieces?]
  split
  · exact ⟨nofun, nofun⟩
  · split
    · exact ⟨nofun, nofun⟩
    · cases manualPage? last with
      | none => exact ⟨nofun, nofun⟩
      | some page => exact ⟨nofun, nofun⟩

/-- The pieces of a path that selects. -/
theorem ofPieces?_eq_select_iff {ps : List (List Char)} {version : List Char} :
    ofPieces? ps = some (.select version) ↔
      version ≠ [] ∧ ∃ last, isLast last "select".toList = true ∧
        ps = [[], "api".toList, configs, version, last] := by
  constructor
  · intro h
    unfold ofPieces? at h
    split at h
    · exact absurd h (of_single_ne ..).1
    · split at h
      · cases h
      · split at h
        · cases h
        · split at h <;> cases h
    · rename_i first second piece last
      split at h
      · rename_i hall
        cases h
        simp only [Bool.and_eq_true, decide_eq_true_eq] at hall
        obtain ⟨⟨⟨rfl, rfl⟩, hne⟩, hlast⟩ := hall
        exact ⟨by simpa using hne, last, hlast, rfl⟩
      · cases h
    · cases h
  · rintro ⟨hne, last, hlast, rfl⟩
    have hsome : (!version.isEmpty) = true := by simpa using hne
    refine if_pos ?_
    simp only [decide_true, Bool.true_and, hsome, hlast]

/-- The pieces of the path of a row. -/
theorem ofPieces?_eq_row_iff {ps : List (List Char)} {version : List Char} :
    ofPieces? ps = some (.row version) ↔ version ≠ [] ∧ ps = [[], configs, version] := by
  constructor
  · intro h
    unfold ofPieces? at h
    split at h
    · exact absurd h (of_single_ne ..).2
    · rename_i first last
      split at h
      · rename_i hall
        cases h
        simp only [Bool.and_eq_true, decide_eq_true_eq] at hall
        obtain ⟨rfl, hne⟩ := hall
        exact ⟨by simpa using hne, rfl⟩
      · split at h
        · cases h
        · split at h <;> cases h
    · split at h <;> cases h
    · cases h
  · rintro ⟨hne, rfl⟩
    have hall : (configs = configs && !version.isEmpty) = true := by simpa using hne
    exact if_pos hall

/-- A path leads to a row exactly when it is that of the row, for a version that is one piece. -/
theorem ofPath?_eq_row_iff {path version : String} :
    ofPath? path = some (.row version.toList) ↔
      version ≠ "" ∧ '/' ∉ version.toList ∧ path = "/configs/" ++ version := by
  have hempty : version.toList ≠ [] ↔ version ≠ "" := by simp
  have hpath : path.toList = ['/'].intercalate [[], configs, version.toList] ↔
      path = "/configs/" ++ version := by
    have hopening : "/configs/".toList = '/' :: (configs ++ ['/']) := rfl
    rw [← String.toList_inj, String.toList_append, hopening]
    simp [List.intercalate_cons_cons, List.intercalate_singleton]
  rw [ofPath?, ofPieces?_eq_row_iff, hempty]
  refine and_congr_right fun _ => ?_
  rw [Text.pieces_eq_iff (by simp), hpath]
  simp [slash_not_mem_configs]

/-- A path selects exactly when it is written so, for a version that is one piece, perhaps with a
line feed behind it. -/
theorem ofPath?_eq_select_iff {path version : String} :
    ofPath? path = some (.select version.toList) ↔
      version ≠ "" ∧ '/' ∉ version.toList ∧
        (path = "/api/configs/" ++ version ++ "/select" ∨
          path = "/api/configs/" ++ version ++ "/select\n") := by
  have hempty : version.toList ≠ [] ↔ version ≠ "" := by simp
  -- a last piece, and the path that it ends
  have hpath (last ending : String) (hending : ending.toList = '/' :: last.toList)
      (hlast : '/' ∉ last.toList) :
      Text.pieces path.toList = [[], "api".toList, configs, version.toList, last.toList] ↔
        '/' ∉ version.toList ∧ path = "/api/configs/" ++ version ++ ending := by
    have hopening : "/api/configs/".toList = '/' :: ("api".toList ++ '/' :: (configs ++ ['/'])) :=
      rfl
    rw [Text.pieces_eq_iff (by simp), ← String.toList_inj]
    simp only [String.toList_append, hopening, hending]
    simp [List.intercalate_cons_cons, List.intercalate_singleton, hlast, slash_not_mem_configs]
  have hplain := hpath "select" "/select" rfl (by decide)
  have hfed := hpath "select\n" "/select\n" rfl (by decide)
  rw [ofPath?, ofPieces?_eq_select_iff, hempty]
  refine and_congr_right fun _ => ?_
  constructor
  · rintro ⟨last, hlast, hpieces⟩
    rcases isLast_iff.mp hlast with rfl | rfl
    · exact (hplain.mp hpieces).imp_right .inl
    · exact (hfed.mp hpieces).imp_right .inr
  · rintro ⟨hversion, hend | hend⟩
    · exact ⟨_, isLast_iff.mpr (.inl rfl), hplain.mpr ⟨hversion, hend⟩⟩
    · exact ⟨_, isLast_iff.mpr (.inr rfl), hfed.mpr ⟨hversion, hend⟩⟩

end Endpoint

/-- A request that asks for the selection of a version.  Routing passes over a line feed behind the
path, so the path may have one. -/
def Request.Selects (r : Request) (version : String) : Prop :=
  r.method = "POST" ∧ version ≠ "" ∧ '/' ∉ version.toList ∧
    (r.path = "/api/configs/" ++ version ++ "/select" ∨
      r.path = "/api/configs/" ++ version ++ "/select\n")

instance (r : Request) (version : String) : Decidable (r.Selects version) :=
  inferInstanceAs (Decidable (_ ∧ _))

/-- The requests for a selection are those that are routed to it. -/
theorem Request.selects_iff {r : Request} {version : String} :
    r.Selects version ↔
      r.method = "POST" ∧ Endpoint.ofPath? r.path = some (.select version.toList) := by
  rw [Endpoint.ofPath?_eq_select_iff, Selects]

/-- The request for the selection of a version. -/
def Request.forSelection (version query : String) : Request :=
  ⟨"POST", "/api/configs/" ++ version ++ "/select", query⟩

/-- The request for the selection of a text asks for no other selection. -/
theorem Request.eq_of_selects {version query other : String}
    (h : (forSelection version query).Selects other) : other = version := by
  obtain ⟨-, -, -, hpath | hpath⟩ := h
  · exact ((String.append_right_inj _).mp ((String.append_left_inj _).mp hpath)).symm
  · have hlast := congrArg (fun s : String => s.toList.getLast?) hpath
    simp [forSelection, List.getLast?_cons, List.getLast?_append] at hlast

end ConfigPanel
