import ConfigPanel.Panel
import ConfigPanel.Proofs.Numerals
import ConfigPanel.Proofs.Routes
import ConfigPanel.Proofs.Runs

/-!
# Panel — what requests change

A request changes the panel only if it asks for the selection of the key of a record on show
(`Panel.Chooses`), and then it changes the selection and nothing else.  A path can only name
versions that can be written, so such a request always gets its answer.

* `answer_panel_of_chooses`, `answer_panel_of_not_chooses`: what one request leaves.
* `choosing_run`, `run_of_not_chooses`, `run_of_last_chooses`: what a run of requests leaves.
* `replies_filter`: requests that choose nothing make no difference to the replies to the others.
* `run_selects_last`: the three together.
-/

namespace ConfigPanel

namespace Panel

/-- The panel with another selection. -/
def choosing (p : Panel) (k : Nat) : Panel :=
  { p with history := { p.history with selected := some k } }

/-- What a selection answers. -/
def selection (r : Record) : Value :=
  Value.record [("success", .bool true), ("selected", r.toValue)]

/-- The request asks for the selection of the key of a record on show. -/
def Chooses (p : Panel) (r : Request) (k : Nat) : Prop :=
  ∃ version, r.Selects version ∧ Version.denoted (Text.of version) = .ok k ∧
    ∃ x ∈ p.history.records, x.key = k

/-- The replies to the requests of a run. -/
def replies (p : Panel) : List Request → List Reply
  | []      => []
  | r :: rs => p.answer r :: (p.answer r).panel.replies rs

/-- Whatever the text is, asking for its selection chooses the key that it denotes. -/
theorem chooses_forSelection_iff {p : Panel} {version query : String} {k : Nat} :
    p.Chooses (.forSelection version query) k ↔
      Version.denoted (Text.of version) = .ok k ∧ ∃ x ∈ p.history.records, x.key = k := by
  constructor
  · rintro ⟨other, hother, hchosen⟩
    exact Request.eq_of_selects hother ▸ hchosen
  · rintro ⟨hdenoted, hkey⟩
    obtain ⟨hne, hslash⟩ := Version.isPiece_of_denoted hdenoted
    exact ⟨version, ⟨rfl, hne, hslash, .inl rfl⟩, hdenoted, hkey⟩

/-! ### Selecting -/

/-- A version that is stored and can be written is selected, and its record is drafted. -/
theorem serveSelect_of_get_ok {p : Panel} {version : Int} {x : Record}
    (hget : p.history.get version = .ok x) (hkey : Numeral.Writable x.key) :
    p.serveSelect version
      = ⟨.ok (.json 200 (selection x)), p.choosing x.key, [.selected x.key]⟩ := by
  have hclick : p.history.click version
      = ⟨.ok (), { p.history with selected := some x.key }, [.selected x.key]⟩ := by
    rw [History.click_eq, History.select_of_get_ok hget hkey]
    rfl
  obtain ⟨-, rfl⟩ := History.get_eq_ok hget
  have hvalue : selectedValue { p.history with selected := some x.key } = x.toValue := by
    rw [selectedValue, History.current_of_get_ok hget]
  simp only [serveSelect, hclick, selectionDraft, hvalue]
  rfl

/-- A version that is not stored is not found. -/
theorem serveSelect_of_get_error {p : Panel} {version : Int} {f : MissingVersion}
    (hget : p.history.get version = .error f) :
    p.serveSelect version = p.respond .versionNotFound := by
  have hclick : p.history.click version = p.history.unchanged (.error (.missing f)) := by
    rw [History.click_eq, History.select_of_get_error hget]
    rfl
  simp only [serveSelect, hclick]
  rfl

/-- What a piece denotes is all that counts of it. -/
theorem withVersion_of_denoted {version : String} {n : Int}
    (h : Version.denoted (Text.of version) = .ok n) (p : Panel) (serve : Int → Turn) :
    p.withVersion version.toList serve = serve n := by
  rw [withVersion, ← Text.of, h]

/-- A request for a selection is served by the version that it names. -/
theorem turn_of_selects {p : Panel} {r : Request} {version : String} (hr : r.Selects version) :
    p.turn r = p.withVersion version.toList p.serveSelect := by
  obtain ⟨hmethod, hpath⟩ := Request.selects_iff.mp hr
  simp only [turn, hpath, hmethod, Endpoint.methods, List.mem_singleton, if_true, serve]

/-! ### One request -/

theorem withVersion_panel {p : Panel} {serve : Int → Turn} (h : ∀ v, (serve v).panel = p)
    (piece : List Char) : (p.withVersion piece serve).panel = p := by
  rw [withVersion]
  split
  · exact h _
  · rfl

/-- Showing a row changes nothing. -/
theorem serveRow_panel (p : Panel) (version : Int) : (p.serveRow version).panel = p := by
  rw [serveRow]
  split
  · rfl
  · rfl

/-- Only a request for a selection can change the panel. -/
theorem turn_panel_of_not_selects {p : Panel} {r : Request} (hno : ∀ version, ¬ r.Selects version) :
    (p.turn r).panel = p := by
  rw [turn]
  cases hpath : Endpoint.ofPath? r.path with
  | none =>
      simp only
      split <;> rfl
  | some e =>
      simp only
      split
      · rename_i hmethod
        cases e with
        | manual page | root | page | listing => rfl
        | row version => exact withVersion_panel p.serveRow_panel version
        | select version =>
            have hselects : r.Selects (String.ofList version) :=
              Request.selects_iff.mpr
                ⟨List.mem_singleton.mp hmethod, by rw [hpath, String.toList_ofList]⟩
            exact absurd hselects (hno _)
      · rfl

/-- A choice is served with the record that it chooses. -/
theorem turn_of_chooses {p : Panel} {r : Request} {k : Nat} (hr : p.Chooses r k) :
    ∃ x, p.history.get k = .ok x ∧ x ∈ p.history.records ∧ x.key = k ∧
      p.turn r = ⟨.ok (.json 200 (selection x)), p.choosing k, [.selected k]⟩ := by
  obtain ⟨version, hselects, hdenoted, hkey⟩ := hr
  obtain ⟨x, hget, hx, rfl⟩ := History.exists_get hkey
  refine ⟨x, hget, hx, rfl, ?_⟩
  have hshort : Numeral.Writable x.key :=
    Numeral.writable_iff.mpr (Version.natAbs_lt_of_denoted hdenoted)
  rw [turn_of_selects hselects, withVersion_of_denoted hdenoted, serveSelect_of_get_ok hget hshort]

/-- A choice changes the selection and nothing else. -/
theorem answer_panel_of_chooses {p : Panel} {r : Request} {k : Nat} (hr : p.Chooses r k) :
    (p.answer r).panel = p.choosing k := by
  obtain ⟨x, -, -, -, hturn⟩ := turn_of_chooses hr
  rw [answer, hturn]

/-- A request for a selection that chooses nothing gets a refusal. -/
theorem turn_of_not_chooses {p : Panel} {r : Request} {version : String} (hr : r.Selects version)
    (hno : ∀ k, ¬ p.Chooses r k) :
    (∃ f, p.turn r = p.respond (.unreadableVersion (Text.of version) f)) ∨
      p.turn r = p.respond .versionNotFound := by
  rw [turn_of_selects hr, withVersion, ← Text.of]
  cases hdenoted : Version.denoted (Text.of version) with
  | error f => exact .inl ⟨f, rfl⟩
  | ok v =>
      refine .inr ?_
      cases hget : p.history.get v with
      | error f => exact serveSelect_of_get_error hget
      | ok x =>
          obtain ⟨hx, rfl⟩ := History.get_eq_ok hget
          exact absurd ⟨version, hr, hdenoted, x, hx, rfl⟩ (hno x.key)

/-- A request with the method of selections that asks for none is refused or led elsewhere. -/
theorem turn_of_not_selects {p : Panel} {r : Request} (hmethod : r.method = "POST")
    (hno : ∀ version, ¬ r.Selects version) :
    ∃ d, p.turn r = p.respond d ∧ d.status ≠ 200 := by
  rw [turn]
  cases hpath : Endpoint.ofPath? r.path with
  | none =>
      simp only
      split
      · exact ⟨_, rfl, (by decide : 307 ≠ 200)⟩
      · exact ⟨_, rfl, (by decide : 404 ≠ 200)⟩
  | some e =>
      have hselect : ∀ version, e ≠ .select version := by
        rintro version rfl
        exact hno (String.ofList version)
          (Request.selects_iff.mpr ⟨hmethod, by rw [hpath, String.toList_ofList]⟩)
      have hother : r.method ∉ e.methods := by
        rw [hmethod]
        cases e with
        | manual page => exact (by decide : "POST" ∉ ["GET", "HEAD"])
        | root | page | row | listing => exact (by decide : "POST" ∉ ["GET"])
        | select version => exact absurd rfl (hselect version)
      simp only [if_neg hother]
      exact ⟨_, rfl, (by decide : 405 ≠ 200)⟩

/-- A request that chooses nothing changes nothing. -/
theorem answer_panel_of_not_chooses {p : Panel} {r : Request} (hno : ∀ k, ¬ p.Chooses r k) :
    (p.answer r).panel = p := by
  by_cases hselects : ∃ version, r.Selects version
  · obtain ⟨version, hr⟩ := hselects
    rw [answer]
    rcases turn_of_not_chooses hr hno with ⟨f, hturn⟩ | hturn
    · rw [hturn]; rfl
    · rw [hturn]; rfl
  · exact turn_panel_of_not_selects fun version hr => hselects ⟨version, hr⟩

/-- A request changes the selection or nothing. -/
theorem answer_panel_cases (p : Panel) (r : Request) :
    (∃ k, p.Chooses r k ∧ (p.answer r).panel = p.choosing k) ∨
      (∀ k, ¬ p.Chooses r k) ∧ (p.answer r).panel = p := by
  by_cases h : ∃ k, p.Chooses r k
  · obtain ⟨k, hk⟩ := h
    exact .inl ⟨k, hk, answer_panel_of_chooses hk⟩
  · have hno : ∀ k, ¬ p.Chooses r k := fun k hk => h ⟨k, hk⟩
    exact .inr ⟨hno, answer_panel_of_not_chooses hno⟩

/-! ### Runs -/

/-- What a request chooses depends on the records alone. -/
theorem chooses_congr {p q : Panel} (h : q.history.records = p.history.records) {r : Request}
    {k : Nat} : q.Chooses r k ↔ p.Chooses r k := by
  rw [Chooses, Chooses, h]

/-- A request changes nothing but the selection. -/
theorem choosing_answer (p : Panel) (r : Request) (k : Nat) :
    (p.answer r).panel.choosing k = p.choosing k := by
  rcases p.answer_panel_cases r with ⟨j, -, hpanel⟩ | ⟨-, hpanel⟩
  · rw [hpanel]; rfl
  · rw [hpanel]

/-- A run of requests changes nothing but the selection. -/
theorem choosing_run (p : Panel) (rs : List Request) (k : Nat) :
    (p.run rs).choosing k = p.choosing k := by
  induction rs generalizing p with
  | nil => rfl
  | cons r rs ih =>
      have hrun : p.run (r :: rs) = (p.answer r).panel.run rs := rfl
      rw [hrun, ih, choosing_answer]

theorem records_of_choosing {p q : Panel} {k : Nat} (h : q.choosing k = p.choosing k) :
    q.history.records = p.history.records := by
  have hrecords : (q.choosing k).history.records = (p.choosing k).history.records := by rw [h]
  exact hrecords

theorem limit_of_choosing {p q : Panel} {k : Nat} (h : q.choosing k = p.choosing k) :
    q.history.limit = p.history.limit := by
  have hlimit : (q.choosing k).history.limit = (p.choosing k).history.limit := by rw [h]
  exact hlimit

/-- A run without a choice changes nothing. -/
theorem run_of_not_chooses {p : Panel} {rs : List Request}
    (hno : ∀ r ∈ rs, ∀ k, ¬ p.Chooses r k) : p.run rs = p := by
  induction rs with
  | nil => rfl
  | cons r rs ih =>
      have hrun : p.run (r :: rs) = (p.answer r).panel.run rs := rfl
      rw [hrun, answer_panel_of_not_chooses (hno r (List.mem_cons_self ..))]
      exact ih fun x hx => hno x (List.mem_cons_of_mem _ hx)

/-- The last request that chooses something decides. -/
theorem run_of_last_chooses {p : Panel} {before after : List Request} {r : Request} {k : Nat}
    (hr : p.Chooses r k) (hafter : ∀ x ∈ after, ∀ j, ¬ p.Chooses x j) :
    p.run (before ++ r :: after) = p.choosing k := by
  have hrun : p.run (before ++ r :: after) = ((p.run before).answer r).panel.run after := by
    rw [run, List.foldl_append]
    rfl
  have hbefore : (p.run before).Chooses r k :=
    (chooses_congr (records_of_choosing (p.choosing_run before k))).mpr hr
  rw [hrun, answer_panel_of_chooses hbefore, choosing_run]
  exact run_of_not_chooses fun x hx j hj => hafter x hx j ((chooses_congr rfl).mp hj)

/-- Requests that choose nothing, wherever they stand, make no difference to the other replies. -/
theorem replies_filter {p : Panel} {marked : List (Request × Bool)}
    (hno : ∀ m ∈ marked, m.2 = false → ∀ k, ¬ p.Chooses m.1 k) :
    (((p.replies (marked.map Prod.fst)).zip (marked.map Prod.snd)).filter Prod.snd).map Prod.fst
      = p.replies ((marked.filter Prod.snd).map Prod.fst) := by
  induction marked generalizing p with
  | nil => rfl
  | cons m marked ih =>
      obtain ⟨r, kept⟩ := m
      have hrest : ∀ m ∈ marked, m.2 = false → ∀ k, ¬ p.Chooses m.1 k :=
        fun m hm => hno m (List.mem_cons_of_mem _ hm)
      have hrecords := records_of_choosing (p.choosing_answer r 0)
      have hnext := ih (p := (p.answer r).panel) fun m hm hfalse k hk =>
        hrest m hm hfalse k ((chooses_congr hrecords).mp hk)
      simp only [List.map_cons, replies, List.zip_cons_cons]
      cases kept with
      | true =>
          rw [List.filter_cons_of_pos rfl, List.filter_cons_of_pos rfl, List.map_cons,
            List.map_cons, hnext]
          rfl
      | false =>
          have hpanel := answer_panel_of_not_chooses (hno (r, false) (List.mem_cons_self ..) rfl)
          rw [hpanel] at hnext ⊢
          rw [List.filter_cons_of_neg (by simp), List.filter_cons_of_neg (by simp), hnext]

/-- **Only the selection of a version on show changes anything.**  Whatever is requested, in any
order, the records and the limit stay.  The last request for the selection of the key of a record on
show, its path with or without a line feed behind it, decides what is selected, and without one the
selection stays, too.  Of the requests that choose nothing any number may be left out or put in
anywhere: the others get the same replies. -/
theorem run_selects_last (p : Panel) (rs : List Request) :
    (p.run rs).history.records = p.history.records ∧
    (p.run rs).history.limit = p.history.limit ∧
    (∀ before r after k, rs = before ++ r :: after → p.Chooses r k →
      (∀ x ∈ after, ∀ j, ¬ p.Chooses x j) → (p.run rs).history.selected = some k) ∧
    ((∀ r ∈ rs, ∀ k, ¬ p.Chooses r k) → (p.run rs).history.selected = p.history.selected) ∧
    ∀ marked : List (Request × Bool), marked.map Prod.fst = rs →
      (∀ m ∈ marked, m.2 = false → ∀ k, ¬ p.Chooses m.1 k) →
      (((p.replies rs).zip (marked.map Prod.snd)).filter Prod.snd).map Prod.fst
        = p.replies ((marked.filter Prod.snd).map Prod.fst) := by
  refine ⟨records_of_choosing (p.choosing_run rs 0), limit_of_choosing (p.choosing_run rs 0),
    fun before r after k heq hr hafter => ?_, fun hno => by rw [run_of_not_chooses hno],
    fun marked heq hno => ?_⟩
  · rw [heq, run_of_last_chooses hr hafter]
    rfl
  · rw [← heq]
    exact replies_filter hno

/-- A path with a line feed behind it is not that of a selection, and yet selects. -/
theorem selected_by_line_feed :
    let p : Panel := ⟨"Panel", ⟨[⟨some 7, none, none⟩], none, none⟩, .info, default⟩
    let r : Request := ⟨"POST", "/api/configs/7/select\n", ""⟩
    (∀ version, r.path ≠ "/api/configs/" ++ version ++ "/select") ∧
      p.history.selected = none ∧ (p.run [r]).history.selected = some 7 := by
  intro p r
  refine ⟨fun version hpath => ?_, rfl, ?_⟩
  · have hlast := congrArg (fun s : String => s.toList.getLast?) hpath
    simp [r, List.getLast?_cons, List.getLast?_append] at hlast
  · have hchooses : p.Chooses r 7 :=
      ⟨"7", ⟨rfl, by decide, by decide, .inr rfl⟩, rfl, _, List.mem_singleton_self _, rfl⟩
    exact congrArg (fun q : Panel => q.history.selected) (answer_panel_of_chooses hchooses)

/-- A selection, one of a version that is not there, and a look at the list. -/
theorem run_selects_last_of_three :
    let p : Panel :=
      ⟨"Panel", ⟨[⟨some 7, none, none⟩, ⟨none, none, none⟩], some 2, some 0⟩, .info, default⟩
    let known : Request := ⟨"POST", "/api/configs/+07/select", "x=1"⟩
    let unknown : Request := ⟨"POST", "/api/configs/9/select", ""⟩
    let listing : Request := ⟨"GET", "/api/configs", ""⟩
    p.Chooses known 7 ∧ (∀ k, ¬ p.Chooses unknown k) ∧ (∀ k, ¬ p.Chooses listing k) ∧
      (p.run [known, unknown, listing]).history.selected = some 7 ∧
      (p.run [unknown, listing]).history.selected = some 0 ∧
      [p.answer known, ((p.answer known).panel.answer unknown).panel.answer listing]
        = p.replies [known, listing] := by
  intro p known unknown listing
  have hknown : p.Chooses known 7 :=
    ⟨"+07", by decide, rfl, ⟨some 7, none, none⟩, List.mem_cons_self .., rfl⟩
  have hunknown : ∀ k, ¬ p.Chooses unknown k := by
    rintro k ⟨version, hselects, hdenoted, x, hx, rfl⟩
    have hpath : Endpoint.ofPath? unknown.path = some (.select ['9']) := by decide
    have hpiece := (Request.selects_iff.mp hselects).2
    rw [hpath, Option.some.injEq, Endpoint.select.injEq] at hpiece
    have hnine : Version.denoted (Text.of version) = .ok 9 := by
      rw [Text.of, ← hpiece]
      rfl
    rw [hdenoted, Except.ok.injEq] at hnine
    simp only [p, List.mem_cons, List.not_mem_nil, or_false] at hx
    rcases hx with rfl | rfl <;> cases hnine
  have hlisting : ∀ k, ¬ p.Chooses listing k := by
    rintro k ⟨version, ⟨hmethod, -⟩, -⟩
    exact absurd hmethod (by decide)
  have hrest : ∀ x ∈ [unknown, listing], ∀ j, ¬ p.Chooses x j := by
    intro x hx
    simp only [List.mem_cons, List.not_mem_nil, or_false] at hx
    rcases hx with rfl | rfl
    · exact hunknown
    · exact hlisting
  obtain ⟨-, -, hlast, -, herased⟩ := run_selects_last p [known, unknown, listing]
  obtain ⟨-, -, -, hkept, -⟩ := run_selects_last p [unknown, listing]
  have hmarked := herased [(known, true), (unknown, false), (listing, true)] rfl (by
    intro m hm hfalse
    simp only [List.mem_cons, List.not_mem_nil, or_false] at hm
    rcases hm with rfl | rfl | rfl
    · cases hfalse
    · exact hunknown
    · cases hfalse)
  exact ⟨hknown, hunknown, hlisting, hlast [] known [unknown, listing] 7 rfl hknown hrest,
    hkept hrest, hmarked⟩

end Panel

end ConfigPanel
