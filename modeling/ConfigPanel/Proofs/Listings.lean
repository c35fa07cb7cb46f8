import ConfigPanel.Proofs.Naming
import ConfigPanel.Proofs.Replies

/-!
# Panel — what is listed is answered

Of the requests that show records, the page and the listing are drafted with status 200 when every
number in them can be written, and the row of a stored record under the decimal text of its key.
That is so in a loaded panel whatever has been requested of it, so there it comes down to what can
be encoded.  A surrogate that stands alone in the user of one record takes the page and the listing
down, and the row of this record, but not the rows of the others.

* `History.Clear`: the records of a history can be written.
* `turn_page`, `turn_listing`, `turn_of_key`: what is drafted then.
* `answers_page_iff`, `answers_listing_iff`, `answers_row_iff`: when a request is answered with 200.
* `run_answers_iff`: the same for a loaded panel, whatever was requested before.
-/

namespace ConfigPanel

/-- Every record on show is a validated one, with a version that can be written. -/
structure History.Clear (h : History) : Prop where
  validated : ∀ x ∈ h.records, x.Validated
  keys : ∀ x ∈ h.records, x.key < 10 ^ Numeral.digitLimit

/-! ### Reachable histories -/

/-- A request does nothing to a history that a call could not have done. -/
theorem History.Reachable.answer {p : Panel} (hp : p.history.Reachable) (r : Request) :
    (p.answer r).panel.history.Reachable := by
  rcases p.answer_panel_cases r with ⟨k, ⟨-, -, -, hkey⟩, hpanel⟩ | ⟨-, hpanel⟩
  · obtain ⟨x, hget, -, hxk⟩ := exists_get hkey
    have hselect : ((Session.start p.history).step (.select k)).session.history
        = { p.history with selected := some k } := by
      have hhistory : (p.history.select k).history = { p.history with selected := some k } := by
        rw [select_history_of_get_ok hget, hxk]
      exact hhistory
    have hcall := Reachable.call (s := Session.start p.history) hp (c := .select k) nofun
    rw [hselect] at hcall
    rw [hpanel]
    exact hcall
  · rw [hpanel]
    exact hp

theorem History.Reachable.clear {h : History} (hr : h.Reachable)
    (hkeys : ∀ x ∈ h.records, x.key < 10 ^ Numeral.digitLimit) : h.Clear := by
  obtain ⟨under, hs⟩ := hr.sound
  exact ⟨hs.validated, hkeys⟩

/-- Requests lead from reachable histories to reachable ones. -/
theorem History.Reachable.requests {p : Panel} (hp : p.history.Reachable) (rs : List Request) :
    (p.run rs).history.Reachable := by
  induction rs generalizing p with
  | nil => exact hp
  | cons r rs ih => exact ih (hp.answer r)

namespace Panel

/-! ### Requests and the selection -/

/-- What a request selects can be written. -/
theorem legible_answer {p : Panel} (hp : p.history.Legible) (r : Request) :
    (p.answer r).panel.history.Legible := by
  rcases p.answer_panel_cases r with ⟨k, ⟨version, -, hdenoted, -⟩, hpanel⟩ | ⟨-, hpanel⟩
  · rw [hpanel]
    intro j hj
    obtain rfl : k = j := Option.some.inj hj
    exact Numeral.writable_iff.mpr (Version.natAbs_lt_of_denoted hdenoted)
  · rw [hpanel]
    exact hp

theorem legible_requests {p : Panel} (hp : p.history.Legible) (rs : List Request) :
    (p.run rs).history.Legible := by
  induction rs generalizing p with
  | nil => exact hp
  | cons r rs ih => exact ih (legible_answer hp r)

/-! ### One request -/

variable {p : Panel}

theorem exists_response {r : Request} {d : Draft} (hturn : p.turn r = p.respond d)
    (hd : d.body.IsString) :
    ∃ body, Text.of body = d.body ∧
      (p.answer r).response = .ok ⟨d.status, d.contentType, d.location, d.allow, body⟩ :=
  exists_response_of_draft (congrArg Turn.draft hturn) hd

theorem validated_views {h : History} (hc : h.Clear) : ∀ row ∈ h.views, row.record.Validated := by
  intro row hrow
  obtain ⟨x, hx, rfl⟩ := List.mem_map.mp hrow
  exact hc.validated x hx

theorem renderAll_views {h : History} (hc : h.Clear) :
    Row.renderAll h.views = .quiet (.ok (h.views.map Row.markup)) := by
  have hkeys : ∀ row ∈ h.views, Numeral.Writable row.key := by
    intro row hrow
    obtain ⟨x, hx, rfl⟩ := List.mem_map.mp hrow
    exact Numeral.writable_natCast.mpr (hc.keys x hx)
  rw [Row.renderAll_eq_ite (validated_views hc), if_pos hkeys]

/-- The page is drafted when all versions can be written. -/
theorem turn_page (hc : p.history.Clear) (query : String) :
    p.turn ⟨"GET", "/configs", query⟩
      = p.respond (.html (Page.render p.title (p.history.views.map Row.markup))) := by
  have hpath : Endpoint.ofPath? "/configs" = some .page := by decide
  simp only [turn, hpath, Endpoint.methods, List.mem_singleton, if_true, serve,
    renderAll_views hc]
  rfl

/-- A listing is made, quietly, when its numbers can be written. -/
theorem makeListing_of_clear {h : History} (hc : h.Clear) (hselected : h.Legible) :
    makeListing h = .quiet (.ok (listing h)) := by
  have hlabels : Logged.each Record.loggedLabels h.records
      = .quiet (if ∀ x ∈ h.records, Numeral.Writable x.key then .ok (h.records.map Record.labels)
          else .error .tooLong) :=
    Logged.each_quiet fun x hx => (hc.validated x hx).loggedLabels
  have hshown : Numeral.Writable (h.selected.getD 0 : Nat) := by
    cases hsel : h.selected with
    | none => exact Numeral.Writable.of_natAbs_lt (by decide)
    | some k => exact hselected k hsel
  have hkeys : ∀ x ∈ h.records, Numeral.Writable x.key := fun x hx =>
    Numeral.writable_natCast.mpr (hc.keys x hx)
  rw [makeListing, hlabels, if_pos hkeys]
  simp only [Logged.map, Logged.quiet, Except.bind, if_pos hshown]
  rfl

/-- The listing is drafted when its numbers can be written. -/
theorem turn_listing (hc : p.history.Clear) (hselected : p.history.Legible) (query : String) :
    p.turn ⟨"GET", "/api/configs", query⟩ = p.respond (.json 200 (listing p.history)) := by
  have hpath : Endpoint.ofPath? "/api/configs" = some .listing := by decide
  simp only [turn, hpath, Endpoint.methods, List.mem_singleton, if_true, serve,
    makeListing_of_clear hc hselected]
  rfl

/-- The page is answered exactly when all users can be encoded. -/
theorem answers_page_iff (hc : p.history.Clear) {query : String} :
    (p.answer ⟨"GET", "/configs", query⟩).Answers 200 ↔ ∀ x ∈ p.history.records, x.Encodable := by
  rw [answers_of_draft (congrArg Turn.draft (turn_page hc query))]
  refine (and_iff_right rfl).trans ((Page.isString_render p.title _).trans ?_)
  rw [History.views, List.map_map, List.forall_mem_map]
  simp only [Function.comp_apply, Row.isString_markup]
  rfl

/-- The listing is answered exactly when all users can be encoded. -/
theorem answers_listing_iff (hc : p.history.Clear) (hselected : p.history.Legible)
    {query : String} :
    (p.answer ⟨"GET", "/api/configs", query⟩).Answers 200 ↔
      ∀ x ∈ p.history.records, x.Encodable := by
  rw [answers_of_draft (congrArg Turn.draft (turn_listing hc hselected query))]
  exact (and_iff_right rfl).trans (isString_written_listing p.history)

/-- Whatever stands behind the last slash is taken for a version. -/
theorem turn_row {version : String} (hne : version ≠ "") (hslash : '/' ∉ version.toList)
    (query : String) :
    p.turn ⟨"GET", "/configs/" ++ version, query⟩ = p.withVersion version.toList p.serveRow := by
  have hpath := Endpoint.ofPath?_eq_row_iff.mpr ⟨hne, hslash, rfl⟩
  simp only [turn, hpath, Endpoint.methods, List.mem_singleton, if_true, serve]

theorem turn_row_of_denoted {version : String} {n : Int}
    (h : Version.denoted (Text.of version) = .ok n) (query : String) :
    p.turn ⟨"GET", "/configs/" ++ version, query⟩ = p.serveRow n := by
  obtain ⟨hne, hslash⟩ := Version.isPiece_of_denoted h
  rw [turn_row hne hslash, withVersion_of_denoted h]

theorem serveRow_of_get_ok {n : Int} {x : Record} (hget : p.history.get n = .ok x)
    (hvalid : x.Validated) (hlt : x.key < 10 ^ Numeral.digitLimit) :
    p.serveRow n = p.respond (.html (p.history.rowOf x).markup) := by
  have hview : p.history.view n = .ok (p.history.rowOf x) := by
    rw [History.view_eq, hget]
    rfl
  have hrender : (p.history.rowOf x).render = .quiet (.ok (p.history.rowOf x).markup) :=
    Row.render_of_lt hvalid hlt
  rw [serveRow, hview]
  simp only [hrender]
  rfl

/-- The row of a stored record is drafted under the decimal text of its key. -/
theorem turn_of_key {x : Record} (hd : History.Descending p.history.records)
    (hx : x ∈ p.history.records) (hc : p.history.Clear) (query : String) :
    p.turn ⟨"GET", "/configs/" ++ toString x.key, query⟩
      = p.respond (.html (p.history.rowOf x).markup) := by
  rw [turn_row_of_denoted (Version.denoted_ofNat (hc.keys x hx)),
    serveRow_of_get_ok (History.get_key hd hx) (hc.validated x hx) (hc.keys x hx)]

/-- The row of a stored record is answered exactly when its user can be encoded. -/
theorem answers_row_iff {x : Record} (hd : History.Descending p.history.records)
    (hx : x ∈ p.history.records) (hc : p.history.Clear) {query : String} :
    (p.answer ⟨"GET", "/configs/" ++ toString x.key, query⟩).Answers 200 ↔ x.Encodable := by
  rw [answers_of_draft (congrArg Turn.draft (turn_of_key hd hx hc query))]
  exact (and_iff_right rfl).trans (Row.isString_markup (p.history.rowOf x))

theorem not_encodable_loneRecord : ¬ loneRecord.Encodable :=
  fun h => Text.not_isString_lone 0 (h _ rfl)

/-! ### A loaded panel -/

/-- All numbers that a loaded panel names can be written, whatever has been requested from it. -/
theorem clear_of_load {room : Nat} {bytes : List UInt8} {path : String} {limit : Option Int}
    {h : History} (hload : (History.ofSnapshot room bytes path limit).result = .ok h)
    (title : String) (level : Level) (site : Site) (rs : List Request) :
    let q := (⟨title, h, level, site⟩ : Panel).run rs
    ∃ under, q.history.Sound under ∧ q.history.Clear ∧ q.history.Legible := by
  intro q
  have hrecords : q.history.records = h.records :=
    records_of_choosing (choosing_run ⟨title, h, level, site⟩ rs 0)
  obtain ⟨under, hs⟩ :=
    (run_reached ⟨title, h, level, site⟩ rs).sound (History.sound_of_snapshot hload)
  have hstart : h.Legible := fun k hk => by
    rw [History.selected_of_snapshot hload] at hk
    cases hk
  exact ⟨under, hs, ⟨hs.validated, hrecords ▸ History.key_lt_of_snapshot hload⟩,
    legible_requests hstart rs⟩

/-- **What it takes for the records to be shown.**  Whatever has been requested from a loaded panel,
the page and the listing are answered with 200 exactly when no surrogate stands alone in the user of
any stored record, and the row of a stored record, asked for by its key, exactly when none does in
the user of this record. -/
theorem run_answers_iff {room : Nat} {bytes : List UInt8} {path : String} {limit : Option Int}
    {h : History} (hload : (History.ofSnapshot room bytes path limit).result = .ok h)
    (title : String) (level : Level) (site : Site) (rs : List Request) (query : String) :
    let q := (⟨title, h, level, site⟩ : Panel).run rs
    ((q.answer ⟨"GET", "/configs", query⟩).Answers 200 ↔ ∀ x ∈ q.history.records, x.Encodable) ∧
    ((q.answer ⟨"GET", "/api/configs", query⟩).Answers 200 ↔
      ∀ x ∈ q.history.records, x.Encodable) ∧
    ∀ x ∈ q.history.records,
      ((q.answer ⟨"GET", "/configs/" ++ toString x.key, query⟩).Answers 200 ↔ x.Encodable) := by
  intro q
  obtain ⟨under, hs, hc, hselected⟩ := clear_of_load hload title level site rs
  exact ⟨answers_page_iff hc, answers_listing_iff hc hselected,
    fun x hx => answers_row_iff hs.descending hx hc⟩

/-! ### A panel to look at -/

/-- A panel on two records, of which one has all that a record can have and the other nothing. -/
def sample (title user : String) : Panel :=
  ⟨title, ⟨[⟨some 7, some (Text.of user), some 1700000000⟩, ⟨none, none, none⟩], some 2, none⟩,
    .info, default⟩

/-- Whatever is asked of it, its records can be written and encoded. -/
theorem sample_run (title user : String) (rs : List Request) :
    let q := (sample title user).run rs
    q.title = title ∧ q.history.records = (sample title user).history.records ∧
      q.history.Reachable ∧ (∀ x ∈ q.history.records, x.key < 10 ^ Numeral.digitLimit) ∧
      (∀ x ∈ q.history.records, x.Encodable) ∧
      ∀ k, q.history.selected = some k → k < 10 ^ Numeral.digitLimit := by
  intro q
  have hsame := choosing_run (sample title user) rs 0
  have hrecords : q.history.records = (sample title user).history.records :=
    records_of_choosing hsame
  have hvalid : ∀ r ∈ (sample title user).history.records, r.Validated := by
    intro r hr
    refine Record.validated_iff.mpr fun d hd => ?_
    rcases List.mem_cons.mp hr with rfl | hr
    · obtain rfl := Option.some.inj hd
      decide
    · obtain rfl := List.mem_singleton.mp hr
      cases hd
  have hbuild : History.build (sample title user).history.records (some 2)
      = .ok (sample title user).history := rfl
  have hp : (sample title user).history.Reachable := .built (.ofRecords hvalid hbuild)
  have hselected : (sample title user).history.Legible := fun k hk => by cases hk
  refine ⟨congrArg Panel.title hsame, hrecords, hp.requests rs, ?_, ?_, fun k hk =>
    Numeral.writable_natCast.mp (legible_requests hselected rs k hk)⟩
  · rw [hrecords]
    intro x hx
    rcases List.mem_cons.mp hx with rfl | hx
    · have hseven : 7 < 10 ^ 20 := by decide
      exact Numeral.lt_limit hseven
    · obtain rfl := List.mem_singleton.mp hx
      exact Nat.pow_pos (by decide)
  · rw [hrecords]
    intro x hx u hu
    rcases List.mem_cons.mp hx with rfl | hx
    · exact Option.some.inj hu ▸ Text.isString_of user
    · obtain rfl := List.mem_singleton.mp hx
      cases hu

/-- Selecting one record and then the other makes no difference to what is answered. -/
theorem run_answers_of_lone :
    let first := Request.forSelection "2" ""
    let second := Request.forSelection "1" ""
    let q := (⟨"Panel", loneHistory, .info, default⟩ : Panel).run [first, second]
    (History.ofSnapshot 990 loneSurrogate "configs.json" (some 50)).result = .ok loneHistory ∧
      (q.answer ⟨"GET", "/configs/2", ""⟩).Answers 200 ∧
      ¬ (q.answer ⟨"GET", "/configs/1", ""⟩).Answers 200 ∧
      ¬ (q.answer ⟨"GET", "/configs", ""⟩).Answers 200 ∧
      ¬ (q.answer ⟨"GET", "/api/configs", ""⟩).Answers 200 := by
  intro first second q
  obtain ⟨hpage, hlisting, hrow⟩ :=
    run_answers_iff ofSnapshot_loneSurrogate "Panel" .info default [first, second] ""
  have hrecords : q.history.records = loneHistory.records :=
    records_of_choosing (choosing_run ⟨"Panel", loneHistory, .info, default⟩ [first, second] 0)
  have hann : (⟨some 2, some (Text.of "ann"), none⟩ : Record) ∈ q.history.records :=
    hrecords ▸ List.mem_cons_self ..
  have hlone : loneRecord ∈ q.history.records :=
    hrecords ▸ List.mem_cons_of_mem _ (List.mem_cons_self ..)
  refine ⟨ofSnapshot_loneSurrogate, (hrow _ hann).mpr ?_, ?_, ?_, ?_⟩
  · exact fun u hu => Option.some.inj hu ▸ Text.isString_of "ann"
  · exact fun hanswer => not_encodable_loneRecord ((hrow _ hlone).mp hanswer)
  · exact fun hanswer => not_encodable_loneRecord (hpage.mp hanswer _ hlone)
  · exact fun hanswer => not_encodable_loneRecord (hlisting.mp hanswer _ hlone)

/-- One record takes the page and the listing down, for the other one as well. -/
theorem listing_taken_down :
    (History.ofSnapshot 990 loneSurrogate "configs.json" (some 50)).result = .ok loneHistory ∧
      let p : Panel := ⟨"Panel", loneHistory, .info, default⟩
      ¬ (p.answer ⟨"GET", "/configs", ""⟩).Answers 200 ∧
      ¬ (p.answer ⟨"GET", "/api/configs", ""⟩).Answers 200 := by
  refine ⟨ofSnapshot_loneSurrogate, ?_⟩
  intro p
  obtain ⟨-, -, hc, hselected⟩ := clear_of_load ofSnapshot_loneSurrogate "Panel" .info default []
  have hlone : loneRecord ∈ p.history.records :=
    List.mem_cons_of_mem _ (List.mem_cons_self ..)
  constructor
  · exact fun hanswer => not_encodable_loneRecord ((answers_page_iff hc).mp hanswer _ hlone)
  · exact fun hanswer =>
      not_encodable_loneRecord ((answers_listing_iff hc hselected).mp hanswer _ hlone)

end Panel

end ConfigPanel
