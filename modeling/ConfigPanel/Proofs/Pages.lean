import ConfigPanel.Proofs.Listings
import ConfigPanel.Proofs.Rows

/-!
# Panel — the page and the single rows

The page stands around the rows that are also answered one by one: the texts are the same, because
both are the rows of the history as it is.  The remark that there is none opens a paragraph, and
nothing else on the page does (`Page.NoParagraph`), whatever the title and the users are; so it
cannot be faked.

* `Page.render_eq`: the page, from the title as it is shown and the texts of the rows.
* `Page.remark_infix_render_iff`: when the remark is on the page.
* `Sound.filter_highlighted`: the selected record is the one record with a highlighted row.
* `page_composed`: the page and the single rows of every reachable history.
-/

namespace ConfigPanel

namespace Page

/-! ### The frame -/

/-- All that stands before the rows, around a title as it is shown. -/
def headFor (shown : Text) : Text := opening ++ shown ++ middle ++ shown ++ beforeRows

theorem render_eq (title : String) (rows : List Text) :
    render title rows = headFor (Markup.escape (Text.of title)) ++ body rows ++ foot := rfl

/-! ### Paragraphs -/

/-- No paragraph opens in the text, nor where it ends and another one follows. -/
structure NoParagraph (t : Text) : Prop where
  inside : ¬ Text.of "<p" <:+: t
  behind : t.getLast? ≠ some (.char '<')

instance (t : Text) : Decidable (NoParagraph t) :=
  decidable_of_iff (¬ Text.of "<p" <:+: t ∧ t.getLast? ≠ some (.char '<'))
    ⟨fun h => ⟨h.1, h.2⟩, fun h => ⟨h.inside, h.behind⟩⟩

theorem noParagraph_nil : NoParagraph [] := by decide

theorem NoParagraph.append {s t : Text} (hs : NoParagraph s) (ht : NoParagraph t) :
    NoParagraph (s ++ t) := by
  refine ⟨fun h => ?_, fun h => ?_⟩
  · rcases List.infix_append_iff.mp h with h | h | ⟨l₁, l₂, heq, hsuffix, hprefix⟩
    · exact hs.inside h
    · exact ht.inside h
    · -- the beginning of the two characters is the end of `s`
      have hopen : Text.of "<p" = [.char '<', .char 'p'] := by decide
      rw [hopen] at heq
      match l₁, heq with
      | [], heq => exact ht.inside (hopen ▸ heq ▸ hprefix.isInfix)
      | [p], heq =>
          obtain ⟨before, rfl⟩ := hsuffix
          obtain ⟨rfl, -⟩ := List.cons.inj heq
          exact hs.behind List.getLast?_concat
      | [p, q], heq =>
          obtain rfl : l₂ = [] := by
            have hlength := congrArg List.length heq
            simpa using hlength
          rw [List.append_nil] at heq
          exact hs.inside (hopen ▸ heq ▸ hsuffix.isInfix)
      | p :: q :: o :: rest, heq =>
          have hlength := congrArg List.length heq
          simp at hlength
  · rw [List.getLast?_append] at h
    cases hlast : t.getLast? with
    | none => rw [hlast] at h; exact hs.behind h
    | some p => rw [hlast] at h; exact ht.behind (hlast.trans h)

/-- No paragraph opens in an escaped text. -/
theorem noParagraph_escape (t : Text) : NoParagraph (Markup.escape t) := by
  have hmark := (Markup.safe_escape t).no_mark (.char '<') (by decide)
  refine ⟨fun h => hmark (h.subset (by decide)), fun h => ?_⟩
  exact hmark (List.mem_of_getLast? h)

theorem noParagraph_flatMap {α : Type} {xs : List α} {f : α → Text}
    (h : ∀ x ∈ xs, NoParagraph (f x)) : NoParagraph (xs.flatMap f) := by
  induction xs with
  | nil => exact noParagraph_nil
  | cons x xs ih =>
      obtain ⟨hx, hxs⟩ := List.forall_mem_cons.mp h
      exact hx.append (ih hxs)

theorem noParagraph_fillAfter {pieces texts : List Text}
    (hpieces : ∀ piece ∈ pieces, NoParagraph piece) (htexts : ∀ t ∈ texts, NoParagraph t) :
    NoParagraph (Template.fillAfter pieces texts) := by
  induction pieces generalizing texts with
  | nil => exact noParagraph_nil
  | cons piece pieces ih =>
      obtain ⟨hpiece, hrest⟩ := List.forall_mem_cons.mp hpieces
      cases texts with
      | nil => exact hpiece.append (ih hrest htexts)
      | cons t texts =>
          obtain ⟨ht, htexts⟩ := List.forall_mem_cons.mp htexts
          exact (ht.append hpiece).append (ih hrest htexts)

/-- No paragraph opens in a row. -/
theorem noParagraph_markup (r : Row) : NoParagraph r.markup := by
  have hopening : NoParagraph Row.template.opening := by decide
  have hafter : ∀ piece ∈ Row.template.after, NoParagraph piece := by decide
  have hfields : ∀ t ∈ (r.fields r.labels).map Markup.escape, NoParagraph t :=
    List.forall_mem_map.mpr fun t _ => noParagraph_escape t
  exact hopening.append (noParagraph_fillAfter hafter hfields)

theorem lines_cons_cons (l m : String) (ls : List String) :
    lines (l :: m :: ls) = Text.of l ++ [.char '\n'] ++ lines (m :: ls) := by
  simp [lines, Text.of]

/-- No paragraph opens across the end of a line. -/
theorem noParagraph_lines {ls : List String} (h : ∀ l ∈ ls, NoParagraph (Text.of l)) :
    NoParagraph (lines ls) := by
  induction ls with
  | nil => exact noParagraph_nil
  | cons l ls ih =>
      obtain ⟨hl, hls⟩ := List.forall_mem_cons.mp h
      cases ls with
      | nil => simpa [lines] using hl
      | cons m ls =>
          have hend : NoParagraph [.char '\n'] := by decide
          rw [lines_cons_cons]
          exact (hl.append hend).append (ih hls)

theorem noParagraph_headFor (t : Text) : NoParagraph (headFor (Markup.escape t)) := by
  have hopening : NoParagraph opening := noParagraph_lines (by decide)
  have hmiddle : NoParagraph middle := noParagraph_lines (by decide)
  have hbefore : NoParagraph beforeRows := noParagraph_lines (by decide)
  have hshown := noParagraph_escape t
  exact (((hopening.append hshown).append hmiddle).append hshown).append hbefore

/-- The remark is on the page exactly when there are no rows. -/
theorem remark_infix_render_iff {title : String} {rows : List Row} :
    emptyRemark <:+: render title (rows.map Row.markup) ↔ rows = [] := by
  constructor
  · intro h
    by_contra hne
    have hgap : NoParagraph gap := noParagraph_lines (by decide)
    have hfoot : NoParagraph foot := noParagraph_lines (by decide +kernel)
    have hbody : NoParagraph (body (rows.map Row.markup)) := by
      have hempty : (rows.map Row.markup).isEmpty = false := by simpa using hne
      rw [body, hempty]
      exact noParagraph_flatMap (List.forall_mem_map.mpr fun r _ =>
        (hgap.append (noParagraph_markup r)).append hgap)
    have hpage := ((noParagraph_headFor (Text.of title)).append hbody).append hfoot
    have hopen : Text.of "<p" <+: emptyRemark := by decide
    rw [render_eq] at h
    exact hpage.inside (hopen.isInfix.trans h)
  · rintro rfl
    exact ⟨head title ++ gap, gap ++ foot, by simp [render, body]⟩

end Page

/-! ### The highlighted row -/

namespace History

theorem read?_rowOf (h : History) (x : Record) :
    Row.read? (h.rowOf x).markup = some ⟨h.selected == some x.key, x.key, x.labels⟩ :=
  Row.read?_markup (h.rowOf x)

/-- In a sound history one record is selected or none, unless the selection cannot be written. -/
theorem Sound.filter_highlighted {under : Option Int} {h : History} (hs : h.Sound under)
    (hselected : h.Legible) :
    (h.selected = none ∧ h.records.filter (fun x => h.selected == some x.key) = []) ∨
      ∃ x, h.selected = some x.key ∧
        h.records.filter (fun x => h.selected == some x.key) = [x] := by
  rcases hs.selected_cases hselected with hnone | ⟨x, hx, hsingle⟩
  · refine .inl ⟨hnone, List.filter_eq_nil_iff.mpr fun y _ => ?_⟩
    rw [hnone]
    exact Bool.false_ne_true
  · refine .inr ⟨x, hx, ?_⟩
    have hkeys : (fun y : Record => h.selected == some y.key) = fun y => y.key == x.key := by
      funext y
      rw [hx]
      exact Bool.beq_comm
    rw [hkeys, hsingle]

end History

/-! ### The page and its rows -/

namespace Panel

variable {p : Panel}

/-- The page is answered, as rendered, when all users can be encoded. -/
theorem exists_page (hc : p.history.Clear) (husers : ∀ x ∈ p.history.records, x.Encodable)
    (query : String) :
    ∃ page, Text.of page = Page.render p.title (p.history.views.map Row.markup) ∧
      (p.answer ⟨"GET", "/configs", query⟩).response
        = .ok ⟨200, some "text/html; charset=utf-8", none, none, page⟩ := by
  have hbody : (Page.render p.title (p.history.views.map Row.markup)).IsString := by
    refine (Page.isString_render p.title _).mpr ?_
    rw [History.views, List.map_map, List.forall_mem_map]
    exact fun x hx => (Row.isString_markup (p.history.rowOf x)).mpr (husers x hx)
  exact exists_response (turn_page hc query) hbody

/-- The row of a stored record is answered, as rendered, when its user can be encoded. -/
theorem exists_row (hd : History.Descending p.history.records) (hc : p.history.Clear) {x : Record}
    (hx : x ∈ p.history.records) (huser : x.Encodable) (query : String) :
    ∃ row, Text.of row = (p.history.rowOf x).markup ∧
      (p.answer ⟨"GET", "/configs/" ++ toString x.key, query⟩).response
        = .ok ⟨200, some "text/html; charset=utf-8", none, none, row⟩ := by
  have hbody : (p.history.rowOf x).markup.IsString :=
    (Row.isString_markup (p.history.rowOf x)).mpr huser
  exact exists_response (turn_of_key hd hx hc query) hbody

theorem exists_rows (hd : History.Descending p.history.records) (hc : p.history.Clear)
    (husers : ∀ x ∈ p.history.records, x.Encodable) (query : String) :
    ∃ row : Record → String, ∀ x ∈ p.history.records,
      Text.of (row x) = (p.history.rowOf x).markup ∧
        (p.answer ⟨"GET", "/configs/" ++ toString x.key, query⟩).response
          = .ok ⟨200, some "text/html; charset=utf-8", none, none, row x⟩ := by
  choose! row hrow using fun x hx => exists_row hd hc hx (husers x hx) query
  exact ⟨row, hrow⟩

/-- **The page is made of the single rows.**  When the users of the records can be shown and their
keys can be asked for, and the selected key as well, the page and the row under each key are
answered.  Before and after the rows on the page stands what the title, escaped, and nothing else
determines; the rows are the very texts that are answered one by one, in strictly descending order
of their keys.  The remark that there is none is on the page exactly when no record is stored.  Each
row reads back as the key and the labels of its record, and it is highlighted if the record is
selected: no row if none is, else one. -/
theorem page_composed (hp : p.history.Reachable)
    (hkeys : ∀ x ∈ p.history.records, x.key < 10 ^ Numeral.digitLimit)
    (hselected : ∀ k, p.history.selected = some k → k < 10 ^ Numeral.digitLimit)
    (husers : ∀ x ∈ p.history.records, x.Encodable) (query : String) :
    ∃ (page : String) (row : Record → String),
      (p.answer ⟨"GET", "/configs", query⟩).response
        = .ok ⟨200, some "text/html; charset=utf-8", none, none, page⟩ ∧
      (∀ x ∈ p.history.records,
        (p.answer ⟨"GET", "/configs/" ++ toString x.key, query⟩).response
          = .ok ⟨200, some "text/html; charset=utf-8", none, none, row x⟩) ∧
      Text.of page = Page.headFor (Markup.escape (Text.of p.title))
        ++ Page.body (p.history.records.map fun x => Text.of (row x)) ++ Page.foot ∧
      History.Descending p.history.records ∧
      (Page.emptyRemark <:+: Text.of page ↔ p.history.records = []) ∧
      (∀ x ∈ p.history.records, Row.read? (Text.of (row x))
        = some ⟨p.history.selected == some x.key, x.key, x.labels⟩) ∧
      let highlighted := p.history.records.filter fun x =>
        (Row.read? (Text.of (row x))).any Row.Shown.highlighted
      (p.history.selected = none ∧ highlighted = [] ∨
        ∃ x, p.history.selected = some x.key ∧ highlighted = [x]) := by
  obtain ⟨under, hs⟩ := hp.sound
  have hc := hp.clear hkeys
  obtain ⟨page, hpage, hresponse⟩ := exists_page hc husers query
  obtain ⟨row, hrow⟩ := exists_rows hs.descending hc husers query
  have htexts : p.history.views.map Row.markup
      = p.history.records.map fun x => Text.of (row x) := by
    rw [History.views, List.map_map]
    exact List.map_congr_left fun x hx => (hrow x hx).1.symm
  have hread : ∀ x ∈ p.history.records, Row.read? (Text.of (row x))
      = some ⟨p.history.selected == some x.key, x.key, x.labels⟩ := by
    intro x hx
    rw [(hrow x hx).1]
    exact p.history.read?_rowOf x
  refine ⟨page, row, hresponse, fun x hx => (hrow x hx).2, ?_, hs.descending, ?_, hread, ?_⟩
  · rw [hpage, Page.render_eq, htexts]
  · rw [hpage, Page.remark_infix_render_iff]
    exact List.map_eq_nil_iff
  · have hfilter : (p.history.records.filter fun x =>
        (Row.read? (Text.of (row x))).any Row.Shown.highlighted)
        = p.history.records.filter fun x => p.history.selected == some x.key :=
      List.filter_congr fun x hx => by rw [hread x hx]; rfl
    exact hfilter ▸ hs.filter_highlighted (History.legible_iff.mpr hselected)

/-- A title and a user that write the remark, and a selection of the record without a version. -/
theorem page_composed_of_remark :
    let remark := "<p class=\"empty\">No config versions available</p>"
    let ann : Record := ⟨some 7, some (Text.of remark), some 1700000000⟩
    let plain : Record := ⟨none, none, none⟩
    let q : Panel := (sample remark remark).run [Request.forSelection "0" ""]
    q.history.Reachable ∧ (∀ x ∈ q.history.records, x.key < 10 ^ Numeral.digitLimit) ∧
      (∀ k, q.history.selected = some k → k < 10 ^ Numeral.digitLimit) ∧
      (∀ x ∈ q.history.records, x.Encodable) ∧
      q.history.records = [ann, plain] ∧ q.history.selected = some 0 ∧
      ∃ page annRow plainRow : String,
        (q.answer ⟨"GET", "/configs", ""⟩).response
          = .ok ⟨200, some "text/html; charset=utf-8", none, none, page⟩ ∧
        (q.answer ⟨"GET", "/configs/7", ""⟩).response
          = .ok ⟨200, some "text/html; charset=utf-8", none, none, annRow⟩ ∧
        (q.answer ⟨"GET", "/configs/0", ""⟩).response
          = .ok ⟨200, some "text/html; charset=utf-8", none, none, plainRow⟩ ∧
        ¬ Page.emptyRemark <:+: Text.of page ∧
        Text.of page = Page.headFor (Markup.escape (Text.of remark))
          ++ Page.body [Text.of annRow, Text.of plainRow] ++ Page.foot ∧
        (Row.read? (Text.of annRow)).map Row.Shown.highlighted = some false ∧
        (Row.read? (Text.of plainRow)).map Row.Shown.highlighted = some true := by
  intro remark ann plain q
  obtain ⟨htitle, hsame, hq, hkeys, husers, hshort⟩ :=
    sample_run remark remark [Request.forSelection "0" ""]
  have hrecords : q.history.records = [ann, plain] := hsame
  have hselected : q.history.selected = some 0 := by decide +kernel
  have hann : ann ∈ q.history.records := hrecords ▸ List.mem_cons_self ..
  have hplain : plain ∈ q.history.records :=
    hrecords ▸ List.mem_cons_of_mem _ (List.mem_singleton_self plain)
  obtain ⟨page, row, hpage, hrows, htext, -, hremark, hread, -⟩ :=
    page_composed hq hkeys hshort husers ""
  have hsomething : ¬ Page.emptyRemark <:+: Text.of page := by
    rw [hremark, hrecords]
    exact List.cons_ne_nil _ _
  have hseven : "/configs/" ++ toString ann.key = "/configs/7" := by decide
  have hzero : "/configs/" ++ toString plain.key = "/configs/0" := by decide
  refine ⟨hq, hkeys, hshort, husers, hrecords, hselected, page, row ann, row plain, hpage,
    hseven ▸ hrows ann hann, hzero ▸ hrows plain hplain, hsomething, ?_, ?_, ?_⟩
  · rw [hrecords, htitle] at htext
    exact htext
  · rw [hread ann hann, hselected]
    rfl
  · rw [hread plain hplain, hselected]
    rfl

end Panel

end ConfigPanel
