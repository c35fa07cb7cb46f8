import ConfigPanel.Proofs.Pages
import ConfigPanel.Proofs.VersionTexts

/-!
# Page — the marks of its rows

A row carries the text of its key in an attribute, and a click on it asks for the selection of that
text.  `Page.marks` finds these texts on a page: it cuts the page into tags and the tags at their
quotation marks, and takes from each tag that carries a version the class and the version.  It knows
neither the template of a row nor the frame around the rows.

* `Page.marks_render`: the marks of a page are those of its rows, in their order.
* `rows_name_themselves`: the version that a row carries names its record to both endpoints.
-/

namespace ConfigPanel

/-! ### Tags and attributes -/

namespace Markup

/-- What stands between each opening bracket and the next closing one. -/
def tags : Text → List Text
  | []     => []
  | p :: t => if p = .char '<' then t.takeWhile (· != .char '>') :: tags t else tags t

/-- Every tag that begins in the text ends in it. -/
def Closed : Text → Prop
  | []     => True
  | p :: t => (p = .char '<' → .char '>' ∈ t) ∧ Closed t

instance decidableClosed : (t : Text) → Decidable (Closed t)
  | []     => isTrue trivial
  | _ :: t =>
      have := decidableClosed t
      inferInstanceAs (Decidable (_ ∧ _))

/-- The value of an attribute among the pieces of a tag, of which every second one is quoted. -/
def attributeIn? (name : String) : List Text → Option Text
  | before :: value :: rest =>
      if Text.of (" " ++ name ++ "=") <:+ before then some (unescape value)
      else attributeIn? name rest
  | _ => none

/-- The value of an attribute of a tag. -/
def attribute? (name : String) (tag : Text) : Option Text :=
  attributeIn? name (tag.splitOn (.char '\x22'))

theorem Closed.append {s t : Text} (hs : Closed s) (ht : Closed t) : Closed (s ++ t) := by
  induction s with
  | nil => exact ht
  | cons p s ih => exact ⟨fun hp => List.mem_append_left t (hs.1 hp), ih hs.2⟩

theorem closed_of_not_mem {t : Text} (h : .char '<' ∉ t) : Closed t := by
  induction t with
  | nil => trivial
  | cons p t ih =>
      obtain ⟨hp, ht⟩ := not_or.mp (mt List.mem_cons.mpr h)
      exact ⟨fun heq => absurd heq.symm hp, ih ht⟩

theorem takeWhile_append_of_mem {p : CodePoint} {s : Text} (h : p ∈ s) (t : Text) :
    (s ++ t).takeWhile (· != p) = s.takeWhile (· != p) := by
  induction s with
  | nil => cases h
  | cons q s ih =>
      rw [List.cons_append]
      by_cases hq : q = p
      · simp [hq]
      · have hs : p ∈ s := (List.mem_cons.mp h).resolve_left (Ne.symm hq)
        simp [hq, ih hs]

/-- Behind a text whose tags are closed, tags are read anew. -/
theorem tags_append {s : Text} (hs : Closed s) (t : Text) : tags (s ++ t) = tags s ++ tags t := by
  induction s with
  | nil => rfl
  | cons p s ih =>
      rw [List.cons_append, tags, tags, ih hs.2]
      by_cases hp : p = .char '<'
      · rw [if_pos hp, if_pos hp, takeWhile_append_of_mem (hs.1 hp)]
        rfl
      · rw [if_neg hp, if_neg hp]

theorem tags_of_not_mem {t : Text} (h : .char '<' ∉ t) : tags t = [] := by
  induction t with
  | nil => rfl
  | cons p t ih =>
      obtain ⟨hp, ht⟩ := not_or.mp (mt List.mem_cons.mpr h)
      rw [tags, if_neg (Ne.symm hp), ih ht]

theorem not_mem_intercalate {p sep : CodePoint} (hp : p ≠ sep) {pieces : List Text}
    (h : ∀ piece ∈ pieces, p ∉ piece) : p ∉ [sep].intercalate pieces := by
  induction pieces with
  | nil => exact List.not_mem_nil
  | cons piece pieces ih =>
      obtain ⟨hpiece, hpieces⟩ := List.forall_mem_cons.mp h
      cases pieces with
      | nil => rwa [List.intercalate_singleton]
      | cons next rest =>
          rw [List.intercalate_cons_cons]
          simp [hpiece, hp, ih hpieces]

/-- A tag without brackets in it, and what follows it. -/
theorem tags_tag {tag : Text} (hopen : .char '<' ∉ tag) (hclose : .char '>' ∉ tag) (rest : Text) :
    tags (.char '<' :: (tag ++ .char '>' :: rest)) = tag :: tags rest := by
  have htag : (tag ++ .char '>' :: rest).takeWhile (· != .char '>') = tag := by
    rw [List.takeWhile_append_of_pos]
    · simp
    · intro p hp
      simpa using fun heq : p = .char '>' => hclose (heq ▸ hp)
  have hrest : tags (tag ++ .char '>' :: rest) = tags rest := by
    rw [tags_append (closed_of_not_mem hopen), tags_of_not_mem hopen, List.nil_append, tags,
      if_neg (by decide)]
  rw [tags, if_pos rfl, htag, hrest]

end Markup

/-! ### Marks -/

namespace Page

/-- The class of a row and the version that it carries. -/
structure Mark where
  css : Text
  version : Text
  deriving DecidableEq, Repr

/-- The mark of a tag, if it carries a version. -/
def mark? (tag : Text) : Option Mark :=
  (Markup.attribute? "data-version" tag).map fun version =>
    ⟨(Markup.attribute? "class" tag).getD [], version⟩

/-- The marks of a page. -/
def marks (t : Text) : List Mark := (Markup.tags t).filterMap mark?

/-- The tags of the text are closed, and these are its marks. -/
structure Shows (t : Text) (ms : List Mark) : Prop where
  closed : Markup.Closed t
  marks_eq : marks t = ms

instance (t : Text) (ms : List Mark) : Decidable (Shows t ms) :=
  decidable_of_iff (Markup.Closed t ∧ marks t = ms) ⟨fun h => ⟨h.1, h.2⟩, fun h => ⟨h.1, h.2⟩⟩

theorem Shows.append {s t : Text} {ms ns : List Mark} (hs : Shows s ms) (ht : Shows t ns) :
    Shows (s ++ t) (ms ++ ns) := by
  refine ⟨hs.closed.append ht.closed, ?_⟩
  rw [marks, Markup.tags_append hs.closed, List.filterMap_append]
  exact congrArg₂ _ hs.marks_eq ht.marks_eq

theorem shows_flatMap {α : Type} {f : α → Text} {g : α → List Mark} (h : ∀ x, Shows (f x) (g x))
    (xs : List α) : Shows (xs.flatMap f) (xs.flatMap g) := by
  induction xs with
  | nil => exact ⟨trivial, rfl⟩
  | cons x xs ih => exact (h x).append ih

/-- No tag goes over the end of a line. -/
theorem shows_lines {ls : List String} (h : ∀ l ∈ ls, Shows (Text.of l) []) :
    Shows (lines ls) [] := by
  induction ls with
  | nil => exact ⟨trivial, rfl⟩
  | cons l ls ih =>
      obtain ⟨hl, hls⟩ := List.forall_mem_cons.mp h
      cases ls with
      | nil => simpa [lines] using hl
      | cons m ls =>
          have hend : Shows [.char '\n'] [] := by decide
          rw [lines_cons_cons]
          exact (hl.append hend).append (ih hls)

/-- An escaped text shows no marks. -/
theorem shows_escape (t : Text) : Shows (Markup.escape t) [] := by
  have hmark := (Markup.safe_escape t).no_mark (.char '<') (by decide)
  exact ⟨Markup.closed_of_not_mem hmark, by rw [marks, Markup.tags_of_not_mem hmark]; rfl⟩

end Page

namespace Row

/-- The mark of a row. -/
def mark (r : Row) : Page.Mark := ⟨r.cssClass, Text.ofNat r.key⟩

/-- The first tag of a row, cut at its quotation marks. -/
def tagPieces (r : Row) : List Text :=
  [Text.of "div class=", Markup.escape r.cssClass, Text.of " data-version=",
    Markup.escape (Text.ofNat r.key), Text.of " role=", Text.of "button", Text.of " tabindex=",
    Text.of "0", []]

/-- What stands between the first tag of a row and the row's end. -/
def inside (r : Row) : Text :=
  Text.of "<span class=\"sha\">" ++ Markup.escape r.labels.version
    ++ Text.of "</span><span class=\"user\">" ++ Markup.escape r.labels.user
    ++ Text.of "</span><span class=\"date\" style=\"white-space: pre-line\">"
    ++ Markup.escape r.labels.date ++ Text.of "</span></div>"

/-- A row begins with its tag, and the rest is inside. -/
theorem markup_eq_tag (r : Row) :
    r.markup = .char '<' :: ([.char '\x22'].intercalate r.tagPieces ++ .char '>' :: r.inside) := by
  simp [markup, filled, fields, template, Template.fill, Template.fillAfter, tagPieces, inside,
    Text.of]

/-- Nothing in the first tag means anything in markup but its quotation marks. -/
theorem no_mark_tagPieces {p : CodePoint} (hp : p ∈ Markup.marks) (r : Row) :
    ∀ piece ∈ r.tagPieces, p ∉ piece := by
  have hfixed : ∀ s ∈ ["div class=", " data-version=", " role=", "button", " tabindex=", "0", ""],
      ∀ p ∈ Markup.marks, p ∉ Text.of s := by decide
  have hescape (t : Text) := (Markup.safe_escape t).no_mark p hp
  intro piece hpiece
  simp only [tagPieces, List.mem_cons, List.not_mem_nil, or_false] at hpiece
  rcases hpiece with rfl | rfl | rfl | rfl | rfl | rfl | rfl | rfl | rfl
  · exact hfixed _ (by decide) p hp
  · exact hescape _
  · exact hfixed _ (by decide) p hp
  · exact hescape _
  · exact hfixed _ (by decide) p hp
  · exact hfixed _ (by decide) p hp
  · exact hfixed _ (by decide) p hp
  · exact hfixed _ (by decide) p hp
  · exact List.not_mem_nil

theorem splitOn_tagPieces (r : Row) :
    ([.char '\x22'].intercalate r.tagPieces).splitOn (.char '\x22') = r.tagPieces :=
  List.splitOn_intercalate _ (no_mark_tagPieces (by decide) r) (by simp [tagPieces])

/-- The tag of a row is its mark. -/
theorem mark?_tag (r : Row) :
    Page.mark? ([.char '\x22'].intercalate r.tagPieces) = some r.mark := by
  have hversion : Markup.attributeIn? "data-version" r.tagPieces
      = some (Markup.unescape (Markup.escape (Text.ofNat r.key))) := rfl
  have hclass : Markup.attributeIn? "class" r.tagPieces
      = some (Markup.unescape (Markup.escape r.cssClass)) := rfl
  rw [Page.mark?, Markup.attribute?, Markup.attribute?, splitOn_tagPieces, hversion, hclass,
    Markup.unescape_escape, Markup.unescape_escape]
  rfl

end Row

namespace Page

/-- Inside a row there are no marks. -/
theorem shows_inside (r : Row) : Shows r.inside [] := by
  have hfixed : ∀ s ∈ ["<span class=\"sha\">", "</span><span class=\"user\">",
      "</span><span class=\"date\" style=\"white-space: pre-line\">", "</span></div>"],
      Shows (Text.of s) [] := by decide +kernel
  have hshown (t : Text) := shows_escape t
  exact (((((hfixed _ (by decide)).append (hshown _)).append (hfixed _ (by decide))).append
    (hshown _)).append (hfixed _ (by decide))).append (hshown _) |>.append (hfixed _ (by decide))

/-- A row shows one mark, its own. -/
theorem shows_row (r : Row) : Shows r.markup [r.mark] := by
  have hopen : .char '<' ∉ [.char '\x22'].intercalate r.tagPieces :=
    Markup.not_mem_intercalate (by decide) (r.no_mark_tagPieces (by decide))
  have hclose : .char '>' ∉ [.char '\x22'].intercalate r.tagPieces :=
    Markup.not_mem_intercalate (by decide) (r.no_mark_tagPieces (by decide))
  obtain ⟨hclosed, hmarks⟩ := shows_inside r
  rw [Row.markup_eq_tag]
  refine ⟨⟨fun _ => ?_, ?_⟩, ?_⟩
  · exact List.mem_append_right _ (List.mem_cons_self ..)
  · exact (Markup.closed_of_not_mem hopen).append ⟨fun h => absurd h (by decide), hclosed⟩
  · rw [marks, Markup.tags_tag hopen hclose, List.filterMap_cons, Row.mark?_tag]
    exact congrArg (r.mark :: ·) hmarks

/-- The rows of a page show their marks, in their order. -/
theorem shows_body (rows : List Row) :
    Shows (body (rows.map Row.markup)) (rows.map Row.mark) := by
  have hgap : Shows gap [] := shows_lines (by decide +kernel)
  cases rows with
  | nil =>
      have hremark : Shows emptyRemark [] := by decide +kernel
      exact (hgap.append hremark).append hgap
  | cons r rows =>
      have hrow (s : Row) : Shows (gap ++ s.markup ++ gap) [s.mark] :=
        (hgap.append (shows_row s)).append hgap
      have hbody : body ((r :: rows).map Row.markup)
          = (r :: rows).flatMap fun s => gap ++ s.markup ++ gap := by
        rw [body, List.flatMap_map]
        rfl
      rw [hbody, List.map_eq_flatMap]
      exact shows_flatMap hrow (r :: rows)

/-- Nothing in the frame carries a version, whatever the title is. -/
theorem shows_head (title : String) : Shows (head title) [] := by
  have hopening : Shows opening [] := shows_lines (by decide +kernel)
  have hmiddle : Shows middle [] := shows_lines (by decide +kernel)
  have hbefore : Shows beforeRows [] := shows_lines (by decide +kernel)
  have hshown := shows_escape (Text.of title)
  have happend := (((hopening.append hshown).append hmiddle).append hshown).append hbefore
  rw [head]
  exact happend

/-- A page shows the marks of its rows and no others, whatever the title says. -/
theorem marks_render (title : String) (rows : List Row) :
    marks (render title (rows.map Row.markup)) = rows.map Row.mark := by
  have hfoot : Shows foot [] := shows_lines (by decide +kernel)
  have hpage := ((shows_head title).append (shows_body rows)).append hfoot
  rw [List.nil_append, List.append_nil] at hpage
  rw [render]
  exact hpage.marks_eq

end Page

namespace Panel

variable {p : Panel}

/-! ### The page and the requests of its script -/

/-- The page with the marks of its rows. -/
theorem exists_page_marks (hc : p.history.Clear)
    (husers : ∀ x ∈ p.history.records, x.Encodable) (query : String) :
    ∃ page, Text.of page = Page.render p.title (p.history.views.map Row.markup) ∧
      (p.answer ⟨"GET", "/configs", query⟩).response
        = .ok ⟨200, some "text/html; charset=utf-8", none, none, page⟩ ∧
      Page.marks (Text.of page) = p.history.records.map fun x => (p.history.rowOf x).mark := by
  obtain ⟨page, hpage, hresponse⟩ := exists_page hc husers query
  refine ⟨page, hpage, hresponse, ?_⟩
  rw [hpage, Page.marks_render, History.views, List.map_map]
  rfl

/-- The text of a stored key selects its record, and that is answered with the record. -/
theorem exists_selection {x : Record} (hd : History.Descending p.history.records)
    (hx : x ∈ p.history.records) (hlt : x.key < 10 ^ Numeral.digitLimit) (huser : x.Encodable)
    (query : String) :
    (p.answer (.forSelection (toString x.key) query)).panel = p.choosing x.key ∧
      ∃ body, Text.of body = Json.written (selection x) ∧
        (p.answer (.forSelection (toString x.key) query)).response
          = .ok ⟨200, some "application/json", none, none, body⟩ := by
  have hchosen : p.Chooses (.forSelection (toString x.key) query) x.key :=
    chooses_forSelection_iff.mpr ⟨Version.denoted_ofNat hlt, x, hx, rfl⟩
  obtain ⟨y, -, hy, hkey, hturn⟩ := turn_of_chooses hchosen
  obtain rfl : y = x := History.eq_of_key hd hy hx hkey
  refine ⟨answer_panel_of_chooses hchosen, ?_⟩
  exact exists_response_of_draft (congrArg Turn.draft hturn) (isString_selection.mpr huser)

/-- Of the records in order, the one that is selected is marked. -/
theorem map_mark_choosing {x : Record} (hd : History.Descending p.history.records)
    (hx : x ∈ p.history.records) :
    (p.history.records.map fun y => ((p.choosing x.key).history.rowOf y).mark)
      = p.history.records.map fun y =>
          ⟨if y = x then Row.highlightedClass else Row.plainClass, Text.ofNat y.key⟩ := by
  refine List.map_congr_left fun y hy => ?_
  have hcss : ((p.choosing x.key).history.rowOf y).cssClass
      = if y = x then Row.highlightedClass else Row.plainClass := by
    have hselected : (some x.key == some y.key) = decide (y = x) := by
      by_cases hyx : y = x
      · simp [hyx]
      · have hne : x.key ≠ y.key := fun hkey => hyx (History.eq_of_key hd hy hx hkey.symm)
        simp [hyx, hne]
    show (if (some x.key == some y.key) = true then _ else _) = _
    rw [hselected]
    simp
  rw [Row.mark, hcss]
  rfl

/-- **Every row on the page names its record.**  When the users of the records can be shown and
their keys can be asked for, the page is answered, a frame around the rows of the stored records,
and each row carries a version.  Asked for by that version, the very row is answered.  A request for
its selection, as a click on the row makes it, is answered with the record; it selects this record
and no other, and on the next page the row of this record alone is highlighted.  The row of a record
without a version carries zero. -/
theorem rows_name_themselves (hp : p.history.Reachable)
    (hkeys : ∀ x ∈ p.history.records, x.key < 10 ^ Numeral.digitLimit)
    (husers : ∀ x ∈ p.history.records, x.Encodable) (query : String) :
    ∃ (page : String) (row : Record → String),
      (p.answer ⟨"GET", "/configs", query⟩).response
        = .ok ⟨200, some "text/html; charset=utf-8", none, none, page⟩ ∧
      Text.of page = Page.headFor (Markup.escape (Text.of p.title))
        ++ Page.body (p.history.records.map fun x => Text.of (row x)) ++ Page.foot ∧
      (Page.marks (Text.of page)).length = p.history.records.length ∧
      ∀ x mark, (x, mark) ∈ p.history.records.zip (Page.marks (Text.of page)) →
        ∃ version body next : String,
          Text.of version = mark.version ∧ (x.version = none → version = "0") ∧
          (p.answer ⟨"GET", "/configs/" ++ version, query⟩).response
            = .ok ⟨200, some "text/html; charset=utf-8", none, none, row x⟩ ∧
          (p.answer (.forSelection version query)).response
            = .ok ⟨200, some "application/json", none, none, body⟩ ∧
          Text.of body
            = Json.written (Value.record [("success", .bool true), ("selected", Value.record [
                ("version", Value.ofNat? x.version), ("user", Value.ofText? x.user),
                ("date", Value.ofNat? x.date)])]) ∧
          let q := (p.answer (.forSelection version query)).panel
          q.history.records = p.history.records ∧
          q.history.selected = some x.key ∧ q.history.current = .ok (some x) ∧
          (∀ y ∈ q.history.records, q.history.selected = some y.key → y = x) ∧
          (q.answer ⟨"GET", "/configs", query⟩).response
            = .ok ⟨200, some "text/html; charset=utf-8", none, none, next⟩ ∧
          Page.marks (Text.of next) = p.history.records.map fun y =>
            ⟨if y = x then Text.of "config selected" else Text.of "config", Text.ofNat y.key⟩ := by
  have hd := hp.descending
  have hc := hp.clear hkeys
  obtain ⟨page, hpage, hresponse, hmarks⟩ := exists_page_marks hc husers query
  obtain ⟨row, hrow⟩ := exists_rows hd hc husers query
  have htexts : p.history.views.map Row.markup
      = p.history.records.map fun x => Text.of (row x) := by
    rw [History.views, List.map_map]
    exact List.map_congr_left fun x hx => (hrow x hx).1.symm
  refine ⟨page, row, hresponse, ?_, ?_, fun x mark hmem => ?_⟩
  · rw [hpage, Page.render_eq, htexts]
  · rw [hmarks, List.length_map]
  · rw [hmarks, ← List.map_prod_left_eq_zip] at hmem
    obtain ⟨y, hx, heq⟩ := List.mem_map.mp hmem
    obtain ⟨rfl, rfl⟩ := Prod.mk.inj heq
    obtain ⟨hpanel, body, hbody, hselected⟩ :=
      exists_selection hd hx (hkeys y hx) (husers y hx) query
    have hchosen : (p.choosing y.key).history.Clear := ⟨hc.validated, hc.keys⟩
    obtain ⟨next, -, hnext, hnextMarks⟩ := exists_page_marks hchosen husers query
    have hcurrent : (p.choosing y.key).history.current = .ok (some y) :=
      History.current_of_get_ok (History.get_key hd hx)
    refine ⟨toString y.key, body, next, rfl, fun hnone => ?_, (hrow y hx).2, hselected, hbody, ?_⟩
    · rw [Record.key, hnone]
      rfl
    · rw [hpanel]
      exact ⟨rfl, rfl, hcurrent, fun z hz hkey =>
        History.eq_of_key hd hz hx (Option.some.inj hkey).symm, hnext,
        hnextMarks.trans (map_mark_choosing hd hx)⟩

/-- The row of a record without a version, clicked while another record is selected. -/
theorem rows_name_themselves_at_zero :
    let plain : Record := ⟨none, none, none⟩
    let q : Panel := (sample "Panel" "\" data-version=\"0").run [Request.forSelection "7" ""]
    q.history.Reachable ∧ (∀ x ∈ q.history.records, x.key < 10 ^ Numeral.digitLimit) ∧
      (∀ x ∈ q.history.records, x.Encodable) ∧ q.history.selected = some 7 ∧
      ∃ page row body next mark,
        (q.answer ⟨"GET", "/configs", ""⟩).response
          = .ok ⟨200, some "text/html; charset=utf-8", none, none, page⟩ ∧
        (plain, mark) ∈ q.history.records.zip (Page.marks (Text.of page)) ∧
        mark.version = Text.of "0" ∧
        (q.answer ⟨"GET", "/configs/0", ""⟩).response
          = .ok ⟨200, some "text/html; charset=utf-8", none, none, row⟩ ∧
        (q.answer (.forSelection "0" "")).response
          = .ok ⟨200, some "application/json", none, none, body⟩ ∧
        (q.answer (.forSelection "0" "")).panel.history.current = .ok (some plain) ∧
        ((q.answer (.forSelection "0" "")).panel.answer ⟨"GET", "/configs", ""⟩).response
          = .ok ⟨200, some "text/html; charset=utf-8", none, none, next⟩ ∧
        Page.marks (Text.of next)
          = [⟨Text.of "config", Text.of "7"⟩, ⟨Text.of "config selected", Text.of "0"⟩] := by
  intro plain q
  obtain ⟨-, hsame, hq, hkeys, husers, -⟩ :=
    sample_run "Panel" "\" data-version=\"0" [Request.forSelection "7" ""]
  obtain ⟨ann, hann, hrecords⟩ : ∃ ann : Record, ann.key = 7 ∧ q.history.records = [ann, plain] :=
    ⟨_, rfl, hsame⟩
  have hselected : q.history.selected = some 7 := by decide +kernel
  obtain ⟨page, row, hpage, -, hlength, hrows⟩ := rows_name_themselves hq hkeys husers ""
  rw [hrecords] at hlength hrows
  obtain ⟨first, second, hmarks⟩ := List.length_eq_two.mp hlength
  have hmem : (plain, second) ∈ [ann, plain].zip (Page.marks (Text.of page)) := by
    rw [hmarks]
    exact List.mem_cons_of_mem _ (List.mem_singleton_self _)
  obtain ⟨version, body, next, hversion, hzero, hrow, hselection, -, -, -, hcurrent, -, hnext,
    hnextMarks⟩ := hrows plain second hmem
  obtain rfl := hzero rfl
  refine ⟨hq, hkeys, husers, hselected, page, row plain, body, next, second, hpage,
    hrecords ▸ hmem, hversion.symm, hrow, hselection, hcurrent, hnext, hnextMarks.trans ?_⟩
  have hother : ann ≠ plain := fun heq => absurd (heq ▸ hann) (by decide)
  simp only [List.map_cons, List.map_nil, if_neg hother, if_pos, hann]
  decide

end Panel

end ConfigPanel
