import ConfigPanel.Proofs.Marks

/-!
# Page — a click on it, and the next page

When the selection that a click asks for is answered, the script of the page edits the page it
stands on: it takes the class `selected` from every row and gives it to the row that was clicked.
`Page.clicked` is this edit, on the text of any page: it goes through the tags of the text, finds
the rows by their class and the clicked one by the version it carries, and knows neither the
template of a row nor what the page was made from.  The server, asked for the page again, makes it
anew from the history.  The two come to the same text.

* `Markup.Becomes`: a text and what an edit of its tags makes of it, put together from their parts.
* `Page.becomes_render`: an edit that knows the rows from all other tags edits the rows of a page.
* `click_edits_page`: the edited page is the next one, and where the two pages differ.
-/

namespace ConfigPanel

/-! ### Editing tags -/

namespace Markup

/-- Edits what stands between each opening bracket and the next closing one. -/
def mapTags (f : Text → Text) : Text → Text
  | []     => []
  | p :: t =>
      if p = .char '<' then
        p :: (f (t.takeWhile (· != .char '>')) ++ (mapTags f t).dropWhile (· != .char '>'))
      else p :: mapTags f t

/-- The pieces of a tag with another value of an attribute that it has. -/
def setAttributeIn (name : String) (value : Text) : List Text → List Text
  | before :: old :: rest =>
      if Text.of (" " ++ name ++ "=") <:+ before then before :: escape value :: rest
      else before :: old :: setAttributeIn name value rest
  | pieces => pieces

/-- A tag with another value of an attribute that it has. -/
def setAttribute (name : String) (value tag : Text) : Text :=
  [.char '\x22'].intercalate (setAttributeIn name value (tag.splitOn (.char '\x22')))

/-- What stands between the names in a list of classes. -/
def isBlank (p : CodePoint) : Bool := p ∈ Text.of " \t\n\r\x0c"

/-- The classes of a tag. -/
def classes (tag : Text) : List Text :=
  (((attribute? "class" tag).getD []).splitOnP isBlank).filter (· ≠ [])

/-- A tag with other classes, each named once. -/
def setClasses (names : List Text) (tag : Text) : Text :=
  setAttribute "class" ([.char ' '].intercalate names.eraseDups) tag

variable {f : Text → Text}

theorem mem_mapTags {t : Text} (h : .char '>' ∈ t) : .char '>' ∈ mapTags f t := by
  induction t with
  | nil => cases h
  | cons p t ih =>
      rw [mapTags]
      by_cases hp : p = .char '<'
      · have ht : .char '>' ∈ mapTags f t :=
          ih ((List.mem_cons.mp h).resolve_left fun heq => absurd (heq.trans hp) (by decide))
        have hbehind : .char '>' ∈ (mapTags f t).dropWhile (· != .char '>') := by
          rw [← List.takeWhile_append_dropWhile (p := (· != .char '>')) (l := mapTags f t)] at ht
          refine (List.mem_append.mp ht).resolve_left fun hbefore => ?_
          simpa using List.all_eq_true.mp List.all_takeWhile _ hbefore
        rw [if_pos hp]
        exact List.mem_cons_of_mem _ (List.mem_append_right _ hbehind)
      · rw [if_neg hp]
        exact List.mem_cons.mpr ((List.mem_cons.mp h).imp id ih)

theorem dropWhile_append_of_mem {p : CodePoint} {s : Text} (h : p ∈ s) (t : Text) :
    (s ++ t).dropWhile (· != p) = s.dropWhile (· != p) ++ t := by
  induction s with
  | nil => cases h
  | cons q s ih =>
      rw [List.cons_append]
      by_cases hq : q = p
      · simp [hq]
      · have hs : p ∈ s := (List.mem_cons.mp h).resolve_left (Ne.symm hq)
        simp [hq, ih hs]

/-- Behind a text whose tags are closed, tags are edited anew. -/
theorem mapTags_append {s : Text} (hs : Closed s) (t : Text) :
    mapTags f (s ++ t) = mapTags f s ++ mapTags f t := by
  induction s with
  | nil => rfl
  | cons p s ih =>
      rw [List.cons_append, mapTags, mapTags, ih hs.2]
      by_cases hp : p = .char '<'
      · -- the tag ends within `s`, before and after the edit
        have hclose := hs.1 hp
        rw [if_pos hp, if_pos hp, takeWhile_append_of_mem hclose,
          dropWhile_append_of_mem (mem_mapTags hclose), List.cons_append, List.append_assoc]
      · rw [if_neg hp, if_neg hp, List.cons_append]

theorem mapTags_eq_self {t : Text} (h : ∀ tag ∈ tags t, f tag = tag) : mapTags f t = t := by
  induction t with
  | nil => rfl
  | cons p t ih =>
      rw [tags] at h
      rw [mapTags]
      by_cases hp : p = .char '<'
      · rw [if_pos hp] at h
        obtain ⟨htag, hrest⟩ := List.forall_mem_cons.mp h
        rw [if_pos hp, ih hrest, htag, List.takeWhile_append_dropWhile]
      · rw [if_neg hp] at h
        rw [if_neg hp, ih h]

theorem mapTags_of_not_mem {t : Text} (h : .char '<' ∉ t) : mapTags f t = t := by
  refine mapTags_eq_self fun tag htag => ?_
  rw [tags_of_not_mem h] at htag
  cases htag

/-- A tag without brackets in it, and what follows it. -/
theorem mapTags_tag {tag : Text} (hopen : .char '<' ∉ tag) (hclose : .char '>' ∉ tag)
    (rest : Text) : mapTags f (.char '<' :: (tag ++ .char '>' :: rest))
      = .char '<' :: (f tag ++ .char '>' :: mapTags f rest) := by
  have hall : ∀ p ∈ tag, (p != CodePoint.char '>') = true := by
    intro p hp
    simpa using fun heq : p = .char '>' => hclose (heq ▸ hp)
  have hrest : mapTags f (tag ++ .char '>' :: rest) = tag ++ .char '>' :: mapTags f rest := by
    rw [mapTags_append (closed_of_not_mem hopen), mapTags_of_not_mem hopen, mapTags,
      if_neg (by decide)]
  rw [mapTags, if_pos rfl, hrest, List.takeWhile_append_of_pos hall,
    List.dropWhile_append_of_pos hall]
  simp

/-- The tags of the text are closed, and this is what the edit makes of it. -/
structure Becomes (f : Text → Text) (s t : Text) : Prop where
  closed : Closed s
  mapTags_eq : mapTags f s = t

theorem Becomes.append {s t u v : Text} (hs : Becomes f s u) (ht : Becomes f t v) :
    Becomes f (s ++ t) (u ++ v) := by
  refine ⟨hs.closed.append ht.closed, ?_⟩
  rw [mapTags_append hs.closed, hs.mapTags_eq, ht.mapTags_eq]

theorem becomes_flatMap {α : Type} {before later : α → Text}
    (h : ∀ x, Becomes f (before x) (later x)) (xs : List α) :
    Becomes f (xs.flatMap before) (xs.flatMap later) := by
  induction xs with
  | nil => exact ⟨trivial, rfl⟩
  | cons x xs ih => exact (h x).append ih

/-- An escaped text holds no tags to edit. -/
theorem becomes_escape (t : Text) : Becomes f (escape t) (escape t) := by
  have hmark := (safe_escape t).no_mark (.char '<') (by decide)
  exact ⟨closed_of_not_mem hmark, mapTags_of_not_mem hmark⟩

end Markup

/-! ### The edit of the script -/

namespace Page

/-- A row is a tag with the class `config`. -/
def isRow (tag : Text) : Bool := (Markup.classes tag).contains (Text.of "config")

/-- Takes the class `selected` from a row. -/
def removeSelected (tag : Text) : Text :=
  if isRow tag then
    Markup.setClasses ((Markup.classes tag).filter (· ≠ Text.of "selected")) tag
  else tag

/-- Gives the class `selected` to the row that carries the version. -/
def addSelected (version tag : Text) : Text :=
  if isRow tag ∧ Markup.attribute? "data-version" tag = some version then
    Markup.setClasses (Markup.classes tag ++ [Text.of "selected"]) tag
  else tag

/-- The page after a click on the row with this version that was answered. -/
def clicked (version page : Text) : Text :=
  Markup.mapTags (addSelected version) (Markup.mapTags removeSelected page)

/-- The tags of the text are closed, and none is a row. -/
def Rowless (t : Text) : Prop := Markup.Closed t ∧ ∀ tag ∈ Markup.tags t, isRow tag = false

instance (t : Text) : Decidable (Rowless t) := inferInstanceAs (Decidable (_ ∧ _))

/-- The edit keeps every tag that is not a row. -/
def KeepsOthers (f : Text → Text) : Prop := ∀ tag, isRow tag = false → f tag = tag

variable {f : Text → Text}

/-- A text without rows stays as it is. -/
theorem becomes_of_rowless (hf : KeepsOthers f) {t : Text} (ht : Rowless t) :
    Markup.Becomes f t t :=
  ⟨ht.1, Markup.mapTags_eq_self fun tag htag => hf tag (ht.2 tag htag)⟩

/-- No tag goes over the end of a line. -/
theorem becomes_lines (hf : KeepsOthers f) {ls : List String}
    (h : ∀ l ∈ ls, Rowless (Text.of l)) : Markup.Becomes f (lines ls) (lines ls) := by
  induction ls with
  | nil => exact ⟨trivial, rfl⟩
  | cons l ls ih =>
      obtain ⟨hl, hls⟩ := List.forall_mem_cons.mp h
      cases ls with
      | nil => simpa [lines] using becomes_of_rowless hf hl
      | cons m ls =>
          have hend : Rowless [.char '\n'] := by decide
          rw [lines_cons_cons]
          exact ((becomes_of_rowless hf hl).append (becomes_of_rowless hf hend)).append (ih hls)

theorem keepsOthers_removeSelected : KeepsOthers removeSelected := by
  intro tag htag
  rw [removeSelected, htag, if_neg Bool.false_ne_true]

theorem keepsOthers_addSelected (version : Text) : KeepsOthers (addSelected version) := by
  intro tag htag
  rw [addSelected, htag, if_neg fun h => Bool.false_ne_true h.1]

end Page

/-! ### The tag of a row -/

namespace Row

variable {f : Text → Text}

/-- The first tag of a row. -/
def tag (r : Row) : Text := [.char '\x22'].intercalate r.tagPieces

/-- The row of the same record, highlighted or not. -/
def withHighlight (r : Row) (highlighted : Bool) : Row := ⟨r.record, highlighted⟩

/-- The tag of a row carries its key and its class. -/
theorem attributes_tag (r : Row) :
    Markup.attribute? "data-version" r.tag = some (Text.ofNat r.key) ∧
      (Markup.attribute? "class" r.tag).getD [] = r.cssClass := by
  obtain ⟨version, hversion, hmark⟩ := Option.map_eq_some_iff.mp r.mark?_tag
  obtain ⟨hcss, rfl⟩ := Page.Mark.mk.inj hmark
  exact ⟨hversion, hcss⟩

/-- A row has one class, or two when it is highlighted. -/
theorem classes_tag (r : Row) : Markup.classes r.tag
    = if r.highlighted then [Text.of "config", Text.of "selected"] else [Text.of "config"] := by
  rw [Markup.classes, r.attributes_tag.2, cssClass]
  cases r.highlighted <;> decide

theorem isRow_tag (r : Row) : Page.isRow r.tag = true := by
  rw [Page.isRow, classes_tag]
  cases r.highlighted <;> decide

/-- The class is all that a highlight changes in the tag. -/
theorem setAttribute_tag (r : Row) (highlighted : Bool) :
    Markup.setAttribute "class" (r.withHighlight highlighted).cssClass r.tag
      = (r.withHighlight highlighted).tag := by
  rw [Markup.setAttribute, tag, splitOn_tagPieces]
  rfl

/-- Taking the class away leaves the row without highlight. -/
theorem removeSelected_tag (r : Row) :
    Page.removeSelected r.tag = (r.withHighlight false).tag := by
  have hnames : ([.char ' '] : Text).intercalate
      ((Markup.classes r.tag).filter (· ≠ Text.of "selected")).eraseDups
        = plainClass := by
    rw [classes_tag]
    cases r.highlighted <;> decide
  rw [Page.removeSelected, if_pos r.isRow_tag, Markup.setClasses, hnames]
  exact r.setAttribute_tag false

/-- Giving the class to a version highlights its row and leaves the others alone. -/
theorem addSelected_tag (r : Row) (k : Nat) :
    Page.addSelected (Text.ofNat k) r.tag
      = (if r.key = k then r.withHighlight true else r).tag := by
  have hnames : ([.char ' '] : Text).intercalate
      (Markup.classes r.tag ++ [Text.of "selected"]).eraseDups
        = highlightedClass := by
    rw [classes_tag]
    cases r.highlighted <;> decide
  rw [Page.addSelected, r.attributes_tag.1]
  by_cases hk : r.key = k
  · rw [if_pos ⟨r.isRow_tag, by rw [hk]⟩, if_pos hk, Markup.setClasses, hnames]
    exact r.setAttribute_tag true
  · rw [if_neg fun h => hk (Text.ofNat_injective (Option.some.inj h.2)), if_neg hk]

/-- Nothing inside a row is a row, whoever its user is. -/
theorem becomes_inside (hf : Page.KeepsOthers f) (r : Row) :
    Markup.Becomes f r.inside r.inside := by
  have hfixed : ∀ s ∈ ["<span class=\"sha\">", "</span><span class=\"user\">",
      "</span><span class=\"date\" style=\"white-space: pre-line\">", "</span></div>"],
      Page.Rowless (Text.of s) := by decide +kernel
  have hpiece (s : String) (hs : s ∈ _) := Page.becomes_of_rowless hf (hfixed s hs)
  have hlabel (t : Text) : Markup.Becomes f (Markup.escape t) (Markup.escape t) :=
    Markup.becomes_escape t
  exact ((((((hpiece _ (by decide)).append (hlabel _)).append (hpiece _ (by decide))).append
    (hlabel _)).append (hpiece _ (by decide))).append (hlabel _)).append (hpiece _ (by decide))

/-- An edit of the first tag that keeps the record edits the row. -/
theorem becomes_markup (hf : Page.KeepsOthers f) {r s : Row} (hrecord : s.record = r.record)
    (htag : f r.tag = s.tag) : Markup.Becomes f r.markup s.markup := by
  have hopen : .char '<' ∉ r.tag :=
    Markup.not_mem_intercalate (by decide) (r.no_mark_tagPieces (by decide))
  have hclose : .char '>' ∉ r.tag :=
    Markup.not_mem_intercalate (by decide) (r.no_mark_tagPieces (by decide))
  have hmarkup (r : Row) : r.markup = .char '<' :: (r.tag ++ .char '>' :: r.inside) :=
    r.markup_eq_tag
  -- behind its first tag a row shows the record and nothing of the highlight
  have hinside : s.inside = r.inside := by rw [inside, inside, labels, labels, hrecord]
  refine ⟨(Page.shows_row r).closed, ?_⟩
  rw [hmarkup, hmarkup, Markup.mapTags_tag hopen hclose, htag, hinside,
    (becomes_inside hf r).mapTags_eq]

end Row

/-! ### The page -/

namespace Page

/-- An edit that knows the rows from all other tags edits the rows of a page, and nothing else. -/
theorem becomes_render {f : Text → Text} {g : Row → Row} (hf : KeepsOthers f)
    (htag : ∀ r, f r.tag = (g r).tag) (hrecord : ∀ r, (g r).record = r.record) (title : String)
    (rows : List Row) :
    Markup.Becomes f (render title (rows.map Row.markup))
      (render title ((rows.map g).map Row.markup)) := by
  have hopening : Markup.Becomes f opening opening := becomes_lines hf (by decide +kernel)
  have hmiddle : Markup.Becomes f middle middle := becomes_lines hf (by decide +kernel)
  have hbefore : Markup.Becomes f beforeRows beforeRows := becomes_lines hf (by decide +kernel)
  have hfoot : Markup.Becomes f foot foot := becomes_lines hf (by decide +kernel)
  have hgap : Markup.Becomes f gap gap := becomes_lines hf (by decide +kernel)
  have hshown : Markup.Becomes f (Markup.escape (Text.of title)) (Markup.escape (Text.of title)) :=
    Markup.becomes_escape _
  have hhead : Markup.Becomes f (head title) (head title) :=
    (((hopening.append hshown).append hmiddle).append hshown).append hbefore
  have hbody : Markup.Becomes f (body (rows.map Row.markup))
      (body ((rows.map g).map Row.markup)) := by
    cases rows with
    | nil =>
        have hremark : Markup.Becomes f emptyRemark emptyRemark :=
          becomes_of_rowless hf (by decide +kernel)
        exact (hgap.append hremark).append hgap
    | cons r rows =>
        have hrow (s : Row) :=
          (hgap.append (Row.becomes_markup hf (hrecord s) (htag s))).append hgap
        have hbefore : body ((r :: rows).map Row.markup)
            = (r :: rows).flatMap fun s => gap ++ s.markup ++ gap := List.flatMap_map ..
        have hlater : body (((r :: rows).map g).map Row.markup)
            = (r :: rows).flatMap fun s => gap ++ (g s).markup ++ gap := by
          rw [List.map_map]
          exact List.flatMap_map ..
        rw [hbefore, hlater]
        exact Markup.becomes_flatMap hrow (r :: rows)
  exact (hhead.append hbody).append hfoot

/-- The edit of the script moves the highlight to the row with the key. -/
theorem clicked_render (title : String) (rows : List Row) (k : Nat) :
    clicked (Text.ofNat k) (render title (rows.map Row.markup))
      = render title ((rows.map fun r => r.withHighlight (k == r.key)).map Row.markup) := by
  let plain (r : Row) : Row := r.withHighlight false
  let chosen (r : Row) : Row := if r.key = k then r.withHighlight true else r
  have hremoved : Markup.Becomes removeSelected (render title (rows.map Row.markup))
      (render title ((rows.map plain).map Row.markup)) :=
    becomes_render keepsOthers_removeSelected Row.removeSelected_tag (fun _ => rfl) title rows
  have hadded : Markup.Becomes (addSelected (Text.ofNat k))
      (render title ((rows.map plain).map Row.markup))
      (render title (((rows.map plain).map chosen).map Row.markup)) := by
    have hrecord (r : Row) : (chosen r).record = r.record := by
      simp only [chosen]
      split <;> rfl
    exact becomes_render (keepsOthers_addSelected _) (fun r => r.addSelected_tag k) hrecord title _
  have hrows : (rows.map plain).map chosen
      = rows.map fun r => r.withHighlight (k == r.key) := by
    rw [List.map_map]
    refine List.map_congr_left fun r _ => ?_
    show (if r.key = k then r.withHighlight true else r.withHighlight false) = _
    by_cases hk : r.key = k
    · simp [hk]
    · rw [if_neg hk, beq_false_of_ne (Ne.symm hk)]
  rw [clicked, hremoved.mapTags_eq, hadded.mapTags_eq, hrows]

end Page

/-! ### Classes under a selection -/

namespace Row

/-- The class of a record's row when this key is selected. -/
def classUnder (selected : Option Nat) (r : Record) : Text :=
  if selected = some r.key then Text.of "config selected" else Text.of "config"

/-- The markup of a record's row with this class. -/
def classed (css : Text) (r : Record) : Text :=
  template.fill ([css, Text.ofNat r.key, r.labels.version, r.labels.user, r.labels.date].map
    Markup.escape)

/-- The row of a record depends on the selection in its class only. -/
theorem markup_rowOf (h : History) (r : Record) :
    (h.rowOf r).markup = classed (classUnder h.selected r) r := by
  have hcss : (h.rowOf r).cssClass = classUnder h.selected r := by
    rw [cssClass, classUnder, History.rowOf]
    simp only [beq_iff_eq]
    rfl
  rw [markup, filled, fields, hcss]
  rfl

/-- Two selections give the same class to all records of a list in order, but for two at most. -/
theorem length_filter_classUnder_le {rs : List Record} (hd : History.Descending rs)
    (s t : Option Nat) :
    (rs.filter fun y => classUnder s y ≠ classUnder t y).length ≤ 2 := by
  have hkeys : ((rs.filter fun y => classUnder s y ≠ classUnder t y).map Record.key)
      ⊆ s.toList ++ t.toList := by
    intro k hk
    obtain ⟨y, hy, rfl⟩ := List.mem_map.mp hk
    have hchanged : classUnder s y ≠ classUnder t y := by simpa using (List.mem_filter.mp hy).2
    by_contra hno
    simp only [List.mem_append, Option.mem_toList, not_or] at hno
    exact hchanged (by rw [classUnder, classUnder, if_neg hno.1, if_neg hno.2])
  have hnodup : ((rs.filter fun y => classUnder s y ≠ classUnder t y).map Record.key).Nodup :=
    List.pairwise_map.mpr ((hd.filter _).imp fun hlt => Nat.ne_of_gt hlt)
  have hlength (o : Option Nat) : o.toList.length ≤ 1 := by cases o <;> simp
  calc
    (rs.filter fun y => classUnder s y ≠ classUnder t y).length
      = ((rs.filter fun y => classUnder s y ≠ classUnder t y).map Record.key).length :=
        (List.length_map _).symm
    _ ≤ (s.toList ++ t.toList).length := (hnodup.subperm hkeys).length_le
    _ = s.toList.length + t.toList.length := List.length_append
    _ ≤ 1 + 1 := Nat.add_le_add (hlength s) (hlength t)

end Row

/-! ### The next page -/

namespace Panel

variable {p : Panel}

/-- The page, from the title and the rows as the selection shows them. -/
theorem page_eq (p : Panel) :
    let rows := p.history.records.map fun y =>
      Row.classed (Row.classUnder p.history.selected y) y
    Page.render p.title (p.history.views.map Row.markup)
      = Page.headFor (Markup.escape (Text.of p.title)) ++ Page.body rows ++ Page.foot := by
  intro rows
  have hrows : p.history.views.map Row.markup = rows := by
    rw [History.views, List.map_map]
    exact List.map_congr_left fun y _ => Row.markup_rowOf p.history y
  rw [Page.render_eq, hrows]

/-- **A click edits the page into the next one.**  When the users of the records can be shown and
their keys can be asked for, the page is answered, and so is the selection of any record on it.  The
page then asked for is, character by character, what the script makes of the one before.  The two
pages have the same frame and the same rows, in the same order, but for the class of two rows at
most; if the record was selected already, they are the same. -/
theorem click_edits_page (hp : p.history.Reachable)
    (hkeys : ∀ x ∈ p.history.records, x.key < 10 ^ Numeral.digitLimit)
    (husers : ∀ x ∈ p.history.records, x.Encodable) {x : Record} (hx : x ∈ p.history.records)
    (query : String) :
    let version := toString x.key
    let q := (p.answer (.forSelection version query)).panel
    let rows (selected : Option Nat) :=
      p.history.records.map fun y => Row.classed (Row.classUnder selected y) y
    ∃ page body next : String,
      (p.answer ⟨"GET", "/configs", query⟩).response
        = .ok ⟨200, some "text/html; charset=utf-8", none, none, page⟩ ∧
      (p.answer (.forSelection version query)).response
        = .ok ⟨200, some "application/json", none, none, body⟩ ∧
      (q.answer ⟨"GET", "/configs", query⟩).response
        = .ok ⟨200, some "text/html; charset=utf-8", none, none, next⟩ ∧
      Text.of next = Page.clicked (Text.of version) (Text.of page) ∧
      Text.of page = Page.headFor (Markup.escape (Text.of p.title))
        ++ Page.body (rows p.history.selected) ++ Page.foot ∧
      Text.of next = Page.headFor (Markup.escape (Text.of p.title))
        ++ Page.body (rows (some x.key)) ++ Page.foot ∧
      (p.history.records.filter fun y =>
        Row.classUnder p.history.selected y ≠ Row.classUnder (some x.key) y).length ≤ 2 ∧
      (p.history.selected = some x.key → next = page) := by
  intro version q rows
  have hd := hp.descending
  have hc := hp.clear hkeys
  have hchosen : (p.choosing x.key).history.Clear := ⟨hc.validated, hc.keys⟩
  obtain ⟨page, hpage, hresponse⟩ := exists_page hc husers query
  obtain ⟨hpanel, body, -, hselection⟩ := exists_selection hd hx (hkeys x hx) (husers x hx) query
  obtain ⟨next, hnext, hlater⟩ := exists_page hchosen husers query
  have hedit : Text.of next = Page.clicked (Text.of version) (Text.of page) := by
    have hviews : (p.choosing x.key).history.views
        = p.history.views.map fun r => r.withHighlight (x.key == r.key) := by
      rw [History.views, History.views, List.map_map]
      rfl
    have hversion : Text.of version = Text.ofNat x.key := rfl
    rw [hnext, hpage, hversion, Page.clicked_render, hviews]
    rfl
  have hq : q = p.choosing x.key := hpanel
  refine ⟨page, body, next, hresponse, hselection, hq ▸ hlater, hedit, ?_, ?_,
    Row.length_filter_classUnder_le hd _ _, fun hselected => ?_⟩
  · rw [hpage, page_eq]
  · rw [hnext, page_eq]
    rfl
  · have hsame : Text.of next = Text.of page := by
      rw [hnext, hpage, page_eq, page_eq, hselected]
      rfl
    exact Option.some.inj (by rw [← Text.toString?_of, hsame, Text.toString?_of])

/-- A title that writes the tag of a highlighted row and a user that writes its attributes, and a
click on the record without a version while the other one is selected. -/
theorem click_edits_page_at_zero :
    let user := "\" class=\"config selected\" data-version=\"0"
    let ann : Record := ⟨some 7, some (Text.of user), some 1700000000⟩
    let plain : Record := ⟨none, none, none⟩
    let title := "<div class=\"config selected\" data-version=\"0\">"
    let q : Panel := (sample title user).run [Request.forSelection "7" ""]
    q.history.Reachable ∧ (∀ x ∈ q.history.records, x.key < 10 ^ Numeral.digitLimit) ∧
      (∀ x ∈ q.history.records, x.Encodable) ∧ plain ∈ q.history.records ∧
      q.history.selected = some 7 ∧
      ∃ page next : String,
        (q.answer ⟨"GET", "/configs", ""⟩).response
          = .ok ⟨200, some "text/html; charset=utf-8", none, none, page⟩ ∧
        ((q.answer (.forSelection "0" "")).panel.answer ⟨"GET", "/configs", ""⟩).response
          = .ok ⟨200, some "text/html; charset=utf-8", none, none, next⟩ ∧
        Text.of next = Page.clicked (Text.of "0") (Text.of page) ∧
        Text.of page = Page.headFor (Markup.escape (Text.of title))
          ++ Page.body [Row.classed (Text.of "config selected") ann,
            Row.classed (Text.of "config") plain] ++ Page.foot ∧
        Text.of next = Page.headFor (Markup.escape (Text.of title))
          ++ Page.body [Row.classed (Text.of "config") ann,
            Row.classed (Text.of "config selected") plain] ++ Page.foot := by
  intro user ann plain title q
  obtain ⟨-, hsame, hq, hkeys, husers, -⟩ :=
    sample_run title user [Request.forSelection "7" ""]
  have hrecords : q.history.records = [ann, plain] := hsame
  have hselected : q.history.selected = some 7 := by decide +kernel
  have hplain : plain ∈ q.history.records :=
    hrecords ▸ List.mem_cons_of_mem _ (List.mem_singleton_self _)
  obtain ⟨page, -, next, hpage, -, hnext, hedit, hbefore, hlater, -⟩ :=
    click_edits_page (p := q) hq hkeys husers hplain ""
  have hseven : Row.classUnder (some 7) ann = Text.of "config selected" ∧
      Row.classUnder (some 7) plain = Text.of "config" := by decide
  have hzero : Row.classUnder (some plain.key) ann = Text.of "config" ∧
      Row.classUnder (some plain.key) plain = Text.of "config selected" := by decide
  have hversion : toString plain.key = "0" := by decide
  rw [hversion] at hnext hedit
  simp only [hrecords, hselected, List.map_cons, List.map_nil, hseven] at hbefore
  simp only [hrecords, List.map_cons, List.map_nil, hzero] at hlater
  exact ⟨hq, hkeys, husers, hplain, hselected, page, next, hpage, hnext, hedit, hbefore, hlater⟩

end Panel

end ConfigPanel
