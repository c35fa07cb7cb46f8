import ConfigPanel.Proofs.DateLabels
import Mathlib.Data.List.Basic

/-!
# Row — the markup of a row, read back

Five texts stand in the markup of a row, each of them escaped.  An escaped text holds no mark that
means something, and where it holds an ampersand an entity begins (`Markup.Safe`), so it cannot
leave its place.  And escaping can be undone, so nothing of it is lost: `Row.read?` is a reader that
knows the template and the entities and nothing else.

* `Markup.safe_escape`, `Markup.unescape_escape`: what escaping makes of any text.
* `Template.split?_fill`: a filled template is split at its pieces, when none of them can begin in
  what was filled in.
* `read?_markup`: the reader finds what the row shows.
* `render_reads_back`: the three together, for every record.
-/

namespace ConfigPanel

/-! ### Entities -/

namespace Markup

/-- The entities and what they stand for. -/
def entities : List (String × Char) := [
    ("&amp;", '&'), ("&lt;", '<'), ("&gt;", '>'), ("&#34;", '\x22'), ("&#39;", '\x27')]

/-- Puts a code point before a text; an entity that stands there then gives way to its character. -/
def restore (p : CodePoint) (t : Text) : Text :=
  let restored := entities.findSome? fun e =>
    ((p :: t).dropPrefix? (Text.of e.1)).map (.char e.2 :: ·)
  restored.getD (p :: t)

/-- Undoes the entities, the last one first: no character that one of them stands for can be part
of the name of another. -/
def unescape (t : Text) : Text := t.foldr restore []

/-- What means something in markup, but for the beginning of an entity. -/
def marks : Text := [.char '<', .char '>', .char '\x22', .char '\x27']

/-- Nothing in the text means anything in markup, except that entities begin in it. -/
structure Safe (t : Text) : Prop where
  no_mark : ∀ p ∈ marks, p ∉ t
  entity : ∀ rest, .char '&' :: rest <:+ t →
    ∃ e ∈ entities, Text.of e.1 <+: .char '&' :: rest

/-- Every entity is in the table. -/
theorem mem_entities_of_entity? {p : CodePoint} {name : String} (h : entity? p = some name) :
    ∃ c, (name, c) ∈ entities ∧ p = .char c := by
  unfold entity? at h
  split at h <;> cases h
  all_goals
    refine ⟨_, ?_, rfl⟩
    decide

theorem entity?_ne_none : ∀ e ∈ entities, entity? (.char e.2) ≠ none := by decide

/-- A code point is written as the entity that stands for it, or it is none of theirs and stays. -/
theorem escapeCodePoint_cases (p : CodePoint) :
    (∃ e ∈ entities, p = .char e.2 ∧ escapeCodePoint p = Text.of e.1) ∨
      (∀ e ∈ entities, p ≠ .char e.2) ∧ escapeCodePoint p = [p] := by
  rw [escapeCodePoint]
  cases h : entity? p with
  | some name =>
      obtain ⟨c, hc, hp⟩ := mem_entities_of_entity? h
      exact .inl ⟨(name, c), hc, hp, rfl⟩
  | none =>
      refine .inr ⟨?_, rfl⟩
      rintro e he rfl
      exact entity?_ne_none e he h

theorem restore_of_ne {p : CodePoint} (hp : p ≠ .char '&') (t : Text) : restore p t = p :: t := by
  simp [restore, entities, Text.of, List.dropPrefix?, hp]

/-- An entity is read as its character. -/
theorem unescape_entity {e : String × Char} (he : e ∈ entities) (t : Text) :
    unescape (Text.of e.1 ++ t) = .char e.2 :: unescape t := by
  simp only [entities, List.mem_cons, List.not_mem_nil, or_false] at he
  rcases he with rfl | rfl | rfl | rfl | rfl <;>
    simp [unescape, restore, entities, Text.of, List.dropPrefix?]

/-- An escaped text is read back. -/
theorem unescape_escape (t : Text) : unescape (escape t) = t := by
  induction t with
  | nil => rfl
  | cons p t ih =>
      have hescape : escape (p :: t) = escapeCodePoint p ++ escape t := rfl
      rw [hescape]
      rcases escapeCodePoint_cases p with ⟨e, he, rfl, hp⟩ | ⟨hne, hp⟩
      · rw [hp, unescape_entity he, ih]
      · have hmark : p ≠ .char '&' := hne ("&amp;", '&') (by decide)
        have hcons : unescape (p :: escape t) = restore p (unescape (escape t)) := rfl
        rw [hp, List.singleton_append, hcons, ih, restore_of_ne hmark]

theorem suffix_of_suffix_append {p : CodePoint} {rest name t : Text} (hp : p ∉ name)
    (h : p :: rest <:+ name ++ t) : p :: rest <:+ t := by
  induction name with
  | nil => exact h
  | cons q name ih =>
      obtain ⟨hne, hname⟩ := not_or.mp (mt List.mem_cons.mpr hp)
      rcases List.suffix_cons_iff.mp h with heq | h
      · exact absurd (List.cons.inj heq).1 hne
      · exact ih hname h

/-- An escaped text is safe, whatever it says. -/
theorem safe_escape (t : Text) : Safe (escape t) := by
  induction t with
  | nil => exact ⟨fun q _ => List.not_mem_nil, fun rest h => by simp at h⟩
  | cons p t ih =>
      have hescape : escape (p :: t) = escapeCodePoint p ++ escape t := rfl
      rw [hescape]
      rcases escapeCodePoint_cases p with ⟨e, he, -, hp⟩ | ⟨hne, hp⟩
      · rw [hp]
        -- no entity begins within the name of another
        have hopen : ∀ e ∈ entities, (Text.of e.1).head? = some (.char '&') ∧
            CodePoint.char '&' ∉ (Text.of e.1).tail ∧
            ∀ q ∈ marks, q ∉ Text.of e.1 := by decide
        obtain ⟨hhead, htail, hmarks⟩ := hopen e he
        obtain ⟨name, hname⟩ := List.head?_eq_some_iff.mp hhead
        refine ⟨fun q hq hmem => ?_, fun rest hrest => ?_⟩
        · exact (List.mem_append.mp hmem).elim (hmarks q hq) (ih.no_mark q hq)
        · rw [hname] at htail hrest
          rcases List.suffix_cons_iff.mp hrest with heq | hlater
          · exact ⟨e, he, hname ▸ heq ▸ List.prefix_append (.char '&' :: name) (escape t)⟩
          · exact ih.entity rest (suffix_of_suffix_append htail hlater)
      · rw [hp]
        refine ⟨fun q hq hmem => ?_, fun rest hrest => ?_⟩
        · have hentity : ∀ q ∈ marks, ∃ e ∈ entities, q = .char e.2 := by decide
          obtain ⟨e, he, rfl⟩ := hentity q hq
          rcases List.mem_append.mp hmem with hmem | hmem
          · exact hne e he (List.mem_singleton.mp hmem).symm
          · exact ih.no_mark _ hq hmem
        · rcases List.suffix_cons_iff.mp hrest with heq | hlater
          · exact absurd (List.cons.inj heq).1.symm (hne ("&amp;", '&') (by decide))
          · exact ih.entity rest hlater

end Markup

/-! ### Templates -/

/-- The text before the first place where a piece stands, and the text behind the piece. -/
def Text.breakAt? (piece : Text) : Text → Option (Text × Text)
  | []     => (List.dropPrefix? [] piece).map fun rest => ([], rest)
  | p :: t =>
      match (p :: t).dropPrefix? piece with
      | some rest => some ([], rest)
      | none      => (breakAt? piece t).map fun parts => (p :: parts.1, parts.2)

theorem Text.breakAt?_append {q : CodePoint} {piece t : Text} (hq : q ∉ t) (rest : Text) :
    breakAt? (q :: piece) (t ++ (q :: piece ++ rest)) = some (t, rest) := by
  induction t with
  | nil =>
      have hdrop : (q :: piece ++ rest).dropPrefix? (q :: piece) = some rest :=
        List.dropPrefix?_eq_some_iff.mpr ⟨_, rfl, by simp⟩
      rw [List.nil_append, List.cons_append, breakAt?, ← List.cons_append, hdrop]
  | cons p t ih =>
      obtain ⟨hne, ht⟩ := not_or.mp (mt List.mem_cons.mpr hq)
      have hdrop : List.dropPrefix? (p :: (t ++ (q :: piece ++ rest))) (q :: piece) = none := by
        simp [List.dropPrefix?, Ne.symm hne]
      rw [List.cons_append, breakAt?, hdrop, ih ht]
      rfl

namespace Template

/-- The texts in front of the pieces, each up to the first place where its piece stands. -/
def splitAfter? : List Text → Text → Option (List Text)
  | [], t              => if t.isEmpty then some [] else none
  | piece :: pieces, t =>
      (Text.breakAt? piece t).bind fun parts => (splitAfter? pieces parts.2).map (parts.1 :: ·)

/-- The texts in the holes of a template that has been filled in. -/
def split? (template : Template) (t : Text) : Option (List Text) :=
  (t.dropPrefix? template.opening).bind (splitAfter? template.after)

/-- Texts in which no piece can begin are found again. -/
theorem splitAfter?_fillAfter {pieces texts : List Text} (hlength : texts.length = pieces.length)
    (h : ∀ piece ∈ pieces, ∃ q, piece.head? = some q ∧ ∀ t ∈ texts, q ∉ t) :
    splitAfter? pieces (fillAfter pieces texts) = some texts := by
  induction pieces generalizing texts with
  | nil =>
      obtain rfl := List.length_eq_zero_iff.mp hlength
      rfl
  | cons piece pieces ih =>
      cases texts with
      | nil => cases hlength
      | cons t texts =>
          obtain ⟨q, hhead, hq⟩ := h piece (List.mem_cons_self ..)
          obtain ⟨name, rfl⟩ := List.head?_eq_some_iff.mp hhead
          have hrest := ih (Nat.succ.inj hlength) fun piece hpiece =>
            (h piece (List.mem_cons_of_mem _ hpiece)).imp fun q hq =>
              ⟨hq.1, fun u hu => hq.2 u (List.mem_cons_of_mem _ hu)⟩
          rw [fillAfter, splitAfter?, List.append_assoc,
            Text.breakAt?_append (hq t (List.mem_cons_self ..)), Option.bind_some, hrest]
          rfl

/-- The texts in the holes are found again when none of them holds what the next piece begins
with. -/
theorem split?_fill {template : Template} {texts : List Text}
    (hlength : texts.length = template.after.length)
    (h : ∀ piece ∈ template.after, ∃ q, piece.head? = some q ∧ ∀ t ∈ texts, q ∉ t) :
    template.split? (template.fill texts) = some texts := by
  have hdrop : (template.fill texts).dropPrefix? template.opening
      = some (fillAfter template.after texts) :=
    List.dropPrefix?_eq_some_iff.mpr ⟨template.opening, rfl, by simp⟩
  rw [split?, hdrop, Option.bind_some, splitAfter?_fillAfter hlength h]

end Template

/-! ### Rows -/

/-- The number that a text of ASCII digits writes. -/
def Text.decimal? (t : Text) : Option Nat :=
  if t.isEmpty then none else (t.mapM CodePoint.digit?).map Numeral.ofDigits

theorem Text.decimal?_ofNat (n : Nat) : decimal? (ofNat n) = some n := by
  obtain ⟨ds, hds, -, hvalue⟩ := Numeral.mapM_toDigits n
  have hempty : ((Nat.toDigits 10 n).map CodePoint.char).isEmpty = false := by
    simp [Nat.toDigits_ne_nil]
  have hdigit : CodePoint.digit? ∘ CodePoint.char = asciiDigitValue? := rfl
  rw [decimal?, ofNat_eq, hempty, List.mapM_map, hdigit, hds]
  exact congrArg some hvalue

/-- Different numbers have different decimal texts. -/
theorem Text.ofNat_injective : Function.Injective Text.ofNat := by
  intro m n h
  have hdecimal : decimal? (ofNat m) = decimal? (ofNat n) := by rw [h]
  rw [decimal?_ofNat, decimal?_ofNat] at hdecimal
  exact Option.some.inj hdecimal

namespace Row

/-- What a row shows. -/
structure Shown where
  highlighted : Bool
  key : Nat
  labels : Labels
  deriving DecidableEq, Repr

/-- Whether a class is that of a highlighted row or of a plain one. -/
def highlight? (css : Text) : Option Bool :=
  if css = highlightedClass then some true
  else if css = plainClass then some false
  else none

/-- What the five texts of a row say. -/
def Shown.ofFields? : List Text → Option Shown
  | [css, key, version, user, date] =>
      (highlight? css).bind fun highlighted => (Text.decimal? key).map fun key =>
        ⟨highlighted, key, ⟨version, user, date⟩⟩
  | _ => none

/-- Reads the markup of a row. -/
def read? (t : Text) : Option Shown :=
  (template.split? t).bind fun holes => Shown.ofFields? (holes.map Markup.unescape)

theorem highlight?_cssClass (r : Row) : highlight? r.cssClass = some r.highlighted := by
  rw [cssClass]
  cases r.highlighted <;> rfl

theorem ofFields?_fields (r : Row) (l : Labels) :
    Shown.ofFields? (r.fields l) = some ⟨r.highlighted, r.key, l⟩ := by
  rw [fields, Shown.ofFields?, highlight?_cssClass, Text.decimal?_ofNat]
  rfl

/-- The fields of a row are found again in its markup. -/
theorem split?_markup (r : Row) :
    template.split? r.markup = some ((r.fields r.labels).map Markup.escape) := by
  refine Template.split?_fill rfl fun piece hpiece => ?_
  -- every piece begins with a mark, and no escaped text holds one
  have hhead : ∀ piece ∈ template.after, ∃ p ∈ Markup.marks, piece.head? = some p := by decide
  obtain ⟨p, hp, hpiece⟩ := hhead piece hpiece
  refine ⟨p, hpiece, fun t ht => ?_⟩
  obtain ⟨u, -, rfl⟩ := List.mem_map.mp ht
  exact (Markup.safe_escape u).no_mark p hp

theorem map_unescape_escape (ts : List Text) : (ts.map Markup.escape).map Markup.unescape = ts := by
  rw [List.map_map]
  exact List.map_id'' Markup.unescape_escape ts

/-- A row is read back from its markup. -/
theorem read?_markup (r : Row) : read? r.markup = some ⟨r.highlighted, r.key, r.labels⟩ := by
  rw [read?, split?_markup, Option.bind_some, map_unescape_escape, ofFields?_fields]

/-- A mark stands in a row as often as in the template. -/
theorem count_markup {p : CodePoint} (hp : p ∈ Markup.marks) (r : Row) :
    r.markup.count p = (template.opening :: template.after).flatten.count p := by
  have hhole (t : Text) : (Markup.escape t).count p = 0 :=
    List.count_eq_zero.mpr ((Markup.safe_escape t).no_mark p hp)
  simp [markup, filled, fields, template, Template.fill, Template.fillAfter, List.count_append,
    hhole]

/-- What rendering gives is the markup of the row. -/
theorem eq_markup_of_render {r : Row} {t : Text} (h : r.render.result = .ok t) : t = r.markup := by
  rw [render, Logged.map] at h
  cases hlabels : r.record.loggedLabels.result with
  | error u => rw [hlabels] at h; cases h
  | ok l =>
      rw [hlabels] at h
      cases h
      rw [Record.eq_labels_of_loggedLabels hlabels]
      rfl

/-- **A row cannot be broken out of, and loses nothing.**  What rendering a row gives is its markup,
and what is worked out for its record are its labels; both are given, quietly, for every validated
record with a version of no more digits than can be written.  Whatever the record holds, the markup
is the same skeleton around five texts.  In none of them stands a character that means something in
markup, except that entities begin in it, so every row has as many tags as any other.  Split at the
skeleton and freed from the entities, it gives back whether it is highlighted, its key and its
labels; rows with equal markup show the same. -/
theorem render_reads_back (r : Row) :
    (∀ t, r.render.result = .ok t → t = r.markup) ∧
    (∀ l, r.record.loggedLabels.result = .ok l → l = r.labels) ∧
    (r.record.Validated → r.key < 10 ^ Numeral.digitLimit →
      r.render = .quiet (.ok r.markup) ∧ r.record.loggedLabels = .quiet (.ok r.labels)) ∧
    ∃ css key version user date : Text,
      r.markup = Text.of "<div class=\"" ++ css ++ Text.of "\" data-version=\"" ++ key
        ++ Text.of "\" role=\"button\" tabindex=\"0\"><span class=\"sha\">" ++ version
        ++ Text.of "</span><span class=\"user\">" ++ user
        ++ Text.of "</span><span class=\"date\" style=\"white-space: pre-line\">" ++ date
        ++ Text.of "</span></div>" ∧
      (∀ t ∈ [css, key, version, user, date], Markup.Safe t) ∧
      r.markup.count (.char '<') = 8 ∧ r.markup.count (.char '>') = 8 ∧
      template.split? r.markup = some [css, key, version, user, date] ∧
      [css, key, version, user, date].map Markup.unescape
        = [r.cssClass, Text.ofNat r.key, r.labels.version, r.labels.user, r.labels.date] ∧
      read? r.markup = some ⟨r.highlighted, r.key, r.labels⟩ ∧
      ∀ s : Row, s.markup = r.markup →
        s.highlighted = r.highlighted ∧ s.key = r.key ∧ s.labels = r.labels := by
  refine ⟨fun t => eq_markup_of_render, fun l => Record.eq_labels_of_loggedLabels,
    fun hr hkey => ⟨render_of_lt hr hkey, ?_⟩,
    Markup.escape r.cssClass, Markup.escape (Text.ofNat r.key),
    Markup.escape r.labels.version, Markup.escape r.labels.user, Markup.escape r.labels.date,
    ?_, fun t ht => ?_, ?_, ?_, split?_markup r, map_unescape_escape (r.fields r.labels),
    read?_markup r, fun s hs => ?_⟩
  · rw [hr.loggedLabels, Record.writtenLabels_of_lt hkey]
    rfl
  · simp [markup, filled, fields, template, Template.fill, Template.fillAfter]
  · obtain ⟨u, -, rfl⟩ := List.mem_map.mp (show t ∈ (r.fields r.labels).map Markup.escape from ht)
    exact Markup.safe_escape u
  · rw [count_markup (by decide)]
    decide
  · rw [count_markup (by decide)]
    decide
  · have hshown := read?_markup s
    rw [hs, read?_markup] at hshown
    obtain ⟨hhighlighted, hkey, hlabels⟩ := Shown.mk.inj (Option.some.inj hshown)
    exact ⟨hhighlighted.symm, hkey.symm, hlabels.symm⟩

/-- A user whose name is made of pieces of the skeleton, and of what is escaped already. -/
example :
    let r : Row := ⟨⟨none, some (Text.of "</span>&amp;lt;\" data-version=\"9"), none⟩, true⟩
    read? r.markup = some ⟨true, 0, ⟨Text.of "v0",
      Text.of " by </span>&amp;lt;\" data-version=\"9 at ", Text.of "unknown"⟩⟩ := by
  decide +kernel

end Row

end ConfigPanel
