import ConfigPanel.Markup
import ConfigPanel.Record

/-!
# Row — a record as one line of the panel

A row is a record and whether it is highlighted.  Its markup is one fixed template with five holes:
the class, the key and the three labels, each of them escaped.  Nothing else of a record can reach
the markup, and nothing that a user wrote can leave its hole.  Rendering a row works out its labels
and fills the template with them; where the record has no labels, rendering fails.
-/

namespace ConfigPanel

/-- A record, highlighted or not. -/
structure Row where
  record : Record
  highlighted : Bool
  deriving DecidableEq, Repr

namespace Row

/-- The key of the row's record. -/
def key (r : Row) : Nat := r.record.key

/-- The texts of the labels of the row's record. -/
def labels (r : Row) : Labels := r.record.labels

/-- The markup around the five holes. -/
def template : Template where
  opening := Text.of "<div class=\""
  after := [
    Text.of "\" data-version=\"",
    Text.of "\" role=\"button\" tabindex=\"0\"><span class=\"sha\">",
    Text.of "</span><span class=\"user\">",
    Text.of "</span><span class=\"date\" style=\"white-space: pre-line\">",
    Text.of "</span></div>"]

/-- The class of a row that is not highlighted. -/
def plainClass : Text := Text.of "config"

/-- The classes of a highlighted row. -/
def highlightedClass : Text := Text.of "config selected"

/-- The class of a row. -/
def cssClass (r : Row) : Text := if r.highlighted then highlightedClass else plainClass

/-- What stands in the five holes, before it is escaped. -/
def fields (r : Row) (l : Labels) : List Text :=
  [r.cssClass, Text.ofNat r.key, l.version, l.user, l.date]

/-- The row with labels in it. -/
def filled (r : Row) (l : Labels) : Text := template.fill ((r.fields l).map Markup.escape)

/-- Renders a row, with what is logged about the date of its record. -/
def render (r : Row) : Logged (Except Unwritable Text) :=
  r.record.loggedLabels.map fun seen => seen.map r.filled

/-- Renders row after row. -/
def renderAll (rs : List Row) : Logged (Except Unwritable (List Text)) := .each render rs

/-- The markup of a row whose record has labels. -/
def markup (r : Row) : Text := r.filled r.labels

end Row

end ConfigPanel
