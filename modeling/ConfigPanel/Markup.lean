import ConfigPanel.Text

/-!
# Markup — texts made safe, and texts with holes

`Markup.escape` writes the five characters that mean something in markup as entities and leaves all
others alone, lone surrogates included.  A `Template` is a text with holes; `Template.fill` puts
texts into them.
-/

namespace ConfigPanel

namespace Markup

/-- The entity of a character that means something. -/
def entity? : CodePoint → Option String
  | .char '&'    => some "&amp;"
  | .char '<'    => some "&lt;"
  | .char '>'    => some "&gt;"
  | .char '\x22' => some "&#34;"
  | .char '\x27' => some "&#39;"
  | _            => none

/-- A code point as it stands in markup: by its entity, if it has one. -/
def escapeCodePoint (p : CodePoint) : Text :=
  match entity? p with
  | some e => Text.of e
  | none   => [p]

/-- A text as it stands in markup. -/
def escape (t : Text) : Text := t.flatMap escapeCodePoint

@[simp] theorem escape_nil : escape [] = [] := rfl

end Markup

/-- A text with holes: what stands before the first hole, and what stands after each. -/
structure Template where
  opening : Text
  after : List Text

namespace Template

/-- Puts texts into the holes; a hole without a text stays empty. -/
def fillAfter : List Text → List Text → Text
  | [], _                  => []
  | piece :: pieces, []    => piece ++ fillAfter pieces []
  | piece :: pieces, t :: ts => t ++ piece ++ fillAfter pieces ts

/-- Puts texts into the holes, in their order. -/
def fill (template : Template) (texts : List Text) : Text :=
  template.opening ++ fillAfter template.after texts

end Template

end ConfigPanel
