import ConfigPanel.History
import ConfigPanel.Json.Writer
import ConfigPanel.Panel.Page
import ConfigPanel.Panel.Request
import ConfigPanel.Record.Validation
import ConfigPanel.Text.Encoding

/-!
# Panel — answering requests

A panel is a title, a history, the least level that is logged, and the site it is served on.
`Panel.answer` takes a request to an endpoint, or refuses it, and gives the response, the panel
after it, and what was logged.  Only the selection of a version on show changes anything.

There is no response where a number that it would name is too long to be written.  A response is
drafted as a text and then has to be encoded; a draft that holds a lone surrogate cannot be, and
then there is none either.  What the request changed stays changed.

The framework adds four pages to a panel, a manual of its endpoints.  What they say is not the
panel's own, so a site brings them along.
-/

namespace ConfigPanel

/-! ### Responses -/

/-- A response before its body is encoded. -/
structure Draft where
  status : Nat
  contentType : Option String
  location : Option String
  allow : Option String
  body : Text
  deriving DecidableEq, Repr, Inhabited

/-- A response as it is sent. -/
structure Response where
  status : Nat
  contentType : Option String
  location : Option String
  allow : Option String
  body : String
  deriving DecidableEq, Repr

namespace Draft

/-- A page or a piece of one. -/
def html (body : Text) : Draft := ⟨200, some "text/html; charset=utf-8", none, none, body⟩

/-- A value. -/
def json (status : Nat) (v : Value) : Draft :=
  ⟨status, some "application/json", none, none, Json.written v⟩

/-- A pointer to another address. -/
def redirect (location : String) : Draft := ⟨307, none, some location, none, []⟩

/-- A refusal with one line of reason. -/
def refusal (status : Nat) (reason : String) : Draft :=
  json status (Value.record [("detail", Value.string reason)])

/-- The refusal of a path that names nothing. -/
def notFound : Draft := refusal 404 "Not Found"

/-- The refusal of a version that no record has. -/
def versionNotFound : Draft := refusal 404 "Version not found"

/-- The refusal of a method, with those that are allowed. -/
def methodNotAllowed (allowed : String) : Draft :=
  { refusal 405 "Method Not Allowed" with allow := some allowed }

/-- The refusal of a piece of a path that denotes no whole number. -/
def unreadableVersion (piece : Text) (f : VersionFault) : Draft :=
  json 422 (Value.record [("detail", .list [Value.record [
    ("type", Value.string f.code),
    ("loc", .list [Value.string "path", Value.string "version"]),
    ("msg", Value.string f.message),
    ("input", .text piece)]])])

/-- Encodes the body of a draft. -/
def send (d : Draft) : Except Text.EncodeFault Response :=
  match d.body.encode with
  | .ok body => .ok ⟨d.status, d.contentType, d.location, d.allow, body⟩
  | .error f => .error f

end Draft

/-- Why there is no response. -/
inductive NoResponse where
  | unwritable (reason : Unwritable)
  | unencodable (fault : Text.EncodeFault)
  deriving DecidableEq, Repr

/-! ### The panel -/

/-- The pages of the manual, and the methods that the framework says they allow. -/
structure Manual where
  schema : Draft
  guide : Draft
  signIn : Draft
  reference : Draft
  allowed : String
  deriving DecidableEq, Repr, Inhabited

/-- A page of the manual. -/
def Manual.page (m : Manual) : ManualPage → Draft
  | .schema    => m.schema
  | .guide     => m.guide
  | .signIn    => m.signIn
  | .reference => m.reference

/-- Where a panel is served: the origin under which clients reach it, and its manual. -/
structure Site where
  origin : String
  manual : Manual
  deriving DecidableEq, Repr, Inhabited

/-- A panel as it stands between two requests. -/
structure Panel where
  title : String
  history : History
  level : Level
  site : Site
  deriving DecidableEq, Repr

namespace Panel

/-- What a request leaves: a draft, the panel after it, and what was logged. -/
structure Turn where
  draft : Except Unwritable Draft
  panel : Panel
  events : List Event

/-- Nothing but an answer. -/
def respond (p : Panel) (d : Draft) : Turn := ⟨.ok d, p, []⟩

/-- Nothing but an answer around something that may be beyond words. -/
def display {α : Type} (p : Panel) (seen : Logged (Except Unwritable α)) (draft : α → Draft) :
    Turn :=
  ⟨seen.result.map draft, p, seen.events⟩

/-- The records, labels under their keys, and the selection, as one value. -/
def listingWith (h : History) (labels : List Labels) : Value :=
  Value.record [
    ("configs", .list (h.records.map Record.toValue)),
    ("labels", .object ((h.records.zip labels).map fun p => (Text.ofNat p.1.key, p.2.toValue))),
    ("selected", Value.ofNat? h.selected)]

/-- The listing of a history all of whose records have labels. -/
def listing (h : History) : Value := listingWith h (h.records.map Record.labels)

/-- Works out the labels of all records and makes the listing, which is written when the selected
key can be. -/
def makeListing (h : History) : Logged (Except Unwritable Value) :=
  (Logged.each Record.loggedLabels h.records).map fun labels =>
    labels.bind fun labels =>
      if Numeral.Writable (h.selected.getD 0 : Nat) then .ok (listingWith h labels)
      else .error .tooLong

/-- The selected record as a value. -/
def selectedValue (h : History) : Value :=
  match h.current with
  | .ok (some r) => r.toValue
  | _            => .null

/-- Answers with the row of a version. -/
def serveRow (p : Panel) (version : Int) : Turn :=
  match p.history.view version with
  | .ok row  => p.display row.render .html
  | .error _ => p.respond .versionNotFound

/-- The answer to a selection that was made. -/
def selectionDraft (h : History) : Draft :=
  .json 200 (Value.record [("success", .bool true), ("selected", selectedValue h)])

/-- Selects a version and answers with its record. -/
def serveSelect (p : Panel) (version : Int) : Turn :=
  let o := p.history.click version
  let draft := match o.answer with
    | .ok _                  => .ok (selectionDraft o.history)
    | .error (.missing _)    => .ok .versionNotFound
    | .error (.unwritable u) => .error u
  ⟨draft, { p with history := o.history }, o.events⟩

/-- Goes on with the whole number that a piece of a path denotes. -/
def withVersion (p : Panel) (piece : List Char) (serve : Int → Turn) : Turn :=
  match Version.denoted (piece.map .char) with
  | .ok version => serve version
  | .error f    => p.respond (.unreadableVersion (piece.map .char) f)

/-- Answers for an endpoint, asked by a method that it answers to. -/
def serve (p : Panel) : Endpoint → Turn
  | .manual page    => p.respond (p.site.manual.page page)
  | .root           => p.respond (.redirect "/configs")
  | .page           =>
      p.display (Row.renderAll p.history.views) fun rows => .html (Page.render p.title rows)
  | .row version    => p.withVersion version p.serveRow
  | .listing        => p.display (makeListing p.history) (.json 200)
  | .select version => p.withVersion version p.serveSelect

/-- The methods of an endpoint as a refusal names them. -/
def allowed (p : Panel) : Endpoint → String
  | .manual _ => p.site.manual.allowed
  | e         => ", ".intercalate e.methods

/-- The draft for a request, and what it does. -/
def turn (p : Panel) (r : Request) : Turn :=
  match Endpoint.ofPath? r.path with
  | some e =>
      -- the wrong method is refused, and the path is not corrected
      if r.method ∈ e.methods then p.serve e else p.respond (.methodNotAllowed (p.allowed e))
  | none   =>
      match corrected r.path with
      | some path => p.respond (.redirect (address p.site.origin path r.query))
      | none      => p.respond .notFound

/-- The response to a request, if it can be encoded, and what the request leaves. -/
structure Reply where
  response : Except NoResponse Response
  panel : Panel
  events : List Event

/-- The response for a draft, if there is one. -/
def respondWith (draft : Except Unwritable Draft) : Except NoResponse Response :=
  (draft.mapError .unwritable).bind fun d => d.send.mapError .unencodable

/-- Answers a request. -/
def answer (p : Panel) (r : Request) : Reply :=
  let t := p.turn r
  ⟨respondWith t.draft, t.panel, admitted p.level t.events⟩

/-- The panel after a run of requests. -/
def run (p : Panel) (rs : List Request) : Panel := rs.foldl (fun p r => (p.answer r).panel) p

/-- The panel with another list of records in its history. -/
def replace (p : Panel) (rs : List Record) : Except Unwritable Unit × Panel × List Event :=
  let o := p.history.replace rs
  (o.answer, { p with history := o.history }, admitted p.level o.events)

end Panel

end ConfigPanel
