import ConfigPanel.Text.Percent
import ConfigPanel.Text.Pieces

/-!
# Panel — requests and what they are for

A path is cut at its slashes, and the pieces name at most one endpoint (`Endpoint.ofPath?`).  An
endpoint of the panel answers to one method only, a page of its manual to two.  A line feed at the
end of a path is passed over, except that it belongs to a version in the last piece.  A path that
names no endpoint is led to the one that it names without its slashes at the end, or with one more
(`corrected`).
-/

namespace ConfigPanel

/-- A request, its path without escapes. -/
structure Request where
  method : String
  path : String
  query : String
  deriving DecidableEq, Repr

/-- A page of the manual that the framework adds to the panel. -/
inductive ManualPage where
  | schema
  | guide
  | signIn
  | reference
  deriving DecidableEq, Repr

/-- What can be asked for; a version is the text of a piece. -/
inductive Endpoint where
  | manual (page : ManualPage)
  | root
  | page
  | row (version : List Char)
  | listing
  | select (version : List Char)
  deriving DecidableEq, Repr

namespace Endpoint

/-- The methods that an endpoint answers to. -/
def methods : Endpoint → List String
  | .manual _ => ["GET", "HEAD"]
  | .select _ => ["POST"]
  | _         => ["GET"]

/-! ### Paths -/

/-- A last piece is a word, or the word and a line feed. -/
def isLast (piece word : List Char) : Bool := piece = word || piece = word ++ ['\n']

/-- The first piece of the paths of the page and its rows. -/
def configs : List Char := "configs".toList

/-- The page of the manual that the last piece names. -/
def manualPage? (last : List Char) : Option ManualPage :=
  if isLast last "openapi.json".toList then some .schema
  else if isLast last "docs".toList then some .guide
  else if isLast last "redoc".toList then some .reference
  else none

/-- The endpoint that the pieces name. -/
def ofPieces? : List (List Char) → Option Endpoint
  | [[], last] =>
      if isLast last [] then some .root
      else if isLast last configs then some .page
      else (manualPage? last).map .manual
  | [[], first, last] =>
      -- a line feed at the end is part of the version
      if first = configs && !last.isEmpty then some (.row last)
      else if first = "api".toList && isLast last configs then some .listing
      else if first = "docs".toList && isLast last "oauth2-redirect".toList then
        some (.manual .signIn)
      else none
  | [[], first, second, version, last] =>
      if first = "api".toList && second = configs && !version.isEmpty &&
          isLast last "select".toList then some (.select version)
      else none
  | _ => none

/-- The endpoint that a path names. -/
def ofPath? (path : String) : Option Endpoint := ofPieces? (Text.pieces path.toList)

end Endpoint

/-! ### Corrections -/

/-- A path without the slashes at its end, or with one if it has none. -/
def toggleSlash (path : String) : String :=
  if path.toList.getLast? == some '/' then
    String.ofList ((path.toList.reverse.dropWhile (· == '/')).reverse)
  else path ++ "/"

/-- The path that is meant by one that names nothing. -/
def corrected (path : String) : Option String :=
  if path = "/" then none
  else (Endpoint.ofPath? (toggleSlash path)).map fun _ => toggleSlash path

/-- The address of a path with a query, if there is one. -/
def address (origin path query : String) : String :=
  origin ++ Text.percentEncode Text.pathMarks path ++
    (if query.isEmpty then "" else "?" ++ Text.percentEncode Text.queryMarks query)

end ConfigPanel
