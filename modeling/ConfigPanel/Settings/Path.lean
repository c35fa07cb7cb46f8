import ConfigPanel.Text.Pieces

/-!
# Settings — paths

A path is where it starts and its parts.  Parsing drops empty parts and single dots, keeps double
dots, and tells exactly two leading slashes from one or from more.  A first part that begins with a
tilde stands for a home directory (`Path.expandHome`).
-/

namespace ConfigPanel

/-- Where a path starts: at the working directory, at the root, or at the root written with two
slashes. -/
inductive Anchor where
  | working
  | root
  | doubleRoot
  deriving DecidableEq, Repr

/-- A path: where it starts, and its parts. -/
structure Path where
  anchor : Anchor
  parts : List String
  deriving DecidableEq, Repr

/-- The slashes that a path begins with. -/
def Anchor.text : Anchor → String
  | .working    => ""
  | .root       => "/"
  | .doubleRoot => "//"

namespace Path

/-- Where a written path starts. -/
def anchorOf : List Char → Anchor
  | '/' :: '/' :: '/' :: _ => .root
  | '/' :: '/' :: _        => .doubleRoot
  | '/' :: _               => .root
  | _                      => .working

/-- The path that a text writes. -/
def parse (s : String) : Path :=
  ⟨anchorOf s.toList,
    ((Text.pieces s.toList).map String.ofList).filter fun p => !p.isEmpty && p != "."⟩

/-- The text of a path; the working directory itself is a dot. -/
def shown (p : Path) : String :=
  if p.anchor = .working && p.parts.isEmpty then "."
  else p.anchor.text ++ "/".intercalate p.parts

/-! ### Home directories -/

/-- Nobody knows the home directory. -/
inductive NoHome where
  | unknown
  deriving DecidableEq, Repr

/-- What is said when there is no home directory. -/
def NoHome.message : NoHome → String
  | .unknown => "Could not determine home directory."

/-- A home directory without the slashes at its end; nothing at all is the root. -/
def trimHome (s : String) : String :=
  let kept := (s.toList.reverse.dropWhile (· == '/')).reverse
  if kept.isEmpty then "/" else String.ofList kept

/-- The home directory that a first part names: one's own after a bare tilde, else an account's. -/
def homeNamed? (own : Option String) (accounts : List (String × String)) (name : List Char) :
    Option String :=
  (if name.isEmpty then own else accounts.lookup (String.ofList name)).map trimHome

/-- Puts a home directory in the place of a first part with a tilde. -/
def expandHome (p : Path) (own : Option String) (accounts : List (String × String)) :
    Except NoHome Path :=
  match p.anchor, p.parts with
  | .working, first :: rest =>
      match first.toList with
      | '~' :: name =>
          match homeNamed? own accounts name with
          | none      => .error .unknown
          | some home =>
              -- a home directory that begins with a tilde is taken for one that is not known
              if home.toList.head? == some '~' then .error .unknown
              else .ok ⟨(parse home).anchor, (parse home).parts ++ rest⟩
      | _ => .ok p
  | _, _ => .ok p

/-! ### Absolute paths -/

/-- Resolves double dots on paper: each takes back the part before it. -/
def collapse (parts : List String) : List String :=
  parts.foldl (fun done p => if p = ".." then done.dropLast else done ++ [p]) []

/-- The path as it is written from the root, for the given working directory. -/
def absolute (working : List String) (p : Path) : Path :=
  match p.anchor with
  | .working => ⟨.root, collapse (working ++ p.parts)⟩
  | a        => ⟨a, collapse p.parts⟩

example : (parse "a//b/./c/").shown = "a/b/c" := by decide
example : (parse "///x").shown = "/x" := by decide
example : (parse "./").shown = "." := by decide

end Path

end ConfigPanel
