import ConfigPanel.Settings.Path
import ConfigPanel.Text.Quoted

/-!
# Settings — the files in reach

A folder is a working directory and what is known around it: directories, files, and sinks, which
swallow what is written to them, by their places from the root.  The working directory and those
above it are always there.  `Folder.walk` follows the parts of a path, which fails at a part that is
not there, at a file that is not the last part, and in a directory at a name of more than 255 bytes.
A path of 4096 bytes or more is not followed at all.

A text can also be followed as it is written (`Folder.follow`): parsing it as a path would drop what
stands for nothing in a directory, but leads nowhere behind a file.
-/

namespace ConfigPanel

/-- The working directory, and the directories, files and sinks by their places from the root. -/
structure Folder where
  working : List String
  directories : List (List String)
  files : List (List String × List UInt8)
  sinks : List (List String)

namespace Folder

/-- Why a file cannot be opened. -/
inductive Reason where
  | notFound
  | isDirectory
  | notDirectory
  | nameTooLong
  deriving DecidableEq, Repr

/-- Why the file at a path cannot be opened. -/
structure Fault where
  reason : Reason
  path : String
  deriving DecidableEq, Repr

/-- What the system says of a reason, with its number. -/
def Reason.message : Reason → String
  | .notFound     => "[Errno 2] No such file or directory"
  | .isDirectory  => "[Errno 21] Is a directory"
  | .notDirectory => "[Errno 20] Not a directory"
  | .nameTooLong  => "[Errno 36] File name too long"

/-- What is said of a fault, with the path in quotes. -/
def Fault.message (f : Fault) : String := f.reason.message ++ ": " ++ Text.quotedString f.path

/-- What is at a place. -/
inductive Entry where
  | directory (place : List String)
  | file (bytes : List UInt8)
  | sink

/-- Whether a directory is known, or contains the working directory. -/
def hasDirectory (f : Folder) (place : List String) : Bool :=
  place.isPrefixOf f.working || f.directories.contains place

/-- The most bytes of a name in a directory. -/
def nameLimit : Nat := 255

/-- A path has fewer bytes than this. -/
def pathBound : Nat := 4096

/-- What is known at a place. -/
def entry? (f : Folder) (place : List String) : Option Entry :=
  match f.files.lookup place with
  | some bytes => some (.file bytes)
  | none       =>
      if f.sinks.contains place then some .sink
      else if f.hasDirectory place then some (.directory place)
      else none

/-- Follows parts from an entry.  In a directory, an empty part and a single dot stay there. -/
def walk (f : Folder) : Entry → List String → Except Reason Entry
  | e, []                        => .ok e
  | .file _, _ :: _              => .error .notDirectory
  | .sink, _ :: _                => .error .notDirectory
  | .directory place, p :: parts =>
      if p.isEmpty || p = "." then f.walk (.directory place) parts
      -- above the root is the root
      else if p = ".." then f.walk (.directory place.dropLast) parts
      else if nameLimit < p.utf8ByteSize then .error .nameTooLong
      else match f.entry? (place ++ [p]) with
        | some e => f.walk e parts
        | none   => .error .notFound

/-- The directory where a path starts. -/
def start (f : Folder) (a : Anchor) : List String :=
  match a with
  | .working => f.working
  | _        => []

/-- What is at a path. -/
def entryAt (f : Folder) (p : Path) : Except Reason Entry :=
  if pathBound ≤ p.shown.utf8ByteSize then .error .nameTooLong
  else f.walk (.directory (f.start p.anchor)) p.parts

/-- What a text leads to, followed as it is written. -/
def follow (f : Folder) (written : String) : Except Reason Entry :=
  if pathBound ≤ written.utf8ByteSize then .error .nameTooLong
  else
    f.walk (.directory (f.start (Path.anchorOf written.toList)))
      ((Text.pieces written.toList).map String.ofList)

/-- The bytes of the file at a path. -/
def read (f : Folder) (p : Path) : Except Fault (List UInt8) :=
  match f.entryAt p with
  | .ok (.file bytes)    => .ok bytes
  | .ok .sink            => .ok []
  | .ok (.directory _)   => .error ⟨.isDirectory, p.shown⟩
  | .error r             => .error ⟨r, p.shown⟩

/-- Makes sure that there is a file to write to, empty if it is new. -/
def touch (f : Folder) (p : Path) : Except Fault Folder :=
  let p := p.absolute f.working
  match f.entryAt p with
  | .ok (.file _)      => .ok f
  | .ok .sink          => .ok f
  | .ok (.directory _) => .error ⟨.isDirectory, p.shown⟩
  | .error r           =>
      match r, f.walk (.directory []) p.parts.dropLast with
      | .notFound, .ok (.directory _) => .ok { f with files := (p.parts, []) :: f.files }
      | _, _                          => .error ⟨r, p.shown⟩

end Folder

end ConfigPanel
