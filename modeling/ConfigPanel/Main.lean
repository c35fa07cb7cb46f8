import ConfigPanel.Panel.Start
import Std.Time.Zoned

/-!
# Main — the panel on a terminal

Starts a panel from the environment and the files in reach, and answers requests: every line of the
standard input is a method and an address, and the response is written to the standard output.  The
log goes to the standard error and, if the settings name one, to a file.
-/

namespace ConfigPanel.Terminal

/-- The variables that are read. -/
def variableNames : List String :=
  ["ENV", "LOG_LEVEL", "LOG_FILE", "ADMIN_TITLE", "HISTORY_LIMIT", "CONFIGS_FILE", "HOME"]

/-- The variables that are set. -/
def environment : IO Environment :=
  variableNames.filterMapM fun name => return (← IO.getEnv name).map (name, ·)

/-- The accounts of the machine, with their home directories. -/
def accounts : IO (List (String × String)) := do
  try
    let lines := (← IO.FS.readFile "/etc/passwd").splitOn "\n"
    return lines.filterMap fun line =>
      match line.splitOn ":" with
      | name :: _ :: _ :: _ :: _ :: home :: _ => some (name, home)
      | _                                     => none
  catch _ => return []

/-- What is known of the places along a path: its directories, and the file at its end. -/
def explore (f : Folder) (p : Path) : IO Folder := do
  let here ← IO.currentDir
  let mut f := f
  let parts := if p.anchor = .working then f.working ++ p.parts else p.parts
  for n in List.range (parts.length + 1) do
    let place := Path.collapse (parts.take n)
    if ← (here / (Path.mk .root place).shown).isDir then
      f := { f with directories := place :: f.directories }
  try
    let bytes ← IO.FS.readBinFile (here / p.shown)
    return { f with files := (Path.collapse parts, bytes.toList) :: f.files }
  catch _ => return f

/-- The manual of a panel, in few words. -/
def manual : Manual :=
  let page := Draft.html <|
    Text.of "<p>GET /configs, GET /api/configs, POST /api/configs/1/select</p>"
  ⟨.json 200 (Value.record [("openapi", Value.string "3.1.0")]), page, page, page, "GET, HEAD"⟩

/-- The levels of nesting that are read. -/
def room : Nat := 990

/-- The host that the program runs on. -/
def host : IO Host := do
  let env ← environment
  let accounts ← accounts
  let mut folder : Folder := ⟨(Path.parse (← IO.currentDir).toString).parts, [], [], []⟩
  if let .ok (some p) := env.snapshotPath? accounts then folder ← explore folder p
  if let some name := env.get? "LOG_FILE" then
    unless name.isEmpty do folder ← explore folder (Path.parse name)
  return ⟨env, folder, accounts, room, ⟨"http://localhost:8080", manual⟩⟩

/-- The time of the day. -/
def time : IO String := do
  let now ← Std.Time.PlainTime.now
  return Timestamp.padded now.hour.val ++ ":" ++ Timestamp.padded now.minute.val ++ ":" ++
    Timestamp.padded now.second.val

/-- Writes events to the standard error, and to the log file if one is kept. -/
def log (s : Setup) (events : List Event) : IO Unit := do
  let lines := s.logLines (← time) events
  for line in lines do IO.eprintln line
  if let some p := s.logPath? then
    let file ← IO.FS.Handle.mk p.shown .append
    for line in lines do file.putStrLn line

/-- The request that a line makes. -/
def requestOf? (line : String) : Option Request :=
  match line.trimAscii.toString.splitOn " " with
  | method :: address :: _ =>
      match address.splitOn "?" with
      | path :: query =>
          (Text.percentDecode? path).map fun path => ⟨method, path, "?".intercalate query⟩
      | [] => none
  | _ => none

/-- Writes a response. -/
def write (r : Response) : IO Unit := do
  IO.println (toString r.status)
  for (name, value) in
      [("content-type", r.contentType), ("location", r.location), ("allow", r.allow)] do
    if let some v := value then IO.println (name ++ ": " ++ v)
  IO.println ("\n" ++ r.body)

/-- Answers line after line. -/
partial def serve (s : Setup) (p : Panel) : IO Unit := do
  let line ← (← IO.getStdin).getLine
  if line.isEmpty then return
  match requestOf? line with
  | none         => serve s p
  | some request =>
      let reply := p.answer request
      log s reply.events
      match reply.response with
      | .ok response => write response
      | .error (.unwritable reason) => IO.eprintln reason.message
      | .error (.unencodable fault) => IO.eprintln fault.message
      serve s reply.panel

end ConfigPanel.Terminal

open ConfigPanel Terminal in
/-- Configures a panel as the host says, starts it, and serves the requests that come in. -/
def main : IO UInt32 := do
  let fail (f : StartFault) : IO UInt32 := do
    IO.eprintln f.message
    return 1
  match (← host).configure with
  | .error f => fail f
  | .ok s    =>
      log s s.start.events
      match s.start.result with
      | .error f => fail f
      | .ok p    =>
          serve s p
          return 0
