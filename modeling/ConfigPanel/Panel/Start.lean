import ConfigPanel.History.Snapshot
import ConfigPanel.Panel
import ConfigPanel.Settings
import ConfigPanel.Settings.Folder

/-!
# Panel — starting

A start has three stages.  `Host.configure` reads the settings, makes sure of the log file, and
looks up the log level.  `Setup.loadHistory` loads the snapshot, or begins with no record when none
is named.  `Setup.around` puts the panel around a history, for which there must be a title.

What the program does not make itself is part of the host: the environment and the files, the
accounts, the room that is left on the stack, and the site.
-/

namespace ConfigPanel

/-- What the program finds around it. -/
structure Host where
  env : Environment
  folder : Folder
  accounts : List (String × String)
  room : Nat
  site : Site

/-- Why a panel does not start. -/
inductive StartFault where
  | limit (fault : LimitFault)
  | logFile (fault : Folder.Fault)
  | unknownLevel (name : String)
  | noHome (fault : Path.NoHome)
  | file (fault : Folder.Fault)
  | snapshot (fault : Snapshot.Fault)
  | negativeLimit (fault : NegativeLimit)
  | untitled
  deriving DecidableEq, Repr

/-- What is said of a fault. -/
def StartFault.message : StartFault → String
  | .limit f           => f.message
  | .logFile f         => f.message
  | .unknownLevel name => "Unknown level: " ++ Text.quotedString name
  | .noHome f          => f.message
  | .file f            => f.message
  | .snapshot f        => f.message
  | .negativeLimit f   => f.message
  | .untitled          => "A title must be provided for OpenAPI, e.g.: 'My API'"

/-- A host whose settings have been read. -/
structure Setup where
  host : Host
  settings : Settings
  level : Level

/-- The folder with the log file in it, if one is asked for. -/
def Folder.withLog (f : Folder) (logFile : Option String) : Except Folder.Fault Folder :=
  match logFile with
  | none   => .ok f
  | some s => if s.isEmpty then .ok f else f.touch (Path.parse s)

/-- Reads the settings and prepares the log. -/
def Host.configure (h : Host) : Except StartFault Setup :=
  match Settings.read h.env with
  | .error f     => .error (.limit f)
  | .ok settings =>
      match h.folder.withLog settings.logFile with
      | .error f   => .error (.logFile f)
      -- the log file is there even when its level is unknown
      | .ok folder =>
          match Level.ofName? settings.levelName with
          | none       => .error (.unknownLevel settings.levelName)
          | some level => .ok ⟨{ h with folder := folder }, settings, level⟩

namespace Setup

/-- The place of the log file, if one is kept. -/
def logPath? (s : Setup) : Option Path :=
  s.settings.logFile.bind fun name =>
    if name.isEmpty then none else some ((Path.parse name).absolute s.host.folder.working)

/-- The lines of the log file for what was logged, each at a time of the day. -/
def logLines (s : Setup) (time : String) (events : List Event) : List String :=
  (admitted s.level events).map (Event.fileLine time)

/-- The bytes of the log file when what was logged has been added at its end.  There are none unless
the name of the log file, as it is written, leads to a file. -/
def logFile? (s : Setup) (time : String) (events : List Event) : Option (List UInt8) :=
  match s.host.folder.follow (s.settings.logFile.getD "") with
  | .ok (.file bytes) =>
      some (bytes ++ (s.logLines time events).flatMap fun line => (line ++ "\n").toUTF8.toList)
  | _                 => none

/-- Loads the snapshot from a place. -/
def loadFrom (s : Setup) (p : Path) : Logged (Except StartFault History) :=
  match s.host.folder.read p with
  | .error f  => .quiet (.error (.file f))
  | .ok bytes =>
      (History.ofSnapshot s.host.room bytes p.shown (some s.settings.limit)).map fun r =>
        r.mapError .snapshot

/-- A history with no record yet. -/
def beginEmpty (s : Setup) : Logged (Except StartFault History) :=
  ⟨(History.build [] (some s.settings.limit)).mapError .negativeLimit, [.noSnapshot]⟩

/-- The history that a panel starts with. -/
def loadHistory (s : Setup) : Logged (Except StartFault History) :=
  match s.host.env.snapshotPath? s.host.accounts with
  | .error f     => .quiet (.error (.noHome f))
  | .ok none     => s.beginEmpty
  | .ok (some p) => s.loadFrom p

/-- The panel around a history. -/
def around (s : Setup) (h : History) : Except StartFault Panel :=
  if s.settings.title.isEmpty then .error .untitled
  else .ok ⟨s.settings.title, h, s.level, s.host.site⟩

/-- The panel around the history that is loaded. -/
def start (s : Setup) : Logged (Except StartFault Panel) :=
  s.loadHistory.map fun r => r.bind s.around

end Setup

/-- The panel of a host, and what its level lets through of what was logged. -/
def Host.start (h : Host) : Logged (Except StartFault Panel) :=
  match h.configure with
  | .error f => .quiet (.error f)
  | .ok s    => ⟨s.start.result, admitted s.level s.start.events⟩

/-- Where a panel listens. -/
structure Address where
  host : String
  port : Nat
  deriving DecidableEq, Repr

/-- The address on which the panel listens. -/
def Panel.address : Address := ⟨"0.0.0.0", 8080⟩

end ConfigPanel
