import ConfigPanel.Number.Numeral
import ConfigPanel.Settings.Path
import ConfigPanel.Text.Quoted
import ConfigPanel.Text.UpperCase

/-!
# Settings — what the environment asks for

`Settings.read` takes the settings from the variables of the environment, each with its default; it
fails only when the limit is no whole number.  The place of the snapshot is read apart from them
(`Environment.snapshotPath?`), since a home directory may be unknown.

Names and values are strings.  A value with bytes that are no UTF-8 is left out of account: such
bytes stand as lone surrogates in it, which a string has not.
-/

namespace ConfigPanel

/-! ### Variables -/

/-- The variables that are set. -/
abbrev Environment := List (String × String)

namespace Environment

/-- The value of a variable. -/
def get? (e : Environment) (name : String) : Option String := e.lookup name

/-- The value of a variable, or a default. -/
def getD (e : Environment) (name default : String) : String := (e.get? name).getD default

/-- The name of the stage that the panel runs at. -/
def stage (e : Environment) : String := e.getD "ENV" "development"

/-- The panel is in production. -/
def isProduction (e : Environment) : Bool := e.stage == "production"

/-- The name of the log level; unless it is set, a quiet one in production. -/
def levelName (e : Environment) (production : Bool) : String :=
  Text.upperCase (e.getD "LOG_LEVEL" (if production then "WARNING" else "INFO"))

/-- The place of the snapshot, if one is named. -/
def snapshotPath? (e : Environment) (accounts : List (String × String)) :
    Except Path.NoHome (Option Path) :=
  match e.get? "CONFIGS_FILE" with
  | none   => .ok none
  | some s =>
      if s.isEmpty then .ok none
      else ((Path.parse s).expandHome (e.get? "HOME") accounts).map some

end Environment

/-! ### Settings -/

/-- What the environment asks for. -/
structure Settings where
  stage : String
  isProduction : Bool
  levelName : String
  logFile : Option String
  title : String
  limit : Int
  deriving DecidableEq, Repr

/-- The text for the limit is no whole number. -/
structure LimitFault where
  text : String
  fault : Numeral.Fault
  deriving DecidableEq, Repr

/-- The most characters of a quoted limit that are shown. -/
def LimitFault.shownLength : Nat := 200

/-- What is said of a limit that cannot be read. -/
def LimitFault.message (f : LimitFault) : String :=
  match f.fault with
  | .unreadable     =>
      "invalid literal for int() with base 10: " ++
        String.ofList ((Text.of f.text).quoted.take shownLength)
  | .tooLong digits => Numeral.tooLongMessage digits

namespace Settings

/-- The title when none is set. -/
def defaultTitle : String := "Quota Service Configs"

/-- The limit when none is set. -/
def defaultLimit : String := "50"

/-- Reads the settings. -/
def read (e : Environment) : Except LimitFault Settings :=
  let limit := e.getD "HISTORY_LIMIT" defaultLimit
  match Numeral.readLimit limit with
  | .error f => .error ⟨limit, f⟩
  | .ok n    =>
      .ok ⟨e.stage, e.isProduction, e.levelName e.isProduction, e.get? "LOG_FILE",
        e.getD "ADMIN_TITLE" defaultTitle, n⟩

end Settings

end ConfigPanel
