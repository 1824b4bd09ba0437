import EditionMarket.Market.Method
import EditionMarket.Roster

/-!
# Settings

What can be set about a market: the limits of its store, what hosts are told about its methods, the
deposit of its bank, and where and how much it logs.
-/

namespace EditionMarket

/-- How much is logged. -/
inductive LogLevel
  | debug
  | info
  | warning
  | error
deriving DecidableEq

namespace LogLevel

/-- All levels. -/
def all : List LogLevel := [debug, info, warning, error]

/-- The text of a level. -/
def text : LogLevel → String
  | debug => "DEBUG"
  | info => "INFO"
  | warning => "WARNING"
  | error => "ERROR"

/-- The level of a text. -/
def ofText? (s : String) : Option LogLevel := all.find? (·.text = s)

end LogLevel

/-- Where events go, and how much is logged. -/
structure LoggingSettings where
  /-- The file for events outside of runs. -/
  outputFile : String := "fanbase_events.jsonl"
  /-- The directory that holds one directory for each run. -/
  logsDir : String := "logs"
  /-- How many recent events are shown if nobody says how many. -/
  recent : Nat := 50
  level : LogLevel := .info
  recent_pos : 0 < recent := by decide

instance : Inhabited LoggingSettings := ⟨{}⟩

/-- All settings. -/
structure Settings where
  limits : Limits := default
  methods : Method → MethodSettings := Method.settings
  /-- The deposit of the bank. -/
  deposit : Nat := 0
  logging : LoggingSettings := default

/-! ## Settings as values -/

/-- Limits as a value. -/
def Limits.toValue (limits : Limits) : Value :=
  .object [("max_creator_accounts", .int limits.creatorsPerAccount),
    ("max_launch_tokens", .int limits.editionsPerCreator),
    ("max_tokens", .int limits.tokensPerAccount)]

/-- What hosts are told about a method, as a value. -/
def MethodSettings.toValue (settings : MethodSettings) : Value :=
  .object [("weight", .int settings.weight), ("description", .string settings.description)]

/-- Logging settings as a value. -/
def LoggingSettings.toValue (logging : LoggingSettings) : Value :=
  .object [("output_file", .string logging.outputFile), ("logs_dir", .string logging.logsDir),
    ("default_recent", .int logging.recent), ("level", .string logging.level.text)]

namespace Settings

/-- The settings as fields. -/
def fields (settings : Settings) : Fields :=
  [("fanbase", .object
      [("limits", settings.limits.toValue),
        ("methods", .object
          (Method.all.map fun method => (method.name, (settings.methods method).toValue)))]),
    ("currency", .object [("existential_deposit", .int settings.deposit)]),
    ("logging", settings.logging.toValue)]

/-- The settings as a value. -/
def toValue (settings : Settings) : Value := .object settings.fields

end Settings

end EditionMarket
