import EditionMarket.Schema
import EditionMarket.Yaml.Document

/-!
# The active configuration

At most one configuration is active. It consists of raw settings, which are looked up and overridden by
path, and of the settings that these stand for. Raw settings with an issue never become active. Where
none is active, the default file becomes active as soon as anyone asks.

Documents are read and settings are checked by an `Intake`, which is anything that does so. The project's own
one is `Intake.builtin`.
-/

namespace EditionMarket

/-- Raw settings and what they stand for. -/
structure Installed where
  raw : Raw.Fields
  settings : Settings

/-- The active configuration, and the log level that was set last. -/
structure Configuration where
  active : Option Installed := none
  level : Option LogLevel := none

namespace Configuration

/-- Why a configuration cannot be read or changed. -/
inductive Fault
  /-- There is no such file. -/
  | missing (path : String)
  /-- The text is no document. -/
  | unreadable (fault : Yaml.Fault)
  /-- The raw settings have issues. -/
  | invalid (issues : List Issue)
  /-- The path runs through something that has no parts. -/
  | throughScalar
  /-- The path ends in something that has no parts. -/
  | intoScalar
deriving DecidableEq

/-- The message of a fault that has one. -/
def Fault.message? : Fault → Option String
  | missing path => some s!"Config file not found: {path}"
  | unreadable fault => fault.message?
  | _ => none

end Configuration

/-- What takes settings in. -/
structure Intake where
  /-- Reads a document. -/
  read : String → Except Yaml.Fault Raw
  /-- Takes raw settings for what they stand for. -/
  check : Validation
  /-- What the default file holds, or why it cannot be read. -/
  defaults : Except Configuration.Fault Raw

/-- The project's own reader and check, with a default file that gives every setting its default. -/
def Intake.builtin : Intake := ⟨Yaml.read, Schema.check, .ok (.ofValue ({} : Settings).toValue)⟩

/-- Programs that work on the configuration. -/
abbrev ConfigurationM := EStateM Configuration.Fault Configuration

namespace Configuration

/-! ## Paths -/

/-- The names on a path, which are parted by points. -/
def parts (path : String) : List String := (path.toList.splitOn '.').map String.ofList

/-- What stands at the end of a path. -/
def follow (node : Raw) : List String → Option Raw
  | [] => some node
  | part :: rest =>
    match node with
    | .object fields _ =>
      match Listing.get? fields (.text part) with
      | some inner => follow inner rest
      | none => none
    | _ => none

/-- What raw settings have at a path. -/
def lookup (raw : Raw.Fields) (path : String) : Option Raw := follow (.object raw) (parts path)

/-- A setting inside as many sections as there are names. -/
def nest (raw : Raw) : List String → Raw
  | [] => raw
  | part :: rest => .object [(.text part, nest raw rest)]

/-- Puts a setting at the end of a path. Sections on the way are made where they are missing. The section
that the setting is put into is the last one on the way that was there, and it changes wherever it stands. If
it has no mark, it stands where the section around it does.
Answers with what has become of the node, and of the section that changes wherever it stands. -/
def assign (raw : Raw) (node : Raw) (part : String) (rest : List String) :
    Except Fault (Raw × Raw) :=
  match node with
  | .object fields mark =>
    match rest, Listing.get? fields (.text part) with
    | next :: rest, some inner => do
      let (inner, changed) ← assign raw inner next rest
      let whole := Raw.object (Listing.put (changed.spreadFields fields) (.text part) inner) mark
      return (whole, if changed.mark?.isSome then changed else whole)
    | rest, _ =>
      let changed := Raw.object (Listing.put fields (.text part) (nest raw rest)) mark
      .ok (changed, changed)
  | _ => .error (if rest = [] then .intoScalar else .throughScalar)

/-- Puts a setting at the end of a path. None of its sections is one that was there before. -/
def overridden (raw : Raw.Fields) (path : String) (value : Raw) : Except Fault Raw :=
  match parts path with
  | [] => .ok value
  | part :: rest => do
    let (tree, _) ← assign (value.raised (Raw.object raw).markBound) (.object raw) part rest
    return tree

/-! ## Reading -/

/-- The sections of a document. One that is not an object has none. -/
def sections : Raw → Raw.Fields
  | .object fields _ => fields
  | _ => []

/-- A document, or no settings at all if it holds nothing. The mark of a document says nothing, since no
section is around it. -/
def orNothing : Raw → Raw
  | .object fields _ => .object fields
  | raw => if raw.isVoid then .object [] else raw

variable (intake : Intake)

/-- The settings that a text stands for, without making them active. -/
def read (text : String) : Except Fault Settings := do
  let document ← (intake.read text).mapError .unreadable
  (intake.check .settings (orNothing document)).mapError .invalid

/-! ## Changing the active configuration -/

/-- Makes raw settings active, if there is no issue with them. -/
def install (raw : Raw.Fields) : ConfigurationM Installed :=
  match intake.check .settings (.object raw) with
  | .error issues => throw (.invalid issues)
  | .ok settings => do
    let installed : Installed := ⟨raw, settings⟩
    set ({ active := some installed, level := some settings.logging.level } : Configuration)
    return installed

/-- Makes the sections of a document active, if it can be read. -/
def installDocument : Except Fault Raw → ConfigurationM Installed
  | .error fault => throw fault
  | .ok document => install intake (sections document)

/-- Makes the default file active. -/
def installDefaults : ConfigurationM Installed := installDocument intake intake.defaults

/-- Makes the sections of a file active; `text?` is the text of the file, if there is one at the path. -/
def loadFile (path : String) (text? : Option String) : ConfigurationM Installed :=
  match text? with
  | none => throw (.missing path)
  | some text => installDocument intake ((intake.read text).mapError .unreadable)

/-- The active configuration; the default file where there was none. -/
def current : ConfigurationM Installed := do
  match (← get).active with
  | some installed => return installed
  | none => installDefaults intake

/-- What the active configuration has at a path, or `otherwise` if it has nothing there. -/
def get (path : String) (otherwise : Raw) : ConfigurationM Raw := do
  return (lookup (← current intake).raw path).getD otherwise

/-- Overrides the setting at a path, if there is no issue with what comes out. -/
def override (path : String) (value : Raw) : ConfigurationM Unit := do
  match overridden (← current intake).raw path value with
  | .error fault => throw fault
  | .ok raw => discard <| install intake (sections raw)

/-- Forgets the active configuration. The log level stays as it is. -/
def reset : ConfigurationM Unit := modify ({ · with active := none })

end Configuration

end EditionMarket
