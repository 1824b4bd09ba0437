import EditionMarket.Schema.Issue
import EditionMarket.Settings

/-!
# The shapes of settings

What a setting may be is said by its shape. There are four shapes of single settings, and seven of
sections. A section has entries, each of which has a name, a shape and a default.

A validation takes raw settings of some shape for what that shape holds, or finds issues with them. How it
does so is its own affair. What is known of it is `Validation.Documented`: a section given as an object has
to have known names only, every entry that is given is taken for itself and every other one has its default,
and settings that already are what is wanted are taken as they are.

Main definitions: `Shape`, `Shape.entries`, and `Validation.Documented`.
-/

namespace EditionMarket

/-- What a setting may be. -/
inductive Shape
  /-- An integer above zero. -/
  | positive
  /-- An integer that is not below zero. -/
  | natural
  | text
  /-- The text of a log level. -/
  | level
  /-- The limits of a store. -/
  | limits
  /-- What hosts are told about a method. -/
  | method
  /-- What hosts are told about all methods. -/
  | methods
  /-- The limits and the methods. -/
  | market
  /-- The deposit of the bank. -/
  | currency
  /-- Where events go, and how much is logged. -/
  | logging
  /-- All settings. -/
  | settings
deriving DecidableEq

/-- What settings of a shape are taken for. -/
abbrev Shape.Held : Shape → Type
  | positive => { n : Nat // 0 < n }
  | natural => Nat
  | text => String
  | level => LogLevel
  | limits => Limits
  | method => MethodSettings
  | methods => Method → MethodSettings
  | market => Limits × (Method → MethodSettings)
  | currency => Nat
  | logging => LoggingSettings
  | settings => Settings

/-- A setting in a section: its name, its shape, what it is if it is left out, and where the section
has it. -/
structure Entry (σ : Type) where
  name : String
  shape : Shape
  unset : shape.Held
  of : σ → shape.Held

namespace Entry

/-! ## Entries -/

abbrev creatorsPerAccount : Entry Limits :=
  ⟨"max_creator_accounts", .positive, ⟨16, Nat.succ_pos _⟩,
    fun limits => ⟨limits.creatorsPerAccount, limits.creatorsPerAccount_pos⟩⟩

abbrev editionsPerCreator : Entry Limits :=
  ⟨"max_launch_tokens", .positive, ⟨256, Nat.succ_pos _⟩,
    fun limits => ⟨limits.editionsPerCreator, limits.editionsPerCreator_pos⟩⟩

abbrev tokensPerAccount : Entry Limits :=
  ⟨"max_tokens", .positive, ⟨1024, Nat.succ_pos _⟩,
    fun limits => ⟨limits.tokensPerAccount, limits.tokensPerAccount_pos⟩⟩

abbrev weight : Entry MethodSettings := ⟨"weight", .natural, Weight.low.size, MethodSettings.weight⟩

abbrev description : Entry MethodSettings := ⟨"description", .text, "", MethodSettings.description⟩

/-- A method that is left out keeps its own weight and description. -/
abbrev method (method : Method) : Entry (Method → MethodSettings) :=
  ⟨method.name, .method, method.settings, fun methods => methods method⟩

abbrev limits : Entry (Limits × (Method → MethodSettings)) := ⟨"limits", .limits, default, Prod.fst⟩

abbrev methods : Entry (Limits × (Method → MethodSettings)) :=
  ⟨"methods", .methods, Method.settings, Prod.snd⟩

abbrev deposit : Entry Nat := ⟨"existential_deposit", .natural, 0, id⟩

abbrev outputFile : Entry LoggingSettings :=
  ⟨"output_file", .text, "fanbase_events.jsonl", LoggingSettings.outputFile⟩

abbrev logsDir : Entry LoggingSettings := ⟨"logs_dir", .text, "logs", LoggingSettings.logsDir⟩

abbrev recent : Entry LoggingSettings :=
  ⟨"default_recent", .positive, ⟨50, Nat.succ_pos _⟩, fun logging => ⟨logging.recent, logging.recent_pos⟩⟩

abbrev level : Entry LoggingSettings := ⟨"level", .level, .info, LoggingSettings.level⟩

abbrev market : Entry Settings :=
  ⟨"fanbase", .market, (default, Method.settings), fun settings => (settings.limits, settings.methods)⟩

abbrev currency : Entry Settings := ⟨"currency", .currency, 0, Settings.deposit⟩

abbrev logging : Entry Settings := ⟨"logging", .logging, default, Settings.logging⟩

end Entry

namespace Shape

/-- The entries of a section, in order. A single setting has none. -/
def entries : (shape : Shape) → List (Entry shape.Held)
  | limits => [.creatorsPerAccount, .editionsPerCreator, .tokensPerAccount]
  | method => [.weight, .description]
  | methods => Method.all.map .method
  | market => [.limits, .methods]
  | currency => [.deposit]
  | logging => [.outputFile, .logsDir, .recent, .level]
  | settings => [.market, .currency, .logging]
  | positive | natural | text | level => []

/-- The names of the entries of a section. -/
def names (shape : Shape) : List String := shape.entries.map Entry.name

end Shape

/-! ## Validation -/

/-- What raw settings of a shape are taken for, or the issues with them. -/
abbrev Validation := (shape : Shape) → Raw → Except (List Issue) shape.Held

/-- A section has an entry as it is given, or its default if it is left out. -/
def Entry.Meets (check : Validation) (given : Raw.Fields) {σ : Type} (held : σ) (entry : Entry σ) : Prop :=
  match Listing.get? given (.text entry.name) with
  | some raw => check entry.shape raw = .ok (entry.of held)
  | none => entry.of held = entry.unset

/-- What is known of a validation. Of a section that is given as anything but an object nothing is known,
and neither is anything of a setting that is not yet what is wanted. -/
structure Validation.Documented (check : Validation) : Prop where
  /-- A section passes exactly if its names are known and each of its entries passes. -/
  object : ∀ (shape : Shape) (given : Raw.Fields) (mark : Option Nat) (held : shape.Held), shape.entries ≠ [] →
    (check shape (.object given mark) = .ok held ↔
      (∀ label ∈ Listing.keys given, ∃ name ∈ shape.names, label = .text name) ∧
        ∀ entry ∈ shape.entries, entry.Meets check given held)
  int : ∀ (n : Int) (held : { n : Nat // 0 < n }),
    check .positive (.int n) = .ok held ↔ (held.1 : Int) = n
  bool : ∀ (b : Bool) (held : { n : Nat // 0 < n }),
    check .positive (.bool b) = .ok held ↔ (held.1 : Int) = if b then 1 else 0
  string : ∀ s, check .text (.string s) = .ok s

end EditionMarket
