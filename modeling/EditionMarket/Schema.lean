import EditionMarket.Schema.Integer
import EditionMarket.Schema.Shape

/-!
# Checking raw settings

This is the project's own check of raw settings. It knows everything that can be given in a document without
tags. A name that stands for no setting is an issue, and so is one that is no text. The issues come in the
order of the settings, those of such names last in their section.

Main definition: `Schema.check`.
-/

namespace EditionMarket

namespace Schema

/-! ## Building blocks -/

/-- A text. -/
def text : Raw → Checked String
  | .string s => ⟨s, []⟩
  | .garbled => .wrong "" .garbledText
  | _ => .wrong "" .notText

/-- The text of a log level. -/
def level : Raw → Checked LogLevel
  | .string s => (LogLevel.ofText? s).elim (.wrong .info .notLevel) (⟨·, []⟩)
  | .garbled => .wrong .info .garbledText
  | _ => .wrong .info .notLevel

/-- A setting in a section: its default if it is left out. -/
def setting {σ : Type} (fields : Raw.Fields) (entry : Entry σ) (check : Raw → Checked entry.shape.Held) :
    Checked entry.shape.Held :=
  match Listing.get? fields (.text entry.name) with
  | none => ⟨entry.unset, []⟩
  | some raw =>
    let checked := check raw
    ⟨checked.value, checked.issuesUnder entry.name⟩

/-- What is wrong with the name of a setting, if anything is. -/
def nameIssue? (known : List String) (label : Label) : Option Issue :=
  match label with
  | .text key => if key ∈ known then none else some ⟨[label], .unknown⟩
  | _ => some ⟨[label], .notName⟩

/-- An issue for every name that stands for no setting. -/
def nameIssues (known : List String) (fields : Raw.Fields) : List Issue :=
  (Listing.keys fields).filterMap (nameIssue? known)

/-- A section, which has to be an object with known names only. -/
def sectionOf (title : String) (shape : Shape) (default : shape.Held)
    (check : Raw.Fields → Checked shape.Held) : Raw → Checked shape.Held
  | .object fields _ =>
    let checked := check fields
    ⟨checked.value, checked.issues ++ nameIssues shape.names fields⟩
  | _ => .wrong default (.notSection title)

/-! ## Sections -/

/-- The limits of a store. -/
def limits : Raw → Checked Limits :=
  sectionOf "LimitsConfig" .limits default fun fields =>
    let creators := setting fields .creatorsPerAccount positive
    let editions := setting fields .editionsPerCreator positive
    let tokens := setting fields .tokensPerAccount positive
    ⟨⟨creators.value.1, editions.value.1, tokens.value.1, creators.value.2, editions.value.2,
        tokens.value.2⟩,
      creators.issues ++ editions.issues ++ tokens.issues⟩

/-- What hosts are told about a method. -/
def methodSettings : Raw → Checked MethodSettings :=
  sectionOf "MethodConfig" .method ⟨Weight.low.size, ""⟩ fun fields =>
    let weight := setting fields .weight natural
    let description := setting fields .description text
    ⟨⟨weight.value, description.value⟩, weight.issues ++ description.issues⟩

/-- What hosts are told about all methods. -/
def methods : Raw → Checked (Method → MethodSettings) :=
  sectionOf "MarketplaceMethodsConfig" .methods Method.settings fun fields =>
    let checked := fun method : Method => setting fields (.method method) methodSettings
    ⟨fun method => (checked method).value, Method.all.flatMap fun method => (checked method).issues⟩

/-- The limits and the methods. -/
def market : Raw → Checked (Limits × (Method → MethodSettings)) :=
  sectionOf "FanbaseConfig" .market (default, Method.settings) fun fields =>
    let limits := setting fields .limits limits
    let methods := setting fields .methods methods
    ⟨(limits.value, methods.value), limits.issues ++ methods.issues⟩

/-- The deposit of the bank. -/
def currency : Raw → Checked Nat :=
  sectionOf "CurrencyConfig" .currency 0 fun fields => setting fields .deposit natural

/-- Where events go, and how much is logged. -/
def logging : Raw → Checked LoggingSettings :=
  sectionOf "LoggingConfig" .logging default fun fields =>
    let outputFile := setting fields .outputFile text
    let logsDir := setting fields .logsDir text
    let recent := setting fields .recent positive
    let level := setting fields .level level
    ⟨⟨outputFile.value, logsDir.value, recent.value.1, level.value, recent.value.2⟩,
      outputFile.issues ++ logsDir.issues ++ recent.issues ++ level.issues⟩

/-- All settings. -/
def settings : Raw → Checked Settings :=
  sectionOf "AppConfig" .settings {} fun fields =>
    let market := setting fields .market market
    let currency := setting fields .currency currency
    let logging := setting fields .logging logging
    ⟨⟨market.value.1, market.value.2, currency.value, logging.value⟩,
      market.issues ++ currency.issues ++ logging.issues⟩

/-- What raw settings of a shape are taken for, or the issues with them. -/
def check : Validation
  | .positive, raw => (positive raw).toExcept
  | .natural, raw => (natural raw).toExcept
  | .text, raw => (text raw).toExcept
  | .level, raw => (level raw).toExcept
  | .limits, raw => (limits raw).toExcept
  | .method, raw => (methodSettings raw).toExcept
  | .methods, raw => (methods raw).toExcept
  | .market, raw => (market raw).toExcept
  | .currency, raw => (currency raw).toExcept
  | .logging, raw => (logging raw).toExcept
  | .settings, raw => (settings raw).toExcept

end Schema

end EditionMarket
