import EditionMarket.Event.File
import EditionMarket.Market

/-!
# Markets with event files

The event of a completed action may be written to a file. By then the action has been completed, so what it
did stays even if the event cannot be written; the caller gets no answer then.
-/

namespace EditionMarket

/-- A market with a file that its events are written to, among other files. -/
structure FiledMarket (σ : Type) where
  market : Market σ
  file : EventFile
  files : FileTree

namespace FiledMarket

/-- Why a call does not come back. -/
inductive Fault
  | market (fault : EditionMarket.Fault)
  | event (cause : EventFile.Unwritten)
deriving DecidableEq

variable {σ : Type}

/-- Carries out a call of the caller, and writes the event of a completed action to the file. -/
def carryOut (caller : AccountId) (program : MarketM σ Answer) :
    EStateM Fault (FiledMarket σ) Answer := fun filed =>
  match program filed.market with
  | .ok (.done receipt) market =>
    let (file, written) :=
      filed.file.log filed.files receipt.kind.text (Market.eventFields caller receipt)
    match written with
    | .ok files => .ok (.done receipt) ⟨market, file, files⟩
    | .error cause => .error (.event cause) ⟨market, file, filed.files⟩
  | .ok (.refused refusal) market => .ok (.refused refusal) { filed with market := market }
  | .error fault market => .error (.market fault) { filed with market := market }

/-- Carries out an action. -/
def act [Currency σ] (caller : AccountId) (action : Action) : EStateM Fault (FiledMarket σ) Answer :=
  carryOut caller (Market.act caller action)

/-- Carries out the action of a method name and its arguments. -/
def invoke [Currency σ] (method arguments : Value) (caller : AccountId) :
    EStateM Fault (FiledMarket σ) Answer :=
  carryOut caller (Market.invoke method arguments caller)

end FiledMarket

end EditionMarket
