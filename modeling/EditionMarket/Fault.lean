import EditionMarket.Refusal
import EditionMarket.Roster

/-!
# Faults

A fault is what stops work on a store. Most faults are refusals, which a caller is told about. A full
roster is a fault of its own where no refusal has been named for it. A breach is a fault that careful
callers never see: it means that the store does not look as it should.
-/

namespace EditionMarket

/-- A store that does not look as it should. -/
inductive Breach
  /-- An edition's number does not follow the last one. -/
  | editionOutOfTurn (id last : Int)
  /-- A token's number does not follow the last one. -/
  | tokenOutOfTurn (id last : Int)
  /-- The edition of a token is not there. -/
  | editionMissing (token edition : ItemId)
  /-- A creator that was just found is not there. -/
  | creatorVanished (creator : CreatorId)
deriving DecidableEq

/-- The message of a breach. -/
def Breach.message : Breach → String
  | editionOutOfTurn id last => s!"launch id {id} does not follow nonce {last}"
  | tokenOutOfTurn id last => s!"token id {id} does not follow nonce {last}"
  | editionMissing token edition => s!"token {token} references missing launch token {edition}"
  | creatorVanished creator => s!"creator {creator} vanished after ownership check"

/-- What stops work on a store. -/
inductive Fault
  | refused (refusal : Refusal)
  | rosterFull (capacity : Nat)
  | breach (cause : Breach)
deriving DecidableEq

/-- The message of a fault. -/
def Fault.message : Fault → String
  | refused refusal => refusal.message
  | rosterFull capacity => (Roster.Fault.full capacity).message
  | breach cause => cause.message

end EditionMarket
