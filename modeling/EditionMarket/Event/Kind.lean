/-!
# Kinds of events

Every completed action leaves one event of the kind that the action has.
-/

namespace EditionMarket

/-- What an event says has happened. -/
inductive EventKind
  | newCreator
  | droppedCreator
  | tokenCreated
  | tokenInitialCollection
  | tokenTransferred
  | tokenListed
  | tokenUnlisted
  | tokenLaunchPriceUpdated
  | tokenPriceUpdated
  | tokenDestroyed
deriving DecidableEq, Repr

namespace EventKind

/-- All kinds. -/
def all : List EventKind :=
  [newCreator, droppedCreator, tokenCreated, tokenInitialCollection, tokenTransferred, tokenListed,
    tokenUnlisted, tokenLaunchPriceUpdated, tokenPriceUpdated, tokenDestroyed]

/-- The text of a kind. -/
def text : EventKind → String
  | newCreator => "NewCreator"
  | droppedCreator => "DroppedCreator"
  | tokenCreated => "TokenCreated"
  | tokenInitialCollection => "TokenInitialCollection"
  | tokenTransferred => "TokenTransferred"
  | tokenListed => "TokenListed"
  | tokenUnlisted => "TokenUnlisted"
  | tokenLaunchPriceUpdated => "TokenLaunchPriceUpdated"
  | tokenPriceUpdated => "TokenPriceUpdated"
  | tokenDestroyed => "TokenDestroyed"

end EventKind

end EditionMarket
