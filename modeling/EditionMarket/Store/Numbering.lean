import EditionMarket.Store

/-!
# Numbers of editions and tokens

Editions and tokens are numbered by two counters. A counter holds the last number that was given
out; the next one is larger by one and may not pass the counter's ceiling.

A new edition or token is numbered in two steps: first its number is looked up, and only when all else
has been written is the number recorded as given out. A program that stops in between leaves the
counter as it was.
-/

namespace EditionMarket

namespace Counter

/-- The number after `last`, unless the counter has reached its ceiling; `code` says which counter it
is. -/
def next (code : Code) (last ceiling : Int) : Except Refusal Int :=
  if ceiling ≤ last then .error (.exhausted code last) else .ok (last + 1)

/-- A counter gives out a number exactly if it is below its ceiling. -/
theorem next_eq_ok_iff {code : Code} {last ceiling n : Int} :
    next code last ceiling = .ok n ↔ last < ceiling ∧ n = last + 1 := by
  unfold next
  split
  · simp
    omega
  · simp
    omega

end Counter

namespace Numbering

/-- The number of the next edition. -/
def nextEdition : StoreM ItemId := do
  let last ← StoreM.peek .lastEdition
  StoreM.ofExcept (Counter.next .editionsExhausted last (← get).ceiling)

/-- The number of the next token. -/
def nextToken : StoreM ItemId := do
  let last ← StoreM.peek .lastToken
  StoreM.ofExcept (Counter.next .tokensExhausted last (← get).ceiling)

/-- Records the number of an edition, which has to follow the last one. -/
def commitEdition (id : ItemId) : StoreM Unit := do
  let last ← StoreM.peek .lastEdition
  if id = last + 1 then StoreM.assign .lastEdition id
  else throw (.breach (.editionOutOfTurn id last))

/-- Records the number of a token, which has to follow the last one. -/
def commitToken (id : ItemId) : StoreM Unit := do
  let last ← StoreM.peek .lastToken
  if id = last + 1 then StoreM.assign .lastToken id
  else throw (.breach (.tokenOutOfTurn id last))

end Numbering

end EditionMarket
