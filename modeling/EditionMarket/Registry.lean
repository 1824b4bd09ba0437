import EditionMarket.Store.Family

/-!
# The registry of creators

Creators are registered to an account and let go of by it. A creator that has minted editions is never
removed, so that no edition names a creator who is not there: it is merely disconnected.
-/

namespace EditionMarket.Registry

/-- The creator of an id. -/
def get? (id : CreatorId) : StoreM (Option Creator) := StoreM.fetch (.creator id)

/-- The account that owns a creator: nobody if there is no such creator or it is disconnected. -/
def ownerOf (id : CreatorId) : StoreM AccountId := do
  return ((← get? id).map Creator.owner).getD .nobody

/-- Refuses to go on unless an account owns a creator. What nobody owns, nobody may use. -/
def ensureOwner (account : AccountId) (id : CreatorId) : StoreM Unit := do
  if account = .nobody then StoreM.refuse (.notCreatorOwner account id)
  if (← ownerOf id) ≠ account then StoreM.refuse (.notCreatorOwner account id)

/-- Changes a creator, if it is there. Tells whether it is. -/
def update (id : CreatorId) (change : Creator → Creator) : StoreM Bool := do
  match ← get? id with
  | none => return false
  | some creator =>
    modify (·.write (.creator id) (some (change creator)))
    return true

/-- Registers a creator to an account. -/
def register (id : Value) (owner : AccountId) : StoreM Creator := do
  let id ← StoreM.ofExcept (Argument.creatorId id)
  if (← get? id).isSome then StoreM.refuse (.creatorTaken id)
  Family.creatorsOf.push owner id fun limit => .refused (.creatorsFull owner limit)
  let creator : Creator := ⟨id, owner⟩
  StoreM.assign (.creator id) (some creator)
  return creator

/-- Lets go of a creator. It is removed if it has not minted any edition, and disconnected if it has;
the answer tells whether it was removed. -/
def release (id : CreatorId) (owner : AccountId) : StoreM Bool := do
  ensureOwner owner id
  let unused := (← Family.editionsOf.size id) = 0
  if unused then StoreM.assign (.creator id) none
  else
    let found ← update id Creator.disconnect
    if !found then throw (.breach (.creatorVanished id))
  discard <| Family.creatorsOf.remove owner id
  return unused

end EditionMarket.Registry
