import EditionMarket.Store

/-!
# Rosters of a store

A store keeps three families of rosters: the creators of an account, the editions of a creator and the
tokens of an account. Where there is no roster for a key, an empty one is meant; a roster that runs
empty is dropped.
-/

namespace EditionMarket

/-- A family of rosters, one for each key. -/
structure Family (κ ι : Type) where
  /-- The slot of a key's roster. -/
  slot : κ → Slot
  /-- The roster that the slot holds. -/
  roster? : (key : κ) → (slot key).Held → Option (Roster ι)
  /-- What the slot holds if it holds a roster. -/
  held : (key : κ) → Option (Roster ι) → (slot key).Held
  /-- The capacity of a new roster. -/
  capacity : Limits → Nat
  roster?_held : ∀ key roster, roster? key (held key roster) = roster := by intros; rfl
  held_roster? : ∀ key h, held key (roster? key h) = h := by intros; rfl

namespace Family

/-- The creators that an account owns. -/
def creatorsOf : Family AccountId CreatorId where
  slot := .creatorsOf
  roster? _ roster := roster
  held _ roster := roster
  capacity := Limits.creatorsPerAccount

/-- The editions that a creator has minted. -/
def editionsOf : Family CreatorId ItemId where
  slot := .editionsOf
  roster? _ roster := roster
  held _ roster := roster
  capacity := Limits.editionsPerCreator

/-- The tokens that an account holds. -/
def tokensOf : Family AccountId ItemId where
  slot := .tokensOf
  roster? _ roster := roster
  held _ roster := roster
  capacity := Limits.tokensPerAccount

variable {κ ι : Type}

/-- The roster of a key, if there is one, for a look only. -/
def peek (family : Family κ ι) (key : κ) : StoreM (Option (Roster ι)) := do
  return family.roster? key (← StoreM.peek (family.slot key))

/-- The items on the roster of a key. -/
def items (family : Family κ ι) (key : κ) : StoreM (List ι) := do
  return ((← family.peek key).map Roster.items).getD []

/-- The number of items on the roster of a key. -/
def size (family : Family κ ι) (key : κ) : StoreM Nat := do
  return ((← family.peek key).map Roster.size).getD 0

/-- Puts a roster in the place of a key. -/
def put (family : Family κ ι) (key : κ) (roster : Option (Roster ι)) : StoreM Unit :=
  modify (·.write (family.slot key) (family.held key roster))

/-- The roster of a key for work on it; where there is none, an empty one is made. -/
def fetch (family : Family κ ι) (key : κ) : StoreM (Roster ι) := do
  match family.roster? key (← StoreM.fetch (family.slot key)) with
  | some roster => return roster
  | none =>
    let roster := Roster.empty (family.capacity (← get).limits)
    family.put key (some roster)
    return roster

/-- Adds an item to the roster of a key; `full` is the fault if there is no room. -/
def push (family : Family κ ι) (key : κ) (item : ι) (full : Nat → Fault) : StoreM Unit := do
  let roster ← family.fetch key
  match roster.push? item with
  | some longer => family.put key (some longer)
  | none => throw (full roster.capacity)

variable [DecidableEq ι]

/-- Takes an item off the roster of a key, and drops the roster if it was the only one. Tells whether
the item was there. -/
def remove (family : Family κ ι) (key : κ) (item : ι) : StoreM Bool := do
  match ← family.peek key with
  | none => return false
  | some roster =>
    -- Only a roster that is about to change is touched.
    if item ∈ roster.items then
      modify (·.touch (family.slot key))
      let shorter := roster.remove item
      family.put key (if shorter.items = [] then none else some shorter)
      return true
    else return false

/-- Takes an item off the roster of a key and keeps the roster even if it is empty. Tells whether the
item was there. -/
def swapRemove (family : Family κ ι) (key : κ) (item : ι) : StoreM Bool := do
  let roster ← family.fetch key
  family.put key (some (roster.remove item))
  return roster.contains item

end Family

end EditionMarket
