import EditionMarket.Creator
import EditionMarket.Roster
import EditionMarket.Token

/-!
# The contents of a store

A store keeps three kinds of records, a roster for every account and creator that needs one, and the
last numbers that the two counters gave out. All of it is addressed by slots: one slot for each key of
each table, and one for each counter.

Main statements: `read_write_self` and `read_write_of_ne` say what a slot holds after another was
written, and `ext_read` that contents are what their slots hold.
-/

namespace EditionMarket

/-- Everything that a store keeps. -/
structure Contents where
  /-- The creators by id. -/
  creators : Table CreatorId Creator := ∅
  /-- The ids of the creators that an account owns. -/
  creatorsOf : Table AccountId (Roster CreatorId) := ∅
  /-- The editions by id. -/
  editions : Table ItemId Edition := ∅
  /-- The ids of the editions that a creator has minted. -/
  editionsOf : Table CreatorId (Roster ItemId) := ∅
  /-- The tokens by id. -/
  tokens : Table ItemId Token := ∅
  /-- The ids of the tokens that an account holds. -/
  tokensOf : Table AccountId (Roster ItemId) := ∅
  /-- The id of the edition that was minted last. -/
  lastEdition : Int := 0
  /-- The id of the token that was issued last. -/
  lastToken : Int := 0
deriving DecidableEq

/-- A place in a store. -/
inductive Slot
  | creator (id : CreatorId)
  | creatorsOf (account : AccountId)
  | edition (id : ItemId)
  | editionsOf (creator : CreatorId)
  | token (id : ItemId)
  | tokensOf (account : AccountId)
  | lastEdition
  | lastToken
deriving DecidableEq

namespace Slot

/-- What a slot can hold: a record or a roster that need not be there, or a number. -/
abbrev Held : Slot → Type
  | creator _ => Option Creator
  | creatorsOf _ => Option (Roster CreatorId)
  | edition _ => Option Edition
  | editionsOf _ => Option (Roster ItemId)
  | token _ => Option Token
  | tokensOf _ => Option (Roster ItemId)
  | lastEdition => Int
  | lastToken => Int

end Slot

namespace Contents

/-- What a slot holds. -/
def read (contents : Contents) : (slot : Slot) → slot.Held
  | .creator id => contents.creators[id]?
  | .creatorsOf account => contents.creatorsOf[account]?
  | .edition id => contents.editions[id]?
  | .editionsOf creator => contents.editionsOf[creator]?
  | .token id => contents.tokens[id]?
  | .tokensOf account => contents.tokensOf[account]?
  | .lastEdition => contents.lastEdition
  | .lastToken => contents.lastToken

/-- Lets a slot hold something. -/
def write (contents : Contents) : (slot : Slot) → slot.Held → Contents
  | .creator id, held => { contents with creators := contents.creators.set id held }
  | .creatorsOf account, held =>
    { contents with creatorsOf := contents.creatorsOf.set account held }
  | .edition id, held => { contents with editions := contents.editions.set id held }
  | .editionsOf creator, held =>
    { contents with editionsOf := contents.editionsOf.set creator held }
  | .token id, held => { contents with tokens := contents.tokens.set id held }
  | .tokensOf account, held => { contents with tokensOf := contents.tokensOf.set account held }
  | .lastEdition, held => { contents with lastEdition := held }
  | .lastToken, held => { contents with lastToken := held }

/-! ## Reading and writing -/

/-- A slot holds what was written to it. -/
@[simp] theorem read_write_self (contents : Contents) (slot : Slot) (held : slot.Held) :
    (contents.write slot held).read slot = held := by
  cases slot <;> simp [read, write, Table.getElem?_set]

/-- Writing to one slot leaves the others alone. -/
theorem read_write_of_ne (contents : Contents) {slot other : Slot} (held : slot.Held)
    (h : slot ≠ other) : (contents.write slot held).read other = contents.read other := by
  cases slot <;> cases other <;> simp_all [read, write, Table.getElem?_set]

/-- Contents are what their slots hold. -/
theorem ext_read {a b : Contents} (h : ∀ slot, a.read slot = b.read slot) : a = b := by
  obtain ⟨a₁, a₂, a₃, a₄, a₅, a₆, a₇, a₈⟩ := a
  obtain ⟨b₁, b₂, b₃, b₄, b₅, b₆, b₇, b₈⟩ := b
  congr
  · exact Table.eq_of_getElem?_eq fun id => h (.creator id)
  · exact Table.eq_of_getElem?_eq fun account => h (.creatorsOf account)
  · exact Table.eq_of_getElem?_eq fun id => h (.edition id)
  · exact Table.eq_of_getElem?_eq fun creator => h (.editionsOf creator)
  · exact Table.eq_of_getElem?_eq fun id => h (.token id)
  · exact Table.eq_of_getElem?_eq fun account => h (.tokensOf account)
  · exact h .lastEdition
  · exact h .lastToken

/-- Who writes to a slot twice might as well have written once. -/
theorem write_write (contents : Contents) (slot : Slot) (first second : slot.Held) :
    (contents.write slot first).write slot second = contents.write slot second := by
  apply ext_read
  intro other
  by_cases h : slot = other
  · subst h
    rw [read_write_self, read_write_self]
  · rw [read_write_of_ne _ _ h, read_write_of_ne _ _ h, read_write_of_ne _ _ h]

/-! ## Counts -/

/-- How many records and rosters there are, and the two counters. -/
def counts (contents : Contents) : Fields :=
  [("creators", .int contents.creators.size), ("launch_tokens", .int contents.editions.size),
    ("tokens", .int contents.tokens.size), ("creator_indices", .int contents.creatorsOf.size),
    ("token_indices", .int contents.tokensOf.size),
    ("launch_issuance_nonce", .int contents.lastEdition),
    ("issuance_nonce", .int contents.lastToken)]

end Contents

end EditionMarket
