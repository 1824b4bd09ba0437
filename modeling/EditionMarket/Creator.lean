import EditionMarket.Refusal

/-!
# Creators

A creator is a name under which editions are minted. A creator whose owner has let go of it is
disconnected: nobody owns it, but the editions that were minted under it still name it.
-/

namespace EditionMarket

/-- A registered creator. -/
structure Creator where
  id : CreatorId
  owner : AccountId
deriving DecidableEq

namespace Creator

/-- The creator without its owner. -/
def disconnect (creator : Creator) : Creator := { creator with owner := .nobody }

/-- The creator as fields. -/
def fields (creator : Creator) : Fields :=
  [("id", .string creator.id), ("owner", creator.owner.toValue)]

/-- The creator of given fields. None may be left out, and there may be no other fields. -/
def ofFields? (fields : Fields) : Option Creator := do
  guard (fields.within ["id", "owner"])
  return ⟨← fields.text? "id", ← (fields.get? "owner").bind AccountId.ofValue?⟩

/-- The creator with another value in a field, if it can have it there. -/
def withField? (creator : Creator) (name : String) (value : Value) : Option Creator :=
  ofFields? (creator.fields.put name value)

/-- A creator is read back from its fields. -/
theorem ofFields?_fields (creator : Creator) : ofFields? creator.fields = some creator := by
  obtain ⟨id, owner⟩ := creator
  cases owner <;> rfl

end Creator

end EditionMarket
