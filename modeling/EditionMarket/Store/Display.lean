import EditionMarket.Store.Contents

/-!
# The contents of a store as a value

Tables are lists of their entries in the order of the keys. A roster is shown with its key and its
capacity, and its items stand in their own order.
-/

namespace EditionMarket

/-- The name of the table of a slot, and the key in it. -/
def Slot.toValue : Slot → Value
  | creator id => .list [.string "creators", .string id]
  | creatorsOf account => .list [.string "creator_ids_for_account", account.toValue]
  | edition id => .list [.string "launch_tokens", .int id]
  | editionsOf key => .list [.string "launch_token_ids_for_creator", .string key]
  | token id => .list [.string "tokens", .int id]
  | tokensOf account => .list [.string "token_ids_for_account", account.toValue]
  | lastEdition => .list [.string "nonces", .string "launch_issuance_nonce"]
  | lastToken => .list [.string "nonces", .string "issuance_nonce"]

/-- A roster as fields. -/
def Roster.fields {α : Type} (item : α → Value) (roster : Roster α) : Fields :=
  [("bound", .int roster.capacity), ("items", .list (roster.items.map item))]

namespace Contents

/-- The records of a table. -/
def records {κ ν : Type} [Ord κ] [Std.TransOrd κ] (fields : ν → Fields) (table : Table κ ν) : Value :=
  .list (table.toList.map fun (_, record) => .object (fields record))

/-- The rosters of a table. -/
def rosters {κ ι : Type} [Ord κ] [Std.TransOrd κ] (key : κ → Value) (item : ι → Value)
    (table : Table κ (Roster ι)) : Value :=
  .list (table.toList.map fun (k, roster) => .object (("key", key k) :: roster.fields item))

/-- The contents as fields. -/
def fields (contents : Contents) : Fields :=
  [("creators", records Creator.fields contents.creators),
    ("launch_tokens", records Edition.fields contents.editions),
    ("tokens", records Token.fields contents.tokens),
    ("creator_ids_for_account", rosters AccountId.toValue .string contents.creatorsOf),
    ("launch_token_ids_for_creator", rosters .string .int contents.editionsOf),
    ("token_ids_for_account", rosters AccountId.toValue .int contents.tokensOf),
    ("launch_issuance_nonce", .int contents.lastEdition),
    ("issuance_nonce", .int contents.lastToken)]

end Contents

end EditionMarket
