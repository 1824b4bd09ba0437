import EditionMarket.Market
import EditionMarket.Proofs.Market.Rule
import EditionMarket.Proofs.Table

/-!
# Ledgers

A ledger is what can be told of a market by somebody who reads nothing but its events: who owns which
creators and tokens, how many tokens of which edition there are, what is for sale at which price, in which
order the rosters stand, and how much money everybody has. The ledger is carried on from one event to the
next by simple arithmetic, and never asks what is allowed: events tell only what has been done.

Main statements: `ofEvent?_told`, an event is read back from its record, whenever it was recorded and under
whatever number, and `step?_told`, what it does to the ledger.
-/

namespace EditionMarket

/-! ## Tables of lists -/

namespace Table

variable {κ ι : Type} [Ord κ] [Std.TransOrd κ] [Std.LawfulEqOrd κ] [DecidableEq κ]

/-- An item comes to the end of the list of a key. -/
def appended (lists : Table κ (List ι)) (key : κ) (item : ι) : Table κ (List ι) :=
  lists.put key ((lists[key]?).getD [] ++ [item])

variable [DecidableEq ι]

/-- An item leaves the list of a key, and the last item takes its place. A list that is empty then is
dropped. -/
def swappedOut (lists : Table κ (List ι)) (key : κ) (item : ι) : Table κ (List ι) :=
  match lists[key]? with
  | none => lists
  | some items =>
    if item ∈ items then
      let rest := Roster.swapOut item items
      lists.set key (if rest = [] then none else some rest)
    else lists

omit [DecidableEq ι] in
/-- What is seen of rosters that an item enters. -/
theorem image_enrolled {rosters : Table κ (Roster ι)} {capacity : Nat} {key : κ}
    (h : rosters.HasRoom capacity key) (item : ι) :
    (rosters.enrolled capacity key item).image Roster.items =
      (rosters.image Roster.items).appended key item := by
  obtain ⟨longer, -, hitems, henrolled⟩ := enrolled_eq_put h item
  unfold appended
  rw [henrolled, image_put, hitems, getElem?_image]
  rfl

/-- What is seen of rosters that an item leaves. -/
theorem image_struck (rosters : Table κ (Roster ι)) (key : κ) (item : ι) :
    (rosters.struck key item).image Roster.items =
      (rosters.image Roster.items).swappedOut key item := by
  unfold struck swappedOut
  rw [getElem?_image]
  cases hr : rosters[key]? with
  | none => rfl
  | some roster =>
    dsimp only [Option.map_some]
    by_cases hm : item ∈ roster.items
    -- The roster is dropped if the list of its items is empty, and else it has that list.
    · have hitems := Roster.items_remove hm
      rw [if_pos hm, if_pos hm, image_set, hitems]
      congr 1
      split
      · rfl
      · rw [Option.map_some, hitems]
    · rw [if_neg hm, if_neg hm]

end Table

/-! ## Ledgers -/

/-- What a ledger says of an edition. -/
structure EditionEntry where
  creator : CreatorId
  price : Int
  supply : Int
  issued : Int
  destroyed : Int
deriving DecidableEq

namespace EditionEntry

/-- A token of the edition has been issued. -/
def issueOne (entry : EditionEntry) : EditionEntry := { entry with issued := entry.issued + 1 }

/-- A token of the edition has been destroyed. -/
def burnOne (entry : EditionEntry) : EditionEntry :=
  { entry with supply := entry.supply - 1, destroyed := entry.destroyed + 1 }

/-- The edition has another price. -/
def withPrice (price : Int) (entry : EditionEntry) : EditionEntry := { entry with price := price }

end EditionEntry

/-- What a ledger says of a token. -/
structure TokenEntry where
  edition : ItemId
  owner : AccountId
  price : Option Int
deriving DecidableEq

namespace TokenEntry

/-- The token has another owner. -/
def goTo (receiver : AccountId) (entry : TokenEntry) : TokenEntry := { entry with owner := receiver }

/-- The token has another price, or none. -/
def withPrice (price : Option Int) (entry : TokenEntry) : TokenEntry := { entry with price := price }

end TokenEntry

/-- What events tell of a market. -/
structure Ledger where
  /-- The owners of the creators. -/
  owners : Table CreatorId AccountId
  creatorsOf : Table AccountId (List CreatorId)
  editions : Table ItemId EditionEntry
  editionsOf : Table CreatorId (List ItemId)
  tokens : Table ItemId TokenEntry
  tokensOf : Table AccountId (List ItemId)
  lastEdition : Int
  lastToken : Int
  balances : Table AccountId Int
deriving DecidableEq

namespace Ledger

/-- A token of an edition has been issued to an account. -/
def issue (ledger : Ledger) (edition token : ItemId) (receiver : AccountId) : Ledger :=
  { ledger with
    editions := ledger.editions.change edition EditionEntry.issueOne
    tokens := ledger.tokens.put token ⟨edition, receiver, none⟩
    tokensOf := ledger.tokensOf.appended receiver token
    lastToken := token }

/-- A token has gone from one account to another. -/
def move (ledger : Ledger) (token : ItemId) (owner receiver : AccountId) : Ledger :=
  { ledger with
    tokens := ledger.tokens.change token (TokenEntry.goTo receiver)
    tokensOf := (ledger.tokensOf.appended receiver token).swappedOut owner token }

/-- A token has another price, or none. -/
def setPrice (ledger : Ledger) (token : ItemId) (price : Option Int) : Ledger :=
  { ledger with tokens := ledger.tokens.change token (TokenEntry.withPrice price) }

/-- What the receipt of a caller says has become of creators, editions and tokens. -/
def enter (ledger : Ledger) (caller : AccountId) : Receipt → Ledger
  | .creatorAdded creator =>
    { ledger with
      owners := ledger.owners.put creator caller
      creatorsOf := ledger.creatorsOf.appended caller creator }
  | .creatorDropped creator removed =>
    { ledger with
      owners := ledger.owners.set creator (if removed then none else some .nobody)
      creatorsOf := ledger.creatorsOf.swappedOut caller creator }
  | .minted creator edition price supply =>
    { ledger with
      editions := ledger.editions.put edition ⟨creator, price, supply, 0, 0⟩
      editionsOf := ledger.editionsOf.appended creator edition
      lastEdition := edition }
  | .gifted edition token receiver => ledger.issue edition token receiver
  | .launched edition token _ _ buyer => ledger.issue edition token buyer
  | .bought token _ seller buyer => (ledger.move token seller buyer).setPrice token none
  | .transferred token owner => ledger.move token owner owner
  | .listed token price | .priceSet token price => ledger.setPrice token (some price)
  | .unlisted token => ledger.setPrice token none
  | .launchPriceSet edition price =>
    { ledger with editions := ledger.editions.change edition (EditionEntry.withPrice price) }
  | .burnt token edition =>
    { ledger with
      editions := ledger.editions.change edition EditionEntry.burnOne
      tokens := ledger.tokens.drop token
      tokensOf := ledger.tokensOf.swappedOut caller token }

/-- The balances after a payment. Nothing moves if there is nothing to pay, or if an account pays itself. -/
def settle (balances : Table AccountId Int) : Option Payment → Table AccountId Int
  | none => balances
  | some ⟨payer, payee, amount⟩ =>
    if amount = 0 ∨ payer = payee then balances
    else
      let charged := balances.put payer ((balances[payer]?).getD 0 - amount)
      charged.put payee ((charged[payee]?).getD 0 + amount)

/-- The ledger after the event of a receipt. -/
def carry (ledger : Ledger) (caller : AccountId) (receipt : Receipt) : Ledger :=
  { ledger.enter caller receipt with balances := settle ledger.balances receipt.payment? }

end Ledger

/-! ## Events -/

/-- The part of a record that a ledger is told: all but when it was recorded and under which number. -/
def EventRecord.told (record : EventRecord) : Fields :=
  record.filter fun field => field.1 ≠ "timestamp" ∧ field.1 ≠ "sequence"

/-- The account in a field. -/
def Fields.account? (fields : Fields) (key : String) : Option AccountId :=
  (fields.get? key).bind AccountId.ofValue?

/-- The truth value in a field. -/
def Fields.truth? (fields : Fields) (key : String) : Option Bool :=
  match fields.get? key with
  | some (.bool b) => some b
  | _ => none

namespace Receipt

/-- The receipt of a method that fields give. -/
def ofFields? (fields : Fields) : Method → Option Receipt
  | .createAccount => do return creatorAdded (← fields.text? "creator_id")
  | .dropAccount => do
    return creatorDropped (← fields.text? "creator_id") (← fields.truth? "removed")
  | .mint => do
    return minted (← fields.text? "creator_id") (← fields.number? "launch_token_id")
      (← fields.number? "price") (← fields.number? "supply")
  | .launchGift => do
    return gifted (← fields.number? "launch_token_id") (← fields.number? "token_id")
      (← fields.account? "receiver")
  | .launchBuy => do
    return launched (← fields.number? "launch_token_id") (← fields.number? "token_id")
      (← fields.number? "price") (← fields.account? "seller") (← fields.account? "buyer")
  | .buy => do
    return bought (← fields.number? "token_id") (← fields.number? "price")
      (← fields.account? "seller") (← fields.account? "buyer")
  | .transfer => do return transferred (← fields.number? "token_id") (← fields.account? "owner")
  | .list => do return listed (← fields.number? "token_id") (← fields.number? "price")
  | .unlist => do return unlisted (← fields.number? "token_id")
  | .setLaunchPrice => do
    return launchPriceSet (← fields.number? "launch_token_id") (← fields.number? "price")
  | .setPrice => do return priceSet (← fields.number? "token_id") (← fields.number? "price")
  | .burn => do return burnt (← fields.number? "token_id") (← fields.number? "launch_token_id")

/-- The caller and the receipt that the fields of an event give. -/
def ofEvent? (fields : Fields) : Option (AccountId × Receipt) := do
  let method ← (fields.text? "method").bind Method.ofName?
  return (← fields.account? "caller", ← ofFields? fields method)

/-- Of the record of a completed action, the kind and the event's own fields are told. -/
theorem told_stamp (time : String) (number : Nat) (caller : AccountId) (receipt : Receipt) :
    EventRecord.told (.stamp time number receipt.kind.text (Market.eventFields caller receipt)) =
      ("event_type", .string receipt.kind.text) :: Market.eventFields caller receipt := by
  cases receipt <;> rfl

/-- A receipt is read back from the fields of its event. -/
theorem ofFields?_eventFields (kind : Value) (caller : AccountId) (receipt : Receipt) :
    ofFields? (("event_type", kind) :: Market.eventFields caller receipt) receipt.method =
      some receipt := by
  cases receipt with
  -- An account is read by the kind of its value.
  | gifted _ _ receiver => cases receiver <;> rfl
  | launched _ _ _ seller buyer => cases seller <;> cases buyer <;> rfl
  | bought _ _ seller buyer => cases seller <;> cases buyer <;> rfl
  | transferred _ owner => cases owner <;> rfl
  | _ => rfl

/-- The event of a completed action is read back from its record, without the time and the number. -/
theorem ofEvent?_told (time : String) (number : Nat) (caller : AccountId) (receipt : Receipt) :
    ofEvent? (EventRecord.told
        (.stamp time number receipt.kind.text (Market.eventFields caller receipt))) =
      some (caller, receipt) := by
  rw [told_stamp]
  have hmethod : (Fields.text? (("event_type", .string receipt.kind.text) ::
      Market.eventFields caller receipt) "method").bind Method.ofName? = some receipt.method :=
    Method.ofName?_name receipt.method
  have hcaller : Fields.account? (("event_type", .string receipt.kind.text) ::
      Market.eventFields caller receipt) "caller" = some caller :=
    AccountId.ofValue?_toValue caller
  -- The method and the caller are read first, and the method tells how to read the rest.
  unfold ofEvent?
  rw [hmethod, hcaller]
  simp [ofFields?_eventFields]

end Receipt

/-! ## Replay -/

namespace Ledger

/-- The ledger after one event, if it can be read. -/
def step? (ledger : Ledger) (event : Fields) : Option Ledger := do
  let (caller, receipt) ← Receipt.ofEvent? event
  return ledger.carry caller receipt

/-- The event of a completed action carries the ledger on by its receipt. -/
theorem step?_told (ledger : Ledger) (time : String) (number : Nat) (caller : AccountId)
    (receipt : Receipt) :
    ledger.step? (EventRecord.told
        (.stamp time number receipt.kind.text (Market.eventFields caller receipt))) =
      some (ledger.carry caller receipt) := by
  unfold step?
  rw [Receipt.ofEvent?_told]
  rfl

/-- The ledger after a series of events. -/
def replay? (ledger : Ledger) (events : List Fields) : Option Ledger := events.foldlM step? ledger

/-- The last event is replayed on what those before it have left. -/
theorem replay?_concat (ledger : Ledger) (events : List Fields) (event : Fields) :
    ledger.replay? (events ++ [event]) =
      (ledger.replay? events).bind fun middle => middle.step? event := by
  unfold replay?
  rw [List.foldlM_append]
  simp only [List.foldlM_cons, List.foldlM_nil, bind_pure]
  rfl

end Ledger

end EditionMarket
