import EditionMarket.Proofs.Argument
import EditionMarket.Proofs.Market.Authority
import EditionMarket.Proofs.Market.Reachable

/-!
# When a mint is done, and what it leaves

To mint an edition takes three arguments, which may be any values. This file says which values they have to
be, what else a mint depends on, in terms of records and counters alone, and what exactly it leaves.

Main statement: `mint_is_done_exactly_if`.
-/

namespace EditionMarket

/-! ## Orders -/

/-- What an edition is to be minted from. -/
structure Order where
  creator : CreatorId
  price : Int
  name : String
  mimeType : String
  uri : String
  supply : Int
deriving DecidableEq

namespace Order

/-- The arguments of a mint spell the order, and all of it is within its limits. The description may have
other fields as well. -/
structure SpeltBy (order : Order) (creator price description : Value) : Prop where
  creator : creator = .string order.creator
  creator_bytes : 1 ≤ order.creator.utf8ByteSize ∧ order.creator.utf8ByteSize ≤ 63
  price : price = .int order.price
  price_nonneg : 0 ≤ order.price
  description : ∃ fields : Fields, description = .object fields ∧
    fields.get? "name" = some (.string order.name) ∧
      fields.get? "mime_type" = some (.string order.mimeType) ∧
        fields.get? "metadata_uri" = some (.string order.uri) ∧
          fields.get? "supply" = some (.int order.supply)
  name_bytes : order.name.utf8ByteSize ≤ 255
  mimeType_bytes : order.mimeType.utf8ByteSize ≤ 255
  uri_bytes : order.uri.utf8ByteSize ≤ 2048
  supply_range : 1 ≤ order.supply ∧ order.supply ≤ Int.pow 2 32 - 1

/-- The order for given metadata. -/
def of (creator : CreatorId) (price : Int) (metadata : Metadata) : Order where
  creator := creator
  price := price
  name := metadata.name
  mimeType := metadata.mimeType
  uri := metadata.uri
  supply := metadata.supply

/-- An order is spelt by what passes the checks, if there is any supply. -/
theorem speltBy_iff {order : Order} {creator price description : Value} :
    order.SpeltBy creator price description ↔
      ∃ metadata : Metadata, order = .of order.creator order.price metadata ∧
        Argument.creatorId creator = .ok order.creator ∧
          Argument.amount "price" price = .ok order.price ∧
            Metadata.ofValue description = .ok metadata ∧ metadata.supply ≠ 0 := by
  rw [Argument.creatorId_eq_ok_iff, Argument.amount_eq_ok_iff]
  simp only [Metadata.ofValue_eq_ok_iff]
  constructor
  · intro h
    obtain ⟨fields, hfields, hname, hmimeType, huri, hsupply⟩ := h.description
    obtain ⟨hpos, hmost⟩ := h.supply_range
    have hnat : (order.supply.toNat : Int) = order.supply := Int.toNat_of_nonneg (by omega)
    let metadata : Metadata :=
      { name := order.name
        mimeType := order.mimeType
        uri := order.uri
        supply := order.supply.toNat
        name_le := h.name_bytes
        mimeType_le := h.mimeType_bytes
        uri_le := h.uri_bytes
        supply_le := Int.toNat_le.2 hmost }
    have horder : order = .of order.creator order.price metadata := by
      unfold of
      rw [hnat]
    have hheld : metadata.HeldBy fields :=
      { name := hname, mimeType := hmimeType, uri := huri, supply := hnat ▸ hsupply }
    have hsome : metadata.supply ≠ 0 := by
      show order.supply.toNat ≠ 0
      omega
    exact ⟨metadata, horder, ⟨h.creator, h.creator_bytes⟩, ⟨h.price, h.price_nonneg⟩,
      ⟨fields, hfields, hheld⟩, hsome⟩
  · rintro ⟨metadata, horder, ⟨hcreator, hbytes⟩, ⟨hprice, hnonneg⟩, ⟨fields, hfields, hheld⟩, hsupply⟩
    rw [horder]
    exact
      { creator := hcreator
        creator_bytes := hbytes
        price := hprice
        price_nonneg := hnonneg
        description := ⟨fields, hfields, hheld.name, hheld.mimeType, hheld.uri, hheld.supply⟩
        name_bytes := metadata.name_le
        mimeType_bytes := metadata.mimeType_le
        uri_bytes := metadata.uri_le
        supply_range := ⟨Int.natCast_pos.2 (Nat.pos_of_ne_zero hsupply), Int.ofNat_le.2 metadata.supply_le⟩ }

end Order

/-! ## Mints -/

namespace Market

variable {σ : Type} [Currency σ] {market : Market σ} {caller : AccountId}
  {creator price description : Value} {receipt : Receipt}

/-- The caller can have the order minted: it owns the creator, which has minted fewer editions than it may,
and the numbers are not used up. -/
structure MayMint (market : Market σ) (caller : AccountId) (order : Order) : Prop where
  owner : market.store.contents.ownerOf? order.creator = some caller
  number : market.store.contents.lastEdition < market.store.ceiling
  room : market.store.contents.editionCount order.creator < market.store.limits.editionsPerCreator

/-- The order has been minted under the next number, which was free: the edition is at the end of the roster
of its creator, and the counter has counted it. -/
structure Minted (before after : Market σ) (caller : AccountId) (order : Order) : Prop where
  free : before.store.contents.editions[before.store.contents.lastEdition + 1]? = none
  edition : after.store.contents.editions[before.store.contents.lastEdition + 1]? =
    some {
      id := before.store.contents.lastEdition + 1
      creator := order.creator
      name := order.name
      price := order.price
      mimeType := order.mimeType
      uri := order.uri
      supply := order.supply
      issued := 0
      destroyed := 0 }
  roster : before.store.contents.editionsOf.Gained after.store.contents.editionsOf
    before.store.limits.editionsPerCreator order.creator (before.store.contents.lastEdition + 1)
  counter : after.store.contents.lastEdition = before.store.contents.lastEdition + 1
  funds : after.funds = before.funds
  rest : ChangesOnly
    [.edition (before.store.contents.lastEdition + 1), .editionsOf order.creator, .lastEdition]
    "TokenCreated"
    [("method", .string "mint"), ("caller", caller.toValue), ("creator_id", .string order.creator),
      ("launch_token_id", .int (before.store.contents.lastEdition + 1)), ("price", .int order.price),
      ("supply", .int order.supply)] before after

theorem mint_done_iff (h : market.Reachable) (hcaller : caller ≠ .nobody) :
    (∃ receipt, market.answer ⟨caller, .mint creator price (.raw description)⟩ = .ok (.done receipt)) ↔
      ∃ order : Order, order.SpeltBy creator price description ∧ market.MayMint caller order := by
  simp only [answer_eq_done_iff h.idle, Order.speltBy_iff]
  constructor
  · rintro ⟨_, _, _, hdoes, -⟩
    cases hdoes with
    | @mint _ _ _ id amount metadata _ hid hamount hmetadata _ hrecord howner hsupply hnumber hroom =>
      exact ⟨.of id amount metadata, ⟨metadata, rfl, hid, hamount, hmetadata, hsupply⟩,
        { owner := Contents.ownerOf?_eq_some_iff.2 ⟨_, hrecord, howner⟩
          number := hnumber
          room := (h.sound.hasRoom_editionsOf_iff id).1 hroom }⟩
  · rintro ⟨order, ⟨metadata, -, hid, hamount, hmetadata, hsupply⟩, hmay⟩
    obtain ⟨record, hrecord, howner⟩ := Contents.ownerOf?_eq_some_iff.1 hmay.owner
    have hroom := (h.sound.hasRoom_editionsOf_iff order.creator).2 hmay.room
    exact ⟨_, _, _, .mint hid hamount hmetadata hcaller hrecord howner hsupply hmay.number hroom, rfl⟩

theorem minted_of_done (h : market.Reachable)
    (hdone : market.answer ⟨caller, .mint creator price (.raw description)⟩ = .ok (.done receipt)) :
    ∃ order : Order, order.SpeltBy creator price description ∧
      Minted market (market.after ⟨caller, .mint creator price (.raw description)⟩) caller order := by
  obtain ⟨contents, paid, hdoes, hsettles, hafter⟩ := after_of_done h.idle hdone
  cases hdoes with
  | @mint _ _ _ id amount metadata _ hid hamount hmetadata _ _ _ hsupply _ hroom =>
    rw [hafter]
    refine ⟨.of id amount metadata, Order.speltBy_iff.2 ⟨metadata, rfl, hid, hamount, hmetadata, hsupply⟩,
      ?_⟩
    constructor
    case free => exact h.sound.next_edition
    case edition =>
      show (market.store.contents.editions.put _ _)[_]? = _
      rw [Table.getElem?_put, if_pos rfl]
      rfl
    case roster => exact h.sound.editionsOf.gained_enrolled hroom _
    case counter => rfl
    case funds => exact hsettles
    case rest =>
      exact .of_done ⟨caller, .mint creator price (.raw description)⟩ (.minted id _ amount metadata.supply)
        h.idle (Contents.sameBut_minted _ _ id amount metadata)

/-- **An edition is minted exactly if it may be.** In a market that has come about in whatever way, a mint by
an account, with whatever values for its arguments, succeeds exactly if they spell an order within its limits,
the caller owns the creator of the order, the counter is below the ceiling, and the records name the creator
for fewer editions than it may have minted. Then the edition of the order is there under the next number, with
nothing issued or destroyed, it has been counted and stands on the roster of the creator; one event tells of
it, and nothing else has changed. -/
theorem mint_is_done_exactly_if (h : market.Reachable) (hcaller : caller ≠ .nobody)
    (creator price description : Value) :
    let call : Call := ⟨caller, .mint creator price (.raw description)⟩
    ((∃ receipt, market.answer call = .ok (.done receipt)) ↔
        ∃ order : Order, order.SpeltBy creator price description ∧ market.MayMint caller order) ∧
      ∀ receipt, market.answer call = .ok (.done receipt) →
        ∃ order : Order, order.SpeltBy creator price description ∧
          Minted market (market.after call) caller order :=
  ⟨mint_done_iff h hcaller, fun _ => minted_of_done h⟩

/-- Among the trades an account mints an edition of two tokens at 30. -/
theorem mint_is_done_exactly_if_trades :
    let market := funded.run (trades.take 1)
    let description : Value := .object [("name", .string "Dawn"), ("mime_type", .string "image/png"),
      ("metadata_uri", .string "ipfs://dawn"), ("supply", .int 2)]
    market.Reachable ∧ AccountId.name "ann" ≠ .nobody ∧
      ∃ order : Order, order.SpeltBy (.string "studio") (.int 30) description ∧
        Minted market
          (market.after ⟨.name "ann", .mint (.string "studio") (.int 30) (.raw description)⟩)
          (.name "ann") order := by
  intro market description
  have h : market.Reachable :=
    (Reachable.opened default 10 (Int.le_refl 0) (Int.le_refl 0) _ _ _).run (trades.take 1)
  have hcaller : AccountId.name "ann" ≠ .nobody := by decide
  have hspelt : (⟨"studio", 30, "Dawn", "image/png", "ipfs://dawn", 2⟩ : Order).SpeltBy
      (.string "studio") (.int 30) description :=
    { creator := rfl
      creator_bytes := by decide
      price := rfl
      price_nonneg := by decide
      description := ⟨_, rfl, by decide⟩
      name_bytes := by decide
      mimeType_bytes := by decide
      uri_bytes := by decide
      supply_range := by decide }
  have hmay : market.MayMint (.name "ann") ⟨"studio", 30, "Dawn", "image/png", "ipfs://dawn", 2⟩ :=
    { owner := by decide +kernel
      number := by decide +kernel
      room := by decide +kernel }
  obtain ⟨hiff, hminted⟩ := mint_is_done_exactly_if h hcaller (.string "studio") (.int 30) description
  obtain ⟨receipt, hdone⟩ := hiff.2 ⟨_, hspelt, hmay⟩
  exact ⟨h, hcaller, hminted receipt hdone⟩

end Market

end EditionMarket
