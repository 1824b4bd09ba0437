import EditionMarket.Proofs.Market.Payment
import EditionMarket.Proofs.Market.Recorded
import EditionMarket.Proofs.Store.Effect

/-!
# The rules of the market

When an action is completed, and what it does then. There is one rule for each action. It lists the
conditions under which the action is completed, says what the receipt is, and gives the effect on the
contents of the store. Sales have to be paid for as well.

Main statement: `perform_eq_ok_iff`, an action is completed exactly as its rule says.
-/

namespace EditionMarket

/-! ## Rules -/

/-- Rules for the contents of a store: the caller's action is completed with the receipt and leaves other
contents. -/
inductive Contents.Does (limits : Limits) (ceiling : Int) (contents : Contents) (caller : AccountId) :
    Action → Receipt → Contents → Prop
  | createAccount {creator : Value} {id : CreatorId}
      (hid : Argument.creatorId creator = .ok id)
      (hfree : contents.creators[id]? = none)
      (hroom : contents.creatorsOf.HasRoom limits.creatorsPerAccount caller) :
      Does limits ceiling contents caller (.createAccount creator) (.creatorAdded id)
        (contents.registered limits id caller)
  | dropAccount {creator : Value} {id : CreatorId} {record : Creator}
      (hid : Argument.creatorId creator = .ok id)
      (hcaller : caller ≠ .nobody)
      (hrecord : contents.creators[id]? = some record)
      (howner : record.owner = caller) :
      Does limits ceiling contents caller (.dropAccount creator)
        (.creatorDropped id (decide (contents.editionsOf.itemsAt id = [])))
        (contents.released id caller
          (if contents.editionsOf.itemsAt id = [] then none else some record.disconnect))
  | mint {creator price : Value} {description : Description} {id : CreatorId} {amount : Int}
      {metadata : Metadata} {record : Creator}
      (hid : Argument.creatorId creator = .ok id)
      (hamount : Argument.amount "price" price = .ok amount)
      (hmetadata : description.read = .ok metadata)
      (hcaller : caller ≠ .nobody)
      (hrecord : contents.creators[id]? = some record)
      (howner : record.owner = caller)
      (hsupply : metadata.supply ≠ 0)
      (hcount : contents.lastEdition < ceiling)
      (hroom : contents.editionsOf.HasRoom limits.editionsPerCreator id) :
      Does limits ceiling contents caller (.mint creator price description)
        (.minted id (contents.lastEdition + 1) amount metadata.supply)
        (contents.minted limits id amount metadata)
  | launchGift {creator edition receiver : Value} {creatorId : CreatorId} {id : ItemId}
      {account : AccountId} {record : Creator} {source : Edition}
      (hcreator : Argument.creatorId creator = .ok creatorId)
      (hid : Argument.itemId "launch_token_id" edition = .ok id)
      (hreceiver : Argument.account "receiver" receiver = .ok account)
      (hcaller : caller ≠ .nobody)
      (hrecord : contents.creators[creatorId]? = some record)
      (howner : record.owner = caller)
      (hsource : contents.editions[id]? = some source)
      (hmade : source.creator = creatorId)
      (hleft : source.isSoldOut = false)
      (hcount : contents.lastToken < ceiling)
      (hroom : contents.tokensOf.HasRoom limits.tokensPerAccount account) :
      Does limits ceiling contents caller (.launchGift creator edition receiver)
        (.gifted id (contents.lastToken + 1) account) (contents.issued limits id source account)
  | launchBuy {edition bid : Value} {id : ItemId} {amount : Int} {source : Edition}
      {record : Creator}
      (hid : Argument.itemId "launch_token_id" edition = .ok id)
      (hbid : Argument.amount "bid_price" bid = .ok amount)
      (hsource : contents.editions[id]? = some source)
      (hrecord : contents.creators[source.creator]? = some record)
      (howner : record.owner ≠ .nobody)
      (hprice : source.price ≤ amount)
      (hleft : source.isSoldOut = false)
      (hcount : contents.lastToken < ceiling)
      (hroom : contents.tokensOf.HasRoom limits.tokensPerAccount caller) :
      Does limits ceiling contents caller (.launchBuy edition bid)
        (.launched id (contents.lastToken + 1) amount record.owner caller)
        (contents.issued limits id source caller)
  | buy {token bid : Value} {id : ItemId} {amount price : Int} {record : Token}
      (hid : Argument.itemId "token_id" token = .ok id)
      (hbid : Argument.amount "bid_price" bid = .ok amount)
      (hrecord : contents.tokens[id]? = some record)
      (hlisted : record.price = some price)
      (howner : record.owner ≠ caller)
      (hprice : price ≤ amount)
      (hroom : contents.tokensOf.HasRoom limits.tokensPerAccount caller) :
      Does limits ceiling contents caller (.buy token bid) (.bought id amount record.owner caller)
        ((contents.moved limits id record record.owner caller).priced id
          { record with owner := caller } none)
  | transfer {token : Value} {id : ItemId} {record : Token}
      (hid : Argument.itemId "token_id" token = .ok id)
      (hrecord : contents.tokens[id]? = some record)
      (howner : record.owner = caller)
      (hroom : contents.tokensOf.HasRoom limits.tokensPerAccount caller) :
      Does limits ceiling contents caller (.transfer token) (.transferred id caller)
        (contents.moved limits id record caller caller)
  | list {token price : Value} {id : ItemId} {amount : Int} {record : Token}
      (hid : Argument.itemId "token_id" token = .ok id)
      (hamount : Argument.amount "price" price = .ok amount)
      (hrecord : contents.tokens[id]? = some record)
      (howner : record.owner = caller)
      (hlisted : record.price = none) :
      Does limits ceiling contents caller (.list token price) (.listed id amount)
        (contents.priced id record (some amount))
  | unlist {token : Value} {id : ItemId} {record : Token}
      (hid : Argument.itemId "token_id" token = .ok id)
      (hrecord : contents.tokens[id]? = some record)
      (howner : record.owner = caller)
      (hlisted : record.price ≠ none) :
      Does limits ceiling contents caller (.unlist token) (.unlisted id)
        (contents.priced id record none)
  | setLaunchPrice {creator edition price : Value} {creatorId : CreatorId} {id : ItemId}
      {amount : Int} {record : Creator} {source : Edition}
      (hcreator : Argument.creatorId creator = .ok creatorId)
      (hid : Argument.itemId "launch_token_id" edition = .ok id)
      (hamount : Argument.amount "price" price = .ok amount)
      (hcaller : caller ≠ .nobody)
      (hrecord : contents.creators[creatorId]? = some record)
      (howner : record.owner = caller)
      (hsource : contents.editions[id]? = some source)
      (hmade : source.creator = creatorId) :
      Does limits ceiling contents caller (.setLaunchPrice creator edition price)
        (.launchPriceSet id amount) (contents.launchPriced id source amount)
  | setPrice {token price : Value} {id : ItemId} {amount : Int} {record : Token}
      (hid : Argument.itemId "token_id" token = .ok id)
      (hamount : Argument.amount "price" price = .ok amount)
      (hrecord : contents.tokens[id]? = some record)
      (howner : record.owner = caller)
      (hlisted : record.price ≠ none) :
      Does limits ceiling contents caller (.setPrice token price) (.priceSet id amount)
        (contents.priced id record (some amount))
  | burn {token : Value} {id : ItemId} {record : Token} {source : Edition}
      (hid : Argument.itemId "token_id" token = .ok id)
      (hrecord : contents.tokens[id]? = some record)
      (howner : record.owner = caller)
      (hsource : contents.editions[record.edition]? = some source) :
      Does limits ceiling contents caller (.burn token) (.burnt id record.edition)
        (contents.burned id record source)

/-- A payment: who pays whom how much. -/
structure Payment where
  payer : AccountId
  payee : AccountId
  amount : Int
deriving DecidableEq

/-- The payment that a receipt is about, if it is about a sale. -/
def Receipt.payment? : Receipt → Option Payment
  | launched _ _ price seller buyer => some ⟨buyer, seller, price⟩
  | bought _ price seller buyer => some ⟨buyer, seller, price⟩
  | _ => none

/-- Rules for the funds: where there is a payment, the currency says that the payer can afford it and that
it was made, and the funds are what is left after both. -/
def Currency.Settles {σ : Type} [Currency σ] (before after : σ) : Option Payment → Prop
  | none => after = before
  | some payment =>
    ((Currency.canAfford payment.payer payment.amount).run before).1 = true ∧
      ((Currency.pay payment.payer payment.payee payment.amount).run
          ((Currency.canAfford payment.payer payment.amount).run before).2) = (true, after)

namespace Market

variable {σ α : Type} {limits : Limits} {ceiling : Int} {contents : Contents} {final : Store}
  {u : Unit} {caller : AccountId} {receipt : Receipt}

/-! ## Checks -/

/-- A token is listed by the caller if there is a record that says so. -/
theorem ensureListed_eq_ok_iff {token : ItemId} :
    ensureListed caller token (.idle limits ceiling contents) = .ok u final ↔
      (∃ record, contents.tokens[token]? = some record ∧ record.owner = caller ∧
        record.price ≠ none) ∧ final = .idle limits ceiling contents := by
  unfold ensureListed
  simp only [Program.bind_eq_ok_iff, Holdings.require_eq_ok_iff, and_assoc, exists_and_left,
    exists_eq_left]
  constructor
  · rintro ⟨record, hrecord, _, _, howner, h⟩
    obtain ⟨ho, rfl⟩ := (Holdings.ensureOwner_eq_ok_iff hrecord).1 howner
    obtain ⟨hp, rfl⟩ := StoreM.refuse_or_pure_eq_ok_iff.1 h
    exact ⟨⟨record, hrecord, ho, hp⟩, rfl⟩
  · rintro ⟨⟨record, hrecord, ho, hp⟩, rfl⟩
    exact ⟨record, hrecord, (), _, (Holdings.ensureOwner_eq_ok_iff hrecord).2 ⟨ho, rfl⟩,
      StoreM.refuse_or_pure_eq_ok_iff.2 ⟨hp, rfl⟩⟩

/-- The caller controls an edition if the creator that has minted it is the caller's. -/
theorem ensureMinter_eq_ok_iff {creator : CreatorId} {edition : ItemId} :
    ensureMinter caller creator edition (.idle limits ceiling contents) = .ok u final ↔
      caller ≠ .nobody ∧
        (∃ record, contents.creators[creator]? = some record ∧ record.owner = caller) ∧
          (∃ source, contents.editions[edition]? = some source ∧ source.creator = creator) ∧
            final = .idle limits ceiling contents := by
  unfold ensureMinter
  rw [Program.discard_eq_bind]
  simp only [Program.bind_eq_ok_iff, Issuance.require_eq_ok_iff, Program.pure_eq_ok_iff]
  constructor
  · rintro ⟨_, _, ⟨_, _, ⟨-, rfl⟩, -, rfl⟩, _, _, howner, hcreator⟩
    obtain ⟨hcaller, hrecord, rfl⟩ := Registry.ensureOwner_eq_ok_iff.1 howner
    obtain ⟨hmade, rfl⟩ := Issuance.ensureCreator_eq_ok_iff.1 hcreator
    exact ⟨hcaller, hrecord, hmade, rfl⟩
  · rintro ⟨hcaller, hrecord, ⟨source, hsource, hmade⟩, rfl⟩
    exact ⟨(), _, ⟨source, _, ⟨hsource, rfl⟩, trivial, rfl⟩, (), _,
      Registry.ensureOwner_eq_ok_iff.2 ⟨hcaller, hrecord, rfl⟩,
      Issuance.ensureCreator_eq_ok_iff.2 ⟨⟨source, hsource, hmade⟩, rfl⟩⟩

/-! ## Actions without a payment -/

theorem createAccount_eq_ok_iff {creator : Value} :
    createAccount caller creator (.idle limits ceiling contents) = .ok receipt final ↔
      ∃ after, contents.Does limits ceiling caller (.createAccount creator) receipt after ∧
        final = .idle limits ceiling after := by
  unfold createAccount
  simp only [Program.bind_eq_ok_iff, Registry.register_eq_ok_iff, Program.pure_eq_ok_iff]
  constructor
  · rintro ⟨_, _, ⟨id, hid, hfree, hroom, rfl, rfl⟩, rfl, rfl⟩
    exact ⟨_, .createAccount hid hfree hroom, rfl⟩
  · rintro ⟨_, h, rfl⟩
    cases h with
    | createAccount hid hfree hroom => exact ⟨_, _, ⟨_, hid, hfree, hroom, rfl, rfl⟩, rfl, rfl⟩

theorem dropAccount_eq_ok_iff {creator : Value} :
    dropAccount caller creator (.idle limits ceiling contents) = .ok receipt final ↔
      ∃ after, contents.Does limits ceiling caller (.dropAccount creator) receipt after ∧
        final = .idle limits ceiling after := by
  unfold dropAccount
  simp only [Program.bind_eq_ok_iff, StoreM.ofExcept_eq_ok_iff, Program.pure_eq_ok_iff]
  constructor
  · rintro ⟨id, _, ⟨hid, rfl⟩, _, _, h, rfl, rfl⟩
    obtain ⟨hcaller, record, hrecord, howner, rfl, rfl⟩ := Registry.release_eq_ok_iff.1 h
    exact ⟨_, .dropAccount hid hcaller hrecord howner, rfl⟩
  · rintro ⟨_, h, rfl⟩
    cases h with
    | dropAccount hid hcaller hrecord howner =>
      exact ⟨_, _, ⟨hid, rfl⟩, _, _,
        Registry.release_eq_ok_iff.2 ⟨hcaller, _, hrecord, howner, rfl, rfl⟩, rfl, rfl⟩

theorem mint_eq_ok_iff {creator price : Value} {description : Description} :
    mint caller creator price description (.idle limits ceiling contents) = .ok receipt final ↔
      ∃ after, contents.Does limits ceiling caller (.mint creator price description) receipt after ∧
        final = .idle limits ceiling after := by
  unfold mint
  simp only [Program.bind_eq_ok_iff, StoreM.ofExcept_eq_ok_iff, Program.pure_eq_ok_iff]
  constructor
  · rintro ⟨id, _, ⟨hid, rfl⟩, amount, _, ⟨hamount, rfl⟩, metadata, _, ⟨hmetadata, rfl⟩, _, _,
      howner, _, _, hmint, rfl, rfl⟩
    obtain ⟨hcaller, ⟨record, hrecord, ho⟩, rfl⟩ := Registry.ensureOwner_eq_ok_iff.1 howner
    obtain ⟨hsupply, hcount, hroom, rfl, rfl⟩ := Issuance.mint_eq_ok_iff.1 hmint
    exact ⟨_, .mint hid hamount hmetadata hcaller hrecord ho hsupply hcount hroom, rfl⟩
  · rintro ⟨_, h, rfl⟩
    cases h with
    | mint hid hamount hmetadata hcaller hrecord howner hsupply hcount hroom =>
      exact ⟨_, _, ⟨hid, rfl⟩, _, _, ⟨hamount, rfl⟩, _, _, ⟨hmetadata, rfl⟩, (), _,
        Registry.ensureOwner_eq_ok_iff.2 ⟨hcaller, ⟨_, hrecord, howner⟩, rfl⟩, _, _,
        Issuance.mint_eq_ok_iff.2 ⟨hsupply, hcount, hroom, rfl, rfl⟩, rfl, rfl⟩

theorem launchGift_eq_ok_iff {creator edition receiver : Value} :
    launchGift caller creator edition receiver (.idle limits ceiling contents) =
        .ok receipt final ↔
      ∃ after,
        contents.Does limits ceiling caller (.launchGift creator edition receiver) receipt after ∧
          final = .idle limits ceiling after := by
  unfold launchGift
  simp only [Program.bind_eq_ok_iff, StoreM.ofExcept_eq_ok_iff, Program.pure_eq_ok_iff]
  constructor
  · rintro ⟨creatorId, _, ⟨hcreator, rfl⟩, id, _, ⟨hid, rfl⟩, account, _, ⟨hreceiver, rfl⟩, _, _,
      hminter, _, _, hissue, rfl, rfl⟩
    obtain ⟨hcaller, ⟨record, hrecord, howner⟩, ⟨source, hsource, hmade⟩, rfl⟩ :=
      ensureMinter_eq_ok_iff.1 hminter
    obtain ⟨source', hsource', hleft, hcount, hroom, rfl, rfl⟩ := Issuance.issue_eq_ok_iff.1 hissue
    rw [hsource] at hsource'
    cases hsource'
    exact ⟨_, .launchGift hcreator hid hreceiver hcaller hrecord howner hsource hmade hleft hcount
      hroom, rfl⟩
  · rintro ⟨_, h, rfl⟩
    cases h with
    | launchGift hcreator hid hreceiver hcaller hrecord howner hsource hmade hleft hcount hroom =>
      exact ⟨_, _, ⟨hcreator, rfl⟩, _, _, ⟨hid, rfl⟩, _, _, ⟨hreceiver, rfl⟩, (), _,
        ensureMinter_eq_ok_iff.2 ⟨hcaller, ⟨_, hrecord, howner⟩, ⟨_, hsource, hmade⟩, rfl⟩, _, _,
        Issuance.issue_eq_ok_iff.2 ⟨_, hsource, hleft, hcount, hroom, rfl, rfl⟩, rfl, rfl⟩

theorem transfer_eq_ok_iff {token : Value} :
    transfer caller token (.idle limits ceiling contents) = .ok receipt final ↔
      ∃ after, contents.Does limits ceiling caller (.transfer token) receipt after ∧
        final = .idle limits ceiling after := by
  unfold transfer
  simp only [Program.discard_eq_bind, Program.bind_eq_ok_iff, StoreM.ofExcept_eq_ok_iff,
    Program.pure_eq_ok_iff]
  constructor
  · rintro ⟨id, _, ⟨hid, rfl⟩, _, _, ⟨record, _, hrequire, -, rfl⟩, _, _, howner, _, _, hmove, rfl,
      rfl⟩
    obtain ⟨hrecord, rfl⟩ := Holdings.require_eq_ok_iff.1 hrequire
    obtain ⟨ho, rfl⟩ := (Holdings.ensureOwner_eq_ok_iff hrecord).1 howner
    obtain ⟨record', hrecord', hroom, rfl⟩ := Holdings.transfer_eq_ok_iff.1 hmove
    rw [hrecord] at hrecord'
    cases hrecord'
    exact ⟨_, .transfer hid hrecord ho hroom, rfl⟩
  · rintro ⟨_, h, rfl⟩
    cases h with
    | transfer hid hrecord howner hroom =>
      exact ⟨_, _, ⟨hid, rfl⟩, (), _,
        ⟨_, _, Holdings.require_eq_ok_iff.2 ⟨hrecord, rfl⟩, trivial, rfl⟩, (), _,
        (Holdings.ensureOwner_eq_ok_iff hrecord).2 ⟨howner, rfl⟩, (), _,
        Holdings.transfer_eq_ok_iff.2 ⟨_, hrecord, hroom, rfl⟩, rfl, rfl⟩

theorem list_eq_ok_iff {token price : Value} :
    list caller token price (.idle limits ceiling contents) = .ok receipt final ↔
      ∃ after, contents.Does limits ceiling caller (.list token price) receipt after ∧
        final = .idle limits ceiling after := by
  unfold list
  simp only [Program.bind_eq_ok_iff, StoreM.ofExcept_eq_ok_iff]
  constructor
  · rintro ⟨id, _, ⟨hid, rfl⟩, amount, _, ⟨hamount, rfl⟩, record, _, hrequire, _, _, howner, h⟩
    obtain ⟨hrecord, rfl⟩ := Holdings.require_eq_ok_iff.1 hrequire
    obtain ⟨ho, rfl⟩ := (Holdings.ensureOwner_eq_ok_iff hrecord).1 howner
    cases hlisted : record.price with
    | some listed =>
      rw [hlisted] at h
      exact absurd h (StoreM.refuse_ne_ok _ _)
    | none =>
      rw [hlisted] at h
      obtain ⟨_, _, hprice, h⟩ := Program.bind_eq_ok_iff.1 h
      obtain ⟨record', hrecord', rfl⟩ := Holdings.setPrice_eq_ok_iff.1 hprice
      rw [hrecord] at hrecord'
      cases hrecord'
      obtain ⟨rfl, rfl⟩ := Program.pure_eq_ok_iff.1 h
      exact ⟨_, .list hid hamount hrecord ho hlisted, rfl⟩
  · rintro ⟨_, h, rfl⟩
    cases h with
    | list hid hamount hrecord howner hlisted =>
      refine ⟨_, _, ⟨hid, rfl⟩, _, _, ⟨hamount, rfl⟩, _, _,
        Holdings.require_eq_ok_iff.2 ⟨hrecord, rfl⟩, (), _,
        (Holdings.ensureOwner_eq_ok_iff hrecord).2 ⟨howner, rfl⟩, ?_⟩
      rw [hlisted]
      exact Program.bind_eq_ok_iff.2 ⟨(), _,
        Holdings.setPrice_eq_ok_iff.2 ⟨_, hrecord, rfl⟩, rfl⟩

theorem unlist_eq_ok_iff {token : Value} :
    unlist caller token (.idle limits ceiling contents) = .ok receipt final ↔
      ∃ after, contents.Does limits ceiling caller (.unlist token) receipt after ∧
        final = .idle limits ceiling after := by
  unfold unlist
  simp only [Program.bind_eq_ok_iff, StoreM.ofExcept_eq_ok_iff, Program.pure_eq_ok_iff]
  constructor
  · rintro ⟨id, _, ⟨hid, rfl⟩, _, _, hlist, _, _, hprice, rfl, rfl⟩
    obtain ⟨⟨record, hrecord, howner, hlisted⟩, rfl⟩ := ensureListed_eq_ok_iff.1 hlist
    obtain ⟨record', hrecord', rfl⟩ := Holdings.setPrice_eq_ok_iff.1 hprice
    rw [hrecord] at hrecord'
    cases hrecord'
    exact ⟨_, .unlist hid hrecord howner hlisted, rfl⟩
  · rintro ⟨_, h, rfl⟩
    cases h with
    | unlist hid hrecord howner hlisted =>
      exact ⟨_, _, ⟨hid, rfl⟩, (), _,
        ensureListed_eq_ok_iff.2 ⟨⟨_, hrecord, howner, hlisted⟩, rfl⟩, (), _,
        Holdings.setPrice_eq_ok_iff.2 ⟨_, hrecord, rfl⟩, rfl, rfl⟩

theorem setLaunchPrice_eq_ok_iff {creator edition price : Value} :
    setLaunchPrice caller creator edition price (.idle limits ceiling contents) =
        .ok receipt final ↔
      ∃ after,
        contents.Does limits ceiling caller (.setLaunchPrice creator edition price) receipt after ∧
          final = .idle limits ceiling after := by
  unfold setLaunchPrice
  simp only [Program.bind_eq_ok_iff, StoreM.ofExcept_eq_ok_iff, Program.pure_eq_ok_iff]
  constructor
  · rintro ⟨creatorId, _, ⟨hcreator, rfl⟩, id, _, ⟨hid, rfl⟩, amount, _, ⟨hamount, rfl⟩, _, _,
      hminter, _, _, hprice, rfl, rfl⟩
    obtain ⟨hcaller, ⟨record, hrecord, howner⟩, ⟨source, hsource, hmade⟩, rfl⟩ :=
      ensureMinter_eq_ok_iff.1 hminter
    obtain ⟨source', hsource', rfl⟩ := Issuance.setPrice_eq_ok_iff.1 hprice
    rw [hsource] at hsource'
    cases hsource'
    exact ⟨_, .setLaunchPrice hcreator hid hamount hcaller hrecord howner hsource hmade, rfl⟩
  · rintro ⟨_, h, rfl⟩
    cases h with
    | setLaunchPrice hcreator hid hamount hcaller hrecord howner hsource hmade =>
      exact ⟨_, _, ⟨hcreator, rfl⟩, _, _, ⟨hid, rfl⟩, _, _, ⟨hamount, rfl⟩, (), _,
        ensureMinter_eq_ok_iff.2 ⟨hcaller, ⟨_, hrecord, howner⟩, ⟨_, hsource, hmade⟩, rfl⟩, (), _,
        Issuance.setPrice_eq_ok_iff.2 ⟨_, hsource, rfl⟩, rfl, rfl⟩

theorem setPrice_eq_ok_iff {token price : Value} :
    setPrice caller token price (.idle limits ceiling contents) = .ok receipt final ↔
      ∃ after, contents.Does limits ceiling caller (.setPrice token price) receipt after ∧
        final = .idle limits ceiling after := by
  unfold setPrice
  simp only [Program.bind_eq_ok_iff, StoreM.ofExcept_eq_ok_iff, Program.pure_eq_ok_iff]
  constructor
  · rintro ⟨id, _, ⟨hid, rfl⟩, amount, _, ⟨hamount, rfl⟩, _, _, hlist, _, _, hprice, rfl, rfl⟩
    obtain ⟨⟨record, hrecord, howner, hlisted⟩, rfl⟩ := ensureListed_eq_ok_iff.1 hlist
    obtain ⟨record', hrecord', rfl⟩ := Holdings.setPrice_eq_ok_iff.1 hprice
    rw [hrecord] at hrecord'
    cases hrecord'
    exact ⟨_, .setPrice hid hamount hrecord howner hlisted, rfl⟩
  · rintro ⟨_, h, rfl⟩
    cases h with
    | setPrice hid hamount hrecord howner hlisted =>
      exact ⟨_, _, ⟨hid, rfl⟩, _, _, ⟨hamount, rfl⟩, (), _,
        ensureListed_eq_ok_iff.2 ⟨⟨_, hrecord, howner, hlisted⟩, rfl⟩, (), _,
        Holdings.setPrice_eq_ok_iff.2 ⟨_, hrecord, rfl⟩, rfl, rfl⟩

theorem burn_eq_ok_iff {token : Value} :
    burn caller token (.idle limits ceiling contents) = .ok receipt final ↔
      ∃ after, contents.Does limits ceiling caller (.burn token) receipt after ∧
        final = .idle limits ceiling after := by
  unfold burn
  simp only [Program.bind_eq_ok_iff, StoreM.ofExcept_eq_ok_iff, Program.pure_eq_ok_iff]
  constructor
  · rintro ⟨id, _, ⟨hid, rfl⟩, record, _, hrequire, _, _, howner, _, _, hburn, rfl, rfl⟩
    obtain ⟨hrecord, rfl⟩ := Holdings.require_eq_ok_iff.1 hrequire
    obtain ⟨ho, rfl⟩ := (Holdings.ensureOwner_eq_ok_iff hrecord).1 howner
    obtain ⟨record', hrecord', source, hsource, rfl⟩ := Holdings.burn_eq_ok_iff.1 hburn
    rw [hrecord] at hrecord'
    cases hrecord'
    exact ⟨_, .burn hid hrecord ho hsource, rfl⟩
  · rintro ⟨_, h, rfl⟩
    cases h with
    | burn hid hrecord howner hsource =>
      exact ⟨_, _, ⟨hid, rfl⟩, _, _, Holdings.require_eq_ok_iff.2 ⟨hrecord, rfl⟩, (), _,
        (Holdings.ensureOwner_eq_ok_iff hrecord).2 ⟨howner, rfl⟩, (), _,
        Holdings.burn_eq_ok_iff.2 ⟨_, hrecord, _, hsource, rfl⟩, rfl, rfl⟩

/-! ## Sales -/

variable {store : Store} {funds : σ} {events : EventLog} {methods : Method → MethodSettings}
  {next : Market σ}

/-- A program on the store of a market ends as it does on the store alone. -/
theorem liftM_eq_ok_iff {program : StoreM α} {value : α} :
    (liftM program : MarketM σ α) ⟨store, funds, events, methods⟩ = .ok value next ↔
      ∃ final, program store = .ok value final ∧ next = ⟨final, funds, events, methods⟩ := by
  rw [liftM_eq_onStore]
  unfold onStore
  dsimp only
  cases program store with
  | ok result final =>
    constructor
    · intro h
      cases h
      exact ⟨final, rfl, rfl⟩
    · rintro ⟨_, h, rfl⟩
      cases h
      rfl
  | error fault final =>
    constructor
    · intro h
      cases h
    · rintro ⟨_, h, -⟩
      cases h

/-- A program on the store of a market fails as it does on the store alone. -/
theorem liftM_eq_error_iff {program : StoreM α} {fault : Fault} {market : Market σ} :
    (liftM program : MarketM σ α) market = .error fault next ↔
      ∃ final, program market.store = .error fault final ∧ next = { market with store := final } := by
  rw [liftM_eq_onStore]
  unfold onStore
  cases program market.store with
  | ok value final => simp
  | error found final => simp [eq_comm, and_comm]

theorem liftM_ofExcept_eq_ok_iff {check : Except Refusal α} {value : α} :
    (liftM (StoreM.ofExcept check) : MarketM σ α) ⟨store, funds, events, methods⟩ =
        .ok value next ↔
      check = .ok value ∧ next = ⟨store, funds, events, methods⟩ := by
  rw [liftM_eq_ok_iff]
  simp only [StoreM.ofExcept_eq_ok_iff, and_assoc, exists_and_left, exists_eq_left]

theorem liftM_refuse_ne_ok {refusal : Refusal} {market : Market σ} (value : α) (next : Market σ) :
    ¬ (liftM (StoreM.refuse refusal : StoreM α) : MarketM σ α) market = .ok value next := by
  intro h
  cases h

variable [Currency σ]

/-- A new token is bought as the rule says, if the payment is made. -/
theorem launchBuy_eq_ok_iff {edition bid : Value} :
    launchBuy caller edition bid ⟨.idle limits ceiling contents, funds, events, methods⟩ =
        .ok receipt next ↔
      ∃ after paid,
        contents.Does limits ceiling caller (.launchBuy edition bid) receipt after ∧
          Currency.Settles funds paid receipt.payment? ∧
            next = ⟨.idle limits ceiling after, paid, events, methods⟩ := by
  unfold launchBuy
  constructor
  · intro h
    obtain ⟨id, _, hcheck, h⟩ := Program.bind_eq_ok_iff.1 h
    obtain ⟨hid, rfl⟩ := liftM_ofExcept_eq_ok_iff.1 hcheck
    obtain ⟨amount, _, hcheck, h⟩ := Program.bind_eq_ok_iff.1 h
    obtain ⟨hbid, rfl⟩ := liftM_ofExcept_eq_ok_iff.1 hcheck
    obtain ⟨source, _, hstep, h⟩ := Program.bind_eq_ok_iff.1 h
    obtain ⟨_, hrequire, rfl⟩ := liftM_eq_ok_iff.1 hstep
    obtain ⟨hsource, rfl⟩ := Issuance.require_eq_ok_iff.1 hrequire
    obtain ⟨seller, _, hstep, h⟩ := Program.bind_eq_ok_iff.1 h
    obtain ⟨_, hseller, rfl⟩ := liftM_eq_ok_iff.1 hstep
    rw [Issuance.ownerOf_eq hsource] at hseller
    cases hseller
    obtain ⟨hne, h⟩ := (Program.stop_or_go_eq_ok_iff liftM_refuse_ne_ok).1 h
    obtain ⟨hprice, h⟩ := (Program.stop_or_go_eq_ok_iff liftM_refuse_ne_ok).1 h
    obtain ⟨_, _, hstep, h⟩ := Program.bind_eq_ok_iff.1 h
    obtain ⟨hcan, rfl⟩ := ensureCanPay_eq_ok_iff.1 hstep
    obtain ⟨token, _, hstep, h⟩ := Program.bind_eq_ok_iff.1 h
    obtain ⟨_, hissue, rfl⟩ := liftM_eq_ok_iff.1 hstep
    obtain ⟨source', hsource', hleft, hcount, hroom, rfl, rfl⟩ :=
      Issuance.issue_eq_ok_iff.1 hissue
    rw [hsource] at hsource'
    cases hsource'
    obtain ⟨_, _, hstep, h⟩ := Program.bind_eq_ok_iff.1 h
    obtain ⟨paid, hpaid, rfl⟩ := pay_eq_ok_iff.1 hstep
    obtain ⟨rfl, rfl⟩ := Program.pure_eq_ok_iff.1 h
    -- The seller owns the creator, who is there: otherwise the seller would be nobody.
    cases hrecord : contents.creators[source.creator]? with
    | none =>
      rw [hrecord] at hne
      exact absurd rfl hne
    | some record =>
      rw [hrecord] at hne hpaid
      exact ⟨_, paid, .launchBuy hid hbid hsource hrecord hne (Int.not_lt.1 hprice) hleft hcount
        hroom, ⟨hcan, hpaid⟩, rfl⟩
  · rintro ⟨_, paid, h, hsettles, rfl⟩
    cases h with
    | launchBuy hid hbid hsource hrecord howner hprice hleft hcount hroom =>
      obtain ⟨hcan, hpaid⟩ := hsettles
      refine Program.bind_eq_ok_iff.2 ⟨_, _, liftM_ofExcept_eq_ok_iff.2 ⟨hid, rfl⟩, ?_⟩
      refine Program.bind_eq_ok_iff.2 ⟨_, _, liftM_ofExcept_eq_ok_iff.2 ⟨hbid, rfl⟩, ?_⟩
      refine Program.bind_eq_ok_iff.2 ⟨_, _,
        liftM_eq_ok_iff.2 ⟨_, Issuance.require_eq_ok_iff.2 ⟨hsource, rfl⟩, rfl⟩, ?_⟩
      refine Program.bind_eq_ok_iff.2 ⟨_, _,
        liftM_eq_ok_iff.2 ⟨_, Issuance.ownerOf_eq hsource, rfl⟩, ?_⟩
      rw [hrecord]
      refine (Program.stop_or_go_eq_ok_iff liftM_refuse_ne_ok).2 ⟨howner, ?_⟩
      refine (Program.stop_or_go_eq_ok_iff liftM_refuse_ne_ok).2 ⟨Int.not_lt.2 hprice, ?_⟩
      refine Program.bind_eq_ok_iff.2 ⟨(), _, ensureCanPay_eq_ok_iff.2 ⟨hcan, rfl⟩, ?_⟩
      refine Program.bind_eq_ok_iff.2 ⟨_, _, liftM_eq_ok_iff.2
        ⟨_, Issuance.issue_eq_ok_iff.2 ⟨_, hsource, hleft, hcount, hroom, rfl, rfl⟩, rfl⟩, ?_⟩
      exact Program.bind_eq_ok_iff.2 ⟨(), _, pay_eq_ok_iff.2 ⟨paid, hpaid, rfl⟩, rfl⟩

/-- A token that is for sale is bought as the rule says, if the payment is made. -/
theorem buy_eq_ok_iff {token bid : Value} :
    buy caller token bid ⟨.idle limits ceiling contents, funds, events, methods⟩ =
        .ok receipt next ↔
      ∃ after paid,
        contents.Does limits ceiling caller (.buy token bid) receipt after ∧
          Currency.Settles funds paid receipt.payment? ∧
            next = ⟨.idle limits ceiling after, paid, events, methods⟩ := by
  unfold buy
  constructor
  · intro h
    obtain ⟨id, _, hcheck, h⟩ := Program.bind_eq_ok_iff.1 h
    obtain ⟨hid, rfl⟩ := liftM_ofExcept_eq_ok_iff.1 hcheck
    obtain ⟨amount, _, hcheck, h⟩ := Program.bind_eq_ok_iff.1 h
    obtain ⟨hbid, rfl⟩ := liftM_ofExcept_eq_ok_iff.1 hcheck
    obtain ⟨record, _, hstep, h⟩ := Program.bind_eq_ok_iff.1 h
    obtain ⟨_, hrequire, rfl⟩ := liftM_eq_ok_iff.1 hstep
    obtain ⟨hrecord, rfl⟩ := Holdings.require_eq_ok_iff.1 hrequire
    cases hlisted : record.price with
    | none =>
      rw [hlisted] at h
      exact absurd h (liftM_refuse_ne_ok _ _)
    | some price =>
      rw [hlisted] at h
      obtain ⟨howner, h⟩ := (Program.stop_or_go_eq_ok_iff liftM_refuse_ne_ok).1 h
      obtain ⟨hprice, h⟩ := (Program.stop_or_go_eq_ok_iff liftM_refuse_ne_ok).1 h
      obtain ⟨_, _, hstep, h⟩ := Program.bind_eq_ok_iff.1 h
      obtain ⟨hcan, rfl⟩ := ensureCanPay_eq_ok_iff.1 hstep
      obtain ⟨_, _, hstep, h⟩ := Program.bind_eq_ok_iff.1 h
      obtain ⟨_, hmove, rfl⟩ := liftM_eq_ok_iff.1 hstep
      obtain ⟨record', hrecord', hroom, rfl⟩ := Holdings.transfer_eq_ok_iff.1 hmove
      rw [hrecord] at hrecord'
      cases hrecord'
      obtain ⟨_, _, hstep, h⟩ := Program.bind_eq_ok_iff.1 h
      -- The token is taken off sale as it is after it has been moved.
      obtain ⟨_, hunlist, rfl⟩ := liftM_eq_ok_iff.1 hstep
      obtain ⟨moved, hmoved, rfl⟩ := Holdings.setPrice_eq_ok_iff.1 hunlist
      rw [Contents.tokens_moved_self] at hmoved
      cases hmoved
      obtain ⟨_, _, hstep, h⟩ := Program.bind_eq_ok_iff.1 h
      obtain ⟨paid, hpaid, rfl⟩ := pay_eq_ok_iff.1 hstep
      obtain ⟨rfl, rfl⟩ := Program.pure_eq_ok_iff.1 h
      exact ⟨_, paid, .buy hid hbid hrecord hlisted howner (Int.not_lt.1 hprice) hroom,
        ⟨hcan, hpaid⟩, rfl⟩
  · rintro ⟨_, paid, h, hsettles, rfl⟩
    cases h with
    | buy hid hbid hrecord hlisted howner hprice hroom =>
      obtain ⟨hcan, hpaid⟩ := hsettles
      refine Program.bind_eq_ok_iff.2 ⟨_, _, liftM_ofExcept_eq_ok_iff.2 ⟨hid, rfl⟩, ?_⟩
      refine Program.bind_eq_ok_iff.2 ⟨_, _, liftM_ofExcept_eq_ok_iff.2 ⟨hbid, rfl⟩, ?_⟩
      refine Program.bind_eq_ok_iff.2 ⟨_, _,
        liftM_eq_ok_iff.2 ⟨_, Holdings.require_eq_ok_iff.2 ⟨hrecord, rfl⟩, rfl⟩, ?_⟩
      rw [hlisted]
      refine (Program.stop_or_go_eq_ok_iff liftM_refuse_ne_ok).2 ⟨howner, ?_⟩
      refine (Program.stop_or_go_eq_ok_iff liftM_refuse_ne_ok).2 ⟨Int.not_lt.2 hprice, ?_⟩
      refine Program.bind_eq_ok_iff.2 ⟨(), _, ensureCanPay_eq_ok_iff.2 ⟨hcan, rfl⟩, ?_⟩
      refine Program.bind_eq_ok_iff.2 ⟨(), _, liftM_eq_ok_iff.2
        ⟨_, Holdings.transfer_eq_ok_iff.2 ⟨_, hrecord, hroom, rfl⟩, rfl⟩, ?_⟩
      refine Program.bind_eq_ok_iff.2 ⟨(), _, liftM_eq_ok_iff.2
        ⟨_, Holdings.setPrice_eq_ok_iff.2 ⟨_, Contents.tokens_moved_self, rfl⟩, rfl⟩, ?_⟩
      exact Program.bind_eq_ok_iff.2 ⟨(), _, pay_eq_ok_iff.2 ⟨paid, hpaid, rfl⟩, rfl⟩

/-! ## All actions -/

/-- An action without a payment is completed as its rule says if the program on the store is. -/
theorem liftM_eq_ok_iff_does {program : StoreM Receipt} {action : Action}
    (hprogram : ∀ receipt final,
      program (.idle limits ceiling contents) = .ok receipt final ↔
        ∃ after, contents.Does limits ceiling caller action receipt after ∧
          final = .idle limits ceiling after)
    (hfree : ∀ receipt after,
      contents.Does limits ceiling caller action receipt after → receipt.payment? = none) :
    (liftM program : MarketM σ Receipt) ⟨.idle limits ceiling contents, funds, events, methods⟩ =
        .ok receipt next ↔
      ∃ after paid,
        contents.Does limits ceiling caller action receipt after ∧
          Currency.Settles funds paid receipt.payment? ∧
            next = ⟨.idle limits ceiling after, paid, events, methods⟩ := by
  rw [liftM_eq_ok_iff]
  -- Without a payment the funds settle at what they were.
  constructor
  · rintro ⟨_, h, rfl⟩
    obtain ⟨after, hdoes, rfl⟩ := (hprogram _ _).1 h
    refine ⟨after, funds, hdoes, ?_, rfl⟩
    rw [hfree receipt after hdoes]
    exact rfl
  · rintro ⟨after, paid, hdoes, hsettles, rfl⟩
    rw [hfree receipt after hdoes] at hsettles
    cases hsettles
    exact ⟨_, (hprogram _ _).2 ⟨after, hdoes, rfl⟩, rfl⟩

/-- **The rules are what the program does.** Where no transaction is open, an action is completed exactly
if its rule allows it and its payment, if it is a sale, is made; the receipt and what is left are those of
the rule. -/
theorem perform_eq_ok_iff {action : Action} :
    perform caller action ⟨.idle limits ceiling contents, funds, events, methods⟩ =
        .ok receipt next ↔
      ∃ after paid,
        contents.Does limits ceiling caller action receipt after ∧
          Currency.Settles funds paid receipt.payment? ∧
            next = ⟨.idle limits ceiling after, paid, events, methods⟩ := by
  cases action with
  | createAccount creator =>
    exact liftM_eq_ok_iff_does (fun _ _ => createAccount_eq_ok_iff) (by rintro _ _ ⟨⟩; rfl)
  | dropAccount creator =>
    exact liftM_eq_ok_iff_does (fun _ _ => dropAccount_eq_ok_iff) (by rintro _ _ ⟨⟩; rfl)
  | mint creator price description =>
    exact liftM_eq_ok_iff_does (fun _ _ => mint_eq_ok_iff) (by rintro _ _ ⟨⟩; rfl)
  | launchGift creator edition receiver =>
    exact liftM_eq_ok_iff_does (fun _ _ => launchGift_eq_ok_iff) (by rintro _ _ ⟨⟩; rfl)
  | launchBuy edition bid => exact launchBuy_eq_ok_iff
  | buy token bid => exact buy_eq_ok_iff
  | transfer token =>
    exact liftM_eq_ok_iff_does (fun _ _ => transfer_eq_ok_iff) (by rintro _ _ ⟨⟩; rfl)
  | list token price =>
    exact liftM_eq_ok_iff_does (fun _ _ => list_eq_ok_iff) (by rintro _ _ ⟨⟩; rfl)
  | unlist token =>
    exact liftM_eq_ok_iff_does (fun _ _ => unlist_eq_ok_iff) (by rintro _ _ ⟨⟩; rfl)
  | setLaunchPrice creator edition price =>
    exact liftM_eq_ok_iff_does (fun _ _ => setLaunchPrice_eq_ok_iff) (by rintro _ _ ⟨⟩; rfl)
  | setPrice token price =>
    exact liftM_eq_ok_iff_does (fun _ _ => setPrice_eq_ok_iff) (by rintro _ _ ⟨⟩; rfl)
  | burn token =>
    exact liftM_eq_ok_iff_does (fun _ _ => burn_eq_ok_iff) (by rintro _ _ ⟨⟩; rfl)

end Market

end EditionMarket
