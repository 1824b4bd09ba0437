import EditionMarket.Proofs.Argument
import EditionMarket.Proofs.Market.Authority
import EditionMarket.Proofs.Market.Reachable

/-!
# When a sale is done, and what it leaves

A token is sold by the account that has listed it or, when it is new, by the owner of the creator of its
edition. Both sales depend on records, rosters, counters and funds at once, and change all of them. This file
says on what exactly they depend, in terms of records, counters and balances alone, and what exactly they
leave.

Main statements: `buy_is_done_exactly_if` and `launch_is_done_exactly_if`.
-/

namespace EditionMarket.Market

variable {market : Market Bank} {id : ItemId} {bid : Int} {caller : AccountId} {receipt : Receipt}

/-! ## Listed tokens -/

/-- The token of the record can be sold to the caller for the bid: someone else has listed it for no more,
and the caller can pay and owns fewer tokens than it may. -/
structure MayBuy (market : Market Bank) (caller : AccountId) (id : ItemId) (bid : Int) (record : Token) :
    Prop where
  token : market.store.contents.tokens[id]? = some record
  listed : ∃ price, record.price = some price ∧ price ≤ bid
  owner : record.owner ≠ caller
  funds : bid = 0 ∨ (market.funds.deposit : Int) ≤ market.funds.balance caller - bid
  room : market.store.contents.tokenCount caller < market.store.limits.tokensPerAccount

/-- The token of the record has been sold to the buyer: it is no longer listed, it has left the roster of the
seller for that of the buyer, and the bid has been paid. -/
structure Bought (before after : Market Bank) (id : ItemId) (record : Token) (buyer : AccountId)
    (bid : Int) : Prop where
  token : after.store.contents.tokens[id]? = some { record with owner := buyer, price := none }
  buyer_roster : before.store.contents.tokensOf.Gained after.store.contents.tokensOf
    before.store.limits.tokensPerAccount buyer id
  seller_roster : before.store.contents.tokensOf.Lost after.store.contents.tokensOf
    before.store.limits.tokensPerAccount record.owner id
  paid : before.funds.Pays after.funds buyer record.owner bid
  rest : ChangesOnly [.token id, .tokensOf buyer, .tokensOf record.owner] "TokenTransferred"
    [("method", .string "buy"), ("caller", buyer.toValue), ("token_id", .int id), ("price", .int bid),
      ("seller", record.owner.toValue), ("buyer", buyer.toValue)] before after

theorem buy_done_iff (h : market.Reachable) (hid : 0 ≤ id ∧ id ≤ Argument.largestId) (hbid : 0 ≤ bid) :
    (∃ receipt, market.answer ⟨caller, .buy (.int id) (.int bid)⟩ = .ok (.done receipt)) ↔
      ∃ record, market.MayBuy caller id bid record := by
  simp only [answer_eq_done_iff h.idle]
  constructor
  · rintro ⟨_, _, _, hdoes, hsettles⟩
    cases hdoes with
    | buy hitem hamount hrecord hlisted howner hprice hroom =>
      cases Argument.eq_of_itemId_eq_ok hitem
      cases Argument.eq_of_amount_eq_ok hamount
      exact ⟨_,
        { token := hrecord
          listed := ⟨_, hlisted, hprice⟩
          owner := howner
          funds := (Currency.exists_settles_iff _ _ _ hbid).1 ⟨_, hsettles⟩
          room := (h.sound.hasRoom_tokensOf_iff caller).1 hroom }⟩
  · rintro ⟨record, hmay⟩
    obtain ⟨price, hlisted, hprice⟩ := hmay.listed
    obtain ⟨paid, hsettles⟩ := (Currency.exists_settles_iff _ _ record.owner hbid).2 hmay.funds
    have hroom := (h.sound.hasRoom_tokensOf_iff caller).2 hmay.room
    exact ⟨_, _, paid, .buy (Argument.itemId_eq_ok_iff.2 ⟨rfl, hid⟩)
      (Argument.amount_eq_ok_iff.2 ⟨rfl, hbid⟩) hmay.token hlisted hmay.owner hprice hroom, hsettles⟩

theorem bought_of_done (h : market.Reachable)
    (hdone : market.answer ⟨caller, .buy (.int id) (.int bid)⟩ = .ok (.done receipt)) :
    ∃ record, market.store.contents.tokens[id]? = some record ∧
      Bought market (market.after ⟨caller, .buy (.int id) (.int bid)⟩) id record caller bid := by
  obtain ⟨contents, paid, hdoes, hsettles, hafter⟩ := after_of_done h.idle hdone
  cases hdoes with
  | @buy _ _ _ _ _ record hitem hamount hrecord _ howner _ hroom =>
    cases Argument.eq_of_itemId_eq_ok hitem
    cases Argument.eq_of_amount_eq_ok hamount
    obtain ⟨hgained, hlost⟩ :=
      h.sound.tokensOf.exchanged hroom (h.sound.mem_tokensOf hrecord) (Ne.symm howner)
    rw [hafter]
    refine ⟨record, hrecord, ?_, hgained, hlost, .of_settles hsettles, ?_⟩
    · show ((_ : Table ItemId Token).put id _)[id]? = _
      rw [Table.getElem?_put, if_pos rfl]
    · refine .of_done ⟨caller, .buy (.int id) (.int bid)⟩ (.bought id bid record.owner caller) h.idle ?_
      exact (market.store.contents.sameBut_moved _ id record record.owner caller).write
        (.token id) (by simp) (some _)

/-- **A token is bought exactly if it may be.** In a market that has come about in whatever way, with a bank,
a bid for a token succeeds exactly if the token is there, listed by someone else for no more than is bid, the
caller can pay and still keep the deposit, unless nothing is bid, and the records name the caller as the owner
of fewer tokens than it may have. Then the token is the caller's and not listed; it has gone from the one
roster to the other, and a roster without items is gone; the bid has been paid, one event tells of it, and
nothing else has changed. -/
theorem buy_is_done_exactly_if (h : market.Reachable) (hid : 0 ≤ id ∧ id ≤ Argument.largestId)
    (hbid : 0 ≤ bid) (caller : AccountId) :
    let call : Call := ⟨caller, .buy (.int id) (.int bid)⟩
    ((∃ receipt, market.answer call = .ok (.done receipt)) ↔
        ∃ record, market.MayBuy caller id bid record) ∧
      ∀ receipt, market.answer call = .ok (.done receipt) →
        ∃ record, market.store.contents.tokens[id]? = some record ∧
          Bought market (market.after call) id record caller bid :=
  ⟨buy_done_iff h hid hbid, fun _ => bought_of_done h⟩

/-- The last of the trades is a token bought back for more than it was listed for. -/
theorem buy_is_done_exactly_if_trades :
    let market := funded.run (trades.take 5)
    market.Reachable ∧ (0 ≤ (1 : ItemId) ∧ 1 ≤ Argument.largestId) ∧ (0 : Int) ≤ 12 ∧
      ∃ record, market.store.contents.tokens[(1 : ItemId)]? = some record ∧
        Bought market (market.after ⟨.name "ann", .buy (.int 1) (.int 12)⟩) 1 record (.name "ann") 12 := by
  intro market
  have h : market.Reachable :=
    (Reachable.opened default 10 (Int.le_refl 0) (Int.le_refl 0) _ _ _).run (trades.take 5)
  have hid : 0 ≤ (1 : ItemId) ∧ 1 ≤ Argument.largestId := by decide
  have hbid : (0 : Int) ≤ 12 := by decide
  have hmay : market.MayBuy (.name "ann") 1 12
      { id := 1, edition := 1, creator := "studio", owner := .name "bob", name := "Dawn",
        price := some 10, mimeType := "image/png", uri := "ipfs://dawn" } :=
    { token := by decide +kernel
      listed := ⟨10, rfl, by decide⟩
      owner := by decide
      funds := .inr (by decide +kernel)
      room := by decide +kernel }
  obtain ⟨hiff, hbought⟩ := buy_is_done_exactly_if h hid hbid (.name "ann")
  obtain ⟨receipt, hdone⟩ := hiff.2 ⟨_, hmay⟩
  exact ⟨h, hid, hbid, hbought receipt hdone⟩

/-! ## New tokens -/

/-- A token of the edition can be issued to the caller for the bid: the creator has an owner to be paid, the
price is no more, the caller can pay and owns fewer tokens than it may, and neither the edition nor the
numbers are used up. -/
structure MayLaunch (market : Market Bank) (caller : AccountId) (id : ItemId) (bid : Int)
    (source : Edition) (seller : AccountId) : Prop where
  edition : market.store.contents.editions[id]? = some source
  owner : market.store.contents.ownerOf? source.creator = some seller
  connected : seller ≠ .nobody
  price : source.price ≤ bid
  funds : bid = 0 ∨ (market.funds.deposit : Int) ≤ market.funds.balance caller - bid
  left : source.issued < source.supply + source.destroyed
  number : market.store.contents.lastToken < market.store.ceiling
  room : market.store.contents.tokenCount caller < market.store.limits.tokensPerAccount

/-- A token of the edition has been issued to the buyer under the next number, which was free: it is at the
end of the roster of the buyer, the edition and the counter have counted it, and the bid has been paid. -/
structure Launched (before after : Market Bank) (id : ItemId) (source : Edition)
    (seller buyer : AccountId) (bid : Int) : Prop where
  free : before.store.contents.tokens[before.store.contents.lastToken + 1]? = none
  token : after.store.contents.tokens[before.store.contents.lastToken + 1]? =
    some {
      id := before.store.contents.lastToken + 1
      edition := id
      creator := source.creator
      owner := buyer
      name := source.name
      price := none
      mimeType := source.mimeType
      uri := source.uri }
  roster : before.store.contents.tokensOf.Gained after.store.contents.tokensOf
    before.store.limits.tokensPerAccount buyer (before.store.contents.lastToken + 1)
  edition : after.store.contents.editions[id]? = some { source with issued := source.issued + 1 }
  counter : after.store.contents.lastToken = before.store.contents.lastToken + 1
  paid : before.funds.Pays after.funds buyer seller bid
  rest : ChangesOnly
    [.edition id, .token (before.store.contents.lastToken + 1), .tokensOf buyer, .lastToken]
    "TokenInitialCollection"
    [("method", .string "launch_buy"), ("caller", buyer.toValue), ("launch_token_id", .int id),
      ("token_id", .int (before.store.contents.lastToken + 1)), ("price", .int bid),
      ("seller", seller.toValue), ("buyer", buyer.toValue)] before after

theorem launchBuy_done_iff (h : market.Reachable) (hid : 0 ≤ id ∧ id ≤ Argument.largestId)
    (hbid : 0 ≤ bid) :
    (∃ receipt, market.answer ⟨caller, .launchBuy (.int id) (.int bid)⟩ = .ok (.done receipt)) ↔
      ∃ source seller, market.MayLaunch caller id bid source seller := by
  simp only [answer_eq_done_iff h.idle]
  constructor
  · rintro ⟨_, _, _, hdoes, hsettles⟩
    cases hdoes with
    | launchBuy hitem hamount hsource hrecord howner hprice hleft hnumber hroom =>
      cases Argument.eq_of_itemId_eq_ok hitem
      cases Argument.eq_of_amount_eq_ok hamount
      exact ⟨_, _,
        { edition := hsource
          owner := Contents.ownerOf?_eq_some_iff.2 ⟨_, hrecord, rfl⟩
          connected := howner
          price := hprice
          funds := (Currency.exists_settles_iff _ _ _ hbid).1 ⟨_, hsettles⟩
          left := (h.sound.isSoldOut_eq_false_iff hsource).1 hleft
          number := hnumber
          room := (h.sound.hasRoom_tokensOf_iff caller).1 hroom }⟩
  · rintro ⟨source, seller, hmay⟩
    obtain ⟨record, hrecord, rfl⟩ := Contents.ownerOf?_eq_some_iff.1 hmay.owner
    obtain ⟨paid, hsettles⟩ := (Currency.exists_settles_iff _ _ record.owner hbid).2 hmay.funds
    have hleft := (h.sound.isSoldOut_eq_false_iff hmay.edition).2 hmay.left
    have hroom := (h.sound.hasRoom_tokensOf_iff caller).2 hmay.room
    exact ⟨_, _, paid, .launchBuy (Argument.itemId_eq_ok_iff.2 ⟨rfl, hid⟩)
      (Argument.amount_eq_ok_iff.2 ⟨rfl, hbid⟩) hmay.edition hrecord hmay.connected hmay.price hleft
      hmay.number hroom, hsettles⟩

theorem launched_of_done (h : market.Reachable)
    (hdone : market.answer ⟨caller, .launchBuy (.int id) (.int bid)⟩ = .ok (.done receipt)) :
    ∃ source seller, market.store.contents.editions[id]? = some source ∧
      market.store.contents.ownerOf? source.creator = some seller ∧
        Launched market (market.after ⟨caller, .launchBuy (.int id) (.int bid)⟩) id source seller caller
          bid := by
  obtain ⟨contents, paid, hdoes, hsettles, hafter⟩ := after_of_done h.idle hdone
  cases hdoes with
  | @launchBuy _ _ _ _ source record hitem hamount hsource hrecord _ _ hleft _ hroom =>
    cases Argument.eq_of_itemId_eq_ok hitem
    cases Argument.eq_of_amount_eq_ok hamount
    rw [hafter]
    refine ⟨source, record.owner, hsource, Contents.ownerOf?_eq_some_iff.2 ⟨_, hrecord, rfl⟩, ?_⟩
    constructor
    case free => exact h.sound.next_token
    case token =>
      show (market.store.contents.tokens.put _ _)[_]? = _
      rw [Table.getElem?_put, if_pos rfl, ← h.sound.edition_id hsource]
      rfl
    case roster => exact h.sound.tokensOf.gained_enrolled hroom _
    case edition =>
      show (market.store.contents.editions.put _ _)[_]? = _
      rw [Table.getElem?_put, if_pos rfl, h.sound.issueOne_eq hsource hleft]
    case counter => rfl
    case paid => exact .of_settles hsettles
    case rest =>
      exact .of_done ⟨caller, .launchBuy (.int id) (.int bid)⟩ (.launched id _ bid record.owner caller)
        h.idle (Contents.sameBut_issued _ _ id source caller)

/-- **A new token is bought exactly if it may be.** In a market that has come about in whatever way, with a
bank, a bid for a new token of an edition succeeds exactly if the edition is there, its creator has an owner,
its price is no more than is bid, the caller can pay and still keep the deposit, unless nothing is bid, the
edition has issued less than its supply and what was destroyed of it, the counter is below the ceiling, and the
records name the caller as the owner of fewer tokens than it may have. Then there is one token more, and no
more than the edition, the counter, the roster of the caller, the balances of the caller and of the owner, and
the event of it have changed. -/
theorem launch_is_done_exactly_if (h : market.Reachable) (hid : 0 ≤ id ∧ id ≤ Argument.largestId)
    (hbid : 0 ≤ bid) (caller : AccountId) :
    let call : Call := ⟨caller, .launchBuy (.int id) (.int bid)⟩
    ((∃ receipt, market.answer call = .ok (.done receipt)) ↔
        ∃ source seller, market.MayLaunch caller id bid source seller) ∧
      ∀ receipt, market.answer call = .ok (.done receipt) →
        ∃ source seller, market.store.contents.editions[id]? = some source ∧
          market.store.contents.ownerOf? source.creator = some seller ∧
            Launched market (market.after call) id source seller caller bid :=
  ⟨launchBuy_done_iff h hid hbid, fun _ => launched_of_done h⟩

/-- The owner of the creator buys a token of its own edition: it pays itself. -/
theorem launch_is_done_exactly_if_trades :
    let market := funded.run (trades.take 3)
    market.Reachable ∧ (0 ≤ (1 : ItemId) ∧ 1 ≤ Argument.largestId) ∧ (0 : Int) ≤ 30 ∧
      ∃ source seller, market.store.contents.editions[(1 : ItemId)]? = some source ∧
        market.store.contents.ownerOf? source.creator = some seller ∧
          Launched market (market.after ⟨.name "ann", .launchBuy (.int 1) (.int 30)⟩) 1 source seller
            (.name "ann") 30 := by
  intro market
  have h : market.Reachable :=
    (Reachable.opened default 10 (Int.le_refl 0) (Int.le_refl 0) _ _ _).run (trades.take 3)
  have hid : 0 ≤ (1 : ItemId) ∧ 1 ≤ Argument.largestId := by decide
  have hbid : (0 : Int) ≤ 30 := by decide
  have hmay : market.MayLaunch (.name "ann") 1 30
      { id := 1, creator := "studio", name := "Dawn", price := 30, mimeType := "image/png",
        uri := "ipfs://dawn", supply := 2, issued := 1 } (.name "ann") :=
    { edition := by decide +kernel
      owner := by decide +kernel
      connected := by decide
      price := by decide
      funds := .inr (by decide +kernel)
      left := by decide
      number := by decide +kernel
      room := by decide +kernel }
  obtain ⟨hiff, hlaunched⟩ := launch_is_done_exactly_if h hid hbid (.name "ann")
  obtain ⟨receipt, hdone⟩ := hiff.2 ⟨_, _, hmay⟩
  exact ⟨h, hid, hbid, hlaunched receipt hdone⟩

end EditionMarket.Market
