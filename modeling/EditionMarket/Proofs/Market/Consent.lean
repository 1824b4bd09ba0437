import EditionMarket.Proofs.Market.Funds
import EditionMarket.Proofs.Table

/-!
# Nothing is for sale without its owner's consent

The price of a token is all that says that the token is for sale. It is set and cleared by different
actions, and left alone by others that change the owner or write the record anew. This file relates the
price to the calls of the run: whatever is for sale was offered at this price by the account that owns it,
and nobody has bought, offered or withdrawn it since.

Main statements: `Offered.does`, every rule preserves this, and `listings_are_owners_offers`, what it means
for a run, for those who buy and for new owners.
-/

namespace EditionMarket

/-! ## Offers -/

/-- The action is to put the token up for sale at the price, or to change its price to this. -/
def Action.Offers (id : ItemId) (price : Int) : Action → Prop
  | list token amount | setPrice token amount =>
    Argument.itemId "token_id" token = .ok id ∧ Argument.amount "price" amount = .ok price
  | _ => False

/-- The action is one of those that set or clear the price of the token. -/
def Action.Reprices (id : ItemId) : Action → Prop
  | buy token _ | unlist token | list token _ | setPrice token _ =>
    Argument.itemId "token_id" token = .ok id
  | _ => False

/-- The account has offered the token at the price, and its price has not been set or cleared since. -/
def OfferedBy (owner : AccountId) (id : ItemId) (price : Int) (past : List Deed) : Prop :=
  ∃ earlier deed later, past = earlier ++ deed :: later ∧
    deed.call.caller = owner ∧ deed.call.action.Offers id price ∧
      ∀ other ∈ later, ¬ other.call.action.Reprices id

namespace OfferedBy

variable {owner : AccountId} {id : ItemId} {price : Int} {past : List Deed} {deed : Deed}

/-- An offer that was just made. -/
theorem concat (howner : deed.call.caller = owner) (hoffers : deed.call.action.Offers id price) :
    OfferedBy owner id price (past ++ [deed]) := by
  refine ⟨past, deed, [], rfl, howner, hoffers, ?_⟩
  intro other ho
  cases ho

/-- An offer stands as long as nobody does anything about the price. -/
theorem append (h : OfferedBy owner id price past) (hkept : ¬ deed.call.action.Reprices id) :
    OfferedBy owner id price (past ++ [deed]) := by
  obtain ⟨earlier, offer, later, rfl, howner, hoffers, hlater⟩ := h
  refine ⟨earlier, offer, later ++ [deed], ?_, howner, hoffers, ?_⟩
  · simp
  · intro other ho
    rcases List.mem_append.1 ho with ho | ho
    · exact hlater other ho
    · rw [List.mem_singleton.1 ho]
      exact hkept

end OfferedBy

/-- Every token that has a price was offered at this price by its owner. -/
def Offered (past : List Deed) (tokens : Table ItemId Token) : Prop :=
  tokens.All fun id token => ∀ price, token.price = some price → OfferedBy token.owner id price past

namespace Offered

variable {past : List Deed} {tokens : Table ItemId Token} {deed : Deed} {id : ItemId} {token : Token}

/-- What is done about no price leaves all offers standing. -/
theorem append (h : Offered past tokens) (hkept : ∀ id, ¬ deed.call.action.Reprices id) :
    Offered (past ++ [deed]) tokens := by
  intro id token ht price hp
  exact (h id token ht price hp).append (hkept id)

/-- One token is written anew, and what is done is about no other token's price. -/
theorem put (h : Offered past tokens)
    (hkept : ∀ other, other ≠ id → ¬ deed.call.action.Reprices other)
    (htoken : ∀ price, token.price = some price → OfferedBy token.owner id price (past ++ [deed])) :
    Offered (past ++ [deed]) (tokens.put id token) := by
  intro other found hf price hp
  rw [Table.getElem?_put] at hf
  -- What is said of the token that is written has to be shown; the offers of all others stand.
  by_cases hid : id = other
  · subst hid
    rw [if_pos rfl] at hf
    cases hf
    exact htoken price hp
  · rw [if_neg hid] at hf
    exact (h other found hf price hp).append (hkept other (Ne.symm hid))

theorem drop (h : Offered past tokens) : Offered past (tokens.drop id) := Table.All.drop h

/-! ## Calls -/

/-- An argument that names a token names no other one. -/
theorem ne_of_itemId {value : Value} (hid : Argument.itemId "token_id" value = .ok id) :
    ∀ other, other ≠ id → ¬ Argument.itemId "token_id" value = .ok other := by
  intro other hne hother
  rw [hid] at hother
  cases hother
  exact hne rfl

/-- Every rule preserves that nothing is for sale without an offer of its owner. -/
theorem does {contents next : Contents} (h : Offered past contents.tokens) {limits : Limits}
    {ceiling : Int} {call : Call} {receipt : Receipt}
    (hdoes : contents.Does limits ceiling call.caller call.action receipt next) :
    Offered (past ++ [⟨call, receipt⟩]) next.tokens := by
  obtain ⟨caller, action⟩ := call
  cases hdoes with
  | createAccount => exact h.append fun _ => id
  | dropAccount => exact h.append fun _ => id
  | mint => exact h.append fun _ => id
  | launchGift => exact h.put (fun _ _ => id) nofun
  | launchBuy => exact h.put (fun _ _ => id) nofun
  | buy hid =>
    -- The record is written twice, and what counts is that it ends up without a price.
    show Offered _ ((contents.tokens.put _ _).put _ _)
    rw [Table.put_put]
    exact h.put (ne_of_itemId hid) nofun
  | transfer _ hrecord howner =>
    subst howner
    -- The token goes to the account that has it, so its offer stands.
    exact h.put (fun _ _ => id) fun price hp => (h _ _ hrecord price hp).append id
  | list hid hamount _ howner =>
    apply h.put (ne_of_itemId hid)
    intro price hp
    cases hp
    exact .concat howner.symm ⟨hid, hamount⟩
  | unlist hid => exact h.put (ne_of_itemId hid) nofun
  | setLaunchPrice => exact h.append fun _ => id
  | setPrice hid hamount _ howner =>
    apply h.put (ne_of_itemId hid)
    intro price hp
    cases hp
    exact .concat howner.symm ⟨hid, hamount⟩
  | burn => exact (h.append fun _ => id).drop

end Offered

/-- A token that has come to an account by a rule is not for sale. -/
theorem Contents.Does.price_eq_none {limits : Limits} {ceiling : Int} {contents next : Contents}
    {caller : AccountId} {action : Action} {receipt : Receipt} {id : ItemId} {token : Token}
    (hdoes : contents.Does limits ceiling caller action receipt next)
    (htoken : next.tokens[id]? = some token)
    (hnew : ∀ before, contents.tokens[id]? = some before → before.owner ≠ token.owner) :
    token.price = none := by
  -- A rule that writes no token, or writes it for its owner, brings it to nobody.
  have hkept : ¬ contents.tokens[id]? = some token := fun hbefore => hnew token hbefore rfl
  have hput {key : ItemId} {record : Token} (hf : (contents.tokens.put key record)[id]? = some token) :
      key = id ∧ record = token := by
    rw [Table.getElem?_put] at hf
    split at hf
    case isTrue hk => exact ⟨hk, Option.some.inj hf⟩
    case isFalse => exact absurd hf hkept
  cases hdoes with
  | createAccount => exact absurd htoken hkept
  | dropAccount => exact absurd htoken hkept
  | mint => exact absurd htoken hkept
  | launchGift =>
    obtain ⟨-, rfl⟩ := hput htoken
    rfl
  | launchBuy =>
    obtain ⟨-, rfl⟩ := hput htoken
    rfl
  | buy =>
    change ((contents.tokens.put _ _).put _ _)[id]? = some token at htoken
    rw [Table.put_put] at htoken
    obtain ⟨-, rfl⟩ := hput htoken
    rfl
  | transfer _ hrecord howner =>
    obtain ⟨rfl, rfl⟩ := hput htoken
    exact absurd howner (hnew _ hrecord)
  | list _ _ hrecord =>
    obtain ⟨rfl, rfl⟩ := hput htoken
    exact (hnew _ hrecord rfl).elim
  | unlist =>
    obtain ⟨-, rfl⟩ := hput htoken
    rfl
  | setLaunchPrice => exact absurd htoken hkept
  | setPrice _ _ hrecord =>
    obtain ⟨rfl, rfl⟩ := hput htoken
    exact (hnew _ hrecord rfl).elim
  | burn =>
    change (contents.tokens.drop _)[id]? = some token at htoken
    rw [Table.getElem?_drop] at htoken
    split at htoken
    · cases htoken
    · exact absurd htoken hkept

/-! ## Runs -/

namespace Market

variable {σ : Type} [Currency σ]

theorem offered_run (limits : Limits) (ceiling lastEdition lastToken : Int) (funds : σ)
    (events : EventLog) (methods : Method → MethodSettings) (calls : List Call) :
    let market := opened limits ceiling lastEdition lastToken funds events methods
    Offered (market.deeds calls) (market.run calls).store.contents.tokens := by
  intro market
  apply history_invariant (fun past contents => Offered past contents.tokens) rfl
  · exact Table.All.empty _
  · intro call _ past contents receipt next h hdoes
    exact h.does hdoes

/-- **What is for sale is offered by its owner.** After any run, whatever its calls were answered: if a token
is listed at a price, then the account that owns it now has put it up for sale at this price, or has set this
price, in a call that was completed, and since then the token was not bought, listed, withdrawn or priced
again. So whoever buys a token pays at least the price that its seller has set last; and a token that comes
to an account, be it a new one or one that had another owner, is not for sale. -/
theorem listings_are_owners_offers (limits : Limits) (ceiling lastEdition lastToken : Int) (funds : σ)
    (events : EventLog) (methods : Method → MethodSettings) (calls : List Call) :
    let start := opened limits ceiling lastEdition lastToken funds events methods
    let past := start.deeds calls
    let market := start.run calls
    (∀ (id : ItemId) (token : Token) (price : Int), market.store.contents.tokens[id]? = some token →
        token.price = some price → OfferedBy token.owner id price past) ∧
      (∀ call id amount seller buyer, market.receipt? call = some (.bought id amount seller buyer) →
        ∃ price, OfferedBy seller id price past ∧ price ≤ amount) ∧
      ∀ (call : Call) (id : ItemId) (token : Token),
        (market.after call).store.contents.tokens[id]? = some token →
          (∀ before, market.store.contents.tokens[id]? = some before → before.owner ≠ token.owner) →
            token.price = none := by
  intro start past market
  have h : Offered past market.store.contents.tokens :=
    offered_run limits ceiling lastEdition lastToken funds events methods calls
  have hn : market.store.journal = none := journal_run calls rfl
  refine ⟨fun id token price ht hp => h id token ht price hp, ?_, ?_⟩
  · intro call id amount seller buyer hr
    have hdoes := (does_of_receipt? hn hr).1
    generalize (market.after call).store.contents = next at hdoes
    obtain ⟨caller, action⟩ := call
    -- The rule for buying has found the token with a price, and its owner is the seller.
    cases hdoes with
    | @buy _ _ _ _ price record _ _ hrecord hlisted _ hprice =>
      exact ⟨price, h _ _ hrecord price hlisted, hprice⟩
  · intro call id token htoken hnew
    rcases market.after_cases call hn with ⟨_, contents, _, hdoes, -, -, ha, -⟩ | ⟨-, ha⟩
    · rw [ha] at htoken
      exact hdoes.price_eq_none htoken hnew
    -- A call that was not completed has brought no token to anyone.
    · rw [ha] at htoken
      exact absurd rfl (hnew token htoken)

/-- An account is given a token, lists it, moves it to itself and raises its price. Somebody else's attempt
to list it for less comes to nothing. -/
def haggling : List Call :=
  [⟨.name "ann", .createAccount (.string "studio")⟩,
    ⟨.name "ann", .mint (.string "studio") (.int 30) (.raw (.object
      [("name", .string "Dawn"), ("mime_type", .string "image/png"),
        ("metadata_uri", .string "ipfs://dawn"), ("supply", .int 2)]))⟩,
    ⟨.name "ann", .launchGift (.string "studio") (.int 1) (.string "bob")⟩,
    ⟨.name "bob", .list (.int 1) (.int 10)⟩,
    ⟨.name "ann", .setPrice (.int 1) (.int 1)⟩,
    ⟨.name "bob", .setPrice (.int 1) (.int 12)⟩,
    ⟨.name "bob", .transfer (.int 1)⟩]

theorem listings_are_owners_offers_haggling :
    let start := opened default 10 0 0 funded.funds { time := "" } Method.settings
    let market := start.run haggling
    let call : Call := ⟨.name "ann", .buy (.int 1) (.int 15)⟩
    OfferedBy (.name "bob") 1 12 (start.deeds haggling) ∧
      market.receipt? call = some (.bought 1 15 (.name "bob") (.name "ann")) ∧
        (∃ price, OfferedBy (.name "bob") 1 price (start.deeds haggling) ∧ price ≤ 15) ∧
          ∃ token, (market.after call).store.contents.tokens[(1 : ItemId)]? = some token ∧
            token.owner = .name "ann" ∧ token.price = none := by
  intro start market call
  obtain ⟨hlisted, hbought, hnew⟩ :=
    listings_are_owners_offers default 10 0 0 funded.funds { time := "" } Method.settings haggling
  have hr : market.receipt? call = some (.bought 1 15 (.name "bob") (.name "ann")) := by
    decide +kernel
  have hbefore : (market.store.contents.tokens[(1 : ItemId)]?).map
      (fun token => (token.owner, token.price)) = some (.name "bob", some 12) := by
    decide +kernel
  have hafter : ((market.after call).store.contents.tokens[(1 : ItemId)]?).map Token.owner =
      some (.name "ann") := by
    decide +kernel
  -- The theorem names the market in full, and so have these to do.
  dsimp only [start, market, call] at hr hbefore hafter ⊢
  obtain ⟨before, hb, hbob⟩ := Option.map_eq_some_iff.1 hbefore
  obtain ⟨token, ht, hann⟩ := Option.map_eq_some_iff.1 hafter
  obtain ⟨howner, hprice⟩ := Prod.mk.inj hbob
  have hoffered := hlisted 1 before 12 hb hprice
  rw [howner] at hoffered
  refine ⟨hoffered, hr, hbought _ 1 15 _ _ hr, token, ht, hann, hnew _ 1 token ht ?_⟩
  intro found hfound
  cases hfound.symm.trans hb
  rw [howner, hann]
  decide

end Market

end EditionMarket
