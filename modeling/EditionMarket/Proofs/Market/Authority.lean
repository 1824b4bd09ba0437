import EditionMarket.Proofs.Market.Conservation
import EditionMarket.Proofs.Market.Funds
import EditionMarket.Proofs.Market.LockStep

/-!
# Calls change what their callers control

A call that is completed changes a few slots of the store and at most two balances. This file says for every
kind of call which slots these are, what they hold afterwards, and by what right the caller has changed them:
it is the caller's own token or creator, or the caller has paid for it as much as was asked.

Main statements: `Contents.Does.rightful`, every rule makes one rightful change; and
`callers_change_what_they_control`, what that means for a call after any run.
-/

namespace EditionMarket

/-! ## All slots but some -/

/-- All slots but the given ones hold the same before and after. -/
def Contents.SameBut (slots : List Slot) (before after : Contents) : Prop :=
  ∀ slot, slot ∉ slots → after.read slot = before.read slot

namespace Contents.SameBut

variable {slots : List Slot} {before after : Contents}

theorem refl (slots : List Slot) (contents : Contents) : SameBut slots contents contents :=
  fun _ _ => rfl

theorem write (h : SameBut slots before after) (slot : Slot) (hm : slot ∈ slots) (held : slot.Held) :
    SameBut slots before (after.write slot held) := by
  intro other ho
  have hne : slot ≠ other := by
    rintro rfl
    exact ho hm
  rw [read_write_of_ne _ _ hne]
  exact h other ho

end Contents.SameBut

/-- Apart from some slots, and perhaps from its funds, all that has changed of a market is that there is the
record of one event more. -/
structure Market.ChangesOnly {σ : Type} (slots : List Slot) (kind : String) (data : Fields)
    (before after : Market σ) : Prop where
  contents : before.store.contents.SameBut slots after.store.contents
  store : after.store = { before.store with contents := after.store.contents }
  events : before.events.Gains after.events kind data
  methods : after.methods = before.methods

/-- What a call leaves that is done is of this kind, for the slots that its rule writes to. -/
theorem Market.ChangesOnly.of_done {σ : Type} {before : Market σ} {slots : List Slot}
    {contents : Contents} {funds : σ} (call : Call) (receipt : Receipt)
    (hn : before.store.journal = none) (hsame : before.store.contents.SameBut slots contents) :
    ChangesOnly slots receipt.kind.text (eventFields call.caller receipt) before
      ⟨.idle before.store.limits before.store.ceiling contents, funds,
        before.events.log receipt.kind.text (eventFields call.caller receipt), before.methods⟩ where
  contents := hsame
  store := by
    rw [Store.eq_idle hn]
    rfl
  events := EventLog.gains_log (nodup_eventFields call.caller receipt) _ _
  methods := rfl

/-! ## Rights -/

/-- The account that owns a creator, if the creator is there. -/
def Contents.ownerOf? (contents : Contents) (creator : CreatorId) : Option AccountId :=
  (contents.creators[creator]?).map Creator.owner

theorem Contents.ownerOf?_eq_some_iff {contents : Contents} {creator : CreatorId} {owner : AccountId} :
    contents.ownerOf? creator = some owner ↔
      ∃ record, contents.creators[creator]? = some record ∧ record.owner = owner :=
  Option.map_eq_some_iff

/-- A new token of the edition may go to the receiver: because the caller owns the edition's creator, or
because it goes to the caller, who has paid the owner of the creator at least the price of the edition. -/
def Edition.MayGoTo (source : Edition) (receiver caller : AccountId) (before : Contents)
    (funds paid : Bank) : Prop :=
  (before.ownerOf? source.creator = some caller ∧ paid = funds) ∨
    receiver = caller ∧ ∃ seller bid, before.ownerOf? source.creator = some seller ∧
      source.price ≤ bid ∧ funds.Moves paid caller seller bid

/-- The changes that a caller may make, each with the slots that it is about. What the other fields of a
record are is said by the record that stands there afterwards; where nothing is paid, the funds stay. -/
inductive Rightful (caller : AccountId) (before after : Contents) (funds paid : Bank) : List Slot → Prop
  /-- Nothing has changed. -/
  | nothing (hfunds : paid = funds) : Rightful caller before after funds paid []
  /-- The caller has a creator whose id was free. -/
  | registered {id : CreatorId}
      (hfree : before.creators[id]? = none)
      (hnew : after.creators[id]? = some ⟨id, caller⟩)
      (hroster : after.creatorsOf.itemsAt caller = before.creatorsOf.itemsAt caller ++ [id])
      (hfunds : paid = funds) :
      Rightful caller before after funds paid [.creator id, .creatorsOf caller]
  /-- A creator of the caller is removed or disconnected. -/
  | released {id : CreatorId} {record : Creator}
      (hrecord : before.creators[id]? = some record) (howner : record.owner = caller)
      (hgone : after.creators[id]? = none ∨ after.creators[id]? = some record.disconnect)
      (hroster : after.creatorsOf.itemsAt caller =
        Roster.swapOut id (before.creatorsOf.itemsAt caller))
      (hfunds : paid = funds) :
      Rightful caller before after funds paid [.creator id, .creatorsOf caller]
  /-- A creator of the caller has a new edition. -/
  | minted {id : ItemId} {creator : CreatorId} {price : Int} {metadata : Metadata}
      (howner : before.ownerOf? creator = some caller)
      (hfree : before.editions[id]? = none)
      (hnew : after.editions[id]? = some (Edition.mint id creator price metadata))
      (hlast : after.lastEdition = id)
      (hroster : after.editionsOf.itemsAt creator = before.editionsOf.itemsAt creator ++ [id])
      (hfunds : paid = funds) :
      Rightful caller before after funds paid [.edition id, .editionsOf creator, .lastEdition]
  /-- An edition of a creator of the caller has another price. -/
  | launchPriced {id : ItemId} {source : Edition} {price : Int}
      (howner : before.ownerOf? source.creator = some caller)
      (hsource : before.editions[id]? = some source)
      (hprice : after.editions[id]? = some { source with price := price })
      (hfunds : paid = funds) :
      Rightful caller before after funds paid [.edition id]
  /-- A new token is issued, and its edition counts one more. -/
  | issued {edition id : ItemId} {source : Edition} {receiver : AccountId}
      (hright : source.MayGoTo receiver caller before funds paid)
      (hsource : before.editions[edition]? = some source)
      (hcount : after.editions[edition]? = some { source with issued := source.issued + 1 })
      (hfree : before.tokens[id]? = none)
      (hnew : after.tokens[id]? = some (Token.issue receiver id source))
      (hlast : after.lastToken = id)
      (hroster : after.tokensOf.itemsAt receiver = before.tokensOf.itemsAt receiver ++ [id]) :
      Rightful caller before after funds paid
        [.edition edition, .token id, .tokensOf receiver, .lastToken]
  /-- A token that someone else has for sale goes to the caller, who has paid at least its price. -/
  | bought {id : ItemId} {record : Token} {price bid : Int}
      (hrecord : before.tokens[id]? = some record) (hlisted : record.price = some price)
      (howner : record.owner ≠ caller) (hprice : price ≤ bid)
      (hpaid : funds.Moves paid caller record.owner bid)
      (hmoved : after.tokens[id]? = some { record with owner := caller, price := none })
      (hbuyer : after.tokensOf.itemsAt caller = before.tokensOf.itemsAt caller ++ [id])
      (hseller : after.tokensOf.itemsAt record.owner =
        Roster.swapOut id (before.tokensOf.itemsAt record.owner)) :
      Rightful caller before after funds paid
        [.token id, .tokensOf caller, .tokensOf record.owner]
  /-- A token of the caller has another price, or none. -/
  | priced {id : ItemId} {record : Token} {price : Option Int}
      (hrecord : before.tokens[id]? = some record) (howner : record.owner = caller)
      (hprice : after.tokens[id]? = some { record with price := price })
      (hfunds : paid = funds) :
      Rightful caller before after funds paid [.token id]
  /-- A token of the caller is destroyed, and a unit of its edition goes from the supply to what has been
  destroyed. -/
  | burned {id : ItemId} {record : Token} {source : Edition}
      (hrecord : before.tokens[id]? = some record) (howner : record.owner = caller)
      (hgone : after.tokens[id]? = none)
      (hsource : before.editions[record.edition]? = some source)
      (hcount : after.editions[record.edition]? =
        some { source with supply := source.supply - 1, destroyed := source.destroyed + 1 })
      (hroster : after.tokensOf.itemsAt caller =
        Roster.swapOut id (before.tokensOf.itemsAt caller))
      (hfunds : paid = funds) :
      Rightful caller before after funds paid
        [.token id, .edition record.edition, .tokensOf caller]

/-! ## What the effects leave alone

Every effect is a series of writes, one for each of its slots: to let an item enter or leave a roster is to
write to the slot of that roster. -/

namespace Contents

variable (contents : Contents) (limits : Limits)

theorem sameBut_registered (id : CreatorId) (owner : AccountId) :
    SameBut [.creator id, .creatorsOf owner] contents (contents.registered limits id owner) := by
  obtain ⟨held, he⟩ := contents.creatorsOf.enrolled_eq_set limits.creatorsPerAccount owner id
  unfold registered
  rw [he]
  have hcreator := (SameBut.refl [.creator id, .creatorsOf owner] contents).write
    (.creator id) (by simp) (some ⟨id, owner⟩)
  exact hcreator.write (.creatorsOf owner) (by simp) held

theorem sameBut_released (id : CreatorId) (owner : AccountId) (rest : Option Creator) :
    SameBut [.creator id, .creatorsOf owner] contents (contents.released id owner rest) := by
  obtain ⟨held, he⟩ := contents.creatorsOf.struck_eq_set_held owner id
  unfold released
  rw [he]
  have hcreator := (SameBut.refl [.creator id, .creatorsOf owner] contents).write
    (.creator id) (by simp) rest
  exact hcreator.write (.creatorsOf owner) (by simp) held

theorem sameBut_minted (creator : CreatorId) (price : Int) (metadata : Metadata) :
    SameBut [.edition (contents.lastEdition + 1), .editionsOf creator, .lastEdition] contents
      (contents.minted limits creator price metadata) := by
  obtain ⟨held, he⟩ := contents.editionsOf.enrolled_eq_set limits.editionsPerCreator creator
    (contents.lastEdition + 1)
  unfold minted
  dsimp only
  rw [he]
  have hedition := (SameBut.refl [.edition (contents.lastEdition + 1), .editionsOf creator,
    .lastEdition] contents).write (.edition (contents.lastEdition + 1)) (by simp)
      (some (Edition.mint (contents.lastEdition + 1) creator price metadata))
  have hroster := hedition.write (.editionsOf creator) (by simp) held
  exact hroster.write .lastEdition (by simp) (contents.lastEdition + 1)

theorem sameBut_issued (edition : ItemId) (source : Edition) (receiver : AccountId) :
    SameBut [.edition edition, .token (contents.lastToken + 1), .tokensOf receiver, .lastToken]
      contents (contents.issued limits edition source receiver) := by
  obtain ⟨held, he⟩ := contents.tokensOf.enrolled_eq_set limits.tokensPerAccount receiver
    (contents.lastToken + 1)
  unfold issued
  dsimp only
  rw [he]
  have hedition := (SameBut.refl [.edition edition, .token (contents.lastToken + 1),
    .tokensOf receiver, .lastToken] contents).write (.edition edition) (by simp)
      (some source.issueOne)
  have htoken := hedition.write (.token (contents.lastToken + 1)) (by simp)
    (some (Token.issue receiver (contents.lastToken + 1) source))
  have hroster := htoken.write (.tokensOf receiver) (by simp) held
  exact hroster.write .lastToken (by simp) (contents.lastToken + 1)

theorem sameBut_moved (id : ItemId) (token : Token) (owner receiver : AccountId) :
    SameBut [.token id, .tokensOf receiver, .tokensOf owner] contents
      (contents.moved limits id token owner receiver) := by
  obtain ⟨entered, he⟩ := contents.tokensOf.enrolled_eq_set limits.tokensPerAccount receiver id
  -- The token leaves a roster after it has entered one, which may be the same.
  obtain ⟨left, hl⟩ := (contents.tokensOf.set receiver entered).struck_eq_set_held owner id
  unfold moved
  rw [he, hl]
  have htoken := (SameBut.refl [.token id, .tokensOf receiver, .tokensOf owner] contents).write
    (.token id) (by simp) (some { token with owner := receiver })
  have hreceiver := htoken.write (.tokensOf receiver) (by simp) entered
  exact hreceiver.write (.tokensOf owner) (by simp) left

theorem sameBut_priced (id : ItemId) (token : Token) (price : Option Int) :
    SameBut [.token id] contents (contents.priced id token price) :=
  (SameBut.refl [.token id] contents).write (.token id) (by simp)
    (some { token with price := price })

theorem sameBut_launchPriced (id : ItemId) (edition : Edition) (price : Int) :
    SameBut [.edition id] contents (contents.launchPriced id edition price) :=
  (SameBut.refl [.edition id] contents).write (.edition id) (by simp)
    (some { edition with price := price })

theorem sameBut_burned (id : ItemId) (token : Token) (edition : Edition) :
    SameBut [.token id, .edition token.edition, .tokensOf token.owner] contents
      (contents.burned id token edition) := by
  obtain ⟨held, he⟩ := contents.tokensOf.struck_eq_set_held token.owner id
  unfold burned
  rw [he]
  have hedition := (SameBut.refl [.token id, .edition token.edition, .tokensOf token.owner]
    contents).write (.edition token.edition) (by simp) (some edition.burnOne)
  have htoken := hedition.write (.token id) (by simp) none
  exact htoken.write (.tokensOf token.owner) (by simp) held

end Contents

/-! ## By what right -/

namespace Contents

variable {limits : Limits} {contents next : Contents} {past : List Receipt} {caller : AccountId}
  {funds paid : Bank}

theorem rightful_registered {id : CreatorId} (hfree : contents.creators[id]? = none)
    (hroom : contents.creatorsOf.HasRoom limits.creatorsPerAccount caller) :
    Rightful caller contents (contents.registered limits id caller) funds funds
      [.creator id, .creatorsOf caller] := by
  refine .registered hfree ?_ ?_ rfl
  · show (contents.creators.put id ⟨id, caller⟩)[id]? = _
    rw [Table.getElem?_put, if_pos rfl]
  · show (contents.creatorsOf.enrolled _ _ _).itemsAt caller = _
    rw [Table.itemsAt_enrolled hroom, if_pos rfl]

theorem rightful_released (hstep : contents.LockStep limits) {id : CreatorId} {record : Creator}
    {rest : Option Creator} (hcaller : caller ≠ .nobody)
    (hrecord : contents.creators[id]? = some record) (howner : record.owner = caller)
    (hrest : rest = none ∨ rest = some record.disconnect) :
    Rightful caller contents (contents.released id caller rest) funds funds
      [.creator id, .creatorsOf caller] := by
  have hheld : id ∈ contents.creatorsOf.itemsAt caller :=
    hstep.mem_creatorsOf.2 ⟨hcaller, record, hrecord, howner⟩
  refine .released hrecord howner ?_ ?_ rfl
  · show (contents.creators.set id rest)[id]? = none ∨ (contents.creators.set id rest)[id]? = _
    rw [Table.getElem?_set, if_pos rfl]
    exact hrest
  · show (contents.creatorsOf.struck caller id).itemsAt caller = _
    rw [Table.itemsAt_struck hheld, if_pos rfl]

theorem rightful_minted (hstep : contents.LockStep limits) {creator : CreatorId} {price : Int}
    {metadata : Metadata} (howner : contents.ownerOf? creator = some caller)
    (hroom : contents.editionsOf.HasRoom limits.editionsPerCreator creator) :
    Rightful caller contents (contents.minted limits creator price metadata) funds funds
      [.edition (contents.lastEdition + 1), .editionsOf creator, .lastEdition] := by
  have hnew : (contents.minted limits creator price metadata).editions[contents.lastEdition + 1]? =
      some (Edition.mint (contents.lastEdition + 1) creator price metadata) := by
    unfold minted
    rw [Table.getElem?_put, if_pos rfl]
  refine .minted howner hstep.next_edition hnew rfl ?_ rfl
  show (contents.editionsOf.enrolled _ _ _).itemsAt creator = _
  rw [Table.itemsAt_enrolled hroom, if_pos rfl]

theorem rightful_launchPriced {id : ItemId} {source : Edition} {price : Int}
    (howner : contents.ownerOf? source.creator = some caller)
    (hsource : contents.editions[id]? = some source) :
    Rightful caller contents (contents.launchPriced id source price) funds funds [.edition id] := by
  have hprice : (contents.launchPriced id source price).editions[id]? =
      some { source with price := price } := by
    unfold launchPriced
    rw [Table.getElem?_put, if_pos rfl]
  exact .launchPriced howner hsource hprice rfl

theorem rightful_priced {id : ItemId} {record : Token} {price : Option Int}
    (hrecord : contents.tokens[id]? = some record) (howner : record.owner = caller) :
    Rightful caller contents (contents.priced id record price) funds funds [.token id] := by
  have hprice : (contents.priced id record price).tokens[id]? =
      some { record with price := price } := by
    unfold priced
    rw [Table.getElem?_put, if_pos rfl]
  exact .priced hrecord howner hprice rfl

/-- To move a token to its owner changes nothing: it enters the owner's roster at the end, and the item that
is taken out again may as well be that one. -/
theorem moved_self {holder : ItemId → Option AccountId}
    (hin : contents.tokensOf.InStep limits.tokensPerAccount holder) {id : ItemId} {record : Token}
    (hrecord : contents.tokens[id]? = some record)
    (hroom : contents.tokensOf.HasRoom limits.tokensPerAccount record.owner) :
    contents.moved limits id record record.owner record.owner = contents := by
  have htokens : contents.tokens.put id record = contents.tokens := by
    have hset := Table.set_getElem?_self contents.tokens id
    rwa [hrecord] at hset
  unfold moved
  rw [Table.struck_enrolled_self hroom id (hin.items_ne_nil record.owner)]
  show { contents with tokens := contents.tokens.put id record } = contents
  rw [htokens]

/-- A new token is issued rightfully if the caller has the right to have it issued. -/
theorem rightful_issued (hstep : contents.LockStep limits) (hbooks : contents.Balanced past)
    {edition : ItemId} {source : Edition} {receiver : AccountId}
    (hright : source.MayGoTo receiver caller contents funds paid)
    (hsource : contents.editions[edition]? = some source) (hleft : source.isSoldOut = false)
    (hroom : contents.tokensOf.HasRoom limits.tokensPerAccount receiver) :
    Rightful caller contents (contents.issued limits edition source receiver) funds paid
      [.edition edition, .token (contents.lastToken + 1), .tokensOf receiver, .lastToken] := by
  -- The counts of editions are cut off at the largest supply. As the books balance, this one is below.
  have hcounted : source.issueOne = { source with issued := source.issued + 1 } :=
    (hbooks.editions _ _ hsource).2.issueOne_eq hleft
  refine .issued hright hsource ?_ hstep.next_token ?_ rfl ?_
  · show (contents.editions.put edition source.issueOne)[edition]? = _
    rw [Table.getElem?_put, if_pos rfl, hcounted]
  · show (contents.tokens.put _ _)[_]? = _
    rw [Table.getElem?_put, if_pos rfl]
  · show (contents.tokensOf.enrolled _ _ _).itemsAt receiver = _
    rw [Table.itemsAt_enrolled hroom, if_pos rfl]

theorem rightful_burned (hstep : contents.LockStep limits) (hbooks : contents.Balanced past)
    {id : ItemId} {record : Token} {source : Edition}
    (hrecord : contents.tokens[id]? = some record)
    (hsource : contents.editions[record.edition]? = some source) :
    Rightful record.owner contents (contents.burned id record source) funds funds
      [.token id, .edition record.edition, .tokensOf record.owner] := by
  -- Neither is the supply cut off at zero, as there is a token that can be burned.
  have hcounted : source.burnOne =
      { source with supply := source.supply - 1, destroyed := source.destroyed + 1 } :=
    (hbooks.editions _ _ hsource).2.burnOne_eq (live_pos hrecord)
  have hheld : id ∈ contents.tokensOf.itemsAt record.owner :=
    hstep.mem_tokensOf.2 ⟨record, hrecord, rfl⟩
  refine .burned hrecord rfl ?_ hsource ?_ ?_ rfl
  · show (contents.tokens.drop id)[id]? = none
    rw [Table.getElem?_drop, if_pos rfl]
  · show (contents.editions.put record.edition source.burnOne)[record.edition]? = _
    rw [Table.getElem?_put, if_pos rfl, hcounted]
  · show (contents.tokensOf.struck record.owner id).itemsAt record.owner = _
    rw [Table.itemsAt_struck hheld, if_pos rfl]

theorem rightful_bought (hstep : contents.LockStep limits) {id : ItemId} {record : Token}
    {price bid : Int} (hrecord : contents.tokens[id]? = some record)
    (hlisted : record.price = some price) (howner : record.owner ≠ caller) (hprice : price ≤ bid)
    (hpaid : funds.Moves paid caller record.owner bid)
    (hroom : contents.tokensOf.HasRoom limits.tokensPerAccount caller) :
    Rightful caller contents
      ((contents.moved limits id record record.owner caller).priced id
        { record with owner := caller } none) funds paid
      [.token id, .tokensOf caller, .tokensOf record.owner] := by
  have hheld : id ∈ contents.tokensOf.itemsAt record.owner :=
    hstep.mem_tokensOf.2 ⟨record, hrecord, rfl⟩
  -- The token enters the buyer's roster first, which is not the seller's.
  have hseller : (contents.tokensOf.enrolled limits.tokensPerAccount caller id).itemsAt
      record.owner = contents.tokensOf.itemsAt record.owner := by
    rw [Table.itemsAt_enrolled hroom, if_neg (Ne.symm howner)]
  refine .bought hrecord hlisted howner hprice hpaid ?_ ?_ ?_
  · show ((contents.tokens.put _ _).put id _)[id]? = _
    rw [Table.getElem?_put, if_pos rfl]
  · show ((contents.tokensOf.enrolled _ _ _).struck _ _).itemsAt caller = _
    rw [Table.itemsAt_struck (hseller ▸ hheld), if_neg howner, Table.itemsAt_enrolled hroom,
      if_pos rfl]
  · show ((contents.tokensOf.enrolled _ _ _).struck _ _).itemsAt record.owner = _
    rw [Table.itemsAt_struck (hseller ▸ hheld), if_pos rfl, hseller]

/-- **Every rule makes one rightful change.** -/
theorem Does.rightful (hstep : contents.LockStep limits) (hbooks : contents.Balanced past)
    {ceiling : Int} {action : Action} {receipt : Receipt}
    (hdoes : contents.Does limits ceiling caller action receipt next)
    (hsettles : Currency.Settles funds paid receipt.payment?) :
    ∃ slots, Rightful caller contents next funds paid slots ∧ SameBut slots contents next := by
  have howned {id : CreatorId} {record : Creator} (hrecord : contents.creators[id]? = some record) :
      contents.ownerOf? id = some record.owner :=
    ownerOf?_eq_some_iff.2 ⟨record, hrecord, rfl⟩
  -- Where the receipt is not of a sale, `hsettles` says that the funds are the same.
  cases hdoes with
  | createAccount _ hfree hroom =>
    cases hsettles
    exact ⟨_, rightful_registered hfree hroom, contents.sameBut_registered limits _ _⟩
  | dropAccount _ hcaller hrecord howner =>
    cases hsettles
    refine ⟨_, rightful_released hstep hcaller hrecord howner ?_, contents.sameBut_released _ _ _⟩
    split
    · exact .inl rfl
    · exact .inr rfl
  | mint _ _ _ _ hrecord howner _ _ hroom =>
    cases hsettles
    subst howner
    exact ⟨_, rightful_minted hstep (howned hrecord) hroom, contents.sameBut_minted limits _ _ _⟩
  | launchGift _ _ _ _ hrecord howner hsource hmade hleft _ hroom =>
    subst howner hmade
    exact ⟨_, rightful_issued hstep hbooks (.inl ⟨howned hrecord, hsettles⟩) hsource hleft hroom,
      contents.sameBut_issued limits _ _ _⟩
  | launchBuy _ _ hsource hrecord _ hprice hleft _ hroom =>
    have hpaid := Bank.Moves.of_settles hsettles
    exact ⟨_, rightful_issued hstep hbooks (.inr ⟨rfl, _, _, howned hrecord, hprice, hpaid⟩) hsource
      hleft hroom, contents.sameBut_issued limits _ _ _⟩
  | buy _ _ hrecord hlisted howner hprice hroom =>
    have hpaid := Bank.Moves.of_settles hsettles
    refine ⟨_, rightful_bought hstep hrecord hlisted howner hprice hpaid hroom, ?_⟩
    exact (contents.sameBut_moved limits _ _ _ _).write (.token _) (by simp) (some _)
  | transfer _ hrecord howner hroom =>
    cases hsettles
    subst howner
    rw [moved_self hstep.tokensOf hrecord hroom]
    exact ⟨[], .nothing rfl, .refl [] contents⟩
  | list _ _ hrecord howner =>
    cases hsettles
    exact ⟨_, rightful_priced hrecord howner, contents.sameBut_priced _ _ _⟩
  | unlist _ hrecord howner =>
    cases hsettles
    exact ⟨_, rightful_priced hrecord howner, contents.sameBut_priced _ _ _⟩
  | setLaunchPrice _ _ _ _ hrecord howner hsource hmade =>
    cases hsettles
    subst howner hmade
    exact ⟨_, rightful_launchPriced (howned hrecord) hsource, contents.sameBut_launchPriced _ _ _⟩
  | setPrice _ _ hrecord howner =>
    cases hsettles
    exact ⟨_, rightful_priced hrecord howner, contents.sameBut_priced _ _ _⟩
  | burn _ hrecord howner hsource =>
    cases hsettles
    subst howner
    exact ⟨_, rightful_burned hstep hbooks hrecord hsource, contents.sameBut_burned _ _ _⟩

end Contents

namespace Market

/-- **Callers change what they control.** After any run of calls that accounts have made, a call that is
completed changes the contents of the store in a few slots only, and what it does there and to the balances
is one of the changes that its caller may make. -/
theorem callers_change_what_they_control (limits : Limits) (ceiling lastEdition lastToken : Int)
    (funds : Bank) (events : EventLog) (methods : Method → MethodSettings) {calls : List Call}
    (hcallers : ∀ call ∈ calls, call.caller ≠ .nobody) {call : Call} {receipt : Receipt} :
    let market := (opened limits ceiling lastEdition lastToken funds events methods).run calls
    let next := market.after call
    market.receipt? call = some receipt →
      next.store = { market.store with contents := next.store.contents } ∧
        ∃ slots, Rightful call.caller market.store.contents next.store.contents market.funds next.funds
            slots ∧
          market.store.contents.SameBut slots next.store.contents := by
  intro market next hr
  have hn : market.store.journal = none := journal_run calls rfl
  have hlimits : market.store.limits = limits := limits_run calls rfl
  have hstep : market.store.contents.LockStep limits :=
    lockStep_run limits ceiling lastEdition lastToken funds events methods hcallers
  have hbooks := balanced_run limits ceiling lastEdition lastToken funds events methods calls
  obtain ⟨hdoes, hsettles⟩ := does_of_receipt? hn hr
  rw [hlimits] at hdoes
  refine ⟨?_, hdoes.rightful hstep hbooks hsettles⟩
  have hstore := run_store_eq [call] hn
  rw [Store.eq_idle hn]
  exact hstore

/-- After the trades but for the last one, an account buys a token from another one. -/
theorem callers_change_what_they_control_trades :
    (∀ call ∈ trades.take 5, call.caller ≠ .nobody) ∧
      let market := funded.run (trades.take 5)
      let call : Call := ⟨.name "ann", .buy (.int 1) (.int 12)⟩
      market.receipt? call = some (.bought 1 12 (.name "bob") (.name "ann")) ∧
        ∃ slots, Rightful call.caller market.store.contents (market.after call).store.contents
            market.funds (market.after call).funds slots ∧
          market.store.contents.SameBut slots (market.after call).store.contents := by
  have hcallers : ∀ call ∈ trades.take 5, call.caller ≠ .nobody := by decide
  have hr : (funded.run (trades.take 5)).receipt? ⟨.name "ann", .buy (.int 1) (.int 12)⟩ =
      some (.bought 1 12 (.name "bob") (.name "ann")) := by
    decide +kernel
  exact ⟨hcallers, hr, (callers_change_what_they_control _ _ _ _ _ _ _ hcallers hr).2⟩

end Market

end EditionMarket
