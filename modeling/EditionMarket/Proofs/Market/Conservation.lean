import EditionMarket.Proofs.Market.Refused
import EditionMarket.Proofs.Table

/-!
# No edition is ever oversold

An edition counts the tokens that were issued from it and those that were destroyed, and moves a unit from
its supply with every token that is destroyed. This file proves that its books always balance: supply and
destroyed units make up what was minted, the tokens that are there are those that were issued and not
destroyed, and no count ever has to be cut off.

Main statements: `Contents.Balanced.does`, every rule keeps the books balanced, and
`minted_edition_never_oversold`, what that means for a run.
-/

namespace EditionMarket

/-! ## Books -/

/-- The edition of which the action issued a token. -/
def Receipt.source? : Receipt → Option ItemId
  | gifted edition .. => some edition
  | launched edition .. => some edition
  | _ => none

/-- The number of tokens that were issued from an edition. -/
def issuedFrom (edition : ItemId) (past : List Receipt) : Nat :=
  past.countP fun receipt => receipt.source? = some edition

theorem issuedFrom_append_singleton (edition : ItemId) (past : List Receipt) (receipt : Receipt) :
    issuedFrom edition (past ++ [receipt]) =
      issuedFrom edition past + if receipt.source? = some edition then 1 else 0 := by
  unfold issuedFrom
  rw [List.countP_append, List.countP_singleton]
  simp only [decide_eq_true_eq]

/-- The number of tokens of an edition. -/
def live (edition : ItemId) (tokens : Table ItemId Token) : Nat :=
  tokens.count fun token => token.edition = edition

section Live

variable {tokens : Table ItemId Token} {id : ItemId} {token next : Token}

/-- A token that is replaced by one of the same edition makes no difference. -/
theorem live_put_of_eq (h : tokens[id]? = some token) (he : next.edition = token.edition)
    (edition : ItemId) : live edition (tokens.put id next) = live edition tokens := by
  apply Table.count_put_of_eq h
  rw [he]

theorem live_put_of_none (h : tokens[id]? = none) (token : Token) (edition : ItemId) :
    live edition (tokens.put id token) =
      live edition tokens + if token.edition = edition then 1 else 0 := by
  unfold live
  rw [Table.count_put_of_none h]
  simp only [decide_eq_true_eq]

theorem live_eq_add (h : tokens[id]? = some token) (edition : ItemId) :
    live edition tokens =
      live edition (tokens.drop id) + if token.edition = edition then 1 else 0 := by
  unfold live
  rw [Table.count_eq_add h]
  simp only [decide_eq_true_eq]

theorem live_pos (h : tokens[id]? = some token) : 0 < live token.edition tokens := by
  rw [live_eq_add h, if_pos rfl]
  exact Nat.succ_pos _

end Live

/-- No count of the edition is cut off: its total is what it should be, as long as it is not sold out a
token that is issued is counted, and as long as it has a token, one that is destroyed is counted. -/
structure Edition.Uncut (edition : Edition) (tokens : Table ItemId Token) (id : ItemId) : Prop where
  totalSupply_eq : edition.totalSupply = edition.supply + edition.destroyed
  issued_issueOne : edition.isSoldOut = false → edition.issueOne.issued = edition.issued + 1
  supply_burnOne : ∀ (token : ItemId) (record : Token), tokens[token]? = some record →
    record.edition = id → edition.burnOne.supply = edition.supply - 1
  destroyed_burnOne : ∀ (token : ItemId) (record : Token), tokens[token]? = some record →
    record.edition = id → edition.burnOne.destroyed = edition.destroyed + 1

/-- The books of an edition balance: it was minted with as much as is left of its supply and was
destroyed, it has issued as many tokens as receipts say, and the tokens that are there are those that were
issued and not destroyed. -/
structure Edition.Accounted (edition : Edition) (past : List Receipt) (tokens : Table ItemId Token)
    (id : ItemId) : Prop where
  id_eq : edition.id = id
  minted : ∃ creator price,
    Receipt.minted creator id price (edition.supply + edition.destroyed) ∈ past
  issued_eq : edition.issued = issuedFrom id past
  live_eq : (live id tokens : Int) = edition.issued - edition.destroyed
  destroyed_nonneg : 0 ≤ edition.destroyed
  issued_le : edition.issued ≤ edition.supply + edition.destroyed
  supply_le : edition.supply + edition.destroyed ≤ Argument.largestSupply

namespace Edition.Accounted

variable {edition : Edition} {past : List Receipt} {receipt : Receipt}
  {tokens next : Table ItemId Token} {id : ItemId}

/-! ## No count is cut off -/

theorem totalSupply_eq (h : edition.Accounted past tokens id) :
    edition.totalSupply = edition.supply + edition.destroyed :=
  Int.min_eq_left h.supply_le

/-- As long as the edition is not sold out, one more token is counted as such. -/
theorem issued_issueOne (h : edition.Accounted past tokens id) (hleft : edition.isSoldOut = false) :
    edition.issued < edition.supply + edition.destroyed ∧
      edition.issueOne.issued = edition.issued + 1 := by
  have hlt : edition.issued < edition.supply + edition.destroyed := by
    rw [← h.totalSupply_eq]
    exact Int.not_le.1 (of_decide_eq_false hleft)
  exact ⟨hlt, Edition.issued_issueOne (Int.lt_of_lt_of_le hlt h.supply_le)⟩

/-- As long as a token of the edition is there, there is supply to take a unit from. -/
theorem supply_burnOne (h : edition.Accounted past tokens id) (hlive : 0 < live id tokens) :
    edition.burnOne.supply = edition.supply - 1 ∧
      edition.burnOne.destroyed = edition.destroyed + 1 := by
  -- What is there was issued and not destroyed, and no more than was minted can have been issued.
  have hpos : (0 : Int) < live id tokens := Int.ofNat_lt.2 hlive
  have h₁ := h.live_eq
  have h₂ := h.issued_le
  have h₃ := h.supply_le
  have h₄ := h.destroyed_nonneg
  constructor
  · show max (edition.supply - 1) 0 = edition.supply - 1
    omega
  · show min (edition.destroyed + 1) (Argument.largestSupply : Int) = edition.destroyed + 1
    omega

/-- So issuing and burning do to the edition what they say and no more. -/
theorem issueOne_eq (h : edition.Accounted past tokens id) (hleft : edition.isSoldOut = false) :
    edition.issueOne = { edition with issued := edition.issued + 1 } := by
  rw [← (h.issued_issueOne hleft).2]
  rfl

theorem burnOne_eq (h : edition.Accounted past tokens id) (hlive : 0 < live id tokens) :
    edition.burnOne =
      { edition with supply := edition.supply - 1, destroyed := edition.destroyed + 1 } := by
  obtain ⟨hsupply, hdestroyed⟩ := h.supply_burnOne hlive
  rw [← hsupply, ← hdestroyed]
  rfl

theorem uncut (h : edition.Accounted past tokens id) : edition.Uncut tokens id where
  totalSupply_eq := h.totalSupply_eq
  issued_issueOne hleft := (h.issued_issueOne hleft).2
  supply_burnOne _ _ ht he := (h.supply_burnOne (he ▸ live_pos ht)).1
  destroyed_burnOne _ _ ht he := (h.supply_burnOne (he ▸ live_pos ht)).2

/-- An edition is sold out once as many tokens were issued from it as it was minted with. -/
theorem isSoldOut_iff (h : edition.Accounted past tokens id) :
    edition.isSoldOut = true ↔ edition.supply + edition.destroyed ≤ issuedFrom id past := by
  rw [← h.issued_eq, ← h.totalSupply_eq]
  exact decide_eq_true_iff

/-! ## How the books of an edition change -/

/-- Only the number of the edition's own tokens matters. -/
theorem of_live (h : edition.Accounted past tokens id) (hlive : live id next = live id tokens) :
    edition.Accounted past next id :=
  ⟨h.id_eq, h.minted, h.issued_eq, hlive ▸ h.live_eq, h.destroyed_nonneg, h.issued_le, h.supply_le⟩

/-- A receipt about something else changes nothing. -/
theorem other (h : edition.Accounted past tokens id) (hr : receipt.source? ≠ some id) :
    edition.Accounted (past ++ [receipt]) tokens id where
  id_eq := h.id_eq
  minted := by
    obtain ⟨creator, price, hm⟩ := h.minted
    exact ⟨creator, price, List.mem_append_left _ hm⟩
  issued_eq := by
    rw [h.issued_eq, issuedFrom_append_singleton, if_neg hr, Nat.add_zero]
  live_eq := h.live_eq
  destroyed_nonneg := h.destroyed_nonneg
  issued_le := h.issued_le
  supply_le := h.supply_le

/-- The edition has another price. -/
theorem withPrice (h : edition.Accounted past tokens id) (price : Int) :
    ({ edition with price := price } : Edition).Accounted past tokens id :=
  ⟨h.id_eq, h.minted, h.issued_eq, h.live_eq, h.destroyed_nonneg, h.issued_le, h.supply_le⟩

/-- An edition that was just minted. Nothing has been issued from it. -/
theorem mint {creator : CreatorId} {price : Int} {metadata : Metadata}
    (hm : .minted creator id price metadata.supply ∈ past) (hissued : issuedFrom id past = 0)
    (hlive : live id tokens = 0) :
    (Edition.mint id creator price metadata).Accounted past tokens id := by
  have hsupply := metadata.supply_le
  constructor
  case id_eq => rfl
  case minted =>
    refine ⟨creator, price, ?_⟩
    show Receipt.minted creator id price (metadata.supply + 0) ∈ past
    rw [Int.add_zero]
    exact hm
  case issued_eq =>
    rw [hissued]
    rfl
  case live_eq =>
    rw [hlive]
    rfl
  case destroyed_nonneg => exact Int.le_refl 0
  case issued_le =>
    show (0 : Int) ≤ metadata.supply + 0
    omega
  case supply_le =>
    show (metadata.supply : Int) + 0 ≤ Argument.largestSupply
    omega

/-- A token was issued. -/
theorem issueOne (h : edition.Accounted past tokens id) (hleft : edition.isSoldOut = false)
    (hlive : live id next = live id tokens + 1) (hr : receipt.source? = some id) :
    edition.issueOne.Accounted (past ++ [receipt]) next id := by
  obtain ⟨hlt, hissued⟩ := h.issued_issueOne hleft
  have hcount : issuedFrom id (past ++ [receipt]) = issuedFrom id past + 1 := by
    rw [issuedFrom_append_singleton, if_pos hr]
  have h₁ := h.live_eq
  have h₂ := h.issued_eq
  constructor
  case id_eq => exact h.id_eq
  case minted =>
    obtain ⟨creator, price, hm⟩ := h.minted
    exact ⟨creator, price, List.mem_append_left _ hm⟩
  case issued_eq =>
    rw [hissued, hcount, h₂]
    rfl
  case live_eq =>
    rw [hissued, hlive]
    show ((live id tokens + 1 : Nat) : Int) = edition.issued + 1 - edition.destroyed
    omega
  case destroyed_nonneg => exact h.destroyed_nonneg
  case issued_le =>
    rw [hissued]
    exact hlt
  case supply_le => exact h.supply_le

/-- A token was destroyed. -/
theorem burnOne (h : edition.Accounted past tokens id)
    (hlive : live id tokens = live id next + 1) : edition.burnOne.Accounted past next id := by
  obtain ⟨hsupply, hdestroyed⟩ := h.supply_burnOne (by omega)
  -- One unit goes from the supply to what was destroyed.
  have hsum : edition.burnOne.supply + edition.burnOne.destroyed =
      edition.supply + edition.destroyed := by
    omega
  have h₁ := h.live_eq
  have h₂ := h.destroyed_nonneg
  constructor
  case id_eq => exact h.id_eq
  case minted =>
    rw [hsum]
    exact h.minted
  case issued_eq => exact h.issued_eq
  case live_eq =>
    rw [hdestroyed]
    show (live id next : Int) = edition.issued - (edition.destroyed + 1)
    omega
  case destroyed_nonneg => omega
  case issued_le =>
    rw [hsum]
    exact h.issued_le
  case supply_le =>
    rw [hsum]
    exact h.supply_le

end Edition.Accounted

/-! ## The books of a store -/

/-- The books of all editions balance, every edition that was ever minted is there with all of its units,
and nothing is known of editions that are still to come. -/
structure Contents.Balanced (past : List Receipt) (contents : Contents) : Prop where
  editions : contents.editions.All fun id edition =>
    id ≤ contents.lastEdition ∧ edition.Accounted past contents.tokens id
  tokens : contents.tokens.All fun id token =>
    id ≤ contents.lastToken ∧ token.edition ≤ contents.lastEdition
  minted : ∀ creator id price supply, Receipt.minted creator id price supply ∈ past →
    ∃ edition, contents.editions[id]? = some edition ∧
      edition.supply + edition.destroyed = supply
  issued : ∀ receipt ∈ past, ∀ id, receipt.source? = some id → id ≤ contents.lastEdition

namespace Contents.Balanced

variable {past : List Receipt} {contents next : Contents} {receipt : Receipt} {id : ItemId}

theorem empty (lastEdition lastToken : Int) :
    Balanced [] { lastEdition := lastEdition, lastToken := lastToken } where
  editions := .empty _
  tokens := .empty _
  minted _ _ _ _ h := by cases h
  issued _ h := by cases h

/-- A receipt that is not about issuing or minting makes no difference. -/
theorem append (h : Balanced past contents) (hr : receipt.source? = none)
    (hm : ∀ creator id price supply, receipt ≠ .minted creator id price supply) :
    Balanced (past ++ [receipt]) contents := by
  constructor
  case editions =>
    refine h.editions.mono fun id edition he => ⟨he.1, he.2.other ?_⟩
    rw [hr]
    exact nofun
  case tokens => exact h.tokens
  case minted =>
    intro creator id price supply hp
    rcases List.mem_append.1 hp with hp | hp
    · exact h.minted creator id price supply hp
    · exact absurd (List.mem_singleton.1 hp).symm (hm creator id price supply)
  case issued =>
    intro other ho id hs
    rcases List.mem_append.1 ho with ho | ho
    · exact h.issued other ho id hs
    · rw [List.mem_singleton.1 ho, hr] at hs
      cases hs

/-- Creators do not matter. -/
theorem registered (h : Balanced past contents) (limits : Limits) (creator : CreatorId)
    (owner : AccountId) : Balanced past (contents.registered limits creator owner) :=
  ⟨h.editions, h.tokens, h.minted, h.issued⟩

theorem released (h : Balanced past contents) (creator : CreatorId) (owner : AccountId)
    (rest : Option Creator) : Balanced past (contents.released creator owner rest) :=
  ⟨h.editions, h.tokens, h.minted, h.issued⟩

/-- A token may be changed in whatever way, as long as it stays with its edition, and rosters do not
matter. -/
theorem put_token (h : Balanced past contents) {token other : Token}
    (htoken : contents.tokens[id]? = some token) (hedition : other.edition = token.edition)
    (rosters : Table AccountId (Roster ItemId)) :
    Balanced past
      { contents with tokens := contents.tokens.put id other, tokensOf := rosters } := by
  have hold := h.tokens _ _ htoken
  constructor
  case editions =>
    refine h.editions.mono fun edition record he => ⟨he.1, he.2.of_live ?_⟩
    exact live_put_of_eq htoken hedition edition
  case tokens => exact h.tokens.put ⟨hold.1, hedition ▸ hold.2⟩
  case minted => exact h.minted
  case issued => exact h.issued

theorem moved (h : Balanced past contents) (limits : Limits) {token : Token}
    (htoken : contents.tokens[id]? = some token) (owner receiver : AccountId) :
    Balanced past (contents.moved limits id token owner receiver) := by
  have hedition : ({ token with owner := receiver } : Token).edition = token.edition := rfl
  exact h.put_token htoken hedition _

theorem priced (h : Balanced past contents) {token : Token}
    (htoken : contents.tokens[id]? = some token) (price : Option Int) :
    Balanced past (contents.priced id token price) := by
  have hedition : ({ token with price := price } : Token).edition = token.edition := rfl
  exact h.put_token htoken hedition _

/-- One edition has changed, and with it at most the tokens of that edition. -/
theorem update (h : Balanced past contents) {source edition : Edition}
    (hsource : contents.editions[id]? = some source)
    (heditions : next.editions = contents.editions.put id edition)
    (hlast : next.lastEdition = contents.lastEdition)
    (htokens : next.tokens.All fun id token =>
      id ≤ next.lastToken ∧ token.edition ≤ contents.lastEdition)
    (hedition : edition.Accounted (past ++ [receipt]) next.tokens id)
    (hsum : edition.supply + edition.destroyed = source.supply + source.destroyed)
    (hlive : ∀ other, other ≠ id → live other next.tokens = live other contents.tokens)
    (hr : ∀ other, other ≠ id → receipt.source? ≠ some other)
    (hm : ∀ creator id price supply, receipt ≠ .minted creator id price supply) :
    Balanced (past ++ [receipt]) next := by
  constructor
  case editions =>
    rw [heditions, hlast]
    intro other found hf
    rw [Table.getElem?_put] at hf
    by_cases hk : id = other
    · subst hk
      rw [if_pos rfl] at hf
      cases hf
      exact ⟨(h.editions _ _ hsource).1, hedition⟩
    -- The other editions have lost no token, and the receipt is not about them.
    · rw [if_neg hk] at hf
      obtain ⟨hle, hother⟩ := h.editions _ _ hf
      exact ⟨hle, (hother.of_live (hlive other (Ne.symm hk))).other (hr other (Ne.symm hk))⟩
  case tokens =>
    rw [hlast]
    exact htokens
  case minted =>
    intro creator other price supply hp
    rcases List.mem_append.1 hp with hp | hp
    · obtain ⟨found, hf, hs⟩ := h.minted creator other price supply hp
      rw [heditions, Table.getElem?_put]
      by_cases hk : id = other
      · subst hk
        rw [hsource] at hf
        cases hf
        exact ⟨edition, if_pos rfl, hsum.trans hs⟩
      · exact ⟨found, (if_neg hk).trans hf, hs⟩
    · exact absurd (List.mem_singleton.1 hp).symm (hm creator other price supply)
  case issued =>
    intro earlier he other hs
    rw [hlast]
    rcases List.mem_append.1 he with he | he
    · exact h.issued earlier he other hs
    · rw [List.mem_singleton.1 he] at hs
      by_cases hk : other = id
      · rw [hk]
        exact (h.editions _ _ hsource).1
      · exact absurd hs (hr other hk)

/-! ## What the rules do to the books -/

/-- The next edition is not there, and neither receipts nor tokens say anything of it. -/
theorem next_edition (h : Balanced past contents) :
    contents.editions[contents.lastEdition + 1]? = none ∧
      issuedFrom (contents.lastEdition + 1) past = 0 ∧
        live (contents.lastEdition + 1) contents.tokens = 0 := by
  have hlt : ¬ contents.lastEdition + 1 ≤ contents.lastEdition := Int.not_le.2 (Int.lt_succ _)
  refine ⟨h.editions.getElem?_eq_none fun _ he => hlt he.1, ?_, ?_⟩
  · unfold issuedFrom
    rw [List.countP_eq_zero]
    intro receipt hm heq
    exact hlt (h.issued receipt hm _ (of_decide_eq_true heq))
  · refine Table.count_eq_zero (h.tokens.mono fun _ token ht heq => hlt ?_)
    rw [← of_decide_eq_true heq]
    exact ht.2

theorem of_minted (h : Balanced past contents) (limits : Limits) (creator : CreatorId) (price : Int)
    (metadata : Metadata) :
    Balanced
      (past ++ [.minted creator (contents.lastEdition + 1) price metadata.supply])
      (contents.minted limits creator price metadata) := by
  obtain ⟨hfree, hissued, hlive⟩ := h.next_edition
  have hle : ∀ id : ItemId, id ≤ contents.lastEdition → id ≤ contents.lastEdition + 1 :=
    fun _ hid => Int.le_of_lt (Int.lt_add_one_of_le hid)
  constructor
  case editions =>
    refine Table.All.put (h.editions.mono fun id edition he =>
      ⟨hle id he.1, he.2.other nofun⟩) ⟨Int.le_refl _, .mint ?_ ?_ hlive⟩
    · exact List.mem_append_right _ (List.mem_singleton_self _)
    · rw [issuedFrom_append_singleton, hissued]
      rfl
  case tokens => exact h.tokens.mono fun id token ht => ⟨ht.1, hle _ ht.2⟩
  case minted =>
    intro other id amount supply hp
    show ∃ edition, (contents.editions.put _ _)[id]? = some edition ∧ _
    rw [Table.getElem?_put]
    rcases List.mem_append.1 hp with hp | hp
    -- An edition that was minted earlier is another one, as the next one was not there.
    · obtain ⟨edition, hf, hs⟩ := h.minted other id amount supply hp
      have hne : contents.lastEdition + 1 ≠ id := by
        rintro rfl
        rw [hfree] at hf
        cases hf
      exact ⟨edition, (if_neg hne).trans hf, hs⟩
    · cases List.mem_singleton.1 hp
      exact ⟨_, if_pos rfl, Int.add_zero _⟩
  case issued =>
    intro receipt hm id hs
    rcases List.mem_append.1 hm with hm | hm
    · exact hle id (h.issued receipt hm id hs)
    · rw [List.mem_singleton.1 hm] at hs
      cases hs

/-- A token was issued from an edition that was not sold out. -/
theorem of_issued (h : Balanced past contents) (limits : Limits) {source : Edition}
    {receiver : AccountId} (hsource : contents.editions[id]? = some source)
    (hleft : source.isSoldOut = false) (hr : receipt.source? = some id)
    (hm : ∀ creator id price supply, receipt ≠ .minted creator id price supply) :
    Balanced (past ++ [receipt]) (contents.issued limits id source receiver) := by
  obtain ⟨hle, haccounted⟩ := h.editions _ _ hsource
  -- The number of the new token is above all that were given out, so no token is replaced.
  have hfree : contents.tokens[contents.lastToken + 1]? = none :=
    h.tokens.getElem?_eq_none fun _ ht => Int.not_le.2 (Int.lt_succ _) ht.1
  have hlive := live_put_of_none hfree (Token.issue receiver (contents.lastToken + 1) source)
  have hedition : (Token.issue receiver (contents.lastToken + 1) source).edition = id :=
    haccounted.id_eq
  refine h.update hsource rfl rfl ?_ ?_ rfl ?_ ?_ hm
  · refine Table.All.put (h.tokens.mono fun other token ht => ⟨?_, ht.2⟩) ⟨Int.le_refl _, ?_⟩
    · exact Int.le_of_lt (Int.lt_add_one_of_le ht.1)
    · rw [hedition]
      exact hle
  · refine haccounted.issueOne hleft ?_ hr
    exact (hlive id).trans (by rw [if_pos hedition])
  · intro other hne
    exact (hlive other).trans (by rw [hedition, if_neg (Ne.symm hne), Nat.add_zero])
  · intro other hne
    rw [hr]
    exact fun heq => hne (Option.some.inj heq).symm

/-- A token was destroyed. -/
theorem of_burned (h : Balanced past contents) {source : Edition} {token : Token}
    (htoken : contents.tokens[id]? = some token)
    (hsource : contents.editions[token.edition]? = some source) :
    Balanced (past ++ [.burnt id token.edition]) (contents.burned id token source) := by
  obtain ⟨-, haccounted⟩ := h.editions _ _ hsource
  have hlive := live_eq_add htoken
  have hburned : live token.edition contents.tokens =
      live token.edition (contents.tokens.drop id) + 1 := by
    rw [hlive, if_pos rfl]
  obtain ⟨hsupply, hdestroyed⟩ := haccounted.supply_burnOne (by omega)
  refine h.update hsource rfl rfl h.tokens.drop ?_ (by omega) ?_ (fun _ _ => nofun) nofun
  · exact (haccounted.burnOne hburned).other nofun
  · intro other hne
    have hother := hlive other
    rw [if_neg (Ne.symm hne)] at hother
    exact hother.symm

/-- Every rule keeps the books balanced. -/
theorem does (h : Balanced past contents) {limits : Limits} {ceiling : Int} {caller : AccountId}
    {action : Action} (hdoes : contents.Does limits ceiling caller action receipt next) :
    Balanced (past ++ [receipt]) next := by
  cases hdoes with
  | createAccount => exact (h.registered _ _ _).append rfl nofun
  | dropAccount => exact (h.released _ _ _).append rfl nofun
  | mint => exact h.of_minted _ _ _ _
  | launchGift _ _ _ _ _ _ hsource _ hleft => exact h.of_issued _ hsource hleft rfl nofun
  | launchBuy _ _ hsource _ _ _ hleft => exact h.of_issued _ hsource hleft rfl nofun
  | buy _ _ hrecord =>
    exact ((h.moved _ hrecord _ _).priced tokens_moved_self none).append rfl nofun
  | transfer _ hrecord => exact (h.moved _ hrecord _ _).append rfl nofun
  | list _ _ hrecord => exact (h.priced hrecord _).append rfl nofun
  | unlist _ hrecord => exact (h.priced hrecord _).append rfl nofun
  | setLaunchPrice _ _ _ _ _ _ hsource =>
    have haccounted := (h.editions _ _ hsource).2
    exact h.update hsource rfl rfl h.tokens ((haccounted.withPrice _).other nofun) rfl
      (fun _ _ => rfl) (fun _ _ => nofun) nofun
  | setPrice _ _ hrecord => exact (h.priced hrecord _).append rfl nofun
  | burn _ hrecord _ hsource => exact h.of_burned hrecord hsource

/-- An edition that was minted is there, and its books balance. -/
theorem accounted (h : Balanced past contents) {creator : CreatorId} {price supply : Int}
    (hm : .minted creator id price supply ∈ past) :
    ∃ edition, contents.editions[id]? = some edition ∧
      edition.supply + edition.destroyed = supply ∧
        edition.Accounted past contents.tokens id := by
  obtain ⟨edition, hf, hs⟩ := h.minted creator id price supply hm
  exact ⟨edition, hf, hs, (h.editions _ _ hf).2⟩

/-- An edition that is sold out stays sold out: later on it has still been minted with as much, and has
issued no less. -/
theorem isSoldOut_mono (h : Balanced past contents) {more : List Receipt}
    (hnext : Balanced (past ++ more) next) {edition : Edition}
    (hfound : contents.editions[id]? = some edition) (hsold : edition.isSoldOut = true) :
    ∃ later, next.editions[id]? = some later ∧ later.isSoldOut = true := by
  have haccounted := (h.editions _ _ hfound).2
  obtain ⟨creator, price, hm⟩ := haccounted.minted
  obtain ⟨later, hlater, hsum, haccounted'⟩ := hnext.accounted (List.mem_append_left more hm)
  have hmono : issuedFrom id past ≤ issuedFrom id (past ++ more) := by
    unfold issuedFrom
    rw [List.countP_append]
    exact Nat.le_add_right _ _
  refine ⟨later, hlater, ?_⟩
  rw [haccounted.isSoldOut_iff] at hsold
  rw [haccounted'.isSoldOut_iff]
  omega

end Contents.Balanced

/-! ## The books after a run -/

namespace Market

variable {σ : Type} [Currency σ]

/-- The books of a market balance after every run. -/
theorem balanced_run (limits : Limits) (ceiling lastEdition lastToken : Int) (funds : σ)
    (events : EventLog) (methods : Method → MethodSettings) (calls : List Call) :
    let market := opened limits ceiling lastEdition lastToken funds events methods
    (market.run calls).store.contents.Balanced (market.receipts calls) := by
  intro market
  refine run_invariant Contents.Balanced rfl (Contents.Balanced.empty lastEdition lastToken) ?_
  intro call _ past contents receipt next h hdoes
  exact h.does hdoes

/-- **Editions are never oversold.** After any run, whoever made its calls and whatever they were answered:
every edition that is there was minted in the run, and every edition that was minted is there. What is left
of its supply and what was destroyed make up what it was minted with; not more tokens than that have been
issued, and as many are there as were issued and not destroyed; and no count is ever cut off. Over the
whole run not more tokens were issued than the edition was minted with, however many were destroyed, and
once it is sold out every launch is refused, however the run goes on. -/
theorem minted_edition_never_oversold (limits : Limits) (ceiling lastEdition lastToken : Int)
    (funds : σ) (events : EventLog) (methods : Method → MethodSettings) (calls : List Call) :
    let start := opened limits ceiling lastEdition lastToken funds events methods
    let past := start.receipts calls
    let contents := (start.run calls).store.contents
    (∀ (id : ItemId) (edition : Edition), contents.editions[id]? = some edition →
        ∃ creator price, .minted creator id price (edition.supply + edition.destroyed) ∈ past) ∧
      ∀ creator id price supply, .minted creator id price supply ∈ past →
        ∃ edition : Edition, contents.editions[id]? = some edition ∧
          edition.supply + edition.destroyed = supply ∧
          edition.issued ≤ supply ∧
          (live id contents.tokens : Int) = edition.issued - edition.destroyed ∧
          edition.Uncut contents.tokens id ∧
          edition.issued = issuedFrom id past ∧
          (edition.isSoldOut = true → ∀ later call, call.action.Launches id →
            ∃ refusal, ((start.run calls).run later).answer call = .ok (.refused refusal)) := by
  intro start past contents
  have hbalanced (calls : List Call) :
      (start.run calls).store.contents.Balanced (start.receipts calls) :=
    balanced_run limits ceiling lastEdition lastToken funds events methods calls
  constructor
  · intro id edition hfound
    exact ((hbalanced calls).editions _ _ hfound).2.minted
  intro creator id price supply hm
  obtain ⟨edition, hfound, hsum, haccounted⟩ := (hbalanced calls).accounted hm
  refine ⟨edition, hfound, hsum, hsum ▸ haccounted.issued_le, haccounted.live_eq,
    haccounted.uncut, haccounted.issued_eq, ?_⟩
  intro hsold later call hlaunch
  have hlater := hbalanced (calls ++ later)
  rw [start.receipts_append, start.run_append] at hlater
  obtain ⟨edition', hfound', hsold'⟩ := (hbalanced calls).isSoldOut_mono hlater hfound hsold
  exact answer_launch_of_isSoldOut (journal_run later (journal_run calls rfl)) hlaunch hfound' hsold'

/-- An account mints an edition of two tokens. It gives one away, which is burned, and buys the other. -/
def sellOut : List Call :=
  [⟨.name "ann", .createAccount (.string "studio")⟩,
    ⟨.name "ann", .mint (.string "studio") (.int 0) (.raw (.object
      [("name", .string "Dusk"), ("mime_type", .string "image/png"),
        ("metadata_uri", .string "ipfs://dusk"), ("supply", .int 2)]))⟩,
    ⟨.name "ann", .launchGift (.string "studio") (.int 1) (.string "bob")⟩,
    ⟨.name "bob", .burn (.int 1)⟩,
    ⟨.name "bob", .launchBuy (.int 1) (.int 0)⟩]

theorem minted_edition_never_oversold_sellOut :
    let market := (opened default 10 0 0 ({} : Bank) { time := "" } Method.settings).run sellOut
    ∃ edition, market.store.contents.editions[(1 : ItemId)]? = some edition ∧
      edition.supply = 1 ∧ edition.destroyed = 1 ∧ edition.issued = 2 ∧
      live 1 market.store.contents.tokens = 1 ∧
      ∃ refusal, (market.run [⟨.name "bob", .burn (.int 2)⟩]).answer
        ⟨.name "ann", .launchGift (.string "studio") (.int 1) (.string "ann")⟩ =
          .ok (.refused refusal) := by
  intro market
  have h := minted_edition_never_oversold default 10 0 0 ({} : Bank) { time := "" } Method.settings
    sellOut
  obtain ⟨edition, hfound, hsum, -, hlive, -, -, hlaunch⟩ := h.2 "studio" 1 0 2 (by decide +kernel)
  have hcounts : (market.store.contents.editions[(1 : ItemId)]?).map
      (fun edition => (edition.destroyed, edition.issued, edition.isSoldOut)) =
        some (1, 2, true) := by
    decide +kernel
  change market.store.contents.editions[(1 : ItemId)]? = some edition at hfound
  rw [hfound] at hcounts
  simp only [Option.map_some, Option.some.injEq, Prod.mk.injEq] at hcounts
  obtain ⟨hdestroyed, hissued, hsold⟩ := hcounts
  have hlive' : (live 1 market.store.contents.tokens : Int) = edition.issued - edition.destroyed :=
    hlive
  exact ⟨edition, hfound, by omega, hdestroyed, hissued, by omega, hlaunch hsold _ _ rfl⟩

end Market

end EditionMarket
