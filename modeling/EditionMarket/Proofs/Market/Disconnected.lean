import EditionMarket.Proofs.Argument
import EditionMarket.Proofs.Market.Authority
import EditionMarket.Proofs.Market.Numbering

/-!
# What nobody owns any more

A creator that its owner has let go of stays, as long as an edition names it. Nobody owns it then, and as
nobody is an account that may make calls like any other, it has to be shown that not even nobody's calls do
anything with it. This file proves that its catalogue is frozen: in whatever way the run goes on, the only
thing that still happens to its editions is that tokens are burned, which had all been issued before.

Main statements: `Contents.Does.frozen`, what one call leaves of a creator that nobody owns, `Frozen.trans`,
by which this carries over to runs, and `disconnected_catalogue_is_frozen`, what it means for every run.
-/

namespace EditionMarket

/-! ## Burns -/

/-- The edition of which the action destroyed a token. -/
def Receipt.burntFrom? : Receipt → Option ItemId
  | burnt _ edition => some edition
  | _ => none

/-- The number of tokens that were burned from an edition. -/
def burntFrom (edition : ItemId) (receipts : List Receipt) : Nat :=
  receipts.countP fun receipt => receipt.burntFrom? = some edition

theorem burntFrom_append (edition : ItemId) (first second : List Receipt) :
    burntFrom edition (first ++ second) = burntFrom edition first + burntFrom edition second :=
  List.countP_append

theorem burntFrom_singleton (edition : ItemId) (receipt : Receipt) :
    burntFrom edition [receipt] = if receipt.burntFrom? = some edition then 1 else 0 := by
  unfold burntFrom
  rw [List.countP_singleton]
  simp only [decide_eq_true_eq]

/-- The edition after so many of its tokens were burned: as many units have gone from the supply to what was
destroyed, and nothing else has changed. -/
def Edition.withBurns (edition : Edition) (count : Nat) : Edition :=
  { edition with supply := edition.supply - count, destroyed := edition.destroyed + count }

theorem Edition.withBurns_zero (edition : Edition) : edition.withBurns 0 = edition := by
  simp [withBurns]

theorem Edition.map_withBurns_zero (held : Option Edition) :
    (held.map fun edition => edition.withBurns 0) = held := by
  cases held with
  | none => rfl
  | some edition => exact congrArg some edition.withBurns_zero

theorem Edition.withBurns_add (edition : Edition) (first second : Nat) :
    edition.withBurns (first + second) = (edition.withBurns first).withBurns second := by
  simp only [withBurns, Edition.mk.injEq, Nat.cast_add, true_and]
  omega

/-! ## The catalogue of a creator -/

/-- The edition of an id, if it is one of the creator's. -/
def Table.madeBy (editions : Table ItemId Edition) (creator : CreatorId) (id : ItemId) :
    Option Edition :=
  (editions[id]?).filter fun edition => edition.creator = creator

section MadeBy

variable {editions : Table ItemId Edition} {creator : CreatorId} {id : ItemId}
  {source next : Edition}

theorem Table.madeBy_of_eq (hsource : editions[id]? = some source) (creator : CreatorId) :
    editions.madeBy creator id = if source.creator = creator then some source else none := by
  unfold madeBy
  rw [hsource, Option.filter_some]
  simp only [decide_eq_true_eq]

theorem Table.madeBy_eq_none_of_ne (hsource : editions[id]? = some source)
    (hne : source.creator ≠ creator) : editions.madeBy creator id = none := by
  rw [madeBy_of_eq hsource, if_neg hne]

theorem Table.madeBy_put (editions : Table ItemId Edition) (creator : CreatorId) (id : ItemId)
    (next : Edition) (other : ItemId) :
    (editions.put id next).madeBy creator other =
      if id = other then (if next.creator = creator then some next else none)
      else editions.madeBy creator other := by
  have hput := editions.getElem?_put id other next
  split
  case isTrue hid => exact madeBy_of_eq (hput.trans (if_pos hid)) creator
  case isFalse hid =>
    unfold madeBy
    rw [hput, if_neg hid]

/-- What others do to their editions leaves the creator's alone. -/
theorem Table.madeBy_put_of_none (h : editions.madeBy creator id = none) (hnext : next.creator ≠ creator)
    (other : ItemId) : (editions.put id next).madeBy creator other = editions.madeBy creator other := by
  rw [madeBy_put, if_neg hnext]
  split
  case isTrue hid => rw [← hid, h]
  case isFalse => rfl

end MadeBy

/-- Of a creator that nobody owns, all is left as it was but for the burns that the receipts tell of. The
record and the roster are the same; so are the editions, up to the units that the burns have moved; no token
of these editions is new, and all that were burned had been there. -/
structure Contents.Frozen (creator : CreatorId) (before : Contents) (since : List Receipt)
    (after : Contents) : Prop where
  record : after.creators[creator]? = before.creators[creator]?
  roster : after.editionsOf[creator]? = before.editionsOf[creator]?
  editions : ∀ id, after.editions.madeBy creator id =
    (before.editions.madeBy creator id).map fun edition => edition.withBurns (burntFrom id since)
  tokens : ∀ (id : ItemId) (token : Token), after.tokens[id]? = some token →
    before.editions.madeBy creator token.edition ≠ none →
      ∃ earlier : Token, before.tokens[id]? = some earlier ∧ earlier.edition = token.edition
  burns : ∀ id edition, .burnt id edition ∈ since → before.editions.madeBy creator edition ≠ none →
    ∃ earlier : Token, before.tokens[id]? = some earlier ∧ earlier.edition = edition

namespace Contents

variable {creator : CreatorId} {limits : Limits} {contents next : Contents} {receipt : Receipt}
  {id : ItemId}

/-! ## Two parts of a run -/

theorem Frozen.refl (creator : CreatorId) (contents : Contents) : contents.Frozen creator [] contents where
  record := rfl
  roster := rfl
  editions _ := (Edition.map_withBurns_zero _).symm
  tokens _ token ht _ := ⟨token, ht, rfl⟩
  burns _ _ hb := by cases hb

/-- What is frozen over one part of a run and over the next is frozen over both. -/
theorem Frozen.trans {before middle after : Contents} {first second : List Receipt}
    (h₁ : before.Frozen creator first middle) (h₂ : middle.Frozen creator second after) :
    before.Frozen creator (first ++ second) after := by
  have hmade {id : ItemId} (h : before.editions.madeBy creator id ≠ none) :
      middle.editions.madeBy creator id ≠ none := by
    rw [h₁.editions, Ne, Option.map_eq_none_iff]
    exact h
  constructor
  case record => rw [h₂.record, h₁.record]
  case roster => rw [h₂.roster, h₁.roster]
  case editions =>
    intro id
    rw [h₂.editions, h₁.editions, Option.map_map, burntFrom_append]
    congr 1
    funext edition
    exact (edition.withBurns_add _ _).symm
  case tokens =>
    intro id token ht hedition
    obtain ⟨held, hheld, hsame⟩ := h₂.tokens id token ht (hmade hedition)
    rw [← hsame] at hedition ⊢
    exact h₁.tokens id held hheld hedition
  case burns =>
    intro id edition hb hedition
    rcases List.mem_append.1 hb with hb | hb
    · exact h₁.burns id edition hb hedition
    -- What was burned in the second part was there when it began.
    · obtain ⟨held, hheld, rfl⟩ := h₂.burns id edition hb (hmade hedition)
      exact h₁.tokens id held hheld hedition

/-- Who owns the creator is in its record. -/
theorem Frozen.ownerOf?_eq {before after : Contents} {since : List Receipt}
    (h : before.Frozen creator since after) : after.ownerOf? creator = before.ownerOf? creator := by
  unfold ownerOf?
  rw [h.record]

/-! ## What others do -/

/-- A rule leaves the creator frozen if it touches neither the record nor the roster, and if it replaces no
edition and burns no token of the creator. -/
theorem Frozen.of_spared (hrecord : next.creators[creator]? = contents.creators[creator]?)
    (hroster : next.editionsOf[creator]? = contents.editionsOf[creator]?)
    (heditions : ∀ id, next.editions.madeBy creator id = contents.editions.madeBy creator id)
    (htokens : ∀ (id : ItemId) (token : Token), next.tokens[id]? = some token →
      contents.editions.madeBy creator token.edition ≠ none →
        ∃ earlier : Token, contents.tokens[id]? = some earlier ∧ earlier.edition = token.edition)
    (hburns : ∀ token edition, receipt = .burnt token edition →
      contents.editions.madeBy creator edition = none) :
    contents.Frozen creator [receipt] next := by
  refine ⟨hrecord, hroster, ?_, htokens, ?_⟩
  · intro id
    rw [heditions]
    cases hmade : contents.editions.madeBy creator id with
    | none => rfl
    -- An edition of the creator is not the one that a token was burned from.
    | some edition =>
      have hother : receipt.burntFrom? ≠ some id := by
        intro hb
        cases receipt with
        | burnt token source =>
          cases hb
          cases hmade.symm.trans (hburns token id rfl)
        | _ => cases hb
      rw [burntFrom_singleton, if_neg hother, Option.map_some, Edition.withBurns_zero]
  · intro token edition hb hedition
    exact absurd (hburns token edition (List.mem_singleton.1 hb).symm) hedition

/-- A token of some edition is replaced by one of the same edition. -/
theorem Frozen.of_put_token {token other : Token} {rosters : Table AccountId (Roster ItemId)}
    (htoken : contents.tokens[id]? = some token) (hsame : other.edition = token.edition)
    (hburns : ∀ token edition, receipt ≠ .burnt token edition) :
    contents.Frozen creator [receipt]
      { contents with tokens := contents.tokens.put id other, tokensOf := rosters } := by
  refine .of_spared rfl rfl (fun _ => rfl) ?_ fun token edition hr => absurd hr (hburns token edition)
  intro key found hfound _
  change (contents.tokens.put id other)[key]? = some found at hfound
  rw [Table.getElem?_put] at hfound
  by_cases hid : id = key
  · subst hid
    rw [if_pos rfl] at hfound
    cases hfound
    exact ⟨token, htoken, hsame.symm⟩
  · rw [if_neg hid] at hfound
    exact ⟨found, hfound, rfl⟩

/-! ## What one call does -/

/-- Whoever has an owner is another creator. -/
theorem ne_of_owner (h : contents.ownerOf? creator = some .nobody) {other : CreatorId}
    {record : Creator} (hrecord : contents.creators[other]? = some record)
    (howner : record.owner ≠ .nobody) : other ≠ creator := by
  rintro rfl
  unfold ownerOf? at h
  rw [hrecord] at h
  exact howner (Option.some.inj h)

theorem frozen_registered (h : contents.ownerOf? creator = some .nobody) {other : CreatorId}
    (owner : AccountId) (hfree : contents.creators[other]? = none) :
    contents.Frozen creator [.creatorAdded other] (contents.registered limits other owner) := by
  have hne : other ≠ creator := by
    rintro rfl
    unfold ownerOf? at h
    rw [hfree] at h
    cases h
  refine .of_spared ?_ rfl (fun _ => rfl) (fun _ token ht _ => ⟨token, ht, rfl⟩) nofun
  show (contents.creators.put other _)[creator]? = _
  rw [Table.getElem?_put, if_neg hne]

theorem frozen_released {other : CreatorId} (hne : other ≠ creator) (owner : AccountId)
    (rest : Option Creator) (removed : Bool) :
    contents.Frozen creator [.creatorDropped other removed] (contents.released other owner rest) := by
  refine .of_spared ?_ rfl (fun _ => rfl) (fun _ token ht _ => ⟨token, ht, rfl⟩) nofun
  show (contents.creators.set other rest)[creator]? = _
  rw [Table.getElem?_set, if_neg hne]

/-- An edition of another creator is minted under an id that is free. -/
theorem frozen_minted {other : CreatorId} (hne : other ≠ creator)
    (hfree : contents.editions[contents.lastEdition + 1]? = none) (price : Int) (metadata : Metadata) :
    contents.Frozen creator [.minted other (contents.lastEdition + 1) price metadata.supply]
      (contents.minted limits other price metadata) := by
  refine .of_spared rfl ?_ ?_ (fun _ token ht _ => ⟨token, ht, rfl⟩) nofun
  · obtain ⟨held, hset⟩ := contents.editionsOf.enrolled_eq_set limits.editionsPerCreator other
      (contents.lastEdition + 1)
    show (contents.editionsOf.enrolled _ _ _)[creator]? = _
    rw [hset, Table.getElem?_set, if_neg hne]
  · apply Table.madeBy_put_of_none
    · unfold Table.madeBy
      rw [hfree, Option.filter_none]
    · exact hne

/-- A token of an edition of another creator is issued. -/
theorem frozen_issued {source : Edition} {receiver : AccountId}
    (hsource : contents.editions[id]? = some source) (hid : source.id = id)
    (hne : source.creator ≠ creator) (hburns : ∀ token edition, receipt ≠ .burnt token edition) :
    contents.Frozen creator [receipt] (contents.issued limits id source receiver) := by
  have hother : contents.editions.madeBy creator id = none := Table.madeBy_eq_none_of_ne hsource hne
  refine .of_spared rfl rfl (Table.madeBy_put_of_none hother hne) ?_
    fun token edition hr => absurd hr (hburns token edition)
  intro key token ht hedition
  change (contents.tokens.put _ _)[key]? = some token at ht
  rw [Table.getElem?_put] at ht
  split at ht
  -- The new token is not one of the creator's.
  · cases ht
    change contents.editions.madeBy creator source.id ≠ none at hedition
    rw [hid] at hedition
    exact absurd hother hedition
  · exact ⟨token, ht, rfl⟩

theorem frozen_launchPriced {source : Edition} (hsource : contents.editions[id]? = some source)
    (hne : source.creator ≠ creator) (price : Int) :
    contents.Frozen creator [.launchPriceSet id price] (contents.launchPriced id source price) := by
  have hother : contents.editions.madeBy creator id = none := Table.madeBy_eq_none_of_ne hsource hne
  exact .of_spared rfl rfl (Table.madeBy_put_of_none hother hne) (fun _ token ht _ => ⟨token, ht, rfl⟩)
    nofun

/-- A burn moves a unit, if the edition is one of the creator's, and else leaves the creator's alone. -/
theorem madeBy_burned {past : List Receipt} (hbooks : contents.Balanced past) {token : Token}
    {source : Edition} (htoken : contents.tokens[id]? = some token)
    (hsource : contents.editions[token.edition]? = some source) (key : ItemId) :
    (contents.burned id token source).editions.madeBy creator key =
      (contents.editions.madeBy creator key).map fun edition =>
        edition.withBurns (burntFrom key [.burnt id token.edition]) := by
  show (contents.editions.put token.edition source.burnOne).madeBy creator key = _
  rw [Table.madeBy_put, burntFrom_singleton]
  by_cases hkey : token.edition = key
  · subst hkey
    -- As the books balance, neither of the two counts that a burn changes is cut off.
    have hburned : source.burnOne = source.withBurns 1 :=
      (hbooks.editions _ _ hsource).2.burnOne_eq (live_pos htoken)
    have hsame : source.burnOne.creator = source.creator := rfl
    have hone : (Receipt.burnt id token.edition).burntFrom? = some token.edition := rfl
    rw [if_pos rfl, hsame, hburned, Table.madeBy_of_eq hsource, if_pos hone]
    split <;> rfl
  · have hother : (Receipt.burnt id token.edition).burntFrom? ≠ some key :=
      fun h => hkey (Option.some.inj h)
    rw [if_neg hkey, if_neg hother, Edition.map_withBurns_zero]

/-- A token is burned. If it is one of the creator's, that is what may still happen. -/
theorem frozen_burned {past : List Receipt} (hbooks : contents.Balanced past) {token : Token}
    {source : Edition} (htoken : contents.tokens[id]? = some token)
    (hsource : contents.editions[token.edition]? = some source) :
    contents.Frozen creator [.burnt id token.edition] (contents.burned id token source) where
  record := rfl
  roster := rfl
  editions := madeBy_burned hbooks htoken hsource
  tokens := by
    intro key found hfound _
    change (contents.tokens.drop id)[key]? = some found at hfound
    rw [Table.getElem?_drop] at hfound
    split at hfound
    · cases hfound
    · exact ⟨found, hfound, rfl⟩
  burns := by
    intro key edition hb _
    cases List.mem_singleton.1 hb
    exact ⟨token, htoken, rfl⟩

/-- Every rule leaves a creator that nobody owns frozen, whoever calls. -/
theorem Does.frozen {past : List Receipt} (hbooks : contents.Balanced past)
    (h : contents.ownerOf? creator = some .nobody) {ceiling : Int} {caller : AccountId}
    {action : Action} (hdoes : contents.Does limits ceiling caller action receipt next) :
    contents.Frozen creator [receipt] next := by
  cases hdoes with
  | createAccount _ hfree => exact frozen_registered h _ hfree
  | dropAccount _ hcaller hrecord howner =>
    exact frozen_released (ne_of_owner h hrecord (howner ▸ hcaller)) _ _ _
  | mint _ _ _ hcaller hrecord howner =>
    exact frozen_minted (ne_of_owner h hrecord (howner ▸ hcaller)) hbooks.next_edition.1 _ _
  | launchGift _ _ _ hcaller hrecord howner hsource hmade =>
    subst hmade
    exact frozen_issued hsource (hbooks.editions _ _ hsource).2.id_eq
      (ne_of_owner h hrecord (howner ▸ hcaller)) nofun
  | launchBuy _ _ hsource hrecord howner =>
    exact frozen_issued hsource (hbooks.editions _ _ hsource).2.id_eq
      (ne_of_owner h hrecord howner) nofun
  -- A token that is bought is written twice, and keeps its edition both times.
  | buy _ _ hrecord =>
    unfold priced moved
    rw [Table.put_put]
    exact .of_put_token hrecord rfl nofun
  | transfer _ hrecord => exact .of_put_token hrecord rfl nofun
  | list _ _ hrecord => exact .of_put_token hrecord rfl nofun
  | unlist _ hrecord => exact .of_put_token hrecord rfl nofun
  | setLaunchPrice _ _ _ hcaller hrecord howner hsource hmade =>
    subst hmade
    exact frozen_launchPriced hsource (ne_of_owner h hrecord (howner ▸ hcaller)) _
  | setPrice _ _ hrecord => exact .of_put_token hrecord rfl nofun
  | burn _ hrecord _ hsource => exact frozen_burned hbooks hrecord hsource

end Contents

/-! ## What nobody can do -/

/-- The action is to do something in the name of the creator: to register it, to let go of it, to mint an
edition of it, or to give away, sell or price one of its editions. -/
def Action.Involves (creator : CreatorId) (contents : Contents) : Action → Prop
  | createAccount name | dropAccount name | mint name _ _ | launchGift name _ _
  | setLaunchPrice name _ _ => name = .string creator
  | launchBuy edition _ => ∃ id, edition = .int id ∧ contents.editions.madeBy creator id ≠ none
  | _ => False

/-- No rule allows anything in the name of a creator that nobody owns. -/
theorem Contents.Does.not_involves {creator : CreatorId} {limits : Limits} {ceiling : Int}
    {contents next : Contents} {caller : AccountId} {action : Action} {receipt : Receipt}
    (hdoes : contents.Does limits ceiling caller action receipt next)
    (h : contents.ownerOf? creator = some .nobody) : ¬ action.Involves creator contents := by
  have hname {value : Value} {id : CreatorId} (hid : Argument.creatorId value = .ok id)
      (hv : value = .string creator) : id = creator := by
    cases (Argument.eq_of_creatorId_eq_ok hid).symm.trans hv
    rfl
  intro hinvolves
  cases hdoes with
  | createAccount hid hfree =>
    obtain rfl := hname hid hinvolves
    unfold ownerOf? at h
    rw [hfree] at h
    cases h
  | dropAccount hid hcaller hrecord howner =>
    exact ne_of_owner h hrecord (howner ▸ hcaller) (hname hid hinvolves)
  | mint hid _ _ hcaller hrecord howner =>
    exact ne_of_owner h hrecord (howner ▸ hcaller) (hname hid hinvolves)
  | launchGift hid _ _ hcaller hrecord howner =>
    exact ne_of_owner h hrecord (howner ▸ hcaller) (hname hid hinvolves)
  | setLaunchPrice hid _ _ hcaller hrecord howner =>
    exact ne_of_owner h hrecord (howner ▸ hcaller) (hname hid hinvolves)
  | launchBuy hid _ hsource hrecord howner =>
    obtain ⟨id, hedition, hmade⟩ := hinvolves
    cases (Argument.eq_of_itemId_eq_ok hid).symm.trans hedition
    exact hmade (Table.madeBy_eq_none_of_ne hsource (ne_of_owner h hrecord howner))
  | _ => cases hinvolves

/-! ## Runs -/

namespace Market

variable {σ : Type} [Currency σ]

/-- A creator that nobody owns is frozen, however the run goes on. -/
theorem frozen_run (limits : Limits) (ceiling lastEdition lastToken : Int) (funds : σ)
    (events : EventLog) (methods : Method → MethodSettings) (calls more : List Call)
    {creator : CreatorId} :
    let market := (opened limits ceiling lastEdition lastToken funds events methods).run calls
    market.store.contents.ownerOf? creator = some .nobody →
      market.store.contents.Frozen creator (market.receipts more) (market.run more).store.contents := by
  intro market h
  have hn : market.store.journal = none := journal_run calls rfl
  have hbooks := balanced_run limits ceiling lastEdition lastToken funds events methods calls
  -- That burns are counted depends on the books, so the two go through the run together.
  refine (run_invariant (fun since contents =>
    contents.Balanced ((opened limits ceiling lastEdition lastToken funds events methods).receipts calls
      ++ since) ∧ market.store.contents.Frozen creator since contents) hn ?_ ?_).2
  · rw [List.append_nil]
    exact ⟨hbooks, .refl creator _⟩
  · intro call _ since contents receipt next ⟨hbalanced, hfrozen⟩ hdoes
    have hownerless : contents.ownerOf? creator = some .nobody := hfrozen.ownerOf?_eq.trans h
    rw [← List.append_assoc]
    exact ⟨hbalanced.does hdoes, hfrozen.trans (hdoes.frozen hbalanced hownerless)⟩

/-- **Disconnection is for good and freezes the catalogue.** After any run in which a creator has come to be
owned by nobody, and after any further calls, whoever makes them: the creator is still there and nobody owns
it. Its record and its roster are the same as before. So are its editions, but for the units that burns have
moved from their supply to what was destroyed, one for each burn, and all tokens that were burned had been
issued before. Every call to do something in the name of the creator is refused.

The tokens that are out remain good: whoever owns one that is not for sale can list it at any price, as long
as its id is one that a call can name. -/
theorem disconnected_catalogue_is_frozen (limits : Limits) (ceiling lastEdition lastToken : Int)
    (funds : σ) (events : EventLog) (methods : Method → MethodSettings) (calls more : List Call)
    {creator : CreatorId} :
    let market := (opened limits ceiling lastEdition lastToken funds events methods).run calls
    let later := market.run more
    let contents := later.store.contents
    market.store.contents.ownerOf? creator = some .nobody →
      contents.ownerOf? creator = some .nobody ∧
        market.store.contents.Frozen creator (market.receipts more) contents ∧
        (∀ call, call.action.Involves creator contents →
          ∃ refusal, later.answer call = .ok (.refused refusal)) ∧
        (0 ≤ lastToken → ∀ (id : ItemId) (token : Token) (price : Int),
          contents.tokens[id]? = some token → token.price = none → id ≤ Argument.largestId →
            0 ≤ price →
              later.answer ⟨token.owner, .list (.int id) (.int price)⟩ =
                .ok (.done (.listed id price))) := by
  intro market later contents h
  have hfrozen : market.store.contents.Frozen creator (market.receipts more) contents :=
    frozen_run limits ceiling lastEdition lastToken funds events methods calls more h
  have hownerless : contents.ownerOf? creator = some .nobody := hfrozen.ownerOf?_eq.trans h
  have hn : later.store.journal = none := journal_run more (journal_run calls rfl)
  have hnumbered := numbered_run limits ceiling lastEdition lastToken funds events methods (calls ++ more)
  dsimp only at hnumbered
  rw [run_append] at hnumbered
  refine ⟨hownerless, hfrozen, ?_, ?_⟩
  · intro call hinvolves
    apply answer_of_not_does hn (hnumbered.tokens.mono fun _ _ ht => ht.2)
    intro receipt next hdoes
    exact hdoes.not_involves hownerless hinvolves
  · intro hstart id token price htoken hunlisted hid hprice
    -- Ids are given out from the start of the counter on, so they are not negative.
    have hafter : lastToken < id := (hnumbered.issued.mem_iff.1 (hnumbered.tokens id token htoken).1).1
    have hitem : Argument.itemId "token_id" (.int id) = .ok id := if_pos ⟨by omega, hid⟩
    have hamount : Argument.amount "price" (.int price) = .ok price := if_neg (Int.not_lt.2 hprice)
    exact answer_of_does hn (.list hitem hamount htoken rfl hunlisted) rfl

/-- An account gives away a token, sells another one, and lets go of its creator. -/
def farewell : List Call :=
  [⟨.name "ann", .createAccount (.string "studio")⟩,
    ⟨.name "ann", .mint (.string "studio") (.int 0) (.raw (.object
      [("name", .string "Dusk"), ("mime_type", .string "image/png"),
        ("metadata_uri", .string "ipfs://dusk"), ("supply", .int 3)]))⟩,
    ⟨.name "ann", .launchGift (.string "studio") (.int 1) (.string "bob")⟩,
    ⟨.name "cid", .launchBuy (.int 1) (.int 0)⟩,
    ⟨.name "ann", .dropAccount (.string "studio")⟩]

/-- The account that was given a token burns it, the former owner and nobody try to have the creator back,
and the other token is listed and withdrawn. -/
def aftermath : List Call :=
  [⟨.name "bob", .burn (.int 1)⟩,
    ⟨.name "ann", .createAccount (.string "studio")⟩,
    ⟨.nobody, .setLaunchPrice (.string "studio") (.int 1) (.int 7)⟩,
    ⟨.name "cid", .list (.int 2) (.int 4)⟩,
    ⟨.name "cid", .unlist (.int 2)⟩]

theorem disconnected_catalogue_is_frozen_farewell :
    let market := (opened default 10 0 0 ({} : Bank) { time := "" } Method.settings).run farewell
    let later := market.run aftermath
    market.store.contents.ownerOf? "studio" = some .nobody ∧
      later.store.contents.ownerOf? "studio" = some .nobody ∧
        (∃ edition, market.store.contents.editions.madeBy "studio" 1 = some edition ∧
          edition.supply = 3 ∧
            later.store.contents.editions.madeBy "studio" 1 =
              some { edition with supply := 2, destroyed := 1 }) ∧
          (∃ refusal, later.answer ⟨.name "dan", .launchBuy (.int 1) (.int 9)⟩ =
            .ok (.refused refusal)) ∧
            later.answer ⟨.name "cid", .list (.int 2) (.int 6)⟩ = .ok (.done (.listed 2 6)) := by
  intro market later
  have hownerless : market.store.contents.ownerOf? "studio" = some .nobody := by decide +kernel
  obtain ⟨hstays, hfrozen, hrefused, hlist⟩ := disconnected_catalogue_is_frozen default 10 0 0
    ({} : Bank) { time := "" } Method.settings farewell aftermath hownerless
  have hedition : (market.store.contents.editions.madeBy "studio" 1).map
      (fun edition => (edition.supply, edition.destroyed)) = some (3, 0) := by
    decide +kernel
  have hburns : burntFrom 1 (market.receipts aftermath) = 1 := by decide +kernel
  have htoken : (later.store.contents.tokens[(2 : ItemId)]?).map
      (fun token => (token.owner, token.price)) = some (.name "cid", none) := by
    decide +kernel
  -- The theorem names the market in full, and so have these to do.
  dsimp only [market, later] at *
  obtain ⟨edition, hfound, hcounts⟩ := Option.map_eq_some_iff.1 hedition
  obtain ⟨hsupply, hdestroyed⟩ := Prod.mk.inj hcounts
  obtain ⟨token, ht, htraits⟩ := Option.map_eq_some_iff.1 htoken
  obtain ⟨howner, hprice⟩ := Prod.mk.inj htraits
  have hlater := hfrozen.editions 1
  rw [hfound, hburns, Option.map_some, Edition.withBurns, hsupply, hdestroyed] at hlater
  have hlisted := hlist (Int.le_refl 0) 2 token 6 ht hprice (by decide) (by decide)
  rw [howner] at hlisted
  refine ⟨hownerless, hstays, ⟨edition, hfound, hsupply, hlater⟩, hrefused _ ⟨1, rfl, ?_⟩, hlisted⟩
  rw [hlater]
  exact Option.some_ne_none _

end Market

end EditionMarket
