import EditionMarket.Proofs.Market.Run
import EditionMarket.Proofs.Table

/-!
# Rosters and records in lock step

Records say who owns what, and so do rosters. Actions change the two separately: an item enters a roster
before its record is written, it leaves another one afterwards, and rosters come and go with their items.
This file proves that all the same the two never disagree after a call.

Main statements: `Contents.LockStep.does`, every rule preserves the lock step, and
`rosters_agree_with_records`, what that means for what a run leaves.
-/

namespace EditionMarket

/-- The account that owns a creator, if it is not disconnected. -/
def Creator.owner? (creator : Creator) : Option AccountId :=
  if creator.owner = .nobody then none else some creator.owner

theorem Creator.owner?_eq_some_iff {creator : Creator} {account : AccountId} :
    creator.owner? = some account ↔ account ≠ .nobody ∧ creator.owner = account := by
  unfold owner?
  by_cases h : creator.owner = .nobody
  · rw [if_pos h, h]
    constructor
    · intro contra
      cases contra
    · rintro ⟨hne, heq⟩
      exact absurd heq.symm hne
  · rw [if_neg h, Option.some.injEq]
    constructor
    · intro heq
      exact ⟨heq ▸ h, heq⟩
    · rintro ⟨-, heq⟩
      exact heq

/-- Records stand under their own ids, none of which is above the last one given out, and rosters are in
step with what the records say: of the creators that an account owns, the editions that a creator has
minted, and the tokens that an account holds. -/
structure Contents.LockStep (limits : Limits) (contents : Contents) : Prop where
  creators : contents.creators.All fun id creator => creator.id = id
  editions : contents.editions.All fun id edition => edition.id = id ∧ id ≤ contents.lastEdition
  tokens : contents.tokens.All fun id token => token.id = id ∧ id ≤ contents.lastToken
  creatorsOf :
    contents.creatorsOf.InStep limits.creatorsPerAccount (contents.creators.holder Creator.owner?)
  editionsOf :
    contents.editionsOf.InStep limits.editionsPerCreator
      (contents.editions.holder fun edition => some edition.creator)
  tokensOf :
    contents.tokensOf.InStep limits.tokensPerAccount
      (contents.tokens.holder fun token => some token.owner)

namespace Contents.LockStep

variable {limits : Limits} {contents : Contents}

theorem empty (limits : Limits) (lastEdition lastToken : Int) :
    LockStep limits { lastEdition := lastEdition, lastToken := lastToken } where
  creators := .empty _
  editions := .empty _
  tokens := .empty _
  creatorsOf := .empty _
  editionsOf := .empty _
  tokensOf := .empty _

/-! ## What rosters and counters say of records -/

theorem mem_creatorsOf (h : LockStep limits contents) {account : AccountId} {id : CreatorId} :
    id ∈ contents.creatorsOf.itemsAt account ↔
      account ≠ .nobody ∧ ∃ record, contents.creators[id]? = some record ∧ record.owner = account := by
  rw [h.creatorsOf.mem_iff]
  unfold Table.holder
  cases contents.creators[id]? with
  | none => simp
  | some record => simp [Creator.owner?_eq_some_iff]

theorem mem_editionsOf (h : LockStep limits contents) {creator : CreatorId} {id : ItemId} :
    id ∈ contents.editionsOf.itemsAt creator ↔
      ∃ record, contents.editions[id]? = some record ∧ record.creator = creator := by
  rw [h.editionsOf.mem_iff]
  unfold Table.holder
  cases contents.editions[id]? with
  | none => simp
  | some record => simp

theorem mem_tokensOf (h : LockStep limits contents) {account : AccountId} {id : ItemId} :
    id ∈ contents.tokensOf.itemsAt account ↔
      ∃ record, contents.tokens[id]? = some record ∧ record.owner = account := by
  rw [h.tokensOf.mem_iff]
  unfold Table.holder
  cases contents.tokens[id]? with
  | none => simp
  | some record => simp

/-- The next edition is not there yet, as its id is above the last one. -/
theorem next_edition (h : LockStep limits contents) :
    contents.editions[contents.lastEdition + 1]? = none :=
  h.editions.getElem?_eq_none fun _ he => Int.not_le.2 (Int.lt_succ _) he.2

/-- Nor is the next token. -/
theorem next_token (h : LockStep limits contents) :
    contents.tokens[contents.lastToken + 1]? = none :=
  h.tokens.getElem?_eq_none fun _ ht => Int.not_le.2 (Int.lt_succ _) ht.2

/-! ## Creators -/

theorem registered (h : LockStep limits contents) {id : CreatorId} {owner : AccountId}
    (howner : owner ≠ .nobody) (hfree : contents.creators[id]? = none)
    (hroom : contents.creatorsOf.HasRoom limits.creatorsPerAccount owner) :
    LockStep limits (contents.registered limits id owner) where
  creators := h.creators.put rfl
  editions := h.editions
  tokens := h.tokens
  creatorsOf := by
    have hnew : Creator.owner? ⟨id, owner⟩ = some owner := if_neg howner
    show Table.InStep _ _ ((contents.creators.put id ⟨id, owner⟩).holder Creator.owner?)
    rw [Table.holder_put, hnew]
    exact h.creatorsOf.enroll hroom (Table.holder_of_eq_none hfree _)
  editionsOf := h.editionsOf
  tokensOf := h.tokensOf

/-- Whatever is left of a creator that has been let go of, nobody owns it. -/
theorem released (h : LockStep limits contents) {id : CreatorId} {owner : AccountId}
    {record : Creator} {rest : Option Creator} (hrecord : contents.creators[id]? = some record)
    (hown : record.owner = owner) (howner : owner ≠ .nobody)
    (hrest : ∀ creator, rest = some creator → creator.id = id ∧ creator.owner = .nobody) :
    LockStep limits (contents.released id owner rest) where
  creators := by
    cases rest with
    | none => exact h.creators.drop
    | some creator => exact h.creators.put (hrest creator rfl).1
  editions := h.editions
  tokens := h.tokens
  creatorsOf := by
    -- A creator that is removed and one that is disconnected look the same from the rosters.
    have hheld : contents.creators.holder Creator.owner? id = some owner := by
      rw [Table.holder_of_eq_some hrecord, ← hown]
      exact if_neg (hown ▸ howner)
    have hnext : (contents.creators.set id rest).holder Creator.owner? =
        Function.update (contents.creators.holder Creator.owner?) id none := by
      cases rest with
      | none => exact Table.holder_drop _ _ _
      | some creator =>
        have hnew : creator.owner? = none := if_pos (hrest creator rfl).2
        show (contents.creators.put id creator).holder Creator.owner? = _
        rw [Table.holder_put, hnew]
    show Table.InStep _ _ ((contents.creators.set id rest).holder Creator.owner?)
    rw [hnext]
    exact h.creatorsOf.strike hheld
  editionsOf := h.editionsOf
  tokensOf := h.tokensOf

/-! ## Editions -/

theorem minted (h : LockStep limits contents) {creator : CreatorId} {price : Int}
    {metadata : Metadata}
    (hroom : contents.editionsOf.HasRoom limits.editionsPerCreator creator) :
    LockStep limits (contents.minted limits creator price metadata) where
  creators := h.creators
  editions := by
    refine Table.All.put (h.editions.mono fun id edition he => ⟨he.1, ?_⟩) ⟨rfl, Int.le_refl _⟩
    exact Int.le_of_lt (Int.lt_add_one_of_le he.2)
  tokens := h.tokens
  creatorsOf := h.creatorsOf
  editionsOf := by
    have hfree : contents.editions[contents.lastEdition + 1]? = none :=
      h.editions.getElem?_eq_none fun _ he => Int.not_le.2 (Int.lt_succ _) he.2
    show Table.InStep _ _ ((contents.editions.put _ _).holder fun edition => some edition.creator)
    rw [Table.holder_put]
    exact h.editionsOf.enroll hroom (Table.holder_of_eq_none hfree _)
  tokensOf := h.tokensOf

/-- An edition may be changed in whatever way, as long as it keeps its id and its creator. -/
theorem put_edition (h : LockStep limits contents) {id : ItemId} {source next : Edition}
    (hsource : contents.editions[id]? = some source) (hid : next.id = source.id)
    (hcreator : next.creator = source.creator) :
    LockStep limits { contents with editions := contents.editions.put id next } where
  creators := h.creators
  editions := by
    have hold := h.editions _ _ hsource
    exact h.editions.put ⟨hid.trans hold.1, hold.2⟩
  tokens := h.tokens
  creatorsOf := h.creatorsOf
  editionsOf := by
    have hheld : some next.creator = some source.creator := congrArg some hcreator
    show Table.InStep _ _ ((contents.editions.put id next).holder fun edition => some edition.creator)
    rw [Table.holder_put_of_eq hsource hheld]
    exact h.editionsOf
  tokensOf := h.tokensOf

/-! ## Tokens -/

theorem issued (h : LockStep limits contents) {edition : ItemId} {source : Edition}
    {receiver : AccountId} (hsource : contents.editions[edition]? = some source)
    (hroom : contents.tokensOf.HasRoom limits.tokensPerAccount receiver) :
    LockStep limits (contents.issued limits edition source receiver) := by
  have hcounted : LockStep limits
      { contents with editions := contents.editions.put edition source.issueOne } :=
    h.put_edition hsource rfl rfl
  have hfree : contents.tokens[contents.lastToken + 1]? = none :=
    h.tokens.getElem?_eq_none fun _ ht => Int.not_le.2 (Int.lt_succ _) ht.2
  refine ⟨hcounted.creators, hcounted.editions, ?_, hcounted.creatorsOf, hcounted.editionsOf, ?_⟩
  · refine Table.All.put (h.tokens.mono fun id token ht => ⟨ht.1, ?_⟩) ⟨rfl, Int.le_refl _⟩
    exact Int.le_of_lt (Int.lt_add_one_of_le ht.2)
  · show Table.InStep _ _ ((contents.tokens.put _ _).holder fun token => some token.owner)
    rw [Table.holder_put]
    exact h.tokensOf.enroll hroom (Table.holder_of_eq_none hfree _)

theorem moved (h : LockStep limits contents) {id : ItemId} {token : Token} {receiver : AccountId}
    (htoken : contents.tokens[id]? = some token)
    (hroom : contents.tokensOf.HasRoom limits.tokensPerAccount receiver) :
    LockStep limits (contents.moved limits id token token.owner receiver) where
  creators := h.creators
  editions := h.editions
  tokens := by
    have hold := h.tokens _ _ htoken
    exact h.tokens.put hold
  creatorsOf := h.creatorsOf
  editionsOf := h.editionsOf
  tokensOf := by
    show Table.InStep _ _ ((contents.tokens.put _ _).holder fun token => some token.owner)
    rw [Table.holder_put]
    exact h.tokensOf.move hroom (Table.holder_of_eq_some htoken _)

theorem priced (h : LockStep limits contents) {id : ItemId} {token : Token} {price : Option Int}
    (htoken : contents.tokens[id]? = some token) :
    LockStep limits (contents.priced id token price) where
  creators := h.creators
  editions := h.editions
  tokens := by
    have hold := h.tokens _ _ htoken
    exact h.tokens.put hold
  creatorsOf := h.creatorsOf
  editionsOf := h.editionsOf
  tokensOf := by
    have hheld : some { token with price := price }.owner = some token.owner := rfl
    show Table.InStep _ _ ((contents.tokens.put _ _).holder fun token => some token.owner)
    rw [Table.holder_put_of_eq htoken hheld]
    exact h.tokensOf

theorem burned (h : LockStep limits contents) {id : ItemId} {token : Token} {source : Edition}
    (htoken : contents.tokens[id]? = some token)
    (hsource : contents.editions[token.edition]? = some source) :
    LockStep limits (contents.burned id token source) := by
  have hcounted : LockStep limits
      { contents with editions := contents.editions.put token.edition source.burnOne } :=
    h.put_edition hsource rfl rfl
  refine ⟨hcounted.creators, hcounted.editions, h.tokens.drop, hcounted.creatorsOf,
    hcounted.editionsOf, ?_⟩
  show Table.InStep _ _ ((contents.tokens.drop _).holder fun token => some token.owner)
  rw [Table.holder_drop]
  exact h.tokensOf.strike (Table.holder_of_eq_some htoken _)

/-! ## Calls -/

/-- Every rule preserves the lock step. Only for nobody's calls it cannot be said: nobody's creators are
those that nobody owns. -/
theorem does (h : LockStep limits contents) {ceiling : Int} {caller : AccountId} {action : Action}
    {receipt : Receipt} {next : Contents} (hcaller : caller ≠ .nobody)
    (hdoes : contents.Does limits ceiling caller action receipt next) : LockStep limits next := by
  cases hdoes with
  | createAccount _ hfree hroom => exact h.registered hcaller hfree hroom
  | dropAccount _ _ hrecord howner =>
    have hid := h.creators _ _ hrecord
    -- The record that may be left is the old one without its owner.
    refine h.released hrecord howner hcaller fun creator hrest => ?_
    split at hrest
    · cases hrest
    · cases hrest
      exact ⟨hid, rfl⟩
  | mint _ _ _ _ _ _ _ _ hroom => exact h.minted hroom
  | launchGift _ _ _ _ _ _ hsource _ _ _ hroom => exact h.issued hsource hroom
  | launchBuy _ _ hsource _ _ _ _ _ hroom => exact h.issued hsource hroom
  | buy _ _ hrecord _ _ _ hroom => exact (h.moved hrecord hroom).priced tokens_moved_self
  | transfer _ hrecord howner hroom =>
    subst howner
    exact h.moved hrecord hroom
  | list _ _ hrecord _ _ => exact h.priced hrecord
  | unlist _ hrecord _ _ => exact h.priced hrecord
  | setLaunchPrice _ _ _ _ _ _ hsource _ => exact h.put_edition hsource rfl rfl
  | setPrice _ _ hrecord _ _ => exact h.priced hrecord
  | burn _ hrecord _ hsource => exact h.burned hrecord hsource

end Contents.LockStep

namespace Market

variable {σ : Type} [Currency σ]

/-- What a run leaves is in lock step, if nobody is not among the callers. -/
theorem lockStep_run (limits : Limits) (ceiling lastEdition lastToken : Int) (funds : σ)
    (events : EventLog) (methods : Method → MethodSettings) {calls : List Call}
    (hcallers : ∀ call ∈ calls, call.caller ≠ .nobody) :
    Contents.LockStep limits
      ((opened limits ceiling lastEdition lastToken funds events methods).run
        calls).store.contents := by
  have hn : (opened limits ceiling lastEdition lastToken funds events methods).store.journal =
      none := rfl
  refine run_invariant (fun _ => Contents.LockStep limits) hn
    (Contents.LockStep.empty limits lastEdition lastToken) ?_
  intro call hm _ contents receipt next h hdoes
  exact h.does (hcallers call hm) hdoes

/-- **Rosters and records agree.** After any run of calls that accounts have made, whatever they were
answered: an account has a token on its roster exactly if the token's record says that the account owns
it, and the same goes for creators; no roster is empty, names something twice or is longer than its limit;
and every record stands under its own id. -/
theorem rosters_agree_with_records (limits : Limits) (ceiling lastEdition lastToken : Int) (funds : σ)
    (events : EventLog) (methods : Method → MethodSettings) {calls : List Call}
    (hcallers : ∀ call ∈ calls, call.caller ≠ .nobody) :
    let contents := ((opened limits ceiling lastEdition lastToken funds events methods).run
      calls).store.contents
    (∀ account token, token ∈ contents.tokensOf.itemsAt account ↔
        ∃ record, contents.tokens[token]? = some record ∧ record.owner = account) ∧
      (∀ account creator, creator ∈ contents.creatorsOf.itemsAt account ↔
        account ≠ .nobody ∧
          ∃ record, contents.creators[creator]? = some record ∧ record.owner = account) ∧
      (∀ (account : AccountId) (roster : Roster ItemId),
        contents.tokensOf[account]? = some roster →
        roster.items ≠ [] ∧ roster.items.Nodup ∧
          roster.items.length ≤ limits.tokensPerAccount) ∧
      (∀ (account : AccountId) (roster : Roster CreatorId), contents.creatorsOf[account]? = some roster →
        roster.items ≠ [] ∧ roster.items.Nodup ∧
          roster.items.length ≤ limits.creatorsPerAccount) ∧
      (∀ (id : CreatorId) (creator : Creator), contents.creators[id]? = some creator → creator.id = id) ∧
      (∀ (id : ItemId) (edition : Edition), contents.editions[id]? = some edition → edition.id = id) ∧
      (∀ (id : ItemId) (token : Token), contents.tokens[id]? = some token → token.id = id) := by
  intro contents
  have h : contents.LockStep limits :=
    lockStep_run limits ceiling lastEdition lastToken funds events methods hcallers
  refine ⟨?_, ?_, ?_, ?_, h.creators, ?_, ?_⟩
  · intro account token
    rw [h.tokensOf.mem_iff]
    unfold Table.holder
    rw [Option.bind_eq_some_iff]
    simp only [Option.some.injEq]
  · intro account creator
    rw [h.creatorsOf.mem_iff]
    unfold Table.holder
    rw [Option.bind_eq_some_iff]
    simp only [Creator.owner?_eq_some_iff]
    constructor
    · rintro ⟨record, hrecord, hne, howner⟩
      exact ⟨hne, record, hrecord, howner⟩
    · rintro ⟨hne, record, hrecord, howner⟩
      exact ⟨record, hrecord, hne, howner⟩
  · intro account roster hr
    exact h.tokensOf.tidy hr
  · intro account roster hr
    exact h.creatorsOf.tidy hr
  · intro id edition he
    exact (h.editions id edition he).1
  · intro id token ht
    exact (h.tokens id token ht).1

/-- An account mints an edition, a token of which goes from hand to hand, and at last the account lets go
of its creator. -/
def tour : List Call :=
  [⟨.name "ann", .createAccount (.string "studio")⟩,
    ⟨.name "ann", .mint (.string "studio") (.int 3) (.raw (.object
      [("name", .string "Dawn"), ("mime_type", .string "image/png"),
        ("metadata_uri", .string "ipfs://dawn"), ("supply", .int 2)]))⟩,
    ⟨.name "ann", .launchGift (.string "studio") (.int 1) (.string "bob")⟩,
    ⟨.name "bob", .transfer (.int 1)⟩,
    ⟨.name "bob", .list (.int 1) (.int 0)⟩,
    ⟨.name "ann", .buy (.int 1) (.int 0)⟩,
    ⟨.name "ann", .dropAccount (.string "studio")⟩]

theorem rosters_agree_with_records_tour :
    (∀ call ∈ tour, call.caller ≠ .nobody) ∧
      ∃ record,
        ((opened default 10 0 0 ({} : Bank) { time := "" } Method.settings).run
            tour).store.contents.tokens[(1 : ItemId)]? = some record ∧
          record.owner = .name "ann" := by
  have hcallers : ∀ call ∈ tour, call.caller ≠ .nobody := by decide
  have h := rosters_agree_with_records default 10 0 0 ({} : Bank) { time := "" } Method.settings hcallers
  refine ⟨hcallers, (h.1 (.name "ann") 1).1 ?_⟩
  decide +kernel

end Market

end EditionMarket
