import EditionMarket.Proofs.Argument
import EditionMarket.Proofs.Market.Run
import EditionMarket.Proofs.Table

/-!
# Stored values stay within their bounds

Arguments of any shape come in with a call. What is written to the store is checked once, by the action that
writes it, and nothing looks at it again: a token copies the description of its edition, a sale makes its
buyer an owner, and the counts of an edition change with every launch and burn. This file proves that no
value out of its bounds ever gets into the store.

Main definitions: `Edition.Bounded` and `Token.Bounded`, what the bounds are. Main statements:
`Contents.Bounded.does`, every rule keeps them, and `stored_values_bounded`, what that means for a run.
-/

namespace EditionMarket

/-! ## Bounds of records -/

/-- An account that has a name, which is not empty. -/
def AccountId.IsNamed (account : AccountId) : Prop := ∃ s, account = .name s ∧ s ≠ ""

/-- A creator id has 1 to 63 bytes. -/
def IsLabel (id : CreatorId) : Prop := 1 ≤ id.utf8ByteSize ∧ id.utf8ByteSize ≤ 63

/-- The number of an edition or a token is at least one, and no larger than the ceiling of its counter. -/
def IsNumber (ceiling id : Int) : Prop := 1 ≤ id ∧ id ≤ ceiling

/-- A supply, or a part of it, has at most 32 bits. -/
def IsCount (n : Int) : Prop := 0 ≤ n ∧ n ≤ 2 ^ 32 - 1

/-- A name, a media type and an address that are not too long. -/
structure IsDescription (name mimeType uri : String) : Prop where
  name : name.utf8ByteSize ≤ 255
  mimeType : mimeType.utf8ByteSize ≤ 255
  uri : uri.utf8ByteSize ≤ 2048

/-- The bounds of a creator. Its owner has a name, unless it is disconnected. -/
structure Creator.Bounded (creator : Creator) : Prop where
  id : IsLabel creator.id
  owner : creator.owner = .nobody ∨ creator.owner.IsNamed

/-- The bounds of an edition. -/
structure Edition.Bounded (ceiling : Int) (edition : Edition) : Prop where
  id : IsNumber ceiling edition.id
  creator : IsLabel edition.creator
  description : IsDescription edition.name edition.mimeType edition.uri
  price : 0 ≤ edition.price
  supply : IsCount edition.supply
  issued : IsCount edition.issued
  destroyed : IsCount edition.destroyed

/-- The bounds of a token. -/
structure Token.Bounded (ceiling : Int) (token : Token) : Prop where
  id : IsNumber ceiling token.id
  edition : IsNumber ceiling token.edition
  creator : IsLabel token.creator
  owner : token.owner.IsNamed
  description : IsDescription token.name token.mimeType token.uri
  price : ∀ price, token.price = some price → 0 ≤ price

/-! What has passed its check is within its bounds. -/

theorem isLabel_of_creatorId {value : Value} {id : CreatorId}
    (h : Argument.creatorId value = .ok id) : IsLabel id := by
  obtain ⟨s, hs, hbytes⟩ := (Argument.decides_creatorId value).holds h
  rw [Argument.eq_of_creatorId_eq_ok h] at hs
  cases hs
  exact hbytes

theorem isNamed_of_account {field : String} {value : Value} {account : AccountId}
    (h : Argument.account field value = .ok account) : account.IsNamed := by
  obtain ⟨s, rfl, hne⟩ := (Argument.decides_account field value).holds h
  obtain ⟨found, hfound, rfl⟩ := Argument.eq_of_account_eq_ok h
  cases hfound
  exact ⟨s, rfl, hne⟩

theorem nonneg_of_amount {field : String} {value : Value} {n : Int}
    (h : Argument.amount field value = .ok n) : 0 ≤ n := by
  obtain ⟨found, hfound, hle⟩ := (Argument.decides_amount field value).holds h
  rw [Argument.eq_of_amount_eq_ok h] at hfound
  cases hfound
  exact hle

/-- The number after the last one that a counter has given out. -/
theorem isNumber_next {last ceiling : Int} (hlast : 0 ≤ last) (hcount : last < ceiling) :
    IsNumber ceiling (last + 1) :=
  ⟨by omega, by omega⟩

theorem isCount_zero : IsCount 0 := ⟨by omega, by omega⟩

theorem largestSupply_eq : (Argument.largestSupply : Int) = 2 ^ 32 - 1 := by decide

/-- A count stays one when it is counted up, as it stops at the largest supply. -/
theorem IsCount.up {n : Int} (h : IsCount n) : IsCount (min (n + 1) Argument.largestSupply) := by
  obtain ⟨hleast, -⟩ := h
  rw [largestSupply_eq]
  exact ⟨by omega, by omega⟩

/-- It stays one when it is counted down, as it stops at zero. -/
theorem IsCount.down {n : Int} (h : IsCount n) : IsCount (max (n - 1) 0) := by
  obtain ⟨-, hmost⟩ := h
  exact ⟨by omega, by omega⟩

namespace Edition.Bounded

variable {ceiling : Int} {edition : Edition}

/-- Metadata are within their bounds, so that an edition is from the start. -/
theorem mint {id : ItemId} {creator : CreatorId} {price : Int} (metadata : Metadata)
    (hid : IsNumber ceiling id) (hcreator : IsLabel creator) (hprice : 0 ≤ price) :
    Bounded ceiling (Edition.mint id creator price metadata) where
  id := hid
  creator := hcreator
  description := ⟨metadata.name_le, metadata.mimeType_le, metadata.uri_le⟩
  price := hprice
  supply := ⟨Int.natCast_nonneg _, largestSupply_eq ▸ Int.ofNat_le.2 metadata.supply_le⟩
  issued := isCount_zero
  destroyed := isCount_zero

theorem issueOne (h : Bounded ceiling edition) : Bounded ceiling edition.issueOne where
  id := h.id
  creator := h.creator
  description := h.description
  price := h.price
  supply := h.supply
  issued := h.issued.up
  destroyed := h.destroyed

theorem burnOne (h : Bounded ceiling edition) : Bounded ceiling edition.burnOne where
  id := h.id
  creator := h.creator
  description := h.description
  price := h.price
  supply := h.supply.down
  issued := h.issued
  destroyed := h.destroyed.up

theorem withPrice (h : Bounded ceiling edition) {price : Int} (hprice : 0 ≤ price) :
    Bounded ceiling { edition with price := price } :=
  ⟨h.id, h.creator, h.description, hprice, h.supply, h.issued, h.destroyed⟩

end Edition.Bounded

namespace Token.Bounded

variable {ceiling : Int} {token : Token}

/-- A token has its description from its edition. -/
theorem issue {edition : Edition} {receiver : AccountId} {id : ItemId}
    (hedition : edition.Bounded ceiling) (hid : IsNumber ceiling id) (hreceiver : receiver.IsNamed) :
    Bounded ceiling (Token.issue receiver id edition) where
  id := hid
  edition := hedition.id
  creator := hedition.creator
  owner := hreceiver
  description := hedition.description
  price _ h := by cases h

theorem withOwner (h : Bounded ceiling token) {receiver : AccountId} (hreceiver : receiver.IsNamed) :
    Bounded ceiling { token with owner := receiver } :=
  ⟨h.id, h.edition, h.creator, hreceiver, h.description, h.price⟩

theorem withPrice (h : Bounded ceiling token) {price : Option Int}
    (hprice : ∀ amount, price = some amount → 0 ≤ amount) :
    Bounded ceiling { token with price := price } :=
  ⟨h.id, h.edition, h.creator, h.owner, h.description, hprice⟩

end Token.Bounded

/-! ## Bounds of contents -/

/-- Keys of rosters stay within their bounds when an item enters a roster, or leaves one. -/
theorem Table.All.enrolled {κ ι : Type} [Ord κ] [Std.TransOrd κ] [Std.LawfulEqOrd κ] [DecidableEq κ]
    {rosters : Table κ (Roster ι)} {P : κ → Prop} {key : κ} (h : rosters.All fun key _ => P key)
    (capacity : Nat) (item : ι) (hkey : P key) :
    (rosters.enrolled capacity key item).All fun key _ => P key := by
  obtain ⟨held, heq⟩ := Table.enrolled_eq_set rosters capacity key item
  rw [heq]
  cases held with
  | none => exact h.drop
  | some roster => exact h.put hkey

theorem Table.All.struck {κ ι : Type} [Ord κ] [Std.TransOrd κ] [Std.LawfulEqOrd κ] [DecidableEq κ]
    [DecidableEq ι] {rosters : Table κ (Roster ι)} {P : κ → Prop} {key : κ}
    (h : rosters.All fun key _ => P key) (item : ι) (hkey : P key) :
    (rosters.struck key item).All fun key _ => P key := by
  obtain ⟨held, heq⟩ := Table.struck_eq_set_held rosters key item
  rw [heq]
  cases held with
  | none => exact h.drop
  | some roster => exact h.put hkey

/-- Everything in a store is within its bounds. The counters have not gone below zero, so that the next
number is at least one. -/
structure Contents.Bounded (ceiling : Int) (contents : Contents) : Prop where
  lastEdition : 0 ≤ contents.lastEdition
  lastToken : 0 ≤ contents.lastToken
  creators : contents.creators.All fun id creator => creator.id = id ∧ creator.Bounded
  creatorsOf : contents.creatorsOf.All fun account _ => account.IsNamed
  editions : contents.editions.All fun id edition => edition.id = id ∧ edition.Bounded ceiling
  editionsOf : contents.editionsOf.All fun creator _ => IsLabel creator
  tokens : contents.tokens.All fun id token => token.id = id ∧ token.Bounded ceiling
  tokensOf : contents.tokensOf.All fun account _ => account.IsNamed

namespace Contents.Bounded

variable {ceiling : Int} {contents : Contents}

theorem empty (ceiling : Int) {lastEdition lastToken : Int} (hedition : 0 ≤ lastEdition)
    (htoken : 0 ≤ lastToken) :
    Bounded ceiling { lastEdition := lastEdition, lastToken := lastToken } :=
  ⟨hedition, htoken, .empty _, .empty _, .empty _, .empty _, .empty _, .empty _⟩

theorem registered (h : Bounded ceiling contents) (limits : Limits) {id : CreatorId}
    {owner : AccountId} (hid : IsLabel id) (howner : owner.IsNamed) :
    Bounded ceiling (contents.registered limits id owner) :=
  { h with
    creators := h.creators.put ⟨rfl, hid, .inr howner⟩
    creatorsOf := h.creatorsOf.enrolled _ id howner }

theorem released (h : Bounded ceiling contents) {id : CreatorId} {owner : AccountId}
    {record : Creator} {rest : Option Creator} (hrecord : contents.creators[id]? = some record)
    (hrest : ∀ creator, rest = some creator → creator = record.disconnect) (howner : owner.IsNamed) :
    Bounded ceiling (contents.released id owner rest) :=
  { h with
    creators := by
      cases rest with
      | none => exact h.creators.drop
      | some creator =>
        obtain ⟨hid, hbounded⟩ := h.creators _ _ hrecord
        rw [hrest creator rfl]
        exact h.creators.put ⟨hid, hbounded.id, .inl rfl⟩
    creatorsOf := h.creatorsOf.struck id howner }

theorem minted (h : Bounded ceiling contents) (limits : Limits) {creator : CreatorId} {price : Int}
    (metadata : Metadata) (hcreator : IsLabel creator) (hprice : 0 ≤ price)
    (hcount : contents.lastEdition < ceiling) :
    Bounded ceiling (contents.minted limits creator price metadata) :=
  { h with
    lastEdition := Int.le_add_one h.lastEdition
    editions :=
      h.editions.put ⟨rfl, .mint metadata (isNumber_next h.lastEdition hcount) hcreator hprice⟩
    editionsOf := h.editionsOf.enrolled _ _ hcreator }

theorem put_edition (h : Bounded ceiling contents) {id : ItemId} (next : Edition)
    (hid : next.id = id) (hnext : next.Bounded ceiling) :
    Bounded ceiling { contents with editions := contents.editions.put id next } :=
  { h with editions := h.editions.put ⟨hid, hnext⟩ }

theorem issued (h : Bounded ceiling contents) (limits : Limits) {edition : ItemId} {source : Edition}
    {receiver : AccountId} (hsource : contents.editions[edition]? = some source)
    (hcount : contents.lastToken < ceiling) (hreceiver : receiver.IsNamed) :
    Bounded ceiling (contents.issued limits edition source receiver) := by
  obtain ⟨hid, hbounded⟩ := h.editions _ _ hsource
  have hcounted := h.put_edition source.issueOne hid hbounded.issueOne
  exact
    { hcounted with
      lastToken := Int.le_add_one h.lastToken
      tokens :=
        h.tokens.put ⟨rfl, .issue hbounded (isNumber_next h.lastToken hcount) hreceiver⟩
      tokensOf := h.tokensOf.enrolled _ _ hreceiver }

/-- The owner of a token may be another one, if both are named. -/
theorem moved (h : Bounded ceiling contents) (limits : Limits) {id : ItemId} {token : Token}
    {receiver : AccountId} (htoken : contents.tokens[id]? = some token)
    (hreceiver : receiver.IsNamed) :
    Bounded ceiling (contents.moved limits id token token.owner receiver) := by
  obtain ⟨hid, hbounded⟩ := h.tokens _ _ htoken
  exact
    { h with
      tokens := h.tokens.put ⟨hid, hbounded.withOwner hreceiver⟩
      tokensOf := (h.tokensOf.enrolled _ id hreceiver).struck id hbounded.owner }

theorem priced (h : Bounded ceiling contents) {id : ItemId} {token : Token} {price : Option Int}
    (htoken : contents.tokens[id]? = some token)
    (hprice : ∀ amount, price = some amount → 0 ≤ amount) :
    Bounded ceiling (contents.priced id token price) := by
  obtain ⟨hid, hbounded⟩ := h.tokens _ _ htoken
  exact { h with tokens := h.tokens.put ⟨hid, hbounded.withPrice hprice⟩ }

theorem burned (h : Bounded ceiling contents) {id : ItemId} {token : Token} {source : Edition}
    (htoken : contents.tokens[id]? = some token)
    (hsource : contents.editions[token.edition]? = some source) :
    Bounded ceiling (contents.burned id token source) := by
  obtain ⟨-, htokenBounded⟩ := h.tokens _ _ htoken
  obtain ⟨hid, hbounded⟩ := h.editions _ _ hsource
  have hcounted := h.put_edition source.burnOne hid hbounded.burnOne
  exact
    { hcounted with
      tokens := h.tokens.drop
      tokensOf := h.tokensOf.struck id htokenBounded.owner }

/-- Every rule keeps everything within its bounds: each value that it writes has been checked by the call
itself, or comes from a record that is within its bounds. -/
theorem does (h : Bounded ceiling contents) {limits : Limits} {caller : AccountId} {action : Action}
    {receipt : Receipt} {next : Contents} (hcaller : caller.IsNamed)
    (hdoes : contents.Does limits ceiling caller action receipt next) : Bounded ceiling next := by
  cases hdoes with
  | createAccount hid _ _ => exact h.registered limits (isLabel_of_creatorId hid) hcaller
  | dropAccount _ _ hrecord _ =>
    refine h.released hrecord (fun creator hrest => ?_) hcaller
    split at hrest <;> cases hrest
    rfl
  | @mint _ _ _ _ _ metadata _ hid hamount _ _ _ _ _ hcount _ =>
    exact h.minted limits metadata (isLabel_of_creatorId hid) (nonneg_of_amount hamount) hcount
  | launchGift _ _ hreceiver _ _ _ hsource _ _ hcount _ =>
    exact h.issued limits hsource hcount (isNamed_of_account hreceiver)
  | launchBuy _ _ hsource _ _ _ _ hcount _ => exact h.issued limits hsource hcount hcaller
  | buy _ _ hrecord _ _ _ _ =>
    refine (h.moved limits hrecord hcaller).priced tokens_moved_self fun amount heq => ?_
    cases heq
  | transfer _ hrecord howner _ =>
    subst howner
    exact h.moved limits hrecord hcaller
  | list _ hamount hrecord _ _ =>
    refine h.priced hrecord fun amount heq => ?_
    cases heq
    exact nonneg_of_amount hamount
  | unlist _ hrecord _ _ =>
    refine h.priced hrecord fun amount heq => ?_
    cases heq
  | setLaunchPrice _ _ hamount _ _ _ hsource _ =>
    obtain ⟨hid, hbounded⟩ := h.editions _ _ hsource
    exact h.put_edition _ hid (hbounded.withPrice (nonneg_of_amount hamount))
  | setPrice _ hamount hrecord _ _ =>
    refine h.priced hrecord fun amount heq => ?_
    cases heq
    exact nonneg_of_amount hamount
  | burn _ hrecord _ hsource => exact h.burned hrecord hsource

end Contents.Bounded

namespace Market

variable {σ : Type} [Currency σ]

/-- **Stored values stay within their bounds.** After any run of calls that accounts with a name have made,
with arguments of any shape and whatever they were answered: creators, editions and tokens stand under their
own ids and are within the bounds of their records, and so are the accounts and the creators that have a
roster. Numbers are at least one as long as the counters have not started below zero. -/
theorem stored_values_bounded (limits : Limits) (ceiling : Int) {lastEdition lastToken : Int}
    (funds : σ) (events : EventLog) (methods : Method → MethodSettings) {calls : List Call}
    (hedition : 0 ≤ lastEdition) (htoken : 0 ≤ lastToken)
    (hcallers : ∀ call ∈ calls, ∃ s, call.caller = .name s ∧ s ≠ "") :
    let contents := ((opened limits ceiling lastEdition lastToken funds events methods).run
      calls).store.contents
    (∀ (id : CreatorId) (creator : Creator), contents.creators[id]? = some creator →
        creator.id = id ∧ creator.Bounded) ∧
      (∀ (id : ItemId) (edition : Edition), contents.editions[id]? = some edition →
        edition.id = id ∧ edition.Bounded ceiling) ∧
      (∀ (id : ItemId) (token : Token), contents.tokens[id]? = some token →
        token.id = id ∧ token.Bounded ceiling) ∧
      (∀ (account : AccountId) (roster : Roster CreatorId),
        contents.creatorsOf[account]? = some roster → account.IsNamed) ∧
      (∀ (account : AccountId) (roster : Roster ItemId),
        contents.tokensOf[account]? = some roster → account.IsNamed) ∧
      ∀ (creator : CreatorId) (roster : Roster ItemId),
        contents.editionsOf[creator]? = some roster → IsLabel creator := by
  intro contents
  have hn : (opened limits ceiling lastEdition lastToken funds events methods).store.journal =
      none := rfl
  have h : contents.Bounded ceiling := by
    refine run_invariant (fun _ => Contents.Bounded ceiling) hn (.empty ceiling hedition htoken) ?_
    intro call hm _ _ _ _ hbounded hdoes
    exact hbounded.does (hcallers call hm) hdoes
  exact ⟨h.creators, h.editions, h.tokens, h.creatorsOf, h.tokensOf, h.editionsOf⟩

/-- Calls with arguments at the edge of what is allowed, and some beyond it. -/
def edges : List Call :=
  let label := Value.string (String.ofList (List.replicate 63 'a'))
  let metadata := Value.object
    [("name", .string ""), ("mime_type", .string "image/png"), ("metadata_uri", .string "ipfs://dawn"),
      ("supply", .int 4294967295)]
  [⟨.name "ann", .createAccount label⟩,
    ⟨.name "ann", .mint label (.int (-1)) (.raw metadata)⟩,
    ⟨.name "ann", .mint label (.bool true) (.raw metadata)⟩,
    ⟨.name "ann", .mint label (.int 0) (.raw metadata)⟩,
    ⟨.name "ann", .launchGift label (.int 1) (.string "")⟩,
    ⟨.name "ann", .launchGift label (.int 1) (.string "bob")⟩,
    ⟨.name "bob", .list (.int 1) (.int (-1))⟩,
    ⟨.name "bob", .list (.int 1) (.int 0)⟩]

theorem stored_values_bounded_edges :
    ∃ edition token,
      let contents :=
        ((opened default 1 0 0 ({} : Bank) { time := "" } Method.settings).run edges).store.contents
      contents.editions[(1 : ItemId)]? = some edition ∧ edition.Bounded 1 ∧
        contents.tokens[(1 : ItemId)]? = some token ∧ token.Bounded 1 ∧ token.price = some 0 := by
  have hcallers : ∀ call ∈ edges, ∃ s, call.caller = .name s ∧ s ≠ "" := by
    intro call hm
    simp only [edges, List.mem_cons, List.not_mem_nil, or_false] at hm
    rcases hm with rfl | rfl | rfl | rfl | rfl | rfl | rfl | rfl <;> exact ⟨_, rfl, by decide⟩
  obtain ⟨-, hedition, htoken, -⟩ := stored_values_bounded default 1 ({} : Bank) { time := "" }
    Method.settings (Int.le_refl 0) (Int.le_refl 0) hcallers
  have hrun :
      let contents :=
        ((opened default 1 0 0 ({} : Bank) { time := "" } Method.settings).run edges).store.contents
      contents.editions[(1 : ItemId)]?.isSome ∧
        contents.tokens[(1 : ItemId)]?.map Token.price = some (some 0) := by
    decide +kernel
  obtain ⟨edition, he⟩ := Option.isSome_iff_exists.1 hrun.1
  obtain ⟨token, ht, hp⟩ := Option.map_eq_some_iff.1 hrun.2
  exact ⟨edition, token, he, (hedition 1 edition he).2, ht, (htoken 1 token ht).2, hp⟩

end Market

end EditionMarket
