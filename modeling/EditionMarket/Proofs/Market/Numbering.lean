import EditionMarket.Proofs.Market.Answered
import EditionMarket.Proofs.Market.Conservation

/-!
# Numbers are dense, fresh and never reused

Editions and tokens are numbered by two counters. A number is looked up before anything is written and
recorded as given out when all has been written, and whatever fails in between must neither use a number up
nor give it out twice. This file proves that what a run gives out are the numbers after the start, one after
the other and without a gap, and relates them to the records that are there.

Main statements: `Contents.Numbered.does`, every rule keeps the count, and
`numbers_dense_and_never_reused`, what that means for a run.
-/

namespace EditionMarket

/-! ## Counting -/

/-- As many numbers as asked for, from the one after the start on. -/
def numbersAfter (start : Int) (count : Nat) : List Int :=
  (List.range count).map fun n : Nat => start + (n + 1)

theorem numbersAfter_succ (start : Int) (count : Nat) :
    numbersAfter start (count + 1) = numbersAfter start count ++ [start + (count + 1)] := by
  unfold numbersAfter
  rw [List.range_succ, List.map_append, List.map_singleton]

theorem mem_numbersAfter_iff {start n : Int} {count : Nat} :
    n ∈ numbersAfter start count ↔ start < n ∧ n ≤ start + count := by
  unfold numbersAfter
  simp only [List.mem_map, List.mem_range]
  constructor
  · rintro ⟨k, hk, rfl⟩
    omega
  -- How far the number is from the start tells its place in the list.
  · intro h
    exact ⟨(n - start - 1).toNat, by omega, by omega⟩

/-- A counter that has started at a number has given out those after it, in order, up to the last one, and
has not gone above its ceiling. -/
structure Counted (start ceiling last : Int) (given : List Int) : Prop where
  given_eq : given = numbersAfter start given.length
  last_eq : last = start + given.length
  le_ceiling : ∀ n ∈ given, n ≤ ceiling

namespace Counted

variable {start ceiling last n : Int} {given : List Int}

theorem nil (start ceiling : Int) : Counted start ceiling start [] where
  given_eq := rfl
  last_eq := (Int.add_zero start).symm
  le_ceiling _ h := by cases h

/-- Below the ceiling, the counter gives out one more. -/
theorem next (h : Counted start ceiling last given) (hlt : last < ceiling) :
    Counted start ceiling (last + 1) (given ++ [last + 1]) := by
  have hlast := h.last_eq
  have hlength : (given ++ [last + 1]).length = given.length + 1 := by simp
  constructor
  case given_eq =>
    have hnumber : last + 1 = start + (given.length + 1) := by omega
    rw [hlength, numbersAfter_succ, ← h.given_eq, hnumber]
  case last_eq =>
    rw [hlength]
    omega
  case le_ceiling =>
    intro n hn
    rcases List.mem_append.1 hn with hn | hn
    · exact h.le_ceiling n hn
    · rw [List.mem_singleton.1 hn]
      exact hlt

theorem mem_iff (h : Counted start ceiling last given) : n ∈ given ↔ start < n ∧ n ≤ last := by
  rw [h.given_eq, mem_numbersAfter_iff, ← h.last_eq]

/-- The next number has not been given out. -/
theorem next_notMem (h : Counted start ceiling last given) : last + 1 ∉ given := by
  intro hm
  have hle := (h.mem_iff.1 hm).2
  omega

end Counted

/-! ## Numbers of a run -/

/-- The number of the edition that the action has minted. -/
def Receipt.mintedId? : Receipt → Option ItemId
  | minted _ edition .. => some edition
  | _ => none

/-- The number of the token that the action has issued. -/
def Receipt.issuedId? : Receipt → Option ItemId
  | gifted _ token _ => some token
  | launched _ token .. => some token
  | _ => none

/-- The numbers of the editions that were minted, in order. -/
def mintedIds (past : List Receipt) : List ItemId := past.filterMap Receipt.mintedId?

/-- The numbers of the tokens that were issued, in order. -/
def issuedIds (past : List Receipt) : List ItemId := past.filterMap Receipt.issuedId?

theorem mintedIds_append_singleton (past : List Receipt) (receipt : Receipt) :
    mintedIds (past ++ [receipt]) = mintedIds past ++ receipt.mintedId?.toList := by
  unfold mintedIds
  rw [List.filterMap_append]
  cases h : receipt.mintedId? <;> simp [h]

theorem issuedIds_append_singleton (past : List Receipt) (receipt : Receipt) :
    issuedIds (past ++ [receipt]) = issuedIds past ++ receipt.issuedId?.toList := by
  unfold issuedIds
  rw [List.filterMap_append]
  cases h : receipt.issuedId? <;> simp [h]

theorem mintedIds_append_of_none (past : List Receipt) {receipt : Receipt}
    (h : receipt.mintedId? = none) : mintedIds (past ++ [receipt]) = mintedIds past := by
  rw [mintedIds_append_singleton, h, Option.toList_none, List.append_nil]

theorem issuedIds_append_of_none (past : List Receipt) {receipt : Receipt}
    (h : receipt.issuedId? = none) : issuedIds (past ++ [receipt]) = issuedIds past := by
  rw [issuedIds_append_singleton, h, Option.toList_none, List.append_nil]

/-- The counters have counted what was minted and issued. The editions are those that were minted, and the
tokens are some of those that were issued, each with its edition; a token that was burnt is not among them.
The editions have issued as many tokens as there were. -/
structure Contents.Numbered (lastEdition lastToken ceiling : Int) (past : List Receipt)
    (contents : Contents) : Prop where
  minted : Counted lastEdition ceiling contents.lastEdition (mintedIds past)
  issued : Counted lastToken ceiling contents.lastToken (issuedIds past)
  editions : ∀ id, (∃ edition, contents.editions[id]? = some edition) ↔ id ∈ mintedIds past
  tokens : contents.tokens.All fun id token =>
    id ∈ issuedIds past ∧ ∃ edition, contents.editions[token.edition]? = some edition
  burnt : ∀ token edition, Receipt.burnt token edition ∈ past →
    token ∈ issuedIds past ∧ contents.tokens[token]? = none
  sum_issued : contents.editions.sumOf Edition.issued = (issuedIds past).length

namespace Contents.Numbered

variable {lastEdition lastToken ceiling : Int} {past : List Receipt} {contents next : Contents}
  {receipt : Receipt} {id : ItemId}

theorem empty (lastEdition lastToken ceiling : Int) :
    Numbered lastEdition lastToken ceiling []
      { lastEdition := lastEdition, lastToken := lastToken } where
  minted := .nil _ _
  issued := .nil _ _
  editions id := by simp [mintedIds]
  tokens := .empty _
  burnt _ _ h := by cases h
  sum_issued := rfl

/-! ## Free places -/

/-- The next edition is not there yet. -/
theorem next_edition (h : Numbered lastEdition lastToken ceiling past contents) :
    contents.editions[contents.lastEdition + 1]? = none := by
  cases hf : contents.editions[contents.lastEdition + 1]? with
  | none => rfl
  | some edition => exact absurd ((h.editions _).1 ⟨edition, hf⟩) h.minted.next_notMem

/-- Nor is the next token. -/
theorem next_token (h : Numbered lastEdition lastToken ceiling past contents) :
    contents.tokens[contents.lastToken + 1]? = none :=
  h.tokens.getElem?_eq_none fun _ ht => h.issued.next_notMem ht.1

/-! ## Changes that give out no number -/

/-- A receipt that neither gives out a number nor burns a token makes no difference. -/
theorem append (h : Numbered lastEdition lastToken ceiling past contents)
    (hminted : receipt.mintedId? = none) (hissued : receipt.issuedId? = none)
    (hburnt : ∀ token edition, receipt ≠ .burnt token edition) :
    Numbered lastEdition lastToken ceiling (past ++ [receipt]) contents := by
  have hm := mintedIds_append_of_none past hminted
  have hi := issuedIds_append_of_none past hissued
  constructor
  case minted =>
    rw [hm]
    exact h.minted
  case issued =>
    rw [hi]
    exact h.issued
  case editions =>
    rw [hm]
    exact h.editions
  case tokens =>
    rw [hi]
    exact h.tokens
  case burnt =>
    intro token edition hb
    rw [hi]
    rcases List.mem_append.1 hb with hb | hb
    · exact h.burnt token edition hb
    · exact absurd (List.mem_singleton.1 hb).symm (hburnt token edition)
  case sum_issued =>
    rw [hi]
    exact h.sum_issued

/-- Creators do not matter. -/
theorem registered (h : Numbered lastEdition lastToken ceiling past contents) (limits : Limits)
    (creator : CreatorId) (owner : AccountId) :
    Numbered lastEdition lastToken ceiling past (contents.registered limits creator owner) :=
  ⟨h.minted, h.issued, h.editions, h.tokens, h.burnt, h.sum_issued⟩

theorem released (h : Numbered lastEdition lastToken ceiling past contents) (creator : CreatorId)
    (owner : AccountId) (rest : Option Creator) :
    Numbered lastEdition lastToken ceiling past (contents.released creator owner rest) :=
  ⟨h.minted, h.issued, h.editions, h.tokens, h.burnt, h.sum_issued⟩

/-- A token is replaced by one of the same edition. -/
theorem put_token (h : Numbered lastEdition lastToken ceiling past contents) {token other : Token}
    (htoken : contents.tokens[id]? = some token) (hedition : other.edition = token.edition)
    (rosters : Table AccountId (Roster ItemId)) :
    Numbered lastEdition lastToken ceiling past
      { contents with tokens := contents.tokens.put id other, tokensOf := rosters } := by
  have hold := h.tokens _ _ htoken
  constructor
  case minted => exact h.minted
  case issued => exact h.issued
  case editions => exact h.editions
  case tokens =>
    apply h.tokens.put
    rw [hedition]
    exact hold
  case burnt =>
    intro burnt edition hb
    obtain ⟨hissued, hgone⟩ := h.burnt burnt edition hb
    -- The token that is replaced is there, so it is not the one that was burnt.
    have hne : id ≠ burnt := by
      rintro rfl
      cases htoken.symm.trans hgone
    refine ⟨hissued, ?_⟩
    show (contents.tokens.put id other)[burnt]? = none
    rw [Table.getElem?_put, if_neg hne]
    exact hgone
  case sum_issued => exact h.sum_issued

theorem moved (h : Numbered lastEdition lastToken ceiling past contents) (limits : Limits)
    {token : Token} (htoken : contents.tokens[id]? = some token) (owner receiver : AccountId) :
    Numbered lastEdition lastToken ceiling past (contents.moved limits id token owner receiver) := by
  have hedition : ({ token with owner := receiver } : Token).edition = token.edition := rfl
  exact h.put_token htoken hedition _

theorem priced (h : Numbered lastEdition lastToken ceiling past contents) {token : Token}
    (htoken : contents.tokens[id]? = some token) (price : Option Int) :
    Numbered lastEdition lastToken ceiling past (contents.priced id token price) := by
  have hedition : ({ token with price := price } : Token).edition = token.edition := rfl
  exact h.put_token htoken hedition _

/-- An edition is replaced. The same editions are there as before. -/
theorem editions_put {source : Edition} (hsource : contents.editions[id]? = some source)
    (other : Edition) (key : ItemId) :
    (∃ edition, (contents.editions.put id other)[key]? = some edition) ↔
      ∃ edition, contents.editions[key]? = some edition := by
  rw [Table.getElem?_put]
  by_cases hk : id = key
  · subst hk
    simp [hsource]
  · rw [if_neg hk]

/-- An edition is replaced by one that has issued as many tokens. -/
theorem put_edition (h : Numbered lastEdition lastToken ceiling past contents)
    {source other : Edition} (hsource : contents.editions[id]? = some source)
    (hissued : other.issued = source.issued) :
    Numbered lastEdition lastToken ceiling past
      { contents with editions := contents.editions.put id other } := by
  constructor
  case minted => exact h.minted
  case issued => exact h.issued
  case editions =>
    intro key
    rw [← h.editions]
    exact editions_put hsource other key
  case tokens =>
    refine h.tokens.mono ?_
    intro _ token ht
    exact ⟨ht.1, (editions_put hsource other _).2 ht.2⟩
  case burnt => exact h.burnt
  case sum_issued =>
    show (contents.editions.put id other).sumOf Edition.issued = _
    rw [Table.sumOf_put, hsource, Option.map_some, Option.getD_some, hissued, Int.sub_add_cancel]
    exact h.sum_issued

theorem launchPriced (h : Numbered lastEdition lastToken ceiling past contents) {source : Edition}
    (hsource : contents.editions[id]? = some source) (price : Int) :
    Numbered lastEdition lastToken ceiling past (contents.launchPriced id source price) := by
  have hissued : ({ source with price := price } : Edition).issued = source.issued := rfl
  exact h.put_edition hsource hissued

/-- A token has been destroyed. -/
theorem burned (h : Numbered lastEdition lastToken ceiling past contents) {token : Token}
    {source : Edition} (htoken : contents.tokens[id]? = some token)
    (hsource : contents.editions[token.edition]? = some source) :
    Numbered lastEdition lastToken ceiling (past ++ [.burnt id token.edition])
      (contents.burned id token source) := by
  have hissued : source.burnOne.issued = source.issued := rfl
  have hkept := h.put_edition hsource hissued
  have hm : mintedIds (past ++ [.burnt id token.edition]) = mintedIds past :=
    mintedIds_append_of_none past rfl
  have hi : issuedIds (past ++ [.burnt id token.edition]) = issuedIds past :=
    issuedIds_append_of_none past rfl
  constructor
  case minted =>
    rw [hm]
    exact h.minted
  case issued =>
    rw [hi]
    exact h.issued
  case editions =>
    rw [hm]
    exact hkept.editions
  case tokens =>
    rw [hi]
    exact hkept.tokens.drop
  case burnt =>
    intro other edition hb
    show _ ∧ (contents.tokens.drop id)[other]? = none
    rw [hi, Table.getElem?_drop]
    rcases List.mem_append.1 hb with hb | hb
    -- What was burnt earlier was not there before, and nothing has been added.
    · obtain ⟨hissued, hgone⟩ := h.burnt other edition hb
      exact ⟨hissued, by rw [hgone, ite_self]⟩
    · cases List.mem_singleton.1 hb
      exact ⟨(h.tokens _ _ htoken).1, if_pos rfl⟩
  case sum_issued =>
    rw [hi]
    exact hkept.sum_issued

/-! ## Changes that give out a number -/

/-- The next edition has been minted. -/
theorem of_minted (h : Numbered lastEdition lastToken ceiling past contents) (limits : Limits)
    (creator : CreatorId) (price : Int) (metadata : Metadata) (hcount : contents.lastEdition < ceiling) :
    Numbered lastEdition lastToken ceiling
      (past ++ [.minted creator (contents.lastEdition + 1) price metadata.supply])
      (contents.minted limits creator price metadata) := by
  have hfree := h.next_edition
  have hm : mintedIds (past ++ [.minted creator (contents.lastEdition + 1) price metadata.supply]) =
      mintedIds past ++ [contents.lastEdition + 1] := mintedIds_append_singleton _ _
  have hi : issuedIds (past ++ [.minted creator (contents.lastEdition + 1) price metadata.supply]) =
      issuedIds past := issuedIds_append_of_none past rfl
  constructor
  case minted =>
    rw [hm]
    exact h.minted.next hcount
  case issued =>
    rw [hi]
    exact h.issued
  case editions =>
    intro key
    show (∃ edition, (contents.editions.put (contents.lastEdition + 1) _)[key]? = some edition) ↔ _
    -- The new edition is there under its number, and under every other number all is as before.
    rw [hm, List.mem_append, List.mem_singleton, ← h.editions, Table.getElem?_put]
    by_cases hk : contents.lastEdition + 1 = key
    · simp [hk]
    · simp [hk, Ne.symm hk]
  case tokens =>
    rw [hi]
    refine h.tokens.mono ?_
    intro _ token ⟨hissued, edition, hedition⟩
    -- The edition of the token is another one than the new one, which was not there.
    have hne : contents.lastEdition + 1 ≠ token.edition := by
      intro heq
      rw [heq, hedition] at hfree
      cases hfree
    refine ⟨hissued, edition, ?_⟩
    show (contents.editions.put (contents.lastEdition + 1) _)[token.edition]? = some edition
    rw [Table.getElem?_put, if_neg hne]
    exact hedition
  case burnt =>
    intro token edition hb
    rw [hi]
    rcases List.mem_append.1 hb with hb | hb
    · exact h.burnt token edition hb
    · cases List.mem_singleton.1 hb
  case sum_issued =>
    show (contents.editions.put (contents.lastEdition + 1) _).sumOf Edition.issued = _
    rw [hi, Table.sumOf_put, hfree, h.sum_issued]
    exact Int.add_zero _

/-- The next token has been issued from an edition that counts it. -/
theorem of_issued (h : Numbered lastEdition lastToken ceiling past contents) (limits : Limits)
    {source : Edition} {receiver : AccountId} (hsource : contents.editions[id]? = some source)
    (hid : source.id = id) (hissued : source.issueOne.issued = source.issued + 1)
    (hcount : contents.lastToken < ceiling) (hminted : receipt.mintedId? = none)
    (hreceipt : receipt.issuedId? = some (contents.lastToken + 1)) :
    Numbered lastEdition lastToken ceiling (past ++ [receipt])
      (contents.issued limits id source receiver) := by
  have hm := mintedIds_append_of_none past hminted
  have hi : issuedIds (past ++ [receipt]) = issuedIds past ++ [contents.lastToken + 1] := by
    rw [issuedIds_append_singleton, hreceipt]
    rfl
  constructor
  case minted =>
    rw [hm]
    exact h.minted
  case issued =>
    rw [hi]
    exact h.issued.next hcount
  case editions =>
    intro key
    rw [hm, ← h.editions]
    exact editions_put hsource source.issueOne key
  case tokens =>
    rw [hi]
    apply Table.All.put
    -- The tokens that were there keep their numbers, and their editions are still there.
    · refine h.tokens.mono ?_
      intro _ token ht
      exact ⟨List.mem_append_left _ ht.1, (editions_put hsource source.issueOne _).2 ht.2⟩
    -- The new token has the next number and comes from the edition that counts it.
    · refine ⟨List.mem_append_right _ (List.mem_singleton_self _), ?_⟩
      have hedition : (Token.issue receiver (contents.lastToken + 1) source).edition = id := hid
      rw [hedition]
      exact (editions_put hsource source.issueOne _).2 ⟨source, hsource⟩
  case burnt =>
    intro token edition hb
    rcases List.mem_append.1 hb with hb | hb
    · obtain ⟨hgiven, hgone⟩ := h.burnt token edition hb
      -- What was burnt had a number, and the next number has not been given out.
      have hne : contents.lastToken + 1 ≠ token := by
        rintro rfl
        exact h.issued.next_notMem hgiven
      refine ⟨?_, ?_⟩
      · rw [hi]
        exact List.mem_append_left _ hgiven
      · show (contents.tokens.put (contents.lastToken + 1) _)[token]? = none
        rw [Table.getElem?_put, if_neg hne]
        exact hgone
    · rw [← List.mem_singleton.1 hb] at hreceipt
      cases hreceipt
  case sum_issued =>
    have hsum := h.sum_issued
    show (contents.editions.put id source.issueOne).sumOf Edition.issued = _
    rw [hi, List.length_append, List.length_singleton, Table.sumOf_put, hsource, Option.map_some,
      Option.getD_some, hissued]
    omega

/-! ## Calls -/

/-- Every rule keeps the count. -/
theorem does (h : Numbered lastEdition lastToken ceiling past contents)
    (hbalanced : contents.Balanced past) {limits : Limits} {caller : AccountId} {action : Action}
    (hdoes : contents.Does limits ceiling caller action receipt next) :
    Numbered lastEdition lastToken ceiling (past ++ [receipt]) next := by
  cases hdoes with
  | createAccount => exact (h.registered _ _ _).append rfl rfl nofun
  | dropAccount => exact (h.released _ _ _).append rfl rfl nofun
  | mint _ _ _ _ _ _ _ hcount => exact h.of_minted _ _ _ _ hcount
  | launchGift _ _ _ _ _ _ hsource _ hleft hcount =>
    have haccounted := (hbalanced.editions _ _ hsource).2
    have hissued := (haccounted.issued_issueOne hleft).2
    exact h.of_issued _ hsource haccounted.id_eq hissued hcount rfl rfl
  | launchBuy _ _ hsource _ _ _ hleft hcount =>
    have haccounted := (hbalanced.editions _ _ hsource).2
    have hissued := (haccounted.issued_issueOne hleft).2
    exact h.of_issued _ hsource haccounted.id_eq hissued hcount rfl rfl
  | buy _ _ hrecord =>
    exact ((h.moved _ hrecord _ _).priced tokens_moved_self none).append rfl rfl nofun
  | transfer _ hrecord => exact (h.moved _ hrecord _ _).append rfl rfl nofun
  | list _ _ hrecord => exact (h.priced hrecord _).append rfl rfl nofun
  | unlist _ hrecord => exact (h.priced hrecord _).append rfl rfl nofun
  | setLaunchPrice _ _ _ _ _ _ hsource => exact (h.launchPriced hsource _).append rfl rfl nofun
  | setPrice _ _ hrecord => exact (h.priced hrecord _).append rfl rfl nofun
  | burn _ hrecord _ hsource => exact h.burned hrecord hsource

end Contents.Numbered

/-! ## Numbers after a run -/

/-- Whatever makes a new record finds its place free, also if the call that wants the record is refused in
the end. -/
structure Store.InsertsFresh (store : Store) : Prop where
  register : ∀ id owner creator final, Registry.register id owner store = .ok creator final →
    store.contents.creators[creator.id]? = none
  mint : ∀ creator price metadata id final,
    Issuance.mint creator price metadata store = .ok id final → store.contents.editions[id]? = none
  issue : ∀ edition receiver id final, Issuance.issue edition receiver store = .ok id final →
    store.contents.tokens[id]? = none

theorem Contents.Numbered.insertsFresh {lastEdition lastToken ceiling : Int} {past : List Receipt}
    {contents : Contents} (h : contents.Numbered lastEdition lastToken ceiling past) (limits : Limits) :
    (Store.idle limits ceiling contents).InsertsFresh := by
  constructor
  case register =>
    intro id owner creator final hr
    obtain ⟨key, -, hfree, -, rfl, -⟩ := Registry.register_eq_ok_iff.1 hr
    exact hfree
  case mint =>
    intro creator price metadata id final hr
    obtain ⟨-, -, -, rfl, -⟩ := Issuance.mint_eq_ok_iff.1 hr
    exact h.next_edition
  case issue =>
    intro edition receiver id final hr
    obtain ⟨_, -, -, -, -, rfl, -⟩ := Issuance.issue_eq_ok_iff.1 hr
    exact h.next_token

namespace Market

variable {σ : Type} [Currency σ]

theorem numbered_run (limits : Limits) (ceiling lastEdition lastToken : Int) (funds : σ)
    (events : EventLog) (methods : Method → MethodSettings) (calls : List Call) :
    let market := opened limits ceiling lastEdition lastToken funds events methods
    (market.run calls).store.contents.Numbered lastEdition lastToken ceiling
      (market.receipts calls) := by
  intro market
  -- That a launch counts its token depends on the books, so the two go through the run together.
  have h : (market.run calls).store.contents.Balanced (market.receipts calls) ∧
      (market.run calls).store.contents.Numbered lastEdition lastToken ceiling
        (market.receipts calls) := by
    apply run_invariant (fun past contents => contents.Balanced past ∧
      contents.Numbered lastEdition lastToken ceiling past) rfl
    · exact ⟨.empty lastEdition lastToken, .empty lastEdition lastToken ceiling⟩
    · intro call _ past contents receipt next ⟨hbalanced, hnumbered⟩ hdoes
      exact ⟨hbalanced.does hdoes, hnumbered.does hbalanced hdoes⟩
  exact h.2

/-- **Numbers are dense, fresh and never reused.** After any run, whatever its calls were answered: the
editions that were minted have the numbers after the start, one after the other, and so have the tokens that
were issued; none of them is above the ceiling, and the counters stand at the last ones. The editions that
are there are exactly those with such a number, the tokens that are there have one, and all editions together
have issued as many tokens as were numbered. Every further call is completed or refused, so no counter is
ever out of turn; no new record takes the place of another one; and under the number of a token that was
burnt there is never a token again. -/
theorem numbers_dense_and_never_reused (limits : Limits) (ceiling lastEdition lastToken : Int)
    (funds : σ) (events : EventLog) (methods : Method → MethodSettings) (calls : List Call) :
    let start := opened limits ceiling lastEdition lastToken funds events methods
    let past := start.receipts calls
    let market := start.run calls
    let contents := market.store.contents
    (mintedIds past = numbersAfter lastEdition (mintedIds past).length ∧
        contents.lastEdition = lastEdition + (mintedIds past).length ∧
        ∀ id ∈ mintedIds past, id ≤ ceiling) ∧
      (issuedIds past = numbersAfter lastToken (issuedIds past).length ∧
        contents.lastToken = lastToken + (issuedIds past).length ∧
        ∀ id ∈ issuedIds past, id ≤ ceiling) ∧
      (∀ id, (∃ edition, contents.editions[id]? = some edition) ↔
        lastEdition < id ∧ id ≤ contents.lastEdition) ∧
      (∀ (id : ItemId) (token : Token), contents.tokens[id]? = some token →
        lastToken < id ∧ id ≤ contents.lastToken) ∧
      contents.editions.sumOf Edition.issued = contents.lastToken - lastToken ∧
      (∀ call, ∃ answer, market.answer call = .ok answer) ∧
      market.store.InsertsFresh ∧
      ∀ token edition, .burnt token edition ∈ past → contents.tokens[token]? = none := by
  intro start past market contents
  have h : contents.Numbered lastEdition lastToken ceiling past :=
    numbered_run limits ceiling lastEdition lastToken funds events methods calls
  have hstore : market.store = .idle limits ceiling contents := run_store_eq calls rfl
  refine ⟨⟨h.minted.given_eq, h.minted.last_eq, h.minted.le_ceiling⟩,
    ⟨h.issued.given_eq, h.issued.last_eq, h.issued.le_ceiling⟩, ?_, ?_, ?_, ?_, ?_, ?_⟩
  · intro id
    rw [h.editions, h.minted.mem_iff]
  · intro id token ht
    exact h.issued.mem_iff.1 (h.tokens id token ht).1
  -- All editions together have issued as many tokens as the counter has gone up by.
  · have hlast := h.issued.last_eq
    rw [h.sum_issued]
    omega
  · intro call
    exact answer_eq_ok call (journal_run calls rfl) (h.tokens.mono fun _ _ ht => ht.2)
  · rw [hstore]
    exact h.insertsFresh limits
  · intro token edition hb
    exact (h.burnt token edition hb).2

/-- A run with two editions and two tokens, the first of which is burnt. In between a mint and a launch are
refused. -/
def launches : List Call :=
  let dusk := Description.raw (.object
    [("name", .string "Dusk"), ("mime_type", .string "image/png"),
      ("metadata_uri", .string "ipfs://dusk"), ("supply", .int 2)])
  [⟨.name "ann", .createAccount (.string "studio")⟩,
    ⟨.name "ann", .mint (.string "studio") (.int 0) dusk⟩,
    ⟨.name "bob", .mint (.string "studio") (.int 0) dusk⟩,
    ⟨.name "ann", .mint (.string "studio") (.int 5) dusk⟩,
    ⟨.name "ann", .launchGift (.string "studio") (.int 4) (.string "bob")⟩,
    ⟨.name "bob", .burn (.int 8)⟩,
    ⟨.name "bob", .launchBuy (.int 5) (.int 5)⟩,
    ⟨.name "bob", .launchBuy (.int 4) (.int 0)⟩]

theorem numbers_dense_and_never_reused_launches :
    let start := opened default 20 3 7 ({} : Bank) { time := "" } Method.settings
    mintedIds (start.receipts launches) = [4, 5] ∧ issuedIds (start.receipts launches) = [8, 9] ∧
      .burnt 8 4 ∈ start.receipts launches ∧
        (start.run launches).store.contents.tokens[(8 : ItemId)]? = none ∧
          ∃ answer, (start.run launches).answer ⟨.name "bob", .burn (.int 8)⟩ = .ok answer := by
  dsimp only
  obtain ⟨hminted, hissued, -, -, -, hanswer, -, hburnt⟩ :=
    numbers_dense_and_never_reused default 20 3 7 ({} : Bank) { time := "" } Method.settings launches
  have hb : .burnt 8 4 ∈
      (opened default 20 3 7 ({} : Bank) { time := "" } Method.settings).receipts launches := by
    decide +kernel
  refine ⟨hminted.1.trans ?_, hissued.1.trans ?_, hb, hburnt 8 4 hb, hanswer _⟩
  · decide +kernel
  · decide +kernel

end Market

end EditionMarket
