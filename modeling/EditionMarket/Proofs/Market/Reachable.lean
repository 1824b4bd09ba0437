import EditionMarket.Proofs.Market.LockStep
import EditionMarket.Proofs.Market.Numbering
import Mathlib.Data.List.Perm.Subperm

/-!
# Markets that can come about

A market comes about by opening it and by calls, whoever makes them and whatever they are answered. Between
two calls the host may do with the funds what it likes. This file says so, and collects what holds of the
contents of all such markets, so that one can tell from the records alone whether there is room for one more
and whether an edition is sold out.

Main definition: `Market.Reachable`. Main statement: `Market.Reachable.sound`.
-/

namespace EditionMarket

namespace Contents

/-! ## How many records name an account or a creator -/

/-- The number of tokens that an account owns by their records. -/
def tokenCount (contents : Contents) (account : AccountId) : Nat :=
  contents.tokens.count fun token => token.owner = account

/-- The number of editions that a creator has minted by their records. -/
def editionCount (contents : Contents) (creator : CreatorId) : Nat :=
  contents.editions.count fun edition => edition.creator = creator

/-! ## Soundness -/

/-- The contents but for the creators and their rosters. -/
def withoutCreators (contents : Contents) : Contents :=
  { contents with creators := ∅, creatorsOf := ∅ }

/-- Editions and tokens are in lock step with their rosters; the books of the editions balance, and the
numbers have been given out one after the other, those of tokens from a start that is not negative. -/
structure Sound (limits : Limits) (ceiling : Int) (contents : Contents) : Prop where
  items : contents.withoutCreators.LockStep limits
  books : ∃ past lastEdition lastToken, 0 ≤ lastToken ∧ contents.Balanced past ∧
    contents.Numbered lastEdition lastToken ceiling past

namespace Sound

variable {limits : Limits} {ceiling : Int} {contents : Contents} {id : ItemId}

theorem empty (limits : Limits) (ceiling : Int) {lastEdition lastToken : Int} (htoken : 0 ≤ lastToken) :
    Sound limits ceiling { lastEdition := lastEdition, lastToken := lastToken } where
  items := .empty limits lastEdition lastToken
  books := ⟨[], lastEdition, lastToken, htoken, .empty lastEdition lastToken, .empty _ _ _⟩

/-- Every rule preserves soundness, whoever calls: who is no account can only get at creators. -/
theorem does (h : Sound limits ceiling contents) {caller : AccountId} {action : Action}
    {receipt : Receipt} {next : Contents}
    (hdoes : contents.Does limits ceiling caller action receipt next) : Sound limits ceiling next where
  items := by
    have hitems := h.items
    cases hdoes with
    | createAccount => exact hitems
    | dropAccount => exact hitems
    | mint _ _ _ _ _ _ _ _ hroom => exact hitems.minted hroom
    | launchGift _ _ _ _ _ _ hsource _ _ _ hroom => exact hitems.issued hsource hroom
    | launchBuy _ _ hsource _ _ _ _ _ hroom => exact hitems.issued hsource hroom
    | buy _ _ hrecord _ _ _ hroom => exact (hitems.moved hrecord hroom).priced tokens_moved_self
    | transfer _ hrecord howner hroom =>
      subst howner
      exact hitems.moved hrecord hroom
    | list _ _ hrecord => exact hitems.priced hrecord
    | unlist _ hrecord => exact hitems.priced hrecord
    | setLaunchPrice _ _ _ _ _ _ hsource => exact hitems.put_edition hsource rfl rfl
    | setPrice _ _ hrecord => exact hitems.priced hrecord
    | burn _ hrecord _ hsource => exact hitems.burned hrecord hsource
  books := by
    obtain ⟨past, lastEdition, lastToken, hstart, hbalanced, hnumbered⟩ := h.books
    exact ⟨_, lastEdition, lastToken, hstart, hbalanced.does hdoes, hnumbered.does hbalanced hdoes⟩

/-! ## What the records tell -/

theorem tokensOf (h : Sound limits ceiling contents) :
    contents.tokensOf.InStep limits.tokensPerAccount
      (contents.tokens.holder fun token => some token.owner) :=
  h.items.tokensOf

theorem editionsOf (h : Sound limits ceiling contents) :
    contents.editionsOf.InStep limits.editionsPerCreator
      (contents.editions.holder fun edition => some edition.creator) :=
  h.items.editionsOf

/-- An account can take in a token as long as it owns fewer than it may. -/
theorem hasRoom_tokensOf_iff (h : Sound limits ceiling contents) (account : AccountId) :
    contents.tokensOf.HasRoom limits.tokensPerAccount account ↔
      contents.tokenCount account < limits.tokensPerAccount :=
  h.tokensOf.hasRoom_iff account

/-- A creator can mint as long as it has minted fewer editions than it may. -/
theorem hasRoom_editionsOf_iff (h : Sound limits ceiling contents) (creator : CreatorId) :
    contents.editionsOf.HasRoom limits.editionsPerCreator creator ↔
      contents.editionCount creator < limits.editionsPerCreator :=
  h.editionsOf.hasRoom_iff creator

theorem mem_tokensOf (h : Sound limits ceiling contents) {record : Token}
    (hrecord : contents.tokens[id]? = some record) :
    id ∈ contents.tokensOf.itemsAt record.owner :=
  h.items.mem_tokensOf.2 ⟨record, hrecord, rfl⟩

theorem next_token (h : Sound limits ceiling contents) :
    contents.tokens[contents.lastToken + 1]? = none :=
  h.items.next_token

theorem next_edition (h : Sound limits ceiling contents) :
    contents.editions[contents.lastEdition + 1]? = none :=
  h.items.next_edition

variable {source : Edition}

theorem edition_id (h : Sound limits ceiling contents) (hsource : contents.editions[id]? = some source) :
    source.id = id :=
  (h.items.editions _ _ hsource).1

/-- An edition is not sold out as long as it has issued less than what is left of its supply and what was
destroyed of it. -/
theorem isSoldOut_eq_false_iff (h : Sound limits ceiling contents)
    (hsource : contents.editions[id]? = some source) :
    source.isSoldOut = false ↔ source.issued < source.supply + source.destroyed := by
  obtain ⟨past, _, _, -, hbalanced, -⟩ := h.books
  unfold Edition.isSoldOut
  rw [((hbalanced.editions _ _ hsource).2).totalSupply_eq, decide_eq_false_iff_not, Int.not_le]

theorem issueOne_eq (h : Sound limits ceiling contents) (hsource : contents.editions[id]? = some source)
    (hleft : source.isSoldOut = false) :
    source.issueOne = { source with issued := source.issued + 1 } := by
  obtain ⟨past, _, _, -, hbalanced, -⟩ := h.books
  exact ((hbalanced.editions _ _ hsource).2).issueOne_eq hleft

/-- The number of a token is positive and not above the ceiling. -/
theorem number_of_token (h : Sound limits ceiling contents) :
    contents.tokens.All fun id _ => 0 < id ∧ id ≤ ceiling := by
  obtain ⟨past, _, lastToken, hstart, -, hnumbered⟩ := h.books
  refine hnumbered.tokens.mono fun id _ ht => ⟨?_, hnumbered.issued.le_ceiling id ht.1⟩
  exact Int.lt_of_le_of_lt hstart (hnumbered.issued.mem_iff.1 ht.1).1

/-- So no account owns more tokens than there are numbers. -/
theorem tokenCount_le (h : Sound limits ceiling contents) (account : AccountId) :
    contents.tokenCount account ≤ ceiling.toNat := by
  -- The roster of the account names numbers that can be given out, and none of them twice.
  have hgiven : contents.tokensOf.itemsAt account ⊆ numbersAfter 0 ceiling.toNat := by
    intro (id : Int) hm
    obtain ⟨record, hrecord, -⟩ := h.items.mem_tokensOf.1 hm
    have hrange : 0 < id ∧ id ≤ ceiling := h.number_of_token id record hrecord
    rw [mem_numbersAfter_iff]
    omega
  calc contents.tokenCount account
    _ = (contents.tokensOf.itemsAt account).length := (h.tokensOf.length_itemsAt account).symm
    _ ≤ (numbersAfter 0 ceiling.toNat).length :=
      (List.subperm_of_subset (h.tokensOf.nodup account) hgiven).length_le
    _ = ceiling.toNat := by simp [numbersAfter]

end Sound

end Contents

/-! ## Reachable markets -/

namespace Market

variable {σ : Type} [Currency σ] {market : Market σ}

/-- The markets that can come about: one that has just opened, with counters that are not negative, one after
a call, and one to whose funds the host has done something. -/
inductive Reachable : Market σ → Prop
  | opened (limits : Limits) (ceiling : Int) {lastEdition lastToken : Int} (hedition : 0 ≤ lastEdition)
      (htoken : 0 ≤ lastToken) (funds : σ) (events : EventLog) (methods : Method → MethodSettings) :
      Reachable (.opened limits ceiling lastEdition lastToken funds events methods)
  | after {market : Market σ} (h : Reachable market) (call : Call) : Reachable (market.after call)
  | funded {market : Market σ} (h : Reachable market) (funds : σ) :
      Reachable { market with funds := funds }

namespace Reachable

theorem run (h : market.Reachable) (calls : List Call) : (market.run calls).Reachable := by
  induction calls generalizing market with
  | nil => exact h
  | cons call rest ih => exact ih (h.after call)

/-- Between calls no transaction is open, and the contents are sound. -/
theorem idle_and_sound (h : market.Reachable) :
    market.store.journal = none ∧
      market.store.contents.Sound market.store.limits market.store.ceiling := by
  induction h with
  | opened limits ceiling _ htoken => exact ⟨rfl, .empty limits ceiling htoken⟩
  | @after market _ call ih =>
    obtain ⟨hn, hsound⟩ := ih
    rcases market.after_cases call hn with ⟨_, _, _, hdoes, -, -, ha, -⟩ | ⟨-, ha⟩
    · rw [ha]
      exact ⟨rfl, hsound.does hdoes⟩
    · rw [ha]
      exact ⟨hn, hsound⟩
  | funded _ _ ih => exact ih

theorem idle (h : market.Reachable) : market.store.journal = none := h.idle_and_sound.1

theorem sound (h : market.Reachable) :
    market.store.contents.Sound market.store.limits market.store.ceiling := h.idle_and_sound.2

end Reachable

end Market

end EditionMarket
