import EditionMarket.Holdings
import EditionMarket.Issuance
import EditionMarket.Proofs.Store.Outcome

/-!
# What the work on records does

Where no transaction is open, a program on creators, editions or tokens succeeds exactly if its conditions
hold, and then it has one of a few effects on the contents of the store. The effects are given first, as
functions on contents, and the programs after them.

Main statements: `Registry.register_eq_ok_iff`, `Registry.release_eq_ok_iff`, `Issuance.mint_eq_ok_iff`,
`Issuance.issue_eq_ok_iff`, `Holdings.transfer_eq_ok_iff` and `Holdings.burn_eq_ok_iff`.
-/

namespace EditionMarket

/-! ## Effects -/

namespace Contents

variable (contents : Contents) (limits : Limits)

/-- A creator has been registered to an account. -/
def registered (id : CreatorId) (owner : AccountId) : Contents :=
  { contents with
    creators := contents.creators.put id ⟨id, owner⟩
    creatorsOf := contents.creatorsOf.enrolled limits.creatorsPerAccount owner id }

/-- An account has let go of a creator, of which the record `rest` is left, if any. -/
def released (id : CreatorId) (owner : AccountId) (rest : Option Creator) : Contents :=
  { contents with
    creators := contents.creators.set id rest
    creatorsOf := contents.creatorsOf.struck owner id }

/-- The next edition has been minted. -/
def minted (creator : CreatorId) (price : Int) (metadata : Metadata) : Contents :=
  let id := contents.lastEdition + 1
  { contents with
    editions := contents.editions.put id (Edition.mint id creator price metadata)
    editionsOf := contents.editionsOf.enrolled limits.editionsPerCreator creator id
    lastEdition := id }

/-- The next token has been issued from an edition. -/
def issued (edition : ItemId) (source : Edition) (receiver : AccountId) : Contents :=
  let id := contents.lastToken + 1
  { contents with
    editions := contents.editions.put edition source.issueOne
    tokens := contents.tokens.put id (Token.issue receiver id source)
    tokensOf := contents.tokensOf.enrolled limits.tokensPerAccount receiver id
    lastToken := id }

/-- A token has gone from one account to another. -/
def moved (id : ItemId) (token : Token) (owner receiver : AccountId) : Contents :=
  { contents with
    tokens := contents.tokens.put id { token with owner := receiver }
    tokensOf :=
      (contents.tokensOf.enrolled limits.tokensPerAccount receiver id).struck owner id }

/-- A token has another price, or none. -/
def priced (id : ItemId) (token : Token) (price : Option Int) : Contents :=
  { contents with tokens := contents.tokens.put id { token with price := price } }

/-- An edition has another price. -/
def launchPriced (id : ItemId) (edition : Edition) (price : Int) : Contents :=
  { contents with editions := contents.editions.put id { edition with price := price } }

/-- A token has been destroyed. -/
def burned (id : ItemId) (token : Token) (edition : Edition) : Contents :=
  { contents with
    editions := contents.editions.put token.edition edition.burnOne
    tokens := contents.tokens.drop id
    tokensOf := contents.tokensOf.struck token.owner id }

theorem tokens_moved_self {contents : Contents} {limits : Limits} {id : ItemId} {token : Token}
    {owner receiver : AccountId} :
    (contents.moved limits id token owner receiver).tokens[id]? =
      some { token with owner := receiver } := by
  unfold moved
  rw [Table.getElem?_put, if_pos rfl]

end Contents

variable {limits : Limits} {ceiling : Int} {contents : Contents} {final : Store} {u : Unit}

namespace StoreM

theorem refuse_ne_ok {α : Type} {refusal : Refusal} {store : Store} (value : α) (final : Store) :
    ¬ refuse refusal store = .ok value final := by
  intro h
  cases h

/-- A check that stands at the end of a program. -/
theorem refuse_or_pure_eq_ok_iff {c : Prop} [Decidable c] {refusal : Refusal} {store : Store} :
    (if c then refuse refusal else pure () : StoreM Unit) store = .ok u final ↔
      ¬ c ∧ final = store := by
  by_cases h : c
  · rw [if_pos h]
    exact iff_of_false (refuse_ne_ok u final) fun hc => hc.1 h
  · rw [if_neg h, Program.pure_eq_ok_iff]
    simp [h]

end StoreM

/-! ## Creators -/

namespace Registry

theorem get?_eq (id : CreatorId) :
    get? id (.idle limits ceiling contents) =
      .ok contents.creators[id]? (.idle limits ceiling contents) := rfl

theorem ownerOf_eq (id : CreatorId) :
    ownerOf id (.idle limits ceiling contents) =
      .ok (((contents.creators[id]?).map Creator.owner).getD .nobody)
        (.idle limits ceiling contents) := rfl

/-- A creator is owned by an account if there is a record that says so. -/
theorem ensureOwner_eq_ok_iff {account : AccountId} {id : CreatorId} :
    ensureOwner account id (.idle limits ceiling contents) = .ok u final ↔
      account ≠ .nobody ∧
        (∃ creator, contents.creators[id]? = some creator ∧ creator.owner = account) ∧
          final = .idle limits ceiling contents := by
  unfold ensureOwner
  dsimp only
  rw [Program.stop_or_go_eq_ok_iff StoreM.refuse_ne_ok, Program.bind_of_ok (ownerOf_eq id),
    StoreM.refuse_or_pure_eq_ok_iff, not_not]
  refine and_congr_right fun ha => and_congr_left' ?_
  cases contents.creators[id]? with
  | none => simp [Ne.symm ha]
  | some creator => simp

/-- A creator is registered if nobody has its id and there is room among the owner's creators. -/
theorem register_eq_ok_iff {id : Value} {owner : AccountId} {creator : Creator} :
    register id owner (.idle limits ceiling contents) = .ok creator final ↔
      ∃ key, Argument.creatorId id = .ok key ∧ contents.creators[key]? = none ∧
        contents.creatorsOf.HasRoom limits.creatorsPerAccount owner ∧
          creator = ⟨key, owner⟩ ∧
            final = .idle limits ceiling (contents.registered limits key owner) := by
  unfold register
  simp only [Program.bind_eq_ok_iff, StoreM.ofExcept_eq_ok_iff, get?_eq,
    Program.stop_or_go_eq_ok_iff StoreM.refuse_ne_ok, Family.isField_creatorsOf.push_eq_ok_iff,
    StoreM.assign_eq, Program.pure_eq_ok_iff, EStateM.Result.ok.injEq, and_assoc, exists_and_left,
    exists_eq_left, exists_eq_left', exists_const, true_and, Option.not_isSome_iff_eq_none]
  rfl

/-- The owner can let go of a creator at any time. -/
theorem release_eq {id : CreatorId} {creator : Creator} (hc : contents.creators[id]? = some creator)
    (ho : creator.owner ≠ .nobody) :
    release id creator.owner (.idle limits ceiling contents) =
      .ok (decide (contents.editionsOf.itemsAt id = []))
        (.idle limits ceiling (contents.released id creator.owner
          (if contents.editionsOf.itemsAt id = [] then none else some creator.disconnect))) := by
  have hsize : ((Family.editionsOf.find contents id).map Roster.size).getD 0 = 0 ↔
      contents.editionsOf.itemsAt id = [] := by
    show ((contents.editionsOf[id]?).map Roster.size).getD 0 = 0 ↔
      ((contents.editionsOf[id]?).map Roster.items).getD [] = []
    cases contents.editionsOf[id]? with
    | none => simp
    | some roster => exact List.length_eq_zero_iff
  have howner : ensureOwner creator.owner id (.idle limits ceiling contents) =
      .ok () (.idle limits ceiling contents) :=
    ensureOwner_eq_ok_iff.2 ⟨ho, ⟨creator, hc, rfl⟩, rfl⟩
  unfold release
  rw [Program.bind_of_ok howner, Program.bind_of_ok (Family.size_eq _ id)]
  dsimp only
  simp only [hsize]
  by_cases hu : contents.editionsOf.itemsAt id = []
  -- Without editions the creator is removed.
  · rw [if_pos hu, if_pos hu, Program.bind_of_ok (StoreM.assign_eq (.creator id) none),
      Program.bind_of_ok (Family.isField_creatorsOf.discard_remove_eq creator.owner id)]
    rfl
  -- With editions it is disconnected. It has just been found, so the update finds it as well.
  · have hupdate : update id Creator.disconnect (.idle limits ceiling contents) =
        .ok true (.idle limits ceiling
          (contents.write (.creator id) (some creator.disconnect))) := by
      unfold update
      rw [Program.bind_of_ok (get?_eq id), hc]
      rfl
    rw [if_neg hu, if_neg hu, Program.bind_of_ok hupdate]
    show (discard (Family.creatorsOf.remove creator.owner id) >>= _)
      (.idle limits ceiling (contents.write (.creator id) (some creator.disconnect))) = _
    rw [Program.bind_of_ok (Family.isField_creatorsOf.discard_remove_eq creator.owner id)]
    rfl

/-- A creator is let go of if the account owns it. -/
theorem release_eq_ok_iff {id : CreatorId} {owner : AccountId} {removed : Bool} :
    release id owner (.idle limits ceiling contents) = .ok removed final ↔
      owner ≠ .nobody ∧
        ∃ creator, contents.creators[id]? = some creator ∧ creator.owner = owner ∧
          removed = decide (contents.editionsOf.itemsAt id = []) ∧
            final = .idle limits ceiling (contents.released id owner
              (if contents.editionsOf.itemsAt id = [] then none else some creator.disconnect)) := by
  constructor
  · intro h
    obtain ⟨_, _, howner, -⟩ := Program.bind_eq_ok_iff.1 h
    obtain ⟨ho, ⟨creator, hc, rfl⟩, -⟩ := ensureOwner_eq_ok_iff.1 howner
    rw [release_eq hc ho] at h
    cases h
    exact ⟨ho, creator, hc, rfl, rfl, rfl⟩
  · rintro ⟨ho, creator, hc, rfl, rfl, rfl⟩
    exact release_eq hc ho

end Registry

/-! ## Editions -/

namespace Issuance

theorem get?_eq (id : ItemId) :
    get? id (.idle limits ceiling contents) =
      .ok contents.editions[id]? (.idle limits ceiling contents) := rfl

theorem require_eq_ok_iff {id : ItemId} {edition : Edition} :
    require id (.idle limits ceiling contents) = .ok edition final ↔
      contents.editions[id]? = some edition ∧ final = .idle limits ceiling contents := by
  unfold require
  rw [Program.bind_of_ok (get?_eq id)]
  cases contents.editions[id]? with
  | none => exact iff_of_false (StoreM.refuse_ne_ok edition final) fun h => nomatch h.1
  | some found =>
    rw [Option.some.injEq, eq_comm (a := found)]
    exact Program.pure_eq_ok_iff

/-- An edition is minted if its supply is not zero, the counter is below its ceiling, and there is room
among the creator's editions. -/
theorem mint_eq_ok_iff {creator : CreatorId} {price : Int} {metadata : Metadata} {id : ItemId} :
    mint creator price metadata (.idle limits ceiling contents) = .ok id final ↔
      metadata.supply ≠ 0 ∧ contents.lastEdition < ceiling ∧
        contents.editionsOf.HasRoom limits.editionsPerCreator creator ∧
          id = contents.lastEdition + 1 ∧
            final = .idle limits ceiling (contents.minted limits creator price metadata) := by
  unfold mint
  simp only [Program.stop_or_go_eq_ok_iff StoreM.refuse_ne_ok, Program.bind_eq_ok_iff,
    Numbering.nextEdition_eq_ok_iff, Family.isField_editionsOf.push_eq_ok_iff, StoreM.assign_eq,
    Numbering.commitEdition_eq_ok_iff, Program.pure_eq_ok_iff, EStateM.Result.ok.injEq, and_assoc,
    exists_and_left, exists_eq_left, exists_eq_left', exists_const, true_and, Contents.write]
  exact Iff.rfl

/-- A token is issued if the edition is there and not sold out, the counter is below its ceiling, and
there is room among the receiver's tokens. -/
theorem issue_eq_ok_iff {edition : ItemId} {receiver : AccountId} {id : ItemId} :
    issue edition receiver (.idle limits ceiling contents) = .ok id final ↔
      ∃ source, contents.editions[edition]? = some source ∧ source.isSoldOut = false ∧
        contents.lastToken < ceiling ∧
          contents.tokensOf.HasRoom limits.tokensPerAccount receiver ∧
            id = contents.lastToken + 1 ∧
              final = .idle limits ceiling (contents.issued limits edition source receiver) := by
  unfold issue
  simp only [Program.bind_eq_ok_iff, require_eq_ok_iff,
    Program.stop_or_go_eq_ok_iff StoreM.refuse_ne_ok, Numbering.nextToken_eq_ok_iff,
    Family.isField_tokensOf.push_eq_ok_iff, StoreM.assign_eq, StoreM.write_eq_ok_iff,
    Numbering.commitToken_eq_ok_iff, Program.pure_eq_ok_iff, EStateM.Result.ok.injEq, and_assoc,
    exists_and_left, exists_eq_left, exists_eq_left', exists_const, true_and, Bool.not_eq_true,
    Contents.write]
  exact Iff.rfl

theorem setPrice_eq_ok_iff {id : ItemId} {price : Int} :
    setPrice id price (.idle limits ceiling contents) = .ok u final ↔
      ∃ edition, contents.editions[id]? = some edition ∧
        final = .idle limits ceiling (contents.launchPriced id edition price) := by
  unfold setPrice
  simp only [Program.bind_eq_ok_iff, require_eq_ok_iff, StoreM.write_eq_ok_iff, and_assoc,
    exists_and_left, exists_eq_left]
  exact Iff.rfl

/-- The owner of an edition's creator can be asked for whenever the edition is there. -/
theorem ownerOf_eq {id : ItemId} {edition : Edition} (h : contents.editions[id]? = some edition) :
    ownerOf id (.idle limits ceiling contents) =
      .ok (((contents.creators[edition.creator]?).map Creator.owner).getD .nobody)
        (.idle limits ceiling contents) := by
  unfold ownerOf
  rw [Program.bind_of_ok (get?_eq id), h]
  rfl

theorem ensureCreator_eq_ok_iff {creator : CreatorId} {id : ItemId} :
    ensureCreator creator id (.idle limits ceiling contents) = .ok u final ↔
      (∃ edition, contents.editions[id]? = some edition ∧ edition.creator = creator) ∧
        final = .idle limits ceiling contents := by
  unfold ensureCreator
  rw [Program.bind_of_ok (get?_eq id)]
  cases contents.editions[id]? with
  | none => exact iff_of_false (StoreM.refuse_ne_ok u final) fun h => nomatch h.1
  | some edition =>
    dsimp only
    rw [StoreM.refuse_or_pure_eq_ok_iff, not_not]
    simp

end Issuance

/-! ## Tokens -/

namespace Holdings

theorem get?_eq (id : ItemId) :
    get? id (.idle limits ceiling contents) =
      .ok contents.tokens[id]? (.idle limits ceiling contents) := rfl

theorem require_eq_ok_iff {id : ItemId} {token : Token} :
    require id (.idle limits ceiling contents) = .ok token final ↔
      contents.tokens[id]? = some token ∧ final = .idle limits ceiling contents := by
  unfold require
  rw [Program.bind_of_ok (get?_eq id)]
  cases contents.tokens[id]? with
  | none => exact iff_of_false (StoreM.refuse_ne_ok token final) fun h => nomatch h.1
  | some found =>
    rw [Option.some.injEq, eq_comm (a := found)]
    exact Program.pure_eq_ok_iff

/-- A token goes from one account to another if there is room among the receiver's tokens. -/
theorem transfer_eq_ok_iff {id : ItemId} {owner receiver : AccountId} :
    transfer id owner receiver (.idle limits ceiling contents) = .ok u final ↔
      ∃ token, contents.tokens[id]? = some token ∧
        contents.tokensOf.HasRoom limits.tokensPerAccount receiver ∧
          final = .idle limits ceiling (contents.moved limits id token owner receiver) := by
  unfold transfer
  simp only [Program.bind_eq_ok_iff, require_eq_ok_iff, Family.isField_tokensOf.push_eq_ok_iff,
    Family.isField_tokensOf.discard_remove_eq, StoreM.write_eq_ok_iff, and_assoc, exists_and_left,
    exists_eq_left, exists_eq_left', exists_const, EStateM.Result.ok.injEq, true_and]
  exact Iff.rfl

theorem setPrice_eq_ok_iff {id : ItemId} {price : Option Int} :
    setPrice id price (.idle limits ceiling contents) = .ok u final ↔
      ∃ token, contents.tokens[id]? = some token ∧
        final = .idle limits ceiling (contents.priced id token price) := by
  unfold setPrice
  simp only [Program.bind_eq_ok_iff, require_eq_ok_iff, StoreM.write_eq_ok_iff, and_assoc,
    exists_and_left, exists_eq_left]
  exact Iff.rfl

/-- A token is owned by an account if there is a record that says so, unless the account is nobody: of a
token that is not there, nobody is the owner. -/
theorem ensureOwner_eq_ok_iff {account : AccountId} {id : ItemId} {token : Token}
    (h : contents.tokens[id]? = some token) :
    ensureOwner account id (.idle limits ceiling contents) = .ok u final ↔
      token.owner = account ∧ final = .idle limits ceiling contents := by
  have howner : ownerOf id (.idle limits ceiling contents) =
      .ok token.owner (.idle limits ceiling contents) := by
    unfold ownerOf
    rw [Program.bind_of_ok (get?_eq id), h]
    rfl
  unfold ensureOwner
  rw [Program.bind_of_ok howner, StoreM.refuse_or_pure_eq_ok_iff, not_not]

/-- A token is destroyed if its edition is there. -/
theorem burn_eq_ok_iff {id : ItemId} :
    burn id (.idle limits ceiling contents) = .ok u final ↔
      ∃ token, contents.tokens[id]? = some token ∧
        ∃ edition, contents.editions[token.edition]? = some edition ∧
          final = .idle limits ceiling (contents.burned id token edition) := by
  unfold burn
  simp only [Program.bind_eq_ok_iff, require_eq_ok_iff, and_assoc, exists_and_left, exists_eq_left]
  refine exists_congr fun token => and_congr_right fun _ => ?_
  have hfetch : StoreM.fetch (.edition token.edition) (.idle limits ceiling contents) =
      .ok contents.editions[token.edition]? (.idle limits ceiling contents) := rfl
  simp only [hfetch, EStateM.Result.ok.injEq, and_assoc, exists_and_left, exists_eq_left']
  cases contents.editions[token.edition]? with
  | none => exact iff_of_false Program.throw_ne_ok fun h => nomatch h
  | some edition =>
    simp only [Program.bind_eq_ok_iff, Family.isField_tokensOf.discard_remove_eq, StoreM.assign_eq,
      StoreM.write_eq_ok_iff, EStateM.Result.ok.injEq, exists_eq_left', exists_const, true_and,
      Option.some.injEq]
    exact Iff.rfl

end Holdings

end EditionMarket
