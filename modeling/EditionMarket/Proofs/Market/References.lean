import EditionMarket.Proofs.Market.LockStep

/-!
# References lead somewhere

A token names the edition that it was issued from, and an edition the creator that has minted it. Creators
can be let go of, and their ids may then be registered anew. This file proves that nevertheless no record
ever names another one that is not there, because a creator is removed only if no edition names it.

The decision to remove a creator is made by looking at a roster and not at the editions themselves, so all
of this rests on rosters and records being in lock step.

Main statements: `Contents.Intact.does`, every rule preserves the references, and `references_intact`, what
that means for what a run leaves and for letting go of creators.
-/

namespace EditionMarket

/-! ## References -/

/-- What tokens of the edition have in common: the creator, the name, the type and the address. -/
def Edition.imprint (edition : Edition) : CreatorId × String × String × String :=
  (edition.creator, edition.name, edition.mimeType, edition.uri)

/-- What the token has from its edition. -/
def Token.imprint (token : Token) : CreatorId × String × String × String :=
  (token.creator, token.name, token.mimeType, token.uri)

/-- Every token names an edition with the same imprint, every edition names a creator, and a creator that
nobody owns is named by an edition. The editions of a creator are on its roster in the order in which they
were minted. -/
structure Contents.Intact (contents : Contents) : Prop where
  tokens : contents.tokens.All fun _ token =>
    ∃ edition, contents.editions[token.edition]? = some edition ∧ token.imprint = edition.imprint
  editions : contents.editions.All fun _ edition =>
    ∃ creator, contents.creators[edition.creator]? = some creator
  ownerless : contents.creators.All fun id creator => creator.owner = .nobody →
    ∃ (key : ItemId) (edition : Edition), contents.editions[key]? = some edition ∧ edition.creator = id
  ascending : ∀ creator, (contents.editionsOf.itemsAt creator).Pairwise (· < ·)

/-- Every edition that was there is there still, under the same id and with the same imprint. -/
def Table.Keeps (before after : Table ItemId Edition) : Prop :=
  ∀ (id : ItemId) (edition : Edition), before[id]? = some edition →
    ∃ later : Edition, after[id]? = some later ∧ later.imprint = edition.imprint

namespace Table.Keeps

variable {editions : Table ItemId Edition} {id : ItemId} {source next : Edition}

theorem put_of_none (h : editions[id]? = none) (next : Edition) :
    Table.Keeps editions (editions.put id next) := by
  intro other edition he
  have hne : id ≠ other := by
    rintro rfl
    cases h.symm.trans he
  exact ⟨edition, by rw [getElem?_put, if_neg hne, he], rfl⟩

theorem put_of_eq (h : editions[id]? = some source) (hsame : next.imprint = source.imprint) :
    Table.Keeps editions (editions.put id next) := by
  intro other edition he
  by_cases hid : id = other
  · subst hid
    cases h.symm.trans he
    exact ⟨next, by rw [getElem?_put, if_pos rfl], hsame⟩
  · exact ⟨edition, by rw [getElem?_put, if_neg hid, he], rfl⟩

end Table.Keeps

/-- Every edition names a creator that is there. -/
def Contents.Credited (contents : Contents) : Prop :=
  contents.editions.All fun _ edition => ∃ creator, contents.creators[edition.creator]? = some creator

namespace Contents.Credited

variable {limits : Limits} {contents : Contents}

theorem registered (h : contents.Credited) {id : CreatorId} {owner : AccountId} :
    (contents.registered limits id owner).Credited := by
  refine h.mono fun _ edition ⟨creator, hcreator⟩ => ?_
  show ∃ creator, (contents.creators.put id ⟨id, owner⟩)[edition.creator]? = some creator
  rw [Table.getElem?_put]
  split
  · exact ⟨_, rfl⟩
  · exact ⟨creator, hcreator⟩

/-- Only a creator without editions may be removed. -/
theorem released (h : contents.Credited) {id : CreatorId} {owner : AccountId} {rest : Option Creator}
    (hrest : rest = none → ∀ (key : ItemId) (edition : Edition), contents.editions[key]? = some edition →
      edition.creator ≠ id) :
    (contents.released id owner rest).Credited := by
  intro key edition he
  obtain ⟨creator, hcreator⟩ := h key edition he
  show ∃ creator, (contents.creators.set id rest)[edition.creator]? = some creator
  rw [Table.getElem?_set]
  by_cases hid : id = edition.creator
  -- An edition names the creator, so it is not removed.
  · cases rest with
    | none => exact absurd hid.symm (hrest rfl key edition he)
    | some left => exact ⟨left, if_pos hid⟩
  · exact ⟨creator, by rw [if_neg hid, hcreator]⟩

theorem minted (h : contents.Credited) {creator : CreatorId} {record : Creator} {price : Int}
    {metadata : Metadata} (hrecord : contents.creators[creator]? = some record) :
    (contents.minted limits creator price metadata).Credited :=
  h.put ⟨record, hrecord⟩

/-- An edition may be changed in whatever way, as long as its creator stays. -/
theorem put_edition (h : contents.Credited) {id : ItemId} {source next : Edition}
    (hsource : contents.editions[id]? = some source) (hsame : next.creator = source.creator) :
    Credited { contents with editions := contents.editions.put id next } := by
  obtain ⟨creator, hfound⟩ := h id source hsource
  exact h.put ⟨creator, hsame ▸ hfound⟩

end Contents.Credited

namespace Contents.Intact

variable {limits : Limits} {contents : Contents}

theorem empty (lastEdition lastToken : Int) :
    Intact { lastEdition := lastEdition, lastToken := lastToken } where
  tokens := .empty _
  editions := .empty _
  ownerless := .empty _
  ascending := by simp [Table.itemsAt]

/-- Tokens can count on editions that are kept. -/
theorem tokens_of_keeps (h : contents.Intact) {after : Table ItemId Edition}
    (hkeeps : contents.editions.Keeps after) :
    contents.tokens.All fun _ token =>
      ∃ edition, after[token.edition]? = some edition ∧ token.imprint = edition.imprint := by
  refine h.tokens.mono fun _ token ⟨edition, hedition, himprint⟩ => ?_
  obtain ⟨later, hlater, hsame⟩ := hkeeps _ _ hedition
  exact ⟨later, hlater, himprint.trans hsame.symm⟩

/-- So can creators that nobody owns. -/
theorem ownerless_of_keeps (h : contents.Intact) {after : Table ItemId Edition}
    (hkeeps : contents.editions.Keeps after) :
    contents.creators.All fun id creator => creator.owner = .nobody →
      ∃ (key : ItemId) (edition : Edition), after[key]? = some edition ∧ edition.creator = id := by
  refine h.ownerless.mono fun id creator hnamed howner => ?_
  obtain ⟨key, edition, hedition, hcreator⟩ := hnamed howner
  obtain ⟨later, hlater, hsame⟩ := hkeeps _ _ hedition
  have hsame : later.creator = edition.creator := congrArg Prod.fst hsame
  exact ⟨key, later, hlater, hsame.trans hcreator⟩

/-! ## Creators -/

theorem registered (h : contents.Intact) {id : CreatorId} {owner : AccountId}
    (howner : owner ≠ .nobody) : (contents.registered limits id owner).Intact where
  tokens := h.tokens
  editions := Credited.registered h.editions
  ownerless := h.ownerless.put fun contra => absurd contra howner
  ascending := h.ascending

/-- What becomes of a creator is decided by its roster, which is empty exactly if no edition names it. -/
theorem itemsAt_eq_nil_iff (h : contents.LockStep limits) {id : CreatorId} :
    contents.editionsOf.itemsAt id = [] ↔
      ∀ (key : ItemId) (edition : Edition), contents.editions[key]? = some edition →
        edition.creator ≠ id := by
  rw [List.eq_nil_iff_forall_not_mem]
  refine forall_congr' fun key => ?_
  rw [h.mem_editionsOf]
  push Not
  rfl

/-- So if nothing is left of a creator, no edition names it. -/
theorem unnamed_of_released (h : contents.LockStep limits) {id : CreatorId} {record : Creator}
    (hrest : (if contents.editionsOf.itemsAt id = [] then none else some record.disconnect) = none) :
    ∀ (key : ItemId) (edition : Edition), contents.editions[key]? = some edition → edition.creator ≠ id := by
  rw [ite_eq_left_iff] at hrest
  exact (itemsAt_eq_nil_iff h).1 (not_not.1 fun hne => nomatch hrest hne)

theorem released (h : contents.Intact) (hstep : contents.LockStep limits) {id : CreatorId}
    {owner : AccountId} {record : Creator} :
    (contents.released id owner
      (if contents.editionsOf.itemsAt id = [] then none else some record.disconnect)).Intact where
  tokens := h.tokens
  editions := Credited.released h.editions (unnamed_of_released hstep)
  ownerless := by
    split
    case isTrue => exact h.ownerless.drop
    case isFalse hne =>
      refine h.ownerless.put fun _ => ?_
      rw [itemsAt_eq_nil_iff hstep] at hne
      push Not at hne
      exact hne
  ascending := h.ascending

/-! ## Editions -/

theorem minted (h : contents.Intact) (hstep : contents.LockStep limits) {creator : CreatorId}
    {record : Creator} {price : Int} {metadata : Metadata}
    (hrecord : contents.creators[creator]? = some record)
    (hroom : contents.editionsOf.HasRoom limits.editionsPerCreator creator) :
    (contents.minted limits creator price metadata).Intact := by
  have hkeeps : contents.editions.Keeps
      (contents.minted limits creator price metadata).editions := .put_of_none hstep.next_edition _
  refine ⟨h.tokens_of_keeps hkeeps, Credited.minted h.editions hrecord, h.ownerless_of_keeps hkeeps, ?_⟩
  intro other
  show ((contents.editionsOf.enrolled _ _ _).itemsAt other).Pairwise (· < ·)
  rw [Table.itemsAt_enrolled hroom]
  split
  -- The new id is above all that were given out before.
  · refine List.pairwise_append.2 ⟨h.ascending _, List.pairwise_singleton _ _, ?_⟩
    intro key hkey next hnext
    rw [List.mem_singleton.1 hnext]
    obtain ⟨edition, hedition, -⟩ := hstep.mem_editionsOf.1 hkey
    exact Int.lt_add_one_of_le (hstep.editions key edition hedition).2
  · exact h.ascending other

/-- An edition may be changed in whatever way, as long as its imprint stays. -/
theorem put_edition (h : contents.Intact) {id : ItemId} {source next : Edition}
    (hsource : contents.editions[id]? = some source) (hsame : next.imprint = source.imprint) :
    Intact { contents with editions := contents.editions.put id next } := by
  have hkeeps : contents.editions.Keeps (contents.editions.put id next) := .put_of_eq hsource hsame
  have hcreator : next.creator = source.creator := congrArg Prod.fst hsame
  exact ⟨h.tokens_of_keeps hkeeps, Credited.put_edition h.editions hsource hcreator,
    h.ownerless_of_keeps hkeeps, h.ascending⟩

/-! ## Tokens -/

theorem issued (h : contents.Intact) (hstep : contents.LockStep limits) {id : ItemId}
    {source : Edition} {receiver : AccountId} (hsource : contents.editions[id]? = some source) :
    (contents.issued limits id source receiver).Intact := by
  have hcounted : Intact { contents with editions := contents.editions.put id source.issueOne } :=
    h.put_edition hsource rfl
  have hid : source.id = id := (hstep.editions id source hsource).1
  refine ⟨hcounted.tokens.put ⟨source.issueOne, ?_, rfl⟩, hcounted.editions, hcounted.ownerless,
    hcounted.ascending⟩
  show (contents.editions.put id source.issueOne)[source.id]? = some source.issueOne
  rw [hid, Table.getElem?_put, if_pos rfl]

/-- A token may be changed in whatever way, as long as it keeps its edition and its imprint. -/
theorem put_token (h : contents.Intact) {id : ItemId} {token next : Token}
    {rosters : Table AccountId (Roster ItemId)} (htoken : contents.tokens[id]? = some token)
    (hedition : next.edition = token.edition) (hsame : next.imprint = token.imprint) :
    Intact { contents with tokens := contents.tokens.put id next, tokensOf := rosters } := by
  obtain ⟨edition, hfound, himprint⟩ := h.tokens id token htoken
  exact ⟨h.tokens.put ⟨edition, hedition ▸ hfound, hsame.trans himprint⟩, h.editions, h.ownerless,
    h.ascending⟩

theorem moved (h : contents.Intact) {id : ItemId} {token : Token} {owner receiver : AccountId}
    (htoken : contents.tokens[id]? = some token) :
    (contents.moved limits id token owner receiver).Intact :=
  h.put_token htoken rfl rfl

theorem priced (h : contents.Intact) {id : ItemId} {token : Token} {price : Option Int}
    (htoken : contents.tokens[id]? = some token) : (contents.priced id token price).Intact :=
  h.put_token htoken rfl rfl

theorem burned (h : contents.Intact) {id : ItemId} {token : Token} {source : Edition}
    (hsource : contents.editions[token.edition]? = some source) :
    (contents.burned id token source).Intact := by
  have hcounted : Intact
      { contents with editions := contents.editions.put token.edition source.burnOne } :=
    h.put_edition hsource rfl
  exact ⟨hcounted.tokens.drop, hcounted.editions, hcounted.ownerless, hcounted.ascending⟩

/-! ## Calls -/

/-- Every rule preserves the references. -/
theorem does (h : contents.Intact) (hstep : contents.LockStep limits) {ceiling : Int}
    {caller : AccountId} {action : Action} {receipt : Receipt} {next : Contents}
    (hcaller : caller ≠ .nobody) (hdoes : contents.Does limits ceiling caller action receipt next) :
    next.Intact := by
  cases hdoes with
  | createAccount => exact h.registered hcaller
  | dropAccount => exact h.released hstep
  | mint _ _ _ _ hrecord _ _ _ hroom => exact h.minted hstep hrecord hroom
  | launchGift _ _ _ _ _ _ hsource => exact h.issued hstep hsource
  | launchBuy _ _ hsource => exact h.issued hstep hsource
  | buy _ _ hrecord => exact (h.moved hrecord).priced tokens_moved_self
  | transfer _ hrecord => exact h.moved hrecord
  | list _ _ hrecord => exact h.priced hrecord
  | unlist _ hrecord => exact h.priced hrecord
  | setLaunchPrice _ _ _ _ _ _ hsource => exact h.put_edition hsource rfl
  | setPrice _ _ hrecord => exact h.priced hrecord
  | burn _ _ _ hsource => exact h.burned hsource

end Contents.Intact

namespace Market

variable {σ : Type} [Currency σ]

/-- What a run leaves is intact, if nobody is not among the callers. -/
theorem intact_run (limits : Limits) (ceiling lastEdition lastToken : Int) (funds : σ)
    (events : EventLog) (methods : Method → MethodSettings) {calls : List Call}
    (hcallers : ∀ call ∈ calls, call.caller ≠ .nobody) :
    ((opened limits ceiling lastEdition lastToken funds events methods).run
      calls).store.contents.Intact := by
  have hn : (opened limits ceiling lastEdition lastToken funds events methods).store.journal =
      none := rfl
  -- The references need the lock step at every call, so the two go through the run together.
  refine (run_invariant (fun _ contents => Contents.LockStep limits contents ∧ contents.Intact) hn
    ⟨.empty limits lastEdition lastToken, .empty lastEdition lastToken⟩ ?_).2
  intro call hm _ contents receipt next ⟨hstep, hintact⟩ hdoes
  have hcaller := hcallers call hm
  exact ⟨hstep.does hcaller hdoes, hintact.does hstep hcaller hdoes⟩

/-- **References lead somewhere.** After any run of calls that accounts have made, whatever they were
answered: every token names an edition that is there and has the same imprint, every edition names a creator
that is there, and a creator that nobody owns has an edition; the roster of a creator names exactly the
editions that name the creator, in ascending order, and is not there if there are none.

The same goes for what is left by an account that then lets go of a creator: the creator is removed exactly
if no edition names it. -/
theorem references_intact (limits : Limits) (ceiling lastEdition lastToken : Int) (funds : σ)
    (events : EventLog) (methods : Method → MethodSettings) {calls : List Call}
    (hcallers : ∀ call ∈ calls, call.caller ≠ .nobody) :
    let market := (opened limits ceiling lastEdition lastToken funds events methods).run calls
    let contents := market.store.contents
    contents.Intact ∧
      (∀ creator edition, edition ∈ contents.editionsOf.itemsAt creator ↔
        ∃ record, contents.editions[edition]? = some record ∧ record.creator = creator) ∧
      (∀ (creator : CreatorId) (roster : Roster ItemId), contents.editionsOf[creator]? = some roster →
        roster.items ≠ []) ∧
      ∀ caller creator id removed, caller ≠ .nobody →
        market.receipt? ⟨caller, .dropAccount creator⟩ = some (.creatorDropped id removed) →
          let next := (market.after ⟨caller, .dropAccount creator⟩).store.contents
          (removed = true ↔ ∀ (edition : ItemId) (record : Edition),
            contents.editions[edition]? = some record → record.creator ≠ id) ∧
          (next.creators[id]? = none ↔ removed = true) ∧ next.Intact := by
  intro market contents
  have hstep : contents.LockStep limits :=
    lockStep_run limits ceiling lastEdition lastToken funds events methods hcallers
  have hintact : contents.Intact :=
    intact_run limits ceiling lastEdition lastToken funds events methods hcallers
  refine ⟨hintact, fun _ _ => hstep.mem_editionsOf, fun _ _ => hstep.editionsOf.items_ne_nil _ _, ?_⟩
  intro caller creator id removed hcaller hr
  have hn : market.store.journal = none := journal_run calls rfl
  have hlimits : market.store.limits = limits := limits_run calls rfl
  obtain ⟨hdoes, -⟩ := does_of_receipt? hn hr
  rw [hlimits] at hdoes
  have hnext := hintact.does hstep hcaller hdoes
  generalize (market.after ⟨caller, .dropAccount creator⟩).store.contents = next at *
  cases hdoes with
  | dropAccount =>
    refine ⟨?_, ?_, hnext⟩
    · rw [decide_eq_true_iff]
      exact Contents.Intact.itemsAt_eq_nil_iff hstep
    -- What is left of the creator is nothing exactly if its roster is empty.
    · show (contents.creators.set id _)[id]? = none ↔ _
      rw [Table.getElem?_set, if_pos rfl, decide_eq_true_iff]
      split <;> simp_all

/-- After the tour but for its last call, the account lets go of a creator that has an edition. -/
theorem references_intact_tour :
    (∀ call ∈ tour.take 6, call.caller ≠ .nobody) ∧
      let market := (opened default 10 0 0 ({} : Bank) { time := "" } Method.settings).run (tour.take 6)
      let call : Call := ⟨.name "ann", .dropAccount (.string "studio")⟩
      call.caller ≠ .nobody ∧ market.receipt? call = some (.creatorDropped "studio" false) ∧
        market.store.contents.Intact ∧ (market.after call).store.contents.Intact ∧
          (market.after call).store.contents.creators["studio"]? ≠ none := by
  have hcallers : ∀ call ∈ tour.take 6, call.caller ≠ .nobody := by decide
  have hcaller : AccountId.name "ann" ≠ .nobody := by decide
  obtain ⟨hintact, -, -, hdrop⟩ :=
    references_intact default 10 0 0 ({} : Bank) { time := "" } Method.settings hcallers
  have hr : ((opened default 10 0 0 ({} : Bank) { time := "" } Method.settings).run
      (tour.take 6)).receipt? ⟨.name "ann", .dropAccount (.string "studio")⟩ =
        some (.creatorDropped "studio" false) := by
    decide +kernel
  obtain ⟨-, hremoved, hnext⟩ := hdrop _ _ _ _ hcaller hr
  exact ⟨hcallers, hcaller, hr, hintact, hnext, fun h => by cases hremoved.1 h⟩

end Market

end EditionMarket
