import EditionMarket.Proofs.Market.Refused
import EditionMarket.Proofs.Table

/-!
# Every call is answered

A breach means that a store does not look as it should. This file goes through all actions and finds one
breach that a store can lead to by its contents, which is that a token is to be burned whose edition is not
there. In every other case an action is completed or refused, so that the call of it is answered.

Main statements: `refusesAt_perform`, and `answer_eq_ok`, where every token has its edition every call is
answered: as done by `answer_eq_done_iff`, if a rule allows it and it is paid, and else as refused by
`answer_of_not_does`.
-/

namespace EditionMarket

variable {limits : Limits} {ceiling : Int} {contents : Contents}

/-! ## Creators -/

namespace Registry

theorem refusesAt_register (id : Value) (owner : AccountId) :
    RefusesAt (register id owner) (.idle limits ceiling contents) := by
  apply StoreM.refusesAt_ofExcept_bind
  intro id _
  apply (RefusesAt.of_ok (get?_eq id)).bind
  intro found _ h
  cases h
  refine RefusesAt.ite (fun _ => ?_) fun _ => ?_
  · exact StoreM.refusesAt_refuse_bind _ _ _
  -- Once the creator has a place on the roster, it is written.
  · apply (Family.creatorsOf.refusesAt_push owner id _).bind
    intro _ _ h
    obtain ⟨-, rfl⟩ := Family.isField_creatorsOf.push_eq_ok_iff.1 h
    exact .of_ok rfl

/-- The owner can always let go of a creator, so only a caller who is not the owner is refused. -/
theorem refusesAt_release (id : CreatorId) (owner : AccountId) :
    RefusesAt (release id owner) (.idle limits ceiling contents) := by
  apply RefusesAt.of_fails
  intro hfails
  apply (refusesAt_ensureOwner owner id).bind
  intro _ _ h
  -- A caller who passes the check owns the creator, and then the release goes through.
  obtain ⟨ho, ⟨creator, hc, rfl⟩, -⟩ := ensureOwner_eq_ok_iff.1 h
  exact absurd (release_eq hc ho) (hfails _ _)

end Registry

/-! ## Editions -/

namespace Issuance

theorem refusesAt_mint (creator : CreatorId) (price : Int) (metadata : Metadata) :
    RefusesAt (mint creator price metadata) (.idle limits ceiling contents) := by
  apply RefusesAt.of_fails
  intro hfails
  refine RefusesAt.ite (fun _ => ?_) fun hsupply => ?_
  · exact StoreM.refusesAt_refuse_bind _ _ _
  apply Numbering.refusesAt_nextEdition.bind
  intro id _ h
  obtain ⟨⟨hcount, rfl⟩, rfl⟩ := Numbering.nextEdition_eq_ok_iff.1 h
  apply (Family.editionsOf.refusesAt_push creator _ _).bind
  intro _ _ h
  obtain ⟨hroom, rfl⟩ := Family.isField_editionsOf.push_eq_ok_iff.1 h
  -- The supply, the number and the room are all that a mint depends on.
  exact absurd (mint_eq_ok_iff.2 ⟨hsupply, hcount, hroom, rfl, rfl⟩) (hfails _ _)

theorem refusesAt_setPrice (id : ItemId) (price : Int) :
    RefusesAt (setPrice id price) (.idle limits ceiling contents) :=
  (refusesAt_require id).bind fun _ _ _ => .of_ok rfl

end Issuance

/-! ## Tokens -/

namespace Holdings

theorem refusesAt_require (id : ItemId) :
    RefusesAt (require id) (.idle limits ceiling contents) := by
  apply (RefusesAt.of_ok (get?_eq id)).bind
  intro found _ _
  cases found with
  | some token => exact .of_ok rfl
  | none => exact .of_refused rfl

theorem refusesAt_ensureOwner (account : AccountId) (id : ItemId) (store : Store) :
    RefusesAt (ensureOwner account id) store := by
  have howner : ∃ owner middle, ownerOf id store = .ok owner middle := ⟨_, _, rfl⟩
  obtain ⟨owner, middle, howner⟩ := howner
  apply (RefusesAt.of_ok howner).bind
  intro _ _ _
  exact RefusesAt.ite (fun _ => StoreM.refusesAt_refuse _ _) fun _ => .of_ok rfl

theorem refusesAt_transfer (id : ItemId) (owner receiver : AccountId) :
    RefusesAt (transfer id owner receiver) (.idle limits ceiling contents) := by
  apply RefusesAt.of_fails
  intro hfails
  apply (refusesAt_require id).bind
  intro token _ h
  obtain ⟨htoken, rfl⟩ := require_eq_ok_iff.1 h
  apply (Family.tokensOf.refusesAt_push receiver id _).bind
  intro _ _ h
  obtain ⟨hroom, rfl⟩ := Family.isField_tokensOf.push_eq_ok_iff.1 h
  exact absurd (transfer_eq_ok_iff.2 ⟨token, htoken, hroom, rfl⟩) (hfails () _)

theorem refusesAt_setPrice (id : ItemId) (price : Option Int) :
    RefusesAt (setPrice id price) (.idle limits ceiling contents) :=
  (refusesAt_require id).bind fun _ _ _ => .of_ok rfl

/-- A token that has its edition can be burned. -/
theorem refusesAt_burn {id : ItemId}
    (h : ∀ token, contents.tokens[id]? = some token →
      ∃ edition, contents.editions[token.edition]? = some edition) :
    RefusesAt (burn id) (.idle limits ceiling contents) := by
  apply RefusesAt.of_fails
  intro hfails
  apply (refusesAt_require id).bind
  intro token _ hr
  obtain ⟨htoken, rfl⟩ := require_eq_ok_iff.1 hr
  obtain ⟨edition, hedition⟩ := h token htoken
  exact absurd (burn_eq_ok_iff.2 ⟨token, htoken, edition, hedition, rfl⟩) (hfails () _)

end Holdings

/-! ## Actions -/

namespace Market

variable {caller : AccountId}

theorem refusesAt_ensureListed (token : ItemId) :
    RefusesAt (ensureListed caller token) (.idle limits ceiling contents) := by
  apply (Holdings.refusesAt_require token).bind
  intro record _ _
  apply (Holdings.refusesAt_ensureOwner caller token _).bind
  intro _ _ _
  exact RefusesAt.ite (fun _ => StoreM.refusesAt_refuse _ _) fun _ => .of_ok rfl

theorem refusesAt_createAccount (creator : Value) :
    RefusesAt (createAccount caller creator) (.idle limits ceiling contents) :=
  (Registry.refusesAt_register creator caller).bind fun _ _ _ => .of_ok rfl

theorem refusesAt_dropAccount (creator : Value) :
    RefusesAt (dropAccount caller creator) (.idle limits ceiling contents) := by
  apply StoreM.refusesAt_ofExcept_bind
  intro id _
  exact (Registry.refusesAt_release id caller).bind fun _ _ _ => .of_ok rfl

theorem refusesAt_mint (creator price : Value) (description : Description) :
    RefusesAt (mint caller creator price description) (.idle limits ceiling contents) := by
  apply StoreM.refusesAt_ofExcept_bind
  intro creator _
  apply StoreM.refusesAt_ofExcept_bind
  intro price _
  apply StoreM.refusesAt_ofExcept_bind
  intro metadata _
  apply (Registry.refusesAt_ensureOwner caller creator).bind
  intro _ _ h
  obtain ⟨-, -, rfl⟩ := Registry.ensureOwner_eq_ok_iff.1 h
  exact (Issuance.refusesAt_mint creator price metadata).bind fun _ _ _ => .of_ok rfl

theorem refusesAt_transfer (token : Value) :
    RefusesAt (transfer caller token) (.idle limits ceiling contents) := by
  apply StoreM.refusesAt_ofExcept_bind
  intro token _
  rw [Program.discard_eq_bind]
  apply ((Holdings.refusesAt_require token).bind fun _ _ _ => .of_ok rfl).bind
  intro _ _ h
  obtain ⟨record, _, hrequire, hmiddle⟩ := Program.bind_eq_ok_iff.1 h
  obtain ⟨hrecord, rfl⟩ := Holdings.require_eq_ok_iff.1 hrequire
  obtain ⟨-, rfl⟩ := Program.pure_eq_ok_iff.1 hmiddle
  apply (Holdings.refusesAt_ensureOwner caller token _).bind
  intro _ _ h
  obtain ⟨-, rfl⟩ := (Holdings.ensureOwner_eq_ok_iff hrecord).1 h
  exact (Holdings.refusesAt_transfer token caller caller).bind fun _ _ _ => .of_ok rfl

theorem refusesAt_list (token price : Value) :
    RefusesAt (list caller token price) (.idle limits ceiling contents) := by
  apply StoreM.refusesAt_ofExcept_bind
  intro token _
  apply StoreM.refusesAt_ofExcept_bind
  intro price _
  apply (Holdings.refusesAt_require token).bind
  intro record _ h
  obtain ⟨hrecord, rfl⟩ := Holdings.require_eq_ok_iff.1 h
  apply (Holdings.refusesAt_ensureOwner caller token _).bind
  intro _ _ h
  obtain ⟨-, rfl⟩ := (Holdings.ensureOwner_eq_ok_iff hrecord).1 h
  cases record.price with
  | some listed => exact StoreM.refusesAt_refuse _ _
  | none => exact (Holdings.refusesAt_setPrice token _).bind fun _ _ _ => .of_ok rfl

theorem refusesAt_unlist (token : Value) :
    RefusesAt (unlist caller token) (.idle limits ceiling contents) := by
  apply StoreM.refusesAt_ofExcept_bind
  intro token _
  apply (refusesAt_ensureListed token).bind
  intro _ _ h
  obtain ⟨-, rfl⟩ := ensureListed_eq_ok_iff.1 h
  exact (Holdings.refusesAt_setPrice token _).bind fun _ _ _ => .of_ok rfl

theorem refusesAt_setLaunchPrice (creator edition price : Value) :
    RefusesAt (setLaunchPrice caller creator edition price) (.idle limits ceiling contents) := by
  apply StoreM.refusesAt_ofExcept_bind
  intro creator _
  apply StoreM.refusesAt_ofExcept_bind
  intro edition _
  apply StoreM.refusesAt_ofExcept_bind
  intro price _
  apply (refusesAt_ensureMinter creator edition).bind
  intro _ _ h
  obtain ⟨-, -, -, rfl⟩ := ensureMinter_eq_ok_iff.1 h
  exact (Issuance.refusesAt_setPrice edition price).bind fun _ _ _ => .of_ok rfl

theorem refusesAt_setPrice (token price : Value) :
    RefusesAt (setPrice caller token price) (.idle limits ceiling contents) := by
  apply StoreM.refusesAt_ofExcept_bind
  intro token _
  apply StoreM.refusesAt_ofExcept_bind
  intro price _
  apply (refusesAt_ensureListed token).bind
  intro _ _ h
  obtain ⟨-, rfl⟩ := ensureListed_eq_ok_iff.1 h
  exact (Holdings.refusesAt_setPrice token _).bind fun _ _ _ => .of_ok rfl

theorem refusesAt_burn {token : Value}
    (h : ∀ id record, Argument.itemId "token_id" token = .ok id →
      contents.tokens[id]? = some record →
        ∃ edition, contents.editions[record.edition]? = some edition) :
    RefusesAt (burn caller token) (.idle limits ceiling contents) := by
  apply StoreM.refusesAt_ofExcept_bind
  intro id hid
  apply (Holdings.refusesAt_require id).bind
  intro record _ hr
  obtain ⟨hrecord, rfl⟩ := Holdings.require_eq_ok_iff.1 hr
  apply (Holdings.refusesAt_ensureOwner caller id _).bind
  intro _ _ hr
  obtain ⟨-, rfl⟩ := (Holdings.ensureOwner_eq_ok_iff hrecord).1 hr
  exact (Holdings.refusesAt_burn fun token => h id token hid).bind fun _ _ _ => .of_ok rfl

variable {σ : Type} [Currency σ]

theorem refusesAt_buy (token bid : Value) (funds : σ) (events : EventLog)
    (methods : Method → MethodSettings) :
    RefusesAt (buy caller token bid)
      (⟨.idle limits ceiling contents, funds, events, methods⟩ : Market σ) := by
  apply (refusesAt_liftM (StoreM.refusesAt_ofExcept _ _) _ _ _).bind
  intro id _ h
  obtain ⟨-, rfl⟩ := liftM_ofExcept_eq_ok_iff.1 h
  apply (refusesAt_liftM (StoreM.refusesAt_ofExcept _ _) _ _ _).bind
  intro bid _ h
  obtain ⟨-, rfl⟩ := liftM_ofExcept_eq_ok_iff.1 h
  apply (refusesAt_liftM (Holdings.refusesAt_require id) _ _ _).bind
  intro record _ h
  obtain ⟨_, hrequire, rfl⟩ := liftM_eq_ok_iff.1 h
  obtain ⟨hrecord, rfl⟩ := Holdings.require_eq_ok_iff.1 hrequire
  cases record.price with
  | none => exact refusesAt_liftM (StoreM.refusesAt_refuse _ _) _ _ _
  | some price =>
    refine RefusesAt.ite (fun _ => refusesAt_refuse_bind _ _ _) fun _ => ?_
    refine RefusesAt.ite (fun _ => refusesAt_refuse_bind _ _ _) fun _ => ?_
    apply (refusesAt_ensureCanPay caller bid _).bind
    intro _ _ h
    obtain ⟨-, rfl⟩ := ensureCanPay_eq_ok_iff.1 h
    apply (refusesAt_liftM (Holdings.refusesAt_transfer id _ caller) _ _ _).bind
    intro _ _ h
    obtain ⟨_, hmove, rfl⟩ := liftM_eq_ok_iff.1 h
    obtain ⟨_, -, -, rfl⟩ := Holdings.transfer_eq_ok_iff.1 hmove
    apply (refusesAt_liftM (Holdings.refusesAt_setPrice id none) _ _ _).bind
    intro _ _ _
    exact (refusesAt_pay _ _ _ _).bind fun _ _ _ => .of_ok rfl

/-- An action is completed or refused, unless it is to burn a token whose edition is not there. -/
theorem refusesAt_perform {action : Action} (funds : σ) (events : EventLog)
    (methods : Method → MethodSettings)
    (hburn : ∀ token id record, action = .burn token → Argument.itemId "token_id" token = .ok id →
      contents.tokens[id]? = some record →
        ∃ edition, contents.editions[record.edition]? = some edition) :
    RefusesAt (perform caller action)
      (⟨.idle limits ceiling contents, funds, events, methods⟩ : Market σ) := by
  cases action with
  | createAccount creator => exact refusesAt_liftM (refusesAt_createAccount creator) _ _ _
  | dropAccount creator => exact refusesAt_liftM (refusesAt_dropAccount creator) _ _ _
  | mint creator price description =>
    exact refusesAt_liftM (refusesAt_mint creator price description) _ _ _
  | launchGift creator edition receiver =>
    exact refusesAt_liftM (refusesAt_launchGift creator edition receiver) _ _ _
  | launchBuy edition bid => exact refusesAt_launchBuy edition bid funds events methods
  | buy token bid => exact refusesAt_buy token bid funds events methods
  | transfer token => exact refusesAt_liftM (refusesAt_transfer token) _ _ _
  | list token price => exact refusesAt_liftM (refusesAt_list token price) _ _ _
  | unlist token => exact refusesAt_liftM (refusesAt_unlist token) _ _ _
  | setLaunchPrice creator edition price =>
    exact refusesAt_liftM (refusesAt_setLaunchPrice creator edition price) _ _ _
  | setPrice token price => exact refusesAt_liftM (refusesAt_setPrice token price) _ _ _
  | burn token =>
    exact refusesAt_liftM (refusesAt_burn fun id record => hburn token id record rfl) _ _ _

/-- Where every token has its edition, every call is answered. -/
theorem answer_eq_ok {market : Market σ} (call : Call) (hn : market.store.journal = none)
    (htokens : market.store.contents.tokens.All fun _ token =>
      ∃ edition, market.store.contents.editions[token.edition]? = some edition) :
    ∃ answer, market.answer call = .ok answer := by
  obtain ⟨store, funds, events, methods⟩ := market
  have hstore : store = .idle store.limits store.ceiling store.contents := Store.eq_idle hn
  have hrefuses : RefusesAt (perform call.caller call.action)
      (⟨store, funds, events, methods⟩ : Market σ) := by
    rw [hstore]
    exact refusesAt_perform funds events methods fun _ id record _ _ => htokens id record
  rcases answer_of_refusesAt hn hrefuses with ⟨receipt, h⟩ | ⟨refusal, h⟩
  · exact ⟨_, h⟩
  · exact ⟨_, h⟩

/-- What no rule allows is refused. -/
theorem answer_of_not_does {market : Market σ} {call : Call} (hn : market.store.journal = none)
    (htokens : market.store.contents.tokens.All fun _ token =>
      ∃ edition, market.store.contents.editions[token.edition]? = some edition)
    (h : ∀ receipt next, ¬ market.store.contents.Does market.store.limits market.store.ceiling
      call.caller call.action receipt next) :
    ∃ refusal, market.answer call = .ok (.refused refusal) := by
  obtain ⟨answer, ha⟩ := answer_eq_ok call hn htokens
  cases answer with
  | refused refusal => exact ⟨refusal, ha⟩
  | done receipt =>
    exact absurd (does_of_receipt? hn (receipt?_eq_some_iff.2 ha)).1 (h _ _)

/-- What a rule allows, and what is paid for if it is a sale, is done and leaves its event. -/
theorem act_of_does {market : Market σ} (call : Call) {receipt : Receipt} {next : Contents} {paid : σ}
    (hn : market.store.journal = none)
    (hdoes : market.store.contents.Does market.store.limits market.store.ceiling call.caller
      call.action receipt next)
    (hsettles : Currency.Settles market.funds paid receipt.payment?) :
    act call.caller call.action market =
      .ok (.done receipt)
        ⟨.idle market.store.limits market.store.ceiling next, paid,
          market.events.log receipt.kind.text (eventFields call.caller receipt), market.methods⟩ := by
  obtain ⟨store, funds, events, methods⟩ := market
  have hp := perform_eq_ok_iff.2 ⟨next, paid, hdoes, hsettles,
    (rfl : (⟨.idle _ _ next, paid, events, methods⟩ : Market σ) = _)⟩
  rw [← Store.eq_idle hn] at hp
  rw [act_eq call.caller call.action hn, hp]
  rfl

/-- A call is done exactly if a rule allows it and its payment, if it is a sale, can be made. -/
theorem answer_eq_done_iff {market : Market σ} {call : Call} {receipt : Receipt}
    (hn : market.store.journal = none) :
    market.answer call = .ok (.done receipt) ↔
      ∃ contents paid,
        market.store.contents.Does market.store.limits market.store.ceiling call.caller call.action
            receipt contents ∧
          Currency.Settles market.funds paid receipt.payment? := by
  constructor
  · intro h
    obtain ⟨contents, paid, hdoes, hsettles, -⟩ := after_of_done hn h
    exact ⟨contents, paid, hdoes, hsettles⟩
  · rintro ⟨contents, paid, hdoes, hsettles⟩
    unfold answer
    rw [act_of_does call hn hdoes hsettles]

/-- What a rule allows without a payment is done. -/
theorem answer_of_does {market : Market σ} {call : Call} {receipt : Receipt} {next : Contents}
    (hn : market.store.journal = none)
    (hdoes : market.store.contents.Does market.store.limits market.store.ceiling call.caller
      call.action receipt next) (hfree : receipt.payment? = none) :
    market.answer call = .ok (.done receipt) := by
  refine (answer_eq_done_iff hn).2 ⟨next, market.funds, hdoes, ?_⟩
  rw [hfree]
  exact rfl

end Market

end EditionMarket
