import EditionMarket.Proofs.Market.Answered
import EditionMarket.Proofs.Market.Enclosed

/-!
# Nothing has to be undone

Transactions undo what a refused action has done. With a bank there is nothing to be undone: whatever the
store looks like, every refusal comes before the first change, and the one refusal that could come after it,
that of a payment, does not come, because the bank has been asked before. So a market that keeps no journal
gives the same answers and goes through the same states.

Main statements: `unchanged_perform`, a refused action has changed nothing; `exchange_bare`, a series of calls
without a journal; and `undoing_is_never_needed`.
-/

namespace EditionMarket

/-! ## Tokens -/

namespace Holdings

/-- After a token has been moved it is there. -/
theorem token_of_transfer {id : ItemId} {owner receiver : AccountId} {store final : Store} {u : Unit}
    (h : transfer id owner receiver store = .ok u final) :
    ∃ token, final.contents.tokens[id]? = some token := by
  obtain ⟨token, _, -, h⟩ := Program.bind_eq_ok_iff.1 h
  obtain ⟨_, _, -, h⟩ := Program.bind_eq_ok_iff.1 h
  obtain ⟨_, middle, -, h⟩ := Program.bind_eq_ok_iff.1 h
  -- The last step is to write it.
  cases h
  exact ⟨_, Contents.read_write_self middle.contents (.token id) _⟩

/-- A token that is there can be given another price. -/
theorem setPrice_of_eq_some {id : ItemId} {store : Store} {token : Token}
    (h : store.contents.tokens[id]? = some token) (price : Option Int) :
    ∃ final, setPrice id price store = .ok () final := by
  have hget : get? id store = .ok (some token) (store.touch (.token id)) := by
    rw [← h]
    rfl
  have hrequire : require id store = .ok token (store.touch (.token id)) := by
    unfold require
    rw [Program.bind_of_ok hget]
    rfl
  unfold setPrice
  rw [Program.bind_of_ok hrequire]
  exact ⟨_, rfl⟩

/-- However it comes that a token is not burned, nothing has been done. -/
theorem contents_of_burn_error {id : ItemId} {limits : Limits} {ceiling : Int} {contents : Contents}
    {final : Store} {fault : Fault}
    (h : burn id (.idle limits ceiling contents) = .error fault final) :
    final.contents = contents := by
  have hburn := h
  rcases Program.bind_eq_error_iff.1 h with h | ⟨token, _, hrequire, h⟩
  · exact (looksOnly_require id).contents_of_error h
  obtain ⟨htoken, rfl⟩ := require_eq_ok_iff.1 hrequire
  rw [Program.bind_of_ok (StoreM.fetch_eq (.edition token.edition))] at h
  cases hedition : contents.editions[token.edition]? with
  -- There is no edition to lose a unit, which is seen before anything is written.
  | none =>
    rw [show contents.read (.edition token.edition) = none from hedition] at h
    cases h
    rfl
  -- If the edition is there as well, the token is burned.
  | some edition =>
    have hok : burn id (.idle limits ceiling contents) =
        .ok () (.idle limits ceiling (contents.burned id token edition)) :=
      burn_eq_ok_iff.2 ⟨token, htoken, edition, hedition, rfl⟩
    cases hburn.symm.trans hok

end Holdings

/-! ## Stores with and without a journal -/

theorem closed_of_none {τ : Type} [HasStore τ] [LawfulStore τ] (state : τ)
    (hn : (HasStore.store state).journal = none) : closed state = state := by
  unfold closed
  rw [Store.commit_of_journal_eq_none hn]
  exact LawfulStore.withStore_store state

/-- Where no journal is kept, a recorded program that fails has changed nothing of the store but its
contents. -/
theorem idle_of_error {ε τ α : Type} [HasStore τ] [LawfulStore τ] {program : EStateM ε τ α}
    {gained : List Slot} (hp : Recorded [] program gained) {state final : τ} {fault : ε}
    (hn : (HasStore.store state).journal = none) (hr : program state = .error fault final) :
    HasStore.store final = .idle (HasStore.store state).limits (HasStore.store state).ceiling
      (HasStore.store final).contents := by
  have hs : Store.Recording (HasStore.store state) []
      (HasStore.store (HasStore.withStore state (HasStore.store state).begin)) := by
    rw [LawfulStore.store_withStore]
    exact Store.Recording.begin _
  -- In a transaction the program does the same, and the transaction knows that limits and ceiling stay.
  have hrun := hp _ _ _ (List.Subset.refl _) hs
  rw [closed_begin hn, hr] at hrun
  cases ho : program (HasStore.withStore state (HasStore.store state).begin) with
  | ok value last =>
    rw [ho] at hrun
    cases hrun.2
  | error _ last =>
    rw [ho] at hrun
    obtain ⟨hrec, heq⟩ := hrun
    cases heq
    unfold closed
    rw [LawfulStore.store_withStore, ← hrec.limits_eq, ← hrec.ceiling_eq]
    rfl

namespace Market

variable {σ α β : Type}

/-! ## Refused actions -/

/-- The contents are these, whatever the refusal is. -/
def Unchanged (contents : Contents) (_ : Refusal) (after : Contents) : Prop := after = contents

section Refused

variable {contents : Contents} {market : Market σ}

theorem Unchanged.of_eq {found : Contents} (h : found = contents) (refusal : Refusal) :
    Unchanged contents refusal found := h

/-- A look at the store is not refused too late, and what follows finds the same contents. -/
theorem RefusedWith.look {program : StoreM α} {next : α → MarketM σ β} (h : LooksOnly program)
    (hc : market.store.contents = contents)
    (hnext : ∀ value store, store.contents = contents →
      RefusedWith (Unchanged contents) (next value) { market with store := store }) :
    RefusedWith (Unchanged contents) ((liftM program : MarketM σ α) >>= next) market := by
  apply (RefusedWith.onStore h.refusesFirst (Unchanged.of_eq hc)).bind
  intro value middle hr
  obtain ⟨final, hprogram, rfl⟩ := liftM_eq_ok_iff.1 hr
  exact hnext value final ((h.contents_of_ok hprogram).trans hc)

end Refused

variable [Currency σ] {caller : AccountId} {contents : Contents} {store : Store} {funds : σ}
  {events : EventLog} {methods : Method → MethodSettings}

/-- A payment that has been found to be affordable is not refused by a currency that is true to its
word. -/
theorem refusedWith_pay_of_canAfford {payer payee : AccountId} {amount : Int}
    {Q : Refusal → Contents → Prop} (hpays : ∀ payment, ¬ Currency.Withholds funds payment)
    (hcan : ((Currency.canAfford payer amount).run funds).1 = true) :
    RefusedWith Q (pay payer payee amount)
      ⟨store, ((Currency.canAfford payer amount).run funds).2, events, methods⟩ := by
  apply refusedWith_pay
  intro hpay
  exact absurd ⟨hcan, hpay⟩ (hpays ⟨payer, payee, amount⟩)

theorem unchanged_launchBuy (edition bid : Value)
    (hpays : ∀ payment, ¬ Currency.Withholds funds payment) (hc : store.contents = contents) :
    RefusedWith (Unchanged contents) (launchBuy caller edition bid)
      ⟨store, funds, events, methods⟩ := by
  -- Everything that is asked of the store is asked first, and `hc` says that nothing has changed yet.
  refine RefusedWith.look (LooksOnly.ofExcept _) hc fun id _ hc => ?_
  refine RefusedWith.look (LooksOnly.ofExcept _) hc fun amount _ hc => ?_
  refine RefusedWith.look (Issuance.looksOnly_require id) hc fun record _ hc => ?_
  refine RefusedWith.look (Issuance.looksOnly_ownerOf id) hc fun seller _ hc => ?_
  have hsame := Unchanged.of_eq hc
  refine RefusedWith.ite (fun _ => .refuse_bind hsame) fun _ => ?_
  refine RefusedWith.ite (fun _ => .refuse_bind hsame) fun _ => ?_
  refine (refusedWith_ensureCanPay caller amount hsame).bind fun _ _ h => ?_
  obtain ⟨hcan, rfl⟩ := ensureCanPay_eq_ok_iff.1 h
  refine (RefusedWith.onStore (Issuance.refusesFirst_issue id caller) hsame).bind fun token _ h => ?_
  obtain ⟨_, -, rfl⟩ := liftM_eq_ok_iff.1 h
  -- The token has been issued, so nothing may be refused any more.
  exact (refusedWith_pay_of_canAfford hpays hcan).bind fun _ _ _ => .pure _

theorem unchanged_buy (token bid : Value) (hpays : ∀ payment, ¬ Currency.Withholds funds payment)
    (hc : store.contents = contents) :
    RefusedWith (Unchanged contents) (buy caller token bid) ⟨store, funds, events, methods⟩ := by
  refine RefusedWith.look (LooksOnly.ofExcept _) hc fun id _ hc => ?_
  refine RefusedWith.look (LooksOnly.ofExcept _) hc fun amount _ hc => ?_
  refine RefusedWith.look (Holdings.looksOnly_require id) hc fun record _ hc => ?_
  have hsame := Unchanged.of_eq hc
  cases record.price with
  | none => exact .onStore (LooksOnly.refuse _).refusesFirst hsame
  | some price =>
    refine RefusedWith.ite (fun _ => .refuse_bind hsame) fun _ => ?_
    refine RefusedWith.ite (fun _ => .refuse_bind hsame) fun _ => ?_
    refine (refusedWith_ensureCanPay caller amount hsame).bind fun _ _ h => ?_
    obtain ⟨hcan, rfl⟩ := ensureCanPay_eq_ok_iff.1 h
    refine (RefusedWith.onStore (Holdings.refusesFirst_transfer id record.owner caller) hsame).bind
      fun _ _ h => ?_
    obtain ⟨_, hmove, rfl⟩ := liftM_eq_ok_iff.1 h
    -- The token that has been moved is there, so it can be taken off sale.
    obtain ⟨moved, hmoved⟩ := Holdings.token_of_transfer hmove
    obtain ⟨final, hunlist⟩ := Holdings.setPrice_of_eq_some hmoved none
    refine (RefusedWith.of_ok (liftM_eq_ok_iff.2 ⟨final, hunlist, rfl⟩)).bind fun _ _ h => ?_
    obtain ⟨_, -, rfl⟩ := liftM_eq_ok_iff.1 h
    exact (refusedWith_pay_of_canAfford hpays hcan).bind fun _ _ _ => .pure _

/-- A refused action has changed nothing, if the currency makes the payments that it says can be
afforded. -/
theorem unchanged_perform (action : Action) (hpays : ∀ payment, ¬ Currency.Withholds funds payment) :
    RefusedWith (Unchanged store.contents) (perform caller action)
      ⟨store, funds, events, methods⟩ := by
  have hsame (refusal : Refusal) : Unchanged store.contents refusal store.contents := rfl
  cases action with
  | createAccount creator => exact .onStore (refusesFirst_createAccount caller creator) hsame
  | dropAccount creator => exact .onStore (refusesFirst_dropAccount caller creator) hsame
  | mint creator price description =>
    exact .onStore (refusesFirst_mint caller creator price description) hsame
  | launchGift creator edition receiver =>
    exact .onStore (refusesFirst_launchGift caller creator edition receiver) hsame
  | launchBuy edition bid => exact unchanged_launchBuy edition bid hpays rfl
  | buy token bid => exact unchanged_buy token bid hpays rfl
  | transfer token => exact .onStore (refusesFirst_transfer caller token) hsame
  | list token price => exact .onStore (refusesFirst_list caller token price) hsame
  | unlist token => exact .onStore (refusesFirst_unlist caller token) hsame
  | setLaunchPrice creator edition price =>
    exact .onStore (refusesFirst_setLaunchPrice caller creator edition price) hsame
  | setPrice token price => exact .onStore (refusesFirst_setPrice caller token price) hsame
  | burn token => exact .onStore (refusesFirst_burn caller token) hsame

/-! ## Failed actions -/

/-- The same for the action, which makes its checks before that. -/
theorem contents_of_burn_error {token : Value} {limits : Limits} {ceiling : Int} {final : Store}
    {fault : Fault} (h : burn caller token (.idle limits ceiling contents) = .error fault final) :
    final.contents = contents := by
  rcases Program.bind_eq_error_iff.1 h with h | ⟨id, _, hid, h⟩
  · exact (LooksOnly.ofExcept _).contents_of_error h
  obtain ⟨-, rfl⟩ := StoreM.ofExcept_eq_ok_iff.1 hid
  rcases Program.bind_eq_error_iff.1 h with h | ⟨record, _, hrequire, h⟩
  · exact (Holdings.looksOnly_require id).contents_of_error h
  obtain ⟨hrecord, rfl⟩ := Holdings.require_eq_ok_iff.1 hrequire
  rcases Program.bind_eq_error_iff.1 h with h | ⟨_, _, howner, h⟩
  · exact (Holdings.looksOnly_ensureOwner caller id).contents_of_error h
  obtain ⟨-, rfl⟩ := (Holdings.ensureOwner_eq_ok_iff hrecord).1 howner
  rcases Program.bind_eq_error_iff.1 h with h | ⟨_, _, -, h⟩
  · exact Holdings.contents_of_burn_error h
  · cases h

/-- An action that fails where no journal is kept has changed nothing. If it is not refused, it is to burn
a token whose edition is not there. -/
theorem contents_of_error {market next : Market σ} {action : Action} {fault : Fault}
    (hn : market.store.journal = none) (hpays : ∀ payment, ¬ Currency.Withholds market.funds payment)
    (hp : perform caller action market = .error fault next) :
    next.store.contents = market.store.contents := by
  obtain ⟨store, funds, events, methods⟩ := market
  -- The action to burn a token is the only one that can fail without being refused.
  by_cases hburn : ∃ token, action = .burn token
  · obtain ⟨token, rfl⟩ := hburn
    rw [show store = .idle store.limits store.ceiling store.contents from Store.eq_idle hn] at hp
    obtain ⟨final, hfinal, rfl⟩ := liftM_eq_error_iff.1 hp
    exact contents_of_burn_error hfinal
  · have hrefuses : RefusesAt (perform caller action) (⟨store, funds, events, methods⟩ : Market σ) := by
      rw [show store = .idle store.limits store.ceiling store.contents from Store.eq_idle hn]
      exact refusesAt_perform funds events methods fun token _ _ h => absurd ⟨token, h⟩ hburn
    unfold RefusesAt at hrefuses
    rw [hp] at hrefuses
    obtain ⟨refusal, rfl⟩ := hrefuses
    exact unchanged_perform action hpays refusal next hp

/-- Nor has it changed anything else. -/
theorem eq_of_error [Currency.Reliable σ] {market next : Market σ} {action : Action} {fault : Fault}
    (hn : market.store.journal = none) (hpays : ∀ payment, ¬ Currency.Withholds market.funds payment)
    (hp : perform caller action market = .error fault next) : next = market := by
  -- Three things are known: about the contents, about the rest of the store, about all but the store.
  have hcontents := contents_of_error hn hpays hp
  have hstore := idle_of_error (recorded_perform caller action) hn hp
  have hclean := failsClean_perform caller action market
  rw [hp] at hclean
  have hsame : next.store = market.store := by
    refine Eq.trans hstore ?_
    show Store.idle market.store.limits market.store.ceiling next.store.contents = market.store
    rw [hcontents]
    exact (Store.eq_idle hn).symm
  rw [← hclean, ← hsame]

/-! ## Calls without a journal -/

/-- If the store keeps a journal, it remembers no slot twice. Every journal of a transaction is like
that. -/
def JournalNodup (market : Market σ) : Prop :=
  ∀ journal, market.store.journal = some journal → journal.slots.Nodup

/-- Carries out an action without a transaction: nothing is undone, whatever happens. -/
def actBare (caller : AccountId) (action : Action) : MarketM σ Answer := fun market =>
  match perform caller action market with
  | .ok receipt next => .ok (.done receipt) (next.logReceipt caller receipt)
  | .error (.refused refusal) next => .ok (.refused refusal) next
  | .error fault next => .error fault next

/-- Where no journal is kept, the other program ends as this one does here, but for the journal; and the
journal that this one leaves, if any, still remembers no slot twice. -/
def Mirrors (program bare : MarketM σ α) (market : Market σ) : Prop :=
  match program market with
  | .ok value next => bare (closed market) = .ok value (closed next) ∧ next.JournalNodup
  | .error fault next => bare (closed market) = .error fault (closed next) ∧ next.JournalNodup

/-- Inside an open transaction there is nothing to be undone by the call, and the journal does not tell what
it does. -/
theorem mirrors_act_of_open {market : Market σ} {action : Action} {journal : Journal}
    (hj : market.store.journal = some journal) (hnodup : journal.slots.Nodup) :
    Mirrors (act caller action) (actBare caller action) market := by
  have hrecording := Store.recording_rollBack hj hnodup
  have hrun := recorded_perform caller action market.store.rollBack [] market (List.Subset.refl _)
    hrecording
  -- A journal that covers what was done names no slot twice.
  have hkept {next : Market σ} {held : List Slot}
      (h : Store.Recording market.store.rollBack held next.store) : next.JournalNodup := by
    intro found hfound
    obtain ⟨_, hnext, hcovers⟩ := h.covers
    cases hfound.symm.trans hnext
    exact hcovers.nodup
  unfold Mirrors act actBare
  rw [transaction_of_open (show (HasStore.store market).journal = some journal from hj)]
  cases hp : perform caller action market with
  | ok receipt next =>
    rw [hp] at hrun
    obtain ⟨hrec, heq⟩ := hrun
    rw [heq]
    exact ⟨rfl, hkept hrec⟩
  | error fault next =>
    rw [hp] at hrun
    obtain ⟨hrec, heq⟩ := hrun
    rw [heq]
    cases fault <;> exact ⟨rfl, hkept hrec⟩

/-- Where the call has a transaction of its own, it may as well have none. -/
theorem mirrors_act_of_none [Currency.Reliable σ] {market : Market σ} {action : Action}
    (hn : market.store.journal = none)
    (hpays : ∀ payment, ¬ Currency.Withholds market.funds payment) :
    Mirrors (act caller action) (actBare caller action) market := by
  have hkept {next : Market σ} (h : next.store.journal = none) : next.JournalNodup := by
    intro found hfound
    cases h.symm.trans hfound
  -- What `act_eq` gives back after a fault is what the action has left.
  unfold Mirrors actBare
  rw [act_eq caller action hn, closed_of_none market hn]
  cases hp : perform caller action market with
  | ok receipt next =>
    obtain ⟨_, _, -, -, rfl⟩ := does_of_perform hn hp
    exact ⟨rfl, hkept rfl⟩
  | error fault next =>
    cases eq_of_error hn hpays hp
    cases fault <;> exact ⟨congrArg _ (closed_of_none market hn).symm, hkept hn⟩

/-- The answers to a series of calls, and the market that they leave. -/
def exchange (serve : AccountId → Action → MarketM σ Answer) (market : Market σ) :
    List Call → List (Except Fault Answer) × Market σ
  | [] => ([], market)
  | call :: rest =>
    match serve call.caller call.action market with
    | .ok answer next =>
      let (answers, final) := exchange serve next rest
      (.ok answer :: answers, final)
    | .error fault next =>
      let (answers, final) := exchange serve next rest
      (.error fault :: answers, final)

/-- A series of calls is a run. -/
theorem exchange_act (market : Market σ) (calls : List Call) :
    (exchange act market calls).2 = market.run calls := by
  induction calls generalizing market with
  | nil => rfl
  | cons call rest ih =>
    show _ = (market.after call).run rest
    unfold exchange after
    cases act call.caller call.action market with
    | ok answer next => exact ih next
    | error fault next => exact ih next

/-- Calls are answered in the same way, one after the other, whether or not a journal is kept. -/
theorem exchange_bare [Currency.Reliable σ] {market : Market σ} (calls : List Call)
    (hpays : ∀ (funds : σ) payment, ¬ Currency.Withholds funds payment) (hnodup : market.JournalNodup) :
    exchange actBare (closed market) calls =
      ((exchange act market calls).1, closed (exchange act market calls).2) := by
  induction calls generalizing market with
  | nil => rfl
  | cons call rest ih =>
    have hmirrors : Mirrors (act call.caller call.action) (actBare call.caller call.action) market := by
      cases hj : market.store.journal with
      | none => exact mirrors_act_of_none hj (hpays market.funds)
      | some journal => exact mirrors_act_of_open hj (hnodup journal hj)
    -- The rest of the calls starts where the first one has ended, with and without a journal.
    unfold Mirrors at hmirrors
    unfold exchange
    cases hr : act call.caller call.action market with
    | ok answer next =>
      rw [hr] at hmirrors
      obtain ⟨hbare, hnext⟩ := hmirrors
      rw [hbare]
      dsimp only
      rw [ih hnext]
    | error fault next =>
      rw [hr] at hmirrors
      obtain ⟨hbare, hnext⟩ := hmirrors
      rw [hbare]
      dsimp only
      rw [ih hnext]

/-- **Nothing ever has to be undone.** With a bank, an action that is refused has changed nothing at the
moment of the refusal, in any store whatever. The same holds of the programs on creators, editions and tokens
when they are called by themselves, inside a transaction or not. So a market without a journal, where no call
is ever undone, answers every series of calls as one with a journal does and goes through the same states. -/
theorem undoing_is_never_needed :
    (∀ caller action (market next : Market Bank) refusal,
      perform caller action market = .error (.refused refusal) next →
        next.store.contents = market.store.contents) ∧
    ((∀ id owner, RefusesFirst (Registry.register id owner)) ∧
      (∀ id owner, RefusesFirst (Registry.release id owner)) ∧
      (∀ creator price metadata, RefusesFirst (Issuance.mint creator price metadata)) ∧
      (∀ edition receiver, RefusesFirst (Issuance.issue edition receiver)) ∧
      (∀ id price, RefusesFirst (Issuance.setPrice id price)) ∧
      (∀ id owner receiver, RefusesFirst (Holdings.transfer id owner receiver)) ∧
      (∀ id price, RefusesFirst (Holdings.setPrice id price)) ∧
      ∀ id, RefusesFirst (Holdings.burn id)) ∧
    ∀ (market : Market Bank) (calls : List Call), market.JournalNodup →
      exchange actBare (closed market) calls =
        ((exchange act market calls).1, closed (market.run calls)) := by
  refine ⟨?_, ?_, ?_⟩
  · intro caller action market next refusal hp
    exact unchanged_perform action market.funds.not_withholds refusal next hp
  · exact ⟨Registry.refusesFirst_register, Registry.refusesFirst_release, Issuance.refusesFirst_mint,
      Issuance.refusesFirst_issue, Issuance.refusesFirst_setPrice, Holdings.refusesFirst_transfer,
      Holdings.refusesFirst_setPrice, Holdings.refusesFirst_burn⟩
  · intro market calls hnodup
    rw [← exchange_act]
    exact exchange_bare calls Bank.not_withholds hnodup

/-- A market that no run leads to: a token is for sale whose edition is not there, and an account holds as
many tokens as it may, none of which is there either. -/
def stranded : Market Bank where
  store :=
    { limits := { (default : Limits) with tokensPerAccount := 1, tokensPerAccount_pos := Nat.one_pos }
      contents :=
        { tokens := (∅ : Table ItemId Token).put 1 ⟨1, 7, "studio", .name "ann", "", some 5, "", ""⟩
          tokensOf :=
            (∅ : Table AccountId (Roster ItemId)).put (.name "bob") ⟨1, [9], Nat.le_refl 1⟩ } }
  funds := { balances := (∅ : Table AccountId Int).put (.name "bob") 100 }
  events := { time := "" }

/-- A refused purchase, a token that cannot be burned, and a token that is taken off sale. -/
def strandedCalls : List Call :=
  [⟨.name "bob", .buy (.int 1) (.int 5)⟩, ⟨.name "ann", .burn (.int 1)⟩,
    ⟨.name "ann", .unlist (.int 1)⟩]

theorem undoing_is_never_needed_stranded :
    (∃ next, perform (.name "bob") (.buy (.int 1) (.int 5)) stranded =
        .error (.refused (.tokensFull (.name "bob") 1)) next ∧
      next.store.contents = stranded.store.contents) ∧
    stranded.JournalNodup ∧
      exchange actBare (closed stranded) strandedCalls =
        ([.ok (.refused (.tokensFull (.name "bob") 1)), .error (.breach (.editionMissing 1 7)),
          .ok (.done (.unlisted 1))], closed (stranded.run strandedCalls)) := by
  obtain ⟨hrefused, -, hcalls⟩ := undoing_is_never_needed
  have hp : ∃ next, perform (.name "bob") (.buy (.int 1) (.int 5)) stranded =
      .error (.refused (.tokensFull (.name "bob") 1)) next := ⟨_, by rfl⟩
  obtain ⟨next, hp⟩ := hp
  have hnodup : stranded.JournalNodup := by
    intro journal hj
    cases hj
  have hanswers : (exchange act stranded strandedCalls).1 =
      [.ok (.refused (.tokensFull (.name "bob") 1)), .error (.breach (.editionMissing 1 7)),
        .ok (.done (.unlisted 1))] := by
    rfl
  have hexchange := hcalls stranded strandedCalls hnodup
  rw [hanswers] at hexchange
  exact ⟨⟨next, hp, hrefused _ _ _ _ _ hp⟩, hnodup, hexchange⟩

end Market

end EditionMarket
