import EditionMarket.Proofs.Argument
import EditionMarket.Proofs.Market.Atomicity
import EditionMarket.Proofs.Market.Run
import EditionMarket.Proofs.Store.Tended

/-!
# Calls about different tokens commute

Owners list their tokens, change the prices, take them off sale and burn them. What such a call is answered
depends on the one token that it names, and on nothing else that such calls change; and what it does, it
does to that token. So it does not matter which of two such calls comes first, be it that both burn tokens
of the same account and the same edition.

Main definition: `Action.tended?`. Main statements: `answer_after_tended`, a call does not change the answer
to another one, and `independent_calls_commute`. Both are about every market of which no transaction is
open; `journal_run` says that there is none after a run of calls.
-/

namespace EditionMarket

/-! ## Calls about tokens -/

/-- The argument that names the token, if the action is to list, unlist, price or burn one. -/
def Action.tended? : Action → Option Value
  | list token _ | unlist token | setPrice token _ | burn token => some token
  | _ => none

/-- The change to a token of which a receipt tells. -/
def Receipt.tending? : Receipt → Option (ItemId × TokenChange)
  | listed token price | priceSet token price => some (token, .price (some price))
  | unlisted token => some (token, .price none)
  | burnt token _ => some (token, .burn)
  | _ => none

/-! ## What programs give -/

namespace Program

variable {ε τ α β : Type}

/-- What a program gives, or the fault with which it stops, without the state that it leaves. -/
def outcome (program : EStateM ε τ α) (state : τ) : Except ε α :=
  match program state with
  | .ok value _ => .ok value
  | .error fault _ => .error fault

/-- Two programs in a row give the same from two states if the first one does, and the second one does
from where the first one has ended. -/
theorem outcome_bind_congr {first : EStateM ε τ α} {second : α → EStateM ε τ β} {s t : τ}
    (hfirst : outcome first s = outcome first t)
    (hsecond : ∀ value s' t', first s = .ok value s' → first t = .ok value t' →
      outcome (second value) s' = outcome (second value) t') :
    outcome (first >>= second) s = outcome (first >>= second) t := by
  unfold outcome at hfirst
  cases hs : first s with
  | ok value s' =>
    cases ht : first t with
    | ok value' t' =>
      rw [hs, ht] at hfirst
      cases hfirst
      have h := hsecond value s' t' hs ht
      unfold outcome at h ⊢
      rwa [bind_of_ok hs, bind_of_ok ht]
    | error fault t' =>
      rw [hs, ht] at hfirst
      cases hfirst
  | error fault s' =>
    cases ht : first t with
    | ok value t' =>
      rw [hs, ht] at hfirst
      cases hfirst
    | error fault' t' =>
      rw [hs, ht] at hfirst
      cases hfirst
      unfold outcome
      rw [bind_of_error hs, bind_of_error ht]

end Program

open Program (outcome outcome_bind_congr)

variable {α : Type} {limits : Limits} {ceiling : Int} {a b : Contents} {id : ItemId}
  {caller : AccountId}

theorem StoreM.outcome_ofExcept_bind_congr {check : Except Refusal α} {β : Type}
    {next : α → StoreM β} {s t : Store}
    (h : ∀ value, check = .ok value → outcome (next value) s = outcome (next value) t) :
    outcome (ofExcept check >>= next) s = outcome (ofExcept check >>= next) t := by
  cases check with
  | ok value => exact h value rfl
  | error refusal => rfl

namespace Holdings

theorem outcome_require_bind_congr {next : Token → StoreM α} (hab : a.AgreeOn id b)
    (h : ∀ token, a.tokens[id]? = some token → b.tokens[id]? = some token →
      outcome (next token) (.idle limits ceiling a) = outcome (next token) (.idle limits ceiling b)) :
    outcome (require id >>= next) (.idle limits ceiling a) =
      outcome (require id >>= next) (.idle limits ceiling b) := by
  apply outcome_bind_congr
  · unfold require outcome
    rw [Program.bind_of_ok (get?_eq id), Program.bind_of_ok (get?_eq id), hab.token]
    cases b.tokens[id]? <;> rfl
  · intro token s t hs ht
    obtain ⟨htoken, rfl⟩ := require_eq_ok_iff.1 hs
    obtain ⟨htoken', rfl⟩ := require_eq_ok_iff.1 ht
    exact h token htoken htoken'

theorem outcome_ensureOwner_bind_congr {token : Token} {next : Unit → StoreM α}
    (ha : a.tokens[id]? = some token) (hb : b.tokens[id]? = some token)
    (h : outcome (next ()) (.idle limits ceiling a) = outcome (next ()) (.idle limits ceiling b)) :
    outcome (ensureOwner caller id >>= next) (.idle limits ceiling a) =
      outcome (ensureOwner caller id >>= next) (.idle limits ceiling b) := by
  apply outcome_bind_congr
  · unfold ensureOwner ownerOf outcome
    simp only [Program.bind_of_ok (get?_eq id), bind_assoc, ha, hb, pure_bind]
    by_cases howner : token.owner = caller
    · simp only [Option.map_some, Option.getD_some, howner, ne_eq, not_true_eq_false, ↓reduceIte]
      rfl
    · simp only [Option.map_some, Option.getD_some, howner, ne_eq, not_false_eq_true, ↓reduceIte]
      rfl
  · intro _ s t hs ht
    obtain ⟨-, rfl⟩ := (ensureOwner_eq_ok_iff ha).1 hs
    obtain ⟨-, rfl⟩ := (ensureOwner_eq_ok_iff hb).1 ht
    exact h

/-- A price is set on whatever token is there. -/
theorem outcome_setPrice_bind_congr {price : Option Int} {token : Token}
    (ha : a.tokens[id]? = some token) (hb : b.tokens[id]? = some token) (value : α) :
    outcome (setPrice id price >>= fun _ => pure value) (.idle limits ceiling a) =
      outcome (setPrice id price >>= fun _ => pure value) (.idle limits ceiling b) := by
  have hdone {contents : Contents} (h : contents.tokens[id]? = some token) :
      setPrice id price (.idle limits ceiling contents) =
        .ok () (.idle limits ceiling (contents.priced id token price)) :=
    setPrice_eq_ok_iff.2 ⟨token, h, rfl⟩
  unfold outcome
  rw [Program.bind_of_ok (hdone ha), Program.bind_of_ok (hdone hb)]
  rfl

/-- A token is burnt if its edition is there, whatever else has been counted there. -/
theorem outcome_burn_bind_congr {token : Token} (hab : a.AgreeOn id b)
    (ha : a.tokens[id]? = some token) (hb : b.tokens[id]? = some token) (value : α) :
    outcome (burn id >>= fun _ => pure value) (.idle limits ceiling a) =
      outcome (burn id >>= fun _ => pure value) (.idle limits ceiling b) := by
  have hedition := hab.editions token.edition
  cases hs : a.editions[token.edition]? with
  | some source =>
    cases ht : b.editions[token.edition]? with
    | none => cases (hedition.2 ht).symm.trans hs
    | some other =>
      have hdone {contents : Contents} {edition : Edition} (h : contents.tokens[id]? = some token)
          (he : contents.editions[token.edition]? = some edition) :
          burn id (.idle limits ceiling contents) =
            .ok () (.idle limits ceiling (contents.burned id token edition)) :=
        burn_eq_ok_iff.2 ⟨token, h, edition, he, rfl⟩
      unfold outcome
      rw [Program.bind_of_ok (hdone ha hs), Program.bind_of_ok (hdone hb ht)]
      rfl
  | none =>
    -- Neither edition is there, and both programs stop for it.
    have hstop {contents : Contents} (htoken : contents.tokens[id]? = some token)
        (hnone : contents.editions[token.edition]? = none) :
        outcome (burn id >>= fun _ => pure value) (.idle limits ceiling contents) =
          .error (.breach (.editionMissing id token.edition)) := by
      have hfetch : StoreM.fetch (.edition token.edition) (.idle limits ceiling contents) =
          .ok contents.editions[token.edition]? (.idle limits ceiling contents) := rfl
      unfold outcome burn
      rw [bind_assoc, Program.bind_of_ok (require_eq_ok_iff.2 ⟨htoken, rfl⟩), bind_assoc,
        Program.bind_of_ok hfetch, hnone]
      rfl
    rw [hstop ha hs, hstop hb (hedition.1 hs)]

end Holdings

namespace Market

/-! ## What calls about tokens are answered -/

theorem outcome_ensureListed_bind_congr {next : Unit → StoreM α} (hab : a.AgreeOn id b)
    (h : ∀ token, a.tokens[id]? = some token → b.tokens[id]? = some token →
      outcome (next ()) (.idle limits ceiling a) = outcome (next ()) (.idle limits ceiling b)) :
    outcome (ensureListed caller id >>= next) (.idle limits ceiling a) =
      outcome (ensureListed caller id >>= next) (.idle limits ceiling b) := by
  unfold ensureListed
  rw [bind_assoc]
  refine Holdings.outcome_require_bind_congr hab fun token ha hb => ?_
  rw [bind_assoc]
  refine Holdings.outcome_ensureOwner_bind_congr ha hb ?_
  split
  · rfl
  · exact h token ha hb

variable {token : Value}

theorem outcome_list_congr (price : Value)
    (hab : ∀ id, Argument.itemId "token_id" token = .ok id → a.AgreeOn id b) :
    outcome (list caller token price) (.idle limits ceiling a) =
      outcome (list caller token price) (.idle limits ceiling b) := by
  refine StoreM.outcome_ofExcept_bind_congr fun id hid => ?_
  refine StoreM.outcome_ofExcept_bind_congr fun amount _ => ?_
  refine Holdings.outcome_require_bind_congr (hab id hid) fun record ha hb => ?_
  refine Holdings.outcome_ensureOwner_bind_congr ha hb ?_
  cases record.price with
  | some listed => rfl
  | none => exact Holdings.outcome_setPrice_bind_congr ha hb _

theorem outcome_unlist_congr
    (hab : ∀ id, Argument.itemId "token_id" token = .ok id → a.AgreeOn id b) :
    outcome (unlist caller token) (.idle limits ceiling a) =
      outcome (unlist caller token) (.idle limits ceiling b) := by
  refine StoreM.outcome_ofExcept_bind_congr fun id hid => ?_
  refine outcome_ensureListed_bind_congr (hab id hid) fun record ha hb => ?_
  exact Holdings.outcome_setPrice_bind_congr ha hb _

theorem outcome_setPrice_congr (price : Value)
    (hab : ∀ id, Argument.itemId "token_id" token = .ok id → a.AgreeOn id b) :
    outcome (setPrice caller token price) (.idle limits ceiling a) =
      outcome (setPrice caller token price) (.idle limits ceiling b) := by
  refine StoreM.outcome_ofExcept_bind_congr fun id hid => ?_
  refine StoreM.outcome_ofExcept_bind_congr fun amount _ => ?_
  refine outcome_ensureListed_bind_congr (hab id hid) fun record ha hb => ?_
  exact Holdings.outcome_setPrice_bind_congr ha hb _

theorem outcome_burn_congr
    (hab : ∀ id, Argument.itemId "token_id" token = .ok id → a.AgreeOn id b) :
    outcome (burn caller token) (.idle limits ceiling a) =
      outcome (burn caller token) (.idle limits ceiling b) := by
  refine StoreM.outcome_ofExcept_bind_congr fun id hid => ?_
  refine Holdings.outcome_require_bind_congr (hab id hid) fun record ha hb => ?_
  refine Holdings.outcome_ensureOwner_bind_congr ha hb ?_
  exact Holdings.outcome_burn_bind_congr (hab id hid) ha hb _

variable {σ : Type}

/-- A program on the store of a market gives what it gives on the store alone. -/
theorem outcome_liftM (program : StoreM α) (market : Market σ) :
    outcome (liftM program : MarketM σ α) market = outcome program market.store := by
  rw [liftM_eq_onStore]
  unfold outcome onStore
  cases program market.store <;> rfl

theorem AgreesOutside.funds_eq {first second : Market σ} (h : first.AgreesOutside second) :
    first.funds = second.funds := by
  unfold AgreesOutside at h
  rw [← h]

variable [Currency σ] {market next : Market σ} {call : Call}

/-- What is done to a token is done on the store alone. -/
theorem perform_eq_liftM_of_tended? (σ : Type) [Currency σ] {action : Action}
    (ht : action.tended? = some token) (caller : AccountId) :
    ∃ program : StoreM Receipt, (perform caller action : MarketM σ Receipt) = liftM program ∧
      ∀ {limits ceiling a b},
        (∀ id, Argument.itemId "token_id" token = .ok id → Contents.AgreeOn id a b) →
          outcome program (.idle limits ceiling a) = outcome program (.idle limits ceiling b) := by
  cases action with
  | list _ price =>
    cases ht
    exact ⟨_, rfl, outcome_list_congr price⟩
  | unlist _ =>
    cases ht
    exact ⟨_, rfl, outcome_unlist_congr⟩
  | setPrice _ price =>
    cases ht
    exact ⟨_, rfl, outcome_setPrice_congr price⟩
  | burn _ =>
    cases ht
    exact ⟨_, rfl, outcome_burn_congr⟩
  | _ => cases ht

/-- The answer to a call is made from what its action gives. -/
theorem answer_eq_of_outcome (hn : market.store.journal = none) (hn' : next.store.journal = none)
    (h : outcome (perform call.caller call.action) next =
      outcome (perform call.caller call.action) market) :
    next.answer call = market.answer call := by
  unfold answer
  rw [act_eq call.caller call.action hn, act_eq call.caller call.action hn']
  unfold outcome at h
  cases hs : perform call.caller call.action next with
  | ok receipt _ =>
    cases ht : perform call.caller call.action market with
    | ok receipt' _ =>
      rw [hs, ht] at h
      cases h
      rfl
    | error fault _ =>
      rw [hs, ht] at h
      cases h
  | error fault _ =>
    cases ht : perform call.caller call.action market with
    | ok receipt _ =>
      rw [hs, ht] at h
      cases h
    | error fault' _ =>
      rw [hs, ht] at h
      cases h
      cases fault <;> rfl

/-- A rule about a token that its owner tends does what the receipt says. -/
theorem eq_tendedBy_of_does {contents after : Contents} {action : Action} {receipt : Receipt}
    (ht : action.tended? = some token)
    (hdoes : contents.Does limits ceiling caller action receipt after) :
    after = contents.tendedBy receipt.tending? ∧
      ∀ x ∈ receipt.tending?, Argument.itemId "token_id" token = .ok x.1 := by
  cases hdoes with
  | list hid _ hrecord _ _ =>
    cases ht
    exact ⟨(Contents.tended_price hrecord _).symm, by rintro _ ⟨⟩; exact hid⟩
  | unlist hid hrecord _ _ =>
    cases ht
    exact ⟨(Contents.tended_price hrecord _).symm, by rintro _ ⟨⟩; exact hid⟩
  | setPrice hid _ hrecord _ _ =>
    cases ht
    exact ⟨(Contents.tended_price hrecord _).symm, by rintro _ ⟨⟩; exact hid⟩
  | burn hid hrecord _ hsource =>
    cases ht
    exact ⟨(Contents.tended_burn hrecord hsource).symm, by rintro _ ⟨⟩; exact hid⟩
  | _ => cases ht

/-- The change of which the receipt of a call tells, if there is one. -/
def change? (market : Market σ) (call : Call) : Option (ItemId × TokenChange) :=
  (market.receipt? call).bind Receipt.tending?

/-- A call about a token makes the change of which its receipt tells, to the token that it names, and
leaves the funds alone. -/
theorem after_of_tended? (ht : call.action.tended? = some token) (hn : market.store.journal = none) :
    (market.after call).store =
        .idle market.store.limits market.store.ceiling
          (market.store.contents.tendedBy (market.change? call)) ∧
      (∀ x ∈ market.change? call, Argument.itemId "token_id" token = .ok x.1) ∧
        (market.after call).funds = market.funds := by
  have hfunds : (market.after call).funds = market.funds := by
    obtain ⟨program, hprogram, -⟩ := perform_eq_liftM_of_tended? σ ht call.caller
    have houtside := StoreOnly.onStore program market
    unfold after
    rw [act_eq call.caller call.action hn]
    rw [← hprogram] at houtside
    cases hp : perform call.caller call.action market with
    | ok receipt next =>
      rw [hp] at houtside
      have hnext : next.funds = market.funds := AgreesOutside.funds_eq houtside
      exact hnext
    | error fault next =>
      rw [hp] at houtside
      have hnext : next.funds = market.funds := AgreesOutside.funds_eq houtside
      cases fault <;> exact hnext
  unfold change?
  rcases market.after_cases call hn with ⟨receipt, contents, _, hdoes, -, hr, ha, -⟩ | ⟨hr, ha⟩
  · obtain ⟨heq, hid⟩ := eq_tendedBy_of_does ht hdoes
    rw [ha, hr, heq]
    exact ⟨rfl, hid, hfunds⟩
  · rw [ha, hr]
    exact ⟨Store.eq_idle hn, nofun, hfunds⟩

/-- **A call about one token does not change the answer to a call about another one.** -/
theorem answer_after_tended {first second : Call} {token other : Value}
    (hn : market.store.journal = none) (hfirst : first.action.tended? = some token)
    (hsecond : second.action.tended? = some other) (hne : token ≠ other) :
    (market.after first).answer second = market.answer second := by
  obtain ⟨hstore, hid, -⟩ := after_of_tended? hfirst hn
  obtain ⟨program, hprogram, hcongr⟩ := perform_eq_liftM_of_tended? σ hsecond second.caller
  have hidle : market.store =
      .idle market.store.limits market.store.ceiling market.store.contents := Store.eq_idle hn
  apply answer_eq_of_outcome hn
  · rw [hstore]
    rfl
  rw [hprogram, outcome_liftM, outcome_liftM, hstore]
  conv_rhs => rw [hidle]
  apply hcongr
  intro id hother
  apply Contents.agreeOn_tendedBy
  -- Arguments that are not the same do not name the same token.
  intro x hx heq
  have htoken := Argument.eq_of_itemId_eq_ok (hid x hx)
  rw [heq, ← Argument.eq_of_itemId_eq_ok hother] at htoken
  exact hne htoken

/-- **Calls about different tokens commute.** Let two calls list, unlist, price or burn tokens, whoever
makes them, and let the tokens be named differently. Then each of them is answered the same, be it first or
second, with its receipt or with the same refusal; and after both calls all records, both counters and the
funds are the same, as are all rosters up to the order of the tokens on them. -/
theorem independent_calls_commute {first second : Call} {token other : Value}
    (hn : market.store.journal = none) (hfirst : first.action.tended? = some token)
    (hsecond : second.action.tended? = some other) (hne : token ≠ other) :
    let forth := (market.after first).after second
    let back := (market.after second).after first
    (market.after first).answer second = market.answer second ∧
      (market.after second).answer first = market.answer first ∧
        forth.store.contents.Alike back.store.contents ∧
          forth.funds = market.funds ∧ back.funds = market.funds := by
  intro forth back
  have hthen := answer_after_tended hn hfirst hsecond hne
  have hthen' := answer_after_tended hn hsecond hfirst hne.symm
  obtain ⟨hstore, hid, hfunds⟩ := after_of_tended? hfirst hn
  obtain ⟨hstore', hid', hfunds'⟩ := after_of_tended? hsecond hn
  have hn₁ : (market.after first).store.journal = none := by rw [hstore]; rfl
  have hn₂ : (market.after second).store.journal = none := by rw [hstore']; rfl
  obtain ⟨hforth, -, hforthFunds⟩ := after_of_tended? hsecond hn₁
  obtain ⟨hback, -, hbackFunds⟩ := after_of_tended? hfirst hn₂
  -- The answers are the same in both orders, and so are the changes of which they tell.
  have hchange : (market.after first).change? second = market.change? second := by
    unfold change? receipt?
    rw [hthen]
  have hchange' : (market.after second).change? first = market.change? first := by
    unfold change? receipt?
    rw [hthen']
  have halike : forth.store.contents.Alike back.store.contents := by
    rw [hforth, hback, hchange, hchange', hstore, hstore']
    apply Contents.alike_tendedBy
    intro x hx y hy heq
    have htoken := Argument.eq_of_itemId_eq_ok (hid x hx)
    rw [heq, ← Argument.eq_of_itemId_eq_ok (hid' y hy)] at htoken
    exact hne htoken
  exact ⟨hthen, hthen', halike, hforthFunds.trans hfunds, hbackFunds.trans hfunds'⟩

/-- A market in which bob has four tokens of one edition. -/
def fourTokens : Market Bank :=
  (opened default 10 0 0 ({} : Bank) { time := "" } Method.settings).run
    [⟨.name "ann", .createAccount (.string "studio")⟩,
      ⟨.name "ann", .mint (.string "studio") (.int 0) (.raw (.object
        [("name", .string "Dawn"), ("mime_type", .string "image/png"),
          ("metadata_uri", .string "ipfs://dawn"), ("supply", .int 4)]))⟩,
      ⟨.name "ann", .launchGift (.string "studio") (.int 1) (.string "bob")⟩,
      ⟨.name "ann", .launchGift (.string "studio") (.int 1) (.string "bob")⟩,
      ⟨.name "ann", .launchGift (.string "studio") (.int 1) (.string "bob")⟩,
      ⟨.name "ann", .launchGift (.string "studio") (.int 1) (.string "bob")⟩]

/-- The first two of them are burnt, in either order, and the other two are left, in either order. -/
theorem independent_calls_commute_fourTokens :
    let first : Call := ⟨.name "bob", .burn (.int 1)⟩
    let second : Call := ⟨.name "bob", .burn (.int 2)⟩
    let forth := (fourTokens.after first).after second
    let back := (fourTokens.after second).after first
    forth.store.contents.Alike back.store.contents ∧
      forth.store.contents.tokensOf.itemsAt (.name "bob") = [4, 3] ∧
        back.store.contents.tokensOf.itemsAt (.name "bob") = [3, 4] := by
  intro first second forth back
  have hn : fourTokens.store.journal = none := journal_run _ rfl
  have hfirst : first.action.tended? = some (.int 1) := rfl
  have hsecond : second.action.tended? = some (.int 2) := rfl
  have hne : Value.int 1 ≠ .int 2 := by decide
  obtain ⟨-, -, halike, -⟩ := independent_calls_commute hn hfirst hsecond hne
  refine ⟨halike, ?_, ?_⟩
  · decide +kernel
  · decide +kernel

end Market

end EditionMarket
