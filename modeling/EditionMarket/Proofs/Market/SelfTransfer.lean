import EditionMarket.Proofs.Argument
import EditionMarket.Proofs.Market.Authority
import EditionMarket.Proofs.Market.Reachable
import EditionMarket.Proofs.Market.Returned
import EditionMarket.Proofs.Store.Rights
import EditionMarket.Proofs.Text

/-!
# Tokens that are transferred to their owners

The only account to which a token can be transferred is the one that owns it. For a moment the token is then
on the roster of its owner twice: it enters at the end, and whichever of the two is taken out again, with the
last item put in its place, the roster is as it was. That moment takes room, so an owner whose roster is full
is refused, although nothing would have come of it.

Main statement: `transfer_to_owner_leaves_everything`.
-/

namespace EditionMarket

variable {limits : Limits} {contents : Contents} {id : ItemId} {record : Token}

/-! ## Owners with room -/

/-- What a rule leaves of a transfer is what was there. -/
theorem Contents.Sound.transferred_eq {ceiling : Int} (h : contents.Sound limits ceiling) {caller : AccountId}
    {receipt : Receipt} {next : Contents}
    (hdoes : contents.Does limits ceiling caller (.transfer (.int id)) receipt next) :
    receipt = .transferred id caller ∧ next = contents := by
  cases hdoes with
  | transfer hitem hrecord howner hroom =>
    cases Argument.eq_of_itemId_eq_ok hitem
    subst howner
    exact ⟨rfl, moved_self h.tokensOf hrecord hroom⟩

/-! ## Owners whose rosters are full -/

/-- A receiver whose roster is full is refused, whoever owns the token, and told how many tokens that is. -/
theorem Holdings.transfer_eq_error {holder : ItemId → Option AccountId} {receiver : AccountId}
    (hin : contents.tokensOf.InStep limits.tokensPerAccount holder)
    (hrecord : contents.tokens[id]? = some record)
    (hfull : ¬ contents.tokensOf.HasRoom limits.tokensPerAccount receiver) (owner : AccountId)
    (ceiling : Int) :
    ∃ final, transfer id owner receiver (.idle limits ceiling contents) =
      .error (.refused (.tokensFull receiver limits.tokensPerAccount)) final := by
  have hpush : ∃ final,
      (Family.tokensOf.push receiver id fun limit => .refused (.tokensFull receiver limit))
          (.idle limits ceiling contents) =
        .error (.refused (.tokensFull receiver
          (contents.tokensOf.rosterAt limits.tokensPerAccount receiver).capacity)) final :=
    Family.isField_tokensOf.push_eq_error hfull id _
  obtain ⟨final, hpush⟩ := hpush
  rw [hin.capacity_rosterAt] at hpush
  unfold transfer
  rw [Program.bind_of_ok (require_eq_ok_iff.2 ⟨hrecord, rfl⟩)]
  exact ⟨final, Program.bind_of_error hpush _⟩

namespace Market

/-- An owner who asks for a transfer has passed all other checks when it comes to the roster. -/
theorem transfer_eq_error {holder : ItemId → Option AccountId}
    (hin : contents.tokensOf.InStep limits.tokensPerAccount holder)
    (hid : 0 ≤ id ∧ id ≤ Argument.largestId) (hrecord : contents.tokens[id]? = some record)
    (hfull : ¬ contents.tokensOf.HasRoom limits.tokensPerAccount record.owner) (ceiling : Int) :
    ∃ final, transfer record.owner (.int id) (.idle limits ceiling contents) =
      .error (.refused (.tokensFull record.owner limits.tokensPerAccount)) final := by
  obtain ⟨final, hmove⟩ := Holdings.transfer_eq_error hin hrecord hfull record.owner ceiling
  have hitem : Argument.itemId "token_id" (.int id) = .ok id := Argument.itemId_eq_ok_iff.2 ⟨rfl, hid⟩
  unfold transfer
  rw [Program.bind_of_ok (StoreM.ofExcept_eq_ok_iff.2 ⟨hitem, rfl⟩),
    Program.bind_of_ok (Program.discard_of_ok (Holdings.require_eq_ok_iff.2 ⟨hrecord, rfl⟩)),
    Program.bind_of_ok ((Holdings.ensureOwner_eq_ok_iff (u := ()) hrecord).2 ⟨rfl, rfl⟩)]
  exact ⟨final, Program.bind_of_error hmove _⟩

variable {σ : Type} [Currency σ] {market : Market σ}

/-- What the owner of a token is answered and what is left where its roster is full. -/
theorem act_transfer_of_full (h : market.Reachable) (hid : 0 ≤ id ∧ id ≤ Argument.largestId)
    (hrecord : market.store.contents.tokens[id]? = some record)
    (hfull : ¬ market.store.contents.tokensOf.HasRoom market.store.limits.tokensPerAccount record.owner) :
    act record.owner (.transfer (.int id)) market =
      .ok (.refused (.tokensFull record.owner market.store.limits.tokensPerAccount)) market := by
  obtain ⟨final, hfails⟩ := transfer_eq_error h.sound.tokensOf hid hrecord hfull market.store.ceiling
  have hperform : perform record.owner (.transfer (.int id)) market =
      .error (.refused (.tokensFull record.owner market.store.limits.tokensPerAccount))
        { market with store := final } := by
    rw [← Store.eq_idle h.idle] at hfails
    exact liftM_eq_error_iff.2 ⟨final, hfails, rfl⟩
  rw [act_eq _ _ h.idle, hperform]

/-- The refusal can be told, unless the owner is a number that is too long: a roster that is full is no longer
than there are numbers of tokens. -/
theorem report?_of_full (h : market.Reachable) (hceiling : market.store.ceiling ≤ Argument.largestId)
    {account : AccountId} (haccount : ∀ n, account = .number n → Text.isWritable n)
    (hfull : market.store.limits.tokensPerAccount ≤ market.store.contents.tokenCount account) :
    let refusal : Refusal := .tokensFull account market.store.limits.tokensPerAccount
    refusal.report? = some refusal.report := by
  have hlimit : Text.isWritable market.store.limits.tokensPerAccount := by
    have hcount := h.sound.tokenCount_le account
    have hlargest : Text.isWritable Argument.largestId.toNat := by decide +kernel
    exact Text.isWritable_of_le (by omega) hlargest
  refine if_pos ?_
  show (account.toValue.integers ++ [(market.store.limits.tokensPerAccount : Int)]).all Text.isWritable
  rw [List.all_append, account.all_integers haccount, List.all_cons, hlimit]
  rfl

/-! ## Both cases -/

theorem transfer_done_iff (h : market.Reachable) (hid : 0 ≤ id ∧ id ≤ Argument.largestId)
    (hrecord : market.store.contents.tokens[id]? = some record) :
    (∃ receipt, market.answer ⟨record.owner, .transfer (.int id)⟩ = .ok (.done receipt)) ↔
      market.store.contents.tokenCount record.owner < market.store.limits.tokensPerAccount := by
  rw [← h.sound.hasRoom_tokensOf_iff]
  constructor
  · rintro ⟨_, hdone⟩
    obtain ⟨_, _, hdoes, -⟩ := (answer_eq_done_iff h.idle).1 hdone
    cases hdoes with
    | transfer _ _ _ hroom => exact hroom
  · intro hroom
    exact ⟨_, answer_of_does h.idle
      (.transfer (Argument.itemId_eq_ok_iff.2 ⟨rfl, hid⟩) hrecord rfl hroom) rfl⟩

/-- All that a transfer leaves is the record of one event. -/
theorem after_transfer_of_done (h : market.Reachable) {caller : AccountId} {receipt : Receipt}
    (hdone : market.answer ⟨caller, .transfer (.int id)⟩ = .ok (.done receipt)) :
    market.after ⟨caller, .transfer (.int id)⟩ =
      { market with
        events := { market.events with
          records := market.events.records ++
            [[("timestamp", .string market.events.time), ("sequence", .int (market.events.sequence + 1)),
              ("event_type", .string "TokenTransferred"), ("method", .string "transfer"),
              ("caller", caller.toValue), ("token_id", .int id), ("owner", caller.toValue)]]
          sequence := market.events.sequence + 1 } } := by
  obtain ⟨contents, paid, hdoes, hsettles, hafter⟩ := after_of_done h.idle hdone
  obtain ⟨rfl, rfl⟩ := h.sound.transferred_eq hdoes
  cases hsettles
  rw [hafter, ← Store.eq_idle h.idle,
    EventLog.log_of_nodup (nodup_eventFields caller (.transferred id caller))]
  rfl

/-- **A transfer to the owner leaves everything as it was.** In a market that has come about in whatever way,
and that gives out no numbers above the largest id, the owner of a token may transfer it exactly if the records
name it as the owner of fewer tokens than it may have. Then records, rosters, counters and funds are as they
were, every roster in its order, and all that is new is the record of one event, which tells of the transfer.
Otherwise the owner is refused because its roster is full, and everything is as it was, without an event. -/
theorem transfer_to_owner_leaves_everything (h : market.Reachable)
    (hceiling : market.store.ceiling ≤ Argument.largestId)
    (hrecord : market.store.contents.tokens[id]? = some record) :
    let call : Call := ⟨record.owner, .transfer (.int id)⟩
    let refusal : Refusal := .tokensFull record.owner market.store.limits.tokensPerAccount
    ((∃ receipt, market.answer call = .ok (.done receipt)) ↔
        market.store.contents.tokenCount record.owner < market.store.limits.tokensPerAccount) ∧
      (∀ receipt, market.answer call = .ok (.done receipt) →
        market.after call =
          { market with
            events := { market.events with
              records := market.events.records ++
                [[("timestamp", .string market.events.time),
                  ("sequence", .int (market.events.sequence + 1)),
                  ("event_type", .string "TokenTransferred"), ("method", .string "transfer"),
                  ("caller", record.owner.toValue), ("token_id", .int id),
                  ("owner", record.owner.toValue)]]
              sequence := market.events.sequence + 1 } }) ∧
      ((¬ ∃ receipt, market.answer call = .ok (.done receipt)) →
        market.answer call = .ok (.refused refusal) ∧ refusal.report.code = "max_tokens_reached" ∧
          ((∀ n, record.owner = .number n → Text.isWritable n) →
            refusal.report? = some refusal.report) ∧
            market.after call = market) := by
  intro call refusal
  have hid : 0 ≤ id ∧ id ≤ Argument.largestId := by
    have hrange : 0 < id ∧ id ≤ market.store.ceiling := h.sound.number_of_token id record hrecord
    exact ⟨Int.le_of_lt hrange.1, Int.le_trans hrange.2 hceiling⟩
  have hiff := transfer_done_iff h hid hrecord
  refine ⟨hiff, fun _ => after_transfer_of_done h, fun hn => ?_⟩
  have hfull : ¬ market.store.contents.tokenCount record.owner < market.store.limits.tokensPerAccount :=
    fun hroom => hn (hiff.2 hroom)
  have hact : act record.owner (.transfer (.int id)) market = .ok (.refused refusal) market := by
    apply act_transfer_of_full h hid hrecord
    rwa [h.sound.hasRoom_tokensOf_iff]
  refine ⟨?_, rfl, fun hname => report?_of_full h hceiling hname (Nat.le_of_not_lt hfull), ?_⟩
  · unfold answer
    rw [hact]
  · unfold after
    rw [hact]

/-- An account transfers the token that it owns to itself. Where it may own no more than one, it is refused. -/
theorem transfer_to_owner_leaves_everything_trades :
    let record : Token :=
      { id := 1, edition := 1, creator := "studio", owner := .name "bob", name := "Dawn",
        price := some 10, mimeType := "image/png", uri := "ipfs://dawn" }
    let call : Call := ⟨.name "bob", .transfer (.int 1)⟩
    let roomy := funded.run (trades.take 5)
    let full :=
      (opened { tokensPerAccount := 1 } 10 0 0 funded.funds funded.events Method.settings).run (trades.take 5)
    (roomy.Reachable ∧ roomy.store.ceiling ≤ Argument.largestId ∧
        roomy.store.contents.tokens[(1 : ItemId)]? = some record ∧
          (roomy.after call).store = roomy.store ∧
            (roomy.after call).events.records.length = roomy.events.records.length + 1) ∧
      full.Reachable ∧ full.store.ceiling ≤ Argument.largestId ∧
        full.store.contents.tokens[(1 : ItemId)]? = some record ∧
          full.answer call = .ok (.refused (.tokensFull (.name "bob") 1)) ∧ full.after call = full := by
  intro record call roomy full
  have hroomy : roomy.Reachable :=
    (Reachable.opened default 10 (Int.le_refl 0) (Int.le_refl 0) _ _ _).run (trades.take 5)
  have hfull : full.Reachable :=
    (Reachable.opened { tokensPerAccount := 1 } 10 (Int.le_refl 0) (Int.le_refl 0) _ _ _).run
      (trades.take 5)
  have hceiling : roomy.store.ceiling ≤ Argument.largestId := by decide +kernel
  have hlow : full.store.ceiling ≤ Argument.largestId := by decide +kernel
  have hrecord : roomy.store.contents.tokens[(1 : ItemId)]? = some record := by decide +kernel
  have hsame : full.store.contents.tokens[(1 : ItemId)]? = some record := by decide +kernel
  obtain ⟨hiff, hdone, -⟩ := transfer_to_owner_leaves_everything hroomy hceiling hrecord
  obtain ⟨receipt, ha⟩ := hiff.2 (by decide +kernel)
  have hleft : roomy.after call = _ := hdone receipt ha
  obtain ⟨hnot, -, hrefused⟩ := transfer_to_owner_leaves_everything hfull hlow hsame
  obtain ⟨hrefusal, -, -, hafter⟩ := hrefused fun hr => absurd (hnot.1 hr) (by decide +kernel)
  have hevents : (roomy.after call).events.records.length = roomy.events.records.length + 1 := by
    rw [hleft]
    exact List.length_append
  exact ⟨⟨hroomy, hceiling, hrecord, by rw [hleft], hevents⟩, hfull, hlow, hsame, hrefusal, hafter⟩

end Market

end EditionMarket
