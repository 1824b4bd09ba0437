import EditionMarket.Proofs.Ledger
import EditionMarket.Proofs.Market.Conservation
import EditionMarket.Proofs.Market.Funds

/-!
# The events of a run determine its ledger

A completed call leaves one event and a call that is not completed leaves none. This file proves that the
events are enough: from the ledger at the start and what the events tell, without their times and numbers,
the ledger at the end is obtained, with every owner and count, every price, every roster in its order, both
counters and all balances.

Main statements: `Ledger.carry_of_does`, one event carries the ledger on as its rule carries on the market,
and `events_determine_ledger`, the same for whole runs.
-/

namespace EditionMarket

/-! ## The ledger of a market -/

/-- What a ledger says of the edition. -/
def Edition.entry (edition : Edition) : EditionEntry where
  creator := edition.creator
  price := edition.price
  supply := edition.supply
  issued := edition.issued
  destroyed := edition.destroyed

/-- What a ledger says of the token. -/
def Token.entry (token : Token) : TokenEntry where
  edition := token.edition
  owner := token.owner
  price := token.price

namespace Ledger

/-- What can be told of a market with these contents of its store and this bank. -/
def of (contents : Contents) (bank : Bank) : Ledger where
  owners := contents.creators.image Creator.owner
  creatorsOf := contents.creatorsOf.image Roster.items
  editions := contents.editions.image Edition.entry
  editionsOf := contents.editionsOf.image Roster.items
  tokens := contents.tokens.image Token.entry
  tokensOf := contents.tokensOf.image Roster.items
  lastEdition := contents.lastEdition
  lastToken := contents.lastToken
  balances := bank.balances

/-! ## What the effects of the rules look like -/

section Effects

variable {limits : Limits} {contents : Contents} {bank : Bank} {id : ItemId}

theorem of_issued {source : Edition} {receiver : AccountId}
    (hsource : contents.editions[id]? = some source) (hid : source.id = id)
    (hissued : source.issueOne.issued = source.issued + 1)
    (hroom : contents.tokensOf.HasRoom limits.tokensPerAccount receiver) :
    of (contents.issued limits id source receiver) bank =
      (of contents bank).issue id (contents.lastToken + 1) receiver := by
  have hedition : source.issueOne.entry = source.entry.issueOne := by
    unfold Edition.entry EditionEntry.issueOne
    rw [hissued]
    rfl
  have htoken : (Token.issue receiver (contents.lastToken + 1) source).entry = ⟨id, receiver, none⟩ := by
    rw [← hid]
    rfl
  unfold issue of Contents.issued
  simp only [Table.image_enrolled hroom, Table.image_put contents.tokens, htoken,
    Table.image_put_of_eq_some hsource hedition]

theorem of_moved {token : Token} {owner receiver : AccountId}
    (htoken : contents.tokens[id]? = some token)
    (hroom : contents.tokensOf.HasRoom limits.tokensPerAccount receiver) :
    of (contents.moved limits id token owner receiver) bank =
      (of contents bank).move id owner receiver := by
  have hentry : ({ token with owner := receiver } : Token).entry = token.entry.goTo receiver := rfl
  unfold move of Contents.moved
  simp only [Table.image_struck, Table.image_enrolled hroom,
    Table.image_put_of_eq_some htoken hentry]

theorem of_priced {token : Token} (htoken : contents.tokens[id]? = some token) (price : Option Int) :
    of (contents.priced id token price) bank = (of contents bank).setPrice id price := by
  have hentry : ({ token with price := price } : Token).entry = token.entry.withPrice price := rfl
  unfold setPrice of Contents.priced
  simp only [Table.image_put_of_eq_some htoken hentry]

theorem of_launchPriced {source : Edition} (hsource : contents.editions[id]? = some source)
    (price : Int) :
    of (contents.launchPriced id source price) bank =
      { of contents bank with
        editions := (of contents bank).editions.change id (EditionEntry.withPrice price) } := by
  have hentry : ({ source with price := price } : Edition).entry = source.entry.withPrice price := rfl
  unfold of Contents.launchPriced
  simp only [Table.image_put_of_eq_some hsource hentry]

theorem of_burned {token : Token} {source : Edition}
    (hsource : contents.editions[token.edition]? = some source)
    (hsupply : source.burnOne.supply = source.supply - 1)
    (hdestroyed : source.burnOne.destroyed = source.destroyed + 1) :
    of (contents.burned id token source) bank =
      { of contents bank with
        editions := (of contents bank).editions.change token.edition EditionEntry.burnOne
        tokens := (of contents bank).tokens.drop id
        tokensOf := (of contents bank).tokensOf.swappedOut token.owner id } := by
  have hentry : source.burnOne.entry = source.entry.burnOne := by
    unfold Edition.entry EditionEntry.burnOne
    rw [hsupply, hdestroyed]
    rfl
  unfold of Contents.burned
  simp only [Table.image_drop, Table.image_struck, Table.image_put_of_eq_some hsource hentry]

end Effects

/-! ## Calls -/

variable {limits : Limits} {ceiling : Int} {contents next : Contents} {caller : AccountId}
  {action : Action} {receipt : Receipt} {past : List Receipt} {bank paid : Bank}

/-- The receipt of a rule says what the rule has done. -/
theorem enter_of_does (h : contents.Balanced past)
    (hdoes : contents.Does limits ceiling caller action receipt next) :
    (of contents bank).enter caller receipt = of next bank := by
  cases hdoes with
  | createAccount _ _ hroom =>
    unfold enter of Contents.registered
    simp only [Table.image_put, Table.image_enrolled hroom]
  | dropAccount =>
    unfold enter of Contents.released
    simp only [Table.image_set, Table.image_struck, decide_eq_true_eq]
    split <;> rfl
  | mint _ _ _ _ _ _ _ _ hroom =>
    unfold enter of Contents.minted
    simp only [Table.image_put, Table.image_enrolled hroom]
    rfl
  | launchGift _ _ _ _ _ _ hsource _ hleft _ hroom =>
    have haccounted := (h.editions _ _ hsource).2
    have hissued := (haccounted.issued_issueOne hleft).2
    exact (of_issued hsource haccounted.id_eq hissued hroom).symm
  | launchBuy _ _ hsource _ _ _ hleft _ hroom =>
    have haccounted := (h.editions _ _ hsource).2
    have hissued := (haccounted.issued_issueOne hleft).2
    exact (of_issued hsource haccounted.id_eq hissued hroom).symm
  | buy _ _ hrecord _ _ _ hroom =>
    unfold enter
    rw [of_priced Contents.tokens_moved_self, of_moved hrecord hroom]
  | transfer _ hrecord _ hroom => exact (of_moved hrecord hroom).symm
  | list _ _ hrecord => exact (of_priced hrecord _).symm
  | unlist _ hrecord => exact (of_priced hrecord _).symm
  | setLaunchPrice _ _ _ _ _ _ hsource => exact (of_launchPriced hsource _).symm
  | setPrice _ _ hrecord => exact (of_priced hrecord _).symm
  | burn _ hrecord howner hsource =>
    subst howner
    -- The token is there, so its edition has supply to take a unit from, and no count is cut off.
    have haccounted := (h.editions _ _ hsource).2
    obtain ⟨hsupply, hdestroyed⟩ := haccounted.supply_burnOne (live_pos hrecord)
    exact (of_burned hsource hsupply hdestroyed).symm

/-- A payment that is settled is the one that the ledger makes. -/
theorem settle_of_settles {payment? : Option Payment} (h : Currency.Settles bank paid payment?) :
    settle bank.balances payment? = paid.balances := by
  cases payment? with
  | none =>
    cases h
    rfl
  | some payment =>
    obtain ⟨payer, payee, amount⟩ := payment
    rw [Bank.eq_of_pay? (Currency.settles_iff_pay?.1 h)]
    -- The bank and the ledger ask in the same way whether there is anything to move.
    show (if amount = 0 ∨ payer = payee then _ else _) = Bank.balances (if _ then _ else _)
    split <;> rfl

/-- One event carries the ledger on as its rule carries on the market. -/
theorem carry_of_does (h : contents.Balanced past)
    (hdoes : contents.Does limits ceiling caller action receipt next)
    (hsettles : Currency.Settles bank paid receipt.payment?) :
    (of contents bank).carry caller receipt = of next paid := by
  unfold carry
  rw [enter_of_does h hdoes, show (of contents bank).balances = bank.balances from rfl,
    settle_of_settles hsettles]
  rfl

end Ledger

/-! ## Events of a run -/

namespace Market

section Events

variable {σ : Type} [Currency σ] {market : Market σ} {call : Call}

/-- A completed call has its event logged. -/
theorem events_after {receipt : Receipt} (hn : market.store.journal = none)
    (hr : market.receipt? call = some receipt) :
    (market.after call).events =
      market.events.log receipt.kind.text (eventFields call.caller receipt) := by
  obtain ⟨_, _, -, -, hafter⟩ := after_of_done hn (receipt?_eq_some_iff.1 hr)
  rw [hafter]

/-- The record of the event of a deed, if it is the event of the given number. -/
def eventRecord (time : String) (number : Nat) (deed : Deed) : EventRecord :=
  .stamp time number deed.receipt.kind.text (eventFields deed.call.caller deed.receipt)

/-- A log that was empty at the start has one record for each deed, numbered from one. -/
theorem events_run [Currency.Reliable σ] {time : String} (calls : List Call)
    (hn : market.store.journal = none) (hevents : market.events = { time := time }) :
    (market.run calls).events =
      { time := time
        records := (market.deeds calls).mapIdx fun n deed => eventRecord time (n + 1) deed
        sequence := (market.deeds calls).length } := by
  induction calls using List.reverseRecOn with
  | nil => exact hevents
  | append_singleton calls call ih =>
    have hcalls : (market.run calls).store.journal = none := journal_run calls hn
    rw [run_concat, deeds_concat]
    cases hr : (market.run calls).receipt? call with
    -- A call without a receipt leaves the whole market as it was, and so the log.
    | none =>
      rw [after_eq_of_receipt?_eq_none hcalls hr, Option.map_none, Option.toList_none, List.append_nil]
      exact ih
    -- The event of the last deed is the last record, and its number is the length of the log.
    | some receipt =>
      rw [events_after hcalls hr, ih, Option.map_some, Option.toList_some, List.mapIdx_concat,
        List.length_append, List.length_singleton]
      rfl

end Events

/-- The number that the record of an event shows is its own. -/
theorem number?_eventRecord (time : String) (number : Nat) (deed : Deed) :
    Fields.number? (eventRecord time number deed) "sequence" = some number := by
  obtain ⟨call, receipt⟩ := deed
  cases receipt <;> rfl

/-- To replay what the events of a run tell gives the ledger at its end. -/
theorem replay_run (limits : Limits) (ceiling lastEdition lastToken : Int) (bank : Bank)
    (time : String) (methods : Method → MethodSettings) (calls : List Call) :
    let start := opened limits ceiling lastEdition lastToken bank { time := time } methods
    let final := start.run calls
    (Ledger.of start.store.contents bank).replay? (final.events.records.map EventRecord.told) =
      some (Ledger.of final.store.contents final.funds) := by
  intro start final
  -- The events of the run are those before its last call, and the one of that call if it was completed.
  induction calls using List.reverseRecOn with
  | nil => rfl
  | append_singleton calls call ih =>
    have hn : (start.run calls).store.journal = none := journal_run calls rfl
    have hbalanced : (start.run calls).store.contents.Balanced (start.receipts calls) :=
      balanced_run limits ceiling lastEdition lastToken bank { time := time } methods calls
    have hfinal : final = (start.run calls).after call := run_concat start calls call
    rw [hfinal]
    cases hr : (start.run calls).receipt? call with
    | none =>
      rw [after_eq_of_receipt?_eq_none hn hr]
      exact ih
    | some receipt =>
      obtain ⟨hdoes, hsettles⟩ := does_of_receipt? hn hr
      have hcarry := Ledger.carry_of_does hbalanced hdoes hsettles
      rw [events_after hn hr]
      unfold EventLog.log
      rw [List.map_append, List.map_singleton, Ledger.replay?_concat, ih, Option.bind_some,
        Ledger.step?_told, hcarry]

/-- **The events determine the ledger.** Whatever calls are made at a market with a bank and an empty log:
the log has one record for each call that was completed, in the order of the calls and numbered from one, and
no other; and to replay what the records tell, from the ledger of the market at the start, gives the ledger
of the market at the end. -/
theorem events_determine_ledger (limits : Limits) (ceiling lastEdition lastToken : Int) (bank : Bank)
    (time : String) (methods : Method → MethodSettings) (calls : List Call) :
    let start := opened limits ceiling lastEdition lastToken bank { time := time } methods
    let final := start.run calls
    let records := final.events.records
    records = ((start.deeds calls).mapIdx fun n deed => eventRecord time (n + 1) deed) ∧
      (∀ (n : Nat) (record : EventRecord), records[n]? = some record →
        Fields.number? record "sequence" = some ((n : Int) + 1)) ∧
      (Ledger.of start.store.contents bank).replay? (records.map EventRecord.told) =
        some (Ledger.of final.store.contents final.funds) := by
  intro start final records
  have hrecords : records = (start.deeds calls).mapIdx fun n deed => eventRecord time (n + 1) deed := by
    show (start.run calls).events.records = _
    rw [events_run calls rfl rfl]
  refine ⟨hrecords, ?_, ?_⟩
  · intro n record hn
    rw [hrecords, List.getElem?_mapIdx, Option.map_eq_some_iff] at hn
    obtain ⟨deed, -, rfl⟩ := hn
    exact number?_eventRecord time (n + 1) deed
  · exact replay_run limits ceiling lastEdition lastToken bank time methods calls

/-- Of the six calls of the trades one is refused. The events of the others tell that the token came back to
its first seller, who has 48 of the 80 that there are. -/
theorem events_determine_ledger_trades :
    let start := opened default 10 0 0 funded.funds { time := "" } Method.settings
    let records := (start.run trades).events.records
    records.length = 5 ∧
      ∃ ledger, (Ledger.of start.store.contents funded.funds).replay?
          (records.map EventRecord.told) = some ledger ∧
        ledger.tokens[(1 : ItemId)]? = some ⟨1, .name "ann", none⟩ ∧
          ledger.balances[AccountId.name "ann"]? = some 48 := by
  dsimp only
  obtain ⟨hrecords, -, hreplay⟩ :=
    events_determine_ledger default 10 0 0 funded.funds "" Method.settings trades
  refine ⟨?_, _, hreplay, ?_, ?_⟩
  · rw [hrecords, List.length_mapIdx]
    decide +kernel
  · decide +kernel
  · decide +kernel

end Market

end EditionMarket
