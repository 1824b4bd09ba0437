import EditionMarket.Market.Filed
import EditionMarket.Proofs.Event.Sinks
import EditionMarket.Proofs.Market.Answered
import EditionMarket.Proofs.Market.Atomicity
import EditionMarket.Proofs.Market.Numbering
import EditionMarket.Proofs.Market.Replay

/-!
# What a call returns

No breach and no full roster ever stops a call to a market that has come about by calls, whatever the
method, the arguments and the caller are: the call is done and has left one event, or it is refused and has
left nothing.

That is not yet to say that the caller gets a value. A refusal is told by a message, and a message that
would have to spell out an integer of too many digits cannot be written. The balance of an account is such
an integer once the account has earned enough, however small all prices are. And where events go to a file, a
record with such an integer in it, say a price, cannot be written there: the call is done, but it leaves no
event and returns nothing.

Main statements: `returns_invoke` and `FiledMarket.returns_carryOut`; `every_call_returns_unless_unwritable`;
`hoard_is_not_told`, a call that is refused and returns no value; and `long_price_is_not_logged`, a call that
is done and returns no value.
-/

namespace EditionMarket

namespace Market

variable {σ : Type} {caller : AccountId} {market : Market σ}

/-- The call comes back from this market. Either it is done, has left one event, and returns the receipt. Or
it is refused, has left nothing, and returns the report, unless the report cannot be written. -/
def Returns (caller : AccountId) (program : MarketM σ Answer) (market : Market σ) : Prop :=
  match program market with
  | .ok (.done receipt) next =>
    market.events.Gains next.events receipt.kind.text (eventFields caller receipt) ∧
      (Answer.done receipt).reply? = some (.object (("success", .bool true) :: receipt.fields))
  | .ok (.refused refusal) next =>
    next = market ∧
      (Answer.refused refusal).reply? =
        if ∃ n ∈ refusal.spelled, Nat.pow 10 Text.mostDigits ≤ n.natAbs then none
        else some refusal.report.toValue
  | .error _ _ => False

/-- A call that has an answer gives that answer, and leaves some market. -/
theorem exists_of_answer_eq_ok [Currency σ] {call : Call} {answer : Answer}
    (h : market.answer call = .ok answer) :
    ∃ next, act call.caller call.action market = .ok answer next := by
  unfold Market.answer at h
  cases hact : act call.caller call.action market with
  | error fault next =>
    rw [hact] at h
    cases h
  | ok given next =>
    rw [hact] at h
    cases h
    exact ⟨next, rfl⟩

/-- A refusal that leaves nothing comes back. -/
theorem Returns.of_refused {program : MarketM σ Answer} {refusal : Refusal}
    (h : program market = .ok (.refused refusal) market) : Returns caller program market := by
  unfold Returns
  rw [h]
  exact ⟨rfl, Answer.reply?_refused refusal⟩

/-- Where every token has its edition, every action comes back. -/
theorem returns_act [Currency σ] [Currency.Reliable σ] (caller : AccountId) (action : Action)
    (hn : market.store.journal = none)
    (htokens : market.store.contents.tokens.All fun _ token =>
      ∃ edition, market.store.contents.editions[token.edition]? = some edition) :
    Returns caller (act caller action) market := by
  have hclean := allOrNothing_act caller action hn
  obtain ⟨answer, hanswer⟩ := answer_eq_ok ⟨caller, action⟩ hn htokens
  obtain ⟨next, hact⟩ : ∃ next, act caller action market = .ok answer next :=
    exists_of_answer_eq_ok hanswer
  -- There is an answer, and the action has been all or nothing: that says what has become of the market.
  unfold AllOrNothing at hclean
  rw [hact] at hclean
  cases answer with
  | refused refusal =>
    obtain rfl : next = market := hclean
    exact .of_refused hact
  | done receipt =>
    have hnext : market.after ⟨caller, action⟩ = next := by
      unfold after
      rw [hact]
    have hevents : market.events.Gains next.events receipt.kind.text (eventFields caller receipt) := by
      rw [← hnext, events_after hn (receipt?_eq_some_iff.2 hanswer)]
      exact EventLog.gains_log (nodup_eventFields caller receipt) _ _
    unfold Returns
    rw [hact]
    exact ⟨hevents, rfl⟩

/-- After any run from an empty market with a bank, a call by any method, arguments and caller comes back.
Nothing stops it: no number is out of turn, no edition of a token is missing, no creator vanishes, and no
roster is full without a refusal. -/
theorem returns_invoke (limits : Limits) (ceiling lastEdition lastToken : Int)
    (bank : Bank) (events : EventLog) (methods : Method → MethodSettings) (calls : List Call)
    (method arguments : Value) (caller : AccountId) :
    Returns caller (invoke method arguments caller)
      ((opened limits ceiling lastEdition lastToken bank events methods).run calls) := by
  have hn : ((opened limits ceiling lastEdition lastToken bank events methods).run
      calls).store.journal = none := journal_run calls rfl
  have hnumbered := numbered_run limits ceiling lastEdition lastToken bank events methods calls
  -- What does not name a method with as many arguments as it takes is refused before any action starts.
  unfold invoke
  cases invoke.named? method with
  | none => exact .of_refused rfl
  | some named =>
    cases arguments with
    | list given =>
      dsimp only
      cases Action.ofArguments? named given with
      | none => exact .of_refused rfl
      | some action =>
        exact returns_act caller action hn (hnumbered.tokens.mono fun _ _ ht => ht.2)
    | _ => exact .of_refused rfl

end Market

/-! ## Markets with event files -/

namespace FiledMarket

variable {σ : Type} {filed : FiledMarket σ} {text : String}

/-- The record of the event that a completed action of the caller leaves next. -/
def nextRecord (filed : FiledMarket σ) (caller : AccountId) (receipt : Receipt) : EventRecord :=
  ("timestamp", .string filed.file.time) :: ("sequence", .int (filed.file.sequence + 1)) ::
    ("event_type", .string receipt.kind.text) :: Market.eventFields caller receipt

/-- The call comes back from this market, whose file has the text. Either it is done, the record of one event
has become a line of the file, and it returns the receipt. Or it is refused, has left nothing, and returns the
report, unless the report cannot be written. Or the record of its event cannot be written: then it is done, has
left no event, and returns nothing. -/
def Returns (caller : AccountId) (program : MarketM σ Answer) (filed : FiledMarket σ) (text : String) : Prop :=
  let long (n : Int) : Prop := Nat.pow 10 Text.mostDigits ≤ n.natAbs
  match carryOut caller program filed with
  | .ok (.done receipt) next =>
    program filed.market = .ok (.done receipt) next.market ∧
      next.files.Holds next.file.path (text ++ (filed.nextRecord caller receipt).line) ∧
        next.file = { filed.file with sequence := filed.file.sequence + 1 } ∧
          (Answer.done receipt).reply? = some (.object (("success", .bool true) :: receipt.fields))
  | .ok (.refused refusal) next =>
    next = filed ∧
      (Answer.refused refusal).reply? =
        if ∃ n ∈ refusal.spelled, long n then none else some refusal.report.toValue
  | .error (.event .record) next =>
    ∃ receipt, program filed.market = .ok (.done receipt) next.market ∧
      (∃ n ∈ Value.integersOfFields (filed.nextRecord caller receipt), long n) ∧
        next.files = filed.files ∧ next.file = { filed.file with sequence := filed.file.sequence + 1 }
  | .error _ _ => False

/-- The record of a new edition cannot be written if its price cannot. -/
theorem not_isWritable_minted (filed : FiledMarket σ) (caller : AccountId) (creator : CreatorId) (id : ItemId)
    (supply : Int) {price : Int} (h : Text.isWritable price = false) :
    ¬ (filed.nextRecord caller (.minted creator id price supply)).isWritable = true := by
  intro hw
  have hfield : ("price", Value.int price) ∈ filed.nextRecord caller (.minted creator id price supply) := by
    simp [nextRecord, Market.eventFields, Receipt.fields]
  have hmem := Value.mem_integersOfFields.2 ⟨_, hfield, List.mem_singleton.2 rfl⟩
  exact absurd (List.all_eq_true.1 hw price hmem) (Bool.eq_false_iff.1 h)

/-- The record that is logged is that one. -/
theorem stamp_eq_nextRecord (filed : FiledMarket σ) (caller : AccountId) (receipt : Receipt) :
    EventRecord.stamp filed.file.time (filed.file.sequence + 1) receipt.kind.text
        (Market.eventFields caller receipt) =
      filed.nextRecord caller receipt :=
  EventRecord.stamp_eq_append (Market.nodup_eventFields caller receipt) _ _ _

section Logging

variable {caller : AccountId} {program : MarketM σ Answer} {receipt : Receipt} {next : Market σ}

/-- If its record can be written, the event of a completed action is a line more. -/
theorem exists_carryOut_of_isWritable (h : program filed.market = .ok (.done receipt) next)
    (hw : (filed.nextRecord caller receipt).isWritable = true)
    (hfile : filed.files.Holds filed.file.path text) :
    ∃ files, carryOut caller program filed = .ok (.done receipt) ⟨next, filed.file.miss, files⟩ ∧
      files.Holds filed.file.path (text ++ (filed.nextRecord caller receipt).line) := by
  rw [← stamp_eq_nextRecord] at hw ⊢
  obtain ⟨files, hlog, hholds⟩ := EventFile.exists_log_of_holds hfile hw
  refine ⟨files, ?_, hholds⟩
  unfold carryOut
  simp only [h, hlog]

/-- If not, no file changes, and what the action did stays. -/
theorem carryOut_of_not_isWritable (h : program filed.market = .ok (.done receipt) next)
    (hw : ¬ (filed.nextRecord caller receipt).isWritable = true) :
    carryOut caller program filed = .error (.event .record) ⟨next, filed.file.miss, filed.files⟩ := by
  rw [← stamp_eq_nextRecord] at hw
  unfold carryOut
  simp only [h, EventFile.log_of_not_isWritable hw]

/-- A call that comes back from a market comes back from the market with a file that is there. -/
theorem returns_carryOut (h : Market.Returns caller program filed.market)
    (hfile : filed.files.Holds filed.file.path text) : filed.Returns caller program text := by
  unfold Market.Returns at h
  unfold Returns
  rcases hp : program filed.market with ⟨receipt | refusal, next⟩ | ⟨fault, next⟩
  case ok.done =>
    rw [hp] at h
    by_cases hw : (filed.nextRecord caller receipt).isWritable = true
    · obtain ⟨files, hcall, hholds⟩ := exists_carryOut_of_isWritable hp hw hfile
      rw [hcall]
      exact ⟨rfl, hholds, rfl, h.2⟩
    · have hlong : ∃ n ∈ Value.integersOfFields (filed.nextRecord caller receipt),
          Nat.pow 10 Text.mostDigits ≤ n.natAbs := by
        simpa [EventRecord.isWritable, Text.isWritable] using hw
      rw [carryOut_of_not_isWritable hp hw]
      exact ⟨receipt, rfl, hlong, rfl, rfl⟩
  case ok.refused =>
    rw [hp] at h
    obtain ⟨rfl, hreply⟩ := h
    unfold carryOut
    rw [hp]
    exact ⟨rfl, hreply⟩
  case error =>
    rw [hp] at h
    cases h

end Logging

variable [Currency σ]

/-- The market after a call, be it answered or not. -/
def after (filed : FiledMarket σ) (call : Call) : FiledMarket σ :=
  match act call.caller call.action filed with
  | .ok _ next => next
  | .error _ next => next

/-- The market after a series of calls. -/
def run (filed : FiledMarket σ) (calls : List Call) : FiledMarket σ := calls.foldl after filed

/-- A call does to the market what it does where there is no file, and a file that was there stays there. -/
theorem after_spec (hfile : filed.files.Holds filed.file.path text) (call : Call) :
    (filed.after call).market = filed.market.after call ∧
      ∃ text, (filed.after call).files.Holds (filed.after call).file.path text := by
  unfold after Market.after act
  rcases hact : Market.act call.caller call.action filed.market with ⟨receipt | refusal, next⟩ | ⟨fault, next⟩
  case ok.done =>
    by_cases hw : (filed.nextRecord call.caller receipt).isWritable = true
    · obtain ⟨files, hcall, hholds⟩ := exists_carryOut_of_isWritable hact hw hfile
      rw [hcall]
      exact ⟨rfl, _, hholds⟩
    · rw [carryOut_of_not_isWritable hact hw]
      exact ⟨rfl, _, hfile⟩
  all_goals
    unfold carryOut
    rw [hact]
    exact ⟨rfl, _, hfile⟩

/-- The same of a series of calls. -/
theorem run_spec (hfile : filed.files.Holds filed.file.path text) (calls : List Call) :
    (filed.run calls).market = filed.market.run calls ∧
      ∃ text, (filed.run calls).files.Holds (filed.run calls).file.path text := by
  induction calls generalizing filed text with
  | nil => exact ⟨rfl, text, hfile⟩
  | cons call rest ih =>
    obtain ⟨hmarket, middle, hmiddle⟩ := after_spec hfile call
    obtain ⟨hrest, hlast⟩ := ih hmiddle
    refine ⟨?_, hlast⟩
    show ((filed.after call).run rest).market = (filed.market.after call).run rest
    rw [hrest, hmarket]

end FiledMarket

namespace Market

/-! ## All calls -/

/-- **Every call returns, unless something cannot be written.** After any run from an empty market with a bank,
a call by any method, arguments and caller is done and leaves one event, or is refused and leaves nothing.
Nothing else stops it: no number is out of turn, no edition of a token is missing, no creator vanishes, and no
roster is full without a refusal. It returns the receipt or the report as a value, with one exception: there is
no report if its message would have to spell out an integer of more than 4300 digits. Where the events go to a
file, whatever files there are, there is one exception more: if the record of the event would have to spell out
such an integer, the call is done, leaves no event, and returns nothing. -/
theorem every_call_returns_unless_unwritable (limits : Limits) (ceiling lastEdition lastToken : Int)
    (bank : Bank) (events : EventLog) (methods : Method → MethodSettings) (calls : List Call)
    (method arguments : Value) (caller : AccountId) :
    let start := opened limits ceiling lastEdition lastToken bank events methods
    Returns caller (invoke method arguments caller) (start.run calls) ∧
      ∀ (file : EventFile) (files : FileTree) (text : String), files.Holds file.path text →
        let filed := (⟨start, file, files⟩ : FiledMarket Bank).run calls
        ∃ text, filed.files.Holds filed.file.path text ∧
          filed.Returns caller (invoke method arguments caller) text := by
  intro start
  have hreturns := returns_invoke limits ceiling lastEdition lastToken bank events methods calls method
    arguments caller
  refine ⟨hreturns, fun file files text hfile => ?_⟩
  have hstart : FileTree.Holds (⟨start, file, files⟩ : FiledMarket Bank).files file.path text := hfile
  obtain ⟨hmarket, last, hlast⟩ := FiledMarket.run_spec hstart calls
  exact ⟨last, hlast, FiledMarket.returns_carryOut (hmarket ▸ hreturns) hlast⟩

theorem every_call_returns_unless_unwritable_misspelt :
    let market : Market Bank := opened default Argument.largestId 0 0 {} { time := "" } Method.settings
    let file : EventFile := { time := "", path := ⟨false, ["events.jsonl"]⟩, logsDir := none, runId := none }
    let files : FileTree := (∅ : FileTree).put ["events.jsonl"] (.file "")
    files.Holds file.path "" ∧
      let filed := (⟨market, file, files⟩ : FiledMarket Bank).run
        [⟨.name "ann", .createAccount (.string "studio")⟩]
      ∃ text, filed.files.Holds filed.file.path text ∧
        filed.Returns (.name "bob") (invoke (.string "buyy") (.list []) (.name "bob")) text := by
  intro market file files
  have hplace : FileTree.place ∅ ⟨false, ["events.jsonl"]⟩ = .ok ["events.jsonl"] := by
    simp [FileTree.place, FileTree.resolve, FileTree.entry?]
  have hfile : files.Holds file.path "" := FileTree.holds_put hplace (.inl rfl) ""
  have h := every_call_returns_unless_unwritable default Argument.largestId 0 0 {} { time := "" }
    Method.settings [⟨.name "ann", .createAccount (.string "studio")⟩] (.string "buyy") (.list []) (.name "bob")
  refine ⟨hfile, ?_⟩
  with_reducible exact h.2 file files "" hfile

/-- A market that has just opened, with a bank that keeps a deposit of 2. An account has the largest balance
that can be written. -/
def hoard : Market Bank :=
  opened default Argument.largestId 0 0
    ((({ deposit := 2 } : Bank).setBalance (.name "ann") (Nat.pow 10 4300 - 1 : Nat)).setBalance
      (.name "bob") 100)
    { time := "" } Method.settings

/-- The account earns one more. -/
def lastStraw : List Call :=
  [⟨.name "ann", .createAccount (.string "studio")⟩,
    ⟨.name "ann", .mint (.string "studio") (.int 1) (.raw (.object
      [("name", .string "Dawn"), ("mime_type", .string "image/png"),
        ("metadata_uri", .string "ipfs://dawn"), ("supply", .int 3)]))⟩,
    ⟨.name "bob", .launchBuy (.int 1) (.int 1)⟩]

/-- Called by its name, with two arguments, it is the action on them. -/
theorem invoke_launchBuy [Currency σ] (edition bid : Value) (caller : AccountId) :
    invoke (.string "launch_buy") (.list [edition, bid]) caller =
      (act caller (.launchBuy edition bid) : MarketM σ Answer) := rfl

/-- The account bids all that it has but the last unit, which is less than the deposit. It is refused, and no
value is returned. -/
theorem hoard_is_not_told :
    ∃ next, invoke (.string "launch_buy") (.list [.int 1, .int (Nat.pow 10 4300 - 1 : Nat)])
        (.name "ann") (hoard.run lastStraw) =
      .ok (.refused (.cannotAfford (Nat.pow 10 4300 - 1 : Nat) (Nat.pow 10 4300 : Nat))) next ∧
    (Answer.refused (.cannotAfford (Nat.pow 10 4300 - 1 : Nat) (Nat.pow 10 4300 : Nat))).reply? =
      none := by
  have hanswer : (hoard.run lastStraw).answer
      ⟨.name "ann", .launchBuy (.int 1) (.int (Nat.pow 10 4300 - 1 : Nat))⟩ =
        .ok (.refused (.cannotAfford (Nat.pow 10 4300 - 1 : Nat) (Nat.pow 10 4300 : Nat))) := by
    decide +kernel
  have hreply : (Answer.refused (.cannotAfford (Nat.pow 10 4300 - 1 : Nat)
      (Nat.pow 10 4300 : Nat))).reply? = none := by
    decide +kernel
  obtain ⟨next, hact⟩ := exists_of_answer_eq_ok hanswer
  exact ⟨next, (congrFun (invoke_launchBuy ..) _).trans hact, hreply⟩

/-- Called by its name, with three arguments, it is the action on them. -/
theorem invoke_mint [Currency σ] (creator price description : Value) (caller : AccountId) :
    invoke (.string "mint") (.list [creator, price, description]) caller =
      (act caller (.mint creator price (.raw description)) : MarketM σ Answer) := rfl

/-- An account mints an edition at a price of 4301 digits, where events go to a file. The edition is there, but
no value is returned, and the file is as it was. -/
theorem long_price_is_not_logged :
    let start : FiledMarket Bank :=
      { market := opened default Argument.largestId 0 0 {} { time := "" } Method.settings
        file := { time := "", path := ⟨false, ["events.jsonl"]⟩, logsDir := none, runId := none }
        files := (∅ : FileTree).put ["events.jsonl"] (.file "") }
    let filed := start.run [⟨.name "ann", .createAccount (.string "studio")⟩]
    let description : Value := .object [("name", .string "Dawn"), ("mime_type", .string "image/png"),
      ("metadata_uri", .string "ipfs://dawn"), ("supply", .int 3)]
    ∃ next, FiledMarket.invoke (.string "mint")
        (.list [.string "studio", .int (Nat.pow 10 4300 : Nat), description]) (.name "ann") filed =
          .error (.event .record) next ∧
      next.files = filed.files ∧ filed.market.store.contents.editions[(1 : ItemId)]? = none ∧
        (next.market.store.contents.editions[(1 : ItemId)]?).map Edition.price =
          some ((Nat.pow 10 4300 : Nat) : Int) := by
  intro start filed description
  let calls : List Call := [⟨.name "ann", .createAccount (.string "studio")⟩]
  let call : Call := ⟨.name "ann", .mint (.string "studio") (.int (Nat.pow 10 4300 : Nat)) (.raw description)⟩
  have hplace : FileTree.place ∅ ⟨false, ["events.jsonl"]⟩ = .ok ["events.jsonl"] := by
    simp [FileTree.place, FileTree.resolve, FileTree.entry?]
  have hfile : start.files.Holds start.file.path "" := FileTree.holds_put hplace (.inl rfl) ""
  have hmarket : filed.market = start.market.run calls := (FiledMarket.run_spec hfile calls).1
  have hanswer : (start.market.run calls).answer call =
      .ok (.done (.minted "studio" 1 (Nat.pow 10 4300 : Nat) 3)) := by
    decide +kernel
  have hedition : (((start.market.run calls).after call).store.contents.editions[(1 : ItemId)]?).map
      Edition.price = some ((Nat.pow 10 4300 : Nat) : Int) := by
    decide +kernel
  have hinvoke : FiledMarket.invoke (.string "mint")
      (.list [.string "studio", .int (Nat.pow 10 4300 : Nat), description]) (.name "ann") =
        (FiledMarket.carryOut call.caller (act call.caller call.action) :
          EStateM FiledMarket.Fault (FiledMarket Bank) Answer) :=
    congrArg (FiledMarket.carryOut (.name "ann")) (invoke_mint ..)
  obtain ⟨next, hact⟩ := exists_of_answer_eq_ok hanswer
  have hafter : (start.market.run calls).after call = next := by
    unfold after
    rw [hact]
  rw [← hmarket] at hact
  rw [hinvoke]
  have hwide : Text.isWritable (Nat.pow 10 4300 : Nat) = false := by decide +kernel
  have hcall := FiledMarket.carryOut_of_not_isWritable hact (filed.not_isWritable_minted call.caller _ _ _ hwide)
  refine ⟨_, hcall, ?_, ?_, ?_⟩
  · with_reducible rfl
  · rw [hmarket]
    decide +kernel
  · rw [← hafter]
    with_reducible exact hedition

end Market

end EditionMarket
