import EditionMarket.Proofs.Market.Rule
import Mathlib.Data.List.Induction

/-!
# Runs of a market

A run is a series of calls, one after the other, whatever each of them is answered. This file says what a
call is answered, what market it leaves and what its receipt is, and the same for whole runs.

Main statements: `after_cases`, what a call leaves, and `history_invariant` and `run_invariant`, what every
rule preserves holds after every run.
-/

namespace EditionMarket

/-- A call: an account asks for an action. -/
structure Call where
  caller : AccountId
  action : Action
deriving DecidableEq

/-- A call whose action was completed, and its receipt. -/
structure Deed where
  call : Call
  receipt : Receipt
deriving DecidableEq

namespace Market

variable {σ : Type}

/-- A market that has just opened: its store has nothing in it but the numbers at which its counters
start. -/
def opened (limits : Limits) (ceiling lastEdition lastToken : Int) (funds : σ) (events : EventLog)
    (methods : Method → MethodSettings) : Market σ where
  store := .idle limits ceiling { lastEdition := lastEdition, lastToken := lastToken }
  funds := funds
  events := events
  methods := methods

variable [Currency σ]

/-! ## Calls -/

/-- What a call is answered. -/
def answer (market : Market σ) (call : Call) : Except Fault Answer :=
  match act call.caller call.action market with
  | .ok answer _ => .ok answer
  | .error fault _ => .error fault

/-- The market after a call. -/
def after (market : Market σ) (call : Call) : Market σ :=
  match act call.caller call.action market with
  | .ok _ next => next
  | .error _ next => next

/-- What a call did, if its action was completed. -/
def receipt? (market : Market σ) (call : Call) : Option Receipt :=
  match market.answer call with
  | .ok (.done receipt) => some receipt
  | _ => none

/-- A completed action has been allowed by its rule, and leaves what the rule says. -/
theorem does_of_perform {market next : Market σ} {caller : AccountId} {action : Action}
    {receipt : Receipt} (hn : market.store.journal = none)
    (hp : perform caller action market = .ok receipt next) :
    ∃ contents paid,
      market.store.contents.Does market.store.limits market.store.ceiling caller action receipt
          contents ∧
        Currency.Settles market.funds paid receipt.payment? ∧
          next = ⟨.idle market.store.limits market.store.ceiling contents, paid, market.events,
            market.methods⟩ := by
  obtain ⟨store, funds, events, methods⟩ := market
  rw [show store = .idle store.limits store.ceiling store.contents from Store.eq_idle hn] at hp
  exact perform_eq_ok_iff.1 hp

theorem receipt?_eq_some_iff {market : Market σ} {call : Call} {receipt : Receipt} :
    market.receipt? call = some receipt ↔ market.answer call = .ok (.done receipt) := by
  unfold receipt?
  constructor
  · intro h
    split at h
    case h_1 ha =>
      cases h
      exact ha
    case h_2 => cases h
  · intro h
    rw [h]

/-- What a call leaves that is done: the contents of its rule, the funds after its payment, and its event. -/
theorem after_of_done {market : Market σ} {call : Call} {receipt : Receipt}
    (hn : market.store.journal = none) (h : market.answer call = .ok (.done receipt)) :
    ∃ contents paid,
      market.store.contents.Does market.store.limits market.store.ceiling call.caller call.action
          receipt contents ∧
        Currency.Settles market.funds paid receipt.payment? ∧
          market.after call =
            ⟨.idle market.store.limits market.store.ceiling contents, paid,
              market.events.log receipt.kind.text (eventFields call.caller receipt),
              market.methods⟩ := by
  unfold answer at h
  unfold after
  rw [act_eq call.caller call.action hn] at h ⊢
  cases hp : perform call.caller call.action market with
  | error fault next =>
    rw [hp] at h
    cases fault <;> cases h
  | ok found next =>
    rw [hp] at h
    cases h
    obtain ⟨contents, paid, hdoes, hsettles, rfl⟩ := does_of_perform hn hp
    exact ⟨contents, paid, hdoes, hsettles, rfl⟩

/-- A call whose action is completed has its receipt, and leaves what the rules say. A call whose action
is not completed has none, and leaves the store as it was. -/
theorem after_cases (market : Market σ) (call : Call) (hn : market.store.journal = none) :
    (∃ receipt contents paid,
        market.store.contents.Does market.store.limits market.store.ceiling call.caller call.action
            receipt contents ∧
          Currency.Settles market.funds paid receipt.payment? ∧
            market.receipt? call = some receipt ∧
              (market.after call).store =
                  .idle market.store.limits market.store.ceiling contents ∧
                (market.after call).funds = paid) ∨
      (market.receipt? call = none ∧ (market.after call).store = market.store) := by
  unfold receipt? answer after
  rw [act_eq call.caller call.action hn]
  cases hp : perform call.caller call.action market with
  | error fault next =>
    right
    cases fault <;> exact ⟨rfl, rfl⟩
  | ok receipt next =>
    left
    obtain ⟨contents, paid, hdoes, hsettles, rfl⟩ := does_of_perform hn hp
    exact ⟨receipt, contents, paid, hdoes, hsettles, rfl, rfl, rfl⟩

/-- A receipt tells that the rule for it allowed the call, that the payment, if there was one, was made, and
that the market now has what the rule leaves. -/
theorem does_of_receipt? {market : Market σ} {call : Call} {receipt : Receipt}
    (hn : market.store.journal = none) (hr : market.receipt? call = some receipt) :
    market.store.contents.Does market.store.limits market.store.ceiling call.caller call.action receipt
        (market.after call).store.contents ∧
      Currency.Settles market.funds (market.after call).funds receipt.payment? := by
  obtain ⟨contents, paid, hdoes, hsettles, ha⟩ := after_of_done hn (receipt?_eq_some_iff.1 hr)
  rw [ha]
  exact ⟨hdoes, hsettles⟩

/-! ## Runs -/

/-- The market after a run of calls. -/
def run (market : Market σ) (calls : List Call) : Market σ := calls.foldl after market

/-- The receipts of a run, in order. -/
def receipts (market : Market σ) : List Call → List Receipt
  | [] => []
  | call :: rest => (market.receipt? call).toList ++ receipts (market.after call) rest

/-- The deeds of a run, in order. -/
def deeds (market : Market σ) : List Call → List Deed
  | [] => []
  | call :: rest => ((market.receipt? call).map (Deed.mk call)).toList ++ deeds (market.after call) rest

theorem run_append (market : Market σ) (first second : List Call) :
    market.run (first ++ second) = (market.run first).run second :=
  List.foldl_append

theorem run_concat (market : Market σ) (calls : List Call) (call : Call) :
    market.run (calls ++ [call]) = (market.run calls).after call :=
  run_append market calls [call]

theorem receipts_append (market : Market σ) (first second : List Call) :
    market.receipts (first ++ second) =
      market.receipts first ++ (market.run first).receipts second := by
  induction first generalizing market with
  | nil => rfl
  | cons call rest ih =>
    show (market.receipt? call).toList ++ receipts (market.after call) (rest ++ second) = _
    rw [ih, ← List.append_assoc]
    rfl

theorem receipts_concat (market : Market σ) (calls : List Call) (call : Call) :
    market.receipts (calls ++ [call]) =
      market.receipts calls ++ ((market.run calls).receipt? call).toList := by
  rw [receipts_append]
  simp [receipts]

theorem deeds_append (market : Market σ) (first second : List Call) :
    market.deeds (first ++ second) = market.deeds first ++ (market.run first).deeds second := by
  induction first generalizing market with
  | nil => rfl
  | cons call rest ih =>
    show ((market.receipt? call).map _).toList ++ deeds (market.after call) (rest ++ second) = _
    rw [ih, ← List.append_assoc]
    rfl

theorem deeds_concat (market : Market σ) (calls : List Call) (call : Call) :
    market.deeds (calls ++ [call]) =
      market.deeds calls ++ (((market.run calls).receipt? call).map (Deed.mk call)).toList := by
  rw [deeds_append]
  simp [deeds]

/-- The receipts of a run are those of its deeds. -/
theorem map_receipt_deeds (market : Market σ) (calls : List Call) :
    (market.deeds calls).map Deed.receipt = market.receipts calls := by
  induction calls generalizing market with
  | nil => rfl
  | cons call rest ih =>
    simp only [deeds, receipts, List.map_append, ih]
    cases market.receipt? call <;> rfl

/-- A run changes nothing of the store but its contents. -/
theorem run_store_eq {market : Market σ} (calls : List Call) (hn : market.store.journal = none) :
    (market.run calls).store =
      .idle market.store.limits market.store.ceiling (market.run calls).store.contents := by
  induction calls using List.reverseRecOn with
  | nil => exact Store.eq_idle hn
  | append_singleton calls call ih =>
    have hcalls : (market.run calls).store.journal = none := by
      rw [ih]
      rfl
    rw [run_concat]
    rcases (market.run calls).after_cases call hcalls with
      ⟨_, contents, _, -, -, -, ha, -⟩ | ⟨-, ha⟩
    · rw [ha, ih]
      rfl
    · rw [ha]
      exact ih

theorem limits_run {market : Market σ} (calls : List Call) (hn : market.store.journal = none) :
    (market.run calls).store.limits = market.store.limits := by
  rw [run_store_eq calls hn]
  rfl

/-- After every call the transaction around its action is closed. -/
theorem journal_run {market : Market σ} (calls : List Call) (hn : market.store.journal = none) :
    (market.run calls).store.journal = none := by
  rw [run_store_eq calls hn]
  rfl

/-- What holds at the start and is preserved by the rule of every call holds after the run. It may be about
the deeds so far as well as about the contents of the store. -/
theorem history_invariant {market : Market σ} {calls : List Call}
    (Inv : List Deed → Contents → Prop) (hn : market.store.journal = none)
    (hstart : Inv [] market.store.contents)
    (hstep : ∀ call ∈ calls, ∀ past contents receipt next, Inv past contents →
      contents.Does market.store.limits market.store.ceiling call.caller call.action receipt next →
        Inv (past ++ [⟨call, receipt⟩]) next) :
    Inv (market.deeds calls) (market.run calls).store.contents := by
  -- The last call starts where the run before it has ended, so the run is taken apart at its end.
  induction calls using List.reverseRecOn with
  | nil => exact hstart
  | append_singleton calls call ih =>
    have hinv := ih fun earlier hm => hstep earlier (List.mem_append_left _ hm)
    have hstore := run_store_eq calls hn
    rw [run_concat, deeds_concat]
    rcases (market.run calls).after_cases call (journal_run calls hn) with
      ⟨receipt, contents, _, hdoes, -, hr, ha, -⟩ | ⟨hr, ha⟩
    · have hlimits : (market.run calls).store.limits = market.store.limits := by
        rw [hstore]
        rfl
      have hceiling : (market.run calls).store.ceiling = market.store.ceiling := by
        rw [hstore]
        rfl
      rw [hlimits, hceiling] at hdoes
      rw [hr, ha]
      exact hstep call (by simp) _ _ _ _ hinv hdoes
    -- A call that is not completed adds no deed and leaves the contents alone.
    · rw [hr, ha, Option.map_none, Option.toList_none, List.append_nil]
      exact hinv

/-- The same for what is about the receipts so far, and not about who has made which call. -/
theorem run_invariant {market : Market σ} {calls : List Call}
    (Inv : List Receipt → Contents → Prop) (hn : market.store.journal = none)
    (hstart : Inv [] market.store.contents)
    (hstep : ∀ call ∈ calls, ∀ past contents receipt next, Inv past contents →
      contents.Does market.store.limits market.store.ceiling call.caller call.action receipt next →
        Inv (past ++ [receipt]) next) :
    Inv (market.receipts calls) (market.run calls).store.contents := by
  rw [← map_receipt_deeds]
  apply history_invariant (fun past contents => Inv (past.map Deed.receipt) contents) hn hstart
  intro call hm past contents receipt next hinv hdoes
  rw [List.map_append]
  exact hstep call hm _ _ _ _ hinv hdoes

end Market

end EditionMarket
