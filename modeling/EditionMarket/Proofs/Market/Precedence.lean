import EditionMarket.Proofs.Market.Answered
import EditionMarket.Proofs.Market.Malformed

/-!
# Which reason a caller is told

Often several things speak against a call at once. This file lists them, each by itself, and proves which
one the caller is told: an action asks one question after the other, and the first reason that it comes
upon is the one that it is refused for. The questions are ordered by stages. First come the arguments, then
whether what is named is there, then whether it is the caller's, then the state of listings and supplies,
then the funds, and last whether there is room.

There is one exception. A launch that is paid for asks for the funds before it asks whether the edition is
sold out.

Main statements: `heeds_perform`, `stages_reasons` and `told_earliest_stage_unless_sold_out`.
-/

namespace EditionMarket

/-! ## Reasons -/

/-- The stage at which a reason is asked for: the arguments (0), whether something is there (1), whose it is
(2), the state of listings and supplies (3), the funds (4), and what is taken, full or used up (5). -/
def Code.stage : Code → Nat
  | invalidArgument => 0
  | notFound => 1
  | notOwner => 2
  | zeroSupply | soldOut | notForSale | unavailable | notListed | alreadyListed | bidTooLow
  | toSelf => 3
  | insufficientFunds => 4
  | creatorTaken | creatorsFull | editionsFull | tokensFull | editionsExhausted
  | tokensExhausted => 5

/-- The supply that a description asks for. -/
def Description.supply? : Description → Option Int
  | raw (.object fields) =>
    match Listing.get? fields "supply" with
    | some (.int n) => some n
    | _ => none
  | raw _ => none
  | ready metadata => some metadata.supply

/-- Metadata have the supply that their description asks for. -/
theorem Description.supply?_of_read_eq_ok {description : Description} {metadata : Metadata}
    (h : description.read = .ok metadata) : description.supply? = some (metadata.supply : Int) := by
  cases description with
  | ready found =>
    cases h
    rfl
  | raw value =>
    cases value with
    | object fields =>
      simp only [supply?]
      rw [(Metadata.heldBy_of_ofValue_eq_ok h).supply]
    | _ => cases h

namespace Action

/-- The token that an action names. -/
def token? : Action → Option ItemId
  | buy (.int id) _ | transfer (.int id) | list (.int id) _ | unlist (.int id)
  | setPrice (.int id) _ | burn (.int id) => some id
  | _ => none

/-- The token that the caller has to own. A token that is to be bought is someone else's. -/
def ownToken? : Action → Option ItemId
  | transfer (.int id) | list (.int id) _ | unlist (.int id) | setPrice (.int id) _
  | burn (.int id) => some id
  | _ => none

/-- The edition that an action names. -/
def edition? : Action → Option ItemId
  | launchGift _ (.int id) _ | launchBuy (.int id) _ | setLaunchPrice _ (.int id) _ => some id
  | _ => none

/-- The edition of which an action issues a token. -/
def launched? : Action → Option ItemId
  | launchGift _ (.int id) _ | launchBuy (.int id) _ => some id
  | _ => none

/-- The creator that the caller has to own. -/
def ownCreator? : Action → Option CreatorId
  | dropAccount (.string id) | mint (.string id) _ _ | launchGift (.string id) _ _
  | setLaunchPrice (.string id) _ _ => some id
  | _ => none

/-- What the caller offers to pay. -/
def bid? : Action → Option Int
  | launchBuy _ (.int bid) | buy _ (.int bid) => some bid
  | _ => none

/-- The account that a token goes to. -/
def receiver? (caller : AccountId) : Action → Option AccountId
  | launchGift _ _ (.string s) => some (.name s)
  | launchBuy _ _ | buy _ _ | transfer _ => some caller
  | _ => none

end Action

/-- What speaks against an action. Every code is taken by itself, whatever else there is to be said. -/
def Contents.Objects {σ : Type} [Currency σ] (limits : Limits) (ceiling : Int) (contents : Contents)
    (funds : σ) (caller : AccountId) (action : Action) : Code → Prop
  | .invalidArgument => ¬ action.WellFormed
  | .notFound =>
    (∃ id, action.token? = some id ∧ contents.tokens[id]? = none) ∨
      ∃ id, action.edition? = some id ∧ contents.editions[id]? = none
  | .notOwner =>
    (∃ id, action.ownToken? = some id ∧
        ∀ record, contents.tokens[id]? = some record → record.owner ≠ caller) ∨
      ∃ creator, action.ownCreator? = some creator ∧
        (caller = .nobody ∨
          (∀ record, contents.creators[creator]? = some record → record.owner ≠ caller) ∨
            ∃ id, action.edition? = some id ∧
              ∀ source, contents.editions[id]? = some source → source.creator ≠ creator)
  | .notForSale => ∃ id bid, action = .buy (.int id) bid ∧
      ∀ record, contents.tokens[id]? = some record → record.price = none
  | .toSelf => ∃ id bid record, action = .buy (.int id) bid ∧
      contents.tokens[id]? = some record ∧ record.owner = caller
  | .bidTooLow =>
    (∃ id bid source, action = .launchBuy (.int id) (.int bid) ∧
        contents.editions[id]? = some source ∧ bid < source.price) ∨
      ∃ id bid record price, action = .buy (.int id) (.int bid) ∧
        contents.tokens[id]? = some record ∧ record.price = some price ∧ bid < price
  | .unavailable => ∃ id bid source, action = .launchBuy (.int id) bid ∧
      contents.editions[id]? = some source ∧
        ∀ record, contents.creators[source.creator]? = some record → record.owner = .nobody
  | .soldOut => ∃ id source, action.launched? = some id ∧
      contents.editions[id]? = some source ∧ source.isSoldOut = true
  | .zeroSupply => ∃ creator price description, action = .mint creator price description ∧
      description.supply? = some 0
  | .alreadyListed => ∃ id price record, action = .list (.int id) price ∧
      contents.tokens[id]? = some record ∧ record.price ≠ none
  | .notListed => ∃ id, (action = .unlist (.int id) ∨ ∃ price, action = .setPrice (.int id) price) ∧
      ∀ record, contents.tokens[id]? = some record → record.price = none
  | .insufficientFunds => ∃ bid, action.bid? = some bid ∧
      ((Currency.canAfford caller bid).run funds).1 = false
  | .creatorTaken => ∃ id, action = .createAccount (.string id) ∧ contents.creators[id]? ≠ none
  | .creatorsFull => ∃ creator, action = .createAccount creator ∧
      ¬ contents.creatorsOf.HasRoom limits.creatorsPerAccount caller
  | .editionsFull => ∃ creator price description, action = .mint (.string creator) price description ∧
      ¬ contents.editionsOf.HasRoom limits.editionsPerCreator creator
  | .editionsExhausted => ∃ creator price description, action = .mint creator price description ∧
      ceiling ≤ contents.lastEdition
  | .tokensFull => ∃ account, action.receiver? caller = some account ∧
      ¬ contents.tokensOf.HasRoom limits.tokensPerAccount account
  | .tokensExhausted => (∃ id, action.launched? = some id) ∧ ceiling ≤ contents.lastToken

/-! ## The first reason -/

section

variable {τ α β : Type} {objects : Code → Prop} {code : Code} {rest : List Code}

/-- The program was refused, and for this reason. -/
def RefusedAs (code : Code) (result : EStateM.Result Fault τ α) : Prop :=
  ∃ refusal final, result = .error (.refused refusal) final ∧ refusal.code = code

/-- If one of the reasons objects, then it was refused for the first one that does. -/
def Heeds (objects : Code → Prop) (result : EStateM.Result Fault τ α) : List Code → Prop
  | [] => True
  | code :: rest =>
    (objects code → RefusedAs code result) ∧ (¬ objects code → Heeds objects result rest)

/-- A program that is refused for one reason only is refused for it whenever it does not succeed. -/
theorem RefusedAs.of_fails {program : EStateM Fault τ α} {state : τ}
    (honly : RefusesOnly [code] program) (hat : RefusesAt program state)
    (hfails : ¬ ∃ value final, program state = .ok value final) :
    RefusedAs code (program state) := by
  unfold RefusesAt at hat
  cases hr : program state with
  | ok value final => exact absurd ⟨value, final, hr⟩ hfails
  | error fault final =>
    rw [hr] at hat
    obtain ⟨refusal, rfl⟩ := hat
    exact ⟨refusal, final, rfl, List.mem_singleton.1 (honly _ _ _ hr)⟩

theorem RefusedAs.bind {first : EStateM Fault τ α} {state : τ} (h : RefusedAs code (first state))
    (next : α → EStateM Fault τ β) : RefusedAs code ((first >>= next) state) := by
  obtain ⟨refusal, final, hr, hcode⟩ := h
  exact ⟨refusal, final, Program.bind_of_error hr next, hcode⟩

namespace Heeds

theorem single {result : EStateM.Result Fault τ α} (h : objects code → RefusedAs code result) :
    Heeds objects result [code] :=
  ⟨h, fun _ => trivial⟩

/-- A program that asks for one reason, and is refused exactly if it objects. -/
theorem bind {first : EStateM Fault τ α} {next : α → EStateM Fault τ β} {state : τ}
    (honly : RefusesOnly [code] first) (hat : RefusesAt first state)
    (hobjects : objects code ↔ ¬ ∃ value final, first state = .ok value final)
    (hnext : ∀ value middle, first state = .ok value middle → Heeds objects (next value middle) rest) :
    Heeds objects ((first >>= next) state) (code :: rest) := by
  constructor
  · intro h
    exact (RefusedAs.of_fails honly hat (hobjects.1 h)).bind next
  · intro h
    obtain ⟨value, middle, hok⟩ := not_not.1 (mt hobjects.2 h)
    rw [Program.bind_of_ok hok]
    exact hnext value middle hok

/-- A condition under which a program stops, and else goes on. -/
theorem stop {c : Prop} [Decidable c] {refuse : EStateM Fault τ Unit}
    {next : Unit → EStateM Fault τ β} {state : τ} (hobjects : objects code ↔ c)
    (hrefuse : RefusedAs code (refuse state)) (hnext : ¬ c → Heeds objects (next () state) rest) :
    Heeds objects ((if c then refuse >>= next else next ()) state) (code :: rest) := by
  constructor
  · intro h
    rw [if_pos (hobjects.1 h)]
    exact hrefuse.bind next
  · intro h
    have hc : ¬ c := mt hobjects.2 h
    rw [if_neg hc]
    exact hnext hc

/-- What follows a program does not change which reason it was refused for. -/
theorem followed {first : EStateM Fault τ α} {state : τ} {codes : List Code}
    (h : Heeds objects (first state) codes) (next : α → EStateM Fault τ β) :
    Heeds objects ((first >>= next) state) codes := by
  induction codes with
  | nil => trivial
  | cons code codes ih => exact ⟨fun ho => (h.1 ho).bind next, fun ho => ih (h.2 ho)⟩

/-- Programs in a row ask for their reasons one after the other, if the first one succeeds where nothing
objects. -/
theorem append {first : EStateM Fault τ α} {next : α → EStateM Fault τ β} {state : τ}
    {codes : List Code} (hfirst : Heeds objects (first state) codes)
    (hpass : (∀ code ∈ codes, ¬ objects code) → ∃ value middle, first state = .ok value middle)
    (hnext : ∀ value middle, first state = .ok value middle → Heeds objects (next value middle) rest) :
    Heeds objects ((first >>= next) state) (codes ++ rest) := by
  induction codes with
  | nil =>
    obtain ⟨value, middle, hok⟩ := hpass nofun
    rw [Program.bind_of_ok hok]
    exact hnext value middle hok
  | cons code codes ih =>
    constructor
    · intro h
      exact (hfirst.1 h).bind next
    · intro h
      apply ih (hfirst.2 h)
      intro hrest
      exact hpass (List.forall_mem_cons.2 ⟨h, hrest⟩)

/-- If a reason objects, then one that objects is what it was refused for, and it is this one or stands
before it. -/
theorem exists_first {result : EStateM.Result Fault τ α} {codes : List Code} {before : Code → Code → Prop}
    (h : Heeds objects result codes) (hp : codes.Pairwise before) (hm : code ∈ codes)
    (ho : objects code) :
    ∃ first, objects first ∧ RefusedAs first result ∧ (first = code ∨ before first code) := by
  induction codes with
  | nil => cases hm
  | cons first rest ih =>
    obtain ⟨hfirst, hrest⟩ := List.pairwise_cons.1 hp
    by_cases hobjects : objects first
    -- The first of the list objects, and all others stand behind it.
    · refine ⟨first, hobjects, h.1 hobjects, ?_⟩
      rcases List.mem_cons.1 hm with rfl | hm
      · exact .inl rfl
      · exact .inr (hfirst code hm)
    · rcases List.mem_cons.1 hm with rfl | hm
      · exact absurd ho hobjects
      · exact ih (h.2 hobjects) hrest hm

end Heeds

end

/-! ## Work on the store -/

section Store

variable {limits : Limits} {ceiling : Int} {contents : Contents} {objects : Code → Prop}
  {caller : AccountId}

/-- A check that passes leaves it to what follows. -/
theorem StoreM.ofExcept_bind {α β : Type} {check : Except Refusal α} {value : α}
    (h : check = .ok value) (next : α → StoreM β) (store : Store) :
    (ofExcept check >>= next) store = next value store :=
  Program.bind_of_ok (ofExcept_eq_ok_iff.2 ⟨h, rfl⟩) next

theorem StoreM.refusedAs_refuse {α : Type} (refusal : Refusal) (store : Store) :
    RefusedAs refusal.code ((refuse refusal : StoreM α) store) :=
  ⟨refusal, store, rfl, rfl⟩

/-- What comes after a roster was asked for room does not refuse any more. -/
theorem Family.IsField.heeds_push_bind {κ ι α : Type} [Ord κ] [Std.TransOrd κ] {family : Family κ ι}
    {get : Contents → Table κ (Roster ι)} {set : Contents → Table κ (Roster ι) → Contents}
    (hf : family.IsField get set) {key : κ} {item : ι} {full : Nat → Refusal} {code : Code}
    (hcode : ∀ limit, (full limit).code = code)
    (hroom : objects code ↔ ¬ (get contents).HasRoom (family.capacity limits) key)
    (next : Unit → StoreM α) :
    Heeds objects
      ((family.push key item (fun limit => .refused (full limit)) >>= next)
        (.idle limits ceiling contents)) [code] := by
  have honly : RefusesOnly [code] (family.push key item fun limit => .refused (full limit)) :=
    family.refusesOnly_push key item fun limit => List.mem_singleton.2 (hcode limit)
  refine Heeds.bind honly (family.refusesAt_push key item full) ?_ fun _ _ _ => trivial
  rw [hroom]
  refine not_congr ⟨fun h => ?_, fun ⟨_, _, h⟩ => (hf.push_eq_ok_iff.1 h).1⟩
  exact ⟨(), _, hf.push_eq_ok_iff.2 ⟨h, rfl⟩⟩

/-- A token that is issued from an edition that is there. -/
theorem Issuance.heeds_issue {id : ItemId} {source : Edition} {receiver : AccountId}
    (hsource : contents.editions[id]? = some source)
    (hsold : objects .soldOut ↔ source.isSoldOut = true)
    (hcount : objects .tokensExhausted ↔ ceiling ≤ contents.lastToken)
    (hroom : objects .tokensFull ↔ ¬ contents.tokensOf.HasRoom limits.tokensPerAccount receiver) :
    Heeds objects (issue id receiver (.idle limits ceiling contents))
      [.soldOut, .tokensExhausted, .tokensFull] := by
  unfold issue
  rw [Program.bind_of_ok (require_eq_ok_iff.2 ⟨hsource, rfl⟩)]
  refine Heeds.stop hsold (StoreM.refusedAs_refuse _ _) fun _ => ?_
  refine Heeds.bind (Numbering.refusesOnly_nextToken (by simp)) Numbering.refusesAt_nextToken ?_
    fun token _ hr => ?_
  · simp [hcount, Numbering.nextToken_eq_ok_iff]
  obtain ⟨-, rfl⟩ := Numbering.nextToken_eq_ok_iff.1 hr
  apply Family.isField_tokensOf.heeds_push_bind
  · intro _
    rfl
  · exact hroom

/-- An edition that is minted. -/
theorem Issuance.heeds_mint {creator : CreatorId} {price : Int} {metadata : Metadata}
    (hsupply : objects .zeroSupply ↔ metadata.supply = 0)
    (hcount : objects .editionsExhausted ↔ ceiling ≤ contents.lastEdition)
    (hroom : objects .editionsFull ↔
      ¬ contents.editionsOf.HasRoom limits.editionsPerCreator creator) :
    Heeds objects (mint creator price metadata (.idle limits ceiling contents))
      [.zeroSupply, .editionsExhausted, .editionsFull] := by
  unfold mint
  refine Heeds.stop hsupply (StoreM.refusedAs_refuse .supplyZero _) fun _ => ?_
  refine Heeds.bind (Numbering.refusesOnly_nextEdition (by simp)) Numbering.refusesAt_nextEdition ?_
    fun edition _ hr => ?_
  · simp [hcount, Numbering.nextEdition_eq_ok_iff]
  obtain ⟨-, rfl⟩ := Numbering.nextEdition_eq_ok_iff.1 hr
  apply Family.isField_editionsOf.heeds_push_bind
  · intro _
    rfl
  · exact hroom

/-- A creator that is registered under an id of its own. -/
theorem Registry.heeds_register {creator : Value} {id : CreatorId} {owner : AccountId}
    (hid : Argument.creatorId creator = .ok id)
    (htaken : objects .creatorTaken ↔ contents.creators[id]? ≠ none)
    (hroom : objects .creatorsFull ↔
      ¬ contents.creatorsOf.HasRoom limits.creatorsPerAccount owner) :
    Heeds objects (register creator owner (.idle limits ceiling contents))
      [.creatorTaken, .creatorsFull] := by
  unfold register
  rw [StoreM.ofExcept_bind hid, Program.bind_of_ok (get?_eq id)]
  refine Heeds.stop (htaken.trans Option.isSome_iff_ne_none.symm) (StoreM.refusedAs_refuse _ _)
    fun _ => ?_
  apply Family.isField_creatorsOf.heeds_push_bind
  · intro _
    rfl
  · exact hroom

/-- A token that has to be there. -/
theorem Holdings.heeds_require_bind {α : Type} {id : ItemId} {next : Token → StoreM α}
    {rest : List Code} (hfound : objects .notFound ↔ contents.tokens[id]? = none)
    (hnext : ∀ record, contents.tokens[id]? = some record →
      Heeds objects (next record (.idle limits ceiling contents)) rest) :
    Heeds objects ((require id >>= next) (.idle limits ceiling contents)) (.notFound :: rest) := by
  refine Heeds.bind (refusesOnly_require id (by simp)) (refusesAt_require id) ?_ fun record _ hr => ?_
  · simp [hfound, require_eq_ok_iff, Option.eq_none_iff_forall_ne_some]
  · obtain ⟨hrecord, rfl⟩ := require_eq_ok_iff.1 hr
    exact hnext record hrecord

/-- A token that is there and has to be the caller's. -/
theorem Holdings.heeds_ensureOwner_bind {α : Type} {id : ItemId} {record : Token}
    {next : Unit → StoreM α} {rest : List Code} (hrecord : contents.tokens[id]? = some record)
    (howner : objects .notOwner ↔
      ∀ record, contents.tokens[id]? = some record → record.owner ≠ caller)
    (hnext : Heeds objects (next () (.idle limits ceiling contents)) rest) :
    Heeds objects ((ensureOwner caller id >>= next) (.idle limits ceiling contents))
      (.notOwner :: rest) := by
  refine Heeds.bind (refusesOnly_ensureOwner caller id (by simp)) (refusesAt_ensureOwner caller id _)
    ?_ fun _ _ hr => ?_
  · simp [howner, hrecord, ensureOwner_eq_ok_iff hrecord]
  · obtain ⟨-, rfl⟩ := (ensureOwner_eq_ok_iff hrecord).1 hr
    exact hnext

/-- A token that is there and moves on. -/
theorem Holdings.heeds_transfer {id : ItemId} {record : Token} {owner receiver : AccountId}
    (hrecord : contents.tokens[id]? = some record)
    (hroom : objects .tokensFull ↔ ¬ contents.tokensOf.HasRoom limits.tokensPerAccount receiver) :
    Heeds objects (transfer id owner receiver (.idle limits ceiling contents)) [.tokensFull] := by
  unfold transfer
  rw [Program.bind_of_ok (require_eq_ok_iff.2 ⟨hrecord, rfl⟩)]
  apply Family.isField_tokensOf.heeds_push_bind
  · intro _
    rfl
  · exact hroom

/-- An edition that has to be there. -/
theorem Issuance.heeds_require_bind {α : Type} {id : ItemId} {next : Edition → StoreM α}
    {rest : List Code} (hfound : objects .notFound ↔ contents.editions[id]? = none)
    (hnext : ∀ source, contents.editions[id]? = some source →
      Heeds objects (next source (.idle limits ceiling contents)) rest) :
    Heeds objects ((require id >>= next) (.idle limits ceiling contents)) (.notFound :: rest) := by
  refine Heeds.bind (refusesOnly_require id (by simp)) (refusesAt_require id) ?_ fun source _ hr => ?_
  · simp [hfound, require_eq_ok_iff, Option.eq_none_iff_forall_ne_some]
  · obtain ⟨hsource, rfl⟩ := require_eq_ok_iff.1 hr
    exact hnext source hsource

theorem Market.heeds_ensureListed {token : ItemId}
    (hfound : objects .notFound ↔ contents.tokens[token]? = none)
    (howner : objects .notOwner ↔
      ∀ record, contents.tokens[token]? = some record → record.owner ≠ caller)
    (hlisted : objects .notListed ↔
      ∀ record, contents.tokens[token]? = some record → record.price = none) :
    Heeds objects (ensureListed caller token (.idle limits ceiling contents))
      [.notFound, .notOwner, .notListed] := by
  apply Holdings.heeds_require_bind hfound
  intro record hrecord
  apply Holdings.heeds_ensureOwner_bind hrecord howner
  apply Heeds.single
  intro hobjects
  rw [if_pos (hlisted.1 hobjects record hrecord)]
  exact StoreM.refusedAs_refuse _ _

theorem Market.heeds_ensureMinter {creator : CreatorId} {edition : ItemId}
    (hfound : objects .notFound ↔ contents.editions[edition]? = none)
    (howner : objects .notOwner ↔ caller = .nobody ∨
      (∀ record, contents.creators[creator]? = some record → record.owner ≠ caller) ∨
        ∀ source, contents.editions[edition]? = some source → source.creator ≠ creator) :
    Heeds objects (ensureMinter caller creator edition (.idle limits ceiling contents))
      [.notFound, .notOwner] := by
  unfold ensureMinter
  rw [Program.discard_eq_bind]
  simp only [bind_assoc, pure_bind]
  apply Issuance.heeds_require_bind hfound
  intro source hsource
  -- Whether the creator is the caller's and whether the edition is the creator's is the same reason.
  have honly : RefusesOnly [.notOwner] (do
      Registry.ensureOwner caller creator
      Issuance.ensureCreator creator edition) :=
    (Registry.refusesOnly_ensureOwner caller creator (by simp)).bind fun _ =>
      Issuance.refusesOnly_ensureCreator creator edition (by simp)
  have hat : RefusesAt (do
      Registry.ensureOwner caller creator
      Issuance.ensureCreator creator edition) (.idle limits ceiling contents) := by
    apply (Registry.refusesAt_ensureOwner caller creator).bind
    intro _ _ h
    obtain ⟨-, -, rfl⟩ := Registry.ensureOwner_eq_ok_iff.1 h
    exact Issuance.refusesAt_ensureCreator creator edition
  apply Heeds.single
  intro hobjects
  apply RefusedAs.of_fails honly hat
  rintro ⟨_, _, hok⟩
  obtain ⟨_, _, ho, hc⟩ := Program.bind_eq_ok_iff.1 hok
  obtain ⟨hcaller, ⟨record, hrecord, hmine⟩, rfl⟩ := Registry.ensureOwner_eq_ok_iff.1 ho
  obtain ⟨⟨source, hsource, hmade⟩, -⟩ := Issuance.ensureCreator_eq_ok_iff.1 hc
  rcases howner.1 hobjects with h | h | h
  · exact hcaller h
  · exact h record hrecord hmine
  · exact h source hsource hmade

end Store

/-! ## Actions -/

namespace Market

variable {limits : Limits} {ceiling : Int} {contents : Contents} {σ : Type} [Currency σ] {funds : σ}
  {caller : AccountId}

attribute [local simp] Contents.Objects Action.token? Action.ownToken? Action.edition?
  Action.launched? Action.ownCreator? Action.bid? Action.receiver? Refusal.code

theorem heeds_createAccount {creator : Value} (hwell : (Action.createAccount creator).WellFormed) :
    Heeds (contents.Objects limits ceiling funds caller (.createAccount creator))
      (createAccount caller creator (.idle limits ceiling contents))
      (Action.createAccount creator).reasons := by
  -- What is well-formed passes its check, and what has passed is of one shape only.
  obtain ⟨id, hid⟩ := (Argument.decides_creatorId creator).passes hwell
  obtain rfl := Argument.eq_of_creatorId_eq_ok hid
  exact (Registry.heeds_register hid (by simp) (by simp)).followed _

theorem heeds_dropAccount {creator : Value} (hwell : (Action.dropAccount creator).WellFormed) :
    Heeds (contents.Objects limits ceiling funds caller (.dropAccount creator))
      (dropAccount caller creator (.idle limits ceiling contents))
      (Action.dropAccount creator).reasons := by
  obtain ⟨id, hid⟩ := (Argument.decides_creatorId creator).passes hwell
  obtain rfl := Argument.eq_of_creatorId_eq_ok hid
  unfold dropAccount
  rw [StoreM.ofExcept_bind hid]
  apply Heeds.followed
  apply Heeds.single
  intro hobjects
  apply RefusedAs.of_fails (Registry.refusesOnly_release id caller (by simp))
    (Registry.refusesAt_release id caller)
  rintro ⟨_, _, hok⟩
  obtain ⟨hcaller, record, hrecord, howner, -⟩ := Registry.release_eq_ok_iff.1 hok
  simp [hcaller, hrecord, howner] at hobjects

theorem heeds_mint {creator price : Value} {description : Description}
    (hwell : (Action.mint creator price description).WellFormed) :
    Heeds (contents.Objects limits ceiling funds caller (.mint creator price description))
      (mint caller creator price description (.idle limits ceiling contents))
      (Action.mint creator price description).reasons := by
  obtain ⟨id, hid⟩ := (Argument.decides_creatorId creator).passes hwell.1
  obtain ⟨amount, hamount⟩ := (Argument.decides_amount "price" price).passes hwell.2.1
  obtain ⟨metadata, hmetadata⟩ := description.decides_read.passes hwell.2.2
  obtain rfl := Argument.eq_of_creatorId_eq_ok hid
  unfold mint
  rw [StoreM.ofExcept_bind hid, StoreM.ofExcept_bind hamount, StoreM.ofExcept_bind hmetadata]
  refine Heeds.bind (Registry.refusesOnly_ensureOwner caller id (by simp))
    (Registry.refusesAt_ensureOwner caller id) ?_ fun _ _ hr => ?_
  · simp [Registry.ensureOwner_eq_ok_iff, or_iff_not_imp_left]
  obtain ⟨-, -, rfl⟩ := Registry.ensureOwner_eq_ok_iff.1 hr
  have hsupply := Description.supply?_of_read_eq_ok hmetadata
  exact (Issuance.heeds_mint (by simp [hsupply]) (by simp) (by simp)).followed _

theorem heeds_launchGift {creator edition receiver : Value}
    (hwell : (Action.launchGift creator edition receiver).WellFormed) :
    Heeds (contents.Objects limits ceiling funds caller (.launchGift creator edition receiver))
      (launchGift caller creator edition receiver (.idle limits ceiling contents))
      (Action.launchGift creator edition receiver).reasons := by
  obtain ⟨creatorId, hcreator⟩ := (Argument.decides_creatorId creator).passes hwell.1
  obtain ⟨id, hid⟩ := (Argument.decides_itemId "launch_token_id" edition).passes hwell.2.1
  obtain ⟨account, haccount⟩ := (Argument.decides_account "receiver" receiver).passes hwell.2.2
  obtain rfl := Argument.eq_of_creatorId_eq_ok hcreator
  obtain rfl := Argument.eq_of_itemId_eq_ok hid
  obtain ⟨s, rfl, rfl⟩ := Argument.eq_of_account_eq_ok haccount
  unfold launchGift
  rw [StoreM.ofExcept_bind hcreator, StoreM.ofExcept_bind hid, StoreM.ofExcept_bind haccount]
  refine Heeds.append (heeds_ensureMinter (by simp) (by simp)) ?_ fun _ _ hr => ?_
  -- Where neither of the two reasons objects, the edition is the caller's.
  · intro hpass
    have hmine : caller ≠ .nobody ∧
        (∃ record, contents.creators[creatorId]? = some record ∧ record.owner = caller) ∧
          ∃ source, contents.editions[id]? = some source ∧ source.creator = creatorId := by
      simpa using hpass .notOwner (by simp)
    obtain ⟨hcaller, hrecord, hsource⟩ := hmine
    exact ⟨(), _, ensureMinter_eq_ok_iff.2 ⟨hcaller, hrecord, hsource, rfl⟩⟩
  obtain ⟨-, -, ⟨source, hsource, -⟩, rfl⟩ := ensureMinter_eq_ok_iff.1 hr
  exact (Issuance.heeds_issue hsource (by simp [hsource]) (by simp) (by simp)).followed _

theorem heeds_transfer {token : Value} (hwell : (Action.transfer token).WellFormed) :
    Heeds (contents.Objects limits ceiling funds caller (.transfer token))
      (transfer caller token (.idle limits ceiling contents)) (Action.transfer token).reasons := by
  obtain ⟨id, hid⟩ := (Argument.decides_itemId "token_id" token).passes hwell
  obtain rfl := Argument.eq_of_itemId_eq_ok hid
  unfold transfer
  rw [StoreM.ofExcept_bind hid, Program.discard_eq_bind]
  simp only [bind_assoc, pure_bind]
  apply Holdings.heeds_require_bind (by simp)
  intro record hrecord
  apply Holdings.heeds_ensureOwner_bind hrecord (by simp)
  exact (Holdings.heeds_transfer hrecord (by simp)).followed _

theorem heeds_list {token price : Value} (hwell : (Action.list token price).WellFormed) :
    Heeds (contents.Objects limits ceiling funds caller (.list token price))
      (list caller token price (.idle limits ceiling contents))
      (Action.list token price).reasons := by
  obtain ⟨id, hid⟩ := (Argument.decides_itemId "token_id" token).passes hwell.1
  obtain ⟨amount, hamount⟩ := (Argument.decides_amount "price" price).passes hwell.2
  obtain rfl := Argument.eq_of_itemId_eq_ok hid
  unfold list
  rw [StoreM.ofExcept_bind hid, StoreM.ofExcept_bind hamount]
  apply Holdings.heeds_require_bind (by simp)
  intro record hrecord
  apply Holdings.heeds_ensureOwner_bind hrecord (by simp)
  apply Heeds.single
  intro hobjects
  cases hlisted : record.price with
  | some listed => exact StoreM.refusedAs_refuse _ _
  | none => simp [hrecord, hlisted] at hobjects

theorem heeds_unlist {token : Value} (hwell : (Action.unlist token).WellFormed) :
    Heeds (contents.Objects limits ceiling funds caller (.unlist token))
      (unlist caller token (.idle limits ceiling contents)) (Action.unlist token).reasons := by
  obtain ⟨id, hid⟩ := (Argument.decides_itemId "token_id" token).passes hwell
  obtain rfl := Argument.eq_of_itemId_eq_ok hid
  unfold unlist
  rw [StoreM.ofExcept_bind hid]
  exact (heeds_ensureListed (by simp) (by simp) (by simp)).followed _

theorem heeds_setLaunchPrice {creator edition price : Value}
    (hwell : (Action.setLaunchPrice creator edition price).WellFormed) :
    Heeds (contents.Objects limits ceiling funds caller (.setLaunchPrice creator edition price))
      (setLaunchPrice caller creator edition price (.idle limits ceiling contents))
      (Action.setLaunchPrice creator edition price).reasons := by
  obtain ⟨creatorId, hcreator⟩ := (Argument.decides_creatorId creator).passes hwell.1
  obtain ⟨id, hid⟩ := (Argument.decides_itemId "launch_token_id" edition).passes hwell.2.1
  obtain ⟨amount, hamount⟩ := (Argument.decides_amount "price" price).passes hwell.2.2
  obtain rfl := Argument.eq_of_creatorId_eq_ok hcreator
  obtain rfl := Argument.eq_of_itemId_eq_ok hid
  unfold setLaunchPrice
  rw [StoreM.ofExcept_bind hcreator, StoreM.ofExcept_bind hid, StoreM.ofExcept_bind hamount]
  exact (heeds_ensureMinter (by simp) (by simp)).followed _

theorem heeds_setPrice {token price : Value} (hwell : (Action.setPrice token price).WellFormed) :
    Heeds (contents.Objects limits ceiling funds caller (.setPrice token price))
      (setPrice caller token price (.idle limits ceiling contents))
      (Action.setPrice token price).reasons := by
  obtain ⟨id, hid⟩ := (Argument.decides_itemId "token_id" token).passes hwell.1
  obtain ⟨amount, hamount⟩ := (Argument.decides_amount "price" price).passes hwell.2
  obtain rfl := Argument.eq_of_itemId_eq_ok hid
  unfold setPrice
  rw [StoreM.ofExcept_bind hid, StoreM.ofExcept_bind hamount]
  exact (heeds_ensureListed (by simp) (by simp) (by simp)).followed _

theorem heeds_burn {token : Value} (hwell : (Action.burn token).WellFormed) :
    Heeds (contents.Objects limits ceiling funds caller (.burn token))
      (burn caller token (.idle limits ceiling contents)) (Action.burn token).reasons := by
  obtain ⟨id, hid⟩ := (Argument.decides_itemId "token_id" token).passes hwell
  obtain rfl := Argument.eq_of_itemId_eq_ok hid
  unfold burn
  rw [StoreM.ofExcept_bind hid]
  apply Holdings.heeds_require_bind (by simp)
  intro record hrecord
  exact Holdings.heeds_ensureOwner_bind hrecord (by simp) trivial

/-! ### Sales -/

section

omit [Currency σ]

variable {α : Type} {events : EventLog} {methods : Method → MethodSettings} {store : Store}

theorem heeds_liftM {program : StoreM α} {objects : Code → Prop} {codes : List Code}
    (h : Heeds objects (program store) codes) :
    Heeds objects ((liftM program : MarketM σ α) ⟨store, funds, events, methods⟩) codes := by
  induction codes with
  | nil => trivial
  | cons code codes ih =>
    refine ⟨fun ho => ?_, fun ho => ih (h.2 ho)⟩
    obtain ⟨refusal, final, hr, hcode⟩ := h.1 ho
    exact ⟨refusal, _, liftM_eq_error_iff.2 ⟨_, hr, rfl⟩, hcode⟩

theorem refusedAs_refuse (refusal : Refusal) (market : Market σ) :
    RefusedAs refusal.code ((liftM (StoreM.refuse refusal : StoreM α) : MarketM σ α) market) :=
  ⟨refusal, market, rfl, rfl⟩

theorem liftM_ofExcept_bind {β : Type} {check : Except Refusal α} {value : α}
    (h : check = .ok value) (next : α → MarketM σ β) (market : Market σ) :
    ((liftM (StoreM.ofExcept check) : MarketM σ α) >>= next) market = next value market :=
  Program.bind_of_ok (liftM_ofExcept_eq_ok_iff.2 ⟨h, rfl⟩) next

end

variable {events : EventLog} {methods : Method → MethodSettings}

theorem heeds_launchBuy {edition bid : Value} (hwell : (Action.launchBuy edition bid).WellFormed) :
    Heeds (contents.Objects limits ceiling funds caller (.launchBuy edition bid))
      (launchBuy caller edition bid ⟨.idle limits ceiling contents, funds, events, methods⟩)
      (Action.launchBuy edition bid).reasons := by
  obtain ⟨id, hid⟩ := (Argument.decides_itemId "launch_token_id" edition).passes hwell.1
  obtain ⟨amount, hamount⟩ := (Argument.decides_amount "bid_price" bid).passes hwell.2
  obtain rfl := Argument.eq_of_itemId_eq_ok hid
  obtain rfl := Argument.eq_of_amount_eq_ok hamount
  unfold launchBuy
  rw [liftM_ofExcept_bind hid, liftM_ofExcept_bind hamount]
  refine Heeds.bind (refusesOnly_liftM (Issuance.refusesOnly_require id (by simp)))
    (refusesAt_liftM (Issuance.refusesAt_require id) _ _ _) ?_ fun source _ hr => ?_
  · simp [liftM_eq_ok_iff, Issuance.require_eq_ok_iff, Option.eq_none_iff_forall_ne_some]
  obtain ⟨_, hrequire, rfl⟩ := liftM_eq_ok_iff.1 hr
  obtain ⟨hsource, rfl⟩ := Issuance.require_eq_ok_iff.1 hrequire
  -- To look up the seller asks for nothing; that there may be none is asked for next.
  rw [Program.bind_of_ok (liftM_eq_ok_iff.2 ⟨_, Issuance.ownerOf_eq hsource, rfl⟩)]
  refine Heeds.stop ?_ (refusedAs_refuse (.creatorDisconnected _ _) _) fun _ => ?_
  · cases hrecord : contents.creators[source.creator]? <;> simp [hsource, hrecord]
  refine Heeds.stop ?_ (refusedAs_refuse (.belowLaunchPrice _ _) _) fun _ => ?_
  · simp [hsource]
  refine Heeds.bind (refusesOnly_ensureCanPay caller amount (by simp))
    (refusesAt_ensureCanPay caller amount _) ?_ fun _ _ hr => ?_
  · simp [ensureCanPay_eq_ok_iff]
  obtain ⟨-, rfl⟩ := ensureCanPay_eq_ok_iff.1 hr
  exact (heeds_liftM (Issuance.heeds_issue hsource (by simp [hsource]) (by simp)
    (by simp))).followed _

theorem heeds_buy {token bid : Value} (hwell : (Action.buy token bid).WellFormed) :
    Heeds (contents.Objects limits ceiling funds caller (.buy token bid))
      (buy caller token bid ⟨.idle limits ceiling contents, funds, events, methods⟩)
      (Action.buy token bid).reasons := by
  obtain ⟨id, hid⟩ := (Argument.decides_itemId "token_id" token).passes hwell.1
  obtain ⟨amount, hamount⟩ := (Argument.decides_amount "bid_price" bid).passes hwell.2
  obtain rfl := Argument.eq_of_itemId_eq_ok hid
  obtain rfl := Argument.eq_of_amount_eq_ok hamount
  unfold buy
  rw [liftM_ofExcept_bind hid, liftM_ofExcept_bind hamount]
  refine Heeds.bind (refusesOnly_liftM (Holdings.refusesOnly_require id (by simp)))
    (refusesAt_liftM (Holdings.refusesAt_require id) _ _ _) ?_ fun record _ hr => ?_
  · simp [liftM_eq_ok_iff, Holdings.require_eq_ok_iff, Option.eq_none_iff_forall_ne_some]
  obtain ⟨_, hrequire, rfl⟩ := liftM_eq_ok_iff.1 hr
  obtain ⟨hrecord, rfl⟩ := Holdings.require_eq_ok_iff.1 hrequire
  -- Without a price all ends with the first question about it, and with one that question is settled.
  cases hlisted : record.price with
  | none =>
    constructor
    · intro _
      exact refusedAs_refuse (.notForSale id) _
    · intro hobjects
      simp [hrecord, hlisted] at hobjects
  | some price =>
    refine ⟨fun hobjects => ?_, fun _ => ?_⟩
    · simp [hrecord, hlisted] at hobjects
    refine Heeds.stop ?_ (refusedAs_refuse (.alreadyOwned _ _) _) fun _ => ?_
    · simp [hrecord]
    refine Heeds.stop ?_ (refusedAs_refuse (.belowListedPrice _ _) _) fun _ => ?_
    · simp [hrecord, hlisted]
    refine Heeds.bind (refusesOnly_ensureCanPay caller amount (by simp))
      (refusesAt_ensureCanPay caller amount _) ?_ fun _ _ hr => ?_
    · simp [ensureCanPay_eq_ok_iff]
    obtain ⟨-, rfl⟩ := ensureCanPay_eq_ok_iff.1 hr
    exact (heeds_liftM (Holdings.heeds_transfer hrecord (by simp))).followed _

/-- An action is refused for the first reason that objects, in the order in which it asks for them. -/
theorem heeds_perform (action : Action) :
    Heeds (contents.Objects limits ceiling funds caller action)
      (perform caller action ⟨.idle limits ceiling contents, funds, events, methods⟩)
      (.invalidArgument :: action.reasons) := by
  constructor
  · intro hmalformed
    have hscreens : Screens action.WellFormed action.reasons
        (perform caller action : MarketM σ Receipt) := screens_perform caller action
    obtain ⟨refusal, hr, hcode⟩ := hscreens.invalid hmalformed _
    exact ⟨refusal, _, hr, hcode⟩
  · intro hwell
    replace hwell : action.WellFormed := not_not.1 hwell
    cases action with
    | createAccount creator => exact heeds_liftM (heeds_createAccount hwell)
    | dropAccount creator => exact heeds_liftM (heeds_dropAccount hwell)
    | mint creator price description => exact heeds_liftM (heeds_mint hwell)
    | launchGift creator edition receiver => exact heeds_liftM (heeds_launchGift hwell)
    | launchBuy edition bid => exact heeds_launchBuy hwell
    | buy token bid => exact heeds_buy hwell
    | transfer token => exact heeds_liftM (heeds_transfer hwell)
    | list token price => exact heeds_liftM (heeds_list hwell)
    | unlist token => exact heeds_liftM (heeds_unlist hwell)
    | setLaunchPrice creator edition price => exact heeds_liftM (heeds_setLaunchPrice hwell)
    | setPrice token price => exact heeds_liftM (heeds_setPrice hwell)
    | burn token => exact heeds_liftM (heeds_burn hwell)

/-- Whatever objects to an action is a reason that the action asks for. -/
theorem mem_of_objects {action : Action} {code : Code}
    (h : contents.Objects limits ceiling funds caller action code) :
    code ∈ Code.invalidArgument :: action.reasons := by
  -- An action that does not ask for a code has nothing to which the code could object.
  cases code <;> cases action <;> simp_all [Action.reasons]

/-- The funds come before a supply that is sold out, in a launch that is paid for. -/
def SoldOutUnasked (action : Action) (told code : Code) : Prop :=
  (∃ edition bid, action = .launchBuy edition bid) ∧ told = .insufficientFunds ∧ code = .soldOut

/-- An action asks for its reasons by stages, with one exception. -/
theorem stages_reasons (action : Action) :
    (Code.invalidArgument :: action.reasons).Pairwise fun first second =>
      first.stage ≤ second.stage ∨ SoldOutUnasked action first second := by
  cases action <;> simp [Action.reasons, Code.stage, SoldOutUnasked]

/-! ### Calls -/

/-- What speaks against a call. -/
def ObjectsTo (market : Market σ) (call : Call) : Code → Prop :=
  market.store.contents.Objects market.store.limits market.store.ceiling market.funds call.caller
    call.action

/-- A call is answered with the reason that its action is refused for. -/
theorem answer_of_refusedAs {market : Market σ} {call : Call} {code : Code}
    (hn : market.store.journal = none) (h : RefusedAs code (perform call.caller call.action market)) :
    ∃ refusal, market.answer call = .ok (.refused refusal) ∧ refusal.code = code := by
  obtain ⟨refusal, final, hr, hcode⟩ := h
  refine ⟨refusal, ?_, hcode⟩
  unfold answer
  rw [act_eq call.caller call.action hn, hr]

/-- Where something objects to a call, the caller is told something that objects, and nothing that objects is
of an earlier stage, unless it is that an edition is sold out which the caller cannot pay for. -/
theorem answer_of_objectsTo {market : Market σ} {call : Call} {code : Code}
    (hn : market.store.journal = none) (hobjects : market.ObjectsTo call code) :
    ∃ refusal, market.answer call = .ok (.refused refusal) ∧ market.ObjectsTo call refusal.code ∧
      (refusal.code.stage ≤ code.stage ∨ SoldOutUnasked call.action refusal.code code) := by
  have hheeds : Heeds (market.ObjectsTo call) (perform call.caller call.action market)
      (.invalidArgument :: call.action.reasons) := by
    obtain ⟨store, funds, events, methods⟩ := market
    rw [show store = .idle store.limits store.ceiling store.contents from Store.eq_idle hn]
    exact heeds_perform call.action
  obtain ⟨first, hfirst, hrefused, hbefore⟩ :=
    hheeds.exists_first (stages_reasons call.action) (mem_of_objects hobjects) hobjects
  obtain ⟨refusal, hanswer, rfl⟩ := answer_of_refusedAs hn hrefused
  refine ⟨refusal, hanswer, hfirst, ?_⟩
  rcases hbefore with rfl | hbefore
  · exact .inl (Nat.le_refl _)
  · exact hbefore

/-- **A caller is told the reason of the earliest stage, but for a supply that is sold out.** Where something
speaks against a call, the call is refused. The reason that is given speaks against it as well, and nothing
of an earlier stage does, except that who cannot pay for a launch is not told that the edition is sold out.
In particular, where the funds are said to be missing, the arguments are well-formed, what is named is there
and is whose it has to be, and nothing else about listings and supplies is amiss. -/
theorem told_earliest_stage_unless_sold_out {market : Market σ} {call : Call}
    (hn : market.store.journal = none) :
    (∀ code, market.ObjectsTo call code →
        ∃ refusal, market.answer call = .ok (.refused refusal) ∧
          market.ObjectsTo call refusal.code ∧
            (refusal.code.stage ≤ code.stage ∨ SoldOutUnasked call.action refusal.code code)) ∧
      ∀ refusal, market.answer call = .ok (.refused refusal) → refusal.code = .insufficientFunds →
        ∀ code, market.ObjectsTo call code →
          4 ≤ code.stage ∨ SoldOutUnasked call.action .insufficientFunds code := by
  refine ⟨fun code => answer_of_objectsTo hn, fun refusal hanswer hcode code hobjects => ?_⟩
  -- There is one answer only, so this refusal is the one that all objections lead to.
  obtain ⟨told, htold, -, hbefore⟩ := answer_of_objectsTo hn hobjects
  rw [hanswer] at htold
  cases htold
  rw [hcode] at hbefore
  exact hbefore

/-- A market that has just opened, with two accounts, one of which has next to nothing. -/
def shelf : Market Bank :=
  opened default 10 0 0 (({} : Bank).setBalance (.name "bob") 100 |>.setBalance (.name "cid") 1)
    { time := "" } Method.settings

/-- The only token of an edition is sold. -/
def lastCopy : List Call :=
  [⟨.name "ann", .createAccount (.string "studio")⟩,
    ⟨.name "ann", .mint (.string "studio") (.int 10) (.raw (.object
      [("name", .string "Dusk"), ("mime_type", .string "image/png"),
        ("metadata_uri", .string "ipfs://dusk"), ("supply", .int 1)]))⟩,
    ⟨.name "bob", .launchBuy (.int 1) (.int 10)⟩]

/-- A bid that is too low, for an edition that is sold out, by an account that cannot pay even that. The
account is told that the bid is too low. -/
theorem told_earliest_stage_unless_sold_out_lowBid :
    let call : Call := ⟨.name "cid", .launchBuy (.int 1) (.int 5)⟩
    (shelf.run lastCopy).store.journal = none ∧
      (shelf.run lastCopy).ObjectsTo call .insufficientFunds ∧
        (shelf.run lastCopy).answer call = .ok (.refused (.belowLaunchPrice 5 10)) ∧
          (shelf.run lastCopy).ObjectsTo call .bidTooLow := by
  intro call
  have hn : (shelf.run lastCopy).store.journal = none := journal_run lastCopy rfl
  have hpoor : ((Currency.canAfford (.name "cid") 5).run (shelf.run lastCopy).funds).1 = false := by
    decide +kernel
  have hobjects : (shelf.run lastCopy).ObjectsTo call .insufficientFunds := ⟨5, rfl, hpoor⟩
  have hlow : (shelf.run lastCopy).answer call = .ok (.refused (.belowLaunchPrice 5 10)) := by
    decide +kernel
  obtain ⟨refusal, hanswer, hspeaks, -⟩ :=
    (told_earliest_stage_unless_sold_out hn).1 .insufficientFunds hobjects
  rw [hlow] at hanswer
  cases hanswer
  exact ⟨hn, hobjects, hlow, hspeaks⟩

/-- An account without funds bids the price for an edition that is sold out, and is told about the funds. -/
theorem sold_out_is_not_told :
    (shelf.run lastCopy).ObjectsTo ⟨.name "cid", .launchBuy (.int 1) (.int 10)⟩ .soldOut ∧
      (shelf.run lastCopy).answer ⟨.name "cid", .launchBuy (.int 1) (.int 10)⟩ =
          .ok (.refused (.cannotAfford 10 1)) ∧
        ¬ (Refusal.cannotAfford 10 1).code.stage ≤ Code.soldOut.stage := by
  have hsold : ((shelf.run lastCopy).store.contents.editions[(1 : ItemId)]?).map Edition.isSoldOut =
      some true := by
    decide +kernel
  obtain ⟨source, hsource, hsold⟩ := Option.map_eq_some_iff.1 hsold
  exact ⟨⟨1, source, rfl, hsource, hsold⟩, by decide +kernel, by decide⟩

end Market

end EditionMarket
