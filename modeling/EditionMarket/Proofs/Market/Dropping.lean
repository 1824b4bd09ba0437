import EditionMarket.Proofs.Argument
import EditionMarket.Proofs.Market.Answered
import EditionMarket.Proofs.Market.Funds
import EditionMarket.Proofs.Market.Reachable
import EditionMarket.Proofs.Market.References

/-!
# Creators that are let go of at once

An account that lets go of a creator right after it has registered it leaves everything as it was: the id was
free, so no edition names the creator, and it is removed; and the creator was the last one to enter the roster
of the account, so the others stay in their places, and a roster that was not there before is gone again.

Both rest on what calls have never left behind, whoever made them: editions of a creator that is not there, and
empty rosters. The account called nothing is an exception of another kind. It may register creators like
everyone else, but what nobody owns nobody may use, and so it cannot let go of them.

Main statements: `Contents.Rooted.does`, and `creating_then_dropping_leaves_everything`.
-/

namespace EditionMarket

/-! ## What calls never leave behind -/

/-- Every edition names a creator that is there, and no account has an empty roster of creators. -/
structure Contents.Rooted (contents : Contents) : Prop where
  credited : contents.Credited
  filled : contents.creatorsOf.Filled

namespace Contents.Rooted

variable {limits : Limits} {contents : Contents}

theorem empty (lastEdition lastToken : Int) :
    Rooted { lastEdition := lastEdition, lastToken := lastToken } where
  credited := .empty _
  filled := .empty _

/-- Every rule keeps it so, whoever calls. -/
theorem does (h : contents.Rooted) {ceiling : Int} (hsound : contents.Sound limits ceiling)
    {caller : AccountId} {action : Action} {receipt : Receipt} {next : Contents}
    (hdoes : contents.Does limits ceiling caller action receipt next) : next.Rooted := by
  cases hdoes with
  | createAccount _ _ hroom => exact ⟨h.credited.registered, h.filled.enrolled hroom _⟩
  | dropAccount =>
    exact ⟨h.credited.released (Intact.unnamed_of_released hsound.items), h.filled.struck _ _⟩
  | mint _ _ _ _ hrecord => exact ⟨h.credited.minted hrecord, h.filled⟩
  | launchGift _ _ _ _ _ _ hsource => exact ⟨h.credited.put_edition hsource rfl, h.filled⟩
  | launchBuy _ _ hsource => exact ⟨h.credited.put_edition hsource rfl, h.filled⟩
  | setLaunchPrice _ _ _ _ _ _ hsource => exact ⟨h.credited.put_edition hsource rfl, h.filled⟩
  | burn _ _ _ hsource => exact ⟨h.credited.put_edition hsource rfl, h.filled⟩
  -- The others leave creators and editions alone.
  | buy => exact ⟨h.credited, h.filled⟩
  | transfer => exact ⟨h.credited, h.filled⟩
  | list => exact ⟨h.credited, h.filled⟩
  | unlist => exact ⟨h.credited, h.filled⟩
  | setPrice => exact ⟨h.credited, h.filled⟩

/-- No roster of editions is there under an id that is free. -/
theorem itemsAt_eq_nil (h : contents.Rooted) {ceiling : Int} (hsound : contents.Sound limits ceiling)
    {id : CreatorId} (hfree : contents.creators[id]? = none) : contents.editionsOf.itemsAt id = [] := by
  refine (Intact.itemsAt_eq_nil_iff hsound.items).2 ?_
  rintro key edition hedition rfl
  obtain ⟨creator, hcreator⟩ := h.credited key edition hedition
  cases hfree.symm.trans hcreator

/-- To remove a creator that has just been registered undoes the registration. -/
theorem released_registered (h : contents.Rooted) {id : CreatorId} {owner : AccountId}
    (hfree : contents.creators[id]? = none)
    (hroom : contents.creatorsOf.HasRoom limits.creatorsPerAccount owner) :
    (contents.registered limits id owner).released id owner none = contents := by
  have hcreators : (contents.creators.put id ⟨id, owner⟩).drop id = contents.creators := by
    rw [Table.drop_put, Table.drop_of_none hfree]
  have hrosters :
      (contents.creatorsOf.enrolled limits.creatorsPerAccount owner id).struck owner id =
        contents.creatorsOf :=
    Table.struck_enrolled_self hroom id (h.filled owner)
  simp only [released, registered, Table.set, hcreators, hrosters]

end Contents.Rooted

namespace Market

variable {σ : Type} [Currency σ] {market : Market σ} {caller : AccountId} {creator : Value}
  {id : CreatorId} {receipt : Receipt}

theorem Reachable.rooted (h : market.Reachable) : market.store.contents.Rooted := by
  induction h with
  | opened => exact .empty _ _
  | @after market h call ih =>
    rcases market.after_cases call h.idle with ⟨_, _, _, hdoes, -, -, ha, -⟩ | ⟨-, ha⟩
    · rw [ha]
      exact ih.does h.sound hdoes
    · rw [ha]
      exact ih
  | funded _ _ ih => exact ih

/-! ## Registering -/

/-- What is there after a creator has been registered. -/
theorem after_createAccount_of_done (h : market.Reachable)
    (hdone : market.answer ⟨caller, .createAccount creator⟩ = .ok (.done receipt)) :
    ∃ id, Argument.creatorId creator = .ok id ∧ receipt = .creatorAdded id ∧
      market.store.contents.creators[id]? = none ∧
        market.store.contents.creatorsOf.HasRoom market.store.limits.creatorsPerAccount caller ∧
          market.after ⟨caller, .createAccount creator⟩ =
            { market with
              store := .idle market.store.limits market.store.ceiling
                (market.store.contents.registered market.store.limits id caller)
              events := market.events.log "NewCreator"
                [("method", .string "create_account"), ("caller", caller.toValue),
                  ("creator_id", .string id)] } := by
  obtain ⟨contents, paid, hdoes, hsettles, hafter⟩ := after_of_done h.idle hdone
  cases hdoes with
  | createAccount hid hfree hroom =>
    cases hsettles
    exact ⟨_, hid, rfl, hfree, hroom, hafter⟩

/-! ## Letting go -/

/-- What the owner of a creator without editions is answered, and what is there after it has let go of it. -/
theorem act_dropAccount_of_owner (hn : market.store.journal = none)
    (hid : Argument.creatorId creator = .ok id) (hcaller : caller ≠ .nobody)
    (hrecord : market.store.contents.creators[id]? = some ⟨id, caller⟩)
    (hnone : market.store.contents.editionsOf.itemsAt id = []) :
    act caller (.dropAccount creator) market =
      .ok (.done (.creatorDropped id true))
        { market with
          store := .idle market.store.limits market.store.ceiling
            (market.store.contents.released id caller none)
          events := market.events.log "DroppedCreator"
            [("method", .string "drop_account"), ("caller", caller.toValue),
              ("creator_id", .string id), ("removed", .bool true)] } := by
  have hdoes : market.store.contents.Does market.store.limits market.store.ceiling caller
      (.dropAccount creator) _ _ := .dropAccount hid hcaller hrecord rfl
  rw [if_pos hnone, decide_eq_true hnone] at hdoes
  exact act_of_does ⟨caller, .dropAccount creator⟩ hn hdoes rfl

/-- Nobody is refused, even what nobody has registered. -/
theorem act_dropAccount_nobody (hn : market.store.journal = none)
    (hid : Argument.creatorId creator = .ok id) :
    act .nobody (.dropAccount creator) market =
      .ok (.refused (.notCreatorOwner .nobody id)) market := by
  have hdrop : dropAccount .nobody creator market.store =
      .error (.refused (.notCreatorOwner .nobody id)) market.store := by
    unfold dropAccount
    rw [Program.bind_of_ok (StoreM.ofExcept_eq_ok_iff.2 ⟨hid, rfl⟩)]
    rfl
  have hperform : perform .nobody (.dropAccount creator) market =
      .error (.refused (.notCreatorOwner .nobody id)) market :=
    liftM_eq_error_iff.2 ⟨market.store, hdrop, rfl⟩
  rw [act_eq _ _ hn, hperform]

/-! ## Registering and letting go -/

/-- The records of the two events. -/
theorem events_create_drop (events : EventLog) (caller : AccountId) (id : CreatorId) :
    (events.log "NewCreator" (eventFields caller (.creatorAdded id))).log "DroppedCreator"
        (eventFields caller (.creatorDropped id true)) =
      { events with
        records := events.records ++
          [[("timestamp", .string events.time), ("sequence", .int (events.sequence + 1)),
            ("event_type", .string "NewCreator"), ("method", .string "create_account"),
            ("caller", caller.toValue), ("creator_id", .string id)],
          [("timestamp", .string events.time), ("sequence", .int (events.sequence + 2)),
            ("event_type", .string "DroppedCreator"), ("method", .string "drop_account"),
            ("caller", caller.toValue), ("creator_id", .string id), ("removed", .bool true)]]
        sequence := events.sequence + 2 } := by
  rw [EventLog.log_of_nodup (nodup_eventFields caller (.creatorDropped id true)),
    EventLog.log_of_nodup (nodup_eventFields caller (.creatorAdded id))]
  rw [List.append_assoc]
  rfl

/-- **To let go of a creator right after it was registered leaves everything as it was.** In a market that has
come about in whatever way, let a caller have registered a creator. If the caller is an account, it may let go
of the creator right away, which removes it: then all records, all rosters in their order, both counters and
the funds are as they were before the creator was registered, and all that is left of it are the records of
two events.

Who calls as nobody is refused, as it does not own the creator, and the creator stays. -/
theorem creating_then_dropping_leaves_everything (h : market.Reachable)
    (hdone : market.answer ⟨caller, .createAccount creator⟩ = .ok (.done receipt)) :
    let created := market.after ⟨caller, .createAccount creator⟩
    let drop : Call := ⟨caller, .dropAccount creator⟩
    ∃ id, creator = .string id ∧ receipt = .creatorAdded id ∧
      (caller ≠ .nobody →
        created.answer drop = .ok (.done (.creatorDropped id true)) ∧
          created.after drop =
            { market with
              events := { market.events with
                records := market.events.records ++
                  [[("timestamp", .string market.events.time),
                    ("sequence", .int (market.events.sequence + 1)),
                    ("event_type", .string "NewCreator"), ("method", .string "create_account"),
                    ("caller", caller.toValue), ("creator_id", .string id)],
                  [("timestamp", .string market.events.time),
                    ("sequence", .int (market.events.sequence + 2)),
                    ("event_type", .string "DroppedCreator"), ("method", .string "drop_account"),
                    ("caller", caller.toValue), ("creator_id", .string id), ("removed", .bool true)]]
                sequence := market.events.sequence + 2 } }) ∧
      (caller = .nobody →
        created.answer drop = .ok (.refused (.notCreatorOwner .nobody id)) ∧
          created.after drop = created ∧
            created.store.contents.creators[id]? = some ⟨id, .nobody⟩) := by
  obtain ⟨id, hid, hreceipt, hfree, hroom, hcreated⟩ := after_createAccount_of_done h hdone
  rw [hcreated]
  intro created drop
  have hrecord : created.store.contents.creators[id]? = some ⟨id, caller⟩ :=
    (Table.getElem?_put _ _ _ _).trans (if_pos rfl)
  refine ⟨id, Argument.eq_of_creatorId_eq_ok hid, hreceipt, fun hcaller => ?_, ?_⟩
  -- The id was free, so the creator has no editions, and letting go of it undoes the registration.
  · have hnone : created.store.contents.editionsOf.itemsAt id = [] :=
      h.rooted.itemsAt_eq_nil h.sound hfree
    have hback : created.store.contents.released id caller none = market.store.contents :=
      h.rooted.released_registered hfree hroom
    have hact : act caller (.dropAccount creator) created = _ :=
      act_dropAccount_of_owner rfl hid hcaller hrecord hnone
    rw [hback] at hact
    refine ⟨?_, ?_⟩
    · unfold answer
      rw [hact]
    · unfold after
      rw [hact, Store.eq_idle h.idle]
      dsimp only
      rw [← events_create_drop]
      rfl
  · rintro rfl
    have hact : act .nobody (.dropAccount creator) created = _ := act_dropAccount_nobody rfl hid
    refine ⟨?_, ?_, hrecord⟩
    · unfold answer
      rw [hact]
    · unfold after
      rw [hact]

/-- An account that has a creator registers another one and lets go of it. -/
theorem creating_then_dropping_leaves_everything_trades :
    let market := funded.run (trades.take 1)
    let create : Call := ⟨.name "ann", .createAccount (.string "gallery")⟩
    let drop : Call := ⟨.name "ann", .dropAccount (.string "gallery")⟩
    market.Reachable ∧ market.answer create = .ok (.done (.creatorAdded "gallery")) ∧
      (market.after create).store ≠ market.store ∧
        (market.after create).answer drop = .ok (.done (.creatorDropped "gallery" true)) ∧
          ((market.after create).after drop).store = market.store := by
  intro market create drop
  have hreach : market.Reachable :=
    (Reachable.opened default 10 (Int.le_refl 0) (Int.le_refl 0) _ _ _).run (trades.take 1)
  have hdone : market.answer create = .ok (.done (.creatorAdded "gallery")) := by decide +kernel
  obtain ⟨id, hid, -, haccount, -⟩ := creating_then_dropping_leaves_everything hreach hdone
  cases hid
  obtain ⟨hanswer, hafter⟩ := haccount (by decide)
  exact ⟨hreach, hdone, by decide +kernel, hanswer, by rw [hafter]⟩

/-- Nobody registers a creator like everyone else, and then cannot let go of it. -/
theorem nobody_cannot_let_go :
    let create : Call := ⟨.nobody, .createAccount (.string "k")⟩
    let drop : Call := ⟨.nobody, .dropAccount (.string "k")⟩
    let created := funded.after create
    funded.Reachable ∧ funded.answer create = .ok (.done (.creatorAdded "k")) ∧
      created.answer drop = .ok (.refused (.notCreatorOwner .nobody "k")) ∧
        (created.after drop).store.contents ≠ funded.store.contents := by
  intro create drop created
  have hreach : funded.Reachable :=
    .opened default 10 (Int.le_refl 0) (Int.le_refl 0) _ _ _
  exact ⟨hreach, by decide +kernel, by decide +kernel, by decide +kernel⟩

end Market

end EditionMarket
