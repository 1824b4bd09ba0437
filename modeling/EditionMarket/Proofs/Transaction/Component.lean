import EditionMarket.Holdings
import EditionMarket.Issuance
import EditionMarket.Proofs.Transaction.Recorded

/-!
# The parts of a market leave nothing unrecorded

Rosters, counters, the registry of creators, the minting of editions and the holding of tokens are all
recorded. Some of them write to a slot without touching it first; each time the slot was touched when the
record in it was looked up.
-/

namespace EditionMarket

variable {α κ ι : Type} {needs : List Slot}

/-! ## Rosters -/

namespace Family

variable (family : Family κ ι) (key : κ)

theorem recorded_peek : Recorded needs (family.peek key) [] :=
  (Recorded.peek _).bind fun _ => Recorded.pure _

theorem recorded_size : Recorded needs (family.size key) [] :=
  (family.recorded_peek key).bind fun _ => Recorded.pure _

/-- A roster may be replaced once its slot has been touched. -/
theorem recorded_put (h : family.slot key ∈ needs) (roster : Option (Roster ι)) :
    Recorded needs (family.put key roster) [] :=
  Recorded.write h _

/-- The slot of a roster is touched before the roster is made or handed out. -/
theorem recorded_fetch : Recorded needs (family.fetch key) [family.slot key] := by
  refine (Recorded.fetch (family.slot key)).bind_keep fun held => ?_
  dsimp only
  split
  · exact Recorded.pure _
  · refine Recorded.get_bind (fun _ => rfl) fun store => ?_
    refine (family.recorded_put key ?_ _).bind fun _ => Recorded.pure _
    exact List.mem_append_left _ (List.mem_singleton_self _)

theorem recorded_push (item : ι) (full : Nat → Fault) :
    Recorded needs (family.push key item full) [family.slot key] := by
  refine (family.recorded_fetch key).bind_keep fun roster => ?_
  split
  · exact family.recorded_put key (List.mem_append_left _ (List.mem_singleton_self _)) _
  · exact Recorded.throw _

variable [DecidableEq ι]

/-- A roster that loses an item is touched first, and one that does not have it stays as it is. -/
theorem recorded_remove (item : ι) : Recorded needs (family.remove key item) [] := by
  refine (family.recorded_peek key).bind fun found => ?_
  dsimp only
  split
  · exact Recorded.pure _
  · split
    · refine (Recorded.touch (family.slot key)).bind fun _ => ?_
      refine (family.recorded_put key ?_ _).bind fun _ => Recorded.pure _
      exact List.mem_append_left _ (List.mem_singleton_self _)
    · exact Recorded.pure _

theorem recorded_swapRemove (item : ι) :
    Recorded needs (family.swapRemove key item) [family.slot key] := by
  refine (family.recorded_fetch key).bind_keep fun roster => ?_
  refine (family.recorded_put key ?_ _).bind fun _ => Recorded.pure _
  exact List.mem_append_left _ (List.mem_singleton_self _)

end Family

/-! ## Counters -/

namespace Numbering

theorem recorded_nextEdition : Recorded needs nextEdition [] :=
  (Recorded.peek _).bind fun _ =>
    Recorded.get_bind (fun _ => rfl) fun _ => Recorded.ofExcept _

theorem recorded_nextToken : Recorded needs nextToken [] :=
  (Recorded.peek _).bind fun _ =>
    Recorded.get_bind (fun _ => rfl) fun _ => Recorded.ofExcept _

theorem recorded_commitEdition (id : ItemId) : Recorded needs (commitEdition id) [] := by
  refine (Recorded.peek _).bind fun last => ?_
  exact Recorded.ite ((Recorded.assign _ _).weaken (List.nil_subset _)) (Recorded.throw _)

theorem recorded_commitToken (id : ItemId) : Recorded needs (commitToken id) [] := by
  refine (Recorded.peek _).bind fun last => ?_
  exact Recorded.ite ((Recorded.assign _ _).weaken (List.nil_subset _)) (Recorded.throw _)

end Numbering

/-! ## Creators -/

namespace Registry

theorem recorded_get? (id : CreatorId) : Recorded needs (get? id) [.creator id] :=
  Recorded.fetch _

theorem recorded_ownerOf (id : CreatorId) : Recorded needs (ownerOf id) [] :=
  (recorded_get? id).bind fun _ => Recorded.pure _

theorem recorded_ensureOwner (account : AccountId) (id : CreatorId) :
    Recorded needs (ensureOwner account id) [] := by
  unfold ensureOwner
  dsimp only
  refine Recorded.ite (Recorded.throw_bind _ _) ?_
  exact (recorded_ownerOf id).bind fun _ => Recorded.ite (Recorded.refuse _) (Recorded.pure _)

/-- The record of a creator is touched when it is looked up, and so may be changed. -/
theorem recorded_update (id : CreatorId) (change : Creator → Creator) :
    Recorded needs (update id change) [] := by
  refine (recorded_get? id).bind fun found => ?_
  split
  · exact Recorded.pure _
  · refine (Recorded.write ?_ _).bind fun _ => Recorded.pure _
    exact List.mem_append_left _ (List.mem_singleton_self _)

theorem recorded_register (id : Value) (owner : AccountId) :
    Recorded needs (register id owner) [] := by
  refine (Recorded.ofExcept _).bind fun id => ?_
  refine (recorded_get? id).bind fun found => ?_
  dsimp only
  refine Recorded.ite (Recorded.throw_bind _ _) ?_
  refine (Family.creatorsOf.recorded_push _ _ _).bind fun _ => ?_
  exact (Recorded.assign _ _).bind fun _ => Recorded.pure _

theorem recorded_release (id : CreatorId) (owner : AccountId) :
    Recorded needs (release id owner) [] := by
  refine (recorded_ensureOwner owner id).bind fun _ => ?_
  refine (Family.editionsOf.recorded_size id).bind fun count => ?_
  dsimp only
  have hrest : ∀ {more : List Slot}, Recorded more
      (do
        discard (Family.creatorsOf.remove owner id)
        pure (decide (count = 0)) : StoreM Bool) [] := by
    intro more
    exact (Family.creatorsOf.recorded_remove owner id).discard.bind fun _ => Recorded.pure _
  refine Recorded.ite ((Recorded.assign _ _).bind fun _ => hrest) ?_
  refine (recorded_update id _).bind fun found => ?_
  exact Recorded.ite (Recorded.throw_bind _ _) hrest

end Registry

/-! ## Editions -/

namespace Issuance

theorem recorded_get? (id : ItemId) : Recorded needs (get? id) [.edition id] :=
  Recorded.fetch _

theorem recorded_require (id : ItemId) : Recorded needs (require id) [.edition id] := by
  refine (recorded_get? id).bind_keep fun found => ?_
  split
  · exact Recorded.pure _
  · exact Recorded.refuse _

theorem recorded_update (id : ItemId) (change : Edition → Edition) :
    Recorded needs (update id change) [] := by
  refine (recorded_get? id).bind fun found => ?_
  split
  · exact Recorded.pure _
  · refine (Recorded.write ?_ _).bind fun _ => Recorded.pure _
    exact List.mem_append_left _ (List.mem_singleton_self _)

theorem recorded_mint (creator : CreatorId) (price : Int) (metadata : Metadata) :
    Recorded needs (mint creator price metadata) [] := by
  unfold mint
  dsimp only
  refine Recorded.ite (Recorded.throw_bind _ _) ?_
  refine Numbering.recorded_nextEdition.bind fun id => ?_
  refine (Family.editionsOf.recorded_push _ _ _).bind fun _ => ?_
  refine (Recorded.assign _ _).bind fun _ => ?_
  exact (Numbering.recorded_commitEdition id).bind fun _ => Recorded.pure _

/-- The edition is touched when it is looked up, before the token is written. -/
theorem recorded_issue (edition : ItemId) (receiver : AccountId) :
    Recorded needs (issue edition receiver) [] := by
  refine (recorded_require edition).bind fun source => ?_
  dsimp only
  refine Recorded.ite (Recorded.throw_bind _ _) ?_
  refine Numbering.recorded_nextToken.bind fun id => ?_
  refine (Family.tokensOf.recorded_push _ _ _).bind fun _ => ?_
  refine (Recorded.assign _ _).bind fun _ => ?_
  refine (Recorded.write ?_ _).bind fun _ => ?_
  · simp
  · exact (Numbering.recorded_commitToken id).bind fun _ => Recorded.pure _

theorem recorded_setPrice (id : ItemId) (price : Int) :
    Recorded needs (setPrice id price) [] :=
  (recorded_require id).bind fun _ =>
    Recorded.write (List.mem_append_left _ (List.mem_singleton_self _)) _

theorem recorded_ownerOf (id : ItemId) : Recorded needs (ownerOf id) [] := by
  refine (recorded_get? id).bind fun found => ?_
  split
  · exact Recorded.pure _
  · exact Registry.recorded_ownerOf _

theorem recorded_ensureCreator (creator : CreatorId) (id : ItemId) :
    Recorded needs (ensureCreator creator id) [] := by
  refine (recorded_get? id).bind fun found => ?_
  split
  · exact Recorded.refuse _
  · exact Recorded.ite (Recorded.refuse _) (Recorded.pure _)

end Issuance

/-! ## Tokens -/

namespace Holdings

theorem recorded_get? (id : ItemId) : Recorded needs (get? id) [.token id] :=
  Recorded.fetch _

theorem recorded_require (id : ItemId) : Recorded needs (require id) [.token id] := by
  refine (recorded_get? id).bind_keep fun found => ?_
  split
  · exact Recorded.pure _
  · exact Recorded.refuse _

theorem recorded_update (id : ItemId) (change : Token → Token) :
    Recorded needs (update id change) [] := by
  refine (recorded_get? id).bind fun found => ?_
  split
  · exact Recorded.pure _
  · refine (Recorded.write ?_ _).bind fun _ => Recorded.pure _
    exact List.mem_append_left _ (List.mem_singleton_self _)

/-- The token is touched when it is looked up, before any roster changes. -/
theorem recorded_transfer (id : ItemId) (owner receiver : AccountId) :
    Recorded needs (transfer id owner receiver) [] := by
  refine (recorded_require id).bind fun token => ?_
  refine (Family.tokensOf.recorded_push _ _ _).bind fun _ => ?_
  refine (Family.tokensOf.recorded_remove owner id).discard.bind fun _ => ?_
  exact Recorded.write (by simp) _

theorem recorded_setPrice (id : ItemId) (price : Option Int) :
    Recorded needs (setPrice id price) [] :=
  (recorded_require id).bind fun _ =>
    Recorded.write (List.mem_append_left _ (List.mem_singleton_self _)) _

/-- The edition of a token is touched before the token goes. -/
theorem recorded_burn (id : ItemId) : Recorded needs (burn id) [] := by
  refine (recorded_require id).bind fun token => ?_
  refine (Recorded.fetch _).bind fun found => ?_
  split
  · exact Recorded.throw _
  · refine (Family.tokensOf.recorded_remove _ id).discard.bind fun _ => ?_
    refine (Recorded.assign _ _).bind fun _ => ?_
    exact Recorded.write (by simp) _

theorem recorded_ownerOf (id : ItemId) : Recorded needs (ownerOf id) [] :=
  (recorded_get? id).bind fun _ => Recorded.pure _

theorem recorded_ensureOwner (account : AccountId) (id : ItemId) :
    Recorded needs (ensureOwner account id) [] :=
  (recorded_ownerOf id).bind fun _ => Recorded.ite (Recorded.refuse _) (Recorded.pure _)

end Holdings

end EditionMarket
