import EditionMarket.Proofs.Store.Refusal

/-!
# Who passes the checks

Three checks stand between a caller and what it wants to change: does the account own the creator, has the
creator minted the edition, and does the account own the token? Each of them looks up one record and compares
what it says. This file says exactly who passes, in every store, whether or not a transaction is open.

A look-up that finds nothing answers with nobody, and so whoever compares an account with the answer has to
keep nobody out. The check on creators does so, and the check on editions has no account to compare. The check
on tokens lets nobody pass where there is no token.

Main statements: `checks_pass_the_rightful_unless_a_token_is_missing`, and `nobody_passes_for_a_missing_token`.
-/

namespace EditionMarket

variable {α : Type}

/-! ## Looks and checks -/

/-- The program answers with what there is to see in the contents, and leaves them alone. -/
def Sees (look : StoreM α) (view : Contents → α) : Prop :=
  ∀ store : Store, ∃ final, look store = .ok (view store.contents) final ∧ final.contents = store.contents

/-- Whoever has the right passes the check, everyone else is refused, and either way nothing is changed. -/
def Guards (check : StoreM Unit) (right : Contents → Prop) (refusal : Refusal) : Prop :=
  ∀ store : Store,
    (right store.contents → ∃ final, check store = .ok () final ∧ final.contents = store.contents) ∧
      (¬ right store.contents →
        ∃ final, check store = .error (.refused refusal) final ∧ final.contents = store.contents)

namespace Sees

theorem fetch (slot : Slot) : Sees (StoreM.fetch slot) fun contents => contents.read slot :=
  fun store => ⟨store.touch slot, rfl, rfl⟩

theorem map {β : Type} {look : StoreM α} {view : Contents → α} (h : Sees look view) (f : α → β) :
    Sees (do return f (← look)) fun contents => f (view contents) := by
  intro store
  obtain ⟨final, hlook, hsame⟩ := h store
  exact ⟨final, Program.bind_of_ok hlook _, hsame⟩

end Sees

namespace Guards

variable {check : StoreM Unit} {right : Contents → Prop} {refusal : Refusal}

/-- Those who have the right, and no others, pass the check. -/
theorem passes_iff (h : Guards check right refusal) (store : Store) :
    (∃ final, check store = .ok () final) ↔ right store.contents := by
  obtain ⟨hpass, hrefuse⟩ := h store
  by_cases hright : right store.contents
  · obtain ⟨final, hok, -⟩ := hpass hright
    exact ⟨fun _ => hright, fun _ => ⟨final, hok⟩⟩
  · obtain ⟨final, herror, -⟩ := hrefuse hright
    rw [herror]
    constructor
    · rintro ⟨_, hok⟩
      cases hok
    · intro hr
      exact absurd hr hright

theorem congr (h : Guards check right refusal) {other : Contents → Prop}
    (hiff : ∀ contents, right contents ↔ other contents) : Guards check other refusal := by
  intro store
  rw [← hiff]
  exact h store

/-- No one has the right. -/
theorem refuse (refusal : Refusal) : Guards (StoreM.refuse refusal) (fun _ => False) refusal :=
  fun store => ⟨False.elim, fun _ => ⟨store, rfl, rfl⟩⟩

/-- Everyone has the right. -/
theorem pass (refusal : Refusal) : Guards (pure ()) (fun _ => True) refusal :=
  fun store => ⟨fun _ => ⟨store, rfl, rfl⟩, fun hn => absurd trivial hn⟩

/-- Who stops under the condition asks no further. -/
theorem refuse_bind (refusal : Refusal) (next : Unit → StoreM Unit) :
    Guards (StoreM.refuse refusal >>= next) (fun _ => False) refusal :=
  fun store => ⟨False.elim, fun _ => ⟨store, rfl, rfl⟩⟩

/-- A check that is made unless the condition holds, in which case everyone is refused. -/
theorem ite (c : Prop) [Decidable c] {stop : StoreM Unit} (hstop : Guards stop (fun _ => False) refusal)
    (h : Guards check right refusal) :
    Guards (if c then stop else check) (fun contents => ¬ c ∧ right contents) refusal := by
  by_cases hc : c
  · rw [if_pos hc]
    exact hstop.congr fun _ => by simp [hc]
  · rw [if_neg hc]
    exact h.congr fun _ => by simp [hc]

/-- What has been seen decides which check is made. -/
theorem bind {look : StoreM α} {view : Contents → α} (hlook : Sees look view) {next : α → StoreM Unit}
    {right : α → Contents → Prop} (hnext : ∀ value, Guards (next value) (right value) refusal) :
    Guards (look >>= next) (fun contents => right (view contents) contents) refusal := by
  intro store
  obtain ⟨middle, hseen, hsame⟩ := hlook store
  rw [Program.bind_of_ok hseen next, ← hsame]
  exact hnext _ middle

end Guards

/-! ## The three checks -/

/-- A look-up that answers with an account that is not nobody has found a record that names the account. -/
theorem getD_nobody_eq_iff {ν : Type} {owner : ν → AccountId} {account : AccountId} {found : Option ν} :
    (found.map owner).getD .nobody = account ↔
      (∃ record, found = some record ∧ owner record = account) ∨ found = none ∧ account = .nobody := by
  cases found <;> simp [eq_comm]

/-- A creator is the account's if there is a record that says so, and the account is not nobody. -/
theorem Registry.guards_ensureOwner (account : AccountId) (id : CreatorId) :
    Guards (ensureOwner account id)
      (fun contents => account ≠ .nobody ∧
        ∃ record, contents.creators[id]? = some record ∧ record.owner = account)
      (.notCreatorOwner account id) := by
  have hlook : Sees (ownerOf id) fun contents =>
      ((contents.creators[id]?).map Creator.owner).getD .nobody :=
    (Sees.fetch (.creator id)).map _
  have hcheck := Guards.bind hlook fun owner =>
    Guards.ite (owner ≠ account) (.refuse (.notCreatorOwner account id)) (.pass _)
  refine (Guards.ite (account = .nobody) (.refuse_bind _ _) hcheck).congr fun contents => ?_
  -- Nobody has been refused before, so the answer nobody is no match any more.
  refine and_congr_right fun hne => ?_
  rw [and_true, Decidable.not_not, getD_nobody_eq_iff]
  simp [hne]

/-- A token is the account's if there is a record that says so. Where there is none it passes for nobody's. -/
theorem Holdings.guards_ensureOwner (account : AccountId) (id : ItemId) :
    Guards (ensureOwner account id)
      (fun contents =>
        (∃ record, contents.tokens[id]? = some record ∧ record.owner = account) ∨
          contents.tokens[id]? = none ∧ account = .nobody)
      (.notTokenOwner account id) := by
  have hlook : Sees (ownerOf id) fun contents =>
      ((contents.tokens[id]?).map Token.owner).getD .nobody :=
    (Sees.fetch (.token id)).map _
  refine (Guards.bind hlook fun owner =>
    Guards.ite (owner ≠ account) (.refuse (.notTokenOwner account id)) (.pass _)).congr fun contents => ?_
  rw [and_true, Decidable.not_not, getD_nobody_eq_iff]

/-- An edition is the creator's if there is a record that says so. -/
theorem Issuance.guards_ensureCreator (creator : CreatorId) (id : ItemId) :
    Guards (ensureCreator creator id)
      (fun contents => ∃ record, contents.editions[id]? = some record ∧ record.creator = creator)
      (.notEditionCreator creator id) := by
  let named (found : Option Edition) (_ : Contents) : Prop :=
    ∃ record, found = some record ∧ record.creator = creator
  refine @Guards.bind _ (.notEditionCreator creator id) _ _ (Sees.fetch (.edition id)) _ named fun found => ?_
  cases found with
  | none => exact (Guards.refuse _).congr fun _ => by simp [named]
  | some edition =>
    refine (Guards.ite (edition.creator ≠ creator) (.refuse _) (.pass _)).congr fun _ => ?_
    simp [named]

/-! ## What a refusal says -/

/-- An account spells out no integer but itself, if it is one. -/
theorem AccountId.all_integers {account : AccountId} (h : ∀ n, account = .number n → Text.isWritable n) :
    account.toValue.integers.all Text.isWritable := by
  cases account with
  | nobody => rfl
  | name s => rfl
  | other shown => rfl
  | number n =>
    show [n].all Text.isWritable
    rw [List.all_cons, h n rfl]
    rfl

/-- **The checks pass the rightful, unless a token is missing.** In every store, whether or not a transaction
is open, and for every account, nobody included, every creator and every id: an account passes for a creator
exactly if there is a record of the creator that names the account as its owner, and the account is not nobody;
a creator passes for an edition exactly if there is a record of the edition that names the creator; and an
account passes for a token exactly if there is a record of the token that names the account as its owner, or
else, if there is no such record, the account is nobody. In all other cases the check is refused, and the
refusal can be told unless it has to spell out a number that is too long. Nothing is changed either way. -/
theorem checks_pass_the_rightful_unless_a_token_is_missing (account : AccountId) (creator : CreatorId)
    (edition token : ItemId) :
    Guards (Registry.ensureOwner account creator)
        (fun contents => account ≠ .nobody ∧
          ∃ record, contents.creators[creator]? = some record ∧ record.owner = account)
        (.notCreatorOwner account creator) ∧
      Guards (Issuance.ensureCreator creator edition)
        (fun contents => ∃ record, contents.editions[edition]? = some record ∧ record.creator = creator)
        (.notEditionCreator creator edition) ∧
      Guards (Holdings.ensureOwner account token)
        (fun contents =>
          (∃ record, contents.tokens[token]? = some record ∧ record.owner = account) ∨
            contents.tokens[token]? = none ∧ account = .nobody)
        (.notTokenOwner account token) ∧
      ∀ refusal ∈ [Refusal.notCreatorOwner account creator, .notEditionCreator creator edition,
          .notTokenOwner account token],
        refusal.report.code = "not_owner" ∧
          ((∀ n, account = .number n → Text.isWritable n) → Text.isWritable edition →
            Text.isWritable token → refusal.report? = some refusal.report) := by
  refine ⟨Registry.guards_ensureOwner account creator, Issuance.guards_ensureCreator creator edition,
    Holdings.guards_ensureOwner account token, ?_⟩
  intro refusal hm
  simp only [List.mem_cons, List.not_mem_nil, or_false] at hm
  rcases hm with rfl | rfl | rfl
  · refine ⟨rfl, fun haccount _ _ => if_pos ?_⟩
    exact account.all_integers haccount
  · refine ⟨rfl, fun _ hedition _ => if_pos ?_⟩
    simp [Refusal.isWritable, Refusal.spelled, hedition]
  · refine ⟨rfl, fun haccount _ htoken => if_pos ?_⟩
    simp only [Refusal.isWritable, Refusal.spelled, List.all_append, account.all_integers haccount]
    simp [htoken]

/-- An account that is called by a number owns a creator, and a token of the edition that it has minted. -/
theorem checks_pass_the_rightful_unless_a_token_is_missing_studio :
    let edition : Edition :=
      { id := 1, creator := "studio", name := "Dawn", price := 10, mimeType := "image/png",
        uri := "ipfs://dawn", supply := 2 }
    let token := Token.issue (.number 7) 1 edition
    let store : Store :=
      { contents :=
        { creators := Table.put ∅ "studio" ⟨"studio", .number 7⟩
          editions := Table.put ∅ 1 edition
          tokens := Table.put ∅ 1 token } }
    (∃ final, Registry.ensureOwner (.number 7) "studio" store = .ok () final) ∧
      (∃ final, Issuance.ensureCreator "studio" 1 store = .ok () final) ∧
        (∃ final, Holdings.ensureOwner (.number 7) 1 store = .ok () final) ∧
          (∃ final, Holdings.ensureOwner (.number 8) 1 store =
            .error (.refused (.notTokenOwner (.number 8) 1)) final) ∧
            (Refusal.notTokenOwner (.number 8) 1).report?.isSome = true := by
  intro edition token store
  obtain ⟨hcreator, hedition, htoken, -⟩ :=
    checks_pass_the_rightful_unless_a_token_is_missing (.number 7) "studio" 1 1
  obtain ⟨-, -, hother, htold⟩ :=
    checks_pass_the_rightful_unless_a_token_is_missing (.number 8) "studio" 1 1
  have hfound : store.contents.tokens[(1 : ItemId)]? = some token := by decide +kernel
  refine ⟨(hcreator.passes_iff store).2 ⟨by decide, ⟨"studio", .number 7⟩, by decide +kernel, rfl⟩,
    (hedition.passes_iff store).2 ⟨edition, by decide +kernel, rfl⟩,
    (htoken.passes_iff store).2 (.inl ⟨token, hfound, rfl⟩), ?_, ?_⟩
  · have hwrong : ¬ ((∃ record, store.contents.tokens[(1 : ItemId)]? = some record ∧
        record.owner = .number 8) ∨
          store.contents.tokens[(1 : ItemId)]? = none ∧ AccountId.number 8 = .nobody) := by
      rw [hfound]
      rintro (⟨record, hrecord, howner⟩ | ⟨-, hnobody⟩)
      · cases hrecord
        cases howner
      · cases hnobody
    obtain ⟨final, hrefused, -⟩ := (hother store).2 hwrong
    exact ⟨final, hrefused⟩
  · have hone : Text.isWritable 1 := by decide +kernel
    have haccount : ∀ n, AccountId.number 8 = .number n → Text.isWritable n := by
      rintro _ ⟨⟩
      decide +kernel
    rw [(htold _ (by simp)).2 haccount hone hone]
    rfl

/-- Nobody passes for a token that is not there, but not for a creator that is not there. -/
theorem nobody_passes_for_a_missing_token :
    let store : Store := {}
    store.contents.tokens[(5 : ItemId)]? = none ∧
      (∃ final, Holdings.ensureOwner .nobody 5 store = .ok () final) ∧
        ∃ final, Registry.ensureOwner .nobody "k" store =
          .error (.refused (.notCreatorOwner .nobody "k")) final :=
  ⟨rfl, ⟨_, rfl⟩, ⟨_, rfl⟩⟩

end EditionMarket
