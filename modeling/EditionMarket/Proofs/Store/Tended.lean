import EditionMarket.Proofs.Store.Effect
import EditionMarket.Proofs.Table

/-!
# Changes to tokens commute

Owners give their tokens other prices, or none, and burn them. A burnt token leaves the roster of its owner,
where the last token takes its place, and its edition counts it. So two changes to different tokens may be
changes to the same roster and the same edition; yet it does not matter which of them comes first, but for
the order of what is left on the roster.

Main definitions: `Contents.tendedBy` and `Contents.Alike`. Main statements: `Roster.alike_strike?_strike?`
and `Contents.alike_tendedBy`.
-/

namespace EditionMarket

/-! ## Rosters without two items -/

namespace Roster

variable {ι : Type}

/-- Two rosters have the same items, in whatever order. -/
structure Alike (a b : Roster ι) : Prop where
  capacity : a.capacity = b.capacity
  items : a.items.Perm b.items

/-- Of course a roster, or none, is like itself. -/
theorem rel_alike_refl (held : Option (Roster ι)) : Option.Rel Alike held held := by
  cases held with
  | none => exact .none
  | some roster => exact .some ⟨rfl, .refl _⟩

variable [DecidableEq ι] {roster : Roster ι} {item other : ι}

/-- The roster after an item has left it: none if it was the only one. -/
def strike? (roster : Roster ι) (item : ι) : Option (Roster ι) :=
  if item ∈ roster.items then
    if (roster.remove item).items = [] then none else some (roster.remove item)
  else some roster

theorem strike?_of_notMem (h : item ∉ roster.items) : roster.strike? item = some roster := if_neg h

theorem items_remove_perm (h : item ∈ roster.items) :
    (roster.remove item).items.Perm (roster.items.erase item) := by
  rw [items_remove h]
  exact swapOut_perm_erase h

/-- Another item stays. -/
theorem mem_items_remove (h : item ∈ roster.items) (hne : other ≠ item) :
    other ∈ (roster.remove item).items ↔ other ∈ roster.items := by
  rw [(items_remove_perm h).mem_iff, List.mem_erase_of_ne hne]

/-- Two items leave, and the roster is none if they were the only ones. -/
theorem bind_strike? (hitem : item ∈ roster.items) (hother : other ∈ roster.items)
    (hne : other ≠ item) :
    (roster.strike? item).bind (fun rest => rest.strike? other) =
      if ((roster.remove item).remove other).items = [] then none
      else some ((roster.remove item).remove other) := by
  have hleft : other ∈ (roster.remove item).items := (mem_items_remove hitem hne).2 hother
  have hsome : roster.strike? item = some (roster.remove item) := by
    unfold strike?
    rw [if_pos hitem, if_neg (List.ne_nil_of_mem hleft)]
  rw [hsome, Option.bind_some]
  exact if_pos hleft

/-- If one of the items is not there, it does not matter which of them is struck off first. -/
theorem bind_strike?_of_notMem (hother : other ∉ roster.items) (hne : other ≠ item) :
    (roster.strike? item).bind (fun rest => rest.strike? other) = roster.strike? item := by
  unfold strike?
  by_cases hitem : item ∈ roster.items
  · rw [if_pos hitem]
    split
    · rfl
    · exact if_neg fun h => hother ((mem_items_remove hitem hne).1 h)
  · rw [if_neg hitem]
    exact if_neg hother

/-- In whatever order two items leave, the roster is the same up to the order of what is left. -/
theorem alike_strike?_strike? (roster : Roster ι) (hne : other ≠ item) :
    Option.Rel Alike ((roster.strike? item).bind fun rest => rest.strike? other)
      ((roster.strike? other).bind fun rest => rest.strike? item) := by
  by_cases hitem : item ∈ roster.items
  case neg =>
    rw [strike?_of_notMem hitem, bind_strike?_of_notMem hitem hne.symm]
    exact rel_alike_refl _
  by_cases hother : other ∈ roster.items
  case neg =>
    rw [strike?_of_notMem hother, bind_strike?_of_notMem hother hne]
    exact rel_alike_refl _
  -- Both items are there. Up to order each leaves the others behind, so what is left is the same.
  have hperm :
      ((roster.remove item).remove other).items.Perm ((roster.remove other).remove item).items := by
    calc ((roster.remove item).remove other).items
      _ |>.Perm ((roster.remove item).items.erase other) :=
        items_remove_perm ((mem_items_remove hitem hne).2 hother)
      _ |>.Perm ((roster.items.erase item).erase other) := (items_remove_perm hitem).erase other
      _ |>.Perm ((roster.items.erase other).erase item) := by rw [List.erase_comm]
      _ |>.Perm ((roster.remove other).items.erase item) := (items_remove_perm hother).symm.erase item
      _ |>.Perm ((roster.remove other).remove item).items :=
        (items_remove_perm ((mem_items_remove hother hne.symm).2 hitem)).symm
  rw [bind_strike? hitem hother hne, bind_strike? hother hitem hne.symm]
  by_cases hnil : ((roster.remove item).remove other).items = []
  · rw [hnil] at hperm
    rw [if_pos hnil, if_pos (List.nil_perm.1 hperm)]
    exact .none
  · have hnil' : ((roster.remove other).remove item).items ≠ [] := by
      intro h
      rw [h] at hperm
      exact hnil (List.perm_nil.1 hperm)
    rw [if_neg hnil, if_neg hnil']
    exact .some ⟨by simp, hperm⟩

end Roster

namespace Table

variable {κ ν ι : Type} [Ord κ] [Std.TransOrd κ] [Std.LawfulEqOrd κ] [DecidableEq κ]

theorem getElem?_struck [DecidableEq ι] (rosters : Table κ (Roster ι)) (key other : κ) (item : ι) :
    (rosters.struck key item)[other]? =
      if key = other then (rosters[other]?).bind (fun roster => roster.strike? item)
      else rosters[other]? := by
  split
  case isFalse h => exact getElem?_struck_of_ne rosters h item
  case isTrue h =>
    subst h
    unfold struck
    cases hr : rosters[key]? with
    | none => exact hr
    | some roster =>
      dsimp only [Option.bind_some]
      unfold Roster.strike?
      split
      · rw [getElem?_set, if_pos rfl]
      · exact hr

/-- What is set under different keys may be set in any order. -/
theorem set_set_comm (table : Table κ ν) {key other : κ} (hne : key ≠ other) (a b : Option ν) :
    (table.set key a).set other b = (table.set other b).set key a := by
  apply eq_of_getElem?_eq
  intro third
  simp only [getElem?_set]
  by_cases h : other = third
  · rw [if_pos h, if_pos h, if_neg fun heq => hne (heq.trans h.symm)]
  · rw [if_neg h, if_neg h]

theorem getElem?_change (table : Table κ ν) (key other : κ) (f : ν → ν) :
    (table.change key f)[other]? =
      if key = other then (table[other]?).map f else table[other]? := by
  unfold change
  rw [getElem?_set]
  split
  case isTrue h => rw [h]
  case isFalse => rfl

/-- The same change may be made to two records in any order, and to one record twice. -/
theorem change_change_comm (table : Table κ ν) (key other : κ) (f : ν → ν) :
    (table.change key f).change other f = (table.change other f).change key f := by
  apply eq_of_getElem?_eq
  intro third
  simp only [getElem?_change]
  split <;> split <;> rfl

end Table

/-! ## What owners do to their tokens -/

/-- What an owner does to a token: it is given another price, or none, or it is burnt. -/
inductive TokenChange
  | price (price : Option Int)
  | burn
deriving DecidableEq

namespace TokenChange

/-- What is left of the token. -/
def apply (token : Token) : TokenChange → Option Token
  | price amount => some { token with price := amount }
  | burn => none

/-- What becomes of the editions: a burnt token is counted by its own. -/
def editions (token : Token) (editions : Table ItemId Edition) : TokenChange → Table ItemId Edition
  | price _ => editions
  | burn => editions.change token.edition Edition.burnOne

/-- What becomes of the rosters: a burnt token leaves that of its owner. -/
def tokensOf (token : Token) (id : ItemId) (rosters : Table AccountId (Roster ItemId)) :
    TokenChange → Table AccountId (Roster ItemId)
  | price _ => rosters
  | burn => rosters.struck token.owner id

/-- No edition comes or goes. -/
theorem getElem?_editions_eq_none_iff (token : Token) (editions : Table ItemId Edition)
    (change : TokenChange) {id : ItemId} :
    (change.editions token editions)[id]? = none ↔ editions[id]? = none := by
  cases change with
  | price _ => exact Iff.rfl
  | burn =>
    show (editions.change token.edition Edition.burnOne)[id]? = none ↔ _
    rw [Table.getElem?_change]
    split
    · exact Option.map_eq_none_iff
    · exact Iff.rfl

/-- Burns count the same in any order. -/
theorem editions_comm (token record : Token) (editions : Table ItemId Edition)
    (first second : TokenChange) :
    second.editions record (first.editions token editions) =
      first.editions token (second.editions record editions) := by
  cases first <;> cases second <;> try rfl
  exact Table.change_change_comm _ _ _ _

/-- In whatever order tokens are struck off, rosters are the same up to their order. -/
theorem alike_tokensOf (token record : Token) {id other : ItemId} (hne : id ≠ other)
    (rosters : Table AccountId (Roster ItemId)) (first second : TokenChange) (account : AccountId) :
    Option.Rel Roster.Alike
      (second.tokensOf record other (first.tokensOf token id rosters))[account]?
      (first.tokensOf token id (second.tokensOf record other rosters))[account]? := by
  cases first <;> cases second <;> try exact Roster.rel_alike_refl _
  simp only [tokensOf, Table.getElem?_struck]
  split
  case isFalse => exact Roster.rel_alike_refl _
  case isTrue =>
    split
    case isFalse => exact Roster.rel_alike_refl _
    -- Both tokens leave the roster of the account.
    case isTrue =>
      cases rosters[account]? with
      | none => exact .none
      | some roster => exact roster.alike_strike?_strike? hne.symm

end TokenChange

namespace Contents

/-- The contents after a change to a token, if it is there. -/
def tended (contents : Contents) (id : ItemId) (change : TokenChange) : Contents :=
  match contents.tokens[id]? with
  | none => contents
  | some token =>
    { contents with
      editions := change.editions token contents.editions
      tokens := contents.tokens.set id (change.apply token)
      tokensOf := change.tokensOf token id contents.tokensOf }

/-- The same, if there is a change at all. -/
def tendedBy (contents : Contents) : Option (ItemId × TokenChange) → Contents
  | none => contents
  | some (id, change) => contents.tended id change

/-- Two contents are the same up to the order of the rosters of tokens. -/
structure Alike (a b : Contents) : Prop where
  creators : a.creators = b.creators
  creatorsOf : a.creatorsOf = b.creatorsOf
  editions : a.editions = b.editions
  editionsOf : a.editionsOf = b.editionsOf
  tokens : a.tokens = b.tokens
  tokensOf : ∀ account : AccountId,
    Option.Rel Roster.Alike a.tokensOf[account]? b.tokensOf[account]?
  lastEdition : a.lastEdition = b.lastEdition
  lastToken : a.lastToken = b.lastToken

theorem Alike.refl (contents : Contents) : contents.Alike contents :=
  ⟨rfl, rfl, rfl, rfl, rfl, fun _ => Roster.rel_alike_refl _, rfl, rfl⟩

variable {contents : Contents} {id other : ItemId} {token : Token} {change : TokenChange}

theorem tended_of_eq_none (h : contents.tokens[id]? = none) (change : TokenChange) :
    contents.tended id change = contents := by
  unfold tended
  rw [h]

theorem tended_of_eq_some (h : contents.tokens[id]? = some token) (change : TokenChange) :
    contents.tended id change =
      { contents with
        editions := change.editions token contents.editions
        tokens := contents.tokens.set id (change.apply token)
        tokensOf := change.tokensOf token id contents.tokensOf } := by
  unfold tended
  rw [h]

theorem tended_price (h : contents.tokens[id]? = some token) (amount : Option Int) :
    contents.tended id (.price amount) = contents.priced id token amount :=
  tended_of_eq_some h (.price amount)

theorem tended_burn {source : Edition} (h : contents.tokens[id]? = some token)
    (hsource : contents.editions[token.edition]? = some source) :
    contents.tended id .burn = contents.burned id token source := by
  have hcount : contents.editions.change token.edition Edition.burnOne =
      contents.editions.put token.edition source.burnOne := by
    unfold Table.change
    rw [hsource]
    rfl
  rw [tended_of_eq_some h]
  unfold burned TokenChange.editions
  rw [hcount]
  rfl

/-- Other tokens stay as they are. -/
theorem tokens_tended_of_ne (hne : id ≠ other) :
    (contents.tended id change).tokens[other]? = contents.tokens[other]? := by
  cases h : contents.tokens[id]? with
  | none => rw [tended_of_eq_none h]
  | some token =>
    rw [tended_of_eq_some h]
    show (contents.tokens.set id _)[other]? = _
    rw [Table.getElem?_set, if_neg hne]

/-- Editions stay where they are. -/
theorem editions_tended_eq_none_iff :
    (contents.tended id change).editions[other]? = none ↔ contents.editions[other]? = none := by
  cases h : contents.tokens[id]? with
  | none => rw [tended_of_eq_none h]
  | some token =>
    rw [tended_of_eq_some h]
    exact change.getElem?_editions_eq_none_iff token contents.editions

/-- Changes to two tokens commute, up to the order of rosters. -/
theorem alike_tended (contents : Contents) (hne : id ≠ other) (first second : TokenChange) :
    ((contents.tended id first).tended other second).Alike
      ((contents.tended other second).tended id first) := by
  have hid : (contents.tended other second).tokens[id]? = contents.tokens[id]? :=
    tokens_tended_of_ne hne.symm
  have hother : (contents.tended id first).tokens[other]? = contents.tokens[other]? :=
    tokens_tended_of_ne hne
  cases htoken : contents.tokens[id]? with
  | none =>
    rw [tended_of_eq_none htoken, tended_of_eq_none (hid.trans htoken)]
    exact .refl _
  | some token =>
    cases hrecord : contents.tokens[other]? with
    | none =>
      rw [tended_of_eq_none hrecord, tended_of_eq_none (hother.trans hrecord)]
      exact .refl _
    | some record =>
      rw [tended_of_eq_some (hother.trans hrecord), tended_of_eq_some (hid.trans htoken),
        tended_of_eq_some htoken, tended_of_eq_some hrecord]
      exact
        { creators := rfl
          creatorsOf := rfl
          editions := TokenChange.editions_comm token record _ first second
          editionsOf := rfl
          tokens := Table.set_set_comm _ hne _ _
          tokensOf := TokenChange.alike_tokensOf token record hne _ first second
          lastEdition := rfl
          lastToken := rfl }

/-- The same for changes that may not have been made. -/
theorem alike_tendedBy (contents : Contents) {first second : Option (ItemId × TokenChange)}
    (hne : ∀ x ∈ first, ∀ y ∈ second, x.1 ≠ y.1) :
    ((contents.tendedBy first).tendedBy second).Alike
      ((contents.tendedBy second).tendedBy first) := by
  cases first with
  | none => exact .refl _
  | some x =>
    cases second with
    | none => exact .refl _
    | some y => exact contents.alike_tended (hne x rfl y rfl) x.2 y.2

/-- Two contents agree on a token: on its record, and on which editions there are. -/
structure AgreeOn (id : ItemId) (a b : Contents) : Prop where
  token : a.tokens[id]? = b.tokens[id]?
  editions : ∀ edition : ItemId, a.editions[edition]? = none ↔ b.editions[edition]? = none

/-- Whatever is done to other tokens, the contents agree on this one. -/
theorem agreeOn_tendedBy (contents : Contents) {made : Option (ItemId × TokenChange)}
    (hne : ∀ x ∈ made, x.1 ≠ id) : (contents.tendedBy made).AgreeOn id contents := by
  cases made with
  | none => exact ⟨rfl, fun _ => Iff.rfl⟩
  | some x => exact ⟨tokens_tended_of_ne (hne x rfl), fun _ => editions_tended_eq_none_iff⟩

end Contents

end EditionMarket
