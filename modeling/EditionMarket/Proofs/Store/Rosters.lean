import EditionMarket.Proofs.Roster
import EditionMarket.Proofs.Table
import Mathlib.Logic.Function.Basic

/-!
# Tables of rosters

A table of rosters says for every key which items belong to it. A key without a roster has no items. This
file gives the two moves by which a store changes such a table, and says when the table is in step with
what the records say: every item is on the roster of its holder, once, and on no other.

Main statements: `InStep.enroll`, `InStep.strike` and `InStep.move`, rosters stay in step if an item enters,
leaves, or goes from one holder to another, and `InStep.hasRoom_iff`, there is room for more as long as there
are few enough records.
-/

namespace EditionMarket.Table

variable {κ ι ν : Type} [Ord κ] [Std.TransOrd κ]

/-! ## Rosters by key -/

/-- The roster of a key; an empty one if there is none. -/
def rosterAt (rosters : Table κ (Roster ι)) (capacity : Nat) (key : κ) : Roster ι :=
  (rosters[key]?).getD (.empty capacity)

/-- The items on the roster of a key. -/
def itemsAt (rosters : Table κ (Roster ι)) (key : κ) : List ι :=
  ((rosters[key]?).map Roster.items).getD []

/-- The roster of a key, or the one it would be given, can take something in. -/
def HasRoom (rosters : Table κ (Roster ι)) (capacity : Nat) (key : κ) : Prop :=
  (rosters.rosterAt capacity key).size < (rosters.rosterAt capacity key).capacity

/-- The table after an item has entered the roster of a key. If there is no room, nothing happens. -/
def enrolled (rosters : Table κ (Roster ι)) (capacity : Nat) (key : κ) (item : ι) :
    Table κ (Roster ι) :=
  match (rosters.rosterAt capacity key).push? item with
  | some longer => rosters.put key longer
  | none => rosters

/-- The table after an item has left the roster of a key. A roster that is empty then is dropped. If the
item is not on the roster, nothing happens. -/
def struck [DecidableEq ι] (rosters : Table κ (Roster ι)) (key : κ) (item : ι) :
    Table κ (Roster ι) :=
  match rosters[key]? with
  | none => rosters
  | some roster =>
    if item ∈ roster.items then
      rosters.set key
        (if (roster.remove item).items = [] then none else some (roster.remove item))
    else rosters

theorem items_rosterAt (rosters : Table κ (Roster ι)) (capacity : Nat) (key : κ) :
    (rosters.rosterAt capacity key).items = rosters.itemsAt key := by
  unfold rosterAt itemsAt
  cases rosters[key]? <;> rfl

theorem itemsAt_of_eq_some {rosters : Table κ (Roster ι)} {key : κ} {roster : Roster ι}
    (h : rosters[key]? = some roster) : rosters.itemsAt key = roster.items := by
  unfold itemsAt
  rw [h]
  rfl

/-- If there is room, the roster of the key is replaced by one with the item at its end. -/
theorem enrolled_eq_put {rosters : Table κ (Roster ι)} {capacity : Nat} {key : κ}
    (h : rosters.HasRoom capacity key) (item : ι) :
    ∃ longer : Roster ι,
      longer.capacity = (rosters.rosterAt capacity key).capacity ∧
        longer.items = rosters.itemsAt key ++ [item] ∧
          rosters.enrolled capacity key item = rosters.put key longer := by
  obtain ⟨longer, hp, hc, hi⟩ := Roster.push?_eq_some_of_lt h item
  refine ⟨longer, hc, ?_, ?_⟩
  · rw [hi, items_rosterAt]
  · unfold enrolled
    rw [hp]

/-- If the item is there, the roster of the key is replaced by one without it, or dropped. -/
theorem struck_eq_set [DecidableEq ι] {rosters : Table κ (Roster ι)} {key : κ} {item : ι}
    (h : item ∈ rosters.itemsAt key) :
    ∃ roster, rosters[key]? = some roster ∧ item ∈ roster.items ∧
      rosters.struck key item =
        rosters.set key
          (if (roster.remove item).items = [] then none else some (roster.remove item)) := by
  cases hr : rosters[key]? with
  | none =>
    unfold itemsAt at h
    rw [hr] at h
    cases h
  | some roster =>
    rw [itemsAt_of_eq_some hr] at h
    refine ⟨roster, rfl, h, ?_⟩
    unfold struck
    rw [hr]
    exact if_pos h

variable [Std.LawfulEqOrd κ] [DecidableEq κ]

/-- Whether or not the item has entered, only the roster of the key can be another one. -/
theorem enrolled_eq_set (rosters : Table κ (Roster ι)) (capacity : Nat) (key : κ) (item : ι) :
    ∃ held, rosters.enrolled capacity key item = rosters.set key held := by
  unfold enrolled
  cases (rosters.rosterAt capacity key).push? item with
  | some longer => exact ⟨some longer, rfl⟩
  | none => exact ⟨rosters[key]?, (set_getElem?_self rosters key).symm⟩

theorem itemsAt_enrolled {rosters : Table κ (Roster ι)} {capacity : Nat} {key : κ}
    (h : rosters.HasRoom capacity key) (item : ι) (other : κ) :
    (rosters.enrolled capacity key item).itemsAt other =
      if key = other then rosters.itemsAt key ++ [item] else rosters.itemsAt other := by
  obtain ⟨longer, -, hi, he⟩ := enrolled_eq_put h item
  rw [he]
  unfold itemsAt
  rw [getElem?_put]
  split
  · exact hi
  · rfl

variable [DecidableEq ι]

theorem itemsAt_struck {rosters : Table κ (Roster ι)} {key : κ} {item : ι}
    (h : item ∈ rosters.itemsAt key) (other : κ) :
    (rosters.struck key item).itemsAt other =
      if key = other then Roster.swapOut item (rosters.itemsAt key) else rosters.itemsAt other := by
  obtain ⟨roster, hr, hm, he⟩ := struck_eq_set h
  rw [he, itemsAt_of_eq_some hr]
  unfold itemsAt
  rw [getElem?_set]
  by_cases hk : key = other
  · rw [if_pos hk, if_pos hk, ← Roster.items_remove hm]
    split
    case isTrue hnil => exact hnil.symm
    case isFalse => rfl
  · rw [if_neg hk, if_neg hk]

/-- Whether or not the item was there, only the roster of the key can be another one. -/
theorem struck_eq_set_held (rosters : Table κ (Roster ι)) (key : κ) (item : ι) :
    ∃ held, rosters.struck key item = rosters.set key held := by
  by_cases h : item ∈ rosters.itemsAt key
  · obtain ⟨roster, -, -, he⟩ := struck_eq_set h
    exact ⟨_, he⟩
  · refine ⟨rosters[key]?, ?_⟩
    rw [set_getElem?_self]
    unfold struck
    cases hr : rosters[key]? with
    | none => rfl
    | some roster =>
      rw [itemsAt_of_eq_some hr] at h
      exact if_neg h

theorem getElem?_struck_of_ne (rosters : Table κ (Roster ι)) {key other : κ} (hk : key ≠ other)
    (item : ι) : (rosters.struck key item)[other]? = rosters[other]? := by
  unfold struck
  cases rosters[key]? with
  | none => rfl
  | some roster =>
    dsimp only
    split
    · rw [getElem?_set, if_neg hk]
    · rfl

/-- On different keys it does not matter whether an item enters or leaves first. -/
theorem struck_enrolled_of_ne (rosters : Table κ (Roster ι)) (capacity : Nat) {key other : κ}
    (hk : key ≠ other) (item : ι) :
    (rosters.enrolled capacity key item).struck other item =
      (rosters.struck other item).enrolled capacity key item := by
  have hroster : (rosters.struck other item).rosterAt capacity key =
      rosters.rosterAt capacity key := by
    unfold rosterAt
    rw [getElem?_struck_of_ne rosters hk.symm]
  unfold enrolled
  rw [hroster]
  cases (rosters.rosterAt capacity key).push? item with
  | none => rfl
  | some longer =>
    dsimp only
    -- The item leaves the same roster, whether or not the other one has been replaced.
    unfold struck
    rw [getElem?_put, if_neg hk]
    cases rosters[other]? with
    | none => rfl
    | some roster =>
      dsimp only
      split
      case isFalse => rfl
      case isTrue =>
        apply eq_of_getElem?_eq
        intro third
        rw [getElem?_set, getElem?_put, getElem?_put, getElem?_set]
        by_cases h : other = third
        · subst h
          rw [if_pos rfl, if_neg hk, if_pos rfl]
        · rw [if_neg h, if_neg h]

/-- Leaving right after entering gives back the table, if it has no empty roster for the key. -/
theorem struck_enrolled_self {rosters : Table κ (Roster ι)} {capacity : Nat} {key : κ}
    (h : rosters.HasRoom capacity key) (item : ι)
    (hne : ∀ roster : Roster ι, rosters[key]? = some roster → roster.items ≠ []) :
    (rosters.enrolled capacity key item).struck key item = rosters := by
  have hmem : item ∈ (rosters.enrolled capacity key item).itemsAt key := by
    rw [itemsAt_enrolled h, if_pos rfl]
    exact List.mem_append_right _ (List.mem_singleton_self item)
  obtain ⟨longer, hc, hi, he⟩ := enrolled_eq_put h item
  obtain ⟨roster, hr, hm, hs⟩ := struck_eq_set hmem
  rw [he, getElem?_put, if_pos rfl] at hr
  cases hr
  have hremove : (longer.remove item).items = rosters.itemsAt key := by
    rw [Roster.items_remove hm, hi, Roster.swapOut_concat]
  rw [hs, hremove, he]
  apply eq_of_getElem?_eq
  intro other
  rw [getElem?_set, getElem?_put]
  by_cases hk : key = other
  -- What is left has the items and the capacity of the roster that was there. Without items it is
  -- dropped, and there was none.
  · subst hk
    rw [if_pos rfl]
    unfold rosterAt at hc
    unfold itemsAt at hremove ⊢
    cases hfound : rosters[key]? with
    | none => rfl
    | some roster =>
      rw [hfound] at hc hremove
      simp only [Option.map_some, Option.getD_some, if_neg (hne roster hfound)]
      congr 1
      exact Roster.ext_items ((Roster.capacity_remove longer item).trans hc) hremove
  · rw [if_neg hk, if_neg hk]

/-! ## No empty rosters -/

/-- Every roster of the table has items. -/
def Filled (rosters : Table κ (Roster ι)) : Prop := rosters.All fun _ roster => roster.items ≠ []

namespace Filled

variable {rosters : Table κ (Roster ι)} {capacity : Nat} {key : κ}

omit [DecidableEq ι] in
theorem enrolled (h : rosters.Filled) (hroom : rosters.HasRoom capacity key) (item : ι) :
    (rosters.enrolled capacity key item).Filled := by
  obtain ⟨longer, -, hi, he⟩ := enrolled_eq_put hroom item
  rw [he]
  refine All.put h ?_
  rw [hi]
  simp

/-- A roster that has lost its last item is not kept. -/
theorem struck (h : rosters.Filled) (key : κ) (item : ι) : (rosters.struck key item).Filled := by
  unfold Table.struck
  split
  case h_1 => exact h
  case h_2 roster _ =>
    split
    case isFalse => exact h
    case isTrue =>
      by_cases hnil : (roster.remove item).items = []
      · rw [if_pos hnil]
        exact All.drop h
      · rw [if_neg hnil]
        exact All.put h hnil

end Filled

/-! ## Holders -/

/-- Who holds each item of a table of records; `f` says so of a record. -/
def holder (records : Table κ ν) (f : ν → Option ι) (item : κ) : Option ι :=
  (records[item]?).bind f

omit [DecidableEq ι] in
theorem holder_put (records : Table κ ν) (f : ν → Option ι) (item : κ) (record : ν) :
    (records.put item record).holder f = Function.update (records.holder f) item (f record) := by
  funext other
  unfold holder
  rw [getElem?_put]
  by_cases h : item = other
  · subst h
    rw [if_pos rfl, Function.update_self]
    rfl
  · rw [if_neg h, Function.update_of_ne (Ne.symm h)]

omit [DecidableEq ι] in
theorem holder_drop (records : Table κ ν) (f : ν → Option ι) (item : κ) :
    (records.drop item).holder f = Function.update (records.holder f) item none := by
  funext other
  unfold holder
  rw [getElem?_drop]
  by_cases h : item = other
  · subst h
    rw [if_pos rfl, Function.update_self]
    rfl
  · rw [if_neg h, Function.update_of_ne (Ne.symm h)]

omit [Std.LawfulEqOrd κ] [DecidableEq κ] [DecidableEq ι] in
theorem holder_of_eq_some {records : Table κ ν} {item : κ} {record : ν}
    (h : records[item]? = some record) (f : ν → Option ι) : records.holder f item = f record := by
  unfold holder
  rw [h]
  rfl

omit [Std.LawfulEqOrd κ] [DecidableEq κ] [DecidableEq ι] in
theorem holder_of_eq_none {records : Table κ ν} {item : κ} (h : records[item]? = none)
    (f : ν → Option ι) : records.holder f item = none := by
  unfold holder
  rw [h]
  rfl

omit [DecidableEq ι] in
/-- A record that is replaced by one with the same holder makes no difference. -/
theorem holder_put_of_eq {records : Table κ ν} {f : ν → Option ι} {item : κ} {record next : ν}
    (h : records[item]? = some record) (hf : f next = f record) :
    (records.put item next).holder f = records.holder f := by
  rw [holder_put, hf, ← holder_of_eq_some h f, Function.update_eq_self]

/-! ## Rosters in step with the holders -/

/-- The rosters are in step with the holders of the items: an item is on the roster of its holder and on
no other, and it is there once. Every roster has the given capacity and is not empty. -/
structure InStep (rosters : Table κ (Roster ι)) (capacity : Nat) (holder : ι → Option κ) : Prop where
  mem_iff : ∀ key item, item ∈ rosters.itemsAt key ↔ holder item = some key
  nodup : ∀ key, (rosters.itemsAt key).Nodup
  items_ne_nil : ∀ (key : κ) (roster : Roster ι), rosters[key]? = some roster → roster.items ≠ []
  capacity_eq : ∀ (key : κ) (roster : Roster ι), rosters[key]? = some roster → roster.capacity = capacity

/-- The roster of a key has taken an item in at its end. -/
def Gained (before after : Table κ (Roster ι)) (capacity : Nat) (key : κ) (item : ι) : Prop :=
  ∃ roster, after[key]? = some roster ∧ roster.capacity = capacity ∧
    roster.items = before.itemsAt key ++ [item]

/-- An item has left the roster of a key. If it was the only one there is no roster left, and else the roster
has the same other items. -/
def Lost (before after : Table κ (Roster ι)) (capacity : Nat) (key : κ) (item : ι) : Prop :=
  if before.itemsAt key = [item] then after[key]? = none
  else
    ∃ roster, after[key]? = some roster ∧ roster.capacity = capacity ∧
      (before.itemsAt key).Perm (item :: roster.items) ∧ item ∉ roster.items

namespace InStep

variable {rosters : Table κ (Roster ι)} {capacity : Nat} {holder : ι → Option κ} {key : κ} {item : ι}

omit [Std.LawfulEqOrd κ] [DecidableEq κ] [DecidableEq ι] in
theorem empty (capacity : Nat) :
    InStep (∅ : Table κ (Roster ι)) capacity fun _ => none where
  mem_iff _ _ := by simp [itemsAt]
  nodup _ := by simp [itemsAt]
  items_ne_nil _ _ h := by simp at h
  capacity_eq _ _ h := by simp at h

omit [Std.LawfulEqOrd κ] [DecidableEq κ] [DecidableEq ι] in
/-- The capacity of a key's roster, be it there or not. -/
theorem capacity_rosterAt (h : InStep rosters capacity holder) (key : κ) :
    (rosters.rosterAt capacity key).capacity = capacity := by
  unfold rosterAt
  cases hr : rosters[key]? with
  | none => rfl
  | some roster => exact h.capacity_eq key roster hr

omit [Std.LawfulEqOrd κ] [DecidableEq κ] [DecidableEq ι] in
/-- A roster has items, has none of them twice, and is no longer than its capacity. -/
theorem tidy (h : InStep rosters capacity holder) {roster : Roster ι}
    (hr : rosters[key]? = some roster) :
    roster.items ≠ [] ∧ roster.items.Nodup ∧ roster.items.length ≤ capacity := by
  have hnodup := h.nodup key
  rw [itemsAt_of_eq_some hr] at hnodup
  exact ⟨h.items_ne_nil key roster hr, hnodup, h.capacity_eq key roster hr ▸ roster.length_le⟩

/-- An item that nobody holds enters a roster. -/
theorem enroll (h : InStep rosters capacity holder)
    (hroom : rosters.HasRoom capacity key) (hfree : holder item = none) :
    InStep (rosters.enrolled capacity key item) capacity
      (Function.update holder item (some key)) := by
  obtain ⟨longer, hc, hi, he⟩ := enrolled_eq_put hroom item
  -- What nobody holds is on no roster, so it cannot come to be on two.
  have hnot : ∀ other, item ∉ rosters.itemsAt other := by
    intro other hm
    rw [h.mem_iff, hfree] at hm
    cases hm
  constructor
  case mem_iff =>
    intro other x
    rw [itemsAt_enrolled hroom]
    by_cases hx : x = item
    · subst hx
      rw [Function.update_self, Option.some.injEq]
      by_cases hk : key = other
      · simp [hk]
      · simp [hk, hnot other]
    · rw [Function.update_of_ne hx, ← h.mem_iff]
      by_cases hk : key = other
      · subst hk
        simp [hx]
      · simp [hk]
  case nodup =>
    intro other
    rw [itemsAt_enrolled hroom]
    split
    · exact List.nodup_append.2 ⟨h.nodup key, List.nodup_singleton item, fun x hx y hy hxy => by
        rw [List.mem_singleton.1 hy] at hxy
        exact hnot key (hxy ▸ hx)⟩
    · exact h.nodup other
  case items_ne_nil => exact Filled.enrolled h.items_ne_nil hroom item
  case capacity_eq =>
    intro other roster hr
    rw [he, getElem?_put] at hr
    split at hr
    · cases hr
      exact hc.trans (h.capacity_rosterAt key)
    · exact h.capacity_eq other roster hr

/-- An item leaves the roster of its holder. -/
theorem strike (h : InStep rosters capacity holder) (hheld : holder item = some key) :
    InStep (rosters.struck key item) capacity (Function.update holder item none) := by
  have hmem : item ∈ rosters.itemsAt key := (h.mem_iff key item).2 hheld
  obtain ⟨roster, hr, hm, he⟩ := struck_eq_set hmem
  constructor
  case mem_iff =>
    intro other x
    rw [itemsAt_struck hmem]
    by_cases hk : key = other
    -- On the holder's roster the item stood once, so it is gone.
    · subst hk
      rw [if_pos rfl, Roster.mem_swapOut_iff (h.nodup key) hmem]
      by_cases hx : x = item
      · subst hx
        simp
      · rw [Function.update_of_ne hx, ← h.mem_iff]
        simp [hx]
    -- On all other rosters it never was.
    · rw [if_neg hk, h.mem_iff]
      by_cases hx : x = item
      · subst hx
        rw [Function.update_self, hheld]
        simp [hk]
      · rw [Function.update_of_ne hx]
  case nodup =>
    intro other
    rw [itemsAt_struck hmem]
    split
    · exact Roster.nodup_swapOut (h.nodup key) hmem
    · exact h.nodup other
  case items_ne_nil => exact Filled.struck h.items_ne_nil key item
  case capacity_eq =>
    intro other shorter hs
    rw [he, getElem?_set] at hs
    split at hs
    · split at hs
      · cases hs
      · cases hs
        rw [Roster.capacity_remove]
        exact h.capacity_eq key roster hr
    · exact h.capacity_eq other shorter hs

/-- An item goes from its holder to another one, or to the same one: it enters the one roster before it
leaves the other, and for a moment it may be twice on the same roster. -/
theorem move {receiver : κ} (h : InStep rosters capacity holder)
    (hroom : rosters.HasRoom capacity receiver) (hheld : holder item = some key) :
    InStep ((rosters.enrolled capacity receiver item).struck key item) capacity
      (Function.update holder item (some receiver)) := by
  by_cases hk : receiver = key
  -- For a moment the item is on one roster twice, so neither `enroll` nor `strike` applies.
  · subst hk
    rw [struck_enrolled_self hroom item (h.items_ne_nil receiver), ← hheld,
      Function.update_eq_self]
    exact h
  -- On two rosters it may as well leave before it enters, and then nobody holds it in between.
  · rw [struck_enrolled_of_ne rosters capacity hk]
    have hstruck := h.strike hheld
    have hroom' : (rosters.struck key item).HasRoom capacity receiver := by
      unfold HasRoom rosterAt
      rw [getElem?_struck_of_ne rosters (Ne.symm hk)]
      exact hroom
    have henrolled := hstruck.enroll hroom' (Function.update_self item none holder)
    rw [Function.update_idem] at henrolled
    exact henrolled

/-! ## What becomes of one roster -/

omit [DecidableEq ι] in
/-- The roster that an item enters has it at its end. -/
theorem gained_enrolled (h : InStep rosters capacity holder) (hroom : rosters.HasRoom capacity key)
    (item : ι) : Gained rosters (rosters.enrolled capacity key item) capacity key item := by
  obtain ⟨longer, hc, hi, he⟩ := enrolled_eq_put hroom item
  refine ⟨longer, ?_, hc.trans (h.capacity_rosterAt key), hi⟩
  rw [he, getElem?_put, if_pos rfl]

/-- The roster that an item leaves has lost it. -/
theorem lost_struck (h : InStep rosters capacity holder) (hm : item ∈ rosters.itemsAt key) :
    Lost rosters (rosters.struck key item) capacity key item := by
  obtain ⟨roster, hr, hin, he⟩ := struck_eq_set hm
  have hitems := itemsAt_of_eq_some hr
  have hnodup : roster.items.Nodup := hitems ▸ h.nodup key
  have hperm : (roster.remove item).items.Perm (roster.items.erase item) := by
    rw [Roster.items_remove hin]
    exact Roster.swapOut_perm_erase hin
  unfold Lost
  rw [he, getElem?_set, if_pos rfl, hitems]
  by_cases honly : roster.items = [item]
  · rw [if_pos honly]
    rw [honly, List.erase_cons_head] at hperm
    rw [if_pos hperm.eq_nil]
  · rw [if_neg honly]
    -- Without its only item the roster would be empty, and it has others.
    have hrest : (roster.remove item).items ≠ [] := by
      intro hnil
      rw [hnil] at hperm
      rcases List.erase_eq_nil_iff.1 hperm.symm.eq_nil with hempty | hone
      · exact List.ne_nil_of_mem hin hempty
      · exact honly hone
    rw [if_neg hrest]
    refine ⟨roster.remove item, rfl, ?_, ?_, ?_⟩
    · rw [Roster.capacity_remove]
      exact h.capacity_eq key roster hr
    · exact (List.perm_cons_erase hin).trans (hperm.symm.cons item)
    · rw [hperm.mem_iff]
      exact hnodup.not_mem_erase

/-- An item that goes from one roster to another one is gained by the one and lost by the other. -/
theorem exchanged {receiver : κ} (h : InStep rosters capacity holder)
    (hroom : rosters.HasRoom capacity receiver) (hm : item ∈ rosters.itemsAt key) (hne : receiver ≠ key) :
    Gained rosters ((rosters.enrolled capacity receiver item).struck key item) capacity receiver item ∧
      Lost rosters ((rosters.enrolled capacity receiver item).struck key item) capacity key item := by
  constructor
  · unfold Gained
    rw [getElem?_struck_of_ne _ hne.symm]
    exact h.gained_enrolled hroom item
  -- The other roster does not notice whether the item has entered before.
  · obtain ⟨held, he⟩ := (rosters.struck key item).enrolled_eq_set capacity receiver item
    unfold Lost
    rw [struck_enrolled_of_ne rosters capacity hne, he, getElem?_set, if_neg hne]
    exact h.lost_struck hm

/-! ## Rosters count records -/

section Count

variable [Ord ι] [Std.TransOrd ι] [Std.LawfulEqOrd ι] {records : Table ι ν} {owner : ν → κ}

omit [DecidableEq ι] [Std.LawfulEqOrd κ] in
/-- A roster in step is as long as there are records of its key: up to their order, its items are what
these records stand under. -/
theorem length_itemsAt
    (h : InStep rosters capacity (records.holder fun record => some (owner record))) (key : κ) :
    (rosters.itemsAt key).length = records.count fun record => owner record = key := by
  have hmem : ∀ item, item ∈ rosters.itemsAt key ↔
      item ∈ (records.entries.filter fun entry => owner entry.2 = key).map Prod.fst := by
    intro item
    rw [h.mem_iff]
    simp [holder, mem_entries_iff, Option.bind_eq_some_iff]
  have hkeys : ((records.entries.filter fun entry => owner entry.2 = key).map Prod.fst).Nodup :=
    (nodup_map_fst_entries records).sublist (List.filter_sublist.map Prod.fst)
  unfold count
  rw [((List.perm_ext_iff_of_nodup (h.nodup key) hkeys).2 hmem).length_eq, List.length_map,
    List.countP_eq_length_filter]

omit [DecidableEq ι] [Std.LawfulEqOrd κ] in
/-- There is room on a roster as long as there are fewer records of its key than its capacity. -/
theorem hasRoom_iff
    (h : InStep rosters capacity (records.holder fun record => some (owner record))) (key : κ) :
    rosters.HasRoom capacity key ↔ records.count (fun record => owner record = key) < capacity := by
  unfold HasRoom Roster.size
  rw [h.capacity_rosterAt, items_rosterAt, h.length_itemsAt]

end Count

end InStep

end EditionMarket.Table
