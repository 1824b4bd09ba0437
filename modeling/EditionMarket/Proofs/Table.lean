import EditionMarket.Table
import Mathlib.Algebra.BigOperators.Group.List.Basic
import Mathlib.Algebra.Ring.Int.Defs
import Mathlib.Data.List.Nodup
import Mathlib.Data.List.Perm.Basic

/-!
# Tables of records

What holds of every record of a table, what is seen of them, how many records have a property, and what
numbers add up to, when a record is put into the table or dropped from it.

Main statements: `All.put` and `All.drop`, `count_eq_add`, `count_put_of_none` and
`count_put_of_eq`, and `sumOf_put`.
-/

namespace EditionMarket.Table

variable {κ ν : Type} [Ord κ] [Std.TransOrd κ]

/-! ## What holds of every record -/

/-- Every record of the table has the property, with its key. -/
def All (table : Table κ ν) (P : κ → ν → Prop) : Prop :=
  ∀ key record, table[key]? = some record → P key record

namespace All

variable {table : Table κ ν} {P Q : κ → ν → Prop} {key : κ} {record : ν}

theorem empty (P : κ → ν → Prop) : All (∅ : Table κ ν) P := by
  intro key record h
  simp at h

theorem mono (h : table.All P) (hpq : ∀ key record, P key record → Q key record) : table.All Q := by
  intro key record hr
  exact hpq key record (h key record hr)

/-- Where no record could have the property, there is none. -/
theorem getElem?_eq_none (h : table.All P) (hn : ∀ record, ¬ P key record) : table[key]? = none := by
  cases hf : table[key]? with
  | none => rfl
  | some record => exact absurd (h key record hf) (hn record)

variable [Std.LawfulEqOrd κ] [DecidableEq κ]

theorem put (h : table.All P) (hp : P key record) : (table.put key record).All P := by
  intro other found hf
  rw [getElem?_put] at hf
  split at hf
  case isTrue heq =>
    cases hf
    exact heq ▸ hp
  case isFalse => exact h other found hf

theorem drop (h : table.All P) : (table.drop key).All P := by
  intro other found hf
  rw [getElem?_drop] at hf
  split at hf
  · cases hf
  · exact h other found hf

end All

/-! ## What is seen of records -/

section Image

variable {μ : Type} [Std.LawfulEqOrd κ] [DecidableEq κ] {table : Table κ ν} {key : κ}
  {record next : ν}

/-- The table with every record replaced by what is seen of it. -/
def image (table : Table κ ν) (view : ν → μ) : Table κ μ := table.map fun _ => view

/-- Changes the record of a key, if there is one. -/
def change (table : Table κ ν) (key : κ) (f : ν → ν) : Table κ ν :=
  table.set key ((table[key]?).map f)

omit [DecidableEq κ] in
@[simp] theorem getElem?_image (table : Table κ ν) (view : ν → μ) (key : κ) :
    (table.image view)[key]? = (table[key]?).map view :=
  Std.ExtTreeMap.getElem?_map

theorem image_set (table : Table κ ν) (key : κ) (held : Option ν) (view : ν → μ) :
    (table.set key held).image view = (table.image view).set key (held.map view) := by
  apply eq_of_getElem?_eq
  intro other
  rw [getElem?_image, getElem?_set, getElem?_set, getElem?_image]
  split <;> rfl

theorem image_put (table : Table κ ν) (key : κ) (record : ν) (view : ν → μ) :
    (table.put key record).image view = (table.image view).put key (view record) :=
  image_set table key (some record) view

theorem image_drop (table : Table κ ν) (key : κ) (view : ν → μ) :
    (table.drop key).image view = (table.image view).drop key :=
  image_set table key none view

/-- To replace a record is to change what is seen of it. -/
theorem image_put_of_eq_some (h : table[key]? = some record) {view : ν → μ} {f : μ → μ}
    (hf : view next = f (view record)) :
    (table.put key next).image view = (table.image view).change key f := by
  unfold change
  rw [image_put, getElem?_image, h, hf]
  rfl

end Image

/-! ## How many records have a property -/

/-- The number of records that have the property. -/
def count (table : Table κ ν) (p : ν → Bool) : Nat := table.entries.countP fun entry => p entry.2

/-- Where no record has the property, there is nothing to count. -/
theorem count_eq_zero [Std.LawfulEqOrd κ] {table : Table κ ν} {p : ν → Bool}
    (h : table.All fun _ record => ¬ p record = true) : table.count p = 0 := by
  unfold count
  rw [List.countP_eq_zero]
  rintro ⟨key, record⟩ hm
  exact h key record (mem_entries_iff.1 hm)

variable [Std.LawfulEqOrd κ]

/-- No key stands twice among the entries. -/
theorem nodup_map_fst_entries (table : Table κ ν) : (table.entries.map Prod.fst).Nodup := by
  have hkeys : table.entries.Pairwise fun a b => ¬ compare a.1 b.1 = .eq :=
    Std.ExtTreeMap.distinct_keys_toList
  refine List.pairwise_map.2 (hkeys.imp fun {a b} hne heq => hne ?_)
  rw [heq]
  exact Std.ReflCmp.compare_self

theorem nodup_entries (table : Table κ ν) : table.entries.Nodup :=
  (nodup_map_fst_entries table).of_map

variable [DecidableEq κ] {table : Table κ ν} {key : κ} {record next : ν}

/-- Up to their order, the entries are one of them and those of the table without it. -/
theorem entries_perm_cons (h : table[key]? = some record) :
    table.entries.Perm ((key, record) :: (table.drop key).entries) := by
  have hnot : (key, record) ∉ (table.drop key).entries := by
    rw [mem_entries_iff, getElem?_drop, if_pos rfl]
    intro contra
    cases contra
  -- Both lists are free of duplicates, so they only have to have the same members.
  rw [List.perm_ext_iff_of_nodup (nodup_entries table)
    (List.nodup_cons.2 ⟨hnot, nodup_entries _⟩)]
  rintro ⟨other, found⟩
  rw [List.mem_cons, mem_entries_iff, mem_entries_iff, getElem?_drop, Prod.mk.injEq]
  by_cases hk : key = other
  · subst hk
    rw [if_pos rfl, h]
    simp [eq_comm]
  · rw [if_neg hk]
    simp [Ne.symm hk]

/-- A record that is there counts for one if it has the property. -/
theorem count_eq_add (h : table[key]? = some record) (p : ν → Bool) :
    table.count p = (table.drop key).count p + if p record then 1 else 0 := by
  unfold count
  rw [(entries_perm_cons h).countP_eq, List.countP_cons]

theorem drop_put (table : Table κ ν) (key : κ) (record : ν) :
    (table.put key record).drop key = table.drop key := by
  apply eq_of_getElem?_eq
  intro other
  rw [getElem?_drop, getElem?_drop, getElem?_put]
  by_cases hk : key = other
  · rw [if_pos hk, if_pos hk]
  · rw [if_neg hk, if_neg hk, if_neg hk]

/-- Only the record that was put last counts. -/
theorem put_put (table : Table κ ν) (key : κ) (first second : ν) :
    (table.put key first).put key second = table.put key second := by
  apply eq_of_getElem?_eq
  intro other
  rw [getElem?_put, getElem?_put, getElem?_put]
  by_cases hk : key = other
  · rw [if_pos hk, if_pos hk]
  · rw [if_neg hk, if_neg hk, if_neg hk]

theorem drop_of_none (h : table[key]? = none) : table.drop key = table := by
  apply eq_of_getElem?_eq
  intro other
  rw [getElem?_drop]
  by_cases hk : key = other
  · rw [if_pos hk, ← hk, h]
  · rw [if_neg hk]

/-- A new record adds to the count if it has the property. -/
theorem count_put_of_none (h : table[key]? = none) (record : ν) (p : ν → Bool) :
    (table.put key record).count p = table.count p + if p record then 1 else 0 := by
  have hput : (table.put key record)[key]? = some record := by
    rw [getElem?_put, if_pos rfl]
  rw [count_eq_add hput, drop_put, drop_of_none h]

/-- A record that is replaced by one that has the property just as well does not change the count. -/
theorem count_put_of_eq (h : table[key]? = some record) {p : ν → Bool} (hp : p next = p record) :
    (table.put key next).count p = table.count p := by
  have hput : (table.put key next)[key]? = some next := by
    rw [getElem?_put, if_pos rfl]
  -- Without the record both tables are the same.
  rw [count_eq_add hput, count_eq_add h, drop_put, hp]

/-! ## What numbers add up to -/

/-- The sum over all records of a number that each of them has. -/
def sumOf (table : Table κ ν) (number : ν → Int) : Int :=
  (table.entries.map fun entry => number entry.2).sum

theorem sumOf_eq_add (h : table[key]? = some record) (number : ν → Int) :
    table.sumOf number = (table.drop key).sumOf number + number record := by
  unfold sumOf
  rw [((entries_perm_cons h).map fun entry => number entry.2).sum_eq, List.map_cons, List.sum_cons,
    Int.add_comm]

/-- A record takes the place of the one that was there, if there was one. -/
theorem sumOf_put (table : Table κ ν) (key : κ) (record : ν) (number : ν → Int) :
    (table.put key record).sumOf number =
      table.sumOf number - ((table[key]?).map number).getD 0 + number record := by
  have hput : (table.put key record)[key]? = some record := by
    rw [getElem?_put, if_pos rfl]
  have hrest : (table.drop key).sumOf number =
      table.sumOf number - ((table[key]?).map number).getD 0 := by
    cases h : table[key]? with
    | none => simp [drop_of_none h]
    | some old => simp [sumOf_eq_add h]
  rw [sumOf_eq_add hput, drop_put, hrest]

/-- The sum of the numbers of a table. -/
def sum (numbers : Table κ Int) : Int := (numbers.entries.map Prod.snd).sum

/-- A number takes the place of the one that was there. Where there was none it is as if it had been
zero. -/
theorem sum_put (numbers : Table κ Int) (key : κ) (number : Int) :
    (numbers.put key number).sum = numbers.sum - (numbers[key]?).getD 0 + number := by
  have h := sumOf_put numbers key number id
  rw [Option.map_id, id, id] at h
  exact h

end EditionMarket.Table
