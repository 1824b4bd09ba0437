import Std.Data.ExtTreeMap

/-!
# Tables

A table is a finite map that lists its keys in ascending order. Two tables with the same entries are
equal, in whatever order the entries were made.

Main statements: `getElem?_put`, `getElem?_drop` and `eq_of_getElem?_eq` are all that is needed to
calculate with tables.
-/

namespace EditionMarket

/-- A finite map, ordered by key. -/
abbrev Table (κ ν : Type) [Ord κ] := Std.ExtTreeMap κ ν compare

namespace Table

variable {κ ν : Type} [Ord κ] [Std.TransOrd κ] [Std.LawfulEqOrd κ]

/-- Gives a key a value. -/
def put (table : Table κ ν) (key : κ) (value : ν) : Table κ ν := table.insert key value

/-- Removes a key, if it is there. -/
def drop (table : Table κ ν) (key : κ) : Table κ ν := table.erase key

/-- Gives a key a value, or removes it if there is none. -/
def set (table : Table κ ν) (key : κ) : Option ν → Table κ ν
  | some value => table.put key value
  | none => table.drop key

/-- The keys in ascending order, with their values. -/
def entries (table : Table κ ν) : List (κ × ν) := table.toList

/-- The entry that was put is found, and every other as before. -/
@[grind =] theorem getElem?_put [DecidableEq κ] (table : Table κ ν) (key other : κ) (value : ν) :
    (table.put key value)[other]? = if key = other then some value else table[other]? := by
  simp [put, Std.ExtTreeMap.getElem?_insert, Std.LawfulEqCmp.compare_eq_iff_eq]

/-- The key that was dropped is not found, and every other as before. -/
@[grind =] theorem getElem?_drop [DecidableEq κ] (table : Table κ ν) (key other : κ) :
    (table.drop key)[other]? = if key = other then none else table[other]? := by
  simp [drop, Std.ExtTreeMap.getElem?_erase, Std.LawfulEqCmp.compare_eq_iff_eq]

/-- What was set is found, and every other entry as before. -/
@[grind =] theorem getElem?_set [DecidableEq κ] (table : Table κ ν) (key other : κ)
    (value : Option ν) :
    (table.set key value)[other]? = if key = other then value else table[other]? := by
  cases value <;> simp [set, getElem?_put, getElem?_drop]

/-- A table is what its look-ups say. -/
theorem eq_of_getElem?_eq {a b : Table κ ν} (h : ∀ key : κ, a[key]? = b[key]?) : a = b :=
  Std.ExtTreeMap.ext_getElem? h

/-- Setting a key to what it holds changes nothing. -/
theorem set_getElem?_self [DecidableEq κ] (table : Table κ ν) (key : κ) :
    table.set key table[key]? = table := by
  apply eq_of_getElem?_eq
  intro other
  by_cases h : key = other <;> simp [getElem?_set, h]

/-- The entries are what the look-ups find. -/
theorem mem_entries_iff {table : Table κ ν} {key : κ} {value : ν} :
    (key, value) ∈ table.entries ↔ table[key]? = some value :=
  Std.ExtTreeMap.mem_toList_iff_getElem?_eq_some

end Table

end EditionMarket
