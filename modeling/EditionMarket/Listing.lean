/-!
# Listings

A listing has values under keys, in the order in which the keys were put. A key that is put again keeps
its place and has the new value.

Main statements: `get?_put_self` and `get?_put_of_ne` say what a look-up finds after a key was put,
`keys_put_of_mem` and `keys_put_of_notMem` say in which order the keys stand, and `nodup_keys_put` that
they stay different from one another.
-/

namespace EditionMarket

/-- Values under keys, in order. -/
abbrev Listing (κ ν : Type) := List (κ × ν)

namespace Listing

variable {κ ν : Type} [DecidableEq κ]

/-- The value under a key. -/
def get? (listing : Listing κ ν) (key : κ) : Option ν := listing.lookup key

omit [DecidableEq κ] in
/-- The keys. -/
def keys (listing : Listing κ ν) : List κ := listing.map Prod.fst

/-- Gives a key a value: in its place if it is there, at the end if not. -/
def put : Listing κ ν → κ → ν → Listing κ ν
  | [], key, value => [(key, value)]
  | (k, v) :: rest, key, value =>
    if k = key then (k, value) :: rest else (k, v) :: put rest key value

/-- Puts the entries of another listing one after the other. -/
def putAll (listing more : Listing κ ν) : Listing κ ν :=
  more.foldl (fun acc entry => put acc entry.1 entry.2) listing

/-- A key has the value that was put last. -/
@[simp] theorem get?_put_self (listing : Listing κ ν) (key : κ) (value : ν) :
    (listing.put key value).get? key = some value := by
  induction listing with
  | nil => simp [put, get?]
  | cons entry rest ih =>
    obtain ⟨k, v⟩ := entry
    by_cases hk : k = key
    · simp [put, get?, hk]
    · have hne : (key == k) = false := by simpa using fun h => hk h.symm
      simp only [put, hk, if_false, get?, List.lookup_cons, hne]
      exact ih

/-- Putting one key leaves the others alone. -/
theorem get?_put_of_ne (listing : Listing κ ν) {key other : κ} (value : ν) (h : other ≠ key) :
    (listing.put key value).get? other = listing.get? other := by
  have hne : (other == key) = false := by simpa using h
  induction listing with
  | nil => simp [put, get?, List.lookup_cons, hne]
  | cons entry rest ih =>
    obtain ⟨k, v⟩ := entry
    by_cases hk : k = key
    · simp [put, get?, List.lookup_cons, hk, hne]
    · simp only [put, hk, if_false, get?, List.lookup_cons]
      split
      · rfl
      · exact ih

/-- A key that is put again keeps its place. -/
theorem keys_put_of_mem (listing : Listing κ ν) {key : κ} (value : ν) (h : key ∈ keys listing) :
    keys (put listing key value) = keys listing := by
  induction listing with
  | nil => simp [keys] at h
  | cons entry rest ih =>
    obtain ⟨k, v⟩ := entry
    by_cases hk : k = key
    · simp [put, keys, hk]
    · have hmem : key ∈ keys rest := by
        simp only [keys, List.map_cons, List.mem_cons] at h
        exact h.resolve_left fun h => hk h.symm
      have := ih hmem
      simp only [keys] at this
      simp [put, keys, hk, this]

/-- A new key and its value come last. -/
theorem put_of_notMem (listing : Listing κ ν) {key : κ} (value : ν) (h : key ∉ keys listing) :
    put listing key value = listing ++ [(key, value)] := by
  induction listing with
  | nil => rfl
  | cons entry rest ih =>
    obtain ⟨k, v⟩ := entry
    simp only [keys, List.map_cons, List.mem_cons, not_or] at h
    rw [put, if_neg fun e => h.1 e.symm, ih h.2, List.cons_append]

/-- Entries whose keys are all different are put one behind the other. -/
theorem putAll_of_nodup {listing more : Listing κ ν} (h : (keys (listing ++ more)).Nodup) :
    putAll listing more = listing ++ more := by
  induction more generalizing listing with
  | nil => exact (List.append_nil listing).symm
  | cons entry rest ih =>
    obtain ⟨key, value⟩ := entry
    rw [List.append_cons] at h
    have hnew : key ∉ keys listing := by
      unfold keys at h ⊢
      rw [List.map_append, List.map_append] at h
      intro hk
      exact (List.nodup_append.1 (List.nodup_append.1 h).1).2.2 key hk key List.mem_cons_self rfl
    show putAll (put listing key value) rest = _
    rw [put_of_notMem listing value hnew, ih h, List.append_assoc, List.singleton_append]

/-- A new key comes last. -/
theorem keys_put_of_notMem (listing : Listing κ ν) {key : κ} (value : ν)
    (h : key ∉ keys listing) : keys (put listing key value) = keys listing ++ [key] := by
  rw [put_of_notMem listing value h]
  simp [keys]

/-- Putting a key leaves the keys different from one another. -/
theorem nodup_keys_put {listing : Listing κ ν} (h : (keys listing).Nodup) (key : κ) (value : ν) :
    (keys (put listing key value)).Nodup := by
  by_cases hk : key ∈ keys listing
  · rwa [keys_put_of_mem listing value hk]
  · rw [keys_put_of_notMem listing value hk, List.nodup_append]
    exact ⟨h, List.pairwise_singleton _ key, fun a ha b hb e => hk (List.mem_singleton.mp hb ▸ e ▸ ha)⟩

/-- Whatever stands in a listing after a key was put stood there before, or is what was put. -/
theorem mem_put {listing : Listing κ ν} {key : κ} {value : ν} {entry : κ × ν}
    (h : entry ∈ put listing key value) : entry ∈ listing ∨ entry.2 = value := by
  induction listing with
  | nil => exact .inr (by rw [List.mem_singleton.mp h])
  | cons first rest ih =>
    obtain ⟨k, v⟩ := first
    unfold put at h
    split at h
    · rcases List.mem_cons.mp h with rfl | h
      · exact .inr rfl
      · exact .inl (List.mem_cons_of_mem _ h)
    · rcases List.mem_cons.mp h with rfl | h
      · exact .inl List.mem_cons_self
      · exact (ih h).imp_left (List.mem_cons_of_mem _)

end Listing

end EditionMarket
