import EditionMarket.Proofs.Files.Directories

/-!
# Putting links

A link is put where there is nothing, and what is removed is gone with all that stands in it. A link that is
put in the place of something else leaves the rest as it was. One that leads to its own name leads nowhere.

Main statements: `remove_eq_ok_iff` and `link_eq_ok_iff`; `of_relink` and `exists_relink`; and
`resolve_of_loop`.
-/

namespace EditionMarket

namespace FileTree

variable {tree next : FileTree} {path : Path} {place base : Place} {names : List String} {links : Nat}

/-! ## Removing and linking -/

/-- What was removed is gone with all that stands in it, and everything else is as before. -/
theorem entry?_dropPlace (tree : FileTree) (place other : Place) :
    entry? (tree.dropPlace place) other =
      if place <+: other ∧ other ≠ [] then none else tree.entry? other := by
  unfold dropPlace entry?
  by_cases hroot : other = []
  · simp [hroot]
  · simp only [hroot, if_false, Std.ExtTreeMap.getElem?_filter', ne_eq, not_false_eq_true, and_true]
    by_cases hin : place <+: other
    · have hinside : place.isPrefixOf other := List.isPrefixOf_iff_prefix.2 hin
      simp [hin, hinside]
    · have hinside : place.isPrefixOf other = false :=
        Bool.eq_false_iff.2 fun h => hin (List.isPrefixOf_iff_prefix.1 h)
      cases tree[other]? <;> simp [hin, hinside]

theorem within_dropPlace (tree : FileTree) (place : Place) : (tree.dropPlace place).Within tree :=
  within_of_keeps fun other entry hentry => by
    rw [entry?_dropPlace] at hentry
    split at hentry
    · cases hentry
    · exact hentry

/-- Whatever a path leads to can be removed, if there is something. -/
theorem remove_eq_ok_iff :
    tree.remove path = .ok next ↔
      ∃ place, tree.linkPlace path = .ok place ∧ tree.entry? place ≠ none ∧ next = tree.dropPlace place := by
  unfold remove
  cases tree.linkPlace path with
  | error fault => simp [bind, Except.bind]
  | ok place =>
    simp only [bind, Except.bind, Except.ok.injEq, exists_eq_left']
    cases tree.entry? place with
    | none => simp
    | some entry => simp [pure, Except.pure, @eq_comm _ (tree.dropPlace place) next]

/-- A link can be put exactly where there is nothing. -/
theorem link_eq_ok_iff {target : String} :
    tree.link path target = .ok next ↔
      ∃ place, tree.linkPlace path = .ok place ∧ tree.entry? place = none ∧
        next = tree.put place (.link target) := by
  unfold link
  cases tree.linkPlace path with
  | error fault => simp [bind, Except.bind]
  | ok place =>
    simp only [bind, Except.bind, Except.ok.injEq, exists_eq_left']
    cases tree.entry? place with
    | none => simp [pure, Except.pure, @eq_comm _ (Table.put tree place (.link target)) next]
    | some entry => simp

/-- Puts a link to a target in the place of whatever is there. -/
def relink (path : Path) (target : String) : FilesM Unit := do
  if (← get).isLink path || ((← get).find? path).isSome then FilesM.change (·.remove path)
  FilesM.change (·.link path target)

theorem relink_eq (path : Path) (target : String) (tree : FileTree) :
    relink path target tree =
      if tree.isLink path || (tree.find? path).isSome then
        (FilesM.change (·.remove path) >>= fun _ => FilesM.change (·.link path target)) tree
      else FilesM.change (·.link path target) tree := by
  unfold relink
  refine (Program.bind_of_ok rfl _).trans ((Program.bind_of_ok rfl _).trans ?_)
  split <;> rfl

/-- A link that was put somewhere stands there, and no file is changed but what stood there. -/
theorem of_relink {target : String} (h : relink path target tree = .ok () next) :
    ∃ place, next.linkPlace path = .ok place ∧ next.entry? place = some (.link target) ∧
      ∀ other, ¬ place <+: other → next.textAt? other = tree.textAt? other := by
  obtain ⟨middle, hmiddle, hlink⟩ : ∃ middle, (middle = tree ∨ tree.remove path = .ok middle) ∧
      middle.link path target = .ok next := by
    rw [relink_eq] at h
    split at h
    · obtain ⟨_, middle, hremove, hlink⟩ := Program.bind_eq_ok_iff.1 h
      exact ⟨middle, .inr (FilesM.change_eq_ok_iff.1 hremove), FilesM.change_eq_ok_iff.1 hlink⟩
    · exact ⟨tree, .inl rfl, FilesM.change_eq_ok_iff.1 h⟩
  obtain ⟨place, hplace, hempty, rfl⟩ := link_eq_ok_iff.1 hlink
  have hroot := ne_nil_of_entry?_eq_none hempty
  refine ⟨place, ?_, by rw [entry?_put _ hroot, if_pos rfl], fun other hother => ?_⟩
  · exact linkPlace_of_within (within_put_of_none hempty _) hplace
  · have hkept : middle.entry? other = tree.entry? other := by
      rcases hmiddle with rfl | hremove
      · rfl
      · -- The path leads to the same place with what stood there and without it.
        obtain ⟨removed, hremoved, -, rfl⟩ := remove_eq_ok_iff.1 hremove
        have hsame : tree.linkPlace path = .ok place :=
          linkPlace_of_within (within_dropPlace tree removed) hplace
        obtain rfl : removed = place := Except.ok.inj (hremoved.symm.trans hsame)
        rw [entry?_dropPlace, if_neg fun hgone => hother hgone.1]
    rw [textAt?, textAt?, entry?_put _ hroot, if_neg (ne_of_not_inside hother), hkept]

/-- If the directory of a path is there, it is seen whether there is anything at the path. -/
theorem isLink_or_isSome_find? (hup : ".." ∉ path.names) (hreached : tree.Reached path.names) :
    (tree.isLink path || (tree.find? path).isSome) = (tree.entry? path.names).isSome := by
  have hlinkPlace := linkPlace_of_reached hup hreached
  by_cases hlink : ∃ target, tree.entry? path.names = some (.link target)
  · obtain ⟨target, hentry⟩ := hlink
    have hisLink : tree.isLink path = true := by
      simp only [isLink, hlinkPlace, hentry, Option.any_some]
    rw [hisLink, hentry, Bool.true_or, Option.isSome_some]
  · rw [not_exists] at hlink
    have hplace : tree.place path = .ok path.names := place_of_reached hup hreached hlink
    have hisLink : tree.isLink path = false := by
      simp only [isLink, hlinkPlace]
      cases hentry : tree.entry? path.names with
      | none => rfl
      | some entry =>
        cases entry with
        | link target => exact absurd hentry (hlink target)
        | directory | file => rfl
    rw [hisLink, Bool.false_or, find?, hplace]

/-- A link can be put in the place of anything if its directory is there. -/
theorem exists_relink (target : String) (hup : ".." ∉ path.names) (hreached : tree.Reached path.names)
    (hroot : path.names ≠ []) :
    ∃ next, relink path target tree = .ok () next ∧
      ∀ other, ¬ path.names <+: other → next.entry? other = tree.entry? other := by
  have hlinked (middle : FileTree) (hreached : middle.Reached path.names)
      (hempty : middle.entry? path.names = none) :
      FilesM.change (·.link path target) middle = .ok () (Table.put middle path.names (.link target)) :=
    FilesM.change_eq_ok_iff.2 (link_eq_ok_iff.2 ⟨path.names, linkPlace_of_reached hup hreached, hempty, rfl⟩)
  rw [relink_eq, isLink_or_isSome_find? hup hreached]
  by_cases hempty : tree.entry? path.names = none
  · refine ⟨Table.put tree path.names (.link target), ?_, fun other hother => ?_⟩
    · rw [hempty, if_neg (by simp)]
      exact hlinked tree hreached hempty
    · rw [entry?_put tree hroot, if_neg (ne_of_not_inside hother)]
  · have hremove : FilesM.change (·.remove path) tree = .ok () (tree.dropPlace path.names) :=
      FilesM.change_eq_ok_iff.2
        (remove_eq_ok_iff.2 ⟨path.names, linkPlace_of_reached hup hreached, hempty, rfl⟩)
    have hkept {other : Place} (hother : ¬ path.names <+: other) :
        entry? (tree.dropPlace path.names) other = tree.entry? other := by
      rw [entry?_dropPlace, if_neg fun hgone => hother hgone.1]
    have hstill : (tree.dropPlace path.names).Reached path.names := fun front hfront hne => by
      rw [hkept fun hback => hne (hfront.eq_of_length_le hback.length_le)]
      exact hreached front hfront hne
    have hgone : entry? (tree.dropPlace path.names) path.names = none := by
      rw [entry?_dropPlace, if_pos ⟨List.prefix_refl _, hroot⟩]
    refine ⟨Table.put (tree.dropPlace path.names) path.names (.link target), ?_, fun other hother => ?_⟩
    · rw [if_pos (Option.isSome_iff_ne_none.2 hempty)]
      exact (Program.bind_of_ok hremove _).trans (hlinked _ hstill hgone)
    · rw [entry?_put _ hroot, if_neg (ne_of_not_inside hother), hkept hother]

/-! ## Links to themselves -/

/-- A link to its own name leads round and round. -/
theorem resolve_loop {name : String} (hname : Path.ofString name = ⟨false, [name]⟩) (hup : name ≠ "..")
    (hlink : tree.entry? (base ++ [name]) = some (.link name)) :
    resolve tree path true base [name] links = .error .loop := by
  induction links with
  | zero =>
    rw [resolve, if_neg hup]
    simp only [hlink]
    rfl
  | succ links ih =>
    rw [resolve_link hup hlink rfl, hname]
    exact ih

/-- Names that lead to a link to its own name lead nowhere if it is followed. -/
theorem resolve_of_loop {name : String} (hname : Path.ofString name = ⟨false, [name]⟩) (hup : name ≠ "..")
    (hlast : names.getLast? = some name) (h : resolve tree path false base names links = .ok place)
    (hlink : tree.entry? place = some (.link name)) :
    resolve tree path true base names links = .error .loop := by
  have hon {first : String} {rest : List String} (hlast : (first :: rest).getLast? = some name)
      (hrest : rest ≠ []) : rest.getLast? = some name := by
    rwa [List.getLast?_cons_of_ne_nil hrest] at hlast
  -- Both ways are the same up to the last name, and that is the name of the link.
  fun_induction resolve tree path false base names links with
  | case1 base links => cases hlast
  | case2 base links rest ih =>
    have hrest : rest ≠ [] := by
      rintro rfl
      exact hup (Option.some.inj hlast).symm
    rw [resolve, if_pos rfl]
    exact ih (hon hlast hrest) h
  | case3 base links first rest hfirst here hentry ih =>
    have hrest : rest ≠ [] := by
      rintro rfl
      rw [resolve_nil] at h
      obtain rfl : base ++ [first] = place := Except.ok.inj h
      cases hlink.symm.trans hentry
    rw [resolve_directory hfirst hentry]
    exact ih (hon hlast hrest) h
  | case4 base links first hfirst here text hentry =>
    obtain rfl : base ++ [first] = place := Except.ok.inj h
    cases hlink.symm.trans hentry
  | case6 base links first rest hfirst here target hentry hend =>
    obtain rfl : rest = [] := by simpa using hend
    obtain rfl : first = name := Option.some.inj hlast
    obtain rfl : base ++ [first] = place := Except.ok.inj h
    exact resolve_loop hname hup hlink
  | case8 base first rest hfirst here target hentry hend links leads start ih =>
    have hrest : rest ≠ [] := by simpa using hend
    rw [resolve_link hfirst hentry (by simp [hrest])]
    refine ih ?_ h
    rw [List.getLast?_append, hon hlast hrest]
    rfl
  | case9 base links first hfirst here hentry =>
    obtain rfl : base ++ [first] = place := Except.ok.inj h
    cases hlink.symm.trans hentry
  | case5 | case7 | case10 => cases h

end FileTree

end EditionMarket
