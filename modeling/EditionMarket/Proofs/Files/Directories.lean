import EditionMarket.Proofs.Files
import EditionMarket.Proofs.Program

/-!
# Making directories and files

Whoever makes directories changes no file, and puts nothing in the place of anything else. Directories can be
made where the way is *clear*: it does not lead up, and there is nothing on it but directories, or nothing at
all. A file can be made where there is room for it at the end of such a way.

Main definitions: `FileTree.GainsDirectories`, `FileTree.Clear` and `FileTree.Free`. Main statements:
`gains_of_makeDirectories` and `exists_makeDirectories`, `of_makeFile` and `exists_makeFile`.
-/

namespace EditionMarket

namespace FileTree

variable {tree next final : FileTree} {path : Path} {place other : Place} {through : Bool} {base : Place}
  {names : List String} {links : Nat}

/-! ## Files that stay -/

/-- The text of the file at a place, if there is one. -/
def textAt? (tree : FileTree) (place : Place) : Option String :=
  match tree.entry? place with
  | some (.file text) => some text
  | _ => none

/-- A place that another one is not inside is not that one. -/
theorem ne_of_not_inside (h : ¬ place <+: other) : place ≠ other := by
  rintro rfl
  exact h (List.prefix_refl place)

/-- A tree of which everything stays is within what it becomes. -/
theorem within_of_keeps
    (h : ∀ place entry, tree.entry? place = some entry → next.entry? place = some entry) : tree.Within next :=
  ⟨h _ _, h _ _, fun hfile => ⟨_, h _ _ hfile⟩⟩

/-- Where there is nothing, something can be put, and all else stays. -/
theorem within_put_of_none (h : tree.entry? place = none) (entry : FileEntry) :
    tree.Within (tree.put place entry) := by
  have hroot := ne_nil_of_entry?_eq_none h
  refine within_of_keeps fun other held hheld => ?_
  rw [entry?_put tree hroot, if_neg, hheld]
  rintro rfl
  cases hheld.symm.trans h

/-- A tree gains directories if nothing changes but that there are directories where nothing was. -/
def GainsDirectories (tree next : FileTree) : Prop :=
  ∀ place, next.entry? place = tree.entry? place ∨
    tree.entry? place = none ∧ next.entry? place = some .directory

namespace GainsDirectories

theorem refl (tree : FileTree) : tree.GainsDirectories tree := fun _ => .inl rfl

theorem trans (h : tree.GainsDirectories next) (hnext : next.GainsDirectories final) :
    tree.GainsDirectories final := by
  intro place
  rcases h place with hsame | ⟨hempty, hmade⟩
  · rw [← hsame]
    exact hnext place
  · rcases hnext place with hsame | ⟨hgone, -⟩
    · exact .inr ⟨hempty, hsame.trans hmade⟩
    · cases hmade.symm.trans hgone

theorem entry?_eq (h : tree.GainsDirectories next) (place : Place) (entry : FileEntry)
    (hentry : tree.entry? place = some entry) : next.entry? place = some entry := by
  rcases h place with hsame | ⟨hempty, -⟩
  · exact hsame.trans hentry
  · cases hentry.symm.trans hempty

theorem within (h : tree.GainsDirectories next) : tree.Within next := within_of_keeps h.entry?_eq

theorem textAt?_eq (h : tree.GainsDirectories next) (place : Place) :
    next.textAt? place = tree.textAt? place := by
  unfold textAt?
  rcases h place with hsame | ⟨hempty, hmade⟩
  · rw [hsame]
  · rw [hempty, hmade]

end GainsDirectories

/-! ## Making directories -/

/-- A directory is there already, or it is put where there is nothing. -/
theorem makeDirectory_eq_ok_iff :
    tree.makeDirectory path = .ok next ↔
      tree.find? path = some .directory ∧ next = tree ∨
        tree.find? path ≠ some .directory ∧ ∃ place, tree.linkPlace path = .ok place ∧
          tree.entry? place = none ∧ next = tree.put place .directory := by
  unfold makeDirectory
  by_cases hfind : tree.find? path = some .directory
  · simp [hfind, pure, Except.pure, @eq_comm _ tree next]
  · cases tree.linkPlace path with
    | error fault => simp [hfind, bind, Except.bind]
    | ok place =>
      simp only [hfind, if_false, bind, Except.bind, Except.ok.injEq, exists_eq_left', false_and, false_or,
        not_false_eq_true, true_and, ne_eq]
      cases tree.entry? place with
      | none => simp [pure, Except.pure, @eq_comm _ (Table.put tree place .directory) next]
      | some entry => simp

theorem gains_of_makeDirectory (h : tree.makeDirectory path = .ok next) : tree.GainsDirectories next := by
  rcases makeDirectory_eq_ok_iff.1 h with ⟨-, rfl⟩ | ⟨-, place, -, hempty, rfl⟩
  · exact .refl next
  · have hroot := ne_nil_of_entry?_eq_none hempty
    intro other
    rw [entry?_put tree hroot]
    split
    next heq => exact .inr ⟨heq ▸ hempty, rfl⟩
    next => exact .inl rfl

/-- One more directory is made at once if the one that it stands in is there, and else after that one. -/
theorem makeDirectoriesTo_succ (path : Path) (count : Nat) (tree : FileTree) :
    makeDirectoriesTo path (count + 1) tree =
      let here : Path := { path with names := path.names.take (count + 1) }
      match tree.makeDirectory here with
      | .ok next => .ok () next
      | .error (.notFound _) =>
        (makeDirectoriesTo path count >>= fun _ => FilesM.change (·.makeDirectory here)) tree
      | .error fault => .error fault tree := by
  rw [makeDirectoriesTo]
  refine (Program.bind_of_ok rfl _).trans ?_
  dsimp only
  cases tree.makeDirectory { path with names := path.names.take (count + 1) } with
  | ok next => rfl
  | error fault => cases fault <;> rfl

theorem gains_of_makeDirectoriesTo {count : Nat} (h : makeDirectoriesTo path count tree = .ok () next) :
    tree.GainsDirectories next := by
  induction count generalizing next with
  | zero =>
    obtain ⟨-, rfl⟩ := Program.pure_eq_ok_iff.1 h
    exact .refl next
  | succ count ih =>
    rw [makeDirectoriesTo_succ] at h
    dsimp only at h
    split at h
    next made hmade =>
      cases h
      exact gains_of_makeDirectory hmade
    next =>
      obtain ⟨_, middle, hmiddle, h⟩ := Program.bind_eq_ok_iff.1 h
      exact (ih hmiddle).trans (gains_of_makeDirectory (FilesM.change_eq_ok_iff.1 h))
    next => cases h

/-- Whoever makes directories leaves everything else as it is. -/
theorem gains_of_makeDirectories (h : makeDirectories path tree = .ok () next) : tree.GainsDirectories next :=
  gains_of_makeDirectoriesTo h

/-- Directories are not made where something else is in the way. -/
theorem makeDirectories_of_exists (hnames : path.names ≠ []) (hplace : tree.linkPlace path = .ok place)
    (hentry : tree.entry? place ≠ none) (hfind : tree.find? path ≠ some .directory) :
    makeDirectories path tree = .error .exists tree := by
  obtain ⟨entry, hentry⟩ := Option.ne_none_iff_exists'.1 hentry
  obtain ⟨count, hcount⟩ : ∃ count, path.names.length = count + 1 :=
    Nat.exists_eq_succ_of_ne_zero fun hzero => hnames (List.eq_nil_of_length_eq_zero hzero)
  have hmake : tree.makeDirectory path = .error .exists := by
    unfold makeDirectory
    rw [if_neg hfind, hplace]
    simp only [bind, Except.bind, hentry]
  rw [makeDirectories, hcount, makeDirectoriesTo_succ, ← hcount, List.take_length]
  simp only [hmake]

/-! ## Clear ways -/

/-- The directory that a place stands in is there, and so are those around it. -/
def Reached (tree : FileTree) (place : Place) : Prop :=
  ∀ front, front <+: place → front ≠ place → tree.entry? front = some .directory

/-- The way to a place is clear if it does not lead up, and there are only directories on it, or nothing. -/
structure Clear (tree : FileTree) (place : Place) : Prop where
  up : ".." ∉ place
  way : ∀ front, front <+: place → tree.entry? front = none ∨ tree.entry? front = some .directory

/-- Names lead on through directories to where the last one stands, if there is no link to follow. -/
theorem resolve_of_directories (hup : ".." ∉ names)
    (hway : ∀ front, front <+: names → front ≠ names → front ≠ [] →
      tree.entry? (base ++ front) = some .directory)
    (hlast : through = true → ∀ target, tree.entry? (base ++ names) ≠ some (.link target)) :
    resolve tree path through base names links = .ok (base ++ names) := by
  induction names generalizing base with
  | nil => rw [resolve_nil, List.append_nil]
  | cons name rest ih =>
    obtain ⟨hname, hrest⟩ := List.ne_and_not_mem_of_not_mem_cons hup
    by_cases hend : rest = []
    · subst hend
      exact resolve_last hname.symm hlast
    · have hdirectory : tree.entry? (base ++ [name]) = some .directory :=
        hway [name] (List.prefix_append [name] rest) (by simpa using Ne.symm hend) (List.cons_ne_nil name [])
      rw [resolve_directory hname.symm hdirectory, ih hrest, List.append_assoc]
      · rfl
      · intro front hfront hne _
        rw [List.append_assoc]
        exact hway (name :: front) ((List.prefix_cons_inj name).2 hfront) (by simpa using hne)
          (List.cons_ne_nil name front)
      · rwa [List.append_assoc]

/-- Names lead nowhere if there is nothing where one of them stands before the last. -/
theorem resolve_of_gap (hup : ".." ∉ names)
    (hway : ∀ front, front <+: names → front ≠ [] →
      tree.entry? (base ++ front) = none ∨ tree.entry? (base ++ front) = some .directory)
    {gap : List String} (hgap : gap <+: names) (hne : gap ≠ names) (hroot : gap ≠ [])
    (hempty : tree.entry? (base ++ gap) = none) :
    resolve tree path through base names links = .error (.notFound path) := by
  induction names generalizing base gap with
  | nil => exact absurd (List.prefix_nil.1 hgap) hroot
  | cons name rest ih =>
    obtain ⟨hname, hrest⟩ := List.ne_and_not_mem_of_not_mem_cons hup
    obtain ⟨front, rfl, hfront⟩ : ∃ front, gap = name :: front ∧ front <+: rest := by
      cases gap with
      | nil => exact absurd rfl hroot
      | cons other front =>
        obtain ⟨rfl, hfront⟩ := List.cons_prefix_cons.1 hgap
        exact ⟨front, rfl, hfront⟩
    rcases hway [name] (List.prefix_append [name] rest) (List.cons_ne_nil name []) with hnone | hdirectory
    · have hon : rest ≠ [] := by
        rintro rfl
        exact hne (by rw [List.prefix_nil.1 hfront])
      exact resolve_missing hname.symm hnone hon
    · rw [resolve_directory hname.symm hdirectory]
      refine ih hrest (fun middle hmiddle _ => ?_) hfront (by simpa using hne) ?_ (by simpa using hempty)
      · rw [List.append_assoc]
        exact hway (name :: middle) ((List.prefix_cons_inj name).2 hmiddle) (List.cons_ne_nil name middle)
      · rintro rfl
        cases hempty.symm.trans hdirectory

/-- A path leads to the row of its names if the directory that it stands in is there. -/
theorem linkPlace_of_reached (hup : ".." ∉ path.names) (hreached : tree.Reached path.names) :
    tree.linkPlace path = .ok path.names :=
  resolve_of_directories hup (fun front hfront hne _ => hreached front hfront hne)
    fun hthrough => Bool.noConfusion hthrough

/-- So it does after the last link, if there is no link. -/
theorem place_of_reached (hup : ".." ∉ path.names) (hreached : tree.Reached path.names)
    (hlast : ∀ target, tree.entry? path.names ≠ some (.link target)) : tree.place path = .ok path.names :=
  resolve_of_directories hup (fun front hfront hne _ => hreached front hfront hne) fun _ => hlast

/-- There are directories at a place and all around it, and everything else is as it was. -/
structure Made (tree next : FileTree) (place : Place) : Prop where
  made {front : Place} : front <+: place → next.entry? front = some .directory
  other {other : Place} : ¬ other <+: place → next.entry? other = tree.entry? other

/-- A directory that is put into one that is there is made with all around it. -/
theorem made_put (hreached : tree.Reached place) (hroot : place ≠ []) :
    tree.Made (tree.put place .directory) place := by
  refine ⟨fun {front} hfront => ?_, fun {other} hother => ?_⟩
  · rw [entry?_put tree hroot]
    split
    next => rfl
    next hne => exact hreached front hfront (Ne.symm hne)
  · rw [entry?_put tree hroot, if_neg (ne_of_not_inside hother).symm]

/-- A directory that is there is made with all around it. -/
theorem made_refl (hreached : tree.Reached place) (h : tree.entry? place = some .directory) :
    tree.Made tree place := by
  refine ⟨fun {front} hfront => ?_, fun _ => rfl⟩
  by_cases hend : front = place
  · rw [hend, h]
  · exact hreached front hfront hend

/-- A way that is clear is still clear after directories were made somewhere. -/
theorem Clear.of_made (h : tree.Clear place) (hmade : tree.Made next other) : next.Clear place := by
  refine ⟨h.up, fun front hfront => ?_⟩
  by_cases hother : front <+: other
  · exact .inr (hmade.made hother)
  · rw [hmade.other hother]
    exact h.way front hfront

/-- There is no link at the end of a way that is clear. -/
theorem Clear.ne_link (h : tree.Clear place) (target : String) : tree.entry? place ≠ some (.link target) := by
  intro htarget
  rcases h.way place (List.prefix_refl place) with hnone | hdirectory
  · cases htarget.symm.trans hnone
  · cases htarget.symm.trans hdirectory

/-- Where the way is clear, a directory is made if the one that it stands in is there. -/
theorem makeDirectory_of_reached (h : tree.Clear path.names) (hreached : tree.Reached path.names) :
    ∃ next, tree.makeDirectory path = .ok next ∧ tree.Made next path.names := by
  have hfound : tree.find? path = tree.entry? path.names := by
    rw [find?, place_of_reached h.up hreached h.ne_link]
  rcases h.way path.names (List.prefix_refl path.names) with hnone | hdirectory
  · have hfind : tree.find? path ≠ some .directory := by
      rw [hfound, hnone]
      exact (Option.some_ne_none _).symm
    have hplace := linkPlace_of_reached h.up hreached
    exact ⟨_, makeDirectory_eq_ok_iff.2 (.inr ⟨hfind, path.names, hplace, hnone, rfl⟩),
      made_put hreached (ne_nil_of_entry?_eq_none hnone)⟩
  · have hfind := hfound.trans hdirectory
    exact ⟨tree, makeDirectory_eq_ok_iff.2 (.inl ⟨hfind, rfl⟩), made_refl hreached hdirectory⟩

/-- Where the way is clear, a directory is not made before the one that it stands in. -/
theorem makeDirectory_of_not_reached (h : tree.Clear path.names) (hreached : ¬ tree.Reached path.names) :
    tree.makeDirectory path = .error (.notFound path) := by
  obtain ⟨gap, hgap, hne, hentry⟩ : ∃ gap, gap <+: path.names ∧ gap ≠ path.names ∧
      tree.entry? gap ≠ some .directory := by
    simpa only [Reached, Classical.not_forall, exists_prop] using hreached
  have hempty : tree.entry? gap = none := (h.way gap hgap).resolve_right hentry
  have hroot := ne_nil_of_entry?_eq_none hempty
  have hresolve (through : Bool) :
      resolve tree path through [] path.names mostLinks = .error (.notFound path) :=
    resolve_of_gap h.up (fun front hfront _ => h.way front hfront) hgap hne hroot hempty
  have hfind : tree.find? path ≠ some .directory := by
    rw [find?, place, hresolve]
    exact (Option.some_ne_none _).symm
  unfold makeDirectory
  rw [if_neg hfind, linkPlace, hresolve]
  rfl

/-- Where the way is clear, directories can be made. -/
theorem exists_makeDirectoriesTo (h : tree.Clear path.names) (count : Nat) :
    ∃ next, makeDirectoriesTo path count tree = .ok () next ∧ tree.Made next (path.names.take count) := by
  induction count with
  | zero =>
    refine ⟨tree, rfl, fun {front} hfront => ?_, fun _ => rfl⟩
    rw [List.take_zero, List.prefix_nil] at hfront
    rw [hfront]
    rfl
  | succ count ih =>
    let here : Path := { path with names := path.names.take (count + 1) }
    have hclear : tree.Clear here.names :=
      ⟨fun hup => h.up (List.mem_of_mem_take hup),
        fun front hfront => h.way front (hfront.trans (List.take_prefix _ _))⟩
    rw [makeDirectoriesTo_succ]
    by_cases hreached : tree.Reached here.names
    · obtain ⟨next, hnext, hmade⟩ := makeDirectory_of_reached hclear hreached
      exact ⟨next, by simp only [hnext, here], hmade⟩
    · -- The directories around this one are made first, and then nothing is missing any more.
      obtain ⟨middle, hmiddle, hbefore⟩ := ih
      have hshorter {front : Place} (hfront : front <+: here.names) (hne : front ≠ here.names) :
          front <+: path.names.take count := by
        have hlength : front.length < here.names.length :=
          Nat.lt_of_not_le fun hle => hne (hfront.eq_of_length_le hle)
        have hhere : here.names.length ≤ count + 1 := List.length_take_le _ _
        exact List.prefix_take_iff.2 ⟨hfront.trans (List.take_prefix _ _), by omega⟩
      obtain ⟨next, hnext, hmade⟩ := makeDirectory_of_reached (hclear.of_made hbefore)
        fun front hfront hne => hbefore.made (hshorter hfront hne)
      have hthen : (makeDirectoriesTo path count >>= fun _ => FilesM.change (·.makeDirectory here)) tree =
          .ok () next :=
        (Program.bind_of_ok hmiddle _).trans (FilesM.change_eq_ok_iff.2 hnext)
      refine ⟨next, ?_, hmade.made, fun {other} hother => ?_⟩
      · have hmissing := makeDirectory_of_not_reached hclear hreached
        simp only [here] at hmissing
        simp only [hmissing]
        exact hthen
      · have hbeyond : ¬ other <+: path.names.take count := fun hfront =>
          hother (hfront.trans (List.take_prefix_take_left (Nat.le_succ count)))
        rw [hmade.other hother, hbefore.other hbeyond]

/-- **Where the way is clear, directories can be made.** Everything else is then as it was. -/
theorem exists_makeDirectories (h : tree.Clear path.names) :
    ∃ next, makeDirectories path tree = .ok () next ∧ tree.Made next path.names := by
  have hall := exists_makeDirectoriesTo h path.names.length
  rwa [List.take_length] at hall

/-! ## Making a file -/

/-- Makes an empty file, and the directories around it. -/
def makeFile (path : Path) : FilesM Unit := do
  makeDirectories path.parent
  FilesM.change (·.write path "")

/-- A file that was made is empty, no other file is changed, and whatever else was there is still there. -/
theorem of_makeFile (h : makeFile path tree = .ok () next) :
    ∃ place, next.place path = .ok place ∧ next.entry? place = some (.file "") ∧
      (∀ other, other ≠ place → next.textAt? other = tree.textAt? other) ∧ tree.Within next := by
  obtain ⟨_, middle, hmiddle, hwrite⟩ := Program.bind_eq_ok_iff.1 h
  have hgains := gains_of_makeDirectories hmiddle
  obtain ⟨place, hplace, hroom, rfl⟩ := write_eq_ok_iff.1 (FilesM.change_eq_ok_iff.1 hwrite)
  refine ⟨place, place_put "" hplace hroom, by rw [entry?_put middle hroom.ne_nil, if_pos rfl], ?_, ?_⟩
  · intro other hother
    rw [← hgains.textAt?_eq, textAt?, textAt?, entry?_put middle hroom.ne_nil, if_neg hother.symm]
  · exact hgains.within.trans (within_put_file hroom "")

/-- A place is free for a file if there is room for it, and the way to it is clear. -/
structure Free (tree : FileTree) (place : Place) : Prop where
  up : ".." ∉ place
  way : ∀ front, front <+: place → front ≠ place →
    tree.entry? front = none ∨ tree.entry? front = some .directory
  room : tree.HasRoom place

/-- The directory of a place is inside just those places that the place is inside, but for itself. -/
theorem prefix_dropLast_iff {front : Place} (h : place ≠ []) :
    front <+: place.dropLast ↔ front <+: place ∧ front ≠ place := by
  obtain ⟨last, hlast⟩ : ∃ last, place.dropLast ++ [last] = place := ⟨_, List.dropLast_concat_getLast h⟩
  rw [← hlast, List.dropLast_concat, List.prefix_concat_iff]
  constructor
  · intro hfront
    refine ⟨.inr hfront, ?_⟩
    rintro rfl
    have hlength := hfront.length_le
    rw [List.length_append, List.length_singleton] at hlength
    omega
  · rintro ⟨heq | hfront, hne⟩
    · exact absurd heq hne
    · exact hfront

theorem Free.clear (h : tree.Free place) : tree.Clear place.dropLast := by
  refine ⟨fun hup => h.up (List.mem_of_mem_take (List.dropLast_eq_take ▸ hup)), fun front hfront => ?_⟩
  obtain ⟨hplace, hne⟩ := (prefix_dropLast_iff h.room.ne_nil).1 hfront
  exact h.way front hplace hne

/-- Where a place is free, a file can be made. -/
theorem exists_makeFile (h : tree.Free path.names) : ∃ next, makeFile path tree = .ok () next := by
  have hclear : tree.Clear path.parent.names := h.clear
  obtain ⟨middle, hmiddle, hmade⟩ := exists_makeDirectories hclear
  have hself : middle.entry? path.names = tree.entry? path.names :=
    hmade.other fun hfront => ((prefix_dropLast_iff h.room.ne_nil).1 hfront).2 rfl
  have hroom : middle.HasRoom path.names := by
    rw [HasRoom, hself]
    exact h.room
  have hplace : middle.place path = .ok path.names := by
    refine place_of_reached h.up (fun front hfront hne => ?_) hroom.ne_link
    exact hmade.made ((prefix_dropLast_iff h.room.ne_nil).2 ⟨hfront, hne⟩)
  exact ⟨_, (Program.bind_of_ok hmiddle _).trans
    (FilesM.change_eq_ok_iff.2 (write_eq_ok_iff.2 ⟨path.names, hplace, hroom, rfl⟩))⟩

end FileTree

end EditionMarket
