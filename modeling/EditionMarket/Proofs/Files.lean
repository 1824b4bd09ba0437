import EditionMarket.Files.Tree

/-!
# Files that are there

What is written to a file stands at the path that it was written to, and what is added to it stands
behind what was there. Writing a file does not change where paths lead to: the links and directories on
the way stay as they are, and in a tree that has more of them paths lead to the same places as before.

Main definitions: `FileTree.Holds`, `FileTree.HasRoom` and `FileTree.Within`. Main statements:
`resolve_of_within`, `write_eq_ok_iff`, `holds_of_write`, `exists_append_of_holds`.
-/

namespace EditionMarket

/-- A change succeeds exactly if it can be made, and leaves the tree that it makes. -/
theorem FilesM.change_eq_ok_iff {step : FileTree → Except FileFault FileTree} {tree final : FileTree} :
    FilesM.change step tree = .ok () final ↔ step tree = .ok final := by
  unfold FilesM.change
  cases step tree <;> simp

namespace FileTree

/-! ## Places -/

/-- At a path, after the last link, there is a file with a text. -/
def Holds (tree : FileTree) (path : Path) (text : String) : Prop :=
  ∃ place, tree.place path = .ok place ∧ tree.entry? place = some (.file text)

/-- A place has room for a file if there is one, or nothing. -/
def HasRoom (tree : FileTree) (place : Place) : Prop :=
  tree.entry? place = none ∨ ∃ text, tree.entry? place = some (.file text)

/-- The root is always there. -/
theorem ne_nil_of_entry?_eq_none {tree : FileTree} {place : Place} (h : tree.entry? place = none) :
    place ≠ [] := by
  rintro rfl
  cases h

/-- The root has no room for a file. -/
theorem HasRoom.ne_nil {tree : FileTree} {place : Place} (h : tree.HasRoom place) : place ≠ [] := by
  rintro rfl
  rcases h with h | ⟨text, h⟩ <;> simp [ entry?] at h

/-- Where there is room for a file, there is no link. -/
theorem HasRoom.ne_link {tree : FileTree} {place : Place} (h : tree.HasRoom place) (target : String) :
    tree.entry? place ≠ some (.link target) := by
  intro htarget
  rcases h with hnone | ⟨text, hfile⟩
  · cases htarget.symm.trans hnone
  · cases htarget.symm.trans hfile

/-- What was put at a place is there, and everything else is as before. -/
theorem entry?_put (tree : FileTree) {place : Place} (h : place ≠ []) (other : Place)
    (entry : FileEntry) :
    entry? (tree.put place entry) other = if place = other then some entry else tree.entry? other := by
  unfold entry?
  by_cases root : other = []
  · rw [if_pos root, if_pos root, if_neg fun e => h (e.trans root)]
  · rw [if_neg root, if_neg root, Table.getElem?_put]

/-! ## Where paths lead to -/

section Resolve

variable {tree : FileTree} {path : Path} {through : Bool} {base : Place} {name : String} {rest : List String}
  {links : Nat}

/-- No names lead nowhere else. -/
theorem resolve_nil : resolve tree path through base [] links = .ok base := by
  rw [resolve]

/-- The way leads on through a directory. -/
theorem resolve_directory (hup : name ≠ "..") (h : tree.entry? (base ++ [name]) = some .directory) :
    resolve tree path through base (name :: rest) links =
      resolve tree path through (base ++ [name]) rest links := by
  rw [resolve, if_neg hup]
  simp only [h]

/-- The way leads on where a link leads to, unless it ends at the link itself. -/
theorem resolve_link {target : String} (hup : name ≠ "..")
    (h : tree.entry? (base ++ [name]) = some (.link target)) (hon : (rest = [] && !through) = false) :
    resolve tree path through base (name :: rest) (links + 1) =
      resolve tree path through (if (Path.ofString target).absolute then [] else base)
        ((Path.ofString target).names ++ rest) links := by
  rw [resolve, if_neg hup]
  simp only [h, hon]
  rfl

/-- The last name leads to where it stands, if there is no link to follow. -/
theorem resolve_last (hup : name ≠ "..")
    (h : through = true → ∀ target, tree.entry? (base ++ [name]) ≠ some (.link target)) :
    resolve tree path through base [name] links = .ok (base ++ [name]) := by
  rw [resolve, if_neg hup]
  dsimp only
  cases hentry : tree.entry? (base ++ [name]) with
  | none => exact if_pos rfl
  | some entry =>
    cases entry with
    | directory => exact resolve_nil
    | file text => exact if_pos rfl
    | link target =>
      cases through with
      | true => exact absurd hentry (h rfl target)
      | false => rfl

/-- The way ends where there is nothing. -/
theorem resolve_missing (hup : name ≠ "..") (h : tree.entry? (base ++ [name]) = none) (hrest : rest ≠ []) :
    resolve tree path through base (name :: rest) links = .error (.notFound path) := by
  rw [resolve, if_neg hup]
  simp only [h, if_neg hrest]

end Resolve

/-- The directories and links of a tree are there in a larger tree as well, and so are its files, whatever
their texts. -/
structure Within (tree larger : FileTree) : Prop where
  directory {place : Place} : tree.entry? place = some .directory → larger.entry? place = some .directory
  link {place : Place} {target : String} :
    tree.entry? place = some (.link target) → larger.entry? place = some (.link target)
  file {place : Place} {text : String} :
    tree.entry? place = some (.file text) → ∃ text, larger.entry? place = some (.file text)

theorem Within.trans {tree middle larger : FileTree} (h : tree.Within middle)
    (hlarger : middle.Within larger) : tree.Within larger :=
  ⟨fun hd => hlarger.directory (h.directory hd), fun hl => hlarger.link (h.link hl),
    fun hf => (h.file hf).elim fun _ hfile => hlarger.file hfile⟩

/-- In a larger tree a path leads to the same place, if there are no new links or the last one is not
followed. -/
theorem resolve_of_within {tree larger : FileTree} (hwithin : tree.Within larger) {path : Path}
    {through : Bool} {base : Place} {names : List String} {links : Nat} {place : Place}
    (hlinks : through = true → ∀ here target, tree.entry? here = none →
      larger.entry? here ≠ some (.link target))
    (h : resolve tree path through base names links = .ok place) :
    resolve larger path through base names links = .ok place := by
  -- The way leads through directories and links of the smaller tree. Only its last place may have been empty.
  fun_induction resolve tree path through base names links with
  | case1 base links =>
    rw [resolve_nil]
    exact h
  | case2 base links rest ih =>
    rw [resolve, if_pos rfl]
    exact ih h
  | case3 base links name rest hup here hentry ih =>
    rw [resolve_directory hup (hwithin.directory hentry)]
    exact ih h
  | case4 base links name hup here text hentry =>
    obtain ⟨other, hother⟩ := hwithin.file hentry
    have hfile (target : String) : larger.entry? here ≠ some (.link target) := fun htarget => by
      cases hother.symm.trans htarget
    rw [resolve_last hup fun _ => hfile]
    exact h
  | case6 base links name rest hup here target hentry hlast =>
    obtain ⟨rfl, rfl⟩ : rest = [] ∧ through = false := by simpa using hlast
    rw [resolve_last hup fun hthrough => Bool.noConfusion hthrough]
    exact h
  | case8 base name rest hup here target hentry hlast links leads start ih =>
    rw [resolve_link hup (hwithin.link hentry) (Bool.not_eq_true _ ▸ hlast)]
    exact ih h
  | case9 base links name hup here hentry =>
    rw [resolve_last hup fun hthrough target => hlinks hthrough here target hentry]
    exact h
  | case5 | case7 | case10 => cases h

/-- Where a link may stand, a path leads to the same place in a larger tree. -/
theorem linkPlace_of_within {tree larger : FileTree} (hwithin : tree.Within larger) {path : Path}
    {place : Place} (h : tree.linkPlace path = .ok place) : larger.linkPlace path = .ok place :=
  resolve_of_within hwithin (fun hthrough => Bool.noConfusion hthrough) h

/-- A tree is within the one where a place that has room for a file got one. -/
theorem within_put_file {tree : FileTree} {place : Place} (room : tree.HasRoom place) (text : String) :
    tree.Within (tree.put place (.file text)) := by
  have hother {here : Place} {entry : FileEntry} (h : tree.entry? here = some entry)
      (hentry : ∀ old, entry ≠ .file old) : entry? (tree.put place (.file text)) here = some entry := by
    have hne : place ≠ here := by
      rintro rfl
      rcases room with room | ⟨old, room⟩
      · cases h.symm.trans room
      · exact hentry old (Option.some.inj (h.symm.trans room))
    rw [entry?_put tree room.ne_nil, if_neg hne, h]
  refine ⟨fun h => hother h nofun, fun h => hother h nofun, fun {here old} h => ?_⟩
  rw [entry?_put tree room.ne_nil]
  split
  · exact ⟨text, rfl⟩
  · exact ⟨old, h⟩

/-- A path leads to the same place after a file was put there. -/
theorem place_put {tree : FileTree} {path : Path} {place : Place} (text : String)
    (h : tree.place path = .ok place) (room : tree.HasRoom place) :
    FileTree.place (tree.put place (.file text)) path = .ok place := by
  refine resolve_of_within (within_put_file room text) (fun _ here target hempty => ?_) h
  rw [entry?_put tree room.ne_nil]
  split
  · nofun
  · rw [hempty]
    nofun

/-! ## Writing and reading -/

/-- A file that was put where a path leads to stands at the path. -/
theorem holds_put {tree : FileTree} {path : Path} {place : Place} (h : tree.place path = .ok place)
    (room : tree.HasRoom place) (text : String) : Holds (tree.put place (.file text)) path text :=
  ⟨place, place_put text h room, by rw [entry?_put tree room.ne_nil, if_pos rfl]⟩

/-- A file is written exactly if the path leads to a place that has room for it, and then it is put there. -/
theorem write_eq_ok_iff {tree next : FileTree} {path : Path} {text : String} :
    tree.write path text = .ok next ↔
      ∃ place, tree.place path = .ok place ∧ tree.HasRoom place ∧ next = tree.put place (.file text) := by
  unfold write update HasRoom
  cases tree.place path with
  | error fault => simp [bind, Except.bind]
  | ok place =>
    simp only [bind, Except.bind, Except.ok.injEq, exists_eq_left']
    cases tree.entry? place with
    | none => simp [pure, Except.pure, eq_comm]
    | some entry => cases entry <;> simp [pure, Except.pure, eq_comm]

/-- A file that was written has the text that was written. -/
theorem holds_of_write {tree next : FileTree} {path : Path} {text : String}
    (h : tree.write path text = .ok next) : next.Holds path text := by
  obtain ⟨place, hplace, room, rfl⟩ := write_eq_ok_iff.1 h
  exact holds_put hplace room text

/-- What is added to a file that is there stands behind its text. -/
theorem exists_append_of_holds {tree : FileTree} {path : Path} {text : String}
    (h : tree.Holds path text) (more : String) :
    ∃ next, tree.append path more = .ok next ∧ next.Holds path (text ++ more) := by
  obtain ⟨place, hp, he⟩ := h
  refine ⟨tree.put place (.file (text ++ more)), ?_, holds_put hp (.inr ⟨text, he⟩) _⟩
  simp only [append, update, hp, he, bind, Except.bind]
  rfl

/-- The text of a file that is there is read. -/
theorem read_of_holds {tree : FileTree} {path : Path} {text : String} (h : tree.Holds path text) :
    tree.read path = .ok text := by
  obtain ⟨place, hp, he⟩ := h
  simp only [read, hp, he, bind, Except.bind]
  rfl

/-- A file that is there is found. -/
theorem find?_of_holds {tree : FileTree} {path : Path} {text : String} (h : tree.Holds path text) :
    tree.find? path = some (.file text) := by
  obtain ⟨place, hp, he⟩ := h
  simp only [find?, hp, he]

end FileTree

end EditionMarket
