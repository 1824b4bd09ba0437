import EditionMarket.Event.File
import EditionMarket.Proofs.Configuration.Merging
import EditionMarket.Proofs.Configuration.Run
import EditionMarket.Proofs.Files.Links

/-!
# Where event files go

Whoever opens an event file says where events go, or leaves it to the settings. If nobody says anything, it is
the file of the settings. For a run it is a file in the directory of the settings, but only if the raw
settings name one. Where they leave it out, the settings have a directory all the same, and yet it is not
looked for: the file of the settings is opened for the run as well, and loses the events that were in it.

To open a file is to empty it. No other file is changed, but for those where the link to the last run is put.

Main definitions: `FileTree.Empties`, `OpensAlone` and `OpensInRun`. Main statements: `create_eq_ok_iff`, what
is done; `exists_create_alone` and `exists_create_inRun`, where it can be done; `not_create_latest`, where it
never can; and `events_go_where_configured_unless_left_out`.
-/

namespace EditionMarket

/-- At the end of a path there is an empty file, and every other file is as it was, but for some places. -/
def FileTree.Empties (tree opened : FileTree) (path : Path) (lost : Place → Prop) : Prop :=
  ∃ place, opened.place path = .ok place ∧ opened.entry? place = some (.file "") ∧
    ∀ other, other ≠ place → ¬ lost other → opened.textAt? other = tree.textAt? other

/-- Whether a setting is a text. -/
def Raw.isText : Raw → Bool
  | .string _ => true
  | _ => false

namespace EventFile

variable {time : String} {raw : Raw.Fields} {request : Request} {tree opened : FileTree} {events : EventFile}
  {directory run : String}

/-! ## Opening -/

/-- The event file that is opened. -/
def opening (time : String) (raw : Raw.Fields) (request : Request) : EventFile :=
  ⟨time, choosePath raw request, (logsDirectory? raw request).map Path.ofString, request.runId, 0⟩

/-- What is done for a run, if there is one, before its file is made. -/
def prepare (raw : Raw.Fields) (request : Request) : FilesM Unit :=
  match logsDirectory? raw request, given? request.runId with
  | some directory, some run => openRun (Path.ofString directory) run
  | _, _ => pure ()

/-- An event file is opened exactly if the run can be prepared and the file can be made. -/
theorem create_eq_ok_iff :
    create time raw request tree = .ok events opened ↔
      ∃ prepared, prepare raw request tree = .ok () prepared ∧
        FileTree.makeFile (choosePath raw request) prepared = .ok () opened ∧
          events = opening time raw request := by
  have hcreate : create time raw request = (do
      prepare raw request
      FileTree.makeDirectories (choosePath raw request).parent
      FilesM.change (·.write (choosePath raw request) "")
      return opening time raw request) := by
    unfold create prepare opening
    cases logsDirectory? raw request <;> cases given? request.runId <;> rfl
  rw [hcreate, FileTree.makeFile]
  simp only [Program.bind_eq_ok_iff, Program.pure_eq_ok_iff]
  constructor
  · rintro ⟨_, prepared, hprepare, _, made, hmade, _, written, hwritten, rfl, rfl⟩
    exact ⟨prepared, hprepare, ⟨_, made, hmade, hwritten⟩, rfl⟩
  · rintro ⟨prepared, hprepare, ⟨_, made, hmade, hwritten⟩, rfl⟩
    exact ⟨_, prepared, hprepare, _, made, hmade, _, opened, hwritten, rfl, rfl⟩

/-- Nothing is prepared if there is no run or no directory for runs. -/
theorem prepare_alone (h : logsDirectory? raw request = none ∨ given? request.runId = none) :
    prepare raw request = pure () := by
  unfold prepare
  split
  next directory run hdirectory hrun =>
    rcases h with h | h
    · cases hdirectory.symm.trans h
    · cases hrun.symm.trans h
  next => rfl

/-- For a run its directory is prepared. -/
theorem prepare_inRun (hdirectory : logsDirectory? raw request = some directory)
    (hrun : given? request.runId = some run) :
    prepare raw request = openRun (Path.ofString directory) run := by
  unfold prepare
  rw [hdirectory, hrun]

/-! ## Alone -/

/-- Who opens a file alone empties it, and changes no other. -/
theorem of_create_alone (h : logsDirectory? raw request = none ∨ given? request.runId = none)
    (hcreate : create time raw request tree = .ok events opened) :
    events = opening time raw request ∧ tree.Empties opened (choosePath raw request) fun _ => False := by
  obtain ⟨middle, hprepare, hmake, rfl⟩ := create_eq_ok_iff.1 hcreate
  rw [prepare_alone h] at hprepare
  obtain ⟨-, rfl⟩ := Program.pure_eq_ok_iff.1 hprepare
  obtain ⟨place, hplace, hempty, hothers, -⟩ := FileTree.of_makeFile hmake
  exact ⟨rfl, place, hplace, hempty, fun other hother _ => hothers other hother⟩

/-- A file can be opened alone where its place is free. -/
theorem exists_create_alone (time : String)
    (h : logsDirectory? raw request = none ∨ given? request.runId = none)
    (hfree : tree.Free (choosePath raw request).names) :
    ∃ events opened, create time raw request tree = .ok events opened := by
  obtain ⟨opened, hmake⟩ := FileTree.exists_makeFile hfree
  refine ⟨_, opened, create_eq_ok_iff.2 ⟨tree, ?_, hmake, rfl⟩⟩
  rw [prepare_alone h]
  rfl

/-! ## In a run -/

/-- The file of a run stands in the directory of the run. -/
theorem choosePath_inRun (hdirectory : logsDirectory? raw request = some directory)
    (hrun : given? request.runId = some run) :
    choosePath raw request =
      ((Path.ofString directory).join (Path.ofString run)).join (Path.ofString "events.jsonl") := by
  unfold choosePath
  rw [hdirectory, hrun]

theorem names_join {directory path : Path} (h : path.absolute = false) :
    (directory.join path).names = directory.names ++ path.names := by
  simp only [Path.join, h]
  rfl

theorem ofString_latest : Path.ofString "latest" = ⟨false, ["latest"]⟩ := rfl

theorem ofString_events : Path.ofString "events.jsonl" = ⟨false, ["events.jsonl"]⟩ := rfl

theorem names_latest (directory : Path) :
    (directory.join (Path.ofString "latest")).names = directory.names ++ ["latest"] := by
  rw [ofString_latest]
  exact names_join rfl

theorem names_events (directory : Path) :
    (directory.join (Path.ofString "events.jsonl")).names = directory.names ++ ["events.jsonl"] := by
  rw [ofString_events]
  exact names_join rfl

theorem parent_events (directory : Path) :
    (directory.join (Path.ofString "events.jsonl")).parent = directory := by
  rw [ofString_events]
  simp [Path.parent, Path.join]

theorem openRun_eq (directory : Path) (run : String) :
    openRun directory run = (do
      FileTree.makeDirectories (directory.join (Path.ofString run))
      FileTree.relink (directory.join (Path.ofString "latest")) run) := rfl

/-- The link leads to the run that was prepared. No file is changed, but for those where the link is now. -/
theorem of_openRun {directory : Path} {prepared : FileTree}
    (h : openRun directory run tree = .ok () prepared) :
    ∃ latest, prepared.linkPlace (directory.join (Path.ofString "latest")) = .ok latest ∧
      prepared.entry? latest = some (.link run) ∧
        ∀ other, ¬ latest <+: other → prepared.textAt? other = tree.textAt? other := by
  rw [openRun_eq] at h
  obtain ⟨_, made, hmade, hlinked⟩ := Program.bind_eq_ok_iff.1 h
  obtain ⟨latest, hlatest, hlink, hkept⟩ := FileTree.of_relink hlinked
  refine ⟨latest, hlatest, hlink, fun other hother => ?_⟩
  rw [hkept other hother, (FileTree.gains_of_makeDirectories hmade).textAt?_eq]

/-- A run can be prepared if the way to its directory is clear. -/
theorem exists_openRun {directory : Path} (hrelative : (Path.ofString run).absolute = false)
    (hclear : tree.Clear (directory.join (Path.ofString run)).names) :
    ∃ prepared, openRun directory run tree = .ok () prepared ∧
      ∀ other, ¬ directory.names ++ ["latest"] <+: other →
        (other <+: (directory.join (Path.ofString run)).names → prepared.entry? other = some .directory) ∧
        (¬ other <+: (directory.join (Path.ofString run)).names →
          prepared.entry? other = tree.entry? other) := by
  obtain ⟨made, hmake, hmade⟩ := FileTree.exists_makeDirectories hclear
  have hrun : (directory.join (Path.ofString run)).names = directory.names ++ (Path.ofString run).names :=
    names_join hrelative
  have hlatest := names_latest directory
  have hreached : made.Reached (directory.join (Path.ofString "latest")).names := fun front hfront hne => by
    rw [hlatest] at hfront hne
    have hdirectory : front <+: directory.names := (List.prefix_concat_iff.1 hfront).resolve_left hne
    exact hmade.made (hrun ▸ hdirectory.trans (List.prefix_append _ _))
  have hup : ".." ∉ (directory.join (Path.ofString "latest")).names := by
    rw [hlatest, List.mem_append, List.mem_singleton, not_or]
    exact ⟨fun hmem => hclear.up (hrun ▸ List.mem_append_left _ hmem), by decide⟩
  obtain ⟨prepared, hlink, hkept⟩ := FileTree.exists_relink run hup hreached (by simp [hlatest])
  refine ⟨prepared, (Program.bind_of_ok hmake _).trans hlink, fun other hother => ?_⟩
  rw [hkept other (hlatest ▸ hother)]
  exact ⟨hmade.made, hmade.other⟩

/-- Who opens a file for a run empties it, and changes no other, but for those where the link is now. -/
theorem of_create_inRun (hdirectory : logsDirectory? raw request = some directory)
    (hrun : given? request.runId = some run) (hcreate : create time raw request tree = .ok events opened) :
    events = opening time raw request ∧
      ∃ latest, opened.linkPlace ((Path.ofString directory).join (Path.ofString "latest")) = .ok latest ∧
        opened.entry? latest = some (.link run) ∧
        tree.Empties opened (choosePath raw request) fun other => latest <+: other := by
  obtain ⟨prepared, hprepare, hmake, rfl⟩ := create_eq_ok_iff.1 hcreate
  rw [prepare_inRun hdirectory hrun] at hprepare
  obtain ⟨latest, hlatest, hlink, hkept⟩ := of_openRun hprepare
  obtain ⟨place, hplace, hempty, hothers, hwithin⟩ := FileTree.of_makeFile hmake
  refine ⟨rfl, latest, ?_, hwithin.link hlink, place, hplace, hempty, fun other hother hlost => ?_⟩
  · exact FileTree.linkPlace_of_within hwithin hlatest
  · rw [hothers other hother, hkept other hlost]

/-- The file of a run is not where the link is, if the names of the run do not start with the link's. -/
theorem not_latest_inside {names runNames : List String} (h : runNames.head? ≠ some "latest") :
    ¬ names ++ ["latest"] <+: names ++ runNames ++ ["events.jsonl"] := by
  rw [List.append_assoc, List.prefix_append_right_inj]
  cases runNames with
  | nil => decide
  | cons name rest =>
    intro hinside
    obtain ⟨rfl, -⟩ := List.cons_prefix_cons.1 hinside
    exact h rfl

/-- A file can be opened for a run where its place is free, if the link is not put on the way to it. -/
theorem exists_create_inRun (time : String) (hdirectory : logsDirectory? raw request = some directory)
    (hrun : given? request.runId = some run) (hrelative : (Path.ofString run).absolute = false)
    (hother : (Path.ofString run).names.head? ≠ some "latest")
    (hfree : tree.Free (choosePath raw request).names) :
    ∃ events opened, create time raw request tree = .ok events opened := by
  have hnames := names_events ((Path.ofString directory).join (Path.ofString run))
  rw [← choosePath_inRun hdirectory hrun] at hnames
  have hbeside : ¬ (Path.ofString directory).names ++ ["latest"] <+: (choosePath raw request).names := by
    rw [hnames, names_join hrelative]
    exact not_latest_inside hother
  have hclear := hfree.clear
  rw [hnames, List.dropLast_concat] at hclear
  obtain ⟨prepared, hprepare, hentries⟩ := exists_openRun hrelative hclear
  -- The directory of the run is there now, and its file is as it was.
  have hon (front : Place) : front <+: ((Path.ofString directory).join (Path.ofString run)).names ↔
      front <+: (choosePath raw request).names ∧ front ≠ (choosePath raw request).names := by
    rw [← FileTree.prefix_dropLast_iff hfree.room.ne_nil, hnames, List.dropLast_concat]
  have hstill : prepared.Free (choosePath raw request).names := by
    refine ⟨hfree.up, fun front hfront hne => .inr ?_, ?_⟩
    · exact (hentries front fun hinside => hbeside (hinside.trans hfront)).1 ((hon front).2 ⟨hfront, hne⟩)
    · have hself := (hentries _ hbeside).2 fun hinside => ((hon _).1 hinside).2 rfl
      rw [FileTree.HasRoom, hself]
      exact hfree.room
  obtain ⟨opened, hmake⟩ := FileTree.exists_makeFile hstill
  exact ⟨_, opened, create_eq_ok_iff.2 ⟨prepared, (prepare_inRun hdirectory hrun).symm ▸ hprepare, hmake, rfl⟩⟩

/-- No file can be opened for a run that is named like the link. -/
theorem not_create_latest (hdirectory : logsDirectory? raw request = some directory)
    (hrun : given? request.runId = some "latest") : create time raw request tree ≠ .ok events opened := by
  intro hcreate
  obtain ⟨prepared, hprepare, hmake, -⟩ := create_eq_ok_iff.1 hcreate
  rw [prepare_inRun hdirectory hrun] at hprepare
  obtain ⟨latest, hlatest, hlink, -⟩ := of_openRun hprepare
  have hnames := names_latest (Path.ofString directory)
  have hparent : (choosePath raw request).parent =
      (Path.ofString directory).join (Path.ofString "latest") := by
    rw [choosePath_inRun hdirectory hrun]
    exact parent_events _
  obtain ⟨_, made, hmade, -⟩ := Program.bind_eq_ok_iff.1 hmake
  rw [hparent] at hmade
  -- The link leads to itself, so there is no directory, and none can be made.
  have hloop := FileTree.resolve_of_loop ofString_latest (by decide) (by rw [hnames, List.getLast?_concat])
    hlatest hlink
  have hfind : prepared.find? ((Path.ofString directory).join (Path.ofString "latest")) ≠ some .directory := by
    rw [FileTree.find?, FileTree.place, hloop]
    exact (Option.some_ne_none _).symm
  have hentry : prepared.entry? latest ≠ none := by
    rw [hlink]
    exact Option.some_ne_none _
  rw [FileTree.makeDirectories_of_exists (by simp [hnames]) hlatest hentry hfind] at hmade
  cases hmade

/-! ## Settings -/

variable {check : Validation} {settings : Settings}

/-- What is looked for at a path is found if it is a text, and then a validation takes it for itself. -/
theorem configured_eq (hcheck : check.Documented) {path seen : String}
    (hseen : ∀ given, Configuration.lookup raw path = some given → check .text given = .ok seen) :
    configured? raw path = if (Configuration.lookup raw path).any Raw.isText then some seen else none := by
  unfold configured?
  cases hgiven : Configuration.lookup raw path with
  | none => rfl
  | some given =>
    cases given with
    | string s =>
      have heq := (hcheck.string s).symm.trans (hseen _ hgiven)
      exact congrArg some (Except.ok.inj heq)
    | _ => rfl

theorem configured_outputFile (hcheck : check.Documented) (h : check .settings (.object raw) = .ok settings) :
    configured? raw "logging.output_file" =
      if (Configuration.lookup raw "logging.output_file").any Raw.isText then some settings.logging.outputFile
      else none :=
  configured_eq hcheck fun _ => Setting.check_of_lookup hcheck h .outputFile rfl

theorem configured_logsDir (hcheck : check.Documented) (h : check .settings (.object raw) = .ok settings) :
    configured? raw "logging.logs_dir" =
      if (Configuration.lookup raw "logging.logs_dir").any Raw.isText then some settings.logging.logsDir
      else none :=
  configured_eq hcheck fun _ => Setting.check_of_lookup hcheck h .logsDir rfl

/-- The file that is gone to if nobody says anything, and there is no directory for runs. -/
theorem choosePath_alone (hcheck : check.Documented) (h : check .settings (.object raw) = .ok settings)
    {run? : Option String} (hnone : logsDirectory? raw { runId := run? } = none) :
    choosePath raw { runId := run? } = Path.ofString
      (if (Configuration.lookup raw "logging.output_file").any Raw.isText then settings.logging.outputFile
      else fallback) := by
  unfold choosePath
  rw [hnone]
  have hgiven : given? none = none := rfl
  dsimp only
  rw [hgiven, configured_outputFile hcheck h]
  cases (Configuration.lookup raw "logging.output_file").any Raw.isText <;> rfl

/-- Events go to a file alone: it is empty when it is opened, and no other file is changed. It can be opened
where its place is free. -/
def OpensAlone (raw : Raw.Fields) (request : Request) (path : Path) : Prop :=
  ∀ (time : String) (tree : FileTree),
    (∀ events opened, create time raw request tree = .ok events opened →
      events.path = path ∧ tree.Empties opened path fun _ => False) ∧
    (tree.Free path.names → ∃ events opened, create time raw request tree = .ok events opened)

/-- Events go to the file of a run in a directory: it is empty when it is opened, and no other file is
changed, but for those where the link to the run is now. It can be opened where its place is free, if the run
is given as a relative path and the link is not put on the way to it. It never can if the run is named like
the link. -/
def OpensInRun (raw : Raw.Fields) (directory : Path) (run : String) : Prop :=
  let path := (directory.join (Path.ofString run)).join (Path.ofString "events.jsonl")
  ∀ (time : String) (tree : FileTree),
    (∀ events opened, create time raw { runId := some run } tree = .ok events opened →
      run ≠ "latest" ∧ events.path = path ∧
        ∃ latest, opened.linkPlace (directory.join (Path.ofString "latest")) = .ok latest ∧
          opened.entry? latest = some (.link run) ∧ tree.Empties opened path fun other => latest <+: other) ∧
    (tree.Free path.names → (Path.ofString run).absolute = false →
      (Path.ofString run).names.head? ≠ some "latest" →
        ∃ events opened, create time raw { runId := some run } tree = .ok events opened)

theorem opensAlone (h : logsDirectory? raw request = none) :
    OpensAlone raw request (choosePath raw request) := by
  refine fun time tree => ⟨fun events opened hcreate => ?_, exists_create_alone time (.inl h)⟩
  obtain ⟨rfl, hempties⟩ := of_create_alone (.inl h) hcreate
  exact ⟨rfl, hempties⟩

theorem opensInRun (hdirectory : logsDirectory? raw { runId := some run } = some directory)
    (hrun : run ≠ "") : OpensInRun raw (Path.ofString directory) run := by
  have hgiven : given? (some run) = some run := if_neg hrun
  have hpath := choosePath_inRun hdirectory hgiven
  intro time tree
  refine ⟨fun events opened hcreate => ?_, fun hfree hrelative hother => ?_⟩
  · obtain ⟨rfl, hlatest⟩ := of_create_inRun hdirectory hgiven hcreate
    rw [hpath] at hlatest
    refine ⟨?_, hpath, hlatest⟩
    rintro rfl
    exact not_create_latest hdirectory hgiven hcreate
  · exact exists_create_inRun time hdirectory hgiven hrelative hother (hpath ▸ hfree)

/-- **Event files go where the settings say, unless the raw settings leave out the directory for runs.** Let
raw settings be installed, whatever reads documents, and with a validation that does what is known of
validations, and let the directory for runs that they stand for not be the empty text. If nobody says anything,
events go to the file of the settings, if the raw settings name it as a text or leave it out. For a run they go
to the run's file in the directory of the settings, if the raw settings name it as a text; otherwise they go to
the file where they go without a run, whatever the directory is. Whatever the raw settings give for either that
is no text is not looked at, even if the validation takes it for one. Either way the file is emptied, and no
other file is changed, but for those where the link to the run is put. -/
theorem events_go_where_configured_unless_left_out {intake : Intake} (hcheck : intake.check.Documented)
    {raw : Raw.Fields} {before final : Configuration} {installed : Installed}
    (h : Configuration.install intake raw before = .ok installed final)
    (hdirectory : installed.settings.logging.logsDir ≠ "") :
    Configuration.current intake final = .ok installed final ∧ installed.raw = raw ∧
      let given := Configuration.lookup raw "logging.output_file"
      let file := if given.any Raw.isText then installed.settings.logging.outputFile else fallback
      let directory := Path.ofString installed.settings.logging.logsDir
      (given = none → (Raw.object raw).blocks Setting.outputFile.path = false →
        installed.settings.logging.outputFile = fallback) ∧
      OpensAlone installed.raw {} (Path.ofString file) ∧
        ∀ run, run ≠ "" →
          if (Configuration.lookup raw "logging.logs_dir").any Raw.isText then
            OpensInRun installed.raw directory run
          else OpensAlone installed.raw { runId := some run } (Path.ofString file) := by
  obtain ⟨hsettings, rfl, hfinal⟩ := Configuration.install_eq_ok_iff.1 h
  refine ⟨Configuration.current_of_active (by rw [hfinal]), rfl, ?_, ?_, fun run hrun => ?_⟩
  · exact Setting.of_left_out hcheck hsettings .outputFile rfl rfl
  · have hnone : logsDirectory? installed.raw {} = none := rfl
    rw [← choosePath_alone hcheck hsettings hnone]
    exact opensAlone hnone
  · have hfound : logsDirectory? installed.raw { runId := some run } =
        given? (configured? installed.raw "logging.logs_dir") := by
      have hgiven : given? (some run) = some run := if_neg hrun
      unfold logsDirectory?
      rw [hgiven]
      rfl
    rw [configured_logsDir hcheck hsettings] at hfound
    split
    next htext =>
      rw [if_pos htext] at hfound
      exact opensInRun (hfound.trans (if_neg hdirectory)) hrun
    next hno =>
      rw [if_neg hno] at hfound
      rw [← choosePath_alone hcheck hsettings hfound]
      exact opensAlone hfound

/-- A run's file is opened in the directory that the raw settings name. -/
theorem events_go_where_configured_unless_left_out_inRun :
    let raw : Raw.Fields := [(.text "logging", .object [(.text "logs_dir", .string "out")])]
    ∃ installed final events opened, Configuration.install .builtin raw {} = .ok installed final ∧
      create "2026-01-01T00:00:00+00:00" installed.raw { runId := some "first" } ∅ = .ok events opened ∧
        events.path = ⟨false, ["out", "first", "events.jsonl"]⟩ ∧ opened.read events.path = .ok "" := by
  intro raw
  have hclean : (Schema.settings (.object raw)).issues = [] := rfl
  obtain ⟨final, hinstall⟩ := Configuration.install_builtin hclean {}
  have hdirectory : (Schema.settings (.object raw)).value.logging.logsDir = "out" := rfl
  have hpath : ((Path.ofString "out").join (Path.ofString "first")).join (Path.ofString "events.jsonl") =
      ⟨false, ["out", "first", "events.jsonl"]⟩ := rfl
  have hfree : FileTree.Free ∅ ["out", "first", "events.jsonl"] := by
    refine ⟨by decide, fun front _ _ => ?_, .inl rfl⟩
    cases front with
    | nil => exact .inr rfl
    | cons name rest => exact .inl rfl
  obtain ⟨-, -, -, -, hruns⟩ := events_go_where_configured_unless_left_out Schema.check_documented hinstall
    (by rw [hdirectory]; decide)
  have hrun := hruns "first" (by decide)
  rw [if_pos (by decide), hdirectory] at hrun
  obtain ⟨hopens, hcan⟩ := hrun "2026-01-01T00:00:00+00:00" ∅
  rw [hpath] at hopens hcan
  obtain ⟨events, opened, hcreate⟩ := hcan hfree (by decide) (by decide)
  obtain ⟨-, heq, -, -, -, place, hplace, hempty, -⟩ := hopens events opened hcreate
  exact ⟨_, _, events, opened, hinstall, hcreate, heq, FileTree.read_of_holds ⟨place, heq ▸ hplace, hempty⟩⟩

/-- Where the raw settings do not name a directory for runs, a run's file is not opened in the one of the
settings, and it is another file that loses its events. -/
theorem run_empties_another_file :
    let tree : FileTree := Table.put ∅ ["fanbase_events.jsonl"] (.file "old")
    ∃ installed final events opened, Configuration.install .builtin [] {} = .ok installed final ∧
      installed.settings.logging.logsDir = "logs" ∧
        installed.settings.logging.outputFile = "fanbase_events.jsonl" ∧
        create "2026-01-01T00:00:00+00:00" installed.raw { runId := some "first" } tree = .ok events opened ∧
          events.path ≠ ⟨false, ["logs", "first", "events.jsonl"]⟩ ∧
            tree.read ⟨false, ["fanbase_events.jsonl"]⟩ = .ok "old" ∧
              opened.read ⟨false, ["fanbase_events.jsonl"]⟩ = .ok "" := by
  intro tree
  have hclean : (Schema.settings (.object [])).issues = [] := rfl
  obtain ⟨final, hinstall⟩ := Configuration.install_builtin hclean {}
  have halone : logsDirectory? [] { runId := some "first" } = none := rfl
  have hpath : choosePath [] { runId := some "first" } = ⟨false, ["fanbase_events.jsonl"]⟩ := rfl
  have hentry : tree.entry? ["fanbase_events.jsonl"] = some (.file "old") := by
    rw [FileTree.entry?_put ∅ (by decide), if_pos rfl]
  have hway : tree.Reached ["fanbase_events.jsonl"] := fun front hfront hne => by
    have hroot := (FileTree.prefix_dropLast_iff (List.cons_ne_nil _ _)).2 ⟨hfront, hne⟩
    rw [List.prefix_nil.1 hroot]
    rfl
  have hfree : tree.Free ["fanbase_events.jsonl"] :=
    ⟨by decide, fun front hfront hne => .inr (hway front hfront hne), .inr ⟨"old", hentry⟩⟩
  have hold : tree.Holds ⟨false, ["fanbase_events.jsonl"]⟩ "old" := by
    have hroom : tree.HasRoom ["fanbase_events.jsonl"] := .inr ⟨"old", hentry⟩
    exact ⟨["fanbase_events.jsonl"], FileTree.place_of_reached (by decide) hway hroom.ne_link, hentry⟩
  obtain ⟨events, opened, hcreate⟩ :=
    exists_create_alone "2026-01-01T00:00:00+00:00" (.inl halone) (by rw [hpath]; exact hfree)
  obtain ⟨rfl, place, hplace, hempty, -⟩ := of_create_alone (.inl halone) hcreate
  rw [hpath] at hplace
  exact ⟨_, _, _, opened, hinstall, rfl, rfl, hcreate, by rw [opening, hpath]; decide,
    FileTree.read_of_holds hold, FileTree.read_of_holds ⟨place, hplace, hempty⟩⟩

end EventFile

end EditionMarket
