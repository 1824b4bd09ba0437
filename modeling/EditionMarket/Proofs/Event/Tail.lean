import EditionMarket.Proofs.Configuration.Merging
import EditionMarket.Proofs.Configuration.Run
import EditionMarket.Proofs.Event.Sinks

/-!
# How many events are shown

Whoever asks for recent events need not say how many. Then it is as many as the active configuration says, but
the raw settings are asked, and not what they stand for. The two give the same number if the raw setting is an
integer or a truth value, or if it is left out. If it is anything else that a validation takes for an integer,
as it may take a text or a number with a point, then it is passed over here.

Main definitions: `Raw.isInteger`, `EventSink.New` and `EventSink.logEach`. Main statements: `recentCount_eq`,
how many events are meant; `EventSink.recent_logEach`, which ones are shown; and
`tail_is_as_configured_unless_spelt`.
-/

namespace EditionMarket

/-! ## How many -/

/-- Whether a setting is an integer by itself. A truth value is one. -/
def Raw.isInteger : Raw → Bool
  | .int _ | .bool _ => true
  | _ => false

theorem parts_recent : Configuration.parts "logging.default_recent" = Setting.recent.path := rfl

section Validation

variable {check : Validation} {raw : Raw.Fields} {settings : Settings}

/-- As many recent events are meant as the settings say, if the raw setting is an integer by itself. -/
theorem recentCount_eq (hcheck : check.Documented) (h : check .settings (.object raw) = .ok settings) :
    recentCount raw none =
      if (Configuration.lookup raw "logging.default_recent").any Raw.isInteger then
        (settings.logging.recent : Int)
      else 50 := by
  unfold recentCount
  cases hgiven : Configuration.lookup raw "logging.default_recent" with
  | none => rfl
  | some given =>
    have hmeans := Setting.check_of_lookup hcheck h .recent parts_recent hgiven
    cases given with
    | int n => exact ((hcheck.int n _).1 hmeans).symm
    | bool b => exact ((hcheck.bool b _).1 hmeans).symm
    | _ => rfl

/-- If it is left out, they say that it is fifty. -/
theorem recent_of_left_out (hcheck : check.Documented) (h : check .settings (.object raw) = .ok settings)
    (hnone : Configuration.lookup raw "logging.default_recent" = none)
    (hopen : (Raw.object raw).blocks Setting.recent.path = false) : settings.logging.recent = 50 :=
  congrArg Subtype.val (Setting.of_left_out hcheck h .recent parts_recent rfl hnone hopen)

end Validation

/-! ## Which ones -/

/-- The last records are records that follow one another up to the last one, as many as are asked for, or all
of them if there are fewer. -/
theorem lastRecords_spec {α : Type} (count : Int) (records : List α) :
    (∃ earlier, records = earlier ++ lastRecords count records) ∧
      (lastRecords count records).length = min count.toNat records.length := by
  constructor
  · exact ⟨_, (List.take_append_drop (records.length - count.toNat) records).symm⟩
  · rw [lastRecords, List.length_drop]
    omega

namespace EventSink

/-- A sink that has just been made, and the files that there are then. -/
inductive New : EventSink → FileTree → Prop
  | memory (time : String) (tree : FileTree) : New (.memory { time := time }) tree
  | file {time : String} {raw : Raw.Fields} {request : EventFile.Request} {tree opened : FileTree}
      {events : EventFile} (created : EventFile.create time raw request tree = .ok events opened) :
      New (.file events) opened

variable {sink : EventSink} {tree : FileTree}

/-- A new sink keeps no records, and its events are numbered from one. -/
theorem New.keeps (h : New sink tree) : sink.Keeps tree [] ∧ sink.sequence = 0 := by
  cases h with
  | memory time tree => exact ⟨rfl, rfl⟩
  | file created => exact keeps_create created

/-- Logs events one after the other, each at its own time. Where one cannot be written, the next one follows.
-/
def logEach (tree : FileTree) (sink : EventSink) : List Occurrence → EventSink × FileTree
  | [] => (sink, tree)
  | event :: rest =>
    match (sink.atTime event.time).log tree event.kind event.data with
    | (next, .ok written) => next.logEach written rest
    | (next, .error _) => next.logEach tree rest

/-- The records that a new sink keeps of events. -/
def keptOf (sink : EventSink) (events : List Occurrence) : List EventRecord :=
  (Occurrence.recordsFrom sink.sequence events).filter fun record => sink.canKeep record

/-- An event of which a sink cannot keep a record is counted. -/
theorem log_of_not_canKeep (event : Occurrence)
    (hcan : sink.canKeep (event.record (sink.sequence + 1)) = false) :
    ∃ next, (sink.atTime event.time).log tree event.kind event.data = (next, .error .record) ∧
      (∀ records, sink.Keeps tree records → next.Keeps tree records) ∧
        next.sequence = sink.sequence + 1 ∧ next.path? = sink.path? := by
  cases sink with
  | memory log => cases hcan
  | file events =>
    let timed : EventFile := { events with time := event.time }
    have hlog := timed.log_of_not_isWritable (Bool.eq_false_iff.1 hcan) tree
    exact ⟨.file timed.miss, congrArg (fun result => (EventSink.file result.1, result.2)) hlog,
      fun _ h => h, rfl, rfl⟩

/-- A sink that keeps records keeps those of all events that are logged and that it can keep. -/
theorem keeps_logEach {records : List EventRecord} (h : sink.Keeps tree records) (events : List Occurrence) :
    (sink.logEach tree events).1.Keeps (sink.logEach tree events).2 (records ++ sink.keptOf events) := by
  unfold keptOf
  induction events generalizing sink tree records with
  | nil =>
    rw [Occurrence.recordsFrom, List.filter_nil, List.append_nil]
    exact h
  | cons event rest ih =>
    rw [Occurrence.recordsFrom, logEach]
    cases hcan : sink.canKeep (event.record (sink.sequence + 1)) with
    | true =>
      obtain ⟨next, written, hlogged, hkeeps, hcounted, hpath, -⟩ := keeps_log h event hcan
      have hrest := ih hkeeps
      simp only [canKeep_congr hpath, hcounted, List.append_assoc, List.singleton_append] at hrest
      rw [hlogged, List.filter_cons, if_pos hcan]
      exact hrest
    | false =>
      obtain ⟨next, hlogged, hkeeps, hcounted, hpath⟩ := log_of_not_canKeep event hcan
      have hrest := ih (hkeeps records h)
      simp only [canKeep_congr hpath, hcounted] at hrest
      rw [hlogged, List.filter_cons, if_neg (Bool.eq_false_iff.1 hcan)]
      exact hrest

/-- Of the events that are logged with a new sink, the last ones are shown that it could keep. -/
theorem recent_logEach (h : New sink tree) (events : List Occurrence) (count : Int) :
    (sink.logEach tree events).1.recent (sink.logEach tree events).2 count =
      (sink.logEach tree events).1.Shows (lastRecords count (sink.keptOf events)) := by
  have hkeeps := keeps_logEach h.keeps.1 events
  rw [List.nil_append] at hkeeps
  exact recent_eq_shows hkeeps count

/-- Of plain events a new sink keeps all records. -/
theorem keptOf_of_plain (h : New sink tree) {events : List Occurrence}
    (hplain : ∀ event ∈ events, Value.Plain (.object event.data)) (hshort : Text.isWritable events.length) :
    sink.keptOf events = Occurrence.recordsFrom 0 events ∧
      ∀ record ∈ Occurrence.recordsFrom 0 events, Value.Plain (.object record) := by
  have hrecords : ∀ record ∈ Occurrence.recordsFrom 0 events, Value.Plain (.object record) :=
    Occurrence.plain_recordsFrom hplain (Text.isWritable_of_le (Nat.zero_add events.length).le hshort)
  refine ⟨?_, hrecords⟩
  unfold keptOf
  rw [h.keeps.2, List.filter_eq_self]
  exact fun record hr => canKeep_of_plain (hrecords record hr) sink

/-- **The tail that is shown is as long as configured, unless the number is only spelt.** Let raw settings be
installed, whatever reads documents, and with a validation that does what is known of validations, and log any
events with a new sink, be it in memory or a file. If nobody says how many, the last ones are shown of those
that the sink could keep, oldest first: as many as the settings say, or all if there are fewer, if the raw
setting is an integer or a truth value. If it is left out, the settings say fifty, and fifty are shown. If it
is anything else, it is fifty as well, whatever the validation takes it for. A sink in memory keeps and shows
all records, and a file those that can be written, and it shows what is read of their lines. If what is said
about the events is plain, then it keeps all records, and what it shows are the records again. -/
theorem tail_is_as_configured_unless_spelt {intake : Intake} (hcheck : intake.check.Documented)
    {raw : Raw.Fields} {before final : Configuration} {installed : Installed}
    (h : Configuration.install intake raw before = .ok installed final) :
    Configuration.current intake final = .ok installed final ∧ installed.raw = raw ∧
      let given := Configuration.lookup raw "logging.default_recent"
      let count : Nat := if given.any Raw.isInteger then installed.settings.logging.recent else 50
      (given = none → (Raw.object raw).blocks Setting.recent.path = false →
        installed.settings.logging.recent = 50) ∧
      ∀ (sink : EventSink) (tree : FileTree), sink.New tree → ∀ events : List Occurrence,
        let next := (sink.logEach tree events).1
        let shown := next.recent (sink.logEach tree events).2 (recentCount installed.raw none)
        ∃ earlier last, sink.keptOf events = earlier ++ last ∧
          last.length = min count (sink.keptOf events).length ∧ shown = next.Shows last ∧
            ((∀ event ∈ events, Value.Plain (.object event.data)) → Text.isWritable events.length →
              sink.keptOf events = Occurrence.recordsFrom 0 events ∧ shown = .ok (last.map .object)) := by
  obtain ⟨hsettings, rfl, hfinal⟩ := Configuration.install_eq_ok_iff.1 h
  refine ⟨Configuration.current_of_active (by rw [hfinal]), rfl, recent_of_left_out hcheck hsettings, ?_⟩
  intro sink tree hnew events next shown
  have hcount : recentCount installed.raw none =
      ((if (Configuration.lookup installed.raw "logging.default_recent").any Raw.isInteger then
        installed.settings.logging.recent else 50 : Nat) : Int) := by
    rw [recentCount_eq hcheck hsettings]
    split <;> rfl
  have hshown : shown = next.Shows _ := recent_logEach hnew events (recentCount installed.raw none)
  obtain ⟨⟨earlier, hearlier⟩, hlength⟩ :=
    lastRecords_spec (recentCount installed.raw none) (sink.keptOf events)
  rw [hcount, Int.toNat_natCast] at hlength
  refine ⟨earlier, _, hearlier, ?_, hshown, fun hplain hshort => ?_⟩
  · rw [hcount]
    exact hlength
  · obtain ⟨hkept, hrecords⟩ := keptOf_of_plain hnew hplain hshort
    refine ⟨hkept, hshown.trans (shows_of_plain fun record hr => ?_)⟩
    rw [hkept] at hr
    exact hrecords record (List.mem_of_mem_drop hr)

/-- One event is shown if the raw setting is a truth value that stands for one. -/
theorem tail_is_as_configured_unless_spelt_lastOne :
    let raw : Raw.Fields := [(.text "logging", .object [(.text "default_recent", .bool true)])]
    let first : Occurrence := ⟨"2026-01-01T00:00:00+00:00", "TokenCreated", [("name", .string "n")]⟩
    let second : Occurrence := ⟨"2026-01-01T00:00:01+00:00", "TokenDestroyed", []⟩
    let sink : EventSink := .memory { time := first.time }
    ∃ installed final, Configuration.install .builtin raw {} = .ok installed final ∧
      installed.settings.logging.recent = 1 ∧
        (sink.logEach ∅ [first, second]).1.recent (sink.logEach ∅ [first, second]).2
          (recentCount installed.raw none) = .ok [.object (second.record 2)] := by
  intro raw first second sink
  have hclean : (Schema.settings (.object raw)).issues = [] := rfl
  obtain ⟨final, hinstall⟩ := Configuration.install_builtin hclean {}
  have hone : (Schema.settings (.object raw)).value.logging.recent = 1 := rfl
  have hgiven : (Configuration.lookup raw "logging.default_recent").any Raw.isInteger = true := rfl
  obtain ⟨-, -, -, htail⟩ := tail_is_as_configured_unless_spelt Schema.check_documented hinstall
  obtain ⟨earlier, last, hrecords, hlength, -, hshown⟩ := htail sink ∅ (.memory first.time ∅) [first, second]
  have hplain : ∀ event ∈ [first, second], Value.Plain (.object event.data) := by
    simp only [List.forall_mem_cons]
    refine ⟨.object (by decide) ?_, .object (by decide) ?_, by simp⟩
    · simp [Value.Plain.string, first]
    · simp [second]
  obtain ⟨hkept, hshown⟩ := hshown hplain (by decide +kernel)
  have hlast : [second.record 2] = last := by
    rw [hgiven, if_pos rfl, hone, hkept] at hlength
    rw [hkept] at hrecords
    have happend : [first.record 1] ++ [second.record 2] = earlier ++ last := hrecords
    exact (List.append_inj' happend hlength.symm).2
  subst hlast
  exact ⟨_, _, hinstall, hone, hshown⟩

/-- A text that spells two is taken for two where settings are checked, and yet all three events are shown. -/
theorem spelt_tail_is_passed_over :
    let raw : Raw.Fields := [(.text "logging", .object [(.text "default_recent", .string "2")])]
    let event : Occurrence := ⟨"2026-01-01T00:00:00+00:00", "TokenCreated", []⟩
    let sink : EventSink := .memory { time := event.time }
    let events := [event, event, event]
    ∃ installed final, Configuration.install .builtin raw {} = .ok installed final ∧
      installed.settings.logging.recent = 2 ∧
        (sink.logEach ∅ events).1.recent (sink.logEach ∅ events).2 (recentCount installed.raw none) =
          .ok [.object (event.record 1), .object (event.record 2), .object (event.record 3)] := by
  intro raw event sink events
  have hclean : (Schema.settings (.object raw)).issues = [] := rfl
  obtain ⟨final, hinstall⟩ := Configuration.install_builtin hclean {}
  exact ⟨_, final, hinstall, rfl, rfl⟩

end EventSink

end EditionMarket
