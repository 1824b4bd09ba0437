import EditionMarket.Event.Sink
import EditionMarket.Proofs.Files
import EditionMarket.Proofs.Json.RoundTrip
import EditionMarket.Proofs.Program

/-!
# Both kinds of event logs tell the same

Whatever events are logged, a log in memory and a log in a file that was opened at the same time give
the same records, however many are asked for. A sink *keeps* some records if it has them in memory, or
if its file has a line for each of them and nothing else. A new sink keeps no records, every event adds
one, and from a sink that keeps records these are what is read.

Main definitions: `EventSink.Keeps` and `EventSink.Shows`. Main statements: `keeps_logAll` and
`recent_eq_shows`, what a sink keeps and shows of whatever is logged; and `sinks_agree`.
-/

namespace EditionMarket

/-! ## Records -/

namespace Value.Plain

/-- An object stays plain if a field gets a plain value. -/
theorem put {fields : Fields} (h : Plain (.object fields)) (key : String) {value : Value}
    (hv : value.Plain) : Plain (.object (fields.put key value)) := by
  cases h with
  | object distinct plain =>
    refine .object (Listing.nodup_keys_put distinct key value) fun entry he => ?_
    rcases Listing.mem_put he with old | new
    · exact plain entry old
    · exact new ▸ hv

/-- An object stays plain if its fields are overlaid with those of a plain object. -/
theorem putAll {fields more : Fields} (h : Plain (.object fields))
    (hm : ∀ entry ∈ more, entry.2.Plain) : Plain (.object (fields.putAll more)) := by
  induction more generalizing fields with
  | nil => exact h
  | cons entry more ih =>
    exact ih (h.put entry.1 (hm entry List.mem_cons_self)) fun e he =>
      hm e (List.mem_cons_of_mem entry he)

/-- The integers in a plain value are of few enough digits. -/
theorem isWritable_of_mem_integers {value : Value} (h : value.Plain) {n : Int} (hn : n ∈ value.integers) :
    Text.isWritable n := by
  induction h with
  | int short =>
    obtain rfl := List.mem_singleton.1 hn
    exact short
  | list _ ih =>
    obtain ⟨item, hi, hn⟩ := mem_integersOfItems.1 hn
    exact ih item hi hn
  | object _ _ ih =>
    obtain ⟨entry, he, hn⟩ := mem_integersOfFields.1 hn
    exact ih entry he hn
  | _ => exact absurd hn List.not_mem_nil

end Value.Plain

namespace EventRecord

/-- A plain record can be written. -/
theorem isWritable_of_plain {record : EventRecord} (h : Value.Plain (.object record)) :
    record.isWritable = true :=
  List.all_eq_true.2 fun _ hn => h.isWritable_of_mem_integers hn

/-- The text of a record, without the line end. -/
def text (record : EventRecord) : String := Json.render (.object record)

/-- A line is the text of a record and a line feed. -/
theorem map_line (records : List EventRecord) :
    records.map line = (records.map text).map (· ++ "\n") := by
  rw [List.map_map]
  rfl

/-- No line ends within the text of a record. -/
theorem endsLine_of_mem_text (records : List EventRecord) :
    ∀ line ∈ records.map text, ∀ c ∈ line.toList, Text.endsLine c = false := by
  rw [List.forall_mem_map]
  exact fun record _ c hc => Json.endsLine_of_mem_render (.object record) hc

/-- The lines of records are told apart. -/
theorem splitLines_lines (records : List EventRecord) :
    Text.splitLines (String.join (records.map line)) = records.map text := by
  rw [map_line]
  exact Text.splitLines_join (endsLine_of_mem_text records)

/-- No line of a record is empty. -/
theorem filter_lines (records : List EventRecord) :
    (records.map text).filter (· ≠ "") = records.map text := by
  rw [List.filter_eq_self, List.forall_mem_map]
  intro record _
  rw [decide_eq_true_eq]
  intro empty
  have chars := congrArg String.toList empty
  rw [text, Json.render, String.toList_ofList, Json.write] at chars
  cases chars

end EventRecord

/-- An event whose record can be written is a line more in a file that is there. -/
theorem EventFile.exists_log_of_holds {file : EventFile} {tree : FileTree} {text kind : String} {data : Fields}
    (h : tree.Holds file.path text)
    (hw : (EventRecord.stamp file.time (file.sequence + 1) kind data).isWritable = true) :
    ∃ next, file.log tree kind data = (file.miss, .ok next) ∧
      next.Holds file.path
        (text ++ (EventRecord.stamp file.time (file.sequence + 1) kind data).line) := by
  obtain ⟨next, happend, hholds⟩ := FileTree.exists_append_of_holds h
    (EventRecord.stamp file.time (file.sequence + 1) kind data).line
  exact ⟨next, congrArg (Prod.mk _) ((if_pos hw).trans (congrArg (Except.mapError _) happend)), hholds⟩

/-- An event whose record cannot be written is counted, and no file has changed. -/
theorem EventFile.log_of_not_isWritable {file : EventFile} {kind : String} {data : Fields}
    (hw : ¬ (EventRecord.stamp file.time (file.sequence + 1) kind data).isWritable = true)
    (tree : FileTree) : file.log tree kind data = (file.miss, .error .record) :=
  congrArg (Prod.mk _) (if_neg hw)

/-- An event that is logged: what the clock shows, the event's kind, and what is said about it. -/
structure Occurrence where
  time : String
  kind : String
  data : Fields

namespace Occurrence

/-- The record of an event that has a number. -/
def record (event : Occurrence) (number : Nat) : EventRecord :=
  .stamp event.time number event.kind event.data

/-- The records of events that come after a number of others. -/
def recordsFrom (count : Nat) : List Occurrence → List EventRecord
  | [] => []
  | event :: rest => event.record (count + 1) :: recordsFrom (count + 1) rest

/-- Every event has a record. -/
theorem length_recordsFrom (count : Nat) (events : List Occurrence) :
    (recordsFrom count events).length = events.length := by
  induction events generalizing count with
  | nil => rfl
  | cons event rest ih => simp [recordsFrom, ih]

/-- The record of an event is plain if what is said about the event is. -/
theorem plain_record {event : Occurrence} (h : Value.Plain (.object event.data)) {number : Nat}
    (short : Text.isWritable number) : Value.Plain (.object (event.record number)) := by
  have start : Value.Plain (.object [("timestamp", .string event.time), ("sequence", .int number),
      ("event_type", .string event.kind)]) := by
    refine .object (show ["timestamp", "sequence", "event_type"].Nodup by decide) ?_
    simp only [List.forall_mem_cons]
    exact ⟨.string _, .int short, .string _, fun _ => (absurd · List.not_mem_nil)⟩
  cases h with
  | object _ plain => exact start.putAll plain

/-- The records of events are plain if what is said about the events is, and the events are few enough
for their numbers. -/
theorem plain_recordsFrom {events : List Occurrence}
    (h : ∀ event ∈ events, Value.Plain (.object event.data)) {count : Nat}
    (short : Text.isWritable (count + events.length : Nat)) :
    ∀ record ∈ recordsFrom count events, Value.Plain (.object record) := by
  induction events generalizing count with
  | nil => exact fun _ hr => absurd hr List.not_mem_nil
  | cons event rest ih =>
    have regroup : count + (event :: rest).length = count + 1 + rest.length := by
      rw [List.length_cons]
      omega
    rw [regroup] at short
    have first : Text.isWritable (count + 1 : Nat) :=
      Text.isWritable_of_le (Nat.le_add_right (count + 1) rest.length) short
    rw [recordsFrom, List.forall_mem_cons]
    exact ⟨plain_record (h event List.mem_cons_self) first,
      ih (fun e he => h e (List.mem_cons_of_mem event he)) short⟩

end Occurrence

/-! ## What sinks keep -/

namespace EventSink

/-- The sink when the clock shows another time. -/
def atTime (time : String) : EventSink → EventSink
  | memory log => .memory { log with time := time }
  | file events => .file { events with time := time }

/-- Logs events one after the other, each at its own time, and stops where one cannot be written. -/
def logAll (tree : FileTree) (sink : EventSink) :
    List Occurrence → Except EventFile.Unwritten (EventSink × FileTree)
  | [] => .ok (sink, tree)
  | event :: rest =>
    match (sink.atTime event.time).log tree event.kind event.data with
    | (next, .ok tree) => next.logAll tree rest
    | (_, .error cause) => .error cause

/-- The path of the file that events go to, if they go to a file. -/
def path? : EventSink → Option Path
  | memory _ => none
  | file events => some events.path

/-- A sink keeps records: in memory as they are, or in a file that has one line for each. -/
def Keeps (tree : FileTree) (records : List EventRecord) : EventSink → Prop
  | memory log => log.records = records
  | file events => tree.Holds events.path (String.join (records.map EventRecord.line))

/-- Whether a sink can keep a record: a log in memory can keep every one, and a file those that can be
written. -/
def canKeep (record : EventRecord) : EventSink → Bool
  | memory _ => true
  | file _ => record.isWritable

/-- Plain records can be kept by every sink. -/
theorem canKeep_of_plain {record : EventRecord} (h : Value.Plain (.object record)) (sink : EventSink) :
    sink.canKeep record = true := by
  cases sink with
  | memory log => rfl
  | file events => exact EventRecord.isWritable_of_plain h

/-- Sinks of the same place can keep the same records. -/
theorem canKeep_congr {a b : EventSink} (h : a.path? = b.path?) (record : EventRecord) :
    a.canKeep record = b.canKeep record := by
  cases a <;> cases b <;> first | rfl | cases h

/-- A sink that keeps records keeps the record of one more event, if it can. -/
theorem keeps_log {tree : FileTree} {sink : EventSink} {records : List EventRecord}
    (h : sink.Keeps tree records) (event : Occurrence)
    (hcan : sink.canKeep (event.record (sink.sequence + 1)) = true) :
    ∃ next written, (sink.atTime event.time).log tree event.kind event.data = (next, .ok written)
      ∧ next.Keeps written (records ++ [event.record (sink.sequence + 1)])
      ∧ next.sequence = sink.sequence + 1 ∧ next.path? = sink.path?
      ∧ (sink.path? = none → written = tree) := by
  cases sink with
  | memory log =>
    obtain rfl : log.records = records := h
    exact ⟨_, tree, rfl, rfl, rfl, rfl, fun _ => rfl⟩
  | file events =>
    let timed : EventFile := { events with time := event.time }
    have there : tree.Holds timed.path (String.join (records.map EventRecord.line)) := h
    obtain ⟨written, logged, holds⟩ := EventFile.exists_log_of_holds there hcan
    refine ⟨.file { events with time := event.time, sequence := events.sequence + 1 }, written, ?_, ?_,
      rfl, rfl, nofun⟩
    · exact congrArg (fun result => (EventSink.file result.1, result.2)) logged
    · have text : String.join ((records ++ [event.record (events.sequence + 1)]).map EventRecord.line)
          = String.join (records.map EventRecord.line)
            ++ (event.record (events.sequence + 1)).line := by
        simp [String.join]
      exact (congrArg (written.Holds events.path) text).mpr holds

/-- A sink that keeps records keeps those of all events that are logged, if it can, and none is refused. -/
theorem keeps_logAll {tree : FileTree} {sink : EventSink} {records : List EventRecord}
    (h : sink.Keeps tree records) (events : List Occurrence)
    (hcan : ∀ record ∈ Occurrence.recordsFrom sink.sequence events, sink.canKeep record = true) :
    ∃ next written, sink.logAll tree events = .ok (next, written)
      ∧ next.Keeps written (records ++ Occurrence.recordsFrom sink.sequence events)
      ∧ next.path? = sink.path? ∧ (sink.path? = none → written = tree) := by
  induction events generalizing tree sink records with
  | nil =>
    rw [Occurrence.recordsFrom, List.append_nil]
    exact ⟨sink, tree, rfl, h, rfl, fun _ => rfl⟩
  | cons event rest ih =>
    -- The first event is numbered after those before, and the others are numbered after it.
    rw [Occurrence.recordsFrom, List.forall_mem_cons] at hcan
    obtain ⟨middle, between, logged, keeps, counted, same, left⟩ := keeps_log h event hcan.1
    obtain ⟨next, written, all, kept, path, alone⟩ := ih keeps fun record hr => by
      rw [counted] at hr
      rw [canKeep_congr same]
      exact hcan.2 record hr
    refine ⟨next, written, ?_, ?_, path.trans same, fun hn => (alone (same.trans hn)).trans (left hn)⟩
    · rw [logAll, logged]
      exact all
    · rw [counted, List.append_assoc] at kept
      exact kept

/-- The last lines of a file that keeps records are read, each for itself. -/
theorem recent_of_holds {tree : FileTree} {events : EventFile} {records : List EventRecord}
    (h : tree.Holds events.path (String.join (records.map EventRecord.line))) (count : Int) :
    events.recent tree count =
      (((lastRecords count records).map EventRecord.text).mapM Json.read).mapError .line := by
  rw [EventFile.recent]
  by_cases few : count ≤ 0
  · have zero : count.toNat = 0 := by omega
    rw [if_pos (.inl few)]
    simp [lastRecords, zero]
    rfl
  · -- The text of the file comes apart into the lines of the records, and a tail of lines belongs to the
    -- tail of the records.
    have found : tree.find? events.path ≠ none := by
      rw [FileTree.find?_of_holds h]
      exact Option.some_ne_none _
    have tail : lastRecords count (records.map EventRecord.text)
        = (lastRecords count records).map EventRecord.text := by
      simp only [lastRecords, List.length_map, List.map_drop]
    rw [if_neg (not_or.mpr ⟨few, found⟩), FileTree.read_of_holds h]
    simp only [EventRecord.splitLines_lines, EventRecord.filter_lines, tail]

/-- What a sink shows when it shows records that it keeps: a sink in memory the records as they are, and a file
what is read of their lines. -/
def Shows (sink : EventSink) (records : List EventRecord) : Except EventFile.Unreadable (List Value) :=
  match sink with
  | memory _ => .ok (records.map .object)
  | file _ => ((records.map EventRecord.text).mapM Json.read).mapError .line

/-- Of the records that a sink keeps, the last ones are shown. -/
theorem recent_eq_shows {tree : FileTree} {sink : EventSink} {records : List EventRecord}
    (h : sink.Keeps tree records) (count : Int) :
    sink.recent tree count = sink.Shows (lastRecords count records) := by
  cases sink with
  | memory log =>
    obtain rfl : log.records = records := h
    rfl
  | file events => exact recent_of_holds h count

/-- Plain records are shown as they are. -/
theorem shows_of_plain {sink : EventSink} {records : List EventRecord}
    (h : ∀ record ∈ records, Value.Plain (.object record)) :
    sink.Shows records = .ok (records.map .object) := by
  cases sink with
  | memory log => rfl
  | file events =>
    have hplain : ∀ value ∈ records.map Value.object, value.Plain := List.forall_mem_map.2 h
    have htexts : records.map EventRecord.text = (records.map Value.object).map Json.render := by
      rw [List.map_map]
      rfl
    rw [Shows, htexts, Json.mapM_read_render hplain]
    rfl

/-- The records that a sink keeps are read from it, if they are plain. -/
theorem recent_of_keeps {tree : FileTree} {sink : EventSink} {records : List EventRecord}
    (h : sink.Keeps tree records) (plain : ∀ record ∈ records, Value.Plain (.object record))
    (count : Int) : sink.recent tree count = .ok ((lastRecords count records).map .object) := by
  rw [recent_eq_shows h]
  exact shows_of_plain fun record hr => plain record (List.mem_of_mem_drop hr)

/-! ## Opening -/

/-- An event file that has been opened keeps no records, and its events are numbered from one. -/
theorem keeps_create {time : String} {raw : Raw.Fields} {request : EventFile.Request}
    {tree opened : FileTree} {events : EventFile}
    (h : EventFile.create time raw request tree = .ok events opened) :
    Keeps opened [] (.file events) ∧ events.sequence = 0 := by
  -- Whatever was done for the run, in the end the file is written anew.
  have emptied (path : Path) (directory : Option Path) (start : FileTree)
      (hs : (do
        FileTree.makeDirectories path.parent
        FilesM.change (·.write path "")
        return ⟨time, path, directory, request.runId, 0⟩ : FilesM EventFile) start
          = .ok events opened) : Keeps opened [] (.file events) ∧ events.sequence = 0 := by
    obtain ⟨_, made, -, hs⟩ := Program.bind_eq_ok_iff.mp hs
    obtain ⟨_, written, hw, hs⟩ := Program.bind_eq_ok_iff.mp hs
    obtain ⟨rfl, rfl⟩ := Program.pure_eq_ok_iff.mp hs
    exact ⟨FileTree.holds_of_write (FilesM.change_eq_ok_iff.1 hw), rfl⟩
  unfold EventFile.create at h
  simp only [] at h
  generalize EventFile.logsDirectory? raw request = directory at h
  generalize EventFile.given? request.runId = run at h
  rcases directory with _ | directory <;> rcases run with _ | run
  case some.some =>
    obtain ⟨_, start, -, h⟩ := Program.bind_eq_ok_iff.mp h
    exact emptied _ _ start h
  all_goals exact emptied _ _ tree h

/-- A sink whose events go to a file is that file. -/
theorem eq_file_of_path? {sink : EventSink} {path : Path} (h : sink.path? = some path) :
    ∃ events, sink = .file events ∧ events.path = path := by
  cases sink with
  | memory log => cases h
  | file events => exact ⟨events, rfl, Option.some.inj h⟩

/-- A sink whose events go to no file is in memory. -/
theorem eq_memory_of_path? {sink : EventSink} (h : sink.path? = none) : ∃ log, sink = .memory log := by
  cases sink with
  | memory log => exact ⟨log, rfl⟩
  | file events => cases h

/-- Whatever is logged, a log in memory and a file that was opened for events tell the same: as many of
the last records as are asked for, oldest first. The file has one line for every event, and a line ends
nowhere but at its end. The clock goes on as it likes, but is the same for both. The number of an event is
part of its record, and is an integer of few enough digits like any other. -/
theorem sinks_agree {time : String} {raw : Raw.Fields} {request : EventFile.Request}
    {tree opened : FileTree} {file : EventFile}
    (created : EventFile.create time raw request tree = .ok file opened)
    (events : List Occurrence) (plain : ∀ event ∈ events, Value.Plain (.object event.data))
    (short : Text.isWritable events.length) :
    ∃ filed logged written,
      logAll opened (.file file) events = .ok (.file filed, written)
      ∧ logAll opened (.memory { time := time }) events = .ok (.memory logged, opened)
      ∧ (∀ (settings : Raw.Fields) (n : Option Int),
          let recent := lastRecords (recentCount settings n) (Occurrence.recordsFrom 0 events)
          EventSink.recent written (recentCount settings n) (.file filed)
              = .ok (recent.map .object)
            ∧ EventSink.recent opened (recentCount settings n) (.memory logged)
              = .ok (recent.map .object))
      ∧ ∃ lines : List String, written.read file.path = .ok (String.join (lines.map (· ++ "\n")))
        ∧ lines.length = events.length
        ∧ ∀ line ∈ lines, ∀ c ∈ line.toList, Text.endsLine c = false := by
  obtain ⟨empty, fresh⟩ := keeps_create created
  have none : Keeps opened [] (.memory { time := time }) := rfl
  have records : ∀ record ∈ Occurrence.recordsFrom 0 events, Value.Plain (.object record) :=
    Occurrence.plain_recordsFrom plain (Text.isWritable_of_le (Nat.zero_add events.length).le short)
  have keepable (sink : EventSink) (zero : sink.sequence = 0) :
      ∀ record ∈ Occurrence.recordsFrom sink.sequence events, sink.canKeep record = true := by
    rw [zero]
    exact fun record hr => canKeep_of_plain (records record hr) sink
  obtain ⟨last, written, writes, keeps, path, -⟩ := keeps_logAll empty events (keepable _ fresh)
  obtain ⟨filed, rfl, same⟩ := eq_file_of_path? path
  obtain ⟨last, left, remembers, holds, nowhere, alone⟩ := keeps_logAll none events (keepable _ rfl)
  obtain ⟨logged, rfl⟩ := eq_memory_of_path? nowhere
  obtain rfl : left = opened := alone rfl
  rw [sequence, fresh] at keeps
  refine ⟨filed, logged, written, writes, remembers, fun settings n => ⟨?_, ?_⟩, ?_⟩
  · exact recent_of_keeps keeps records (recentCount settings n)
  · exact recent_of_keeps holds records (recentCount settings n)
  · refine ⟨(Occurrence.recordsFrom 0 events).map EventRecord.text, ?_, ?_,
      EventRecord.endsLine_of_mem_text _⟩
    · rw [← EventRecord.map_line, ← same]
      exact FileTree.read_of_holds keeps
    · rw [List.length_map, Occurrence.length_recordsFrom]

/-- Line ends, quotes, and characters outside of ASCII do not tell a file from a log in memory. Nor does
an own field that takes the place of the number. -/
theorem sinks_agree_oddTexts :
    let first : Occurrence := ⟨"2026-01-01T00:00:00+00:00", "TokenCreated",
      [("name", .string "\"two\r\nlines\"\u2028\\\x00é😀"), ("supply", .int (-120)),
        ("tags", .list [.null, .bool true, .object [], .object [("nested", .list [])]])]⟩
    let second : Occurrence := ⟨"2026-01-01T00:00:01+00:00", "TokenDestroyed",
      [("sequence", .string "own")]⟩
    let request : EventFile.Request := { outputFile := some "events.jsonl" }
    ∃ file opened filed logged written,
      EventFile.create "2026-01-01T00:00:00+00:00" [] request ∅ = .ok file opened
        ∧ logAll opened (.file file) [first, second] = .ok (.file filed, written)
        ∧ logAll opened (.memory { time := "2026-01-01T00:00:00+00:00" }) [first, second]
          = .ok (.memory logged, opened)
        ∧ EventSink.recent written 1 (.file filed)
          = .ok [.object [("timestamp", .string "2026-01-01T00:00:01+00:00"),
            ("sequence", .string "own"), ("event_type", .string "TokenDestroyed")]]
        ∧ EventSink.recent written 50 (.file filed) = EventSink.recent opened 50 (.memory logged) := by
  intro first second request
  have created : EventFile.create "2026-01-01T00:00:00+00:00" [] request ∅
      = .ok ⟨"2026-01-01T00:00:00+00:00", ⟨false, ["events.jsonl"]⟩, none, none, 0⟩
        ((∅ : FileTree).put ["events.jsonl"] (.file "")) := by
    have path : EventFile.choosePath [] request = ⟨false, ["events.jsonl"]⟩ := by decide +kernel
    have place : FileTree.place ∅ ⟨false, ["events.jsonl"]⟩ = .ok ["events.jsonl"] := by
      simp [FileTree.place, FileTree.resolve, FileTree.entry?]
    have written : FilesM.change (·.write ⟨false, ["events.jsonl"]⟩ "") ∅
        = .ok () ((∅ : FileTree).put ["events.jsonl"] (.file "")) := by
      simp [FilesM.change, FileTree.write, FileTree.update, place, FileTree.entry?, bind, Except.bind,
        pure, Except.pure]
    simp only [EventFile.create, path]
    exact (Program.bind_of_ok written _).trans rfl
  have tags : ∀ item ∈ [.null, .bool true, .object [], .object [("nested", .list [])]],
      Value.Plain item := by
    have empty : Value.Plain (.list []) := .list (by simp)
    simp [Value.Plain.null, Value.Plain.bool]
    exact ⟨.object (by decide) (by simp), .object (by decide) (by simpa using empty)⟩
  have plain : ∀ event ∈ [first, second], Value.Plain (.object event.data) := by
    have short : Text.isWritable (-120) := by decide +kernel
    simp only [List.forall_mem_cons]
    refine ⟨.object (by decide) ?_, .object (by decide) ?_, by simp⟩
    · simp [Value.Plain.string, Value.Plain.int short, Value.Plain.list tags, first]
    · simp [Value.Plain.string, second]
  obtain ⟨filed, logged, written, writes, remembers, recent, -⟩ :=
    sinks_agree created [first, second] plain (by decide +kernel)
  exact ⟨_, _, filed, logged, written, created, writes, remembers,
    (recent [] (some 1)).1, (recent [] none).1.trans (recent [] none).2.symm⟩

end EventSink

end EditionMarket
