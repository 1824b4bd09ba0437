import EditionMarket.Json.Printer
import EditionMarket.Text.Digits
import EditionMarket.Value.Display

/-!
# Records of events, and logs in memory

The record of an event is an object. It starts with the time, the event's number and its kind, and then
has the event's own fields; an own field of one of those three names takes their place. It can be written
as a line of a file unless there is an integer of too many digits in it.

An event log keeps the records of events in the order in which they came. Events are numbered from
one. An event that cannot be recorded has a number all the same.

Main statements: `stamp_eq_append` and `log_of_nodup`, what is recorded of an event whose own fields have
names of their own.
-/

namespace EditionMarket

/-- The record of an event. -/
abbrev EventRecord := Fields

namespace EventRecord

/-- Makes the record of an event. -/
def stamp (time : String) (sequence : Nat) (kind : String) (data : Fields) : EventRecord :=
  Listing.putAll
    [("timestamp", .string time), ("sequence", .int sequence), ("event_type", .string kind)] data

/-- The record as one line of a file. -/
def line (record : EventRecord) : String := Json.render (.object record) ++ "\n"

/-- Whether the record can be written: whether all integers in it can. -/
def isWritable (record : EventRecord) : Bool := (Value.integersOfFields record).all Text.isWritable

/-- Own fields of other names, each there once, follow upon the first three. -/
theorem stamp_eq_append {data : Fields}
    (h : ("timestamp" :: "sequence" :: "event_type" :: Listing.keys data).Nodup)
    (time : String) (sequence : Nat) (kind : String) :
    stamp time sequence kind data =
      ("timestamp", .string time) :: ("sequence", .int sequence) :: ("event_type", .string kind) ::
        data :=
  Listing.putAll_of_nodup h

end EventRecord

/-- The last of some records, at most `count` of them. -/
def lastRecords {α : Type} (count : Int) (records : List α) : List α :=
  records.drop (records.length - count.toNat)

/-- The records of events. -/
structure EventLog where
  /-- What the clock shows. -/
  time : String
  records : List EventRecord := []
  /-- The number of the last event. -/
  sequence : Nat := 0
deriving DecidableEq

namespace EventLog

/-- Counts an event of which there is no record. -/
def miss (log : EventLog) : EventLog := { log with sequence := log.sequence + 1 }

/-- Adds an event. -/
def log (log : EventLog) (kind : String) (data : Fields) : EventLog :=
  { log.miss with records := log.records ++ [.stamp log.time (log.sequence + 1) kind data] }

/-- The last records, oldest first; at most `count` of them. -/
def recent (log : EventLog) (count : Int) : List EventRecord := lastRecords count log.records

/-- The kinds of the events, as their records give them. -/
def kinds (log : EventLog) : List Value :=
  log.records.map fun record => (Listing.get? record "event_type").getD .null

/-- The log as the text of a file, one line for each record. -/
def text (log : EventLog) : String := String.join (log.records.map EventRecord.line)

/-- Adding an event counts up by one. -/
@[simp] theorem sequence_log (events : EventLog) (kind : String) (data : Fields) :
    (events.log kind data).sequence = events.sequence + 1 := rfl

/-- An event whose own fields have names of their own is recorded behind all others, with the number that
comes next. -/
theorem log_of_nodup {data : Fields}
    (h : ("timestamp" :: "sequence" :: "event_type" :: Listing.keys data).Nodup)
    (events : EventLog) (kind : String) :
    events.log kind data =
      { events with
        records := events.records ++
          [("timestamp", .string events.time) :: ("sequence", .int (events.sequence + 1)) ::
            ("event_type", .string kind) :: data]
        sequence := events.sequence + 1 } := by
  unfold log
  rw [EventRecord.stamp_eq_append h]
  rfl

/-- A log has one event more than another one: its record stands behind all others and shows the time, the
number that comes next, the kind and the own fields of the event; and the event is counted. -/
structure Gains (before after : EventLog) (kind : String) (data : Fields) : Prop where
  records : after.records = before.records ++
    [("timestamp", .string before.time) :: ("sequence", .int (before.sequence + 1)) ::
      ("event_type", .string kind) :: data]
  sequence : after.sequence = before.sequence + 1
  time : after.time = before.time

theorem gains_log {data : Fields}
    (h : ("timestamp" :: "sequence" :: "event_type" :: Listing.keys data).Nodup)
    (events : EventLog) (kind : String) : events.Gains (events.log kind data) kind data := by
  rw [log_of_nodup h]
  exact ⟨rfl, rfl, rfl⟩

end EventLog

end EditionMarket
