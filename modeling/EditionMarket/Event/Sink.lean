import EditionMarket.Event.File

/-!
# Where events go

Events go to a log in memory or to a file. The two are used alike, but only a log in memory knows the
kinds of its events.
-/

namespace EditionMarket

/-- A place where events go. -/
inductive EventSink
  | memory (log : EventLog)
  | file (file : EventFile)

namespace EventSink

/-- The number of the last event. -/
def sequence : EventSink → Nat
  | memory log => log.sequence
  | file events => events.sequence

/-- Counts an event of which there is no record. -/
def miss : EventSink → EventSink
  | memory log => memory log.miss
  | file events => file events.miss

/-- Adds an event. -/
def log (tree : FileTree) (kind : String) (data : Fields) :
    EventSink → EventSink × Except EventFile.Unwritten FileTree
  | memory log => (memory (log.log kind data), .ok tree)
  | file events =>
    let (next, written) := events.log tree kind data
    (.file next, written)

/-- The last records, oldest first; at most `count` of them. -/
def recent (tree : FileTree) (count : Int) :
    EventSink → Except EventFile.Unreadable (List Value)
  | memory log => .ok ((log.recent count).map .object)
  | file events => events.recent tree count

/-- The kinds of the events, if they are known. -/
def kinds? : EventSink → Option (List Value)
  | memory log => some log.kinds
  | file _ => none

end EventSink

end EditionMarket
