import Arcade8080.Record

/-!
A log that keeps the records that some rule shows, or none at all. Long runs pass
one along, so that what nobody asked for takes no room.
-/

namespace Arcade8080

structure Log where
  /-- The records that are kept; a log is off unless it is told of some. -/
  shows : Record → Bool := fun _ => false
  kept : Array Record := #[]

namespace Log

def add (log : Log) (record : Record) : Log :=
  if log.shows record then { log with kept := log.kept.push record } else log

def addAll (log : Log) (records : List Record) : Log := records.foldl add log

theorem addAll_addAll (log : Log) (early late : List Record) :
    (log.addAll early).addAll late = log.addAll (early ++ late) :=
  List.foldl_append.symm

def lines (log : Log) : List String := log.kept.toList.map Record.line

end Log

end Arcade8080
