import LaunchTrace.Json.Printer
import LaunchTrace.Json.Record
import LaunchTrace.Time.Duration
import LaunchTrace.Time.Notation

/-! What is recorded of a step when it ends, and its JSON form. -/
namespace LaunchTrace

/-- Step ids count up from one. Zero stands for the root, which is no step. -/
abbrev StepId := UInt64

def rootId : StepId := 0

structure Event where
  eventName : String
  id : StepId
  parentId : StepId
  name : String
  /-- The text of the step's tags. -/
  tags : String
  startTime : Timestamp
  micros : UInt64
deriving DecidableEq, Repr

namespace Event

/-- The event name of every step. -/
def stepEventName : String := "sprout.core.StartupStep"

def duration (e : Event) : Duration :=
  .ofMicros e.micros.toNat

def isTopLevel (e : Event) : Bool :=
  e.parentId = rootId

def toJson (e : Event) : Json :=
  .ofMembers [
    ("event_name", .ofString e.eventName),
    ("sequence_id", .ofNat e.id.toNat),
    ("parent_sequence_id", .ofNat e.parentId.toNat),
    ("name", .ofString e.name),
    ("tags", .ofString e.tags),
    ("start_time", .ofString (String.ofList e.startTime.text)),
    ("duration_us", .ofNat e.micros.toNat)]

/-- The event as one line of JSON. -/
def line (e : Event) : List Char :=
  e.toJson.render

def time? (value : Json) : Option Timestamp :=
  value.text?.bind fun s => Timestamp.parse s.toList

/-- The event with the given values of its seven fields. -/
def ofFields? (eventName id parentId name tags startTime micros : Json) : Option Event := do
  return {
    eventName := ← eventName.text?
    id := ← id.word?
    parentId := ← parentId.word?
    name := ← name.text?
    tags := ← tags.text?
    startTime := ← time? startTime
    micros := ← micros.word? }

/-- Every field has to be there, once. An array gives the fields in their order. -/
def ofJson? : Json → Option Event
  | .object members => do
    let record ← Json.Record.ofMembers? members
    ofFields? (← record.required? "event_name") (← record.required? "sequence_id")
      (← record.required? "parent_sequence_id") (← record.required? "name") (← record.required? "tags")
      (← record.required? "start_time") (← record.required? "duration_us")
  | .array [eventName, id, parentId, name, tags, startTime, micros] =>
    ofFields? eventName id parentId name tags startTime micros
  | _ => none

end Event
end LaunchTrace
