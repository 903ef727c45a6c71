import Mathlib.Data.List.Basic
import Ros1Tools.Lib.Python

/-!
# Record facts

What the recorder writes down next to the bag files: samples of files, parameters and
camera messages, the absence of such a sample with the reason for it, and the reports
by which producers say that they applied or stopped something.

A report is valid from the moment the producer names until an end that is filled in
when a later report of the same producer says so, and that is left open with a reason
otherwise.
-/

namespace Ros1Tools.Facts

open Lib

/-- `RecordFacts.clock()`; camera messages add the stamp of their header. -/
structure Clock where
  unixTimeNs : String
  monotonicTimeNs : String
  rosHeaderTimeNs : Option String
deriving DecidableEq, Repr

/-- A reference to a stored blob. -/
structure Content where
  relativePath : String
  sha256 : String
  sizeBytes : Nat
deriving DecidableEq, Repr

/-! ## Reports of producers -/

/-- Who reports: a restarted producer has another `instanceId`. -/
structure Identity where
  kind : String
  id : String
  instanceId : String
deriving DecidableEq, Repr

/-- The `source` of a report, with all of its members. -/
structure Source where
  identity : Identity
  members : List (String × Python.Value)

/-- The `effectiveAt` of a report, with all of its members. -/
structure ProducerClock where
  rosTimeNs : String
  unixTimeNs : String
  monotonicTimeNs : String
  members : List (String × Python.Value)

namespace ProducerClock

variable (clock : ProducerClock)

/-- `int(clock["rosTimeNs"])`. -/
def ros : Nat := Nat.ofDigitChars 10 clock.rosTimeNs.toList 0

/-- `int(clock["monotonicTimeNs"])`. -/
def monotonic : Nat := Nat.ofDigitChars 10 clock.monotonicTimeNs.toList 0

end ProducerClock

/-- The `event` of a report. -/
inductive Transition where
  | applied
  | stopped
deriving DecidableEq, Repr

/-- How a report continues the reports that were seen before it. -/
inductive Continuity where
  | firstObserved
  | priorEventsUnobserved
  | sequenceGap
  | consecutiveProducerReports
  | producerClockRegression
  | rosClockRegression
deriving DecidableEq, Repr

/-- Why an interval ends, or why its end is not known. -/
inductive EndReason where
  | endNotObserved
  | transition (event : Transition)
  | continuity (continuity : Continuity)
deriving DecidableEq, Repr

/-- The interval in which what was applied is known to be in force. -/
structure Validity where
  since : ProducerClock
  until? : Option ProducerClock
  endReason : EndReason

/-- The fields of a report that passed `validate_producer`. -/
structure Report where
  source : Source
  sequence : Nat
  event : Transition
  effectiveAt : ProducerClock

/-- What is recorded of a report. -/
structure ProducerEvent extends Report where
  observedAt : Clock
  content : Content
  continuity : Continuity
  validity : Option Validity

/-- The interval of a report when nothing is known of its end. -/
def Report.openValidity (report : Report) : Validity := ⟨report.effectiveAt, none, .endNotObserved⟩

namespace ProducerEvent

/-- The edit of the latest event of a producer when its next report is recorded: only an
application has an interval to end. -/
def close (next : ProducerEvent) (event : ProducerEvent) : ProducerEvent :=
  if event.event = .applied then
    { event with validity := event.validity.map fun validity =>
        if next.continuity = .consecutiveProducerReports then
          { validity with
            until? := some next.effectiveAt
            endReason := .transition next.event }
        else { validity with endReason := .continuity next.continuity } }
  else event

/-- `event["validity"] = None`, for a report that nothing is in force any more. -/
def withdraw (event : ProducerEvent) : ProducerEvent :=
  if event.event = .stopped then { event with validity := none } else event

end ProducerEvent

/-! ## Events -/

/-- What is recorded, by the kind of evidence it is. -/
inductive Fact where
  | snapshot (kind source : String) (observedAt : Clock) (content : Content) (validity : String)
  | unavailable (kind source : String) (observedAt : Clock) (reason : String)
  | producer (event : ProducerEvent)

namespace Fact

/-- The blob an event refers to. -/
def content? : Fact → Option Content
  | snapshot _ _ _ content _ => some content
  | unavailable .. => none
  | producer event => some event.content

/-- The report an event is made of. -/
def producer? : Fact → Option ProducerEvent
  | producer event => some event
  | _ => none

/-- Edits the report, if there is one. -/
def mapProducer (f : ProducerEvent → ProducerEvent) : Fact → Fact
  | producer event => producer (f event)
  | fact => fact

end Fact

structure Event where
  ordinal : Nat
  fact : Fact

inductive Status where
  | observing
  | closed
deriving DecidableEq, Repr

/-- What the manifest says about what it may lack. -/
structure Coverage where
  droppedEvents : Nat
  pendingAtClose : Option Nat
  observerStillStopping : Option Bool
deriving DecidableEq, Repr

/-- `RecordFacts.state`, which snapshots copy to the manifest. -/
structure State where
  observationStartedAt : Clock
  observationEndedAt : Option Clock
  status : Status
  events : List Event
  coverage : Coverage

end Ros1Tools.Facts
