import Ros1Tools.Facts.Store

/-!
# The recorder of facts

The operations of `RecordFacts`: what is appended to the log under the lock, the
operations of the worker that lead to it, and the snapshots that reach the manifest.

The operations of the worker answer with their `Effect`, which the source does not
return.  It says which way the operation went, so that what becomes of a message can be
told apart without looking at the counters.
-/

namespace Ros1Tools.Facts

open Lib Lib.Faulty Lib.Python

/-- What `append` made of an event. -/
inductive Admission where
  | sealed
  | full
  | recorded (ordinal : Nat)
deriving DecidableEq, Repr

/-- Which way an operation went: it repeats what is known, or tries to append one event. -/
inductive Effect where
  | suppressed
  | attempted (admission : Admission)
deriving DecidableEq, Repr

/-! ## The log -/

namespace RecordFacts

variable (s : RecordFacts)

/-- Counts an event that is lost, because the log or the queue is full. -/
def overflow : RecordFacts :=
  { s with
    dropped := s.dropped + 1
    revision := s.revision + 1 }

/-- Adds an event to the log. -/
def push (fact : Fact) : RecordFacts :=
  { s with
    state := { s.state with events := s.state.events ++ [⟨s.state.events.length, fact⟩] }
    revision := s.revision + 1 }

def append (fact : Fact) : Admission × RecordFacts :=
  if s.sealed then (.sealed, s)
  else if maxEvents ≤ s.state.events.length then (.full, s.overflow)
  else (.recorded s.state.events.length, s.push fact)

/-- Appends an event, and then does what is only done if it was recorded. -/
def admitEvent (fact : Fact) (recorded : Nat → RecordFacts → RecordFacts) : Effect × RecordFacts :=
  match s.append fact with
  | (.recorded ordinal, s) => (.attempted (.recorded ordinal), recorded ordinal s)
  | (admission, s) => (.attempted admission, s)

/-- `self.previous[key] = value`, or `self.previous.pop(key, None)`. -/
def setPrevious (key : PreviousKey) (value : Option String) : RecordFacts :=
  { s with previous := Function.update s.previous key value }

/-- Edits a report of the log in place. -/
def editProducer (ordinal : Nat) (f : ProducerEvent → ProducerEvent) : RecordFacts :=
  { s with state := { s.state with
      events := s.state.events.modify ordinal fun event =>
        { event with fact := event.fact.mapProducer f } } }

/-- `self.producers.get(key)`: the latest recorded event of a producer, with its place. -/
def latest (identity : Identity) : Option (Nat × ProducerEvent) := do
  let ordinal ← s.producers identity
  let event ← s.state.events[ordinal]?
  let producer ← event.fact.producer?
  return (ordinal, producer)

/-- What is done with a report that was recorded: the interval of the one before it ends, and
it is the latest one now. -/
def succeed (previous : Option Nat) (event : ProducerEvent) (ordinal : Nat) : RecordFacts :=
  let s := match previous with
    | none => s
    | some latest => s.editProducer latest event.close
  let s := s.editProducer ordinal ProducerEvent.withdraw
  { s with producers := Function.update s.producers event.source.identity (some ordinal) }

/-- The critical section of `producer`. -/
def commitProducer (previous : Option Nat) (event : ProducerEvent) : Effect × RecordFacts :=
  s.admitEvent (.producer event) fun ordinal s => s.succeed previous event ordinal

/-- The critical section of `finish`. -/
def sealLog (endedAt : Clock) (observerStillStopping : Bool) : RecordFacts :=
  { s with
    sealed := true
    state := { s.state with
      status := .closed
      observationEndedAt := some endedAt
      coverage := { s.state.coverage with
        pendingAtClose := some s.messages.length
        observerStillStopping := some observerStillStopping } }
    revision := s.revision + 1 }

/-- The state with the number of events that were lost. -/
def covered : State :=
  { s.state with coverage := { s.state.coverage with droppedEvents := s.dropped } }

/-- What `snapshot` changes in the recorder. -/
def persist : RecordFacts :=
  { s with
    state := s.covered
    persisted := some s.revision }

/-- `snapshot(document)` with what the document holds under `recordFacts`. -/
def snapshot (document : Option State) : Bool × RecordFacts × Option State :=
  if s.persisted = some s.revision then (false, s, document)
  else (true, s.persist, some s.covered)

end RecordFacts

/-! ## Samples -/

namespace Host

variable (host : Host)

def now : Recording Clock :=
  modifyGet fun s => (host.clock s.readings, { s with readings := s.readings + 1 })

/-- `observed or self.clock()`. -/
def observedOrNow : Option Clock → Recording Clock
  | some observed => pure observed
  | none => host.now

def unavailable (kind source reason : String) : Recording Effect := do
  let previous ← gets (·.previous (.unavailable kind source))
  if previous = some reason then pure .suppressed
  else do
    let observedAt ← host.now
    modifyGet (·.admitEvent (.unavailable kind source observedAt reason) fun _ s =>
      (s.setPrevious (.unavailable kind source) (some reason)).setPrevious
        (.sample kind source) none)

def observation (kind source : String) (value : Value) (observed : Option Clock) :
    Recording Effect := do
  let data ← lift (host.dumps value)
  let previous ← gets (·.previous (.sample kind source))
  if previous = some (host.sha256 data) then pure .suppressed
  else do
    let content ← host.store data (kind ++ "-" ++ source) ".json"
    let observedAt ← host.observedOrNow observed
    modifyGet (·.admitEvent
      (.snapshot kind source observedAt content
        "observation-only; between-sample changes are unknown")
      fun _ s => s.setPrevious (.sample kind source) (some (host.sha256 data)))

end Host

/-! ## Files -/

/-- A declared file. -/
structure Declaration where
  role : String
  path : String
deriving DecidableEq, Repr

/-- `identity(info)`. -/
structure Stat where
  device : Nat
  inode : Nat
  size : Nat
  modifiedNs : Nat
  changedNs : Nat
deriving DecidableEq, Repr

/-- What was read of a file that could be opened. -/
structure OpenedFile where
  isRegular : Bool
  before : Stat
  data : Bytes
  after : Stat
deriving DecidableEq, Repr

/-- The checks on a file before its bytes are used. -/
def OpenedFile.bytes (file : OpenedFile) : Except Exception Bytes :=
  if file.isRegular = false then .error (valueError "not-regular")
  else if maxBytes < file.before.size then .error (valueError "too-large")
  else if maxBytes < file.data.length then .error (valueError "too-large")
  else if file.before ≠ file.after then .error (valueError "changed-during-read")
  else .ok file.data

/-- `os.path.splitext(path)[1]`: what follows the last dot of the last component, unless
there are only dots in front of it. -/
def splitext (path : String) : String :=
  let base := (path.toList.reverse.takeWhile (· != '/')).reverse
  let extension := (base.reverse.takeWhile (· != '.')).reverse
  let stem := base.take (base.length - extension.length - 1)
  if base.contains '.' && stem.any (· != '.') then String.ofList ('.' :: extension) else ""

namespace Host

variable (host : Host)

/-- The part of `file` that may raise. -/
def readFile (declaration : Declaration) (kind : String)
    (opened : Except Exception OpenedFile) : Recording Effect := do
  let data ← lift (opened >>= OpenedFile.bytes)
  let previous ← gets (·.previous (.sample kind declaration.role))
  if previous = some (host.sha256 data) then pure .suppressed
  else do
    let content ← host.store data (kind ++ "-" ++ declaration.role) (splitext declaration.path)
    let observedAt ← host.now
    modifyGet (·.admitEvent
      (.snapshot kind declaration.role observedAt content
        "file-bytes-observed; consumer-load-unknown")
      fun _ s =>
        (s.setPrevious (.sample kind declaration.role) (some (host.sha256 data))).setPrevious
          (.unavailable kind declaration.role) none)

/-- `file`, where `opened` is what opening and reading the declared path gives. -/
def file (declaration : Declaration) (kind : String)
    (opened : Except Exception OpenedFile) : Recording Effect :=
  tryCatch (host.readFile declaration kind opened) fun e =>
    match e.kind with
    | .valueError => host.unavailable kind declaration.role e.text
    | .osError => host.unavailable kind declaration.role e.name
    | _ => throw e

/-- The body of the loop over the declared parameters in `poll`, where `answer` is what the
master answers. -/
def parameter (name : String) (answer : Except Exception (Int × Value)) :
    Recording Effect :=
  tryCatch
    (do let (code, value) ← lift answer
        if code ≠ 1 then host.unavailable "parameter" name "parameter-unavailable"
        else do
          let effect ← host.observation "parameter" name value none
          modify (·.setPrevious (.unavailable "parameter" name) none)
          pure effect)
    fun e => host.unavailable "parameter" name e.name

end Host

/-! ## Reports of producers -/

/-- `unique_object(pairs)`. -/
def uniqueObject (pairs : List (String × Value)) :
    Except Exception (List (String × Value)) :=
  pairs.foldlM (fun result pair =>
    if result.any (·.1 == pair.1) then .error (valueError "duplicate-producer-key")
    else .ok (result ++ [pair])) []

def producerHooks : Hooks where
  parseConstant _ := .error (valueError "non-finite-producer-json")
  objectPairs := uniqueObject

/-- The text of a name of the identity: `str`, not empty, at most 512 characters. -/
def identityText (members : List (String × Value)) (name : String) : Option String := do
  let text ← (Value.get members name).asStr
  if text ≠ "" ∧ text.length ≤ 512 then some text else none

/-- The text of a clock: it matches `[0-9]{1,30}`. -/
def clockText (members : List (String × Value)) (name : String) : Option String := do
  let text ← (Value.get members name).asStr
  if 1 ≤ text.length ∧ text.length ≤ 30 ∧ text.toList.all Char.isDigit = true then some text
  else none

def producerSource (value : Value) : Option Source := do
  let members ← value.asDict
  let id ← identityText members "id"
  let instanceId ← identityText members "instanceId"
  let kind ← identityText members "kind"
  return ⟨⟨kind, id, instanceId⟩, members⟩

def producerSequence (value : Value) : Option Nat := do
  let sequence ← value.asInt
  if 1 ≤ sequence ∧ sequence ≤ 9007199254740991 then some sequence.toNat else none

def producerTransition (event evidence : Value) : Option Transition := do
  let evidence ← evidence.asStr
  let event ← event.asStr
  if evidence ≠ "producer-applied" then none
  else if event = "applied" then some .applied
  else if event = "stopped" then some .stopped
  else none

def producerClock (value : Value) : Option ProducerClock := do
  let members ← value.asDict
  let rosTimeNs ← clockText members "rosTimeNs"
  let unixTimeNs ← clockText members "unixTimeNs"
  let monotonicTimeNs ← clockText members "monotonicTimeNs"
  return ⟨rosTimeNs, unixTimeNs, monotonicTimeNs, members⟩

/-- A check that raises a `ValueError` with the given text. -/
def checked {α : Type} (text : String) (value : Option α) : Except Exception α :=
  match value with
  | some a => .ok a
  | none => .error (valueError text)

/-- Raises unless the condition holds. -/
def ensured (text : String) (condition : Bool) : Except Exception Unit :=
  if condition then .ok () else .error (valueError text)

/-- `validate_producer(value)`, with the fields that are used later. -/
def Host.validateProducer (host : Host) (value : Value) : Except Exception Report := do
  let members ← checked "unsupported-producer-schema" value.asDict
  ensured "unsupported-producer-schema"
    ((Value.get members "schemaVersion").asInt == some 1)
  let source ← checked "invalid-producer-identity" (producerSource (Value.get members "source"))
  let sequence ← checked "invalid-producer-sequence"
    (producerSequence (Value.get members "sequence"))
  let event ← checked "invalid-producer-evidence"
    (producerTransition (Value.get members "event") (Value.get members "evidence"))
  let effectiveAt ← checked "invalid-producer-clock"
    (producerClock (Value.get members "effectiveAt"))
  ensured "missing-producer-values-or-provenance"
    ((Value.get members "values").asDict.isSome && (Value.get members "provenance").asDict.isSome)
  let _ ← host.dumps value
  return ⟨source, sequence, event, effectiveAt⟩

/-- What a report is to the latest recorded event of its producer. -/
inductive Succession where
  | repeated
  | conflict
  | follows (continuity : Continuity)
deriving DecidableEq, Repr

/-- How a report continues the event whose sequence number is one less. -/
def consecutive (before after : ProducerClock) : Continuity :=
  if after.monotonic < before.monotonic then .producerClockRegression
  else if after.ros < before.ros then .rosClockRegression
  else .consecutiveProducerReports

def succession (previous : Option ProducerEvent) (report : Report) (sha256 : String) :
    Succession :=
  match previous with
  | none => .follows (if report.sequence = 1 then .firstObserved else .priorEventsUnobserved)
  | some previous =>
      if report.sequence = previous.sequence ∧ sha256 = previous.content.sha256 then .repeated
      else if report.sequence ≤ previous.sequence then .conflict
      else if report.sequence = previous.sequence + 1 then
        .follows (consecutive previous.effectiveAt report.effectiveAt)
      else .follows .sequenceGap

/-- `text.encode("utf-8")`. -/
def utf8 (text : String) : Bytes := text.toByteArray.data.toList

namespace Host

variable (host : Host)

/-- The report a message carries, and the bytes that are stored of it. -/
def readReport (payload : Value) : Except Exception (Report × Bytes) := do
  let text ← checked "fact-payload-too-large" payload.asStr
  ensured "fact-payload-too-large" ((utf8 text).length ≤ maxBytes)
  let tree ← host.loads text
  let value ← tree.build producerHooks
  let report ← host.validateProducer value
  return (report, utf8 text)

def producer (payload : Value) (observed : Clock) : Recording Effect := do
  let (report, data) ← lift (host.readReport payload)
  let content ← host.store data ("application-" ++ report.source.identity.kind) ".json"
  let previous ← gets (·.latest report.source.identity)
  match succession (previous.map Prod.snd) report content.sha256 with
  | .repeated => pure .suppressed
  | .conflict => throw (valueError "producer-sequence-replay-or-conflict")
  | .follows continuity =>
      modifyGet (·.commitProducer (previous.map Prod.fst)
        ⟨report, observed, content, continuity, some report.openValidity⟩)

/-! ## The queue -/

/-- What is done with one message. -/
def dispatch (message : Message) : Recording Effect :=
  if message.kind = "producer" then host.producer message.payload message.observed
  else if message.kind = "unavailable" then
    -- The only sender of this kind puts the name of an exception here.
    host.unavailable "observer" message.source (message.payload.asStr.getD "")
  else host.observation message.kind message.source message.payload (some message.observed)

end Host

/-- Whether the `except` clause of `process_messages` catches an exception. -/
def isListed (e : Exception) : Bool :=
  match e.kind with
  | .valueError | .typeError | .keyError | .osError | .recursionError => true
  | .other => false

/-- The reason recorded for a message that failed. -/
def failureReason (e : Exception) : String :=
  e.name ++ ":" ++ String.ofList (e.text.toList.take 200)

namespace Host

variable (host : Host)

/-- One message, with the failures that become events. -/
def processMessage (message : Message) : Recording Effect :=
  tryCatch (host.dispatch message) fun e =>
    if isListed e then host.unavailable "observer" message.source (failureReason e) else throw e

/-- `process_messages()`, with at most `budget` messages. -/
def processMessages : Nat → Recording Unit
  | 0 => pure ()
  | budget + 1 => do
      let messages ← gets (·.messages)
      match messages with
      | [] => pure ()
      | message :: rest => do
          modify fun s => { s with messages := rest }
          let _ ← host.processMessage message
          processMessages budget

end Host

end Ros1Tools.Facts
