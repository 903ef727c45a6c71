import Ros1Tools.Facts.Operation

/-!
# The threads around the queue

The recorder of facts runs in three threads.  The *reader* takes messages from the
process that subscribes to them and calls `enqueue`, whose check and put are two steps.
The *worker* is the loop `run`: it takes messages out of the queue, at most `maxMessages`
in a pass, processes each of them, and polls files and parameters in between.  The *main*
thread takes snapshots and calls `finish`, which closes the queue, waits for a while,
seals the log and takes the last snapshot.

Beside the threads the state counts what happens to messages, and keeps for each message
that was taken out of the queue the recorder before and after it was processed.  No step
looks at these counts.
-/

namespace Ros1Tools.Facts

open Lib Lib.Faulty Lib.Python

/-- `read_ros`, the only caller of `enqueue` in this process. -/
inductive Reader where
  | idle
  | checked (message : Message)
  | full
  | exited

/-- `run`: at the head of its loop, in a pass of `process_messages`, between taking a message
and processing it, or polling.  The last pass is made after the loop. -/
inductive Worker where
  | top
  | draining (budget : Nat) (final : Bool)
  | holding (message : Message) (budget : Nat) (final : Bool)
  | polling
  | exited

/-- The main thread: it records, is in `finish` before or after sealing the log, or has
finished. -/
inductive Finisher where
  | recording
  | closing
  | sealed
  | finished
deriving DecidableEq, Repr

/-- A message that was taken out of the queue, with the recorder around its processing, and
what that came to. -/
structure Consumed where
  message : Message
  before : RecordFacts
  after : RecordFacts
  outcome : Except Exception Effect

structure System where
  facts : RecordFacts
  reader : Reader
  worker : Worker
  finisher : Finisher
  document : Option State
  accepted : Nat
  rejections : Nat
  refusals : Nat
  consumed : List Consumed

/-- What the worker polls. -/
inductive Poll where
  | file (declaration : Declaration) (kind : String)
      (opened : Except Exception OpenedFile)
  | parameter (name : String) (answer : Except Exception (Int × Value))

def Poll.perform (host : Host) : Poll → Recording Effect
  | file declaration kind opened => host.file declaration kind opened
  | parameter name answer => host.parameter name answer

/-- One operation of `poll`, with the exceptions that `run` catches. -/
def Host.poll (host : Host) (poll : Poll) : Recording Effect :=
  tryCatch (poll.perform host) fun e => host.unavailable "observer" "snapshot-poll" e.name

/-- Which thread moves, and what its environment answers. -/
inductive Action where
  | receive (message : Message)
  | put
  | overflow
  | endOfStream
  | enterPass
  | take
  | process (fates : Fates Exception)
  | poll (poll : Poll) (fates : Fates Exception)
  | endPoll
  | close
  | sealLog (endedAt : Clock) (stillAlive : Bool)
  | snapshot

/-- Whether an append was refused because the log is full. -/
def Effect.refusals : Effect → Nat
  | .attempted .full => 1
  | _ => 0

def Reader.isAlive : Reader → Bool
  | .exited => false
  | _ => true

def Worker.isAlive : Worker → Bool
  | .exited => false
  | _ => true

/-- The number of messages between the queue and their processing. -/
def Worker.inHand : Worker → Nat
  | .holding .. => 1
  | _ => 0

namespace System

/-- After `start`. -/
def start (facts : RecordFacts) : System where
  facts := facts
  reader := .idle
  worker := .top
  finisher := .recording
  document := none
  accepted := 0
  rejections := 0
  refusals := 0
  consumed := []

variable (host : Host) (s : System)

/-! ## The reader -/

/-- The check at the head of `enqueue`. -/
def receive (message : Message) : System :=
  match s.reader with
  | .idle => if s.facts.closed then s else { s with reader := .checked message }
  | _ => s

/-- `self.messages.put_nowait(…)`. -/
def put : System :=
  match s.reader with
  | .checked message =>
      if s.facts.messages.length < maxMessages then
        { s with
          facts := s.facts.setMessages (s.facts.messages ++ [message])
          reader := .idle
          accepted := s.accepted + 1 }
      else { s with reader := .full }
  | _ => s

/-- The critical section for a queue that is full. -/
def overflow : System :=
  match s.reader with
  | .full =>
      { s with
        facts := s.facts.overflow
        reader := .idle
        rejections := s.rejections + 1 }
  | _ => s

/-- The other end of the pipe is gone. -/
def endOfStream : System :=
  match s.reader with
  | .idle => { s with reader := .exited }
  | _ => s

/-! ## The worker -/

/-- The condition of the loop of `run`, and the beginning of a pass. -/
def enterPass : System :=
  match s.worker with
  | .top => { s with worker := .draining maxMessages s.facts.closed }
  | _ => s

/-- After a pass: the last one ends the thread. -/
def passed (final : Bool) : Worker := if final then .exited else .polling

/-- `self.messages.get_nowait()`. -/
def take : System :=
  match s.worker with
  | .draining 0 final => { s with worker := passed final }
  | .draining (budget + 1) final =>
      match s.facts.messages with
      | [] => { s with worker := passed final }
      | message :: rest =>
          { s with
            facts := s.facts.setMessages rest
            worker := .holding message budget final }
  | _ => s

/-- One message of `process_messages`.  What it raises ends the thread. -/
def process (fates : Fates Exception) : System :=
  match s.worker with
  | .holding message budget final =>
      match host.processMessage message s.facts fates with
      | .done effect facts _ =>
          { s with
            facts := facts
            worker := .draining budget final
            refusals := s.refusals + effect.refusals
            consumed := s.consumed ++ [⟨message, s.facts, facts, .ok effect⟩] }
      | .raised e facts _ =>
          { s with
            facts := facts
            worker := .exited
            consumed := s.consumed ++ [⟨message, s.facts, facts, .error e⟩] }
      | .crashed _ => s
  | _ => s

def poll (poll : Poll) (fates : Fates Exception) : System :=
  match s.worker with
  | .polling =>
      match host.poll poll s.facts fates with
      | .done effect facts _ =>
          { s with
            facts := facts
            refusals := s.refusals + effect.refusals }
      | .raised _ facts _ => { s with facts := facts, worker := .exited }
      | .crashed _ => s
  | _ => s

def endPoll : System :=
  match s.worker with
  | .polling => { s with worker := .top }
  | _ => s

/-! ## The main thread -/

/-- `self.closed.set()`. -/
def close : System :=
  match s.finisher with
  | .recording => { s with facts := s.facts.close, finisher := .closing }
  | _ => s

/-- The critical section of `finish`; a thread may be found alive just before it is gone. -/
def sealLog (endedAt : Clock) (stillAlive : Bool) : System :=
  match s.finisher with
  | .closing =>
      { s with
        facts := s.facts.sealLog endedAt (s.reader.isAlive || s.worker.isAlive || stillAlive)
        finisher := .sealed }
  | _ => s

/-- A snapshot while recording, or the last one. -/
def snapshot : System :=
  match s.finisher with
  | .recording =>
      { s with
        facts := (s.facts.snapshot s.document).2.1
        document := (s.facts.snapshot s.document).2.2 }
  | .sealed =>
      { s with
        facts := (s.facts.snapshot s.document).2.1
        document := (s.facts.snapshot s.document).2.2
        finisher := .finished }
  | _ => s

def step : Action → System
  | .receive message => s.receive message
  | .put => s.put
  | .overflow => s.overflow
  | .endOfStream => s.endOfStream
  | .enterPass => s.enterPass
  | .take => s.take
  | .process fates => s.process host fates
  | .poll poll fates => s.poll host poll fates
  | .endPoll => s.endPoll
  | .close => s.close
  | .sealLog endedAt stillAlive => s.sealLog endedAt stillAlive
  | .snapshot => s.snapshot

end System

end Ros1Tools.Facts
