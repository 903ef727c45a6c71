import Ros1Tools.Lib.Run
import Ros1Tools.Facts.Work

/-!
# Runs of the recorder of facts

A run is a sequence of operations, each with the fates of the system calls it makes.
`Kept` says what has to be shown of a property for it to hold along every run: it is
kept by `Advance`, by the ways `Work` lists and by the few changes that callbacks and
`finish` make.
-/

namespace Ros1Tools.Facts

open Lib Lib.Faulty Lib.Python

def maxMessages : Nat := 256

namespace RecordFacts

variable (s : RecordFacts)

def setMessages (messages : List Message) : RecordFacts := { s with messages := messages }

/-- `enqueue`, when nothing comes between its check and its put. -/
def enqueue (message : Message) : RecordFacts :=
  if s.closed then s
  else if s.messages.length < maxMessages then s.setMessages (s.messages ++ [message])
  else s.overflow

/-- `self.closed.set()`. -/
def close : RecordFacts := { s with closed := true }

/-- `finish(document)`, after the threads were waited for. -/
def finish (endedAt : Clock) (observerStillStopping : Bool) (document : Option State) :
    RecordFacts × Option State :=
  ((s.close.sealLog endedAt observerStillStopping).snapshot document).2

end RecordFacts

/-- The operations, with what the environment answers to them. -/
inductive Operation where
  | producer (payload : Value) (observed : Clock)
  | observation (kind source : String) (value : Value) (observed : Option Clock)
  | file (declaration : Declaration) (kind : String)
      (opened : Except Exception OpenedFile)
  | parameter (name : String) (answer : Except Exception (Int × Value))
  | unavailable (kind source reason : String)
  | enqueue (message : Message)
  | processMessages
  | snapshot
  | finish (endedAt : Clock) (observerStillStopping : Bool)

def Operation.perform (host : Host) : Operation → Recording Unit
  | producer payload observed => do let _ ← host.producer payload observed
  | observation kind source value observed => do
      let _ ← host.observation kind source value observed
  | file declaration kind opened => do let _ ← host.file declaration kind opened
  | parameter name answer => do let _ ← host.parameter name answer
  | unavailable kind source reason => do let _ ← host.unavailable kind source reason
  | enqueue message => modify (·.enqueue message)
  | processMessages => host.processMessages maxMessages
  | snapshot => modify fun s => (s.snapshot none).2.1
  | finish endedAt observerStillStopping =>
      modify fun s => (s.finish endedAt observerStillStopping none).1

/-- One operation, under the given fates of its system calls. -/
def perform (host : Host) (s : RecordFacts) (call : Operation × Fates Exception) :
    RecordFacts :=
  (call.1.perform host s call.2).state

/-! ## What every operation keeps -/

/-- What has to be shown of a property that every operation keeps. -/
structure Kept (host : Host) (Inv : RecordFacts → Prop) : Prop where
  advance : ∀ s s', Advance host s s' → Inv s → Inv s'
  work : ∀ s effect s', Work host (fun _ => True) s effect s' → Inv s → Inv s'
  messages : ∀ s messages, Inv s → Inv (s.setMessages messages)
  overflow : ∀ s, Inv s → Inv s.overflow
  close : ∀ s, Inv s → Inv s.close
  sealLog : ∀ s endedAt observerStillStopping, Inv s →
    Inv (s.sealLog endedAt observerStillStopping)
  snapshot : ∀ s, Inv s → Inv (s.snapshot none).2.1

section Kept

variable {host : Host} {Inv : RecordFacts → Prop} {s : RecordFacts} {effect : Effect}

/-- A property holds at every end of a program. -/
abbrev Everywhere (Inv : RecordFacts → Prop) {α : Type} : Post Exception RecordFacts α :=
  ⟨fun _ => Inv, fun _ => Inv, Inv⟩

theorem Kept.of_work {m : Recording Effect} {about : Fact → Prop} (h : Kept host Inv)
    (hs : Inv s)
    (hm : Wp (fun _ => True) m
      ⟨Work host about s, fun _ => Advance host s, Advance host s⟩ s) :
    Wp (fun _ => True) m (Everywhere Inv) s :=
  hm.mono (fun _ _ hwork => h.work _ _ _ (hwork.mono fun _ _ => trivial) hs)
    (fun _ _ hadvance => h.advance _ _ hadvance hs) fun _ hadvance => h.advance _ _ hadvance hs

/-- The loop of `process_messages`. -/
theorem Kept.processMessages (h : Kept host Inv) (budget : Nat) (hs : Inv s) :
    Wp (fun _ => True) (host.processMessages budget) (Everywhere Inv) s := by
  induction budget generalizing s with
  | zero => exact Wp.pure hs
  | succ budget ih =>
      refine Wp.bind (R := fun _ => Inv) (Wp.gets hs) fun messages s₁ h₁ => ?_
      cases messages with
      | nil => exact Wp.pure h₁
      | cons message rest =>
          refine Wp.bind (R := fun _ => Inv) (Wp.modify (h.messages s₁ rest h₁))
            fun _ s₂ h₂ => ?_
          exact Wp.bind (h.of_work h₂ (wp_processMessage message)) fun _ s₃ h₃ => ih h₃

theorem Kept.operation (h : Kept host Inv) (operation : Operation) (hs : Inv s) :
    Wp (fun _ => True) (operation.perform host) (Everywhere Inv) s := by
  have hdiscard : ∀ {m : Recording Effect}, Wp (fun _ => True) m (Everywhere Inv) s →
      Wp (fun _ => True) (do let _ ← m) (Everywhere Inv) s :=
    fun hm => Wp.bind hm fun _ _ h => Wp.pure h
  cases operation with
  | producer payload observed => exact hdiscard (h.of_work hs (wp_producer payload observed))
  | observation kind source value observed =>
      exact hdiscard (h.of_work hs (wp_observation kind source value observed))
  | file declaration kind opened =>
      exact hdiscard (h.of_work hs (wp_file declaration kind opened))
  | parameter name answer => exact hdiscard (h.of_work hs (wp_parameter name answer))
  | unavailable kind source reason =>
      exact hdiscard (h.of_work hs (wp_unavailable kind source reason))
  | enqueue message =>
      refine Wp.modify ?_
      unfold RecordFacts.enqueue
      split
      · exact hs
      · split
        · exact h.messages s _ hs
        · exact h.overflow s hs
  | processMessages => exact h.processMessages maxMessages hs
  | snapshot => exact Wp.modify (h.snapshot s hs)
  | finish endedAt observerStillStopping =>
      exact Wp.modify (h.snapshot _ (h.sealLog _ _ _ (h.close s hs)))

/-- **What every operation keeps holds along every run.** -/
theorem Kept.run (h : Kept host Inv) (hs : Inv s)
    (calls : List (Operation × Fates Exception)) :
    Inv (run (perform host) s calls) := by
  have hstep : ∀ s call, Inv s → Inv (perform host s call) := by
    intro s call hs
    exact Wp.state (h.operation call.1 hs)
  exact run_invariant hstep hs calls

end Kept

end Ros1Tools.Facts
