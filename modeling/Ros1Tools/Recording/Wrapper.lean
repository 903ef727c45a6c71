import Mathlib.Algebra.Order.Ring.Nat
import Ros1Tools.Archive.Disk
import Ros1Tools.Lib.Run

/-!
# The recorder process and its signals

The wrapper starts the native recorder, waits for it and forwards the signals that it receives.
A handler runs between any two steps of the program, or of another handler, and both read and
write the same three flags.  A step of the model is one access to a flag or one system call, so
that a schedule of steps, signals and the exit of the native recorder is any interleaving of them.

A process that has exited is found by the first poll after that; until then a signal can still be
sent to it, without effect.  Whether a signal was sent while the native recorder was running is
therefore not what the flags say, and is recorded beside them.
-/

namespace Ros1Tools.Recording

open Lib

inductive Signal where
  | sigint
  | sigterm
deriving DecidableEq, Repr

/-- The native recorder.  Its exit code is known to the wrapper once it is collected. -/
inductive Process where
  | absent
  | running
  | exited (code : Int)
  | collected (code : Int)
deriving DecidableEq, Repr

namespace Process

/-- `child.returncode`. -/
def returncode : Process → Option Int
  | collected code => some code
  | _ => none

/-- A poll collects the exit code of a process that has exited. -/
def collect : Process → Process
  | exited code => collected code
  | process => process

/-- Whether there is a process that a signal can be sent to. -/
def isPresent : Process → Bool
  | running | exited _ => true
  | _ => false

end Process

/-- The steps of the handler `forward`. -/
inductive Handler where
  | mark (signum : Signal)
  | checkChild
  | poll
  | send
  | kill
  | delivered
deriving DecidableEq, Repr

/-- The steps of the program, from the installed handlers on. -/
inductive Main where
  -- Launching, and what was received before `child` was assigned.
  | launch
  | assign
  | checkForwarded
  | checkDelivered
  | checkRunning
  | resend
  | resendKill
  | resent
  -- One round of the loop.
  | observe
  | poll
  | collect
  | checkCapacity
  | measure
  | stop
  | stopKill
  | stopDelivered
  | stopForwarded
  | stopReached
  | wait
  -- The final block.
  | finish
  | recordExitCode
  | recordSignal
  | recordCapacity
  | recordStatus
  | finalize
  | leave
  | done (status : Int)
deriving DecidableEq, Repr

/-- What the final block writes into the manifest.  A key may be missing or null. -/
structure Ending where
  recorderExitCode : Option Int
  terminationSignal : Option (Option Signal)
  capacityLimitReached : Option Bool
  status : Archive.Status
deriving DecidableEq, Repr

/-- The wrapper.  The last three fields are no variables of the program: whether a signal has
been received, whether one was sent to the native recorder while that was running, and whether
the capacity stop was for a recorder that had exited. -/
structure Wrapper where
  process : Process
  hasChild : Bool
  forwardedSignal : Option Signal
  signalDelivered : Bool
  capacityLimitReached : Bool
  exitCode : Int
  /-- A `ProcessLookupError` has left the launch and ends the wrapper. -/
  raised : Bool
  manifest : Ending
  main : Main
  /-- The handlers that have begun, the innermost first. -/
  handlers : List Handler
  received : Bool
  sent : Bool
  wasted : Bool
deriving DecidableEq, Repr

namespace Wrapper

/-- The handlers are installed. -/
def start : Wrapper where
  process := .absent
  hasChild := false
  forwardedSignal := none
  signalDelivered := false
  capacityLimitReached := false
  exitCode := 1
  raised := false
  manifest := ⟨none, none, none, .recording⟩
  main := .launch
  handlers := []
  received := false
  sent := false
  wasted := false

variable (w : Wrapper)

/-- `child.poll()`, which answers `child.returncode`. -/
def poll : Wrapper := { w with process := w.process.collect }

/-- `os.kill(child.pid, signum)` with a process to send it to. -/
def kill : Wrapper := { w with sent := w.sent || w.process == .running }

/-- One step of a handler, before those that it has interrupted.  A poll answers `None` while
an interrupted one is under way, and a `ProcessLookupError` is ignored. -/
def handle (busy : Bool) (rest : List Handler) : Handler → Wrapper
  | .mark signum => { w with forwardedSignal := some signum, handlers := .checkChild :: rest }
  | .checkChild => { w with handlers := if w.hasChild then .poll :: rest else rest }
  | .poll =>
      if busy then { w with handlers := .send :: rest }
      else { w.poll with
             handlers := if w.poll.process.returncode.isNone then .send :: rest else rest }
  | .send =>
      { w with handlers := (if w.process.returncode.isNone then .kill else .delivered) :: rest }
  | .kill =>
      if w.process.isPresent then { w.kill with handlers := .delivered :: rest }
      else { w with handlers := rest }
  | .delivered => { w with signalDelivered := true, handlers := rest }

/-- `"stopped" if forwarded_signal is not None else ...`. -/
def status : Archive.Status :=
  if w.forwardedSignal.isSome then .stopped
  else if w.exitCode = 0 then .completed else .failed

/-- One step of the program.  `full` is `recorded_bytes() >= stop_limit_bytes`. -/
def advance (full : Bool) : Wrapper :=
  match w.main with
  | .launch => { w with process := .running, main := .assign }
  | .assign => { w with hasChild := true, main := .checkForwarded }
  | .checkForwarded =>
      { w with main := if w.forwardedSignal.isSome then .checkDelivered else .observe }
  | .checkDelivered => { w with main := if w.signalDelivered then .observe else .checkRunning }
  | .checkRunning =>
      { w.poll with main := if w.poll.process.returncode.isNone then .resend else .observe }
  | .resend => { w with main := if w.process.returncode.isNone then .resendKill else .resent }
  | .resendKill =>
      if w.process.isPresent then { w.kill with main := .resent }
      else { w with raised := true, main := .finish }
  | .resent => { w with signalDelivered := true, main := .observe }
  -- The facts are collected and written; none of the flags is read.
  | .observe => { w with main := .poll }
  | .poll =>
      { w.poll with main := if w.poll.process.returncode.isNone then .checkCapacity else .collect }
  | .collect => { w with exitCode := w.process.returncode.getD w.exitCode, main := .finish }
  | .checkCapacity => { w with main := if w.signalDelivered then .wait else .measure }
  | .measure => { w with main := if full then .stop else .wait }
  | .stop =>
      if w.process.returncode.isNone then { w with main := .stopKill }
      else { w with wasted := true, main := .stopDelivered }
  | .stopKill =>
      if w.process.isPresent then
        { w.kill with wasted := w.wasted || w.process != .running, main := .stopDelivered }
      else { w with main := .wait }
  | .stopDelivered => { w with signalDelivered := true, main := .stopForwarded }
  | .stopForwarded => { w with forwardedSignal := some .sigterm, main := .stopReached }
  | .stopReached => { w with capacityLimitReached := true, main := .wait }
  -- `child.wait(timeout=0.25)` polls until the time is over.
  | .wait =>
      { w.poll with exitCode := w.poll.process.returncode.getD w.exitCode,
                    main := if w.poll.process.returncode.isNone then .observe else .finish }
  | .finish => { w with main := .recordExitCode }
  | .recordExitCode =>
      { w with manifest.recorderExitCode := some w.exitCode, main := .recordSignal }
  | .recordSignal =>
      { w with manifest.terminationSignal := some w.forwardedSignal, main := .recordCapacity }
  | .recordCapacity =>
      { w with manifest.capacityLimitReached := some w.capacityLimitReached,
               main := .recordStatus }
  | .recordStatus => { w with manifest.status := w.status, main := .finalize }
  -- The archive is finalized and the manifest is written.
  | .finalize => { w with main := .leave }
  | .leave =>
      { w with main := .done (if w.raised then 1 else if w.forwardedSignal.isSome then 0
                 else w.exitCode) }
  | .done _ => w

end Wrapper

/-- What happens next. -/
inductive Event where
  | receive (signum : Signal)
  | exit (code : Int)
  | step (full busy : Bool)
deriving DecidableEq, Repr

/-- Whether it is a step of the program or of a handler. -/
def Event.isStep : Event → Bool
  | step _ _ => true
  | _ => false

namespace Wrapper

/-- One event.  Nothing happens to a wrapper that is gone. -/
def step (w : Wrapper) (event : Event) : Wrapper :=
  match w.main, event with
  | .done _, _ => w
  | _, .receive signum => { w with handlers := .mark signum :: w.handlers, received := true }
  | _, .exit code => if w.process = .running then { w with process := .exited code } else w
  | _, .step full busy =>
      match w.handlers with
      | [] => w.advance full
      | frame :: rest => w.handle busy rest frame

end Wrapper

/-! ## What a step does -/

namespace Process

theorem collect_of_returncode {process : Process} (h : process.returncode.isSome = true) :
    process.collect = process := by
  cases process with
  | collected code => rfl
  | _ => cases h

theorem collect_ne_absent {process : Process} (h : process ≠ .absent) :
    process.collect ≠ .absent := by
  cases process with
  | absent => exact absurd rfl h
  | _ => nofun

theorem eq_collected {process : Process} {code : Int} (h : process.returncode = some code) :
    process = .collected code := by
  cases process with
  | collected code' => rw [Option.some.inj h]
  | _ => cases h

theorem not_isPresent_of_returncode {process : Process} (h : process.returncode.isSome = true) :
    ¬process.isPresent = true := by
  cases process with
  | collected code => nofun
  | _ => cases h

theorem returncode_of_not_isPresent {process : Process} (h : ¬process.isPresent = true)
    (habsent : process ≠ .absent) : process.returncode.isSome = true := by
  cases process with
  | absent => exact absurd rfl habsent
  | running => exact absurd rfl h
  | exited code => exact absurd rfl h
  | collected code => rfl

end Process

/-- Whether a handler has marked its signal. -/
def Handler.hasMarked : Handler → Bool
  | mark _ => false
  | _ => true

namespace Main

/-- From the check that a signal was received before the launch to its delivery. -/
def isResending : Main → Bool
  | checkDelivered | checkRunning | resend | resendKill | resent => true
  | _ => false

/-- Between sending the signal of the capacity stop and marking it. -/
def isStopping : Main → Bool
  | stopDelivered | stopForwarded => true
  | _ => false

/-- How far the end has come, from the exit code on. -/
def stage : Main → Nat
  | collect => 1
  | finish => 2
  | recordExitCode => 3
  | recordSignal => 4
  | recordCapacity => 5
  | recordStatus => 6
  | finalize => 7
  | leave => 8
  | done _ => 9
  | _ => 0

theorem isStopping_of_stage {main : Main} (h : 0 < main.stage) : main.isStopping = false := by
  cases main <;> first | rfl | cases h

end Main

namespace Wrapper

variable {w : Wrapper} {full busy : Bool}

/-! ### The program -/

/-- A mark is not taken back. -/
theorem isSome_advance (h : w.forwardedSignal.isSome = true) :
    (w.advance full).forwardedSignal.isSome = true := by
  unfold advance
  split <;> (try split) <;> first | exact h | rfl

theorem handlers_advance : (w.advance full).handlers = w.handlers := by
  unfold advance
  split <;> (try split) <;> rfl

theorem isResending_advance (h : (w.advance full).main.isResending = true) :
    w.main.isResending = true ∨ w.forwardedSignal.isSome = true := by
  unfold advance at h
  cases hmain : w.main <;> simp only [hmain] at h
  case checkForwarded =>
    split at h
    · exact .inr ‹_›
    · cases h
  all_goals first | exact .inl rfl | cases h | (split at h <;> cases h)

/-- A signal is sent to a running process only, before the launch is over or for the capacity
stop. -/
theorem sent_advance (h : (w.advance full).sent = true) :
    w.sent = true ∨ w.process = .running ∧
      (w.main = .resendKill ∨ (w.advance full).main = .stopDelivered) := by
  have hkill : w.kill.sent = true → w.sent = true ∨ w.process = .running := fun h =>
    (Bool.or_eq_true_iff.mp h).imp_right beq_iff_eq.mp
  cases hmain : w.main <;> simp only [advance, hmain] at h ⊢
  case resendKill =>
    split at h
    · exact (hkill h).imp_right fun hrunning => ⟨hrunning, .inl trivial⟩
    · exact .inl h
  case stop => split at h <;> exact .inl h
  case stopKill =>
    split at h
    · exact (hkill h).imp_right fun hrunning => ⟨hrunning, .inr (by rw [if_pos ‹_›])⟩
    · exact .inl h
  all_goals exact .inl h

theorem isStopping_advance (h : w.main.isStopping = true) :
    (w.advance full).main.isStopping = true ∨ (w.advance full).forwardedSignal.isSome = true := by
  cases hmain : w.main <;> rw [hmain] at h <;> cases h
  · exact .inl (by simp only [advance, hmain, Main.isStopping])
  · exact .inr (by simp only [advance, hmain, Option.isSome_some])

/-- An exit code that was collected is kept. -/
theorem process_advance (h : w.process.returncode.isSome = true) (hmain : w.main ≠ .launch) :
    (w.advance full).process = w.process := by
  have hcollect : w.poll.process = w.process := Process.collect_of_returncode h
  unfold advance
  split <;> (try split) <;> first | rfl | exact hcollect | contradiction

/-- The end begins with a collected exit code. -/
theorem stage_advance (h : 0 < (w.advance full).main.stage) (habsent : w.process ≠ .absent) :
    0 < w.main.stage ∨ (w.advance full).process.returncode.isSome = true := by
  have hpoll : ¬w.poll.process.returncode.isNone = true →
      w.poll.process.returncode.isSome = true := by
    cases w.poll.process.returncode with
    | none => exact fun h => absurd rfl h
    | some code => exact fun _ => rfl
  cases hmain : w.main <;> simp only [advance, hmain] at h ⊢
  case resendKill =>
    split at h
    · cases h
    · rw [if_neg ‹_›]
      exact .inr (Process.returncode_of_not_isPresent ‹_› habsent)
  case poll | wait =>
    split at h
    · cases h
    · exact .inr (hpoll ‹_›)
  case collect | finish | recordExitCode | recordSignal | recordCapacity | recordStatus | finalize
      | leave | done => exact .inl (Nat.zero_lt_succ _)
  all_goals first | cases h | (split at h <;> cases h)

/-- The native recorder is launched first. -/
theorem isLaunched_advance (h : w.main ≠ .launch → w.process ≠ .absent) :
    (w.advance full).main ≠ .launch → (w.advance full).process ≠ .absent := by
  intro _
  cases hmain : w.main <;> simp only [advance, hmain]
  case launch => nofun
  all_goals
    have hprocess := h (by rw [hmain]; nofun)
    first
      | exact hprocess
      | exact Process.collect_ne_absent hprocess
      | (split <;> exact hprocess)

/-- The status is recorded once, and not changed afterwards. -/
theorem status_advance (h : 6 < (w.advance full).main.stage) :
    6 < w.main.stage ∧ (w.advance full).manifest = w.manifest ∨
      w.main = .recordStatus ∧ (w.advance full).manifest.status = w.status := by
  cases hmain : w.main <;> simp only [advance, hmain] at h ⊢
  case recordStatus => exact .inr ⟨trivial, trivial⟩
  case finalize | leave | done => exact .inl ⟨by simp [Main.stage], trivial⟩
  all_goals first | (simp [Main.stage] at h; done) | (split at h <;> simp [Main.stage] at h)

/-- How the wrapper ends. -/
theorem done_advance {status : Int} (h : (w.advance full).main = .done status) :
    w.main = .done status ∧ w.advance full = w ∨
      w.main = .leave ∧ (w.advance full).raised = w.raised ∧
        status = if w.raised then 1 else if w.forwardedSignal.isSome then 0 else w.exitCode := by
  cases hmain : w.main <;> simp only [advance, hmain] at h ⊢
  case leave =>
    cases h
    exact .inr ⟨trivial, trivial, rfl⟩
  case done => exact .inl ⟨h, trivial⟩
  all_goals first | cases h | (split at h <;> cases h)

/-! ### A handler -/

section Handle

variable {frame : Handler} {rest : List Handler}

theorem main_handle (w : Wrapper) (busy : Bool) (rest : List Handler) (frame : Handler) :
    (w.handle busy rest frame).main = w.main ∧
    (w.handle busy rest frame).manifest = w.manifest ∧
      (w.handle busy rest frame).raised = w.raised := by
  cases frame <;> rw [handle] <;> (try split) <;> exact ⟨rfl, rfl, rfl⟩

theorem isSome_handle (h : frame.hasMarked = true → w.forwardedSignal.isSome = true) :
    (w.handle busy rest frame).forwardedSignal.isSome = true := by
  cases frame <;> rw [handle] <;> (try split) <;> first | rfl | exact h rfl

/-- A handler leaves a collected exit code alone, and sends nothing then. -/
theorem process_handle (h : w.process.returncode.isSome = true) :
    (w.handle busy rest frame).process = w.process ∧
      (w.handle busy rest frame).sent = w.sent := by
  have hcollect : w.poll.process = w.process := Process.collect_of_returncode h
  have hpresent : ¬w.process.isPresent = true := Process.not_isPresent_of_returncode h
  cases frame <;> rw [handle] <;> (try split) <;>
    first | exact ⟨rfl, rfl⟩ | exact ⟨hcollect, rfl⟩ | contradiction

theorem isLaunched_handle (h : w.process ≠ .absent) :
    (w.handle busy rest frame).process ≠ .absent := by
  cases frame <;> rw [handle] <;> (try split) <;>
    first | exact h | exact Process.collect_ne_absent h

end Handle

/-! ## A signal that was sent -/

/-- A signal that was sent is marked, and the final block says so. -/
structure Marked (w : Wrapper) : Prop where
  launched : w.main ≠ .launch → w.process ≠ .absent
  handlers : ∀ frame ∈ w.handlers, frame.hasMarked = true → w.forwardedSignal.isSome = true
  resending : w.main.isResending = true → w.forwardedSignal.isSome = true
  sent : w.sent = true → w.forwardedSignal.isSome = true ∨ w.main.isStopping = true
  ended : 0 < w.main.stage → w.process.returncode.isSome = true
  status : 6 < w.main.stage → w.sent = true → w.manifest.status = .stopped
  exit : ∀ status, w.main = .done status → w.sent = true → w.raised = false → status = 0

theorem marked_start : Marked start where
  launched h := absurd rfl h
  handlers := nofun
  resending := nofun
  sent := nofun
  ended := nofun
  status := nofun
  exit := nofun

namespace Marked

variable (h : Marked w)
include h

/-- Nothing is sent at the end, so that what was sent is marked by then. -/
theorem marked_of_stage (hstage : 0 < w.main.stage) (hsent : (w.advance full).sent = true) :
    w.sent = true ∧ w.forwardedSignal.isSome = true := by
  have hcollected := h.ended hstage
  have hbefore : w.sent = true := by
    rcases sent_advance hsent with hbefore | ⟨hrunning, -⟩
    · exact hbefore
    · rw [hrunning] at hcollected
      cases hcollected
  exact ⟨hbefore, (h.sent hbefore).resolve_right (by simp [Main.isStopping_of_stage hstage])⟩

theorem advance : Marked (w.advance full) where
  launched := isLaunched_advance h.launched
  handlers := by
    rw [handlers_advance]
    exact fun frame hframe hmarked => isSome_advance (h.handlers frame hframe hmarked)
  resending hresending := by
    rcases isResending_advance hresending with hbefore | hmarked
    · exact isSome_advance (h.resending hbefore)
    · exact isSome_advance hmarked
  sent hsent := by
    rcases sent_advance hsent with hbefore | ⟨-, hmain | hmain⟩
    · rcases h.sent hbefore with hmarked | hstopping
      · exact .inl (isSome_advance hmarked)
      · exact (isStopping_advance hstopping).symm
    · exact .inl (isSome_advance (h.resending (by rw [hmain]; rfl)))
    · exact .inr (by rw [hmain]; rfl)
  ended hstage := by
    by_cases hlaunch : w.main = .launch
    · rw [Wrapper.advance, hlaunch] at hstage
      cases hstage
    · rcases stage_advance hstage (h.launched hlaunch) with hbefore | hcollected
      · rw [process_advance (h.ended hbefore) hlaunch]
        exact h.ended hbefore
      · exact hcollected
  status hstage hsent := by
    rcases status_advance hstage with ⟨hbefore, hmanifest⟩ | ⟨hmain, hstatus⟩
    · rw [hmanifest]
      exact h.status hbefore (h.marked_of_stage (by omega) hsent).1
    · rw [hstatus, Wrapper.status, if_pos (h.marked_of_stage (by rw [hmain]; decide) hsent).2]
  exit status hdone hsent hraised := by
    rcases done_advance hdone with ⟨hbefore, hsame⟩ | ⟨hmain, hsame, rfl⟩
    · rw [hsame] at hsent hraised
      exact h.exit status hbefore hsent hraised
    · rw [hsame] at hraised
      have hmarked := (h.marked_of_stage (by rw [hmain]; decide) hsent).2
      rw [hraised, hmarked]
      rfl

theorem handle {frame : Handler} {rest : List Handler} (hframes : w.handlers = frame :: rest) :
    Marked (w.handle busy rest frame) := by
  have hmarked : (w.handle busy rest frame).forwardedSignal.isSome = true :=
    isSome_handle (h.handlers frame (hframes ▸ List.mem_cons_self))
  obtain ⟨hmain, hmanifest, hraised⟩ := main_handle w busy rest frame
  refine ⟨?_, fun _ _ _ => hmarked, fun _ => hmarked, fun _ => .inl hmarked, ?_, ?_, ?_⟩
  · rw [hmain]
    exact fun hlaunch => isLaunched_handle (h.launched hlaunch)
  · rw [hmain]
    intro hstage
    rw [(process_handle (h.ended hstage)).1]
    exact h.ended hstage
  · rw [hmain, hmanifest]
    intro hstage hsent
    rw [(process_handle (h.ended (by omega))).2] at hsent
    exact h.status hstage hsent
  · rw [hmain, hraised]
    intro status hdone hsent
    rw [(process_handle (h.ended (by rw [hdone]; exact Nat.zero_lt_succ _))).2] at hsent
    exact h.exit status hdone hsent

theorem step (event : Event) : Marked (w.step event) := by
  unfold Wrapper.step
  split
  · exact h
  · exact ⟨h.launched, List.forall_mem_cons.mpr ⟨nofun, h.handlers⟩, h.resending, h.sent, h.ended,
      h.status, h.exit⟩
  · split
    · rename_i hrunning
      refine ⟨fun _ => nofun, h.handlers, h.resending, h.sent, fun hstage => ?_, h.status, h.exit⟩
      have hcollected := h.ended hstage
      rw [hrunning] at hcollected
      cases hcollected
    · exact h
  · split
    · exact h.advance
    · exact h.handle ‹_›

end Marked

theorem marked_run (events : List Event) : Marked (run step start events) :=
  run_invariant (fun _ event h => h.step event) marked_start events

/-! ## No signal at all -/

/-- No signal has been received or sent. -/
structure Quiet (w : Wrapper) : Prop where
  received : w.received = false
  sent : w.sent = false
  wasted : w.wasted = false

/-- What the final block has recorded of a native recorder that was left alone. -/
def recorded (stage : Nat) (code : Int) : Ending where
  recorderExitCode := if 3 < stage then some code else none
  terminationSignal := if 4 < stage then some none else none
  capacityLimitReached := if 5 < stage then some false else none
  status := if 6 < stage then if code = 0 then .completed else .failed else .recording

end Wrapper

/-- Whether the program is at a step that only a signal leads to. -/
def Main.isDisturbed (main : Main) : Bool :=
  main.isResending || main.isStopping || main == .stopReached

namespace Wrapper

variable {w : Wrapper} {full busy : Bool}

/-- The native recorder is left alone. -/
structure Undisturbed (w : Wrapper) : Prop where
  handlers : w.handlers = []
  forwarded : w.forwardedSignal = none
  capacity : w.capacityLimitReached = false
  raised : w.raised = false
  main : w.main.isDisturbed = false
  manifest : w.manifest = recorded w.main.stage w.exitCode
  code : 1 < w.main.stage → w.process.returncode = some w.exitCode
  exit : ∀ status, w.main = .done status → status = w.exitCode

theorem undisturbed_start : Undisturbed start :=
  ⟨rfl, rfl, rfl, rfl, rfl, rfl, nofun, nofun⟩

/-- A step that touches no flag. -/
structure SameFlags (w w' : Wrapper) : Prop where
  handlers : w'.handlers = w.handlers
  forwarded : w'.forwardedSignal = w.forwardedSignal
  capacity : w'.capacityLimitReached = w.capacityLimitReached
  raised : w'.raised = w.raised

namespace Undisturbed

variable (h : Undisturbed w) {w' : Wrapper} (hsame : SameFlags w w')
  (hmain : w'.main.isDisturbed = false)
include h hsame hmain

/-- A step before the end. -/
theorem early (hstage : w'.main.stage = 0 ∨ w'.main.stage = 1) (hfrom : w.main.stage = 0)
    (hmanifest : w'.manifest = w.manifest) : Undisturbed w' where
  handlers := hsame.handlers.trans h.handlers
  forwarded := hsame.forwarded.trans h.forwarded
  capacity := hsame.capacity.trans h.capacity
  raised := hsame.raised.trans h.raised
  main := hmain
  manifest := by
    rw [hmanifest, h.manifest, hfrom]
    rcases hstage with hstage | hstage <;> rw [hstage] <;> rfl
  code hlate := absurd hlate (by omega)
  exit status hdone := by
    rw [hdone] at hstage
    rcases hstage with hstage | hstage <;> cases hstage

/-- A step of the end. -/
theorem late (hmanifest : w'.manifest = recorded w'.main.stage w'.exitCode)
    (hcode : w'.process.returncode = some w'.exitCode)
    (hexit : ∀ status, w'.main = .done status → status = w'.exitCode) : Undisturbed w' where
  handlers := hsame.handlers.trans h.handlers
  forwarded := hsame.forwarded.trans h.forwarded
  capacity := hsame.capacity.trans h.capacity
  raised := hsame.raised.trans h.raised
  main := hmain
  manifest := hmanifest
  code _ := hcode
  exit := hexit

end Undisturbed

/-- The signal of the capacity stop is sent or wasted. -/
theorem not_quiet_of_stopKill {m : Main} :
    ¬Quiet { w.kill with wasted := w.wasted || w.process != .running, main := m } := by
  intro hquiet
  have hsent : (w.sent || w.process == .running) = false := hquiet.sent
  have hwasted : (w.wasted || w.process != .running) = false := hquiet.wasted
  cases hrunning : w.process == .running
  · rw [bne, hrunning, Bool.not_false, Bool.or_true] at hwasted
    cases hwasted
  · rw [hrunning, Bool.or_true] at hsent
    cases hsent

/-- A native recorder that is left alone stays so, unless a signal is sent or wasted. -/
theorem Undisturbed.advance (h : Undisturbed w) (hmarked : Marked w)
    (hquiet : Quiet (w.advance full)) : Undisturbed (w.advance full) := by
  have hmanifest := h.manifest
  have hcode := h.code
  have hended := hmarked.ended
  cases hmain : w.main <;> rw [hmain] at hmanifest hcode hended <;>
    simp only [Wrapper.advance, hmain] at hquiet ⊢
  case checkDelivered | checkRunning | resend | resendKill | resent | stopDelivered
      | stopForwarded | stopReached =>
    have hdisturbed := h.main
    rw [hmain] at hdisturbed
    cases hdisturbed
  case launch | assign | observe =>
    exact h.early ⟨rfl, rfl, rfl, rfl⟩ rfl (.inl rfl) (hmain ▸ rfl) rfl
  case checkForwarded =>
    rw [h.forwarded]
    exact h.early ⟨rfl, h.forwarded.symm, rfl, rfl⟩ rfl (.inl rfl) (hmain ▸ rfl) rfl
  case poll =>
    split
    · exact h.early ⟨rfl, rfl, rfl, rfl⟩ rfl (.inl rfl) (hmain ▸ rfl) rfl
    · exact h.early ⟨rfl, rfl, rfl, rfl⟩ rfl (.inr rfl) (hmain ▸ rfl) rfl
  case checkCapacity | measure =>
    split <;> exact h.early ⟨rfl, rfl, rfl, rfl⟩ rfl (.inl rfl) (hmain ▸ rfl) rfl
  case stop =>
    split at hquiet
    · rw [if_pos ‹_›]
      exact h.early ⟨rfl, rfl, rfl, rfl⟩ rfl (.inl rfl) (hmain ▸ rfl) rfl
    · cases hquiet.wasted
  case stopKill =>
    split at hquiet
    · exact absurd hquiet not_quiet_of_stopKill
    · rw [if_neg ‹_›]
      exact h.early ⟨rfl, rfl, rfl, rfl⟩ rfl (.inl rfl) (hmain ▸ rfl) rfl
  case collect =>
    obtain ⟨code, hreturn⟩ := Option.isSome_iff_exists.mp (hended (by decide))
    rw [hreturn]
    exact h.late ⟨rfl, rfl, rfl, rfl⟩ rfl hmanifest hreturn nofun
  case wait =>
    cases hreturn : w.poll.process.returncode with
    | none => exact h.early ⟨rfl, rfl, rfl, rfl⟩ rfl (.inl rfl) (hmain ▸ rfl) rfl
    | some code => exact h.late ⟨rfl, rfl, rfl, rfl⟩ rfl hmanifest hreturn nofun
  case finish | finalize =>
    exact h.late ⟨rfl, rfl, rfl, rfl⟩ rfl hmanifest (hcode (by decide)) nofun
  case recordExitCode =>
    refine h.late ⟨rfl, rfl, rfl, rfl⟩ rfl ?_ (hcode (by decide)) nofun
    rw [hmanifest]
    rfl
  case recordSignal =>
    refine h.late ⟨rfl, rfl, rfl, rfl⟩ rfl ?_ (hcode (by decide)) nofun
    rw [hmanifest, h.forwarded]
    rfl
  case recordCapacity =>
    refine h.late ⟨rfl, rfl, rfl, rfl⟩ rfl ?_ (hcode (by decide)) nofun
    rw [hmanifest, h.capacity]
    rfl
  case recordStatus =>
    refine h.late ⟨rfl, rfl, rfl, rfl⟩ rfl ?_ (hcode (by decide)) nofun
    rw [hmanifest, Wrapper.status, h.forwarded]
    rfl
  case leave =>
    refine h.late ⟨rfl, rfl, rfl, rfl⟩ rfl hmanifest (hcode (by decide)) fun status hdone => ?_
    rw [h.raised, h.forwarded] at hdone
    exact (Main.done.inj hdone).symm
  case done => exact h

/-- What has been received, sent or wasted remains so. -/
theorem quiet_of_kill (h : (w.sent || w.process == .running) = false) : w.sent = false :=
  (Bool.or_eq_false_iff.mp h).1

theorem quiet_of_advance (h : Quiet (w.advance full)) : Quiet w := by
  cases hmain : w.main <;> simp only [advance, hmain] at h
  case resendKill =>
    split at h
    · exact ⟨h.received, quiet_of_kill h.sent, h.wasted⟩
    · exact ⟨h.received, h.sent, h.wasted⟩
  case stop =>
    split at h
    · exact ⟨h.received, h.sent, h.wasted⟩
    · cases h.wasted
  case stopKill =>
    split at h
    · exact absurd h not_quiet_of_stopKill
    · exact ⟨h.received, h.sent, h.wasted⟩
  all_goals exact ⟨h.received, h.sent, h.wasted⟩

theorem quiet_of_handle {frame : Handler} {rest : List Handler}
    (h : Quiet (w.handle busy rest frame)) : Quiet w := by
  cases frame <;> rw [handle] at h
  case kill =>
    split at h
    · exact ⟨h.received, quiet_of_kill h.sent, h.wasted⟩
    · exact ⟨h.received, h.sent, h.wasted⟩
  case poll => split at h <;> exact ⟨h.received, h.sent, h.wasted⟩
  all_goals exact ⟨h.received, h.sent, h.wasted⟩

theorem Undisturbed.step (hmarked : Marked w) (h : Quiet w → Undisturbed w) (event : Event)
    (hquiet : Quiet (w.step event)) : Undisturbed (w.step event) := by
  unfold Wrapper.step at hquiet ⊢
  split at hquiet
  · exact h hquiet
  · cases hquiet.received
  · rename_i code
    split at hquiet
    · rename_i hrunning
      rw [if_pos hrunning]
      have hundisturbed := h ⟨hquiet.received, hquiet.sent, hquiet.wasted⟩
      refine ⟨hundisturbed.handlers, hundisturbed.forwarded, hundisturbed.capacity,
        hundisturbed.raised, hundisturbed.main, hundisturbed.manifest, fun hstage => ?_,
        hundisturbed.exit⟩
      have hcode := hundisturbed.code hstage
      rw [hrunning] at hcode
      cases hcode
    · rw [if_neg ‹_›]
      exact h hquiet
  · split at hquiet
    · exact (h (quiet_of_advance hquiet)).advance hmarked hquiet
    · rename_i hframes
      have hundisturbed := h (quiet_of_handle hquiet)
      rw [hundisturbed.handlers] at hframes
      cases hframes

theorem undisturbed_run (events : List Event) (h : Quiet (run step start events)) :
    Undisturbed (run step start events) := by
  have hstep : ∀ (w : Wrapper) (event : Event), Marked w ∧ (Quiet w → Undisturbed w) →
      Marked (w.step event) ∧ (Quiet (w.step event) → Undisturbed (w.step event)) :=
    fun w event h => ⟨h.1.step event, Undisturbed.step h.1 h.2 event⟩
  exact (run_invariant hstep ⟨marked_start, fun _ => undisturbed_start⟩ events).2 h

/-! ## The end of a run -/

end Wrapper

/-- Whether the native recorder has run and has exited. -/
def Process.hasExited : Process → Bool
  | exited _ | collected _ => true
  | _ => false

theorem Process.hasExited_of_ne {process : Process} (habsent : process ≠ .absent)
    (hrunning : process ≠ .running) : process.hasExited = true := by
  cases process with
  | absent => exact absurd rfl habsent
  | running => exact absurd rfl hrunning
  | exited code => rfl
  | collected code => rfl

theorem Process.hasExited_collect {process : Process} (h : process.hasExited = true) :
    process.collect.hasExited = true ∧ process.collect.returncode.isNone = false := by
  cases process with
  | exited code => exact ⟨rfl, rfl⟩
  | collected code => exact ⟨rfl, rfl⟩
  | _ => cases h

/-- The number of steps that the program takes at most after the exit. -/
def Main.remaining : Main → Nat
  | launch => 18
  | assign => 17
  | checkForwarded => 16
  | checkDelivered => 15
  | checkRunning => 14
  | resend => 13
  | resendKill => 12
  | resent => 11
  | observe => 10
  | poll => 9
  | collect => 8
  | checkCapacity => 15
  | measure => 14
  | stop => 13
  | stopKill => 12
  | stopDelivered => 11
  | stopForwarded => 10
  | stopReached => 9
  | wait => 8
  | finish => 7
  | recordExitCode => 6
  | recordSignal => 5
  | recordCapacity => 4
  | recordStatus => 3
  | finalize => 2
  | leave => 1
  | done _ => 0

theorem Main.eq_done {main : Main} (h : main.remaining = 0) : ∃ status, main = .done status := by
  cases main with
  | done status => exact ⟨status, rfl⟩
  | _ => cases h

/-- The same for a handler. -/
def Handler.remaining : Handler → Nat
  | mark _ => 6
  | checkChild => 5
  | poll => 4
  | send => 3
  | kill => 2
  | delivered => 1

namespace Wrapper

/-- The steps that are left, of which a wrapper that is gone takes none. -/
def remaining (w : Wrapper) : Nat :=
  if w.main.remaining = 0 then 0
  else w.main.remaining + (w.handlers.map Handler.remaining).sum

variable {w : Wrapper} {full busy : Bool}

/-- The native recorder has been launched and has exited. -/
structure Exited (w : Wrapper) : Prop where
  launched : w.main ≠ .launch
  process : w.process.hasExited = true

/-- After the exit the program does not wait any more: every step leads on to the end. -/
theorem Exited.advance (h : Exited w) (full : Bool) :
    Exited (w.advance full) ∧ (w.advance full).main.remaining ≤ w.main.remaining - 1 := by
  have hprocess := h.process
  obtain ⟨hcollect, hreturn⟩ : w.poll.process.hasExited = true ∧
      w.poll.process.returncode.isNone = false := Process.hasExited_collect hprocess
  cases hmain : w.main <;> simp only [Wrapper.advance, hmain]
  case launch => exact absurd hmain h.launched
  case checkRunning | poll | wait =>
    rw [hreturn]
    exact ⟨⟨nofun, hcollect⟩, by decide⟩
  case checkForwarded | checkDelivered | resend | checkCapacity | measure =>
    split <;> exact ⟨⟨nofun, hprocess⟩, by decide⟩
  case resendKill | stop | stopKill =>
    split <;> exact ⟨⟨nofun, hprocess⟩, by simp [Main.remaining]⟩
  case done => exact ⟨h, by simp [Main.remaining]⟩
  case leave => exact ⟨⟨nofun, hprocess⟩, Nat.zero_le _⟩
  all_goals exact ⟨⟨nofun, hprocess⟩, by decide⟩

theorem Exited.handle {frame : Handler} {rest : List Handler} (h : Exited w) :
    Exited (w.handle busy rest frame) := by
  have hcollect : w.poll.process.hasExited = true := (Process.hasExited_collect h.process).1
  refine ⟨(main_handle w busy rest frame).1 ▸ h.launched, ?_⟩
  cases frame <;> rw [Wrapper.handle] <;> (try split) <;> first | exact h.process | exact hcollect

/-- A handler does not wait. -/
theorem remaining_handle (w : Wrapper) (busy : Bool) (frame : Handler) (rest : List Handler) :
    ((w.handle busy rest frame).handlers.map Handler.remaining).sum + 1 ≤
      ((frame :: rest).map Handler.remaining).sum := by
  cases frame <;> rw [handle] <;> (try split) <;> (try split) <;>
    grind [Handler.remaining]

/-- A step of a handler, or of the program if no handler has begun. -/
theorem step_of_remaining (h : w.main.remaining ≠ 0) :
    w.step (.step full busy) =
      match w.handlers with
      | [] => w.advance full
      | frame :: rest => w.handle busy rest frame := by
  cases hmain : w.main <;> simp only [step, hmain]
  exact absurd (hmain ▸ rfl) h

theorem Exited.step (h : Exited w) {event : Event} (hevent : event.isStep = true) :
    Exited (w.step event) ∧ (w.step event).remaining ≤ w.remaining - 1 := by
  obtain _ | _ | ⟨full, busy⟩ := event
  case receive => cases hevent
  case exit => cases hevent
  by_cases hend : w.main.remaining = 0
  · obtain ⟨status, hmain⟩ := Main.eq_done hend
    have hsame : w.step (.step full busy) = w := by simp only [Wrapper.step, hmain]
    rw [hsame, remaining, if_pos hend]
    exact ⟨h, Nat.zero_le _⟩
  · rw [step_of_remaining hend, remaining, remaining, if_neg hend]
    cases hframes : w.handlers with
    | nil =>
        obtain ⟨hexited, hle⟩ := h.advance full
        dsimp only
        rw [handlers_advance, hframes]
        refine ⟨hexited, ?_⟩
        split
        · exact Nat.zero_le _
        · exact hle
    | cons frame rest =>
        have hle := remaining_handle w busy frame rest
        dsimp only
        rw [(main_handle w busy rest frame).1, if_neg hend]
        exact ⟨h.handle, by omega⟩

/-- A native recorder that was launched has exited after its exit, if it had not before. -/
theorem exited_of_exit (hmarked : Marked w) (hlaunched : w.main ≠ .launch) (code : Int) :
    Exited (w.step (.exit code)) ∧ (w.step (.exit code)).remaining = w.remaining := by
  have hstarted := hmarked.launched hlaunched
  by_cases hrunning : w.process = .running
  · have hstep : w.step (.exit code) = { w with process := .exited code } := by
      cases hmain : w.main <;> simp only [Wrapper.step, hmain, if_pos hrunning]
      have hcollected := hmarked.ended (by rw [hmain]; exact Nat.zero_lt_succ _)
      rw [hrunning] at hcollected
      cases hcollected
    rw [hstep]
    exact ⟨⟨hlaunched, rfl⟩, rfl⟩
  · have hstep : w.step (.exit code) = w := by
      cases hmain : w.main <;> simp only [Wrapper.step, hmain, if_neg hrunning]
    rw [hstep]
    exact ⟨⟨hlaunched, Process.hasExited_of_ne hstarted hrunning⟩, rfl⟩

/-- Only a wrapper that is gone has no step left. -/
theorem eq_done_of_remaining (h : w.remaining = 0) : ∃ status, w.main = .done status := by
  refine Main.eq_done ?_
  unfold remaining at h
  split at h
  · assumption
  · omega

/-- **The wrapper ends** after the exit of the native recorder, once the program and the
handlers that have begun have taken the steps that are left. -/
theorem ends_after_exit (events schedule : List Event) (code : Int)
    (hlaunched : (run step start events).main ≠ .launch)
    (hschedule : ∀ event ∈ schedule, event.isStep = true)
    (hlength : (run step start events).remaining ≤ schedule.length) :
    ∃ status, (run step start (events ++ .exit code :: schedule)).main = .done status := by
  rw [run_append, run_cons]
  obtain ⟨hexited, hremaining⟩ := exited_of_exit (marked_run events) hlaunched code
  refine eq_done_of_remaining (run_rank (fun w event hevent h => (Exited.step h hevent).1)
    (fun w event hevent h => (Exited.step h hevent).2) hexited hschedule ?_)
  rw [hremaining]
  exact hlength

/-! ## What is reported -/

/-- **A failure of the native recorder is not reported as a requested stop**, whatever the
interleaving of the steps, the signals and the exit.  The wrapper ends after the exit.  If a
signal was sent to the running recorder, a stop is reported.  If none was sent, and if then none
was received either and the capacity stop was not for a recorder that had exited, the manifest
and the exit status are those of the recorder. -/
theorem native_failure_reported (events : List Event) :
    let w := run step start events
    (w.main ≠ .launch → ∀ (code : Int) (schedule : List Event),
      (∀ event ∈ schedule, event.isStep = true) → w.remaining ≤ schedule.length →
      ∃ status, (run step start (events ++ .exit code :: schedule)).main = .done status) ∧
    ∀ status, w.main = .done status → w.raised = false →
      (w.sent = false → w.received = false ∧ w.wasted = false) →
      (w.sent = false → ∃ code, w.process = .collected code ∧
        w.manifest = ⟨some code, some none, some false, if code = 0 then .completed else .failed⟩ ∧
        status = code) ∧
      (w.sent = true → w.manifest.status = .stopped ∧ status = 0) := by
  intro w
  have hmarked : Marked w := marked_run events
  refine ⟨fun hlaunched code schedule => ends_after_exit events schedule code hlaunched,
    fun status hdone hraised hquiet => ⟨fun hsent => ?_, fun hsent => ?_⟩⟩
  · have hundisturbed : Undisturbed w :=
      undisturbed_run events ⟨(hquiet hsent).1, hsent, (hquiet hsent).2⟩
    have hstage : w.main.stage = 9 := by
      rw [hdone]
      rfl
    refine ⟨w.exitCode, ?_, ?_, hundisturbed.exit status hdone⟩
    · exact Process.eq_collected (hundisturbed.code (by omega))
    · rw [hundisturbed.manifest, hstage]
      rfl
  · have hstage : 6 < w.main.stage := by
      rw [hdone]
      exact (by decide : 6 < 9)
    exact ⟨hmarked.status hstage hsent, hmarked.exit status hdone hsent hraised⟩

/-- Steps of the program and its handlers, with the capacity not exhausted. -/
def steps (n : Nat) : List Event := List.replicate n (.step false false)

/-- The native recorder fails by itself. -/
def failing : List Event := steps 6 ++ [.exit 3] ++ steps 12

/-- An interrupt is forwarded to the native recorder. -/
def interrupted : List Event := steps 6 ++ [.receive .sigint] ++ steps 6 ++ [.exit 0] ++ steps 13

theorem native_failure_reported_sample :
    (∃ status, (run step start (steps 6 ++ .exit 3 :: steps 16)).main = .done status) ∧
    (∃ code, (run step start failing).process = .collected code ∧
      (run step start failing).manifest =
        ⟨some code, some none, some false, if code = 0 then .completed else .failed⟩ ∧ 3 = code) ∧
    (run step start interrupted).manifest.status = .stopped :=
  ⟨(native_failure_reported (steps 6)).1 (by decide) 3 (steps 16) (by decide) (by decide),
    ((native_failure_reported failing).2 3 (by decide) (by decide) (by decide)).1 (by decide),
    (((native_failure_reported interrupted).2 0 (by decide) (by decide) (by decide)).2
      (by decide)).1⟩

/-- A termination request right after the native recorder has failed. -/
def late : List Event := steps 6 ++ [.exit 1, .receive .sigterm] ++ steps 16

/-- The native recorder fails while the capacity stop is under way. -/
def exhausted : List Event :=
  steps 6 ++ [.step true false] ++ steps 1 ++ [.exit 1] ++ steps 20

/-- Three signals around the launch, the second of which reaches the native recorder. -/
def crowded : List Event :=
  [.receive .sigterm] ++ steps 7 ++ [.receive .sigint] ++ steps 7 ++ [.exit 0, .receive .sigint] ++
    steps 12

/-- A native recorder that failed by itself is reported as stopped, by a signal or for its
capacity, and a recorder that was stopped as a failure of the wrapper. -/
theorem late_signal_reported_as_stop :
    ((run step start late).sent = false ∧ (run step start late).main = .done 0 ∧
      (run step start late).manifest = ⟨some 1, some (some .sigterm), some false, .stopped⟩) ∧
    ((run step start exhausted).sent = false ∧ (run step start exhausted).main = .done 0 ∧
      (run step start exhausted).manifest = ⟨some 1, some (some .sigterm), some true, .stopped⟩) ∧
    (run step start crowded).sent = true ∧ (run step start crowded).main = .done 1 := by
  decide

end Wrapper

end Ros1Tools.Recording
