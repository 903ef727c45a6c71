import Ros1Tools.Lib.Run
import Ros1Tools.Service.Helper

/-!
# The parent and its helper as one system

The two parties share a pair of byte streams and nothing else.  Besides them the
state keeps four histories that neither party reads: the request the parent has
assigned an identifier to, the entries into `client.call`, what those calls
returned, and the byte strings the parent has handed to the response decoder.

Each party has a *view* of the state: the parent sees the bytes it has sent up and
received from below, the helper the bytes it has received from above and sent
down.  A step of one party leaves the other's view as it is, whatever it does to
the streams, so an invariant about one view is a matter for one party alone.
-/

namespace Ros1Tools.Service

open Lib

structure System where
  parent : Parent
  helper : Helper
  /-- Parent to helper. -/
  up : ByteStream
  /-- Helper to parent. -/
  down : ByteStream
  issued : Option Sending
  calls : List NativeCall
  results : List CallResult
  handed : List Bytes

namespace System

/-- An operation that is about to start. -/
def init : System := ⟨.enter, .unborn, .empty, .empty, none, [], [], []⟩

/-- The effect of a parent step. -/
def apply (s : System) : Effect → System
  | .none => s
  | .start => { s with helper := .read .header [] false }
  | .issue p => { s with issued := some p }
  | .send bytes => { s with up := s.up.push bytes }
  | .receive n => { s with down := s.down.pull n }
  | .kill => { s with helper := .exited }
  | .hand payload => { s with handed := s.handed ++ [payload] }

/-- The effect of a helper step. -/
def applyHelper (s : System) : HelperEffect → System
  | .none => s
  | .send bytes => { s with down := s.down.push bytes }
  | .receive n => { s with up := s.up.pull n }
  | .enterCall call => { s with calls := s.calls ++ [call] }
  | .leaveCall result => { s with results := s.results ++ [result] }

@[simp] theorem parent_applyHelper (s : System) (e : HelperEffect) :
    (s.applyHelper e).parent = s.parent := by
  cases e <;> rfl

/-- Whether `waitpid` finds the helper dead. -/
def helperExited (s : System) : Bool :=
  match s.helper with
  | .exited => true
  | _ => false

end System

/-- Who moves next, and what it is answered.  `kill` is the death of the helper
by any other cause. -/
inductive Action where
  | parent (env : Env)
  | helper (env : HelperEnv)
  | kill

/-- One step of the system. -/
def step (s : System) : Action → System
  | .parent env =>
      let next := s.parent.step env s.down s.helperExited
      { s.apply next.2 with parent := next.1 }
  | .helper env =>
      let next := s.helper.step env s.up
      { s.applyHelper next.2 with helper := next.1 }
  | .kill =>
      match s.helper with
      | .unborn => s
      | _ => { s with helper := .exited }

/-! ## An undisturbed call

The answers of a machine on which nothing goes wrong, for a service `/a` whose
request is one byte and whose response is two. -/

def Env.calm : Env where
  cancellationRequested := false
  deadlineExpired := false
  runtimeDeadlinePassed := false
  callDeadlinePassed := false
  serviceEnabled := true
  admission := .ok ⟨[0x2f, 0x61], [], 0⟩
  types := ⟨.ok (some (List.replicate 32 0x61)), .ok (), .ok true, .ok (), .ok ⟨1, [7], rfl, 1⟩⟩
  acquireInFlight := true
  start := .ok ()
  fetched := 1
  transfer := .moved 100
  poll := .events true false
  syscall := .ok
  resize := .ok ()
  createMessageFromTemplate := fun payload => .ok (true, payload.length)
  encode := .ok .null
  durationMs := 0
  maximumResponseBytes := 100
  writeJson := fun _ => .ok 0

def HelperEnv.calm : HelperEnv where
  transfer := .moved 100
  poll := .events true false
  namesValidate := fun _ => true
  serviceExists := true
  rosOk := true
  waitElapsed := false
  serviceClient := true
  result := .returned true ⟨2, some [5, 6], by simp, some 0⟩

/-- `n` parent steps, then `m` helper steps, on such a machine. -/
def calmly (n m : Nat) : List Action :=
  List.replicate n (.parent .calm) ++ List.replicate m (.helper .calm)

/-! ## Views -/

/-- What the parent's own steps determine. -/
structure ParentView where
  /-- The bytes sent to the helper. -/
  up : Bytes
  /-- The bytes received from the helper. -/
  down : Bytes
  issued : Option Sending
  handed : List Bytes

/-- What the helper's own steps determine. -/
structure HelperView where
  /-- The bytes received from the parent. -/
  up : Bytes
  /-- The bytes sent to the parent. -/
  down : Bytes
  calls : List NativeCall
  results : List CallResult

/-- The effect of a parent step on the parent's view. -/
def ParentView.apply (v : ParentView) (down : ByteStream) : Effect → ParentView
  | .none | .start | .kill => v
  | .issue p => { v with issued := some p }
  | .send bytes => { v with up := v.up ++ bytes }
  | .receive n => { v with down := v.down ++ down.chunk n }
  | .hand payload => { v with handed := v.handed ++ [payload] }

/-- The effect of a helper step on the helper's view. -/
def HelperView.apply (v : HelperView) (up : ByteStream) : HelperEffect → HelperView
  | .none => v
  | .send bytes => { v with down := v.down ++ bytes }
  | .receive n => { v with up := v.up ++ up.chunk n }
  | .enterCall call => { v with calls := v.calls ++ [call] }
  | .leaveCall result => { v with results := v.results ++ [result] }

namespace System

def parentView (s : System) : ParentView := ⟨s.up.sent, s.down.delivered, s.issued, s.handed⟩

def helperView (s : System) : HelperView := ⟨s.up.delivered, s.down.sent, s.calls, s.results⟩

@[simp] theorem helperView_apply (s : System) (e : Effect) :
    (s.apply e).helperView = s.helperView := by
  cases e <;> simp [apply, helperView]

@[simp] theorem parentView_applyHelper (s : System) (e : HelperEffect) :
    (s.applyHelper e).parentView = s.parentView := by
  cases e <;> simp [applyHelper, parentView]

@[simp] theorem parentView_apply (s : System) (e : Effect) :
    (s.apply e).parentView = s.parentView.apply s.down e := by
  cases e <;> simp [apply, parentView, ParentView.apply]

@[simp] theorem helperView_applyHelper (s : System) (e : HelperEffect) :
    (s.applyHelper e).helperView = s.helperView.apply s.up e := by
  cases e <;> simp [applyHelper, helperView, HelperView.apply]

end System

end Ros1Tools.Service
