import Ros1Tools.Service.Advance
import Ros1Tools.Service.System

/-!
# Calls in flight

Any number of `ServiceInvoker::call` invocations over one `in_flight_` counter.  Each is the
parent's program with the three places written out that the counter is touched in: the load and
the compare-exchange of `acquireInFlight`, and the subtraction in the destructor of the permit.
A local test is part of the step that read what it tests.

The bytes a call receives are answers here, and so is the death of a helper.  What the system
knows of a helper is whether it is a child that was not waited for.  `waitpid` fails only if
there is no such child.

An exception may also leave `call` wherever the program allocates.  The destructors then run as
for any other: the helper is killed and reaped, and after it the permit is returned.
-/

namespace Ros1Tools.Service

open Lib

/-! ## One call -/

/-- What the kernel knows of the helper of a call. -/
inductive Child where
  | none
  | running
  /-- A zombie. -/
  | exited
  | reaped
deriving DecidableEq, Repr

namespace Child

/-- Spawned and not yet reaped. -/
def unreaped : Child → Bool
  | .running | .exited => true
  | .none | .reaped => false

def exit : Child → Child
  | .running => .exited
  | child => child

/-- `waitpid` returns. -/
def wait : Child → Child
  | .exited => .reaped
  | child => child

def apply : Effect → Child → Child
  | .start, _ => .running
  | .kill, child => child.exit
  | _, child => child

end Child

structure InFlightCall where
  parent : Parent
  /-- `current` of `acquireInFlight`, once it is loaded. -/
  current : Option UInt32
  /-- The permit is constructed and not yet destroyed. -/
  permit : Bool
  child : Child

/-- What a turn of `acquireInFlight` comes to. -/
inductive Acquisition where
  | refused
  | retry (current : UInt32)
  | acquired (state : UInt32)

/-- The test at the head of the loop, of a value that was just read. -/
def Acquisition.test (maximum current : UInt32) : Acquisition :=
  if current ≥ maximum then .refused else .retry current

/-- A turn of `acquireInFlight`: the load, or a compare-exchange, which may fail for no reason
and then reads the counter again. -/
def acquireInFlight (maximum state : UInt32) (spurious : Bool) : Option UInt32 → Acquisition
  | none => .test maximum state
  | some current =>
      if state = current ∧ spurious = false then .acquired (current + 1)
      else .test maximum state

/-- What one step may ask for. -/
structure CallAnswers where
  env : Env
  down : ByteStream
  /-- The compare-exchange fails although the counter has the expected value. -/
  spurious : Bool

namespace InFlightCall

/-- A call that is about to begin. -/
def init : InFlightCall := ⟨.enter, none, false, .none⟩

/-- A step of the parent that does not touch the counter. -/
def proceed (c : InFlightCall) (env : Env) (down : ByteStream) : InFlightCall :=
  let next := c.parent.step env down (c.child == .exited)
  { c with parent := next.1, child := c.child.apply next.2 }

/-- `waitpid`, and what follows it. -/
def reap (c : InFlightCall) (env : Env) (down : ByteStream) : InFlightCall :=
  match env.syscall with
  | .failed => if c.child.unreaped then c else c.proceed env down
  | .ok => { c.proceed env down with child := c.child.wait }
  | .interrupted => c.proceed env down

/-- A step of one call, with the counter it finds. -/
def step (maximum inFlight : UInt32) (answers : CallAnswers) (c : InFlightCall) :
    InFlightCall × UInt32 :=
  match c.parent with
  | .acquire _ =>
      match acquireInFlight maximum inFlight answers.spurious c.current with
      | .refused =>
          ({ c.proceed { answers.env with acquireInFlight := false } answers.down with
              current := none }, inFlight)
      | .retry current => ({ c with current := some current }, inFlight)
      | .acquired state =>
          ({ c.proceed { answers.env with acquireInFlight := true } answers.down with
              current := none, permit := true }, state)
  | .reap _ => (c.reap answers.env answers.down, inFlight)
  | .ended _ =>
      -- `fetch_sub` in the destructor of the permit.
      if c.permit then ({ c with permit := false }, inFlight - 1)
      else (c.proceed answers.env answers.down, inFlight)
  | _ => (c.proceed answers.env answers.down, inFlight)

/-- An exception leaves the place the call is at, if one can: not from within the atomic
operations, and not from a destructor. -/
def raise (c : InFlightCall) (exception : Exn) : InFlightCall :=
  match c.parent with
  | .call _ | .prepared .. | .start _ | .decode .. => { c with parent := .throw exception }
  | .nextRequestId _ | .send .. | .readReady .. | .ready _ | .readResponse .. | .readPayload .. =>
      { c with parent := .terminate (.throw exception) }
  | _ => c

/-- `ServiceInvoker::call` is entered and has not returned. -/
def active (c : InFlightCall) : Bool :=
  match c.parent with
  | .enter | .invocation | .reported _ | .escaped => false
  | .ended _ => c.permit
  | _ => true

end InFlightCall

/-! ## All calls -/

structure Invoker where
  maximumInFlight : UInt32
  /-- `in_flight_`. -/
  inFlight : UInt32
  /-- Every call so far. -/
  calls : List InFlightCall

inductive InvokerAction where
  /-- Another call begins. -/
  | submit
  /-- Call number `i` takes a step. -/
  | move (i : Nat) (answers : CallAnswers)
  /-- An exception is thrown in call number `i`. -/
  | raise (i : Nat) (exception : Exn)
  /-- The helper of call number `i` exits. -/
  | exit (i : Nat)
  /-- The helper of call number `i` is reaped by someone else. -/
  | wait (i : Nat)

namespace Invoker

def init (maximumInFlight : UInt32) : Invoker := ⟨maximumInFlight, 0, []⟩

/-- Call number `i` becomes another one. -/
def edit (s : Invoker) (i : Nat) (f : InFlightCall → InFlightCall × UInt32) : Invoker :=
  match s.calls[i]? with
  | none => s
  | some c => { s with inFlight := (f c).2, calls := s.calls.set i (f c).1 }

def step (s : Invoker) : InvokerAction → Invoker
  | .submit => { s with calls := s.calls ++ [.init] }
  | .move i answers => s.edit i (·.step s.maximumInFlight s.inFlight answers)
  | .raise i exception => s.edit i fun c => (c.raise exception, s.inFlight)
  | .exit i => s.edit i fun c => ({ c with child := c.child.exit }, s.inFlight)
  | .wait i => s.edit i fun c => ({ c with child := c.child.wait }, s.inFlight)

/-- The number of calls that hold a permit. -/
def permits (s : Invoker) : Nat := s.calls.countP (·.permit)

/-- The number of helpers that are spawned and not yet reaped. -/
def helpers (s : Invoker) : Nat := s.calls.countP (·.child.unreaped)

end Invoker

/-! ## One step -/

/-- Where a permit is held, and where there is no helper. -/
def Stage.Allows : Stage → Bool → Child → Prop
  | .preparing, permit, child | .returned, permit, child =>
      permit = false ∧ child.unreaped = false
  | .starting, permit, child | .decoding, permit, child => permit = true ∧ child.unreaped = false
  | .issuing, permit, _ | .helping, permit, _ => permit = true
  | .ended, _, child => child.unreaped = false

/-- What is known of a call: its permit and helper fit its stage, and the value it has loaded
was below the limit. -/
structure InFlightCall.Inv (maximum : UInt32) (c : InFlightCall) : Prop where
  allows : c.parent.stage.Allows c.permit c.child
  below : ∀ current, c.current = some current → current < maximum

/-- What a step does to the counter is what it does to the permit. -/
inductive Settles (maximum inFlight : UInt32) (c : InFlightCall) : InFlightCall × UInt32 → Prop
  | same {c' : InFlightCall} (h : c'.permit = c.permit) : Settles maximum inFlight c (c', inFlight)
  | acquire {c' : InFlightCall} (h : c.permit = false) (h' : c'.permit = true)
      (hlt : inFlight < maximum) : Settles maximum inFlight c (c', inFlight + 1)
  | release {c' : InFlightCall} (h : c.permit = true) (h' : c'.permit = false) :
      Settles maximum inFlight c (c', inFlight - 1)

namespace Child

theorem unreaped_exit (child : Child) : child.exit.unreaped = child.unreaped := by
  cases child <;> rfl

theorem unreaped_wait {child : Child} (h : child.unreaped = false) :
    child.wait.unreaped = false := by
  cases child with
  | none | reaped => rfl
  | running | exited => cases h

theorem unreaped_apply {e : Effect} (he : e.silent) (child : Child) :
    (child.apply e).unreaped = child.unreaped := by
  cases e with
  | kill => exact child.unreaped_exit
  | start => exact he.elim
  | none | issue | send | receive | hand => rfl

end Child

/-- A permit and a helper that fit a stage still do if the helper is only exited or reaped. -/
theorem Stage.Allows.child {stage : Stage} {permit : Bool} {child child' : Child}
    (h : stage.Allows permit child) (hchild : child.unreaped = false → child'.unreaped = false) :
    stage.Allows permit child' := by
  cases stage with
  | preparing | returned | starting | decoding => exact ⟨h.1, hchild h.2⟩
  | issuing | helping => exact h
  | ended => exact hchild h

/-- Every stage but two says that there is no helper left. -/
theorem Stage.Allows.permit_of_unreaped {stage : Stage} {permit : Bool} {child : Child}
    (h : stage.Allows permit child) (hchild : child.unreaped = true) : permit = true := by
  cases stage with
  | preparing | returned | starting | decoding => exact absurd (h.2.symm.trans hchild) (by decide)
  | ended => exact absurd (Eq.trans (Eq.symm h) hchild) (by decide)
  | issuing | helping => exact h

/-- A step outside the three places keeps permit and helper in step with the program. -/
theorem Parent.Advance.allows {env : Env} {parent : Parent} {next : Parent × Effect}
    (hadvance : parent.Advance env next) {permit : Bool} {child : Child}
    (h : parent.stage.Allows permit child) (hacquire : ∀ out, parent ≠ .acquire out)
    (hreap : ∀ next, parent ≠ .reap next)
    (hended : ∀ outcome, parent = .ended outcome → permit = false) :
    next.1.stage.Allows permit (child.apply next.2) := by
  cases hadvance with
  | prepare hstage hnext =>
      rw [hstage] at h
      rw [hnext]
      exact h
  | acquire out => exact absurd rfl (hacquire out)
  | refuse hstage hnext =>
      rw [hstage] at h
      rcases hnext with hnext | hnext
      · rw [hnext]
        exact h.2
      · rw [hnext]
        exact h
  | spawn out => exact h.1
  | spawnFails out e => exact h.2
  | fetchAgain | issue | send => exact h
  | help hstage hnext he =>
      rw [hstage] at h
      rw [hnext]
      exact h
  | resume next => exact absurd rfl (hreap next)
  | decode _ _ _ hnext he =>
      rw [hnext]
      exact (child.unreaped_apply he).trans h.2
  | finish outcome hnext =>
      rw [hnext]
      exact ⟨hended outcome rfl, h⟩
  | idle => exact h

namespace InFlightCall

variable {maximum inFlight : UInt32} {c : InFlightCall}

theorem inv_init : init.Inv maximum where
  allows := ⟨rfl, rfl⟩
  below current h := by cases h

/-- `waitpid` returns to the program once the helper is reaped. -/
theorem allows_reap (env : Env) (down : ByteStream) {next : After} (hparent : c.parent = .reap next)
    (h : c.parent.stage.Allows c.permit c.child) :
    (c.reap env down).parent.stage.Allows c.permit (c.reap env down).child := by
  obtain ⟨parent, current, permit, child⟩ := c
  cases hparent
  -- The program goes on only with a helper that is not there any more.
  have hresume {child : Child} (hchild : child.unreaped = false) :
      (Parent.resume next).stage.Allows permit child := by
    rcases Parent.stage_resume next with hnext | hnext
    · rw [hnext]
      exact ⟨h, hchild⟩
    · rw [hnext]
      exact hchild
  unfold reap proceed
  cases hsyscall : env.syscall with
  | interrupted =>
      simp only [Parent.step, hsyscall]
      exact h
  | failed =>
      cases hchild : child.unreaped with
      | true => exact h
      | false =>
          simp only [Parent.step, hsyscall]
          exact hresume hchild
  | ok =>
      cases child with
      | exited =>
          simp only [Parent.step, hsyscall]
          exact hresume rfl
      | none | running | reaped =>
          simp only [Parent.step, hsyscall]
          exact h

/-- `waitpid` is not about the counter. -/
theorem reap_frame (c : InFlightCall) (env : Env) (down : ByteStream) :
    (c.reap env down).permit = c.permit ∧ (c.reap env down).current = c.current := by
  unfold reap
  split
  · split
    · exact ⟨rfl, rfl⟩
    · exact ⟨rfl, rfl⟩
  · exact ⟨rfl, rfl⟩
  · exact ⟨rfl, rfl⟩

theorem raise_frame (c : InFlightCall) (exception : Exn) :
    (c.raise exception).permit = c.permit ∧ (c.raise exception).current = c.current ∧
      (c.raise exception).child = c.child := by
  unfold raise
  split <;> exact ⟨rfl, rfl, rfl⟩

/-- An exception leaves permit and helper where they are. -/
theorem allows_raise (exception : Exn) (h : c.parent.stage.Allows c.permit c.child) :
    (c.raise exception).parent.stage.Allows c.permit c.child := by
  obtain ⟨parent, current, permit, child⟩ := c
  cases parent with
  | call | prepared | start | decode => exact h.2
  | nextRequestId | send | readReady | ready | readResponse | readPayload => exact h
  | enter | invocation | acquire | terminate | reap | ended | reported | escaped => exact h

/-- **A turn of `acquireInFlight`** takes a permit from the value it compared, or decides by the
value it has just read. -/
theorem acquireInFlight_cases (maximum inFlight : UInt32) (spurious : Bool)
    (current : Option UInt32) :
    (acquireInFlight maximum inFlight spurious current = .refused ∧ maximum ≤ inFlight) ∨
    (acquireInFlight maximum inFlight spurious current = .retry inFlight ∧ inFlight < maximum) ∨
    (acquireInFlight maximum inFlight spurious current = .acquired (inFlight + 1) ∧
      current = some inFlight) := by
  have htest : (Acquisition.test maximum inFlight = .refused ∧ maximum ≤ inFlight) ∨
      (Acquisition.test maximum inFlight = .retry inFlight ∧ inFlight < maximum) := by
    by_cases hle : maximum ≤ inFlight
    · exact .inl ⟨if_pos hle, hle⟩
    · exact .inr ⟨if_neg hle, UInt32.not_le.mp hle⟩
  cases current with
  | none => exact htest.imp_right .inl
  | some current =>
      by_cases heq : inFlight = current ∧ spurious = false
      · refine .inr (.inr ⟨?_, congrArg some heq.1.symm⟩)
        rw [acquireInFlight, if_pos heq, heq.1]
      · rw [acquireInFlight, if_neg heq]
        exact htest.imp_right .inl

/-- **A step of a call** keeps what is known of it, and moves the counter with its permit. -/
theorem step_settles (h : c.Inv maximum) (answers : CallAnswers) :
    (c.step maximum inFlight answers).1.Inv maximum ∧
      Settles maximum inFlight c (c.step maximum inFlight answers) := by
  obtain ⟨parent, current, permit, child⟩ := c
  obtain ⟨hallows, hbelow⟩ := h
  have hproceed (hacquire : ∀ out, parent ≠ .acquire out) (hreap : ∀ next, parent ≠ .reap next)
      (hended : ∀ outcome, parent = .ended outcome → permit = false) :
      (proceed ⟨parent, current, permit, child⟩ answers.env answers.down).Inv maximum ∧
        Settles maximum inFlight ⟨parent, current, permit, child⟩
          (proceed ⟨parent, current, permit, child⟩ answers.env answers.down, inFlight) :=
    ⟨⟨(Parent.advance_step _ _ _ parent).allows hallows hacquire hreap hended, hbelow⟩, .same rfl⟩
  cases parent with
  | acquire out =>
      unfold step
      rcases acquireInFlight_cases maximum inFlight answers.spurious current with
        ⟨hturn, -⟩ | ⟨hturn, hlt⟩ | ⟨hturn, hcurrent⟩
      · simp only [hturn]
        exact ⟨⟨hallows.2, fun current h => by cases h⟩, .same rfl⟩
      · simp only [hturn]
        refine ⟨⟨hallows, ?_⟩, .same rfl⟩
        rintro current ⟨⟩
        exact hlt
      · simp only [hturn]
        refine ⟨⟨⟨rfl, hallows.2⟩, fun current h => by cases h⟩, ?_⟩
        exact .acquire hallows.1 rfl (hbelow _ hcurrent)
  | reap next =>
      obtain ⟨hpermit, hcurrent⟩ := reap_frame ⟨.reap next, current, permit, child⟩ answers.env
        answers.down
      refine ⟨⟨?_, ?_⟩, .same hpermit⟩
      · have hreap := allows_reap answers.env answers.down rfl hallows
        rw [← hpermit] at hreap
        exact hreap
      · intro read hread
        exact hbelow read (hcurrent.symm.trans hread)
  | ended outcome =>
      unfold step
      cases permit with
      | true => exact ⟨⟨hallows, hbelow⟩, .release rfl rfl⟩
      | false =>
          exact hproceed (fun _ => nofun) (fun _ => nofun) (fun _ _ => rfl)
  | enter | invocation | call | prepared | start | nextRequestId | send | readReady | ready
  | readResponse | readPayload | terminate | decode | reported | escaped =>
      exact hproceed (fun _ => nofun) (fun _ => nofun) (fun _ => nofun)

end InFlightCall

/-! ## All steps -/

/-- Counting after one element has changed. -/
theorem countP_set_add {α : Type} {p : α → Bool} {l : List α} {i : Nat} {a b : α}
    (h : l[i]? = some a) :
    (l.set i b).countP p + (if p a then 1 else 0) = l.countP p + if p b then 1 else 0 := by
  induction l generalizing i with
  | nil => cases h
  | cons x l ih =>
      cases i with
      | zero =>
          cases h
          rw [List.set_cons_zero, List.countP_cons, List.countP_cons]
          omega
      | succ i =>
          rw [List.getElem?_cons_succ] at h
          rw [List.set_cons_succ, List.countP_cons, List.countP_cons, Nat.add_right_comm, ih h,
            Nat.add_right_comm]

namespace Invoker

/-- The invariant of all calls. -/
structure Inv (s : Invoker) : Prop where
  counter : s.inFlight.toNat = s.permits
  le : s.inFlight ≤ s.maximumInFlight
  calls : ∀ c ∈ s.calls, c.Inv s.maximumInFlight

variable {s : Invoker}

theorem inv_init (maximumInFlight : UInt32) : (init maximumInFlight).Inv where
  counter := rfl
  le := UInt32.zero_le
  calls c hc := by cases hc

/-- A call that changes as its permit and the counter do. -/
theorem Inv.set (h : s.Inv) {i : Nat} {c : InFlightCall} (hc : s.calls[i]? = some c)
    {next : InFlightCall × UInt32} (hinv : next.1.Inv s.maximumInFlight)
    (hsettles : Settles s.maximumInFlight s.inFlight c next) :
    ({ s with inFlight := next.2, calls := s.calls.set i next.1 } : Invoker).Inv := by
  have hcalls : ∀ c' ∈ s.calls.set i next.1, c'.Inv s.maximumInFlight := by
    intro c' hc'
    rcases List.mem_or_eq_of_mem_set hc' with hmem | rfl
    · exact h.calls c' hmem
    · exact hinv
  have hcount := countP_set_add (p := (·.permit)) (b := next.1) hc
  rw [show s.calls.countP (·.permit) = s.inFlight.toNat from h.counter.symm] at hcount
  cases hsettles with
  | same hpermit =>
      refine ⟨?_, h.le, hcalls⟩
      rw [hpermit] at hcount
      exact (Nat.add_right_cancel hcount).symm
  | acquire hbefore hafter hlt =>
      have hroom : s.inFlight.toNat + 1 ≤ s.maximumInFlight.toNat :=
        UInt32.lt_iff_toNat_lt.mp hlt
      have hnext : (s.inFlight + 1).toNat = s.inFlight.toNat + 1 := by
        rw [UInt32.toNat_add]
        exact Nat.mod_eq_of_lt (lt_of_le_of_lt hroom s.maximumInFlight.toNat_lt)
      rw [hbefore, hafter] at hcount
      refine ⟨hnext.trans hcount.symm, UInt32.le_iff_toNat_le.mpr ?_, hcalls⟩
      exact hnext.le.trans hroom
  | release hbefore hafter =>
      rw [hbefore, hafter] at hcount
      -- The call itself holds one of the permits that were counted.
      have hone : (1 : UInt32) ≤ s.inFlight :=
        UInt32.le_iff_toNat_le.mpr ((Nat.le_add_left 1 _).trans hcount.le)
      have hnext : (s.inFlight - 1).toNat + 1 = s.inFlight.toNat := by
        rw [UInt32.toNat_sub_of_le _ _ hone]
        exact Nat.sub_add_cancel (UInt32.le_iff_toNat_le.mp hone)
      refine ⟨Nat.add_right_cancel (hnext.trans hcount.symm), ?_, hcalls⟩
      exact UInt32.le_iff_toNat_le.mpr
        ((Nat.le_of_succ_le hnext.le).trans (UInt32.le_iff_toNat_le.mp h.le))

theorem Inv.edit (h : s.Inv) (i : Nat) {f : InFlightCall → InFlightCall × UInt32}
    (hf : ∀ c, c.Inv s.maximumInFlight → (f c).1.Inv s.maximumInFlight ∧
      Settles s.maximumInFlight s.inFlight c (f c)) : (s.edit i f).Inv := by
  unfold Invoker.edit
  split
  · exact h
  · rename_i c hc
    obtain ⟨hinv, hsettles⟩ := hf c (h.calls c (List.mem_of_getElem? hc))
    exact h.set hc hinv hsettles

/-- **Every step keeps the invariant.** -/
theorem inv_step (s : Invoker) (a : InvokerAction) (h : s.Inv) : (s.step a).Inv := by
  cases a with
  | submit =>
      have hpermits : (s.step .submit).permits = s.permits := by
        rw [step, permits, List.countP_append]
        rfl
      refine ⟨h.counter.trans hpermits.symm, h.le, fun c hc => ?_⟩
      rcases List.mem_append.mp hc with hc | hc
      · exact h.calls c hc
      · cases List.mem_singleton.mp hc
        exact InFlightCall.inv_init
  | move i answers => exact h.edit i fun c hc => InFlightCall.step_settles hc answers
  | raise i exception =>
      refine h.edit i fun c hc => ?_
      obtain ⟨hpermit, hcurrent, hchild⟩ := c.raise_frame exception
      have hallows := InFlightCall.allows_raise exception hc.allows
      rw [← hpermit, ← hchild] at hallows
      exact ⟨⟨hallows, fun read hread => hc.below read (hcurrent.symm.trans hread)⟩, .same hpermit⟩
  | exit i =>
      refine h.edit i fun c hc => ⟨⟨hc.allows.child fun hchild => ?_, hc.below⟩, .same rfl⟩
      exact c.child.unreaped_exit.trans hchild
  | wait i =>
      exact h.edit i fun c hc => ⟨⟨hc.allows.child Child.unreaped_wait, hc.below⟩, .same rfl⟩

theorem inv_run (maximumInFlight : UInt32) (is : List InvokerAction) :
    (run step (init maximumInFlight) is).Inv :=
  run_invariant inv_step (inv_init maximumInFlight) is

/-- A helper that is not reaped is counted by the permit of its call. -/
theorem Inv.helpers_le (h : s.Inv) : s.helpers ≤ s.permits := by
  refine List.countP_mono_left fun c hc hchild => ?_
  exact (h.calls c hc).allows.permit_of_unreaped hchild

/-- A call that is not active holds no permit. -/
theorem permit_of_not_active {maximum : UInt32} {c : InFlightCall} (h : c.Inv maximum)
    (hactive : c.active = false) : c.permit = false := by
  obtain ⟨parent, current, permit, child⟩ := c
  cases parent with
  | enter | invocation | reported | escaped => exact h.allows.1
  | ended => exact hactive
  | _ => cases hactive

theorem Inv.inFlight_eq_zero (h : s.Inv) (hidle : ∀ c ∈ s.calls, c.active = false) :
    s.inFlight = 0 := by
  refine UInt32.toNat_inj.mp (h.counter.trans (List.countP_eq_zero.mpr fun c hc => ?_))
  rw [permit_of_not_active (h.calls c hc) (hidle c hc)]
  exact Bool.false_ne_true

/-- A call that ends where it asks for a permit was refused, by the value it read. -/
theorem refused_of_step {maximum inFlight : UInt32} {c : InFlightCall} {answers : CallAnswers}
    {out : Outgoing} {e : Exn} (hparent : c.parent = .acquire out)
    (hnext : (c.step maximum inFlight answers).1.parent = .ended (.error e)) :
    maximum ≤ inFlight ∧ e = resourceExhaustedError "service_call_busy"
      "maximum concurrent ROS1 service calls reached" := by
  obtain ⟨parent, current, permit, child⟩ := c
  cases hparent
  unfold InFlightCall.step at hnext
  rcases InFlightCall.acquireInFlight_cases maximum inFlight answers.spurious current with
    ⟨hturn, hle⟩ | ⟨hturn, -⟩ | ⟨hturn, -⟩
  · simp only [hturn] at hnext
    cases hnext
    exact ⟨hle, rfl⟩
  · simp only [hturn] at hnext
    cases hnext
  · simp only [hturn] at hnext
    cases hnext

theorem getElem?_edit {i j : Nat} {f : InFlightCall → InFlightCall × UInt32} {c c' : InFlightCall}
    (hc : s.calls[i]? = some c) (hc' : (s.edit j f).calls[i]? = some c') :
    c' = c ∨ c' = (f c).1 := by
  unfold Invoker.edit at hc'
  split at hc'
  · exact .inl (Option.some.inj (hc'.symm.trans hc))
  · rename_i d hd
    by_cases hij : j = i
    · subst hij
      cases hd.symm.trans hc
      rw [List.getElem?_set_self (List.getElem?_eq_some_iff.mp hc).1] at hc'
      exact .inr (Option.some.inj hc').symm
    · rw [List.getElem?_set_ne hij] at hc'
      exact .inl (Option.some.inj (hc'.symm.trans hc))

theorem maximumInFlight_step (s : Invoker) (a : InvokerAction) :
    (s.step a).maximumInFlight = s.maximumInFlight := by
  have hedit (i : Nat) (f : InFlightCall → InFlightCall × UInt32) :
      (s.edit i f).maximumInFlight = s.maximumInFlight := by
    unfold Invoker.edit
    split <;> rfl
  cases a with
  | submit => rfl
  | move | raise | exit | wait => exact hedit _ _

theorem maximumInFlight_run (s : Invoker) (is : List InvokerAction) :
    (run step s is).maximumInFlight = s.maximumInFlight := by
  induction is generalizing s with
  | nil => rfl
  | cons a is ih => exact (ih _).trans (maximumInFlight_step s a)

/-- A step moves the counter by one at most. -/
theorem permits_step_le (s : Invoker) (a : InvokerAction) :
    (s.step a).permits ≤ s.permits + 1 ∧ s.permits ≤ (s.step a).permits + 1 := by
  have hedit (i : Nat) (f : InFlightCall → InFlightCall × UInt32) :
      (s.edit i f).permits ≤ s.permits + 1 ∧ s.permits ≤ (s.edit i f).permits + 1 := by
    unfold Invoker.edit
    split
    · omega
    · rename_i c hc
      have hcount := countP_set_add (p := (·.permit)) (b := (f c).1) hc
      simp only [permits]
      split at hcount <;> split at hcount <;> omega
  cases a with
  | submit =>
      simp only [step, permits, List.countP_append, List.countP_singleton]
      exact ⟨Nat.add_le_add_left (by split <;> decide) _, by omega⟩
  | move | raise | exit | wait => exact hedit _ _

/-! ## Bounded helpers -/

/-- **Bounded helper processes.**  However the steps of any number of calls interleave, whatever
they are answered and wherever an exception leaves them:

* the counter is the number of calls that hold a permit, is within the limit, and moves by one
  at a time, so that it never wraps;
* there are no more helpers that are spawned and not yet reaped than the counter says;
* the counter is zero when no call is active;
* a call that is refused was refused in a step that read the counter at its limit. -/
theorem helpers_bounded (maximumInFlight : UInt32) (is : List InvokerAction) :
    let s := run step (init maximumInFlight) is
    s.inFlight.toNat = s.permits ∧ s.inFlight ≤ maximumInFlight ∧
      s.helpers ≤ s.inFlight.toNat ∧
      ((∀ c ∈ s.calls, c.active = false) → s.inFlight = 0) ∧
      ∀ a : InvokerAction,
        ((s.step a).inFlight.toNat ≤ s.inFlight.toNat + 1 ∧
          s.inFlight.toNat ≤ (s.step a).inFlight.toNat + 1) ∧
        ∀ (i : Nat) (c c' : InFlightCall) (out : Outgoing) (e : Exn),
          s.calls[i]? = some c → c.parent = .acquire out →
          (s.step a).calls[i]? = some c' → c'.parent = .ended (.error e) →
            s.inFlight = maximumInFlight ∧
              e = resourceExhaustedError "service_call_busy"
                "maximum concurrent ROS1 service calls reached" := by
  intro s
  have h : s.Inv := inv_run maximumInFlight is
  have hmaximum : s.maximumInFlight = maximumInFlight := maximumInFlight_run _ is
  have hle := h.le
  rw [hmaximum] at hle
  refine ⟨h.counter, hle, h.counter ▸ h.helpers_le, h.inFlight_eq_zero, fun a => ⟨?_, ?_⟩⟩
  · rw [h.counter, (inv_step s a h).counter]
    exact permits_step_le s a
  · intro i c c' out e hc hparent hc' hended
    -- Only a step of the call itself takes it from there to its end.
    have hne {d : InFlightCall} (hd : d.parent = .acquire out) : c' ≠ d := by
      rintro rfl
      cases hd.symm.trans hended
    cases a with
    | submit =>
        have hlt := (List.getElem?_eq_some_iff.mp hc).1
        rw [step, List.getElem?_append_left hlt] at hc'
        exact absurd (Option.some.inj (hc'.symm.trans hc)) (hne hparent)
    | move j answers =>
        rcases getElem?_edit hc hc' with rfl | rfl
        · exact absurd rfl (hne hparent)
        · obtain ⟨hrefused, he⟩ := refused_of_step hparent hended
          rw [hmaximum] at hrefused
          exact ⟨UInt32.le_antisymm hle hrefused, he⟩
    | raise j exception =>
        rcases getElem?_edit hc hc' with rfl | rfl
        · exact absurd rfl (hne hparent)
        · refine absurd rfl (hne ?_)
          unfold InFlightCall.raise
          simp only [hparent]
    | exit j =>
        rcases getElem?_edit hc hc' with rfl | rfl
        · exact absurd rfl (hne hparent)
        · exact absurd rfl (hne hparent)
    | wait j =>
        rcases getElem?_edit hc hc' with rfl | rfl
        · exact absurd rfl (hne hparent)
        · exact absurd rfl (hne hparent)

/-- With room for one call, a second one is refused while the first has its helper. -/
example :
    let calm : CallAnswers := ⟨.calm, .empty, false⟩
    let s := run step (init 1) ([.submit, .submit] ++ List.replicate 7 (.move 0 calm) ++
      List.replicate 5 (.move 1 calm))
    s.inFlight = 1 ∧ s.helpers = 1 ∧ s.calls.map (·.active) = [true, false] := by
  decide +kernel

end Invoker

end Ros1Tools.Service
