import Ros1Tools.Lib.Machine
import Ros1Tools.Service.Invoker

/-!
# Deadlines and waiting

The deadline of a call arrives as a point of the system clock and is waited for on the steady
clock.  `runtimeDeadline` converts it, and saturates where the steady clock cannot reach it.
The loops that wait for the helper look at the cancellation flag once a round, so how long a
cancellation goes unnoticed is how long one round polls.

The parent of `Service.Invoker` takes the answers of the clocks as given.  Here they are
computed from clock readings: `waitRound_turn` and `postCommitRound_turn` say that a round of
a loop below is a turn of the parent that is given these answers.
-/

namespace Ros1Tools.Service

open Lib

/-- Nanoseconds since the epoch of a clock. -/
abbrev Time : Type := Word .int64

namespace Time

/-- `time_point::max()`. -/
def max : Time := Word.max .int64

@[simp] theorem max_val : max.val = 9223372036854775807 := rfl

end Time

/-! ## Clocks -/

/-- `deadlineExpired`. -/
def deadlineExpired (deadlineUnixNanos systemNow : Time) : Bool :=
  if deadlineUnixNanos.val ≤ 0 then false else decide (deadlineUnixNanos ≤ systemNow)

/-- `runtimeDeadline`. -/
def runtimeDeadline (deadlineUnixNanos systemNow steadyNow : Time) : Arith Time :=
  if deadlineUnixNanos.val ≤ 0 then pure Time.max
  else if deadlineUnixNanos ≤ systemNow then pure steadyNow
  else do
    let remaining ← Arith.sub deadlineUnixNanos systemNow
    let maximumRemaining ← Arith.sub Time.max steadyNow
    if maximumRemaining ≤ remaining then return Time.max
    Arith.add steadyNow remaining

/-- `kCancellationPollInterval`, in milliseconds. -/
def cancellationPollInterval : Int := 5

/-- `pollTimeout`, in milliseconds.  The conversion to milliseconds drops the rest, towards
zero. -/
def pollTimeout (deadline now : Time) : Arith Int :=
  if deadline = Time.max then pure cancellationPollInterval
  else if deadline ≤ now then pure 0
  else do
    let difference ← Arith.sub deadline now
    let remaining := difference.val.tdiv 1000000
    return max 1 (min cancellationPollInterval (remaining + 1))

section

variable {deadlineUnixNanos systemNow steadyNow deadline now : Time}

/-- A poll never waits longer than the interval. -/
theorem pollTimeout_le : (pollTimeout deadline now).value ≤ cancellationPollInterval := by
  unfold pollTimeout
  split_ifs
  · exact le_refl _
  · decide
  · exact max_le (by decide) (min_le_left _ _)

end

/-! ## Rounds -/

/-- What the outside answers in one round of a loop.  The reading of the steady clock that the
timeout is computed from is a later one. -/
structure Round where
  cancellationRequested : Bool
  systemNow : Time
  steadyNow : Time
  /-- The answer of `recv`, for the loop that calls it. -/
  transfer : Transfer
  pollNow : Time
  poll : Poll

/-- The calls of a loop that concern its pace. -/
inductive Call where
  | cancellationRequested
  | poll (now : Time) (timeout : Int)
deriving DecidableEq

/-- What a round makes of its answers: `none` goes round again. -/
abbrev Verdict (ρ : Type) : Type := Option (ρ × String)

/-- The verdict on a `poll` whose requested events make `ready` of it. -/
def Poll.verdict {ρ : Type} (transportError : ρ) (ready : Verdict ρ) : Poll → Verdict ρ
  | .interrupted | .timeout => none
  | .failed reason => some (transportError, reason)
  | .events requested hangup =>
      if requested then ready
      else if hangup then some (transportError, "service helper disconnected")
      else none

/-- A poll until a deadline. -/
def Round.pollUntil (round : Round) (deadline : Time) : Call :=
  .poll round.pollNow (pollTimeout deadline round.pollNow).value

/-- One round of `waitPreCommitEvent`. -/
def waitRound (deadlineUnixNanos deadline : Time) (round : Round) :
    List Call × Verdict PreCommitIoResult :=
  if round.cancellationRequested then ([.cancellationRequested], some (.cancelled, ""))
  else if deadlineExpired deadlineUnixNanos round.systemNow || decide (deadline ≤ round.steadyNow)
  then ([.cancellationRequested], some (.deadline, ""))
  else
    ([.cancellationRequested, round.pollUntil deadline],
      round.poll.verdict .transportError (some (.complete, "")))

/-- The checks at the head of `readPostCommit`'s loop, repeated after it. -/
def postCommitChecks (deadlineUnixNanos runtimeDeadline callDeadline : Time) (round : Round) :
    PostCommitIoResult :=
  if round.cancellationRequested then .cancelled
  else if deadlineExpired deadlineUnixNanos round.systemNow ||
      decide (runtimeDeadline ≤ round.steadyNow) then .runtimeDeadline
  else if callDeadline ≤ round.steadyNow then .callTimeout
  else .complete

/-- `effective_deadline`. -/
def effectiveDeadline (runtimeDeadline callDeadline : Time) : Time :=
  if callDeadline < runtimeDeadline then callDeadline else runtimeDeadline

/-- One round of `readPostCommit`'s loop with `size` bytes to read, and how many there are to
read after it. -/
def postCommitRound (deadlineUnixNanos runtimeDeadline callDeadline : Time) (size : Nat)
    (round : Round) : List Call × Nat × Verdict PostCommitIoResult :=
  match postCommitChecks deadlineUnixNanos runtimeDeadline callDeadline round with
  | .complete =>
      match round.transfer with
      | .moved n => ([.cancellationRequested], size - (n + 1), none)
      | .closed => ([.cancellationRequested], size,
          some (.transportError, "service helper disconnected"))
      | .interrupted => ([.cancellationRequested], size, none)
      | .failed reason => ([.cancellationRequested], size, some (.transportError, reason))
      | .wouldBlock =>
          ([.cancellationRequested,
              round.pollUntil (effectiveDeadline runtimeDeadline callDeadline)],
            size, round.poll.verdict .transportError none)
  | result => ([.cancellationRequested], size, some (result, ""))

/-- An environment of the parent whose answers are those of a round. -/
def Round.env (round : Round) (deadlineUnixNanos runtimeDeadline callDeadline : Time) (env : Env) :
    Env :=
  { env with
    cancellationRequested := round.cancellationRequested
    deadlineExpired := deadlineExpired deadlineUnixNanos round.systemNow
    runtimeDeadlinePassed := decide (runtimeDeadline ≤ round.steadyNow)
    callDeadlinePassed := decide (callDeadline ≤ round.steadyNow)
    transfer := round.transfer
    poll := round.poll }

/-- How the loop around `waitPreCommitEvent` goes on after one of its rounds. -/
def waitTurn : Verdict PreCommitIoResult → Turn PreCommitIoResult
  | none => .again true
  | some (.complete, _) => .again false
  | some (result, transportError) => .fail result transportError

/-- The verdict of a turn that neither transfers nor waits. -/
def Turn.verdict {ρ : Type} : Turn ρ → Verdict ρ
  | .fail result transportError => some (result, transportError)
  | .moved _ | .again _ => none

section

variable (deadlineUnixNanos runtimeDeadline callDeadline : Time) (round : Round) (env : Env)

theorem waitRound_turn (closed : String) :
    preCommitTurn closed (round.env deadlineUnixNanos runtimeDeadline callDeadline env) true =
      waitTurn (waitRound deadlineUnixNanos runtimeDeadline round).2 := by
  unfold preCommitTurn waitRound Round.env
  simp only [if_true]
  split_ifs
  · rfl
  · rfl
  · cases round.poll with
    | interrupted => rfl
    | failed reason => rfl
    | timeout => rfl
    | events requested hangup => cases requested <;> cases hangup <;> rfl

theorem postCommitChecks_eq :
    postCommitCheck (round.env deadlineUnixNanos runtimeDeadline callDeadline env) =
      postCommitChecks deadlineUnixNanos runtimeDeadline callDeadline round := by
  simp only [postCommitCheck, postCommitChecks, Round.env, decide_eq_true_eq]

/-- The parent waits in a turn of its own. -/
theorem postCommitRound_turn (size : Nat) :
    (postCommitRound deadlineUnixNanos runtimeDeadline callDeadline size round).2.2 =
      match readPostCommit (round.env deadlineUnixNanos runtimeDeadline callDeadline env) false with
      | .again true =>
          (readPostCommit (round.env deadlineUnixNanos runtimeDeadline callDeadline env)
            true).verdict
      | turn => turn.verdict := by
  unfold postCommitRound readPostCommit
  rw [postCommitChecks_eq]
  cases postCommitChecks deadlineUnixNanos runtimeDeadline callDeadline round with
  | complete =>
      cases htransfer : round.transfer with
      | wouldBlock =>
          cases hpoll : round.poll with
          | events requested hangup =>
              cases requested <;> cases hangup <;> simp [Round.env, htransfer, hpoll, Poll.verdict,
                Turn.verdict]
          | _ => simp [Round.env, htransfer, hpoll, Poll.verdict, Turn.verdict]
      | _ => simp [Round.env, htransfer, Turn.verdict]
  | _ => rfl

end

/-! ## The pace of the loops -/

/-- Every poll comes right after a look at the cancellation flag, and waits for a deadline. -/
inductive Paced (deadline : Time) : List Call → Prop
  | nil : Paced deadline []
  | look {calls : List Call} (h : Paced deadline calls) :
      Paced deadline (.cancellationRequested :: calls)
  | poll (now : Time) {calls : List Call} (h : Paced deadline calls) :
      Paced deadline (.cancellationRequested :: .poll now (pollTimeout deadline now).value :: calls)

/-- How long a call waits, at most. -/
def Call.timeout : Call → Int
  | .cancellationRequested => 0
  | .poll _ timeout => timeout

namespace Paced

variable {deadline : Time} {calls later segment : List Call}

theorem append (h : Paced deadline calls) (hlater : Paced deadline later) :
    Paced deadline (calls ++ later) := by
  induction h with
  | nil => exact hlater
  | look _ ih => exact ih.look
  | poll now _ ih => exact ih.poll now

/-- Without a look at the flag there is nothing to do. -/
theorem eq_nil_of_not_look (h : Paced deadline calls) (hsegment : segment <+: calls)
    (hlook : Call.cancellationRequested ∉ segment) : segment = [] := by
  cases segment with
  | nil => rfl
  | cons call segment =>
      exfalso
      apply hlook
      cases h with
      | nil => exact absurd (List.prefix_nil.mp hsegment) (List.cons_ne_nil _ _)
      | look _ => exact (List.cons_prefix_cons.mp hsegment).1 ▸ List.mem_cons_self
      | poll _ _ => exact (List.cons_prefix_cons.mp hsegment).1 ▸ List.mem_cons_self

/-- **Between two looks at the flag a loop waits for one interval at most.** -/
theorem wait_le (h : Paced deadline calls) (hsegment : segment <:+: calls)
    (hlook : Call.cancellationRequested ∉ segment) :
    (segment.map Call.timeout).sum ≤ cancellationPollInterval := by
  have hnil : (([] : List Call).map Call.timeout).sum ≤ cancellationPollInterval := by decide
  induction h with
  | nil => rw [List.infix_nil.mp hsegment]; exact hnil
  | look h ih =>
      rcases List.infix_cons_iff.mp hsegment with hhead | htail
      · rw [h.look.eq_nil_of_not_look hhead hlook]
        exact hnil
      · exact ih htail
  | poll now h ih =>
      rcases List.infix_cons_iff.mp hsegment with hhead | htail
      · rw [(h.poll now).eq_nil_of_not_look hhead hlook]
        exact hnil
      · rcases List.infix_cons_iff.mp htail with hhead | htail
        · cases segment with
          | nil => exact hnil
          | cons call segment =>
              obtain ⟨rfl, hrest⟩ := List.cons_prefix_cons.mp hhead
              rw [h.eq_nil_of_not_look hrest (fun hmem => hlook (List.mem_cons_of_mem _ hmem))]
              exact le_of_eq_of_le (add_zero _) pollTimeout_le
        · exact ih htail

end Paced

/-- A loop that notices a cancellation within an interval, and does not spin before its
deadline. -/
structure Prompt (deadline : Time) (calls : List Call) : Prop where
  paced : Paced deadline calls
  wait_le : ∀ segment, segment <:+: calls → Call.cancellationRequested ∉ segment →
      (segment.map Call.timeout).sum ≤ cancellationPollInterval
  spins : ∀ now, Call.poll now 0 ∈ calls → deadline ≠ Time.max ∧ deadline ≤ now

end Ros1Tools.Service
