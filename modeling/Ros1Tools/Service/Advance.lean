import Ros1Tools.Lib.Except
import Ros1Tools.Service.Invoker

/-!
# What a step of the parent can do

`Parent.step` has one case for each interaction with the outside.  Most arguments need to know
much less: which part of `call` the parent is in, whether a helper is started, and what becomes
of the request.  `Parent.Advance` says just that, once.
-/

namespace Ros1Tools.Service

open Lib

/-- The parts of an operation, by what is alive in them. -/
inductive Stage where
  /-- Before the in-flight limit. -/
  | preparing
  /-- The helper is started next. -/
  | starting
  /-- The helper is started and the request has no identifier yet. -/
  | issuing
  /-- Until the helper is reaped. -/
  | helping
  /-- The response is evaluated. -/
  | decoding
  /-- `call` has returned or thrown. -/
  | ended
  /-- `CallService` has returned or was left. -/
  | returned
deriving DecidableEq

namespace Parent

def stage : Parent → Stage
  | .enter | .invocation | .call _ | .prepared .. | .acquire _ => .preparing
  | .start _ => .starting
  | .nextRequestId _ => .issuing
  | .send .. | .readReady .. | .ready _ | .readResponse .. | .readPayload .. | .terminate _
  | .reap _ => .helping
  | .decode .. => .decoding
  | .ended _ => .ended
  | .reported _ | .escaped => .returned

/-- The request a parent carries before it has an identifier. -/
def request? : Parent → Option ServiceCallRequest
  | .call request | .prepared request _ _ => some request
  | .acquire out | .start out | .nextRequestId out => some out.request
  | _ => none

end Parent

/-- An effect that neither starts a helper, nor names a request, nor sends anything. -/
def Effect.silent : Effect → Prop
  | .start | .issue _ | .send _ => False
  | _ => True

/-- What a step of the parent leads to. -/
inductive Parent.Advance (env : Env) : Parent → Parent × Effect → Prop
  /-- The request is checked; it is the one that was admitted. -/
  | prepare {pc next : Parent} (h : pc.stage = .preparing) (hnext : next.stage = .preparing)
      (hrequest : ∀ r, next.request? = some r → pc.request? = some r ∨ env.admission = .ok r) :
      Advance env pc (next, .none)
  | acquire (out : Outgoing) : Advance env (.acquire out) (.start out, .none)
  /-- An error before the in-flight limit. -/
  | refuse {pc next : Parent} (h : pc.stage = .preparing)
      (hnext : next.stage = .ended ∨ next.stage = .returned) : Advance env pc (next, .none)
  | spawn (out : Outgoing) : Advance env (.start out) (.nextRequestId out, .start)
  | spawnFails (out : Outgoing) (e : Exn) : Advance env (.start out) (Parent.throw e, .none)
  | fetchAgain (out : Outgoing) : Advance env (.nextRequestId out) (.nextRequestId out, .none)
  | issue (p : Sending) (rest : Bytes) :
      Advance env (.nextRequestId p.toOutgoing) (.send p .frame rest false, .issue p)
  | send (p : Sending) (piece : Section) (rest rest' bytes : Bytes) (waiting : Bool) :
      Advance env (.send p piece rest waiting) (.send p piece rest' false, .send bytes)
  | help {pc next : Parent} {e : Effect} (h : pc.stage = .helping) (hnext : next.stage = .helping)
      (he : e.silent) : Advance env pc (next, e)
  | resume (next : After) : Advance env (.reap next) (Parent.resume next, .none)
  | decode (p : Sending) (response : Frame) (payload : Bytes) {next : Parent} {e : Effect}
      (hnext : next.stage = .ended) (he : e.silent) :
      Advance env (.decode p response payload) (next, e)
  | finish (outcome : Except Exn ServiceCallResult) {next : Parent}
      (hnext : next.stage = .returned) : Advance env (.ended outcome) (next, .none)
  | idle {pc : Parent} (h : pc.stage = .returned) : Advance env pc (pc, .none)

namespace Parent

variable {p : Sending} {env : Env} {down : ByteStream}

/-! ## Where the checks lead -/

theorem stage_report (e : Exn) : (report e).stage = .returned := by
  unfold report
  split <;> rfl

theorem stage_sent (piece : Section) : (sent p piece).stage = .helping := by
  cases piece <;> rfl

theorem stage_checkReady (ready : Frame) : (checkReady p ready).stage = .helping := by
  unfold checkReady
  split
  · rfl
  · split
    · rfl
    · split <;> rfl

theorem stage_checkResponse (response : Frame) :
    (checkResponse p env response).stage = .helping := by
  unfold checkResponse
  split
  · split
    · rfl
    · split <;> rfl
  · rfl

theorem stage_checkPayload (response : Frame) (payload : Bytes) :
    (checkPayload p env response payload).stage = .helping := by
  unfold checkPayload
  split
  · rfl
  · split <;> rfl

theorem stage_resume (next : After) :
    (resume next).stage = .decoding ∨ (resume next).stage = .ended := by
  cases next with
  | throw e => exact .inr rfl
  | decode p response payload => exact .inl rfl

/-- A turn of a receiving loop goes round, fails, or takes a chunk that fits. -/
theorem receiveTurn_rule {ρ : Type} {want : Nat} {got : Bytes}
    {loop : Bytes → Bool → Parent} {fail : ρ → String → Parent} {P : Parent × Effect → Prop}
    (again : ∀ waiting, P (loop got waiting, .none))
    (failed : ∀ result transportError, P (fail result transportError, .none))
    (moved : ∀ n, (down.chunk n).length ≤ want - got.length →
      P (loop (got ++ down.chunk n) false, .receive n)) (turn : Turn ρ) :
    P (receiveTurn turn down want got loop fail) := by
  cases turn with
  | again waiting => exact again waiting
  | fail result transportError => exact failed result transportError
  | moved n =>
      unfold receiveTurn
      by_cases h : down.chunk (min (n + 1) (want - got.length)) = []
      · simp only [h, if_true]
        exact again true
      · simp only [h, if_false]
        exact moved _ (Nat.le_trans (down.length_chunk_le _) (Nat.min_le_right _ _))

theorem advance_receiveTurn {pc : Parent} (hpc : pc.stage = .helping) {ρ : Type} {want : Nat}
    {got : Bytes} {loop : Bytes → Bool → Parent} {fail : ρ → String → Parent} (turn : Turn ρ)
    (hloop : ∀ got waiting, (loop got waiting).stage = .helping)
    (hfail : ∀ result transportError, (fail result transportError).stage = .helping) :
    Advance env pc (receiveTurn turn down want got loop fail) :=
  receiveTurn_rule (fun _ => .help hpc (hloop _ _) trivial)
    (fun _ _ => .help hpc (hfail _ _) trivial) (fun _ _ => .help hpc (hloop _ _) trivial) turn

theorem request_describe {request : ServiceCallRequest} {md5 : Option Bytes} {payload : Payload}
    {out : Outgoing} (h : describe request md5 payload = .ok out) : out.request = request := by
  unfold describe at h
  split at h
  · cases h
  · split at h
    · split at h
      · cases h
        rfl
      · cases h
    · cases h

/-! ## The step -/

/-- **Every step of the parent is an advance.** -/
theorem advance_step (env : Env) (down : ByteStream) (exited : Bool) (pc : Parent) :
    Advance env pc (pc.step env down exited) := by
  cases pc with
  | enter =>
      rw [step]
      split
      · exact .refuse rfl (.inr (stage_report _))
      · exact .prepare rfl rfl fun r hr => .inl hr
  | invocation =>
      rw [step]
      split
      · exact .refuse rfl (.inr (stage_report _))
      · rename_i request hadmission
        refine .prepare rfl rfl ?_
        rintro r ⟨⟩
        exact .inr hadmission
  | call request =>
      rw [step]
      split
      · exact .refuse rfl (.inl rfl)
      · exact .prepare rfl rfl fun r hr => .inl hr
  | prepared request md5 payload =>
      rw [step]
      split
      · exact .refuse rfl (.inl rfl)
      · rename_i out hout
        obtain ⟨_, -, hout⟩ := bind_eq_ok.mp ((seqRight_eq_bind _ _).symm.trans hout)
        refine .prepare rfl rfl fun r hr => .inl ?_
        exact (congrArg some (request_describe hout)).symm.trans hr
  | acquire out =>
      rw [step]
      split
      · exact .refuse rfl (.inl rfl)
      · exact .acquire out
  | start out =>
      rw [step]
      split
      · exact .spawn out
      · split <;> exact .spawnFails out _
  | nextRequestId out =>
      rw [step]
      split
      · exact .fetchAgain out
      · exact .issue ⟨out, _, _⟩ _
  | send p piece rest waiting =>
      rw [step]
      split
      · exact .help rfl (stage_sent _) trivial
      · split
        · exact .send p piece _ _ _ _
        · exact .help rfl rfl trivial
        · exact .help rfl rfl trivial
  | readReady p got waiting =>
      rw [step]
      split
      · exact .help rfl (stage_checkReady _) trivial
      · exact advance_receiveTurn rfl _ (fun _ _ => rfl) fun _ _ => rfl
  | ready p =>
      rw [step]
      split <;> exact .help rfl rfl trivial
  | readResponse p got waiting =>
      rw [step]
      split
      · exact .help rfl (stage_checkResponse _) trivial
      · exact advance_receiveTurn rfl _ (fun _ _ => rfl) fun _ _ => rfl
  | readPayload p response got waiting =>
      rw [step]
      split
      · exact .help rfl (stage_checkPayload _ _) trivial
      · exact advance_receiveTurn rfl _ (fun _ _ => rfl) fun _ _ => rfl
  | terminate next =>
      rw [step]
      split <;> exact .help rfl rfl trivial
  | reap next =>
      rw [step]
      split
      · exact .help rfl rfl trivial
      · split
        · exact .resume next
        · exact .help rfl rfl trivial
      · exact .resume next
  | decode p response payload =>
      rw [step]
      split
      · exact .decode p response payload rfl trivial
      · split <;> exact .decode p response payload rfl trivial
  | ended outcome =>
      cases outcome with
      | error e => exact .finish _ (stage_report _)
      | ok result =>
          rw [step]
          split
          · exact .finish _ (stage_report _)
          · exact .finish _ rfl
  | reported result => exact .idle rfl
  | escaped => exact .idle rfl

end Parent

end Ros1Tools.Service
