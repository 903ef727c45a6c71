import Ros1Tools.Error
import Ros1Tools.Json
import Ros1Tools.Service.Frame

/-!
# The parent: `ToolsAdapter::CallService` around `ServiceInvoker::call`

The parent is written as the program counter of one operation together with the
locals that are live there.  A step runs from one interaction with the outside to
the next, and everything the outside answers at that point (the clock, the
cancellation flag, how many bytes the kernel took, what was thrown) is read from
an `Env`.  The answers are not related to each other: a deadline may be found
expired and not expired on the next look, a receive may fail with bytes waiting.
Whatever holds for all such answers holds for the ones an actual machine gives.

A step does not touch the socket itself.  It returns an `Effect`, and the system
the parent is part of applies it.
-/

namespace Ros1Tools.Service

open Lib

/-! ## Requests -/

/-- The fields of `ServiceCallRequest` that the call reads.  `deadlineUnixNanos`
and the cancellation callback are answers of the environment. -/
structure ServiceCallRequest where
  service : Bytes
  serviceType : Bytes
  waitForServiceMs : UInt32

structure ServiceCallResult where
  service : Bytes
  serviceType : Bytes
  response : Json
  durationMs : UInt64

/-- The result object of `CallService`. -/
def ServiceCallResult.toJson (called : ServiceCallResult) : Json :=
  .ofMembers [("event", .string "response"), ("service", .string called.service.toText),
    ("serviceType", .string called.serviceType.toText), ("response", called.response),
    ("durationMs", .uint called.durationMs)]

/-- A serialized request that `serializeServiceRequest` lets pass. -/
def Payload : Type := { bytes : Bytes // bytes.length ≤ kMaximumServicePayloadBytes }

/-- What a dynamic message answers when it is serialized: its size, the buffer of
that size after `writeToStream`, and the count `writeToStream` returns. -/
structure Serializable where
  sizeInBytes : Nat
  buffer : Bytes
  buffer_length : buffer.length = sizeInBytes
  written : Nat

/-- `serializeServiceRequest`. -/
def serializeServiceRequest (message : Serializable) : Except Exn Payload :=
  if h : message.sizeInBytes > kMaximumServicePayloadBytes ∨ message.sizeInBytes > 2 ^ 32 - 1 then
    .error (permanentError "service_request_too_large"
      "serialized ROS1 service request exceeds the helper limit")
  else if message.sizeInBytes ≠ 0 ∧ message.written ≠ message.sizeInBytes then
    .error (permanentError "service_request_serialization_failed"
      "serialized ROS1 service request length changed")
  else
    .ok ⟨message.buffer, by rw [message.buffer_length]; omega⟩

/-- What the type registry and the codec answer for one request: each call returns
or throws.  The description is known by its MD5 digest, if it is not null. -/
structure Types where
  resolveService : Except Exn (Option Bytes)
  createServiceRequest : Except Exn Unit
  createServiceResponse : Except Exn Bool
  decode : Except Exn Unit
  dynamicRequest : Except Exn Serializable

/-- The part of `call` between the first two dispatch checks. -/
def Types.prepare (types : Types) : Except Exn (Option Bytes × Payload) := do
  let description ← types.resolveService
  types.createServiceRequest
  let dynamicResponseTemplate ← types.createServiceResponse
  if !dynamicResponseTemplate then
    throw (permanentError "invalid_service_description"
      "ROS1 service response description is incomplete")
  types.decode
  let requestPayload ← serializeServiceRequest (← types.dynamicRequest)
  return (description, requestPayload)

/-- A request that passed the checks in front of the helper. -/
structure Outgoing where
  request : ServiceCallRequest
  md5 : Bytes
  payload : Payload
  md5_valid : validServiceMd5 md5 = true
  service_pos : 0 < request.service.length
  service_le : request.service.length ≤ kMaximumServiceNameBytes

/-- The checks between the second dispatch check and the in-flight limit. -/
def describe (request : ServiceCallRequest) (md5 : Option Bytes) (payload : Payload) :
    Except Exn Outgoing :=
  match md5 with
  | none => .error (permanentError "invalid_service_description"
      "ROS1 service description has an invalid MD5 digest")
  | some md5 =>
      if hmd5 : validServiceMd5 md5 = true then
        if hname : 0 < request.service.length ∧
            request.service.length ≤ kMaximumServiceNameBytes then
          .ok ⟨request, md5, payload, hmd5, hname.1, hname.2⟩
        else
          .error (permanentError "invalid_service_name"
            "ROS1 service name exceeds the helper protocol limit")
      else
        .error (permanentError "invalid_service_description"
          "ROS1 service description has an invalid MD5 digest")

/-- A request with its identifier, ready to be sent. -/
structure Sending extends Outgoing where
  requestId : UInt64
  requestId_ne : requestId ≠ 0

/-! ## What is sent -/

/-- The pieces the parent writes, in order. -/
inductive Section where
  | frame
  | service
  | md5
  | payload
  | commit
deriving DecidableEq, Repr

namespace Sending

def requestFrame (p : Sending) : Frame :=
  makeServiceHelperRequest p.requestId p.request.service.length p.md5.length
    p.payload.1.length p.request.waitForServiceMs

def commitFrame (p : Sending) : Frame := makeServiceHelperCommit p.requestId

def bytes (p : Sending) : Section → Bytes
  | .frame => p.requestFrame.encode
  | .service => p.request.service
  | .md5 => p.md5
  | .payload => p.payload.1
  | .commit => p.commitFrame.encode

/-- What follows a piece on the stream. -/
def later (p : Sending) : Section → Bytes
  | .frame => p.bytes .service ++ (p.bytes .md5 ++ (p.bytes .payload ++ p.bytes .commit))
  | .service => p.bytes .md5 ++ (p.bytes .payload ++ p.bytes .commit)
  | .md5 => p.bytes .payload ++ p.bytes .commit
  | .payload => p.bytes .commit
  | .commit => []

/-- Everything the parent sends in the course of one committed call. -/
def stream (p : Sending) : Bytes := p.bytes .frame ++ p.later .frame

end Sending

/-! ## The environment -/

/-- What a non-blocking `send` or `recv` does. -/
inductive Transfer where
  /-- At least one byte is transferred, and at most `n + 1`. -/
  | moved (n : Nat)
  /-- The call returns zero. -/
  | closed
  /-- `EINTR`. -/
  | interrupted
  /-- `EAGAIN` or `EWOULDBLOCK`. -/
  | wouldBlock
  | failed (reason : String)

/-- What `poll` does. -/
inductive Poll where
  | interrupted
  | failed (reason : String)
  | timeout
  /-- It returns with the requested events set or not, and with one of `POLLERR`,
  `POLLHUP` and `POLLNVAL` set or not. -/
  | events (requested hangup : Bool)

/-- What `kill` and `waitpid` do. -/
inductive Syscall where
  | ok
  | interrupted
  | failed

/-- The answers one parent step may ask for. -/
structure Env where
  cancellationRequested : Bool
  /-- `deadlineExpired(request.deadline_unix_nanos)`. -/
  deadlineExpired : Bool
  /-- `SteadyClock::now() >= runtime_deadline`. -/
  runtimeDeadlinePassed : Bool
  /-- `now >= call_deadline`. -/
  callDeadlinePassed : Bool
  serviceEnabled : Bool
  /-- The outcome of the checks of `CallService` on the invocation and its input. -/
  admission : Except Exn ServiceCallRequest
  types : Types
  acquireInFlight : Bool
  /-- `HelperProcess::start`. -/
  start : Except String Unit
  /-- The value `nextRequestId` fetches from its counter. -/
  fetched : UInt64
  transfer : Transfer
  poll : Poll
  syscall : Syscall
  /-- `response_payload.resize`. -/
  resize : Except Foreign Unit
  /-- `createMessageFromTemplate`: whether it returned a message, and how many bytes
  it read. -/
  createMessageFromTemplate : Bytes → Except Foreign (Bool × Nat)
  /-- `codec_.encode`. -/
  encode : Except Exn Json
  durationMs : UInt64
  maximumResponseBytes : Nat
  /-- The length of what `writeJson` returns for the result object. -/
  writeJson : Json → Except Foreign Nat

/-- `requirePreDispatchAllowed`. -/
def requirePreDispatchAllowed (env : Env) : Except Exn Unit :=
  if env.cancellationRequested then
    .error (cancelledError "service_call_cancelled"
      "ROS1 service call was cancelled before dispatch")
  else if env.deadlineExpired then
    .error (deadlineError "service_deadline_elapsed"
      "ROS1 service deadline elapsed before dispatch")
  else .ok ()

/-! ## Transfer loops

One turn of a loop transfers bytes, goes round again, or fails.  A loop that found
the socket not ready is *waiting*: its next turn polls. -/

inductive Turn (ρ : Type) where
  | moved (n : Nat)
  | again (waiting : Bool)
  | fail (result : ρ) (transportError : String)

inductive PreCommitIoResult where
  | complete
  | cancelled
  | deadline
  | transportError
deriving DecidableEq, Repr

/-- A turn of `writePreCommit` and `readPreCommit`, which differ in what they say
when the socket is closed, and of the `waitPreCommitEvent` they wait in. -/
def preCommitTurn (closed : String) (env : Env) (waiting : Bool) : Turn PreCommitIoResult :=
  if env.cancellationRequested then .fail .cancelled ""
  else if env.deadlineExpired || env.runtimeDeadlinePassed then .fail .deadline ""
  else if waiting then
    match env.poll with
    | .interrupted | .timeout => .again true
    | .failed reason => .fail .transportError reason
    | .events requested hangup =>
        if requested then .again false
        else if hangup then .fail .transportError "service helper disconnected"
        else .again true
  else
    match env.transfer with
    | .moved n => .moved n
    | .interrupted => .again false
    | .wouldBlock => .again true
    | .closed => .fail .transportError closed
    | .failed reason => .fail .transportError reason

def writePreCommit : Env → Bool → Turn PreCommitIoResult :=
  preCommitTurn "service helper socket closed"

def readPreCommit : Env → Bool → Turn PreCommitIoResult :=
  preCommitTurn "service helper disconnected"

def failPreCommit (result : PreCommitIoResult) (transportError : String) : Exn :=
  match result with
  | .cancelled => cancelledError "service_call_cancelled"
      "ROS1 service call was cancelled before dispatch"
  | .deadline => deadlineError "service_deadline_elapsed"
      "ROS1 service deadline elapsed before dispatch"
  | .transportError => transientError "service_helper_unavailable"
      ("ROS1 service helper failed before dispatch: " ++ transportError)
  | .complete => transientError "service_helper_unavailable"
      "ROS1 service helper failed before dispatch"

inductive PostCommitIoResult where
  | complete
  | cancelled
  | runtimeDeadline
  | callTimeout
  | transportError
deriving DecidableEq, Repr

/-- The checks at the head of `readPostCommit`'s loop, repeated after it. -/
def postCommitCheck (env : Env) : PostCommitIoResult :=
  if env.cancellationRequested then .cancelled
  else if env.deadlineExpired || env.runtimeDeadlinePassed then .runtimeDeadline
  else if env.callDeadlinePassed then .callTimeout
  else .complete

/-- A turn of `readPostCommit`.  The poll is part of the turn that would have
blocked and is followed by the checks again, so a waiting turn makes none. -/
def readPostCommit (env : Env) (waiting : Bool) : Turn PostCommitIoResult :=
  if waiting then
    match env.poll with
    | .interrupted | .timeout => .again false
    | .failed reason => .fail .transportError reason
    | .events requested hangup =>
        if !requested && hangup then .fail .transportError "service helper disconnected"
        else .again false
  else
    match postCommitCheck env with
    | .complete =>
        match env.transfer with
        | .moved n => .moved n
        | .interrupted => .again false
        | .wouldBlock => .again true
        | .closed => .fail .transportError "service helper disconnected"
        | .failed reason => .fail .transportError reason
    | result => .fail result ""

def failPostCommit (result : PostCommitIoResult) (service : Bytes) (transportError : String) :
    Exn :=
  match result with
  | .cancelled => uncertainError "service_call_cancelled"
      ("ROS1 service call to '" ++ service.toText ++
        "' was cancelled after commit; the server may have executed the request")
  | .runtimeDeadline => uncertainError "service_deadline_elapsed"
      ("ROS1 service call to '" ++ service.toText ++
        "' crossed its Runtime deadline after commit; the server may have executed the request")
  | .callTimeout => uncertainError "service_call_timeout"
      ("ROS1 service call to '" ++ service.toText ++
        "' exceeded callTimeoutMs after commit; the server may have executed the request")
  | .transportError => uncertainError "service_call_failed"
      ("ROS1 service helper failed after commit for '" ++ service.toText ++ "': " ++
        transportError)
  | .complete => uncertainError "service_call_failed"
      ("ROS1 service helper failed after commit for '" ++ service.toText ++ "'")

/-- The handlers around everything `call` does after the commit. -/
def postCommitCatch : Exn → Exn
  | .tools e =>
      if e.errorClass = .uncertain then .tools e
      else uncertainError "service_result_failed"
        ("ROS1 service processing failed after commit: " ++ e.message)
  | .foreign (.std what) => uncertainError "service_result_failed"
      ("ROS1 service processing failed after commit: " ++ what)
  | .foreign .other => uncertainError "service_result_failed"
      "ROS1 service processing failed after commit"

/-- **Nothing that is thrown after the commit denies the side effect.** -/
@[simp] theorem uncertain_postCommitCatch (e : Exn) : (postCommitCatch e).uncertain = true := by
  cases e with
  | tools e =>
      by_cases h : e.errorClass = .uncertain
      · simp [postCommitCatch, h, Exn.uncertain]
      · simp [postCommitCatch, h]
  | foreign f => cases f <;> rfl

/-! ## The program counter -/

/-- Where `terminateAndReap` returns to: an exception on its way out, or the
evaluation of a complete response. -/
inductive After where
  | throw (e : Exn)
  | decode (p : Sending) (response : Frame) (payload : Bytes)

inductive Parent where
  /-- `CallService` reads `service_enabled_`. -/
  | enter
  /-- `CallService` checks the invocation and its input. -/
  | invocation
  /-- `call` is entered. -/
  | call (request : ServiceCallRequest)
  /-- The request is serialized; the second dispatch check is next. -/
  | prepared (request : ServiceCallRequest) (md5 : Option Bytes) (payload : Payload)
  | acquire (out : Outgoing)
  | start (out : Outgoing)
  | nextRequestId (out : Outgoing)
  /-- `rest` of a piece is still to be written. -/
  | send (p : Sending) (piece : Section) (rest : Bytes) (waiting : Bool)
  | readReady (p : Sending) (got : Bytes) (waiting : Bool)
  /-- The helper is ready; the last dispatch check is next. -/
  | ready (p : Sending)
  | readResponse (p : Sending) (got : Bytes) (waiting : Bool)
  | readPayload (p : Sending) (response : Frame) (got : Bytes) (waiting : Bool)
  /-- `terminateAndReap` has closed the socket and kills the helper. -/
  | terminate (next : After)
  /-- `terminateAndReap` waits for the helper. -/
  | reap (next : After)
  | decode (p : Sending) (response : Frame) (payload : Bytes)
  /-- `call` has returned or thrown. -/
  | ended (outcome : Except Exn ServiceCallResult)
  /-- `CallService` has returned. -/
  | reported (result : OperationResult)
  /-- `CallService` was left by an exception it does not catch. -/
  | escaped

/-- What a parent step does to the rest of the system. -/
inductive Effect where
  | none
  /-- The helper process is started. -/
  | start
  /-- A request identifier is assigned; nothing outside the parent changes. -/
  | issue (p : Sending)
  | send (bytes : Bytes)
  | receive (n : Nat)
  | kill
  /-- A response is handed to the decoder; nothing outside the parent changes. -/
  | hand (payload : Bytes)

namespace Parent

/-- `call` throws. -/
def throw (e : Exn) : Parent := .ended (.error e)

/-- `CallService` handles an exception. -/
def report (e : Exn) : Parent :=
  match failure e with
  | some result => .reported result
  | none => .escaped

/-- `terminateAndReap` returns. -/
def resume : After → Parent
  | .throw e => throw e
  | .decode p response payload => .decode p response payload

/-- What follows a piece that is completely written. -/
def sent (p : Sending) : Section → Parent
  | .frame => .send p .service (p.bytes .service) false
  | .service => .send p .md5 (p.bytes .md5) false
  | .md5 => .send p .payload (p.bytes .payload) false
  | .payload => .readReady p [] false
  | .commit => .readResponse p [] false

/-- The checks on a complete ready frame. -/
def checkReady (p : Sending) (ready : Frame) : Parent :=
  if !validateServiceHelperReady ready p.requestId then
    .terminate (.throw (transientError "service_helper_protocol_error"
      "ROS1 service helper returned an invalid pre-commit frame"))
  else if ready.status == ReadyStatus.serviceUnavailable.code then
    .terminate (.throw (transientError "service_unavailable"
      ("ROS1 service '" ++ p.request.service.toText ++
        "' was not available before waitForServiceMs elapsed")))
  else if ready.status != ReadyStatus.ready.code then
    .terminate (.throw (transientError "service_helper_protocol_error"
      "ROS1 service helper rejected the pre-commit request"))
  else .ready p

/-- Leaves the `try` block after the commit with an exception. -/
def abandon (e : Exn) : Parent := .terminate (.throw (postCommitCatch e))

/-- The checks on a complete response frame, and the allocation of its payload. -/
def checkResponse (p : Sending) (env : Env) (response : Frame) : Parent :=
  match postCommitCheck env with
  | .complete =>
      if !validateServiceHelperResponse response p.requestId then
        abandon (uncertainError "invalid_service_response"
          "ROS1 service helper returned an invalid post-commit frame")
      else
        match env.resize with
        | .error e => abandon (.foreign e)
        | .ok () => .readPayload p response [] false
  | result => abandon (failPostCommit result p.request.service "")

/-- The check after a payload that was read; an empty one is not read at all. -/
def checkPayload (p : Sending) (env : Env) (response : Frame) (payload : Bytes) : Parent :=
  if payload.isEmpty then .terminate (.decode p response payload)
  else
    match postCommitCheck env with
    | .complete => .terminate (.decode p response payload)
    | result => abandon (failPostCommit result p.request.service "")

/-- The refusals of a response that does not carry a result. -/
def checkStatus (p : Sending) (response : Frame) : Except Exn Unit :=
  if response.status == ResponseStatus.callFailed.code then
    .error (uncertainError "service_call_failed"
      ("ROS1 service call to '" ++ p.request.service.toText ++ "' failed after commit"))
  else if response.status == ResponseStatus.responseTooLarge.code then
    .error (uncertainError "service_response_too_large"
      "ROS1 service response exceeded the helper limit after commit")
  else if response.status != ResponseStatus.completed.code then
    .error (uncertainError "invalid_service_response" "ROS1 service helper failed after commit")
  else .ok ()

/-- The decoding of a response payload into a result. -/
def decodeResponse (p : Sending) (env : Env) (payload : Bytes) : Except Exn ServiceCallResult := do
  let (created, bytesRead) ←
    (env.createMessageFromTemplate payload).mapError Exn.foreign
  if !created || bytesRead != payload.length then
    .error (uncertainError "invalid_service_response"
      "ROS1 service response length did not match its type")
  let response ← env.encode
  return ⟨p.request.service, p.request.serviceType, response, env.durationMs⟩

/-- One turn of a loop that receives up to `want` bytes.  With nothing in flight a
receive cannot transfer anything, and would block. -/
def receiveTurn {ρ : Type} (turn : Turn ρ) (down : ByteStream) (want : Nat) (got : Bytes)
    (loop : Bytes → Bool → Parent) (fail : ρ → String → Parent) : Parent × Effect :=
  match turn with
  | .again waiting => (loop got waiting, .none)
  | .fail result transportError => (fail result transportError, .none)
  | .moved n =>
      let limit := min (n + 1) (want - got.length)
      if down.chunk limit = [] then (loop got true, .none)
      else (loop (got ++ down.chunk limit) false, .receive limit)

/-- One step of the parent, which sees the stream it reads from and whether the
helper is dead. -/
def step (env : Env) (down : ByteStream) (helperExited : Bool) : Parent → Parent × Effect
  | .enter =>
      if !env.serviceEnabled then
        (report (rejectedError "service_capability_disabled"
          "ROS1 service-call capability is not active"), .none)
      else (.invocation, .none)
  | .invocation =>
      match env.admission with
      | .error e => (report e, .none)
      | .ok request => (.call request, .none)
  | .call request =>
      match requirePreDispatchAllowed env *> env.types.prepare with
      | .error e => (throw e, .none)
      | .ok (md5, payload) => (.prepared request md5 payload, .none)
  | .prepared request md5 payload =>
      match requirePreDispatchAllowed env *> describe request md5 payload with
      | .error e => (throw e, .none)
      | .ok out => (.acquire out, .none)
  | .acquire out =>
      if !env.acquireInFlight then
        (throw (resourceExhaustedError "service_call_busy"
          "maximum concurrent ROS1 service calls reached"), .none)
      else (.start out, .none)
  | .start out =>
      match env.start with
      | .ok () => (.nextRequestId out, .start)
      | .error reason =>
          match requirePreDispatchAllowed env with
          | .error e => (throw e, .none)
          | .ok () => (throw (transientError "service_helper_unavailable"
              ("unable to start ROS1 service helper: " ++ reason)), .none)
  | .nextRequestId out =>
      if h : env.fetched = 0 then (.nextRequestId out, .none)
      else
        let p : Sending := ⟨out, env.fetched, h⟩
        (.send p .frame (p.bytes .frame) false, .issue p)
  | .send p piece rest waiting =>
      if rest.isEmpty then (sent p piece, .none)
      else
        match writePreCommit env waiting with
        | .moved n => (.send p piece (rest.drop (n + 1)) false, .send (rest.take (n + 1)))
        | .again waiting => (.send p piece rest waiting, .none)
        | .fail result transportError =>
            (.terminate (.throw (failPreCommit result transportError)), .none)
  | .readReady p got waiting =>
      if got.length = Frame.size then (checkReady p (Frame.decode got), .none)
      else
        receiveTurn (readPreCommit env waiting) down Frame.size got (.readReady p)
          fun result transportError => .terminate (.throw (failPreCommit result transportError))
  | .ready p =>
      match requirePreDispatchAllowed env with
      | .error e => (.terminate (.throw e), .none)
      | .ok () => (.send p .commit (p.bytes .commit) false, .none)
  | .readResponse p got waiting =>
      if got.length = Frame.size then (checkResponse p env (Frame.decode got), .none)
      else
        receiveTurn (readPostCommit env waiting) down Frame.size got (.readResponse p)
          fun result transportError =>
            abandon (failPostCommit result p.request.service transportError)
  | .readPayload p response got waiting =>
      if got.length = response.payloadBytes.toNat then (checkPayload p env response got, .none)
      else
        receiveTurn (readPostCommit env waiting) down response.payloadBytes.toNat got
          (.readPayload p response)
          fun result transportError =>
            abandon (failPostCommit result p.request.service transportError)
  | .terminate next =>
      match env.syscall with
      | .interrupted => (.terminate next, .none)
      | .ok => (.reap next, .kill)
      | .failed => (.reap next, .none)
  | .reap next =>
      match env.syscall with
      | .interrupted => (.reap next, .none)
      | .ok => if helperExited then (resume next, .none) else (.reap next, .none)
      | .failed => (resume next, .none)
  | .decode p response payload =>
      match checkStatus p response with
      | .error e => (throw (postCommitCatch e), .none)
      | .ok () =>
          match decodeResponse p env payload with
          | .error e => (throw (postCommitCatch e), .hand payload)
          | .ok result => (.ended (.ok result), .hand payload)
  | .ended (.error e) => (report e, .none)
  | .ended (.ok result) =>
      match encodeResult "service_result_encoding_failed"
          "ROS1 service executed but its result could not be encoded" env.maximumResponseBytes
          result.toJson (env.writeJson result.toJson) with
      | .error e => (report e, .none)
      | .ok value => (.reported (.success value), .none)
  | .reported result => (.reported result, .none)
  | .escaped => (.escaped, .none)

end Parent

end Ros1Tools.Service
