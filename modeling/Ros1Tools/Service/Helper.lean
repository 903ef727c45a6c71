import Ros1Tools.Service.Invoker

/-!
# The helper: `runHelper`

The helper reads a request off its socket, looks the service up, tells the parent
that it is ready, waits for a commit and only then enters `client.call`.  As with
the parent, the model is the program counter with its live locals, one step runs
between two interactions with the outside, and the answers come from an
environment.

The values the helper has validated carry what was validated: a `Header` has the
length and the contents `validateServiceHelperRequest` accepts, a `HelperRequest`
has sections of the lengths its header announces, and a `Commit` has been checked
against its request.
-/

namespace Ros1Tools.Service

open Lib

/-! ## Serialized messages -/

/-- `ros::SerializedMessage`: a buffer of `numBytes` bytes, or none, and the
position of `message_start` relative to it, if it is not null. -/
structure SerializedMessage where
  numBytes : Nat
  buf : Option Bytes
  buf_length : ∀ b ∈ buf, b.length = numBytes
  messageStart : Option Int

/-- `serviceRequest`: the payload behind its length. -/
def serviceRequest (payload : Bytes) : SerializedMessage where
  numBytes := payload.length + 4
  buf := some (Bytes.ofNat 4 payload.length ++ payload)
  buf_length := by simp [Nat.add_comm]
  messageStart := some 4

/-- `responsePayload`: the bytes from `message_start` to the end of the buffer. -/
def responsePayload (response : SerializedMessage) : Option Bytes :=
  if response.numBytes = 0 then some []
  else
    match response.buf, response.messageStart with
    | some buf, some start =>
        if start < 0 ∨ start > response.numBytes then none else some (buf.drop start.toNat)
    | _, _ => none

/-! ## What the helper has received -/

/-- A request header that passed `validateServiceHelperRequest`. -/
structure Header where
  bytes : Bytes
  length_bytes : bytes.length = Frame.size
  valid : validateServiceHelperRequest (Frame.decode bytes) = true

def Header.frame (h : Header) : Frame := Frame.decode h.bytes

/-- A complete request. -/
structure HelperRequest where
  header : Header
  service : Bytes
  md5 : Bytes
  payload : Bytes
  service_length : service.length = header.frame.serviceNameBytes.toNat
  md5_length : md5.length = header.frame.serviceMd5Bytes.toNat
  payload_length : payload.length = header.frame.payloadBytes.toNat

namespace HelperRequest

def requestId (r : HelperRequest) : UInt64 := r.header.frame.requestId

/-- The bytes the request was read from. -/
def bytes (r : HelperRequest) : Bytes := r.header.bytes ++ (r.service ++ (r.md5 ++ r.payload))

end HelperRequest

/-- A commit frame that passed `validateServiceHelperCommit` for a request. -/
structure Commit (r : HelperRequest) where
  bytes : Bytes
  length_bytes : bytes.length = Frame.size
  valid : validateServiceHelperCommit (Frame.decode bytes) r.requestId = true

/-- The sections the helper reads, each with what it has read before. -/
inductive Reading where
  | header
  | service (header : Header)
  | md5 (header : Header) (service : Bytes)
      (hs : service.length = header.frame.serviceNameBytes.toNat)
  | payload (header : Header) (service md5 : Bytes)
      (hs : service.length = header.frame.serviceNameBytes.toNat)
      (hm : md5.length = header.frame.serviceMd5Bytes.toNat)
  | commit (request : HelperRequest)

namespace Reading

/-- How many bytes the section has. -/
def want : Reading → Nat
  | .header => Frame.size
  | .service h => h.frame.serviceNameBytes.toNat
  | .md5 h _ _ => h.frame.serviceMd5Bytes.toNat
  | .payload h _ _ _ _ => h.frame.payloadBytes.toNat
  | .commit _ => Frame.size

/-- What was received before the section. -/
def before : Reading → Bytes
  | .header => []
  | .service h => h.bytes
  | .md5 h name _ => h.bytes ++ name
  | .payload h name digest _ _ => h.bytes ++ (name ++ digest)
  | .commit r => r.bytes

end Reading

/-! ## What the helper writes -/

/-- What `client.call` does: it returns, with a flag and a response, or throws. -/
inductive CallResult where
  | returned (called : Bool) (response : SerializedMessage)
  | threw

/-- The frame and the payload the outcome of the native call is answered with. -/
def answer (requestId : UInt64) : CallResult → Frame × Bytes
  | .threw | .returned false _ => (makeServiceHelperResponse requestId .callFailed, [])
  | .returned true response =>
      match responsePayload response with
      | none => (makeServiceHelperResponse requestId .protocolError, [])
      | some data =>
          if data.length > kMaximumServicePayloadBytes then
            (makeServiceHelperResponse requestId .responseTooLarge, [])
          else (makeServiceHelperResponse requestId .completed data.length, data)

inductive Writing where
  | ready (request : HelperRequest) (status : ReadyStatus)
  | response (request : HelperRequest) (result : CallResult)
  | payload (request : HelperRequest) (result : CallResult)

def Writing.bytes : Writing → Bytes
  | .ready r status => (makeServiceHelperReady r.requestId status).encode
  | .response r result => (answer r.requestId result).1.encode
  | .payload r result => (answer r.requestId result).2

/-! ## The program counter -/

inductive Helper where
  /-- Not started yet. -/
  | unborn
  | read (reading : Reading) (got : Bytes) (waiting : Bool)
  /-- The request is complete and its names are checked next. -/
  | validate (request : HelperRequest)
  /-- `serviceAvailable`. -/
  | available (request : HelperRequest)
  /-- The native request and the client are made. -/
  | client (request : HelperRequest)
  | write (writing : Writing) (rest : Bytes) (waiting : Bool)
  /-- `client.call` is entered next. -/
  | call (request : HelperRequest) (commit : Commit request)
  /-- Inside `client.call`. -/
  | inCall (request : HelperRequest)
  | exited

/-- The answers one helper step may ask for. -/
structure HelperEnv where
  transfer : Transfer
  poll : Poll
  /-- `ros::names::validate`. -/
  namesValidate : Bytes → Bool
  /-- `ros::service::exists`. -/
  serviceExists : Bool
  rosOk : Bool
  waitElapsed : Bool
  /-- The client is made without an exception. -/
  serviceClient : Bool
  result : CallResult

/-- One entry into `client.call`. -/
structure NativeCall where
  service : Bytes
  md5 : Bytes
  request : SerializedMessage

/-- What a helper step does to the rest of the system. -/
inductive HelperEffect where
  | none
  | send (bytes : Bytes)
  | receive (n : Nat)
  /-- `client.call` is entered. -/
  | enterCall (call : NativeCall)
  /-- `client.call` is left. -/
  | leaveCall (result : CallResult)

/-- `validAbsoluteServiceName`. -/
def validAbsoluteServiceName (namesValidate : Bytes → Bool) (service : Bytes) : Bool :=
  service.head? == some 0x2f && service != [0x2f] && namesValidate service

/-- `waitForSocket`: `none` to poll again. -/
def waitForSocket : Poll → Option Bool
  | .interrupted => none
  | .failed _ | .timeout => some false
  | .events requested hangup => some (!hangup && requested)

namespace Helper

/-- What follows a section that is completely read. -/
def received : (reading : Reading) → (got : Bytes) → got.length = reading.want → Helper
  | .header, got, h =>
      if hv : validateServiceHelperRequest (Frame.decode got) = true then
        .read (.service ⟨got, h, hv⟩) [] false
      else .exited
  | .service header, got, h => .read (.md5 header got h) [] false
  | .md5 header service hs, got, h => .read (.payload header service got hs h) [] false
  | .payload header service md5 hs hm, got, h => .validate ⟨header, service, md5, got, hs, hm, h⟩
  | .commit request, got, h =>
      if hv : validateServiceHelperCommit (Frame.decode got) request.requestId = true then
        .call request ⟨got, h, hv⟩
      else .exited

/-- What follows a piece that is completely written. -/
def written : Writing → Helper
  | .ready request .ready => .read (.commit request) [] false
  | .ready _ _ => .exited
  | .response request result =>
      .write (.payload request result) (Writing.bytes (.payload request result)) false
  | .payload _ _ => .exited

/-- Starts writing a piece. -/
def startWriting (writing : Writing) : Helper := .write writing writing.bytes false

/-- One step of the helper, which sees the stream it reads from. -/
def step (env : HelperEnv) (up : ByteStream) : Helper → Helper × HelperEffect
  | .unborn => (.unborn, .none)
  | .read reading got waiting =>
      if h : got.length = reading.want then (received reading got h, .none)
      else if waiting then
        match waitForSocket env.poll with
        | none => (.read reading got true, .none)
        | some true => (.read reading got false, .none)
        | some false => (.exited, .none)
      else
        match env.transfer with
        | .moved n =>
            let limit := min (n + 1) (reading.want - got.length)
            if up.chunk limit = [] then (.read reading got true, .none)
            else (.read reading (got ++ up.chunk limit) false, .receive limit)
        | .interrupted => (.read reading got false, .none)
        | .wouldBlock => (.read reading got true, .none)
        | .closed | .failed _ => (.exited, .none)
  | .validate request =>
      if !validAbsoluteServiceName env.namesValidate request.service ||
          !validServiceMd5 request.md5 then
        (startWriting (.ready request .protocolError), .none)
      else (.available request, .none)
  | .available request =>
      if env.serviceExists then (.client request, .none)
      else if !env.rosOk || request.header.frame.waitForServiceMs == 0 || env.waitElapsed then
        (startWriting (.ready request .serviceUnavailable), .none)
      else (.available request, .none)
  | .client request =>
      if env.serviceClient then (startWriting (.ready request .ready), .none)
      else (startWriting (.ready request .protocolError), .none)
  | .write writing rest waiting =>
      if rest.isEmpty then (written writing, .none)
      else if waiting then
        match waitForSocket env.poll with
        | none => (.write writing rest true, .none)
        | some true => (.write writing rest false, .none)
        | some false => (.exited, .none)
      else
        match env.transfer with
        | .moved n => (.write writing (rest.drop (n + 1)) false, .send (rest.take (n + 1)))
        | .interrupted => (.write writing rest false, .none)
        | .wouldBlock => (.write writing rest true, .none)
        | .closed | .failed _ => (.exited, .none)
  | .call request _ =>
      (.inCall request, .enterCall ⟨request.service, request.md5, serviceRequest request.payload⟩)
  | .inCall request => (startWriting (.response request env.result), .leaveCall env.result)
  | .exited => (.exited, .none)

end Helper

end Ros1Tools.Service
