import Ros1Tools.Lib.Bytes

/-!
# The service helper frame

The parent and its service helper exchange fixed 64-byte headers over a private
stream socket.  A header is a trivially copyable C++ struct and travels as its
memory image, so the model fixes that image: the fields in declaration order,
little-endian, followed by 28 reserved bytes.  Both ends run on one machine from
one package, so nothing below depends on which byte order was chosen, only on
both ends using the same one.

`Frame.decode_encode` is the fact the protocol argument needs: what one end
writes is what the other end reads.
-/

namespace Ros1Tools.Service

open Lib

def kServiceHelperProtocolMagic : UInt32 := 0x58325253
def kServiceHelperProtocolVersion : UInt16 := 1
def kMaximumServiceNameBytes : Nat := 4096
def kServiceMd5Bytes : Nat := 32
def kMaximumServicePayloadBytes : Nat := 8 * 1024 * 1024
def kMaximumServiceWaitMilliseconds : Nat := 300000

inductive FrameKind where
  | request
  | ready
  | commit
  | response
deriving DecidableEq, Repr

/-- The enumerator's value, as stored in the header. -/
def FrameKind.code : FrameKind → UInt16
  | .request => 1
  | .ready => 2
  | .commit => 3
  | .response => 4

inductive ReadyStatus where
  | ready
  | serviceUnavailable
  | protocolError
deriving DecidableEq, Repr

def ReadyStatus.code : ReadyStatus → UInt32
  | .ready => 1
  | .serviceUnavailable => 2
  | .protocolError => 3

inductive ResponseStatus where
  | completed
  | callFailed
  | responseTooLarge
  | protocolError
deriving DecidableEq, Repr

def ResponseStatus.code : ResponseStatus → UInt32
  | .completed => 1
  | .callFailed => 2
  | .responseTooLarge => 3
  | .protocolError => 4

/-- `ServiceHelperFrame`. -/
structure Frame where
  magic : UInt32
  version : UInt16
  kind : UInt16
  requestId : UInt64
  status : UInt32
  serviceNameBytes : UInt32
  serviceMd5Bytes : UInt32
  payloadBytes : UInt32
  waitForServiceMs : UInt32
  reserved : Vector UInt8 28
deriving DecidableEq

namespace Frame

/-- `ServiceHelperFrame frame{}`: every byte zero. -/
def zero : Frame := ⟨0, 0, 0, 0, 0, 0, 0, 0, 0, Vector.replicate 28 0⟩

/-! ## Memory image -/

/-- The 64 bytes a frame is sent as. -/
def encode (f : Frame) : Bytes :=
  Bytes.ofNat 4 f.magic.toNat ++ (Bytes.ofNat 2 f.version.toNat ++ (Bytes.ofNat 2 f.kind.toNat ++
  (Bytes.ofNat 8 f.requestId.toNat ++ (Bytes.ofNat 4 f.status.toNat ++
  (Bytes.ofNat 4 f.serviceNameBytes.toNat ++ (Bytes.ofNat 4 f.serviceMd5Bytes.toNat ++
  (Bytes.ofNat 4 f.payloadBytes.toNat ++ (Bytes.ofNat 4 f.waitForServiceMs.toNat ++
  f.reserved.toList))))))))

/-- The frame whose memory image is `bs`. -/
def decode (bs : Bytes) : Frame :=
  let (magic, bs) := Bytes.word 4 bs
  let (version, bs) := Bytes.word 2 bs
  let (kind, bs) := Bytes.word 2 bs
  let (requestId, bs) := Bytes.word 8 bs
  let (status, bs) := Bytes.word 4 bs
  let (serviceNameBytes, bs) := Bytes.word 4 bs
  let (serviceMd5Bytes, bs) := Bytes.word 4 bs
  let (payloadBytes, bs) := Bytes.word 4 bs
  let (waitForServiceMs, bs) := Bytes.word 4 bs
  { magic := .ofNat magic, version := .ofNat version, kind := .ofNat kind
    requestId := .ofNat requestId, status := .ofNat status
    serviceNameBytes := .ofNat serviceNameBytes, serviceMd5Bytes := .ofNat serviceMd5Bytes
    payloadBytes := .ofNat payloadBytes, waitForServiceMs := .ofNat waitForServiceMs
    reserved := Vector.ofFn fun i => bs.getD i 0 }

/-- `sizeof(ServiceHelperFrame)`. -/
def size : Nat := 64

/-- `static_assert(sizeof(ServiceHelperFrame) == 64u)`. -/
@[simp] theorem length_encode (f : Frame) : f.encode.length = size := by
  simp [encode, size]

/-- **What one end writes is what the other end reads.** -/
@[simp] theorem decode_encode (f : Frame) : decode f.encode = f := by
  have h16 (x : UInt16) (rest : Bytes) : Bytes.word 2 (Bytes.ofNat 2 x.toNat ++ rest) =
      (x.toNat, rest) := Bytes.word_append x.toNat_lt rest
  have h32 (x : UInt32) (rest : Bytes) : Bytes.word 4 (Bytes.ofNat 4 x.toNat ++ rest) =
      (x.toNat, rest) := Bytes.word_append x.toNat_lt rest
  have h64 (x : UInt64) (rest : Bytes) : Bytes.word 8 (Bytes.ofNat 8 x.toNat ++ rest) =
      (x.toNat, rest) := Bytes.word_append x.toNat_lt rest
  have hres : (Vector.ofFn fun i : Fin 28 => f.reserved.toList.getD i 0) = f.reserved := by
    ext i hi
    simp
  simp only [decode, encode, h16, h32, h64, hres, UInt16.ofNat_toNat, UInt32.ofNat_toNat,
    UInt64.ofNat_toNat]

end Frame

/-! ## Construction -/

/-- `makeServiceHelperRequest`.  The lengths are `std::size_t` and are stored
truncated to 32 bits. -/
def makeServiceHelperRequest (requestId : UInt64)
    (serviceNameBytes serviceMd5Bytes payloadBytes : Nat) (waitForServiceMs : UInt32) : Frame :=
  { Frame.zero with
    magic := kServiceHelperProtocolMagic
    version := kServiceHelperProtocolVersion
    kind := FrameKind.request.code
    requestId := requestId
    serviceNameBytes := .ofNat serviceNameBytes
    serviceMd5Bytes := .ofNat serviceMd5Bytes
    payloadBytes := .ofNat payloadBytes
    waitForServiceMs := waitForServiceMs }

/-- `makeServiceHelperReady`. -/
def makeServiceHelperReady (requestId : UInt64) (status : ReadyStatus) : Frame :=
  { Frame.zero with
    magic := kServiceHelperProtocolMagic
    version := kServiceHelperProtocolVersion
    kind := FrameKind.ready.code
    requestId := requestId
    status := status.code }

/-- `makeServiceHelperCommit`. -/
def makeServiceHelperCommit (requestId : UInt64) : Frame :=
  { Frame.zero with
    magic := kServiceHelperProtocolMagic
    version := kServiceHelperProtocolVersion
    kind := FrameKind.commit.code
    requestId := requestId }

/-- `makeServiceHelperResponse`; the payload length defaults to zero. -/
def makeServiceHelperResponse (requestId : UInt64) (status : ResponseStatus)
    (payloadBytes : Nat := 0) : Frame :=
  { Frame.zero with
    magic := kServiceHelperProtocolMagic
    version := kServiceHelperProtocolVersion
    kind := FrameKind.response.code
    requestId := requestId
    status := status.code
    payloadBytes := .ofNat payloadBytes }

/-! ## Validation -/

/-- `validServiceMd5`, on the digest's characters. -/
def validServiceMd5 (value : Bytes) : Bool :=
  value.length == kServiceMd5Bytes && value.all fun character =>
    (0x30 ≤ character && character ≤ 0x39) || (0x61 ≤ character && character ≤ 0x66) ||
      (0x41 ≤ character && character ≤ 0x46)

/-- `serviceHelperBytesAreZero`, over the whole reserved block. -/
def serviceHelperBytesAreZero (bytes : Vector UInt8 28) : Bool := bytes.all (· == 0)

/-- `validServiceHelperFrameBase`. -/
def validServiceHelperFrameBase (frame : Frame) : Bool :=
  frame.magic == kServiceHelperProtocolMagic && frame.version == kServiceHelperProtocolVersion &&
    frame.requestId != 0 && serviceHelperBytesAreZero frame.reserved

/-- `validateServiceHelperRequest`. -/
def validateServiceHelperRequest (frame : Frame) : Bool :=
  validServiceHelperFrameBase frame && frame.kind == FrameKind.request.code &&
    frame.status == 0 && 0 < frame.serviceNameBytes.toNat &&
    frame.serviceNameBytes.toNat ≤ kMaximumServiceNameBytes &&
    frame.serviceMd5Bytes.toNat == kServiceMd5Bytes &&
    frame.payloadBytes.toNat ≤ kMaximumServicePayloadBytes &&
    frame.waitForServiceMs.toNat ≤ kMaximumServiceWaitMilliseconds

/-- `validateServiceHelperReady`. -/
def validateServiceHelperReady (frame : Frame) (requestId : UInt64) : Bool :=
  if !validServiceHelperFrameBase frame || frame.requestId != requestId ||
      frame.kind != FrameKind.ready.code || frame.serviceNameBytes != 0 ||
      frame.serviceMd5Bytes != 0 || frame.payloadBytes != 0 || frame.waitForServiceMs != 0 then
    false
  else
    frame.status == ReadyStatus.ready.code || frame.status == ReadyStatus.serviceUnavailable.code ||
      frame.status == ReadyStatus.protocolError.code

/-- `validateServiceHelperCommit`. -/
def validateServiceHelperCommit (frame : Frame) (requestId : UInt64) : Bool :=
  validServiceHelperFrameBase frame && frame.requestId == requestId &&
    frame.kind == FrameKind.commit.code && frame.status == 0 && frame.serviceNameBytes == 0 &&
    frame.serviceMd5Bytes == 0 && frame.payloadBytes == 0 && frame.waitForServiceMs == 0

/-- `validateServiceHelperResponse`. -/
def validateServiceHelperResponse (frame : Frame) (requestId : UInt64) : Bool :=
  if !validServiceHelperFrameBase frame || frame.requestId != requestId ||
      frame.kind != FrameKind.response.code || frame.serviceNameBytes != 0 ||
      frame.serviceMd5Bytes != 0 || frame.waitForServiceMs != 0 ||
      frame.payloadBytes.toNat > kMaximumServicePayloadBytes then
    false
  else if frame.status == ResponseStatus.completed.code then
    true
  else
    frame.payloadBytes == 0 && (frame.status == ResponseStatus.callFailed.code ||
      frame.status == ResponseStatus.responseTooLarge.code ||
      frame.status == ResponseStatus.protocolError.code)

/-- A frame accepted as a commit carries the id it was checked against. -/
theorem requestId_of_validateCommit {frame : Frame} {id : UInt64}
    (h : validateServiceHelperCommit frame id = true) : frame.requestId = id := by
  simp only [validateServiceHelperCommit, Bool.and_eq_true, beq_iff_eq] at h
  exact h.1.1.1.1.1.1.2

end Ros1Tools.Service
