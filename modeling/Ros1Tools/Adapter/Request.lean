import Ros1Tools.Adapter.Subject
import Ros1Tools.Service.Helper

/-!
# The input of a service call

What `ToolsAdapter::CallService` checks between the capability flag and
`ServiceInvoker::call`: the invocation, and every field of its input.
-/

namespace Ros1Tools.Adapter

open Lib Service

def maximumWaitMilliseconds : Nat := 300000
def maximumRosNameBytes : Nat := 4096
def maximumRosTypeBytes : Nat := 512

/-- `xgc::adapter::v1::OperationRequest`. -/
structure OperationRequest where
  context : WorkContext
  input : Adapter.Payload

/-! ## Names -/

/-- The expression `[A-Za-z][A-Za-z0-9_]*`. -/
def isIdentifier : List Char → Bool
  | [] => false
  | c :: cs => c.isAlpha && cs.all fun c => c.isAlphanum || c == '_'

/-- The identifiers a text consists of, with a separator between any two. -/
def segments : List Char → List (List Char)
  | [] => [[]]
  | '/' :: cs => [] :: segments cs
  | c :: cs =>
      match segments cs with
      | [] => [[c]]
      | segment :: rest => (c :: segment) :: rest

/-- The expression `^/[A-Za-z][A-Za-z0-9_]*(?:/[A-Za-z][A-Za-z0-9_]*)*$`. -/
def absoluteRosNamePattern (value : String) : Bool :=
  match value.toList with
  | '/' :: rest => (segments rest).all isIdentifier
  | _ => false

/-- The expression `^[A-Za-z][A-Za-z0-9_]*/[A-Za-z][A-Za-z0-9_]*$`. -/
def rosTypePattern (value : String) : Bool :=
  match segments value.toList with
  | [package, name] => isIdentifier package && isIdentifier name
  | _ => false

def Platform.validateAbsoluteRosName (platform : Platform) (value field : String) :
    Except Exn Unit :=
  if value = "" ∨ value.length > maximumRosNameBytes ∨ value = "/" ∨
      value.toList.head? ≠ some '/' ∨ absoluteRosNamePattern value = false then
    .error (permanentError "invalid_ros_name" (field ++ " must be an absolute ROS1 graph name"))
  else
    match platform.namesValidate (Bytes.ofText value) with
    | .ok () => .ok ()
    | .error validationError => .error (permanentError "invalid_ros_name"
        (field ++ " is not a valid ROS1 graph name: " ++ validationError))

def validateRosType (value field : String) : Except Exn Unit :=
  check (value.length ≤ maximumRosTypeBytes && rosTypePattern value) "invalid_ros_type"
    (field ++ " must use package/Type syntax")

/-! ## Fields -/

def requiredUInt (members : Json.Members) (field : String) (minimum maximum : Nat) :
    Except Exn UInt32 :=
  match Json.find field members with
  | none => .error (permanentError "invalid_request" (field ++ " is required"))
  | some value =>
      if value.isIntegral = false ∨ (value.isInt64 = true ∧ value.asInteger < 0) then
        .error (permanentError "invalid_request" (field ++ " must be an unsigned integer"))
      else if value.asInteger < minimum ∨ maximum < value.asInteger then
        .error (permanentError "invalid_request" (field ++ " must be between " ++
          toString minimum ++ " and " ++ toString maximum))
      else .ok (.ofNat value.asInteger.toNat)

/-- A member that must be an object. -/
def requiredObject (members : Json.Members) (field : String) :
    Except Exn Json.Members :=
  match Json.find field members with
  | none => .error (permanentError "invalid_request" (field ++ " is required"))
  | some value => requireObject value field

def Platform.parseInput (platform : Platform) (payload : Adapter.Payload)
    (expectedSchema : SchemaReference) (maximumRequestBytes : Nat) :
    Except Exn Json.Members :=
  if payload.encoding ≠ .json ∨ payload.schema ≠ some expectedSchema then
    .error (permanentError "unsupported_input_contract"
      "capability input must use its compiled JSON schema")
  else if payload.value.length > maximumRequestBytes then
    .error (resourceExhaustedError "request_too_large"
      "capability input exceeds its compiled maximum request size")
  else do
    let value ← platform.parseStrictJson payload.value "capability input"
    requireObject value "capability input"

/-- `ServiceCallRequest`, without the deadline and the cancellation callback. -/
structure ServiceCallInput extends ServiceCallRequest where
  request : Json.Members
  callTimeoutMs : UInt32

/-- The fields of a service call. -/
def Platform.readCallInput (platform : Platform) (input : Json.Members) :
    Except Exn ServiceCallInput := do
  rejectUnknownFields
    ["service", "serviceType", "request", "waitForServiceMs", "callTimeoutMs"] input
  let service ← requiredString input "service"
  let serviceType ← requiredString input "serviceType"
  platform.validateAbsoluteRosName service "service"
  validateRosType serviceType "serviceType"
  let request ← requiredObject input "request"
  let waitForServiceMs ← requiredUInt input "waitForServiceMs" 0 maximumWaitMilliseconds
  let callTimeoutMs ← requiredUInt input "callTimeoutMs" 1 maximumWaitMilliseconds
  return { service := Bytes.ofText service, serviceType := Bytes.ofText serviceType, request,
           waitForServiceMs, callTimeoutMs }

/-- What is made of them.  The request object and the call timeout are read by the codec and
the clock. -/
def Platform.readServiceCall (platform : Platform) (input : Json.Members) :
    Except Exn ServiceCallRequest :=
  (platform.readCallInput input).map ServiceCallInput.toServiceCallRequest

/-- What `CallService` makes of a request once the capability is found enabled. -/
def ToolsAdapter.callService (adapter : ToolsAdapter) (platform : Platform) (contract : Contract)
    (request : OperationRequest) : Except Exn ServiceCallRequest := do
  contract.service.validateInvocationContext request.context
  adapter.validateSubject request.context
  let input ← platform.parseInput request.input contract.service.inputSchema
    contract.service.maximumRequestBytes
  platform.readServiceCall input

/-- `ros::names::validate` as a test. -/
def Platform.validName (platform : Platform) (service : Bytes) : Bool :=
  (platform.namesValidate service).isOk

/-! ## What is admitted -/

/-- What the helper asks of a request. -/
structure Platform.Serves (platform : Platform) (request : ServiceCallRequest) : Prop where
  name : validAbsoluteServiceName platform.validName request.service = true
  wait_le : request.waitForServiceMs.toNat ≤ kMaximumServiceWaitMilliseconds

theorem Platform.validateAbsoluteRosName_eq_ok {platform : Platform} {value field : String}
    {u : Unit} (h : platform.validateAbsoluteRosName value field = .ok u) :
    (∃ c cs, value.toList = '/' :: c :: cs) ∧
      platform.namesValidate (Bytes.ofText value) = .ok () := by
  obtain ⟨hpattern, h⟩ := ite_error_eq_ok.mp h
  simp only [not_or, not_not] at hpattern
  obtain ⟨-, -, hroot, hhead, -⟩ := hpattern
  constructor
  · cases hvalue : value.toList with
    | nil =>
        rw [hvalue] at hhead
        cases hhead
    | cons d ds =>
        rw [hvalue] at hhead
        cases hhead
        cases ds with
        | nil => exact absurd (String.toList_inj.mp (hvalue.trans (by decide))) hroot
        | cons c cs => exact ⟨c, cs, rfl⟩
  · split at h
    · rename_i hvalid
      exact hvalid
    · cases h

theorem requiredUInt_eq_ok {members : Json.Members} {field : String}
    {minimum maximum : Nat} {n : UInt32} (h : requiredUInt members field minimum maximum = .ok n)
    (hmaximum : maximum < 2 ^ 32) : n.toNat ≤ maximum := by
  unfold requiredUInt at h
  split at h
  · cases h
  · rename_i value hvalue
    obtain ⟨-, h⟩ := ite_error_eq_ok.mp h
    obtain ⟨hrange, h⟩ := ite_error_eq_ok.mp h
    cases h
    rw [not_or, not_lt, not_lt] at hrange
    have hle : value.asInteger.toNat ≤ maximum := Int.toNat_le.mpr hrange.2
    rw [UInt32.toNat_ofNat_of_lt' (lt_of_le_of_lt hle hmaximum)]
    exact hle

/-- **What `CallService` admits, the helper serves.** -/
theorem ToolsAdapter.callService_eq_ok {adapter : ToolsAdapter} {platform : Platform}
    {contract : Contract} {request : OperationRequest} {call : ServiceCallRequest}
    (h : adapter.callService platform contract request = .ok call) : platform.Serves call := by
  unfold callService at h
  simp only [bind_eq_ok] at h
  obtain ⟨-, -, -, -, input, -, h⟩ := h
  unfold Platform.readServiceCall Platform.readCallInput at h
  simp only [map_bind, bind_eq_ok] at h
  obtain ⟨-, -, service, -, serviceType, -, _, hname, -, -, _, -, wait, hwait, _, -, hcall⟩ := h
  cases hcall
  obtain ⟨⟨c, cs, hvalue⟩, hvalid⟩ := Platform.validateAbsoluteRosName_eq_ok hname
  have hbytes : Bytes.ofText service =
      0x2f :: UInt8.ofNat c.toNat :: cs.map fun c => UInt8.ofNat c.toNat := by
    rw [Bytes.ofText, hvalue]
    rfl
  have hname : platform.validName (Bytes.ofText service) = true := by
    rw [Platform.validName, hvalid]
    rfl
  refine ⟨?_, requiredUInt_eq_ok hwait (by decide)⟩
  rw [validAbsoluteServiceName, hname, hbytes]
  rfl

end Ros1Tools.Adapter
