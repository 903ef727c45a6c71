import Ros1Tools.Lib.Bytes
import Ros1Tools.Lib.Except
import Ros1Tools.Lib.Map
import Ros1Tools.Error

/-!
# The native context of an adapter

`NativeContext::FromInstanceSpec` with the checks it makes: an instance spec is
accepted if its configuration is a complete and well-formed network identity and if its
scope says the same.  Texts are byte strings, one character a byte.
-/

namespace Ros1Tools.Adapter

open Lib

/-! ## What a process is given -/

structure SchemaReference where
  messageId : String
  typeName : String
  schemaVersion : Nat
  schemaFingerprint : String
deriving DecidableEq, Repr

inductive PayloadEncoding where
  | unspecified
  | json
  | protobuf
deriving DecidableEq, Repr

structure Payload where
  encoding : PayloadEncoding
  schema : Option SchemaReference
  value : String
deriving DecidableEq, Repr

/-- `google::protobuf::Map<std::string, std::string>`. -/
abbrev Attributes := Std.ExtTreeMap String String compare

/-- The scope of an instance, and the subject of an invocation. -/
structure Scope where
  kind : String
  key : String
  attributes : Attributes
deriving DecidableEq

/-- `xgc::adapter::v1::AdapterInstanceSpec`. -/
structure InstanceSpec where
  configuration : Option Payload
  secretsSize : Nat
  scope : Option Scope
deriving DecidableEq

/-- What the adapter calls and what it was compiled with: the JSON reader, `inet_pton`,
`ros::names::validate`, and the schema of its configuration. -/
structure Platform where
  parse : String → Except String Json
  inetPton4 : String → Bool
  inetPton6 : String → Bool
  namesValidate : Bytes → Except String Unit
  configuration : SchemaReference

structure NativeContext where
  rosMasterUri : String
  rosIp : String
  rosHostname : String
  scopeKey : String
deriving DecidableEq, Repr

def maximumConfigurationBytes : Nat := 16384
def maximumMasterUriBytes : Nat := 2048
def maximumNetworkIdentityBytes : Nat := 255

/-! ## Checks on JSON -/

/-- Raises unless a condition holds. -/
def check (condition : Bool) (code message : String) : Except Exn Unit :=
  if condition then .ok () else .error (permanentError code message)

theorem check_eq_ok {condition : Bool} {code message : String} {u : Unit} :
    check condition code message = .ok u ↔ condition = true := ite_ok_eq_ok

def Platform.parseStrictJson (platform : Platform) (input description : String) :
    Except Exn Json :=
  match platform.parse input with
  | .ok value => .ok value
  | .error errors =>
      .error (permanentError "invalid_json" (description ++ " is not strict JSON: " ++ errors))

def requireObject (value : Json) (field : String) : Except Exn Json.Members :=
  match value with
  | .object members => .ok members
  | _ => .error (permanentError "invalid_request" (field ++ " must be a JSON object"))

def rejectUnknownFields (allowed : List String) : Json.Members → Except Exn Unit
  | [] => .ok ()
  | (name, _) :: members =>
      if allowed.contains name then rejectUnknownFields allowed members
      else .error (permanentError "invalid_request" ("unknown request field '" ++ name ++ "'"))

def requiredString (members : Json.Members) (field : String) : Except Exn String :=
  match Json.find field members with
  | some (.string text) =>
      if text = "" then
        .error (permanentError "invalid_request" (field ++ " must be a non-empty string"))
      else .ok text
  | _ => .error (permanentError "invalid_request" (field ++ " must be a non-empty string"))

def requiredPossiblyEmptyString (members : Json.Members) (field : String) :
    Except Exn String :=
  match Json.find field members with
  | some (.string text) => .ok text
  | _ => .error (permanentError "invalid_configuration" (field ++ " must be a string"))

/-! ## Checks on text -/

def validateNoControlCharacters (value field : String) : Except Exn Unit :=
  check (value.toList.all fun c => 0x20 ≤ c.toNat && c.toNat != 0x7f) "invalid_configuration"
    (field ++ " must not contain control characters")

def validateLength (value : String) (maximum : Nat) (field : String) : Except Exn Unit :=
  check (value.length ≤ maximum) "invalid_configuration"
    (field ++ " exceeds its maximum encoded length")

/-- The characters `[A-Za-z0-9._~-]`. -/
def isHostCharacter (c : Char) : Bool :=
  c.isAlphanum || c == '.' || c == '_' || c == '~' || c == '-'

def isHexDigit (c : Char) : Bool :=
  c.isDigit || ('A' ≤ c && c ≤ 'F') || ('a' ≤ c && c ≤ 'f')

/-- The port and what may follow it: `:([0-9]{1,5})/?`. -/
def masterPort : List Char → Option (List Char)
  | ':' :: rest =>
      let digits := rest.takeWhile Char.isDigit
      let back := rest.dropWhile Char.isDigit
      if 1 ≤ digits.length ∧ digits.length ≤ 5 ∧ (back = [] ∨ back = ['/']) then some digits
      else none
  | _ => none

/-- The port of a text that matches
`^http://(?:[A-Za-z0-9._~-]+|\[[0-9A-Fa-f:]+\]):([0-9]{1,5})/?$`.  Neither kind of host holds
the character that ends it, so that there is one way to match. -/
def masterUriPattern (value : String) : Option (List Char) :=
  (value.toList.dropPrefix? "http://".toList).bind fun rest =>
    match rest with
    | '[' :: inner =>
        let host := inner.takeWhile fun c => isHexDigit c || c == ':'
        match inner.dropWhile fun c => isHexDigit c || c == ':' with
        | ']' :: back => if host = [] then none else masterPort back
        | _ => none
    | _ =>
        if rest.takeWhile isHostCharacter = [] then none
        else masterPort (rest.dropWhile isHostCharacter)

def validateMasterUri (value : String) : Except Exn Unit :=
  match masterUriPattern value with
  | none => .error (permanentError "invalid_configuration"
      "rosMasterUri must be an absolute HTTP host and port")
  | some digits =>
      let port := Nat.ofDigitChars 10 digits 0
      check (port != 0 && port ≤ 65535) "invalid_configuration"
        "rosMasterUri port must be between 1 and 65535"

def Platform.validateIpAddress (platform : Platform) (value : String) : Except Exn Unit :=
  check (value == "" || platform.inetPton4 value || platform.inetPton6 value)
    "invalid_configuration" "rosIp must be an IPv4 or IPv6 address"

/-- One label of a host name, from `start` up to `stop`. -/
def isHostLabel (value : List Char) (start stop : Nat) : Bool :=
  let size := stop - start
  size != 0 && size ≤ 63 && (value[start]?.any Char.isAlphanum) &&
    (value[stop - 1]?.any Char.isAlphanum) &&
    ((value.drop start).take size).all fun c => c.isAlphanum || c == '-' || c == '_'

/-- The loop over the labels of a host name. -/
def validateLabels (value : List Char) (effectiveSize labelStart : Nat) : Bool :=
  if _ : labelStart < effectiveSize then
    match (value.drop labelStart).findIdx? (· == '.') with
    | none => isHostLabel value labelStart effectiveSize
    | some offset =>
        isHostLabel value labelStart (labelStart + offset) &&
          (effectiveSize ≤ labelStart + offset ||
            validateLabels value effectiveSize (labelStart + offset + 1))
  else true
termination_by effectiveSize - labelStart

def validateHostname (value : String) : Except Exn Unit :=
  match value.toList with
  | [] => .ok ()
  | cs =>
      let effectiveSize := if cs.getLast? = some '.' then cs.length - 1 else cs.length
      if effectiveSize = 0 then
        .error (permanentError "invalid_configuration" "rosHostname is invalid")
      else check (validateLabels cs effectiveSize 0) "invalid_configuration"
        "rosHostname must contain valid DNS-style labels"

/-- The expression `^sha256:[0-9a-f]{64}$`. -/
def canonicalScopeKeyPattern (key : String) : Bool :=
  match key.toList.dropPrefix? "sha256:".toList with
  | some digits => digits.length == 64 && digits.all fun c => c.isDigit || ('a' ≤ c && c ≤ 'f')
  | none => false

/-! ## Scope and configuration -/

namespace NativeContext

variable (context : NativeContext)

/-- `1 + !ros_ip.empty() + !ros_hostname.empty()`. -/
def attributeCount : Nat :=
  1 + (if context.rosIp = "" then 0 else 1) + (if context.rosHostname = "" then 0 else 1)

/-- Whether the addresses of a scope and the number of its attributes are those of the
context; an attribute that is missing reads as empty. -/
def matchesNetworkIdentity (attributes : Attributes) : Bool :=
  attributes["ip"]?.getD "" == context.rosIp &&
    attributes["hostname"]?.getD "" == context.rosHostname &&
    attributes.size == context.attributeCount

end NativeContext

/-- The network identity of a configuration, without the scope. -/
def Platform.readConfiguration (platform : Platform) (value : String) :
    Except Exn (String × String × String) := do
  let document ← platform.parseStrictJson value "instance configuration"
  let members ← requireObject document "instance configuration"
  rejectUnknownFields ["rosMasterUri", "rosIp", "rosHostname"] members
  let rosMasterUri ← requiredString members "rosMasterUri"
  let rosIp ← requiredPossiblyEmptyString members "rosIp"
  let rosHostname ← requiredPossiblyEmptyString members "rosHostname"
  validateNoControlCharacters rosMasterUri "rosMasterUri"
  validateNoControlCharacters rosIp "rosIp"
  validateNoControlCharacters rosHostname "rosHostname"
  validateLength rosMasterUri maximumMasterUriBytes "rosMasterUri"
  validateLength rosIp maximumNetworkIdentityBytes "rosIp"
  validateLength rosHostname maximumNetworkIdentityBytes "rosHostname"
  validateMasterUri rosMasterUri
  check (rosIp == "" || rosHostname == "") "invalid_configuration"
    "rosIp and rosHostname are mutually exclusive"
  platform.validateIpAddress rosIp
  validateHostname rosHostname
  return (rosMasterUri, rosIp, rosHostname)

/-- The payload of a configuration that uses the compiled schema. -/
def Platform.configurationPayload (platform : Platform) (spec : InstanceSpec) :
    Except Exn Payload :=
  match spec.configuration with
  | some payload =>
      if payload.encoding = .json ∧ payload.schema = some platform.configuration then .ok payload
      else .error (permanentError "invalid_configuration"
        "instance configuration must use the compiled NativeContext JSON schema")
  | none => .error (permanentError "invalid_configuration"
      "instance configuration must use the compiled NativeContext JSON schema")

/-- The scope of an instance, if it is one of a native context. -/
def requireScope (spec : InstanceSpec) : Except Exn Scope :=
  match spec.scope with
  | some scope =>
      if scope.kind = "ros1-native-context" then .ok scope
      else .error (permanentError "invalid_scope" "instance scope must be ros1-native-context")
  | none => .error (permanentError "invalid_scope" "instance scope must be ros1-native-context")

def Platform.fromInstanceSpec (platform : Platform) (spec : InstanceSpec) :
    Except Exn NativeContext := do
  let payload ← platform.configurationPayload spec
  check (payload.value.length ≤ maximumConfigurationBytes) "invalid_configuration"
    "instance configuration exceeds its maximum encoded size"
  check (spec.secretsSize == 0) "invalid_configuration"
    "ROS1 Tools Adapter does not accept secret references"
  let (rosMasterUri, rosIp, rosHostname) ← platform.readConfiguration payload.value
  let scope ← requireScope spec
  check (canonicalScopeKeyPattern scope.key) "invalid_scope"
    "instance scope key must be a canonical SHA-256 digest"
  let context : NativeContext := ⟨rosMasterUri, rosIp, rosHostname, scope.key⟩
  check (scope.attributes["master-uri"]? == some rosMasterUri) "invalid_scope"
    "scope master-uri does not match instance configuration"
  check (context.matchesNetworkIdentity scope.attributes) "invalid_scope"
    "scope network identity does not match configuration"
  return context

end Ros1Tools.Adapter
